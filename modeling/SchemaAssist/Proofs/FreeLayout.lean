/-
# SchemaAssist.Proofs.FreeLayout — layout does not change meaning

Blanks may stand behind any token and at the start of a text, and comments at the end of any
line: they change nothing about the tree, its lines included.  Under an open parenthesis or
bracket a line may be broken behind any token, which changes nothing but the lines.

`tokensUpTo?_ofText` turns all three into a statement about segments; which gap may stand where
is settled there (`Segmented.insert_gap`, `Segmented.insert_comment`).
-/
import SchemaAssist.Proofs.Token.Insertion
import SchemaAssist.Token.Listing

namespace SchemaAssist

set_option autoImplicit false

open Text Grammar

variable {f : Mark → Mark} {move : Int → Int}

theorem tokensUpTo?_ofText {text : String} {segments : List Segment}
    (segmented : Segmented 0 .start text.toList segments) :
    tokensUpTo? f (TokenStream.ofText text) = some ((tokensOf segments).map (·.relocate f)) := by
  rw [ofText_eq_ok.2 ⟨segments, segmented, rfl⟩]
  rfl

/-- Texts whose segments spell the same tokens have the same tree, or none alike. -/
theorem parse?_of_segments (rows : ∀ mark, (f mark).row = move mark.row) {first second : String}
    {segments others : List Segment} (segmented : Segmented 0 .start first.toList segments)
    (segmented' : Segmented 0 .start second.toList others)
    (same : (tokensOf segments).map (·.relocate f) = (tokensOf others).map (·.relocate f)) :
    (Schema.parse? first).map (·.mapLine move) = (Schema.parse? second).map (·.mapLine move) := by
  apply parse?_congr rows
  rw [tokensUpTo?_ofText segmented, tokensUpTo?_ofText segmented', same]

theorem Mark.startOfLine_behind {chars : List Char} (noFeed : '\n' ∉ chars) (mark : Mark) :
    (mark.behind chars).startOfLine = mark.startOfLine := by
  rw [startOfLine, startOfLine, Mark.line_behind_of_noFeed noFeed]

theorem parse?_insert_gap (steps : Steps f) (rows : ∀ mark, (f mark).row = move mark.row)
    {front gap rest : String} {before others : List Segment}
    (segmented : Segmented 0 .start (front ++ rest).toList (before ++ others))
    (shape : before.flatMap (·.chars) = front.toList) (last : EndsOnToken before)
    (isGap : IsGap (depthBehind 0 (tokensOf before)) gap.toList rest.toList)
    (same : ∀ mark : Mark, f (mark.behind gap.toList) = f mark) :
    (Schema.parse? (front ++ gap ++ rest)).map (·.mapLine move) =
      (Schema.parse? (front ++ rest)).map (·.mapLine move) := by
  have split : Segmented 0 .start (front.toList ++ rest.toList) (before ++ others) := by
    rwa [← String.toList_append]
  obtain ⟨inserted, segmented', tokens⟩ := split.insert_gap steps shape last isGap (same _)
  have whole : Segmented 0 .start (front ++ gap ++ rest).toList inserted := by
    simpa using segmented'
  exact parse?_of_segments rows whole segmented tokens

theorem parse?_insert_comment {front remark rest : String} {before others : List Segment}
    (segmented : Segmented 0 .start (front ++ rest).toList (before ++ others))
    (shape : before.flatMap (·.chars) = front.toList) (noFeed : '\n' ∉ remark.toList)
    (ends : EndsSegment rest.toList) :
    Schema.parse? (front ++ ("//" ++ remark) ++ rest) = Schema.parse? (front ++ rest) := by
  have rows : ∀ mark : Mark, mark.startOfLine.row = id mark.row := fun _ => rfl
  have sameLine : ∀ mark : Mark,
      (mark.behind ('/' :: '/' :: remark.toList)).startOfLine = mark.startOfLine :=
    Mark.startOfLine_behind (by simp [noFeed])
  have split : Segmented 0 .start (front.toList ++ rest.toList) (before ++ others) := by
    rwa [← String.toList_append]
  obtain ⟨inserted, segmented', tokens⟩ :=
    split.insert_comment steps_startOfLine shape noFeed ends sameLine
  have whole : Segmented 0 .start (front ++ ("//" ++ remark) ++ rest).toList inserted := by
    simpa using segmented'
  simpa [Schema.mapLine_id] using parse?_of_segments rows whole segmented tokens

/-- **Layout does not change meaning.**  In a text with tokens, blanks behind a token or at the
start, and a comment in front of a line feed outside strings or at the end, leave the tree as it
is; a line feed behind a token that leaves a parenthesis or bracket open leaves it as it is but
for the numbers of its lines. -/
theorem parse?_insert {front rest : String} {stream : TokenStream}
    (lexed : TokenStream.ofText (front ++ rest) = .ok stream) :
    (∀ gap : String, (∀ c ∈ gap.toList, IsGapChar c) →
      (front = "" ∨ ∃ token ∈ stream.tokens, token.EndsAt (front ++ rest).toList front.length) →
      Schema.parse? (front ++ gap ++ rest) = Schema.parse? (front ++ rest)) ∧
    (∀ remark : String, '\n' ∉ remark.toList →
      (rest = "" ∨ rest.toList.head? = some '\n' ∧
        ∀ token ∈ stream.tokens, ¬ token.Encloses (front ++ rest).toList front.length) →
      Schema.parse? (front ++ ("//" ++ remark) ++ rest) = Schema.parse? (front ++ rest)) ∧
    ∀ before token after, stream.tokens = before ++ token :: after →
      token.EndsAt (front ++ rest).toList front.length → 0 < depthBehind 0 (before ++ [token]) →
      (Schema.parse? (front ++ "\n" ++ rest)).map (·.mapLine fun _ => 0) =
        (Schema.parse? (front ++ rest)).map (·.mapLine fun _ => 0) := by
  obtain ⟨segments, segmented, rfl⟩ := ofText_eq_ok.1 lexed
  rw [String.toList_append, ← String.length_toList]
  have split : Segmented 0 .start (front.toList ++ rest.toList) segments := by
    rwa [← String.toList_append]
  refine ⟨fun gap blank place => ?_, fun remark noFeed ends => ?_, ?_⟩
  · have isGap : ∀ depth, IsGap depth gap.toList rest.toList := fun depth =>
      .ofBlanks blank depth rest.toList
    have cut : ∃ before others, segments = before ++ others ∧
        before.flatMap (·.chars) = front.toList ∧ EndsOnToken before := by
      rcases place with rfl | ⟨token, isIn, ends⟩
      · exact ⟨[], segments, rfl, rfl, nofun⟩
      · obtain ⟨before, after, tokens⟩ := List.append_of_mem isIn
        obtain ⟨upTo, others, rfl, shape, last, -⟩ := split.cut_behind tokens ends
        exact ⟨upTo, others, rfl, shape, last⟩
    obtain ⟨before, others, rfl, shape, last⟩ := cut
    have rows : ∀ mark : Mark, mark.startOfLine.row = id mark.row := fun _ => rfl
    have sameLine := Mark.startOfLine_behind (IsGapChar.noFeed blank)
    simpa [Schema.mapLine_id] using
      parse?_insert_gap steps_startOfLine rows segmented shape last (isGap _) sameLine
  · have lineEnd : rest.toList = [] ∨ rest.toList.head? = some '\n' ∧ _ :=
      ends.imp_left fun empty => by rw [empty]; rfl
    obtain ⟨before, others, rfl, shape⟩ := split.exists_cut lineEnd
    apply parse?_insert_comment segmented shape noFeed
    rcases lineEnd with empty | ⟨feed, -⟩
    · exact .inl (by rw [empty]; rfl)
    · exact .inr feed
  · intro before token after tokens ends positive
    obtain ⟨upTo, others, rfl, shape, last, spelled⟩ := split.cut_behind tokens ends
    rw [← spelled] at positive
    have steps : Steps fun _ => Mark.start := fun _ _ _ _ => rfl
    have rows : ∀ _ : Mark, Mark.start.row = 0 := fun _ => rfl
    exact parse?_insert_gap steps rows segmented shape last (.feed positive .none) fun _ => rfl

/-- An enum up to an open parenthesis. -/
def openArgument : String := "enum E \x7b\n A @map("

/-- The rest of it, with a string that looks like a comment and holds a line feed. -/
def closedArgument : String := "\n \"//\\\n\")\n\x7d"

def openTokens : List Token :=
  [⟨.keyword .enum, ⟨1, 1⟩⟩, ⟨.word "E", ⟨1, 6⟩⟩, ⟨.punct .braceOpen, ⟨1, 8⟩⟩, ⟨.newline, ⟨1, 9⟩⟩,
    ⟨.word "A", ⟨2, 2⟩⟩, ⟨.punct .atSign, ⟨2, 4⟩⟩, ⟨.word "map", ⟨2, 5⟩⟩]

def closedTokens : List Token :=
  [⟨.string "//\n", ⟨3, 2⟩⟩, ⟨.punct .parenClose, ⟨4, 2⟩⟩, ⟨.newline, ⟨4, 3⟩⟩,
    ⟨.punct .braceClose, ⟨5, 1⟩⟩]

theorem parse?_insert_openArgument :
    TokenStream.ofText (openArgument ++ closedArgument) =
        .ok ⟨openTokens ++ ⟨.punct .parenOpen, ⟨2, 8⟩⟩ :: closedTokens, ⟨5, 2⟩⟩ ∧
      (Schema.parse? (openArgument ++ closedArgument)).isSome = true ∧
      Schema.parse? (openArgument ++ " \t\r" ++ closedArgument) =
        Schema.parse? (openArgument ++ closedArgument) ∧
      Schema.parse? (openArgument ++ ("//" ++ "\"(") ++ closedArgument) =
        Schema.parse? (openArgument ++ closedArgument) ∧
      (Schema.parse? (openArgument ++ "\n" ++ closedArgument)).map (·.mapLine fun _ => 0) =
        (Schema.parse? (openArgument ++ closedArgument)).map (·.mapLine fun _ => 0) := by
  have lexed : TokenStream.ofText (openArgument ++ closedArgument) =
      .ok ⟨openTokens ++ ⟨.punct .parenOpen, ⟨2, 8⟩⟩ :: closedTokens, ⟨5, 2⟩⟩ := by decide +kernel
  have ends : Token.EndsAt (openArgument ++ closedArgument).toList
      ⟨.punct .parenOpen, ⟨2, 8⟩⟩ openArgument.length :=
    ⟨['('], closedArgument.toList, by decide +kernel, rfl, by decide +kernel⟩
  have outside : ∀ token ∈ openTokens ++ ⟨.punct .parenOpen, ⟨2, 8⟩⟩ :: closedTokens,
      ¬ token.Encloses (openArgument ++ closedArgument).toList openArgument.length := by
    rintro token isIn ⟨text, _, _, isString, -, -, before, -⟩
    have strings : (openTokens ++ ⟨.punct .parenOpen, ⟨2, 8⟩⟩ :: closedTokens).all (fun token =>
        token.lexeme.className != "STRING" || decide (openArgument.length ≤
          token.offsetIn (openArgument ++ closedArgument).toList)) = true := by decide +kernel
    have behind := List.all_eq_true.1 strings token isIn
    simp only [isString, Lexeme.className, bne_self_eq_false, Bool.false_or,
      decide_eq_true_eq] at behind
    omega
  obtain ⟨blanks, comment, feed⟩ := parse?_insert lexed
  refine ⟨lexed, by decide +kernel, ?_, ?_, ?_⟩
  · exact blanks " \t\r" (by simp [IsGapChar]) (.inr ⟨_, by simp, ends⟩)
  · exact comment "\"(" (by decide) (.inr ⟨rfl, outside⟩)
  · exact feed openTokens _ closedTokens rfl ends (by decide)

end SchemaAssist
