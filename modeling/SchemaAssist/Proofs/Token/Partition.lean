/-
# SchemaAssist.Proofs.Token.Partition — tokens are a faithful partition of the text

The place of a token tells its offset in the text (`Mark.offsetIn`), and from there on
the text reads as the token says (`Spells`).  Between the tokens and behind the last one
lie gaps: blanks, comments, and line feeds under open parentheses and brackets
(`IsGap`).  `Covers` lays tokens and gaps one behind the other, indexed by the offset
that has been reached, so that lexemes cannot overlap and no character is left out.

`Segmented.covers` reads this off the segments of a text, and the remaining facts follow
by induction on it: the offsets increase, each token is spelled at its offset, and the
line ends are exactly the line feeds in no string and under no open bracket.
-/
import SchemaAssist.Proofs.Token.Words
import Mathlib.Data.List.Induction

namespace SchemaAssist

set_option autoImplicit false

open Text Grammar

/-! ## Offsets -/

/-- The number of characters before a line.  Lines are counted from zero, and only a line
feed ends one. -/
def lineStart : List Char → Nat → Nat
  | _, 0 => 0
  | [], _ + 1 => 0
  | c :: rest, line + 1 => lineStart rest (if c = '\n' then line else line + 1) + 1

def Mark.offsetIn (source : List Char) (mark : Mark) : Nat :=
  lineStart source (mark.line - 1) + (mark.column - 1)

def Token.offsetIn (source : List Char) (token : Token) : Nat := token.mark.offsetIn source

@[simp] theorem lineStart_zero (source : List Char) : lineStart source 0 = 0 := by
  cases source <;> rfl

theorem lineStart_behind_feed (front rest : List Char) :
    lineStart (front ++ '\n' :: rest) (front.count '\n' + 1) = front.length + 1 := by
  induction front with
  | nil => simp [lineStart]
  | cons c front ih =>
      by_cases feed : c = '\n'
      · subst feed
        rw [List.count_cons_self, List.cons_append, lineStart, if_pos rfl, ih, List.length_cons]
      · rw [List.count_cons_of_ne feed, List.cons_append, lineStart, if_neg feed, ih,
          List.length_cons]

theorem Mark.column_behind {mark : Mark} (positive : 0 < mark.column) (chars : List Char) :
    0 < (mark.behind chars).column := by
  induction chars generalizing mark with
  | nil => exact positive
  | cons c chars ih =>
      refine ih ?_
      unfold Mark.after
      split <;> simp

/-- The place behind the front of a text has the length of the front as its offset. -/
theorem Mark.offsetIn_behind (front rest : List Char) :
    (Mark.start.behind front).offsetIn (front ++ rest) = front.length := by
  induction front using List.reverseRecOn generalizing rest with
  | nil => simp [Mark.offsetIn, Mark.start]
  | append_singleton front c ih =>
      have onward := ih (c :: rest)
      have line := Mark.line_behind .start front
      have column : 0 < (Mark.start.behind front).column := Mark.column_behind Nat.one_pos front
      rw [Mark.behind_append, Mark.behind_cons, Mark.behind_nil, List.append_assoc,
        List.singleton_append, List.length_append, List.length_singleton]
      unfold Mark.offsetIn Mark.after at *
      by_cases feed : c = '\n'
      · subst feed
        rw [if_pos rfl, Nat.add_sub_cancel, line, Mark.start, Nat.add_comm 1,
          lineStart_behind_feed]
        rfl
      · rw [if_neg feed]
        simp only
        omega

/-- Two fronts of a text with the same place behind them are the same. -/
theorem Mark.behind_inj {front front' rest rest' : List Char}
    (shape : front ++ rest = front' ++ rest')
    (same : Mark.start.behind front = Mark.start.behind front') : front = front' ∧ rest = rest' := by
  have length := Mark.offsetIn_behind front rest
  rw [shape, same, Mark.offsetIn_behind] at length
  exact List.append_inj shape length.symm

/-! ## Spellings and gaps -/

/-- The characters spell the lexeme: a string in quotes, with a line feed for `\n`, a tab
for `\t`, and every other character behind a backslash as it is; anything else as it
reads. -/
def Spells (lexeme : Lexeme) (chars : List Char) : Prop :=
  match lexeme with
  | .string text => ∃ body, chars = '"' :: body ++ ['"'] ∧ Quoted body text.toList
  | other => chars = other.text.toList

/-- Characters between two tokens, in front of `rest`. -/
inductive IsGap (depth : Nat) : List Char → List Char → Prop
  | none {rest : List Char} : IsGap depth [] rest
  | blank {c : Char} {gap rest : List Char} :
      IsGapChar c → IsGap depth gap rest → IsGap depth (c :: gap) rest
  | comment {body gap rest : List Char} :
      '\n' ∉ body → (gap ++ rest).head? = .none ∨ (gap ++ rest).head? = some '\n' →
      IsGap depth gap rest → IsGap depth ('/' :: '/' :: body ++ gap) rest
  | feed {gap rest : List Char} : 0 < depth → IsGap depth gap rest → IsGap depth ('\n' :: gap) rest

/-- From that offset on, and under so many open parentheses and brackets, the source
consists of the tokens, each spelled where it stands, and of gaps. -/
inductive Covers (source : List Char) : Nat → Nat → List Token → Prop
  | done {depth offset : Nat} :
      offset ≤ source.length → IsGap depth (source.drop offset) [] → Covers source depth offset []
  | token {depth offset : Nat} {gap chars rest : List Char} {token : Token}
      {tokens : List Token} :
      source.drop offset = gap ++ (chars ++ rest) → IsGap depth gap (chars ++ rest) →
      token.offsetIn source = offset + gap.length → chars ≠ [] → Spells token.lexeme chars →
      (token.lexeme = .newline → depth = 0) →
      ('\n' ∈ chars → token.lexeme = .newline ∨ ∃ text, token.lexeme = .string text) →
      Covers source (depthAfter depth (some token.lexeme))
        (offset + gap.length + chars.length) tokens →
      Covers source depth offset (token :: tokens)

theorem Front.number_chars {depth : Nat} {chars rest : List Char} {text : String}
    (front : Front depth chars (some (.number text)) rest) :
    chars = text.toList ∧ ∃ c inner, chars = c :: inner ∧ StartsNumber c inner ∧
      inner.all isNumberChar = true := by
  generalize same : some (Lexeme.number text) = found at front
  cases front with
  | number starts all _ =>
      cases same
      exact ⟨by rw [String.toList_ofList], _, _, rfl, starts, all⟩
  | word _ _ _ _ =>
      unfold wordLexeme at same
      split at same <;> cases same
  | feed =>
      unfold feedLexeme at same
      split at same <;> cases same
  | _ => cases same

theorem Front.spells {depth : Nat} {chars rest : List Char} {lexeme : Lexeme}
    (front : Front depth chars (some lexeme) rest) : Spells lexeme chars := by
  cases lexeme with
  | word text => exact (front.name rfl).1
  | keyword kind => exact (front.name rfl).1
  | number text => exact front.number_chars.1
  | punct p => exact front.punct
  | newline => exact front.newline_iff.1 rfl
  | string text =>
      obtain ⟨body, content, rfl, quoted, rfl⟩ := front.stringLexeme
      exact ⟨body, rfl, by rwa [String.toList_ofList]⟩

theorem Front.newline_depth {depth : Nat} {chars rest : List Char}
    (front : Front depth chars (some .newline) rest) : depth = 0 := by
  obtain rfl := front.newline_iff.1 rfl
  have same := (front.unique .feed rfl).2.1
  unfold feedLexeme at same
  split at same
  · assumption
  · cases same

theorem Front.holds_feed {depth : Nat} {chars rest : List Char} {lexeme : Lexeme}
    (front : Front depth chars (some lexeme) rest) (hasFeed : '\n' ∈ chars) :
    lexeme = .newline ∨ ∃ text, lexeme = .string text :=
  (front.feed_or_string hasFeed).imp front.newline_iff.2
    fun ⟨text, isString⟩ => ⟨text, Option.some.inj isString⟩

theorem BlockKind.keyword_chars (kind : BlockKind) :
    ∃ c inner, kind.keyword.toList = c :: inner ∧ ¬ ∃ rest, StartsNumber c rest := by
  have noNumber : ∀ c : Char, isDigit c = false → c ≠ '-' → ¬ ∃ rest, StartsNumber c rest := by
    rintro c noDigit noMinus ⟨rest, isDigit | ⟨isMinus, -⟩⟩
    · rw [noDigit] at isDigit
      cases isDigit
    · exact noMinus isMinus
  cases kind <;> exact ⟨_, _, rfl, noNumber _ (by decide) (by decide)⟩

/-- A lexeme that is no string is a keyword exactly if it reads as one. -/
theorem Front.keyword_iff {depth : Nat} {chars rest : List Char} {lexeme : Lexeme}
    (front : Front depth chars (some lexeme) rest) (noString : ∀ text, lexeme ≠ .string text) :
    (∃ kind, lexeme = .keyword kind) ↔ ∃ kind, lexeme.text = BlockKind.keyword kind := by
  cases lexeme with
  | keyword kind => exact iff_of_true ⟨kind, rfl⟩ ⟨kind, rfl⟩
  | string text => exact absurd rfl (noString text)
  | newline =>
      refine iff_of_false (by simp) ?_
      rintro ⟨kind, same⟩
      revert same
      cases kind <;> decide
  | punct p =>
      refine iff_of_false (by simp) ?_
      rintro ⟨kind, same⟩
      revert same
      cases p <;> cases kind <;> decide
  | number text =>
      refine iff_of_false (by simp) ?_
      rintro ⟨kind, same⟩
      obtain ⟨spelled, c, inner, shape, starts, -⟩ := front.number_chars
      obtain ⟨c', inner', spelled', other⟩ := kind.keyword_chars
      obtain rfl : text = kind.keyword := same
      rw [← spelled, shape] at spelled'
      obtain ⟨rfl, rfl⟩ := List.cons.inj spelled'
      exact other ⟨inner, starts⟩
  | word text =>
      refine iff_of_false (by simp) ?_
      rintro ⟨kind, same⟩
      obtain rfl : text = kind.keyword := same
      have looked := front.eq_wordLexeme rfl
      rw [wordLexeme_keyword] at looked
      cases looked

/-- A segment that is no token can be put in front of a gap. -/
theorem Front.isGap {depth : Nat} {chars gap rest : List Char}
    (front : Front depth chars none (gap ++ rest)) (behind : IsGap depth gap rest) :
    IsGap depth (chars ++ gap) rest := by
  generalize same : none = lexeme at front
  generalize follows : gap ++ rest = others at front
  cases front with
  | blank isBlank => exact .blank isBlank behind
  | comment noFeed ends => exact .comment noFeed (by rwa [follows]) behind
  | feed =>
      refine .feed (Nat.pos_of_ne_zero ?_) behind
      rintro rfl
      cases same
  | _ => cases same

/-! ## Covering -/

theorem Covers.behind_gap {source : List Char} {depth offset : Nat} {chars rest : List Char}
    {tokens : List Token} (here : source.drop offset = chars ++ rest)
    (front : Front depth chars none rest)
    (covers : Covers source depth (offset + chars.length) tokens) :
    Covers source depth offset tokens := by
  have others : source.drop (offset + chars.length) = rest := by
    rw [← List.drop_drop, here, List.drop_left]
  cases covers with
  | done within gap =>
      refine .done (by omega) ?_
      rw [others] at gap
      rw [here]
      exact Front.isGap (by rwa [List.append_nil]) gap
  | @token _ _ gap own behind token tokens split isGap place nonempty spells depth feeds onward =>
      rw [others] at split
      subst split
      have split : source.drop offset = (chars ++ gap) ++ (own ++ behind) := by
        rw [here, List.append_assoc]
      refine .token split (front.isGap isGap) ?_ nonempty spells depth feeds ?_
      · rw [place, List.length_append, Nat.add_assoc]
      · rwa [List.length_append, ← Nat.add_assoc]

/-- The segments of a text cover it. -/
theorem Segmented.covers {depth : Nat} {front text : List Char} {segments : List Segment}
    (segmented : Segmented depth (Mark.start.behind front) text segments) :
    Covers (front ++ text) depth front.length (tokensOf segments) := by
  generalize place : Mark.start.behind front = mark at segmented
  induction segmented generalizing front with
  | done => exact .done (by simp) (by rw [List.append_nil, List.drop_length]; exact .none)
  | @cons depth mark chars rest lexeme segments front' _ ih =>
      subst place
      have onward := @ih (front ++ chars) (by rw [Mark.behind_append])
      rw [List.append_assoc, List.length_append] at onward
      have here : (front ++ (chars ++ rest)).drop front.length = chars ++ rest := List.drop_left
      cases lexeme with
      | none => exact .behind_gap here front' onward
      | some lexeme =>
          have nonempty : chars ≠ [] := by
            obtain ⟨c, inner, rfl⟩ := front'.cons
            exact List.cons_ne_nil _ _
          have noGap : (front ++ (chars ++ rest)).drop front.length = [] ++ (chars ++ rest) := here
          refine .token noGap .none (Mark.offsetIn_behind _ _) nonempty front'.spells ?_
            front'.holds_feed onward
          rintro rfl
          exact front'.newline_depth

/-! ## What a covering says of its tokens -/

namespace Covers

variable {source : List Char} {depth offset : Nat} {tokens : List Token}

theorem offset_le (covers : Covers source depth offset tokens) :
    offset ≤ source.length ∧ ∀ token ∈ tokens, offset ≤ token.offsetIn source := by
  induction covers with
  | done within _ => exact ⟨within, by simp⟩
  | token _ _ place _ _ _ _ _ ih =>
      refine ⟨by omega, fun token isIn => ?_⟩
      rcases List.mem_cons.1 isIn with rfl | isIn
      · omega
      · have later := ih.2 token isIn
        omega

/-- Offsets increase, and all lie before the end of the text. -/
theorem increasing (covers : Covers source depth offset tokens) :
    (tokens.map (·.offsetIn source) ++ [source.length]).Pairwise (· < ·) := by
  induction covers with
  | done _ _ => simp
  | @token depth offset gap chars rest token tokens _ _ place nonempty _ _ _ onward ih =>
      have size := List.length_pos_iff.2 nonempty
      obtain ⟨within, later⟩ := onward.offset_le
      refine List.pairwise_cons.2 ⟨fun other isIn => ?_, ih⟩
      change token.offsetIn source < other
      rcases List.mem_append.1 isIn with isIn | isIn
      · obtain ⟨next, known, rfl⟩ := List.mem_map.1 isIn
        have below := later next known
        omega
      · obtain rfl := List.mem_singleton.1 isIn
        omega

theorem spelled (covers : Covers source depth offset tokens) :
    ∀ token ∈ tokens, ∃ chars rest,
      source.drop (token.offsetIn source) = chars ++ rest ∧ Spells token.lexeme chars := by
  induction covers with
  | done => simp
  | @token depth offset gap chars rest token tokens split _ place _ spells _ _ _ ih =>
      refine List.forall_mem_cons.2 ⟨⟨chars, rest, ?_, spells⟩, ih⟩
      rw [place, ← List.drop_drop, split, List.drop_left]

end Covers

/-! ## Line ends -/

/-- The place lies between the quotes of the token, which is a string. -/
def Token.Encloses (source : List Char) (token : Token) (place : Nat) : Prop :=
  ∃ text body rest, token.lexeme = .string text ∧
    source.drop (token.offsetIn source) = '"' :: body ++ '"' :: rest ∧ Quoted body text.toList ∧
    token.offsetIn source < place ∧ place ≤ token.offsetIn source + body.length

theorem Quoted.length_unique {first second text₁ text₂ rest₁ rest₂ : List Char}
    (h₁ : Quoted first text₁) (h₂ : Quoted second text₂)
    (same : first ++ '"' :: rest₁ = second ++ '"' :: rest₂) : first.length = second.length := by
  have read := stringBody_append h₁ rest₁
  rw [same, stringBody_append h₂ rest₂, Option.some.injEq, Prod.mk.injEq] at read
  omega

theorem IsGap.depth_pos {depth : Nat} {gap rest : List Char} (isGap : IsGap depth gap rest)
    (hasFeed : '\n' ∈ gap) : 0 < depth := by
  induction isGap with
  | none => cases hasFeed
  | blank isBlank _ ih =>
      rcases List.mem_cons.1 hasFeed with rfl | isIn
      · rcases isBlank with isBlank | isBlank | isBlank <;> cases isBlank
      · exact ih isIn
  | comment noFeed _ _ ih =>
      refine ih ?_
      simpa [noFeed] using hasFeed
  | feed positive _ _ => exact positive

/-- A line feed among the characters of a string lies between its quotes. -/
theorem Spells.encloses {source chars rest : List Char} {token : Token} {text : String}
    (spells : Spells token.lexeme chars) (isString : token.lexeme = .string text)
    (here : source.drop (token.offsetIn source) = chars ++ rest) {index : Nat}
    (feed : chars[index]? = some '\n') : token.Encloses source (token.offsetIn source + index) := by
  rw [isString] at spells
  obtain ⟨body, rfl, quoted⟩ := spells
  refine ⟨text, body, rest, isString, by simp [here], quoted, ?_, ?_⟩
  · cases index with
    | zero => cases feed
    | succ index => omega
  · refine Nat.add_le_add_left (Nat.le_of_not_lt fun beyond => ?_) _
    obtain ⟨index, rfl⟩ := Nat.exists_eq_add_of_lt beyond
    rw [List.cons_append, List.getElem?_cons_succ,
      List.getElem?_append_right (Nat.le_add_right _ _), Nat.add_sub_cancel_left] at feed
    cases index <;> cases feed

/-- What a string encloses is spelled by it. -/
theorem Spells.encloses_lt {source chars rest : List Char} {token : Token} {place : Nat}
    (spells : Spells token.lexeme chars)
    (here : source.drop (token.offsetIn source) = chars ++ rest)
    (encloses : token.Encloses source place) : place < token.offsetIn source + chars.length := by
  obtain ⟨text, body, rest', isString, split, quoted, -, le⟩ := encloses
  rw [isString] at spells
  obtain ⟨body', rfl, quoted'⟩ := spells
  have same : body ++ '"' :: rest' = body' ++ '"' :: rest := by
    simpa [split] using here
  have lengths := quoted.length_unique quoted' same
  simp only [List.length_append, List.length_cons, List.length_nil]
  omega

/-- Among the characters of a token, a line feed outside a string is that of a line end. -/
theorem Spells.lineEnd_iff {source chars rest : List Char} {token : Token}
    (spells : Spells token.lexeme chars)
    (here : source.drop (token.offsetIn source) = chars ++ rest)
    (feeds : '\n' ∈ chars → token.lexeme = .newline ∨ ∃ text, token.lexeme = .string text)
    {index : Nat} (within : index < chars.length) :
    token.lexeme = .newline ↔
      chars[index]? = some '\n' ∧ ¬ token.Encloses source (token.offsetIn source + index) := by
  constructor
  · intro isEnd
    have shape : chars = ['\n'] := by
      rw [isEnd] at spells
      exact spells
    subst shape
    obtain rfl : index = 0 := by simpa using within
    refine ⟨rfl, ?_⟩
    rintro ⟨text, _, _, isString, -⟩
    rw [isEnd] at isString
    cases isString
  · rintro ⟨feed, noString⟩
    obtain isEnd | ⟨text, isString⟩ := feeds (List.mem_of_getElem? feed)
    · exact isEnd
    · exact absurd (spells.encloses isString here feed) noString

theorem filter_before_eq_nil {source : List Char} {tokens : List Token} {place : Nat}
    (above : ∀ token ∈ tokens, place ≤ token.offsetIn source) :
    tokens.filter (·.offsetIn source < place) = [] :=
  List.filter_eq_nil_iff.2 fun token isIn => by simpa using above token isIn

/-- The line ends are the line feeds in no string and under no open bracket. -/
theorem Covers.newline_iff {source : List Char} {depth offset : Nat} {tokens : List Token}
    (covers : Covers source depth offset tokens) {place : Nat} (le : offset ≤ place) :
    (∃ token ∈ tokens, token.lexeme = .newline ∧ token.offsetIn source = place) ↔
      source[place]? = some '\n' ∧ (∀ token ∈ tokens, ¬ token.Encloses source place) ∧
        depthBehind depth (tokens.filter (·.offsetIn source < place)) = 0 := by
  induction covers with
  | @done depth offset _ isGap =>
      refine iff_of_false (by simp) ?_
      rintro ⟨feed, -, flat⟩
      obtain ⟨index, rfl⟩ := Nat.exists_eq_add_of_le le
      rw [← List.getElem?_drop] at feed
      have positive := isGap.depth_pos (List.mem_of_getElem? feed)
      exact absurd flat (Nat.ne_of_gt positive)
  | @token depth offset gap chars rest token tokens split isGap here nonempty spells flat feeds
      onward ih =>
      have later := onward.offset_le.2
      have own : source.drop (token.offsetIn source) = chars ++ rest := by
        rw [here, ← List.drop_drop, split, List.drop_left]
      -- the place lies in the gap, in the token, or behind both
      rcases Nat.lt_or_ge place (token.offsetIn source) with inGap | behindGap
      · have above : ∀ other ∈ token :: tokens, place < other.offsetIn source := by
          refine List.forall_mem_cons.2 ⟨inGap, fun other isIn => ?_⟩
          have below := later other isIn
          omega
        refine iff_of_false ?_ ?_
        · rintro ⟨other, isIn, -, same⟩
          exact Nat.ne_of_gt (above other isIn) same
        · rintro ⟨feed, -, noDepth⟩
          obtain ⟨index, rfl⟩ := Nat.exists_eq_add_of_le le
          rw [← List.getElem?_drop, split, List.getElem?_append_left (by omega)] at feed
          have positive := isGap.depth_pos (List.mem_of_getElem? feed)
          rw [filter_before_eq_nil fun other isIn => Nat.le_of_lt (above other isIn)] at noDepth
          exact absurd noDepth (Nat.ne_of_gt positive)
      obtain ⟨index, rfl⟩ := Nat.exists_eq_add_of_le behindGap
      rcases Nat.lt_or_ge index chars.length with inToken | behindToken
      · have above : ∀ other ∈ tokens, token.offsetIn source + index < other.offsetIn source := by
          intro other isIn
          have below := later other isIn
          omega
        have lineEnd := spells.lineEnd_iff own feeds inToken
        rw [← List.getElem?_append_left inToken, ← own, List.getElem?_drop] at lineEnd
        constructor
        · rintro ⟨other, isIn, isEnd, same⟩
          rcases List.mem_cons.1 isIn with rfl | isIn
          · obtain rfl : index = 0 := by omega
            obtain ⟨feed, noString⟩ := lineEnd.1 isEnd
            refine ⟨feed, List.forall_mem_cons.2 ⟨noString, ?_⟩, ?_⟩
            · rintro next known ⟨_, _, _, _, _, _, before, -⟩
              exact Nat.lt_asymm before (above next known)
            · rw [filter_before_eq_nil (List.forall_mem_cons.2 ⟨Nat.le_of_eq same.symm,
                fun next known => Nat.le_of_lt (above next known)⟩)]
              exact flat isEnd
          · exact absurd same (Nat.ne_of_gt (above other isIn))
        · rintro ⟨feed, noString, -⟩
          have isEnd := lineEnd.2 ⟨feed, noString token List.mem_cons_self⟩
          rw [isEnd] at spells
          obtain rfl : index = 0 := by simpa [show chars = ['\n'] from spells] using inToken
          exact ⟨token, List.mem_cons_self, isEnd, rfl⟩
      · have size := List.length_pos_iff.2 nonempty
        have before : token.offsetIn source < token.offsetIn source + index := by omega
        have behind : index ≠ 0 := by omega
        have noString : ¬ token.Encloses source (token.offsetIn source + index) := by
          intro encloses
          have within := spells.encloses_lt own encloses
          omega
        rw [List.filter_cons_of_pos (by simpa using before), depthBehind_cons]
        simpa [behind, noString] using ih (by omega)

/-! ## Texts and their tokens -/

/-- The stream accounts for every character of the source. -/
structure Faithful (source : List Char) (stream : TokenStream) : Prop where
  /-- Offsets increase strictly, up to the place where the stream stops. -/
  increasing : (stream.tokens.map (·.offsetIn source) ++ [stream.stop.offsetIn source]).Pairwise
    (· < ·)
  /-- The stream stops at the end of the source. -/
  ending : stream.stop.offsetIn source = source.length
  /-- Each token is spelled at its offset. -/
  spelled : ∀ token ∈ stream.tokens, ∃ chars rest,
    source.drop (token.offsetIn source) = chars ++ rest ∧ Spells token.lexeme chars
  /-- A token is a keyword exactly if it reads as one; strings apart. -/
  keyword : ∀ token ∈ stream.tokens, (∀ text, token.lexeme ≠ .string text) →
    ((∃ kind, token.lexeme = .keyword kind) ↔ ∃ kind, token.lexeme.text = BlockKind.keyword kind)
  /-- The spellings do not overlap, and nothing but gaps is left between them. -/
  covered : Covers source 0 0 stream.tokens
  /-- Line ends are the line feeds in no string and under no open bracket. -/
  lineEnd : ∀ place,
    (∃ token ∈ stream.tokens, token.lexeme = .newline ∧ token.offsetIn source = place) ↔
      source[place]? = some '\n' ∧ (∀ token ∈ stream.tokens, ¬ token.Encloses source place) ∧
        depthBehind 0 (stream.tokens.filter (·.offsetIn source < place)) = 0

end SchemaAssist
