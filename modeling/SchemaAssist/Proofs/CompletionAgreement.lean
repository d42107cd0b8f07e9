/-
# SchemaAssist.Proofs.CompletionAgreement — the same suggestions, parsed or scanned

Completion asks the tree of a text, or scans its lines if there is none.  For a text
that is laid out plainly both give the same suggestions, also while one of its lines is
being edited and the tree is that of the text with the line blank
(`Completion.items_parsed_eq_scanned`).

Both ways find a block with the same kind, lines and members (`BlockView.Agree`), and
the suggestions depend on nothing else but the types and providers declared, which agree
by `Shown`.
-/
import SchemaAssist.Proofs.Contexts
import SchemaAssist.Proofs.Layout.Sources
import SchemaAssist.Proofs.Parsing

namespace SchemaAssist

set_option autoImplicit false

open Text Grammar

/-! ## Views that agree -/

/-- Two views show one block, as far as completion on a line can tell. -/
structure BlockView.Agree (first second : BlockView) (line : Int) : Prop where
  kind : first.kind = second.kind
  startLine : first.startLine = second.startLine
  endLine : first.endLine = second.endLine
  members : first.memberNames? (some line) = second.memberNames? (some line)

namespace BlockView.Agree

variable {first second : BlockView} {line : Int}

theorem isWellFormed (agree : first.Agree second line) :
    first.isWellFormed = second.isWellFormed := by
  rw [BlockView.isWellFormed, BlockView.isWellFormed, agree.startLine, agree.endLine]

theorem atCursor (agree : first.Agree second line) (document : Document) (cursor : Cursor) :
    Context.atCursor document cursor (some first) =
      Context.atCursor document cursor (some second) := by
  simp only [Context.atCursor, agree.isWellFormed, agree.kind]

theorem fieldCandidates? (agree : first.Agree second line) (text : List Char)
    (argument : Option String) :
    Candidates.fieldCandidates? first text (some line) argument =
      Candidates.fieldCandidates? second text (some line) argument := by
  simp only [Candidates.fieldCandidates?, BlockView.fieldNames?, agree.members]

theorem argumentItems? (document : Document) (cursor : Cursor)
    (agree : first.Agree second cursor.line) :
    Completion.argumentItems? document cursor (some first) =
      Completion.argumentItems? document cursor (some second) := by
  unfold Completion.argumentItems?
  cases openCall? (document.textBefore cursor) with
  | none => rfl
  | some call =>
      simp only [Completion.relationItems?, Completion.fieldItems?, agree.isWellFormed,
        agree.fieldCandidates?]

theorem firstMemberItems? (kind : Option BlockKind) (document document' : Document)
    (cursor : Cursor) (schema other : Option Schema) (agree : first.Agree second cursor.line) :
    Completion.firstMemberItems? kind document cursor schema (some first) =
      Completion.firstMemberItems? kind document' cursor other (some second) := by
  simp only [Completion.firstMemberItems?, Option.any_some, agree.isWellFormed, Option.some_or,
    Candidates.unusedKeys?, agree.members]

end BlockView.Agree

/-! ## Agreement -/

section

variable {lines : List (List Char)} {blocks : List Block} {b : Block}

/-- What scanning finds around a line is the block that the tree has there. -/
theorem Shown.agree {line : Int} (shown : Shown lines blocks line) (isIn : b ∈ blocks)
    (inside : b.containsLine line = true) :
    (BlockView.parsed b).Agree
      (.scanned ⟨b.kind, b.name, b.startLine, b.endLine, lines⟩) line where
  kind := rfl
  startLine := rfl
  endLine := rfl
  members := by
    simp only [Block.containsLine, Bool.and_eq_true, decide_eq_true_eq] at inside
    exact (shown.memberNames?_eq isIn (by omega)).symm

namespace Completion

/-- Inside a block both ways lead to the same suggestions. -/
theorem itemsIn_eq_of_inside {cursor : Cursor} (shown : Shown lines blocks cursor.line)
    (isIn : b ∈ blocks) (inside : b.containsLine cursor.line = true) {context : Context}
    (other : context ≠ .blockKind) (settings : CompletionSettings) :
    itemsIn context ⟨lines⟩ cursor (some ⟨blocks⟩) settings (some (.parsed b)) =
      itemsIn context ⟨lines⟩ cursor none settings
        (some (.scanned ⟨b.kind, b.name, b.startLine, b.endLine, lines⟩)) := by
  have agree := shown.agree isIn inside
  cases context with
  | blockKind => exact absurd rfl other
  | nothing => rfl
  | firstMember =>
      have same :=
        agree.firstMemberItems? (some b.kind) ⟨lines⟩ ⟨lines⟩ cursor (some ⟨blocks⟩) none
      exact congrArg (·.getD []) same
  | attributeName => rfl
  | attributeArgument => exact congrArg (·.getD []) (agree.argumentItems? ⟨lines⟩ cursor)
  | fieldType =>
      have types : declaredTypes (some (.scanned ⟨b.kind, b.name, b.startLine, b.endLine, lines⟩))
          ⟨lines⟩ none = declaredTypes (some (.parsed b)) ⟨lines⟩ (some ⟨blocks⟩) :=
        shown.typeNames_eq isIn
      simp only [itemsIn, typeItems, Option.any_some, agree.isWellFormed, types]
  | fieldValue => rfl

/-- Outside all blocks both ways lead to the same suggestions. -/
theorem itemsIn_eq_of_outside {cursor : Cursor} (shown : Shown lines blocks cursor.line)
    (outside : ∀ b ∈ blocks, b.containsLine cursor.line = false) (context : Context)
    (settings : CompletionSettings) :
    itemsIn context ⟨lines⟩ cursor (some ⟨blocks⟩) settings none =
      itemsIn context ⟨lines⟩ cursor none settings none := by
  cases context with
  | blockKind =>
      have enums : Candidates.enumsSupported (some ⟨blocks⟩) (some ⟨lines⟩)
          settings.enumlessProviders =
          Candidates.enumsSupported none (some ⟨lines⟩) settings.enumlessProviders := by
        simp only [Candidates.enumsSupported, shown.usesProvider_eq outside]
      simp only [itemsIn, blockKindItems, enums]
  | _ => rfl

theorem items_eq_of_shown {cursor : Cursor} (shown : Shown lines blocks cursor.line)
    (settings : CompletionSettings) :
    items ⟨lines⟩ cursor (some ⟨blocks⟩) settings = items ⟨lines⟩ cursor none settings := by
  unfold items
  split
  · rfl
  have scanned := shown.outline.at?_eq cursor.line
  simp only [BlockView.find?, scanned]
  cases found : (Schema.mk blocks).blockAtLine? cursor.line with
  | none =>
      have outside : ∀ b ∈ blocks, b.containsLine cursor.line = false := fun b isIn =>
        Bool.eq_false_iff.2 (List.find?_eq_none.1 found b isIn)
      exact itemsIn_eq_of_outside shown outside _ settings
  | some b =>
      obtain ⟨isIn, inside⟩ := shown.outline.blockAtLine?_eq_some.1 found
      have agree := shown.agree isIn inside
      simp only [Option.map_some]
      rw [← agree.atCursor]
      have other : Context.atCursor ⟨lines⟩ cursor (some (.parsed b)) ≠ .blockKind :=
        fun isKind => Context.fits_of_atCursor isKind
      exact itemsIn_eq_of_inside shown isIn inside other settings

end Completion

end

/-! ## Texts and their edits -/

/-- A text whose tree is that of another text, the same but for one line, which is blank
there.  What is being typed on that line is neither a header nor the end of a block, and
mentions no datasource. -/
structure IsEdit (blanked text : String) (line : Int) : Prop where
  same : ∀ n, n ≠ line → (Document.ofText text).line n = (Document.ofText blanked).line n
  blank : ∀ c ∈ (Document.ofText blanked).line line, isBlank c = true
  noHeader : Scan.header? ((Document.ofText text).line line) = none
  noBrace : Scan.startsWithBrace ((Document.ofText text).line line) = false
  noMention : occursIn "datasource".toList ((Document.ofText text).line line) = false

theorem IsEdit.shown {blanked text : String} {line : Nat} (edit : IsEdit blanked text line)
    {blocks : List Block} (shown : Shown (Document.ofText blanked).lines blocks line) :
    Shown (Document.ofText text).lines blocks line := by
  obtain ⟨same, blank, noHeader, noBrace, noMention⟩ := edit
  simp only [Document.line_natCast] at blank noHeader noBrace noMention
  refine shown.edit blank (fun n other => ?_) noHeader noBrace noMention
  have agrees := same n (by omega)
  rwa [Document.line_natCast, Document.line_natCast] at agrees

/-- **Parsed and scanned completions agree** in a text that is laid out plainly, and in
one that is but for the line being edited. -/
theorem Completion.items_parsed_eq_scanned {plain text : String} {segments : List Segment}
    {schema : Schema} {cursor : Cursor} (parsed : Schema.parse? plain = some schema)
    (layout : PlainLayout plain segments schema.blocks)
    (edit : text = plain ∨ IsEdit plain text cursor.line) (settings : CompletionSettings) :
    items (Document.ofText text) cursor (some schema) settings =
      items (Document.ofText text) cursor none settings := by
  have derived := isSchema_of_parse? parsed layout.segmented
  have shown := layout.shown derived cursor.line
  by_cases outside : cursor.line < 0
  · unfold items
    rw [if_pos (.inl outside), if_pos (.inl outside)]
  rcases edit with rfl | edit
  · exact items_eq_of_shown shown settings
  · obtain ⟨number, here⟩ : ∃ number : Nat, cursor.line = number :=
      ⟨cursor.line.toNat, by omega⟩
    rw [here] at edit shown
    have shown' := edit.shown shown
    rw [← here] at shown'
    exact items_eq_of_shown shown' settings

/-- A datasource with a provider and a blank line. -/
def blankedSource : String := "datasource d \x7b\n provider = \"x\"\n \n\x7d"

def typedSource : String := "datasource d \x7b\n provider = \"x\"\n u\n\x7d"

def sourceTokens : List Token :=
  [⟨.keyword .datasource, 1, 1⟩, ⟨.word "d", 1, 12⟩, ⟨.punct .braceOpen, 1, 14⟩,
    ⟨.newline, 1, 15⟩, ⟨.word "provider", 2, 2⟩, ⟨.punct .equals, 2, 11⟩, ⟨.string "x", 2, 13⟩,
    ⟨.newline, 2, 16⟩, ⟨.newline, 3, 2⟩, ⟨.punct .braceClose, 4, 1⟩]

def sourceBlock : Block :=
  .ofMembers .datasource "d" ⟨1, 1⟩ ⟨4, 1⟩
    [.assignment ⟨"provider", ⟨.string, "x", []⟩, 1⟩]

theorem blankedSource_string {segments : List Segment}
    (segmented : Segmented 0 .start blankedSource.toList segments)
    (tokens : tokensOf segments = sourceTokens) {segment : Segment} (isIn : segment ∈ segments)
    {content : String} (isString : segment.lexeme = some (.string content)) :
    segment.chars = "\"x\"".toList := by
  have known : (⟨.string content, segment.mark⟩ : Token) ∈ tokensOf segments :=
    token_mem_iff.2 ⟨segment, isIn, isString, rfl⟩
  rw [tokens] at known
  obtain rfl : content = "x" := by
    simp [sourceTokens] at known
    exact known.1
  obtain ⟨under, rest, front⟩ := segmented.exists_front isIn
  rw [isString] at front
  obtain ⟨body, own, shape, quoted, same⟩ := front.stringLexeme
  have noSlash : '\\' ∉ body := by
    intro slash
    have inText : '\\' ∈ blankedSource.toList := by
      rw [← segmented.flatten, List.mem_flatMap]
      exact ⟨segment, isIn, by rw [shape]; simp [slash]⟩
    exact absurd inText (by decide +kernel)
  obtain ⟨rfl, -⟩ := quoted.eq_of_noSlash noSlash
  have spelled : "x".toList = own := by rw [same, String.toList_ofList]
  rw [shape, ← spelled]
  rfl

theorem blankedSource_plain {segments : List Segment}
    (segmented : Segmented 0 .start blankedSource.toList segments)
    (tokens : tokensOf segments = sourceTokens) :
    PlainLayout blankedSource segments [sourceBlock] := by
  have only : ∀ {before keyword inner closing after b},
      tokensOf segments = before ++ (keyword :: inner ++ [closing]) ++ after →
      IsBlock (keyword :: inner ++ [closing]) b →
        before = [] ∧ keyword :: inner = sourceTokens.dropLast ∧
          sourceTokens.getLast? = some closing ∧ b.startLine = keyword.mark.row := by
    intro before keyword inner closing after b shape isBlock
    rw [tokens] at shape
    exact isBlock.eq_tokens shape (by decide) (by decide)
  exact {
    segmented := segmented
    lineEnds := .of_all (by decide +kernel)
    strings := by
      intro segment isIn content isString
      rw [blankedSource_string segmented tokens isIn isString]
      decide
    members := by
      rw [tokens]
      exact membersOnLines_of_isChain (by decide)
    attributes := by
      intro before sign token parts after name others shape isSign
      have known : sign ∈ sourceTokens := by
        rw [← tokens, shape]
        simp
      have noSign : ∀ t ∈ sourceTokens, t.lexeme ≠ .punct .doubleAt := by decide
      exact absurd isSign (noSign sign known)
    keywords := by
      intro before keyword inner closing after b shape isBlock
      obtain ⟨rfl, -⟩ := only shape isBlock
      simp [FirstOnLine]
    braces := by
      intro before keyword inner closing after b shape isBlock
      obtain ⟨rfl, front, last, starts⟩ := only shape isBlock
      obtain ⟨rfl, -⟩ := List.cons.inj front
      obtain rfl := Option.some.inj last
      refine .inr ⟨?_, ?_⟩
      · rw [starts]
        exact List.all_eq_true.1 (by decide +kernel)
      · rw [List.nil_append, front]
        unfold FirstOnLine
        decide
    names := by decide
    mentions := by
      intro n mentioned
      refine ⟨sourceBlock, by simp, rfl, ?_⟩
      have first : ∀ n < 4, occursIn "datasource".toList
          ((Document.ofText blankedSource).line (n : Nat)) = true → n = 0 := by decide +kernel
      rw [first n (lt_of_mentioned mentioned) mentioned]
      rfl
    sources := by
      intro b isIn _
      have part : ∀ {segment}, segment ∈ b.segments segments → segment ∈ segments :=
        fun known => (List.mem_filter.1 known).1
      refine ⟨fun segment known _ slash => ?_, fun segment known content isString => ?_,
        fun segment known content isString => ?_, fun segment known content isString => ?_⟩
      · have inText : '/' ∈ blankedSource.toList := by
          rw [← segmented.flatten, List.mem_flatMap]
          exact ⟨segment, part known, List.mem_of_mem_head? slash⟩
        exact absurd inText (by decide +kernel)
      all_goals
        rw [blankedSource_string segmented tokens (part known) isString]
        decide
    single := by
      intro b isIn _
      obtain rfl := List.mem_singleton.1 isIn
      unfold Block.HasSingleProvider
      decide
  }

theorem typedSource_isEdit : IsEdit blankedSource typedSource 2 where
  same := by
    intro n other
    unfold Document.line
    split
    · rfl
    have lines : ∀ k, k ≠ 2 → (Document.ofText typedSource).lines.getD k [] =
        (Document.ofText blankedSource).lines.getD k [] := by
      intro k away
      by_cases inside : k < 4
      · have near : ∀ k < 4, k ≠ 2 → (Document.ofText typedSource).lines.getD k [] =
            (Document.ofText blankedSource).lines.getD k [] := by decide +kernel
        exact near k inside away
      · rw [List.getD_eq_default _ _ (Nat.le_of_not_lt inside),
          List.getD_eq_default _ _ (Nat.le_of_not_lt inside)]
    exact lines n.toNat (by omega)
  blank := List.all_eq_true.1 (by decide +kernel)
  noHeader := by decide +kernel
  noBrace := by decide +kernel
  noMention := by decide +kernel

theorem items_typedSource :
    Schema.parse? blankedSource = some ⟨[sourceBlock]⟩ ∧
      (Completion.items (.ofText typedSource) ⟨2, 2⟩ (some ⟨[sourceBlock]⟩) {}).map (·.label) =
        ["url"] := by
  have parsed : Schema.parse? blankedSource = some ⟨[sourceBlock]⟩ := by decide +kernel
  have lexed : TokenStream.ofText blankedSource = .ok ⟨sourceTokens, ⟨4, 2⟩⟩ := by
    decide +kernel
  obtain ⟨segments, segmented, stream⟩ := ofText_eq_ok.1 lexed
  have tokens : tokensOf segments = sourceTokens := (congrArg TokenStream.tokens stream).symm
  have same : Completion.items (.ofText typedSource) ⟨2, 2⟩ (some ⟨[sourceBlock]⟩) {} =
      Completion.items (.ofText typedSource) ⟨2, 2⟩ none {} :=
    Completion.items_parsed_eq_scanned parsed (blankedSource_plain segmented tokens)
      (.inr typedSource_isEdit) {}
  refine ⟨parsed, ?_⟩
  rw [same]
  decide +kernel

end SchemaAssist
