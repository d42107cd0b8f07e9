/-
# SchemaAssist.Proofs.BlockLocation — one place for a block, parsed or scanned

The tree of a text and the scan of its lines find the same block around every line,
with the same kind, name, first and last line (`at?_eq_blockAtLine?`), in texts whose
blocks are laid out on lines (`BlocksOnLines`).  Lists of arguments may run over several
lines, and one of them may well look like a header but for the brace.
-/
import SchemaAssist.Proofs.Layout.Blocks
import SchemaAssist.Proofs.Parsing

namespace SchemaAssist

set_option autoImplicit false

open Text Grammar

/-- A text whose blocks are laid out on lines: no string runs over a line end, every
block keyword is the first token of its line, and a block either stands on one line or
has no closing brace on its first line and its own as the first token of a line. -/
structure BlocksOnLines (text : String) (segments : List Segment) : Prop where
  segmented : Segmented 0 .start text.toList segments
  lineEnds : PlainLineEnds text.toList
  strings : ∀ segment ∈ segments, ∀ content, segment.lexeme = some (.string content) →
    '\n' ∉ segment.chars
  keywords : ∀ before keyword inner closing after b,
    tokensOf segments = before ++ (keyword :: inner ++ [closing]) ++ after →
      IsBlock (keyword :: inner ++ [closing]) b → FirstOnLine before keyword
  braces : ∀ before keyword inner closing after b,
    tokensOf segments = before ++ (keyword :: inner ++ [closing]) ++ after →
      IsBlock (keyword :: inner ++ [closing]) b → b.startLine = b.endLine ∨
        '\x7d' ∉ (Document.ofText text).line b.startLine ∧
          FirstOnLine (before ++ keyword :: inner) closing

theorem closesOnLine_of_not_mem {line : List Char} (noBrace : '\x7d' ∉ line) :
    Scan.closesOnLine line = false := by
  rw [Scan.closesOnLine, List.contains_eq_mem, decide_eq_false_iff_not]
  exact fun isIn => noBrace ((List.dropWhile_suffix _).subset isIn)

theorem BlocksOnLines.laid {text : String} {segments : List Segment}
    (layout : BlocksOnLines text segments) : Laid text segments where
  segmented := layout.segmented
  lineEnds := layout.lineEnds
  alone := layout.segmented.feedsAlone layout.strings
  keywords := layout.keywords
  bodies before keyword inner closing after b shape isBlock :=
    (layout.braces before keyword inner closing after b shape isBlock).imp_right fun own =>
      ⟨closesOnLine_of_not_mem own.1, own.2⟩

/-- A text whose tokens are those of one block, which can be looked through. -/
theorem BlocksOnLines.ofSingle {text : String} {segments : List Segment} {tokens : List Token}
    (segmented : Segmented 0 .start text.toList segments) (same : tokensOf segments = tokens)
    (lineEnds : PlainLineEnds text.toList)
    (strings : ∀ t ∈ tokens, t.lexeme ≠ .newline → '\n' ∉ t.lexeme.text.toList)
    (opens : ∀ i < tokens.length,
      (tokens[i]?).map (·.lexeme) = some (.punct .braceOpen) → i = 2)
    (closes : ∀ i < tokens.length,
      (tokens[i]?).map (·.lexeme) = some (.punct .braceClose) → i + 1 = tokens.length)
    (noBrace : ∀ t ∈ tokens.head?, '\x7d' ∉ (Document.ofText text).line t.mark.row)
    (last : ∀ t ∈ tokens.getLast?, FirstOnLine tokens.dropLast t) :
    BlocksOnLines text segments where
  segmented := segmented
  lineEnds := lineEnds
  strings := segmented.stringsOnLine (same ▸ strings)
  keywords := by
    intro before keyword inner closing after b shape isBlock
    obtain ⟨rfl, -⟩ := isBlock.eq_tokens (same ▸ shape) opens closes
    exact List.forall_mem_nil _
  braces := by
    intro before keyword inner closing after b shape isBlock
    rw [same] at shape
    obtain ⟨rfl, front, isLast, starts⟩ := isBlock.eq_tokens shape opens closes
    have isFirst : keyword ∈ tokens.head? := by rw [shape]; rfl
    refine .inr ⟨starts ▸ noBrace keyword isFirst, ?_⟩
    rw [List.nil_append, front]
    exact last closing isLast

/-- **The tree and the scan find the same block** around every line, however the lists
of arguments are spread. -/
theorem at?_eq_blockAtLine? {text : String} {schema : Schema} {segments : List Segment}
    (parsed : Schema.parse? text = some schema) (layout : BlocksOnLines text segments)
    (line : Int) :
    ScannedBlock.at? (Document.ofText text) line = (schema.blockAtLine? line).map fun b =>
      ⟨b.kind, b.name, b.startLine, b.endLine, (Document.ofText text).lines⟩ := by
  have derived := isSchema_of_parse? parsed layout.segmented
  exact (layout.laid.outline derived).at?_eq line

/-- A model whose list of arguments runs over two lines. -/
def continuedModel : String := "model A \x7b\n x Int @y([\n  enum])\n\x7d"

def continuedTokens : List Token :=
  [⟨.keyword .model, 1, 1⟩, ⟨.word "A", 1, 7⟩, ⟨.punct .braceOpen, 1, 9⟩, ⟨.newline, 1, 10⟩,
    ⟨.word "x", 2, 2⟩, ⟨.word "Int", 2, 4⟩, ⟨.punct .atSign, 2, 8⟩, ⟨.word "y", 2, 9⟩,
    ⟨.punct .parenOpen, 2, 10⟩, ⟨.punct .bracketOpen, 2, 11⟩, ⟨.keyword .enum, 3, 3⟩,
    ⟨.punct .bracketClose, 3, 7⟩, ⟨.punct .parenClose, 3, 8⟩, ⟨.newline, 3, 9⟩,
    ⟨.punct .braceClose, 4, 1⟩]

def continuedBlock : Block :=
  .ofMembers .model "A" ⟨1, 1⟩ ⟨4, 1⟩ [.field ⟨"x", ⟨"Int", false, false⟩,
    [⟨"y", false, [⟨none, ⟨.array, "", [⟨.identifier, "enum", []⟩]⟩⟩], 1⟩], 1⟩]

theorem continuedModel_onLines {segments : List Segment}
    (segmented : Segmented 0 .start continuedModel.toList segments)
    (tokens : tokensOf segments = continuedTokens) : BlocksOnLines continuedModel segments :=
  .ofSingle segmented tokens (.of_all (by decide +kernel)) (by decide) (by decide) (by decide)
    (by decide +kernel) (by unfold FirstOnLine; decide)

theorem at?_continuedModel :
    Schema.parse? continuedModel = some ⟨[continuedBlock]⟩ ∧
      ScannedBlock.at? (Document.ofText continuedModel) 2 =
        some ⟨.model, "A", 0, 3, (Document.ofText continuedModel).lines⟩ := by
  have parsed : Schema.parse? continuedModel = some ⟨[continuedBlock]⟩ := by decide +kernel
  have lexed : TokenStream.ofText continuedModel = .ok ⟨continuedTokens, ⟨4, 2⟩⟩ := by
    decide +kernel
  obtain ⟨segments, segmented, stream⟩ := ofText_eq_ok.1 lexed
  have tokens : tokensOf segments = continuedTokens := (congrArg TokenStream.tokens stream).symm
  refine ⟨parsed, (at?_eq_blockAtLine? parsed (continuedModel_onLines segmented tokens) 2).trans ?_⟩
  rfl

end SchemaAssist
