/-
# SchemaAssist.Proofs.Layout.Plain — texts that are laid out plainly

A text is laid out plainly (`PlainLayout`) if its blocks, its members and what is said
about datasources stand on lines of their own.  Then the tokens on a line inside a block
are those of one member or none at all, apart from the header and the closing brace
(`Laid.contents`), and members lead their lines (`PlainLayout.lead`), so that
scanning reads their names off them.
-/
import SchemaAssist.Proofs.Layout.Leading
import SchemaAssist.Proofs.Layout.Shown

namespace SchemaAssist

set_option autoImplicit false

open Text Scan Grammar

/-- Behind its first opening brace, the line is blank. -/
def EndsInBrace (line : List Char) : Prop :=
  ∀ c ∈ (line.dropWhile (· != '\x7b')).drop 1, isBlank c = true

theorem endsInBrace_append {front : List Char} (noBrace : '\x7b' ∉ front) {rest : List Char} :
    EndsInBrace (front ++ '\x7b' :: rest) ↔ ∀ c ∈ rest, isBlank c = true := by
  have before : ∀ c ∈ front, (c != '\x7b') = true := fun c isIn =>
    bne_iff_ne.2 (ne_of_mem_of_not_mem isIn noBrace)
  rw [EndsInBrace, dropWhile_append_of_all before, List.dropWhile_cons_of_neg (by simp)]
  rfl

theorem EndsInBrace.closesOnLine {line : List Char} (ends : EndsInBrace line) :
    closesOnLine line = false := by
  by_cases isIn : '\x7b' ∈ line
  · obtain ⟨front, rest, rfl, noBrace⟩ := List.eq_append_cons_of_mem isIn
    rw [closesOnLine_append noBrace, decide_eq_false_iff_not]
    intro closes
    exact absurd ((endsInBrace_append noBrace).1 ends _ closes) (by decide)
  · have all : ∀ c ∈ line, (c != '\x7b') = true := fun c known =>
      bne_iff_ne.2 (ne_of_mem_of_not_mem known isIn)
    rw [Scan.closesOnLine, List.dropWhile_eq_nil_iff.2 all]
    rfl

def Block.segments (b : Block) (segments : List Segment) : List Segment :=
  segments.filter fun segment =>
    decide (b.startLine ≤ segment.mark.row) && decide (segment.mark.row ≤ b.endLine)

/-- A text that is laid out plainly:

* it has no line ends but line feeds, alone or behind a carriage return, no string runs
  over one of these, and every member stands on one line;
* names of block attributes are written without gaps;
* a block keyword is the first token of its line, and its block either ends on that line
  or has the opening brace at the end of the line and the closing brace as the first
  token of a line;
* blocks have names of their own;
* only the headers of datasources spell that word; datasources have no comments, no
  strings that could be taken for something else, and one provider at most. -/
structure PlainLayout (text : String) (segments : List Segment) (blocks : List Block) : Prop where
  segmented : Segmented 0 .start text.toList segments
  lineEnds : PlainLineEnds text.toList
  strings : ∀ segment ∈ segments, ∀ content, segment.lexeme = some (.string content) →
    '\n' ∉ segment.chars
  members : MembersOnLines (tokensOf segments)
  attributes : TightAttributes (tokensOf segments)
  keywords : ∀ before keyword inner closing after b,
    tokensOf segments = before ++ (keyword :: inner ++ [closing]) ++ after →
      IsBlock (keyword :: inner ++ [closing]) b → FirstOnLine before keyword
  braces : ∀ before keyword inner closing after b,
    tokensOf segments = before ++ (keyword :: inner ++ [closing]) ++ after →
      IsBlock (keyword :: inner ++ [closing]) b → b.startLine = b.endLine ∨
        EndsInBrace ((Document.ofText text).line b.startLine) ∧
          FirstOnLine (before ++ keyword :: inner) closing
  names : (blocks.map (·.name)).Nodup
  mentions : ∀ n : Nat, occursIn "datasource".toList ((Document.ofText text).line n) = true →
    ∃ b ∈ blocks, b.kind = .datasource ∧ b.startLine = n
  sources : ∀ b ∈ blocks, b.kind = .datasource → PlainRow (b.segments segments)
  single : ∀ b ∈ blocks, b.kind = .datasource → b.HasSingleProvider

namespace PlainLayout

variable {text : String} {segments : List Segment} {blocks : List Block}

theorem laid (layout : PlainLayout text segments blocks) : Laid text segments where
  segmented := layout.segmented
  lineEnds := layout.lineEnds
  alone := layout.segmented.feedsAlone layout.strings
  keywords := layout.keywords
  bodies before keyword inner closing after b shape isBlock :=
    (layout.braces before keyword inner closing after b shape isBlock).imp_right fun own =>
      ⟨own.1.closesOnLine, own.2⟩

section

variable {b : Block} {before inner after : List Token} {keyword token opening closing : Token}

/-- Nothing follows the opening brace on its line, unless the block ends there. -/
theorem below_header (layout : PlainLayout text segments blocks)
    (placed : Placed (tokensOf segments) b before keyword token opening inner closing after)
    (hasBody : b.startLine < b.endLine) : ∀ t ∈ inner ++ closing :: after,
      t.lexeme ≠ .newline → t.mark.line ≠ keyword.mark.line := by
  have laid := layout.laid
  obtain ⟨number, starts⟩ : ∃ number : Nat, b.startLine = number := by
    have pos := laid.line_pos (t := keyword) (by rw [placed.shape]; simp)
    exact ⟨keyword.mark.line - 1, by rw [placed.starts, Mark.row]; omega⟩
  have here := placed.startLine_iff.1 starts
  obtain ⟨row, isRow⟩ := laid.row number
  obtain ⟨gap₁, gap₂, gap₃, rest, mark, onward, line, blank₁, blank₂, blank₃, -, -, word,
    segmented, -, tokens⟩ := laid.header_line placed here isRow
  obtain ⟨front, shape, plain⟩ := headerText_eq b.kind blank₁ blank₂ blank₃ word rest
  have noBrace : '\x7b' ∉ front := not_mem_of_blank_or_word
    (fun c isIn => (plain c isIn).imp_left IsGapChar.isBlank) (by decide) (by decide)
  have blank : ∀ c ∈ rest, isBlank c = true := by
    rcases layout.braces before keyword (token :: opening :: inner) closing after b placed.shape
      placed.isBlock with flat | ⟨ends, -⟩
    · omega
    · rw [starts, Document.line_natCast, line, shape] at ends
      exact (endsInBrace_append noBrace).1 ends
  have noFeed : '\n' ∉ rest := by
    have noFeed := isRow.noFeed
    rw [line, shape] at noFeed
    exact fun isIn => noFeed (by simp [isIn])
  have empty : tokensOf onward = [] := by
    rw [← List.append_nil rest] at segmented
    obtain ⟨others, mark', done, same, -⟩ := segmented.skipBlanks blank noFeed
    rw [same, done.unique .done]
    rfl
  intro t isIn other onLine
  have known : t ∈ lineTokens (inner ++ closing :: after) number :=
    mem_lineTokens.2 ⟨isIn, onLine.trans here, other⟩
  rw [← tokens, empty] at known
  cases known

/-- In a plain layout, members lead their lines. -/
theorem lead (layout : PlainLayout text segments blocks) : MembersLead (tokensOf segments) where
  below placed hasBody t isIn :=
    layout.below_header placed hasBody t (List.mem_append_left _ isIn)
  tight := layout.attributes
  continued := layout.members.continuesUnnamed

end

end PlainLayout

end SchemaAssist
