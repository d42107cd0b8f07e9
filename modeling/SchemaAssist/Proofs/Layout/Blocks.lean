/-
# SchemaAssist.Proofs.Layout.Blocks — blocks laid out on lines

A text is laid out for scanning (`Laid`) if every block starts a line, and ends a line
or the one that it starts on.  Then the lines of its document show the blocks of its
tree (`Laid.outline`).

The first line of a block holds its keyword, its name and its opening brace, since no
line end may stand between them, and these make it a header.  Nothing else is taken for
a header or an end: both need a brace on the line, and every brace is that of a block.
-/
import SchemaAssist.Proofs.Grammar.Placement
import SchemaAssist.Proofs.Layout.Headers
import SchemaAssist.Proofs.Layout.Outline

namespace SchemaAssist

set_option autoImplicit false

open Text Scan Grammar

def FirstOnLine (before : List Token) (token : Token) : Prop :=
  ∀ t ∈ before, t.mark.line < token.mark.line

/-- How a text must be laid out for its blocks to be found line by line. -/
structure Laid (text : String) (segments : List Segment) : Prop where
  segmented : Segmented 0 .start text.toList segments
  lineEnds : PlainLineEnds text.toList
  alone : FeedsAlone segments
  keywords : ∀ before keyword inner closing after b,
    tokensOf segments = before ++ (keyword :: inner ++ [closing]) ++ after →
      IsBlock (keyword :: inner ++ [closing]) b → FirstOnLine before keyword
  bodies : ∀ before keyword inner closing after b,
    tokensOf segments = before ++ (keyword :: inner ++ [closing]) ++ after →
      IsBlock (keyword :: inner ++ [closing]) b → b.startLine = b.endLine ∨
        closesOnLine ((Document.ofText text).line b.startLine) = false ∧
          FirstOnLine (before ++ keyword :: inner) closing

theorem Mark.row_eq_iff {mark : Mark} {number : Nat} :
    mark.row = number ↔ mark.line = number + 1 := by
  rw [Mark.row]
  omega

theorem FirstOnLine.lineTokens {before : List Token} {token : Token}
    (isFirst : FirstOnLine before token) {number : Nat} (here : token.mark.line = number + 1) :
    SchemaAssist.lineTokens before number = [] := by
  apply lineTokens_eq_nil
  intro t isIn _
  have above := isFirst t isIn
  omega

/-- The tokens of a block stand between the lines of its keyword and its last brace. -/
theorem Grammar.Placed.within {tokens before inner after : List Token} {b : Block}
    {keyword token opening closing : Token}
    (placed : Placed tokens b before keyword token opening inner closing after)
    (ordered : tokens.Pairwise Precedes) {t : Token}
    (here : t ∈ keyword :: token :: opening :: inner ++ [closing]) :
    keyword.mark.line ≤ t.mark.line ∧ t.mark.line ≤ closing.mark.line := by
  rw [placed.shape, List.pairwise_append, List.pairwise_append] at ordered
  have own := ordered.1.2.1
  constructor
  · have front := List.pairwise_cons.1 own
    rcases List.mem_cons.1 here with rfl | behind
    · exact Nat.le_refl _
    · exact (front.1 t behind).1
  · have back := (List.pairwise_append.1 own).2.2
    rcases List.mem_append.1 here with inside | last
    · exact (back t inside closing (by simp)).1
    · obtain rfl := List.mem_singleton.1 last
      exact Nat.le_refl _

theorem Grammar.Placed.startLine_iff {tokens before inner after : List Token} {b : Block}
    {keyword token opening closing : Token}
    (placed : Placed tokens b before keyword token opening inner closing after) {number : Nat} :
    b.startLine = number ↔ keyword.mark.line = number + 1 := by
  rw [placed.starts, Mark.row_eq_iff]

section

variable {text : List Char} {segments : List Segment} {b : Block}
  {before inner after : List Token} {keyword token opening closing : Token}

/-- Keyword, name and opening brace stand on one line. -/
theorem Segmented.header_sameLine (segmented : Segmented 0 .start text segments)
    (alone : FeedsAlone segments)
    (placed : Placed (tokensOf segments) b before keyword token opening inner closing after) :
    token.mark.line = keyword.mark.line ∧ opening.mark.line = keyword.mark.line := by
  have keywordFlat : depthBehind 0 (before ++ [keyword]) = 0 := by
    rw [depthBehind_append, placed.balanced, depthBehind_cons, placed.isKeyword]
    rfl
  have name : Inside [token] := .name placed.named .nil
  have nameFlat : depthBehind 0 (before ++ [keyword] ++ [token]) = 0 := by
    rw [depthBehind_append, keywordFlat, name.balanced]
  have shape₁ : tokensOf segments =
      before ++ keyword :: token :: (opening :: inner ++ [closing] ++ after) := by
    rw [placed.shape]
    simp
  have shape₂ : tokensOf segments =
      (before ++ [keyword]) ++ token :: opening :: (inner ++ [closing] ++ after) := by
    rw [placed.shape]
    simp
  have second := segmented.sameLine alone shape₁ keywordFlat
    (by rw [placed.isKeyword]; simp)
  have third := segmented.sameLine alone shape₂ nameFlat
    (name.inner token (by simp)).1
  exact ⟨second, third.trans second⟩

theorem Segmented.lineTokens_header (segmented : Segmented 0 .start text segments)
    (alone : FeedsAlone segments)
    (placed : Placed (tokensOf segments) b before keyword token opening inner closing after)
    {number : Nat} (here : keyword.mark.line = number + 1) :
    lineTokens (tokensOf segments) number = lineTokens before number ++
      keyword :: token :: opening :: lineTokens (inner ++ closing :: after) number := by
  obtain ⟨second, third⟩ := segmented.header_sameLine alone placed
  have name : Inside [token] := .name placed.named .nil
  have shape : tokensOf segments =
      before ++ keyword :: token :: opening :: (inner ++ closing :: after) := by
    rw [placed.shape]
    simp
  rw [shape, lineTokens_append, lineTokens_cons_here here (by rw [placed.isKeyword]; simp),
    lineTokens_cons_here (second.trans here) (name.inner token (by simp)).1,
    lineTokens_cons_here (third.trans here) (by rw [placed.opens]; simp)]

end

namespace Laid

variable {text : String} {segments : List Segment} {schema : Schema}

theorem row (laid : Laid text segments) (number : Nat) :
    ∃ row, IsRow segments number ((Document.ofText text).lines.getD number []) row :=
  exists_row laid.segmented laid.alone laid.lineEnds number

section

variable {b : Block} {before inner after : List Token} {keyword token opening closing : Token}

theorem first (laid : Laid text segments)
    (placed : Placed (tokensOf segments) b before keyword token opening inner closing after) :
    FirstOnLine before keyword :=
  laid.keywords before keyword (token :: opening :: inner) closing after b placed.shape
    placed.isBlock

theorem flat_or_last (laid : Laid text segments)
    (placed : Placed (tokensOf segments) b before keyword token opening inner closing after) :
    b.startLine = b.endLine ∨
      closesOnLine ((Document.ofText text).line b.startLine) = false ∧
        FirstOnLine (before ++ keyword :: token :: opening :: inner) closing :=
  laid.bodies before keyword (token :: opening :: inner) closing after b placed.shape
    placed.isBlock

theorem header_sameLine (laid : Laid text segments)
    (placed : Placed (tokensOf segments) b before keyword token opening inner closing after) :
    token.mark.line = keyword.mark.line ∧ opening.mark.line = keyword.mark.line :=
  laid.segmented.header_sameLine laid.alone placed

theorem lineTokens_header (laid : Laid text segments)
    (placed : Placed (tokensOf segments) b before keyword token opening inner closing after)
    {number : Nat} (here : keyword.mark.line = number + 1) :
    lineTokens (tokensOf segments) number =
      keyword :: token :: opening :: lineTokens (inner ++ closing :: after) number := by
  rw [laid.segmented.lineTokens_header laid.alone placed here,
    (laid.first placed).lineTokens here, List.nil_append]

/-- Keyword, name and opening brace stand on the first line of their block. -/
theorem opened_here (laid : Laid text segments)
    (placed : Placed (tokensOf segments) b before keyword token opening inner closing after)
    {n : Nat} (here : b.startLine = n) :
    lineTokens [keyword, token, opening] n = [keyword, token, opening] := by
  have first := placed.startLine_iff.1 here
  obtain ⟨second, third⟩ := laid.header_sameLine placed
  have name : Inside [token] := .name placed.named .nil
  apply lineTokens_of_forall
  intro t isIn
  simp only [List.mem_cons, List.not_mem_nil, or_false] at isIn
  rcases isIn with rfl | rfl | rfl
  · exact ⟨first, by rw [placed.isKeyword]; simp⟩
  · exact ⟨second.trans first, (name.inner t (by simp)).1⟩
  · exact ⟨third.trans first, by rw [placed.opens]; simp⟩

theorem opened_elsewhere (laid : Laid text segments)
    (placed : Placed (tokensOf segments) b before keyword token opening inner closing after)
    {n : Nat} (other : b.startLine ≠ n) : lineTokens [keyword, token, opening] n = [] := by
  rw [Ne, placed.startLine_iff] at other
  obtain ⟨second, third⟩ := laid.header_sameLine placed
  refine lineTokens_eq_nil fun t isIn _ here => other ?_
  simp only [List.mem_cons, List.not_mem_nil, or_false] at isIn
  rcases isIn with rfl | rfl | rfl
  · exact here
  · exact second.symm.trans here
  · exact third.symm.trans here

/-- **The first line of a block is a header**, and the tokens behind its opening brace
stand on the rest of the line. -/
theorem header_line (laid : Laid text segments)
    (placed : Placed (tokensOf segments) b before keyword token opening inner closing after)
    {number : Nat} (here : keyword.mark.line = number + 1) {row : List Segment}
    (isRow : IsRow segments number ((Document.ofText text).lines.getD number []) row) :
    ∃ gap₁ gap₂ gap₃ rest mark onward,
      (Document.ofText text).lines.getD number [] =
        headerText gap₁ gap₂ gap₃ b.kind b.name rest ∧
      (∀ c ∈ gap₁, IsGapChar c) ∧ (∀ c ∈ gap₂, IsGapChar c) ∧ (∀ c ∈ gap₃, IsGapChar c) ∧
      gap₂ ≠ [] ∧ b.name.toList ≠ [] ∧ (∀ c ∈ b.name.toList, isWordChar c = true) ∧
      Segmented 0 mark rest onward ∧ onward ⊆ row ∧
      tokensOf onward = lineTokens (inner ++ closing :: after) number := by
  have tokens : tokensOf row = _ := isRow.tokens.trans (laid.lineTokens_header placed here)
  have noFeed := isRow.noFeed
  have segmented := isRow.segmented
  generalize (Document.ofText text).lines.getD number [] = line at noFeed segmented ⊢
  obtain ⟨gap₁, chars₁, rest₁, onward₁, rfl, blank₁, -, front₁, segmented₁, tokens₁, part₁⟩ :=
    segmented.next noFeed tokens
  simp only [List.mem_append, not_or] at noFeed
  obtain ⟨gap₂, chars₂, rest₂, onward₂, rfl, blank₂, -, front₂, segmented₂, tokens₂, part₂⟩ :=
    segmented₁.next noFeed.2.2 tokens₁
  simp only [List.mem_append, not_or] at noFeed
  obtain ⟨gap₃, chars₃, rest₃, onward₃, rfl, blank₃, -, front₃, segmented₃, tokens₃, part₃⟩ :=
    segmented₂.next noFeed.2.2.2.2 tokens₂
  obtain ⟨rfl, -, -, ends₁⟩ := front₁.name (by rw [placed.isKeyword]; rfl)
  obtain ⟨rfl, ⟨c, inner₂, shape, starts⟩, word, -⟩ := front₂.name placed.named
  rw [placed.opens] at front₃
  obtain rfl := front₃.punct
  refine ⟨gap₁, gap₂, gap₃, rest₃, _, onward₃, rfl, blank₁, blank₂, blank₃, ?_,
    by simp [shape], word, segmented₃, fun s isIn => ?_, tokens₃⟩
  · -- without a gap the keyword and the name would be one word
    rintro rfl
    have isWord := word c (by simp [shape])
    simp [shape, isWord] at ends₁
  · exact part₁ (.tail _ (part₂ (.tail _ (part₃ (.tail _ isIn)))))

theorem header?_line (laid : Laid text segments)
    (placed : Placed (tokensOf segments) b before keyword token opening inner closing after)
    {number : Nat} (here : keyword.mark.line = number + 1) :
    header? ((Document.ofText text).lines.getD number []) = some ⟨b.kind, b.name⟩ := by
  obtain ⟨row, isRow⟩ := laid.row number
  obtain ⟨gap₁, gap₂, gap₃, rest, mark, onward, line, blank₁, blank₂, blank₃, apart, nonempty,
    word, -⟩ := laid.header_line placed here isRow
  rw [line]
  exact header?_spelled blank₁ blank₂ blank₃ apart nonempty word rest

theorem line_pos (laid : Laid text segments) {t : Token} (isIn : t ∈ tokensOf segments) :
    0 < t.mark.line := by
  obtain ⟨segment, known, -, same⟩ := token_mem_iff.1 isIn
  rw [← same]
  exact laid.segmented.line_le segment known

theorem within (laid : Laid text segments)
    (placed : Placed (tokensOf segments) b before keyword token opening inner closing after)
    {t : Token} (here : t ∈ keyword :: token :: opening :: inner ++ [closing]) :
    keyword.mark.line ≤ t.mark.line ∧ t.mark.line ≤ closing.mark.line :=
  placed.within laid.segmented.ordered here

theorem closesOnLine_iff (laid : Laid text segments)
    (placed : Placed (tokensOf segments) b before keyword token opening inner closing after)
    {number : Nat} (here : keyword.mark.line = number + 1) :
    closesOnLine ((Document.ofText text).lines.getD number []) = true ↔
      b.startLine = b.endLine := by
  have starts := placed.startLine_iff.2 here
  constructor
  · intro closes
    rcases laid.flat_or_last placed with flat | ⟨stays, -⟩
    · exact flat
    · rw [starts, Document.line_natCast, closes] at stays
      cases stays
  · intro flat
    obtain ⟨row, isRow⟩ := laid.row number
    obtain ⟨gap₁, gap₂, gap₃, rest, mark, onward, line, blank₁, blank₂, blank₃, -, -, word,
      segmented, -, tokens⟩ := laid.header_line placed here isRow
    obtain ⟨front, shape, plain⟩ := headerText_eq b.kind blank₁ blank₂ blank₃ word rest
    have noBrace : '\x7b' ∉ front := not_mem_of_blank_or_word
      (fun c isIn => (plain c isIn).imp_left IsGapChar.isBlank) (by decide) (by decide)
    have last : closing.mark.line = number + 1 := by
      rw [← Mark.row_eq_iff, ← placed.ends, ← flat, starts]
    have isIn : closing ∈ tokensOf onward := by
      rw [tokens, mem_lineTokens]
      exact ⟨by simp, last, by rw [placed.closes]; simp⟩
    have brace := segmented.mem_of_punct isIn placed.closes
    rw [line, shape, closesOnLine_append noBrace]
    exact decide_eq_true (brace '\x7d' (by decide))

end

/-- The line of a sign before which only blanks and words stand has it as a token. -/
theorem exists_sign (laid : Laid text segments) {number : Nat} {front back : List Char}
    {c : Char} {p : Punct}
    (line : (Document.ofText text).lines.getD number [] = front ++ c :: back)
    (isSign : IsPlainSign c p) (plain : ∀ c ∈ front, isBlank c = true ∨ isWordChar c = true) :
    ∃ t ∈ tokensOf segments, t.lexeme = .punct p ∧ t.mark.line = number + 1 := by
  obtain ⟨row, isRow⟩ := laid.row number
  have segmented := isRow.segmented
  rw [line] at segmented
  have isIn := segmented.sign_mem isSign
    (not_mem_of_blank_or_word plain (by decide) (by decide))
    (not_mem_of_blank_or_word plain (by decide) (by decide))
  rw [isRow.tokens] at isIn
  obtain ⟨known, here, -⟩ := mem_lineTokens.1 isIn
  exact ⟨_, known, rfl, here⟩

theorem header?_iff (laid : Laid text segments) (derived : IsSchema (tokensOf segments) schema)
    (number : Nat) (found : Header) :
    header? ((Document.ofText text).lines.getD number []) = some found ↔
      ∃ b ∈ schema.blocks, b.startLine = number ∧ found = ⟨b.kind, b.name⟩ := by
  constructor
  · intro isHeader
    obtain ⟨front, back, line, plain⟩ := exists_of_header? isHeader
    obtain ⟨t, isIn, isBrace, here⟩ :=
      laid.exists_sign (p := .braceOpen) line (by unfold IsPlainSign; decide) plain
    obtain ⟨b, known, before, keyword, token, opening, inner, closing, after, placed, same⟩ :=
      derived.brace isIn (.inl isBrace)
    have isOpening : t = opening := by
      rcases same with same | rfl
      · exact same
      · rw [placed.closes] at isBrace
        cases isBrace
    have first : keyword.mark.line = number + 1 := by
      rw [← (laid.header_sameLine placed).2, ← isOpening, here]
    refine ⟨b, known, placed.startLine_iff.2 first, ?_⟩
    rw [laid.header?_line placed first] at isHeader
    exact (Option.some.inj isHeader).symm
  · rintro ⟨b, known, starts, rfl⟩
    obtain ⟨before, keyword, token, opening, inner, closing, after, placed⟩ :=
      derived.isPlaced known
    exact laid.header?_line placed (placed.startLine_iff.1 starts)

/-- A line that starts with a closing brace is the last one of a block with a body. -/
theorem ends_of_startsWithBrace (laid : Laid text segments)
    (derived : IsSchema (tokensOf segments) schema) {number : Nat}
    (starts : startsWithBrace ((Document.ofText text).lines.getD number []) = true) :
    ∃ b ∈ schema.blocks, b.startLine < b.endLine ∧ b.endLine = number := by
  obtain ⟨blanks, back, line, blank⟩ := exists_of_startsWithBrace starts
  obtain ⟨t, isIn, isBrace, here⟩ := laid.exists_sign (p := .braceClose) line
    (by unfold IsPlainSign; decide) fun c isIn => .inl (blank c isIn)
  obtain ⟨b, known, before, keyword, token, opening, inner, closing, after, placed, same⟩ :=
    derived.brace isIn (.inr isBrace)
  have isClosing : t = closing := by
    rcases same with rfl | same
    · rw [placed.opens] at isBrace
      cases isBrace
    · exact same
  have ends : b.endLine = number := by
    rw [placed.ends, Mark.row_eq_iff, ← isClosing, here]
  have ordered := (laid.within placed List.mem_cons_self).2
  refine ⟨b, known, ?_, ends⟩
  -- the line of a whole block starts with its keyword, not with a brace
  by_contra flat
  have first : keyword.mark.line = number + 1 := by
    rw [placed.starts, placed.ends] at flat
    rw [← isClosing] at ordered flat
    simp only [Mark.row] at flat
    omega
  obtain ⟨row, isRow⟩ := laid.row number
  obtain ⟨gap₁, gap₂, gap₃, rest, mark, onward, spelled, blank₁, -⟩ :=
    laid.header_line placed first isRow
  rw [spelled, not_startsWithBrace_headerText blank₁] at starts
  cases starts

/-- The last line of a block with a body starts with its closing brace. -/
theorem startsWithBrace_of_ends (laid : Laid text segments) {b : Block}
    {before inner after : List Token} {keyword token opening closing : Token}
    (placed : Placed (tokensOf segments) b before keyword token opening inner closing after)
    (hasBody : b.startLine < b.endLine) {number : Nat} (ends : b.endLine = number) :
    startsWithBrace ((Document.ofText text).lines.getD number []) = true := by
  rw [placed.ends, Mark.row_eq_iff] at ends
  rcases laid.flat_or_last placed with flat | ⟨-, last⟩
  · omega
  obtain ⟨row, isRow⟩ := laid.row number
  have tokens : tokensOf row = closing :: lineTokens after number := by
    have shape : tokensOf segments =
        (before ++ keyword :: token :: opening :: inner) ++ closing :: after := by
      rw [placed.shape]
      simp
    rw [isRow.tokens, shape, lineTokens_append, last.lineTokens ends, List.nil_append,
      lineTokens_cons_here ends (by rw [placed.closes]; simp)]
  obtain ⟨gap, chars, rest, onward, line, blank, -, front, -⟩ :=
    isRow.segmented.next isRow.noFeed tokens
  rw [placed.closes] at front
  obtain rfl := front.punct
  rw [line]
  exact startsWithBrace_append (fun c isIn => (blank c isIn).isBlank) rest

theorem startsWithBrace_iff (laid : Laid text segments)
    (derived : IsSchema (tokensOf segments) schema) (number : Nat) :
    startsWithBrace ((Document.ofText text).lines.getD number []) = true ↔
      ∃ b ∈ schema.blocks, b.startLine < b.endLine ∧ b.endLine = number := by
  constructor
  · exact laid.ends_of_startsWithBrace derived
  · rintro ⟨b, known, hasBody, ends⟩
    obtain ⟨before, keyword, token, opening, inner, closing, after, placed⟩ :=
      derived.isPlaced known
    exact laid.startsWithBrace_of_ends placed hasBody ends

/-- No statement follows a block on its last line. -/
theorem closing_lt (laid : Laid text segments) {b : Block} {before inner after : List Token}
    {keyword token opening closing : Token}
    (placed : Placed (tokensOf segments) b before keyword token opening inner closing after) :
    ∀ t ∈ after, t.lexeme ≠ .newline → closing.mark.line < t.mark.line := by
  intro t isIn other
  obtain ⟨others, onward⟩ := placed.onward
  obtain ⟨c, -, before', keyword', token', opening', inner', closing', after', placed', here⟩ :=
    onward.mem isIn other
  have balanced : ∀ depth, depthBehind depth
      (before ++ (keyword :: token :: opening :: inner ++ [closing])) = depth := by
    intro depth
    rw [depthBehind_append, placed.balanced, placed.isBlock.balanced]
  have whole := placed'.behind balanced
  rw [← placed.shape] at whole
  have first := laid.first whole closing (by simp)
  exact Nat.lt_of_lt_of_le first (laid.within whole here).1

/-- The tokens on the lines of a block are its own. -/
theorem lineTokens_block (laid : Laid text segments) {b : Block}
    {before inner after : List Token} {keyword token opening closing : Token}
    (placed : Placed (tokensOf segments) b before keyword token opening inner closing after)
    {number : Nat} (below : b.startLine ≤ number) (above : number ≤ b.endLine) :
    lineTokens (tokensOf segments) number =
      lineTokens (keyword :: token :: opening :: inner ++ [closing]) number := by
  rw [placed.starts, Mark.row] at below
  rw [placed.ends, Mark.row] at above
  have front : lineTokens before number = [] := by
    apply lineTokens_eq_nil
    intro t isIn _
    have first := laid.first placed t isIn
    omega
  have back : lineTokens after number = [] := by
    apply lineTokens_eq_nil
    intro t isIn other
    have last := laid.closing_lt placed t isIn other
    omega
  rw [placed.shape, lineTokens_append, lineTokens_append, front, back, List.nil_append,
    List.append_nil]

/-- **The lines of a text that is laid out show the blocks of its tree.** -/
theorem outline (laid : Laid text segments) (derived : IsSchema (tokensOf segments) schema) :
    Outline (Document.ofText text).lines schema.blocks where
  ordered := by
    apply derived.pairwise.imp
    rintro b c ⟨before, keyword, token, opening, inner, closing, after, placed, t, isIn, same⟩
    have above := laid.first placed t isIn
    rw [← same, placed.starts, Mark.row, Mark.row]
    omega
  grounded b known := by
    obtain ⟨before, keyword, token, opening, inner, closing, after, placed⟩ :=
      derived.isPlaced known
    have pos := laid.line_pos (t := keyword) (by rw [placed.shape]; simp)
    have ordered := (laid.within placed List.mem_cons_self).2
    rw [placed.starts, placed.ends, Mark.row, Mark.row]
    omega
  header := laid.header?_iff derived
  closesOnLine b known := by
    obtain ⟨before, keyword, token, opening, inner, closing, after, placed⟩ :=
      derived.isPlaced known
    have pos := laid.line_pos (t := keyword) (by rw [placed.shape]; simp)
    apply laid.closesOnLine_iff placed
    rw [placed.starts, Mark.row]
    omega
  closing := laid.startsWithBrace_iff derived

end Laid

end SchemaAssist
