/-
# SchemaAssist.Proofs.BlockRanges — where scanned blocks start and end

The block around a line runs from a header that opens a body to the first boundary below the
header, and no boundary lies between the two (`IsRange`).  The walks up and down find exactly
these ranges (`blockRange?_eq_some_iff`).

Without a boundary below, a block reaches to the end of the document, or to the line behind the
one asked for if that is further.  So the lines of the document inside a block all have the same
range (`IsRange.within`), and two blocks of the document have no body line in common; but a line
past the end of the document is answered with a range that no line of the document has.
-/
import SchemaAssist.Proofs.Layout.Outline

namespace SchemaAssist

set_option autoImplicit false

open Scan

/-- A block runs from line `start`, its header, to line `stop`, its end, with line `number`
strictly between them. -/
structure IsRange (lines : List (List Char)) (number : Int) (start stop : Nat) : Prop where
  above : start < number
  below : number < stop
  /-- The block starts with a header whose brace stays open. -/
  opens : opensBody (lines.getD start []) = true
  /-- No boundary lies inside. -/
  clear : ∀ between, start < between → between < stop → isBoundary (lines.getD between []) = false
  /-- The block ends at a boundary.  Without one it reaches over all lines. -/
  ends : isBoundary (lines.getD stop []) = true ∨
    (∀ later, start < later → isBoundary (lines.getD later []) = false) ∧
      (stop : Int) = max (lines.length : Int) (number + 1)

theorem isBoundary_of_opensBody {line : List Char} (opens : opensBody line = true) :
    isBoundary line = true := by
  rw [opensBody, Bool.and_eq_true] at opens
  rw [isBoundary, opens.1, Bool.true_or]

variable {lines : List (List Char)} {number : Int} {start stop : Nat}

/-- **Scanning finds exactly the ranges.** -/
theorem blockRange?_eq_some_iff :
    blockRange? lines number = some (start, stop) ↔ IsRange lines number start stop := by
  constructor
  · intro found
    unfold blockRange? at found
    split at found
    · cases found
    rename_i inside
    split at found
    · cases found
    rename_i nearest walked
    simp only at found
    split at found
    · rename_i isRange
      cases found
      obtain ⟨above, -, passed⟩ := boundaryBefore?_eq_some.1 walked
      have body := endsBody_boundaryAfter lines (Nat.le_of_lt above)
      refine ⟨by omega, by omega, isRange.1, body.clear, ?_⟩
      exact body.ends.imp_right fun ⟨noStop, reaches⟩ => ⟨noStop, by omega⟩
    · cases found
  · rintro ⟨above, below, opens, clear, ends⟩
    have nearest : boundaryBefore? lines number.toNat = some start :=
      boundaryBefore?_eq_some.2 ⟨by omega, isBoundary_of_opensBody opens,
        fun between after before => clear between after (by omega)⟩
    have reaches : boundaryAfter lines start number.toNat = stop :=
      boundaryAfter_eq_iff (by omega) |>.2
        ⟨by omega, clear, ends.imp_right fun ⟨noStop, reaches⟩ => ⟨noStop, by omega⟩⟩
    rw [blockRange?, if_neg (by omega), nearest]
    simp only [reaches, opens, true_and]
    rw [if_pos (by omega)]

/-! ## Ranges of the document's lines -/

namespace IsRange

/-- A boundary is a line of the document. -/
theorem stop_le (range : IsRange lines number start stop) :
    stop ≤ lines.length ∨ (stop : Int) = number + 1 := by
  rcases range.ends with isStop | ⟨-, reaches⟩
  · exact .inl (Nat.le_of_lt (lt_length_of_isBoundary isStop))
  · omega

/-- The lines of the document inside a block have its range, cut off at the end of the
document. -/
theorem within (range : IsRange lines number start stop) {inner : Nat} (above : start < inner)
    (below : inner < stop) (inside : inner < lines.length) :
    IsRange lines inner start (if number < lines.length then stop else lines.length) := by
  rcases range.ends with isStop | ⟨noStop, reaches⟩
  · have last := lt_length_of_isBoundary isStop
    have before := range.below
    rw [if_pos (by omega)]
    exact ⟨by omega, by omega, range.opens, range.clear, .inl isStop⟩
  · have same : (if number < lines.length then stop else lines.length) = lines.length := by
      split <;> omega
    rw [same]
    exact ⟨by omega, by omega, range.opens, fun between after _ => noStop between after,
      .inr ⟨noStop, by omega⟩⟩

end IsRange

/-- A line in the body of a block has the same range as the line that the block was found
around, if both are lines of the document. -/
theorem blockRange?_within (found : blockRange? lines number = some (start, stop)) {inner : Nat}
    (above : start < inner) (below : inner < stop) (inside : number < lines.length) :
    blockRange? lines inner = some (start, stop) := by
  have range := blockRange?_eq_some_iff.1 found
  have within : inner < lines.length := by
    rcases range.stop_le with le | reaches <;> omega
  have same := range.within above below within
  rw [if_pos inside] at same
  exact blockRange?_eq_some_iff.2 same

namespace ScannedBlock

variable {document : Document} {block : ScannedBlock} {inner : Int}

theorem at?_eq_some : at? document number = some block ↔
    ∃ start stop header, IsRange document.lines number start stop ∧
      header? (document.line (start : Nat)) = some header ∧
      block = ⟨header.kind, header.name, start, stop, document.lines⟩ := by
  simp only [at?, ofRange?, Option.bind_eq_some_iff, Option.map_eq_some_iff, Prod.exists,
    blockRange?_eq_some_iff]
  constructor
  · rintro ⟨start, stop, range, header, isHeader, rfl⟩
    exact ⟨start, stop, header, range, isHeader, rfl⟩
  · rintro ⟨start, stop, header, range, isHeader, rfl⟩
    exact ⟨start, stop, range, header, isHeader, rfl⟩

/-- A block reaches over lines of the document, or one line further if it was found there. -/
theorem endLine_le (found : at? document number = some block) :
    block.endLine ≤ document.lines.length ∨ block.endLine = number + 1 := by
  obtain ⟨start, stop, header, range, -, rfl⟩ := at?_eq_some.1 found
  exact range.stop_le.imp_left Int.ofNat_le.2

/-- The block, ended in front of that line at the latest. -/
def upTo (block : ScannedBlock) (line : Nat) : ScannedBlock :=
  { block with endLine := min block.endLine line }

/-- Around each line of its body that the document has, scanning finds the same block, cut off at
the end of the document. -/
theorem at?_upTo (found : at? document number = some block) (above : block.startLine < inner)
    (below : inner < block.endLine) (inside : inner < document.lines.length) :
    at? document inner = some (block.upTo document.lines.length) := by
  obtain ⟨start, stop, header, range, isHeader, rfl⟩ := at?_eq_some.1 found
  simp only at above below
  obtain ⟨line, rfl⟩ : ∃ line : Nat, inner = line := ⟨inner.toNat, by omega⟩
  have cut := range.within (Int.ofNat_lt.1 above) (Int.ofNat_lt.1 below) (Int.ofNat_lt.1 inside)
  refine at?_eq_some.2 ⟨start, _, header, cut, isHeader, ?_⟩
  have ends : min (stop : Int) document.lines.length =
      ((if number < document.lines.length then stop else document.lines.length : Nat) : Int) := by
    have reaches := range.below
    rcases range.stop_le with le | further <;> split <;> omega
  rw [upTo, ends]

/-- So if it was found around a line of the document, it is the same around all lines of its
body. -/
theorem at?_within (found : at? document number = some block)
    (inside : number < document.lines.length) (above : block.startLine < inner)
    (below : inner < block.endLine) : at? document inner = some block := by
  have whole : block.endLine ≤ document.lines.length := by
    rcases endLine_le found with le | further <;> omega
  have same := at?_upTo found above below (by omega)
  rwa [upTo, Int.min_eq_left whole] at same

end ScannedBlock

/-- **Scanned blocks are the ranges from a header to a boundary, and do not overlap.**  The
lines of the document inside a block all have its range; around a line past the end, the block
reaches further than around them. -/
theorem blockRange?_headerToBoundary (lines : List (List Char)) (number : Int) :
    (∀ start stop,
      blockRange? lines number = some (start, stop) ↔ IsRange lines number start stop) ∧
    (∀ start stop, blockRange? lines number = some (start, stop) →
      ∀ inner : Nat, inner < lines.length → start < inner → inner < stop →
        blockRange? lines inner =
          some (start, if number < lines.length then stop else lines.length)) ∧
    ∀ other start stop start' stop', number < lines.length → other < (lines.length : Int) →
      blockRange? lines number = some (start, stop) →
      blockRange? lines other = some (start', stop') → (start, stop) ≠ (start', stop') →
      ∀ body : Nat, ¬ ((start < body ∧ body < stop) ∧ start' < body ∧ body < stop') := by
  refine ⟨fun start stop => blockRange?_eq_some_iff, ?_, ?_⟩
  · intro start stop found inner inside above below
    exact blockRange?_eq_some_iff.2
      ((blockRange?_eq_some_iff.1 found).within above below inside)
  · intro other start stop start' stop' inside inside' found found' apart body shared
    obtain ⟨⟨above, below⟩, above', below'⟩ := shared
    have here := blockRange?_within found above below inside
    have there := blockRange?_within found' above' below' inside'
    rw [here] at there
    exact apart (Option.some.inj there)

/-- Two blocks, of which the first is ended by the header of the second. -/
def stackedLines : List (List Char) :=
  ["model A \x7b", "  x Int", "", "enum B \x7b", "  Y"].map String.toList

theorem blockRange?_stackedLines :
    IsRange stackedLines 1 0 3 ∧ IsRange stackedLines 6 3 7 ∧
      blockRange? stackedLines 2 = some (0, 3) ∧ blockRange? stackedLines 4 = some (3, 5) ∧
      ∀ body : Nat, ¬ ((0 < body ∧ body < 3) ∧ 3 < body ∧ body < 5) := by
  have first : blockRange? stackedLines 1 = some (0, 3) := by decide +kernel
  have second : blockRange? stackedLines 6 = some (3, 7) := by decide +kernel
  have last : blockRange? stackedLines 4 = some (3, 5) := by decide +kernel
  obtain ⟨upper, within, disjoint⟩ := blockRange?_headerToBoundary stackedLines 1
  obtain ⟨lower, within', -⟩ := blockRange?_headerToBoundary stackedLines 6
  exact ⟨(upper 0 3).1 first, (lower 3 7).1 second,
    within 0 3 first 2 (by decide) (by decide) (by decide),
    within' 3 7 second 4 (by decide) (by decide) (by decide),
    disjoint 4 0 3 3 5 (by decide) (by decide) first last (by decide)⟩

/-- A line of the document need not have the range of the block around it, if that block was
found around a line past the end. -/
theorem blockRange?_pastEnd :
    ¬ ∀ (lines : List (List Char)) (number : Int) (start stop : Nat),
      blockRange? lines number = some (start, stop) →
        ∀ inner : Nat, inner < lines.length → start < inner → inner < stop →
          blockRange? lines inner = some (start, stop) := by
  intro same
  have further : blockRange? ["model A \x7b".toList, "x".toList] 2 = some (0, 3) := by
    decide +kernel
  have inside := same _ 2 0 3 further 1 (by decide) (by decide) (by decide)
  have nearer : blockRange? ["model A \x7b".toList, "x".toList] 1 = some (0, 2) := by
    decide +kernel
  rw [show ((1 : Nat) : Int) = 1 from rfl, nearer] at inside
  cases inside

end SchemaAssist
