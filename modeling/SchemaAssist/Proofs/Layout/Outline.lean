/-
# SchemaAssist.Proofs.Layout.Outline — scanning lines that show their blocks

Scanning sees three things of a line: whether it is a header, whether its block ends
there again, and whether it starts with a closing brace.  `Outline lines blocks` says
that these are right for a list of blocks: headers stand on their first lines only,
closing braces on the last lines of those that have a body.

Nothing else is needed for scanning to find the blocks (`Outline.at?_eq`).  The walk
up from a line stops at the nearest boundary and the walk down at the first one behind
it, and no boundary lies strictly inside a block (`Outline.noBoundary`).
-/
import SchemaAssist.BlockView
import Mathlib.Data.List.GetD
import Mathlib.Data.Nat.Find
import Mathlib.Tactic.Common

namespace SchemaAssist

set_option autoImplicit false

open Scan

/-! ## Walking to a boundary -/

theorem isBoundary_nil : isBoundary [] = false := by decide

theorem lt_length_of_isBoundary {lines : List (List Char)} {number : Nat}
    (boundary : isBoundary (lines.getD number []) = true) : number < lines.length := by
  by_contra beyond
  rw [List.getD_eq_default _ _ (by omega), isBoundary_nil] at boundary
  cases boundary

theorem boundaryBefore?_succ (lines : List (List Char)) (number : Nat) :
    boundaryBefore? lines (number + 1) =
      if isBoundary (lines.getD number []) then some number
      else boundaryBefore? lines number := by
  unfold boundaryBefore?
  by_cases inside : number < lines.length
  · rw [List.take_add_one, List.getElem?_eq_getElem inside]
    have line : lines.getD number [] = lines[number] := by
      rw [List.getD_eq_getElem?_getD, List.getElem?_eq_getElem inside, Option.getD_some]
    simp only [Option.toList_some, List.reverse_append, List.reverse_singleton,
      List.singleton_append, List.findIdx?_cons, line, List.length_append, List.length_take,
      List.length_singleton, Nat.min_eq_left (Nat.le_of_lt inside)]
    split
    · simp
    · rw [Option.map_map]
      congr 1
      funext distance
      simp only [Function.comp_apply]
      omega
  · have beyond : lines.length ≤ number := by omega
    rw [List.getD_eq_default _ _ beyond, isBoundary_nil, List.take_of_length_le beyond,
      List.take_of_length_le (by omega)]
    rfl

/-- The walk up finds the nearest boundary above. -/
theorem boundaryBefore?_eq_some {lines : List (List Char)} {number start : Nat} :
    boundaryBefore? lines number = some start ↔
      start < number ∧ isBoundary (lines.getD start []) = true ∧
        ∀ between, start < between → between < number →
          isBoundary (lines.getD between []) = false := by
  induction number with
  | zero => simp [boundaryBefore?]
  | succ number ih =>
      rw [boundaryBefore?_succ]
      by_cases boundary : isBoundary (lines.getD number []) = true
      · rw [if_pos boundary, Option.some.injEq]
        constructor
        · rintro rfl
          exact ⟨Nat.lt_succ_self _, boundary, fun between above below => by omega⟩
        · rintro ⟨above, -, clear⟩
          by_contra other
          rw [clear number (by omega) (Nat.lt_succ_self _)] at boundary
          cases boundary
      · rw [if_neg boundary, ih]
        rw [Bool.not_eq_true] at boundary
        constructor
        · rintro ⟨above, isStart, clear⟩
          refine ⟨by omega, isStart, fun between after before => ?_⟩
          by_cases last : between = number
          · rw [last, boundary]
          · exact clear between after (by omega)
        · rintro ⟨above, isStart, clear⟩
          have other : start ≠ number := by
            rintro rfl
            rw [boundary] at isStart
            cases isStart
          exact ⟨by omega, isStart, fun between after before => clear between after (by omega)⟩

/-- The walk down finds the first boundary below. -/
theorem boundaryAfter_eq {lines : List (List Char)} {start stop : Nat} (number : Nat)
    (below : start < stop) (isStop : isBoundary (lines.getD stop []) = true)
    (clear : ∀ between, start < between → between < stop →
      isBoundary (lines.getD between []) = false) :
    boundaryAfter lines start number = stop := by
  have inside := lt_length_of_isBoundary isStop
  have found : (lines.drop (start + 1)).findIdx? isBoundary = some (stop - (start + 1)) := by
    rw [List.findIdx?_eq_some_iff_getElem]
    refine ⟨by rw [List.length_drop]; omega, ?_, ?_⟩
    · rw [List.getElem_drop, ← isStop, List.getD_eq_getElem _ _ inside]
      congr 2
      omega
    · intro distance nearer
      have between := clear (start + 1 + distance) (by omega) (by omega)
      rw [List.getD_eq_getElem _ _ (by omega)] at between
      rw [List.getElem_drop, between]
      exact Bool.false_ne_true
  unfold boundaryAfter
  rw [found]
  show start + 1 + (stop - (start + 1)) = stop
  omega

/-- Without a boundary below, the walk down reaches the end of the document. -/
theorem boundaryAfter_eq_max {lines : List (List Char)} {start : Nat} (number : Nat)
    (clear : ∀ below, start < below → isBoundary (lines.getD below []) = false) :
    boundaryAfter lines start number = max lines.length (number + 1) := by
  have none : (lines.drop (start + 1)).findIdx? isBoundary = none := by
    rw [List.findIdx?_eq_none_iff]
    intro line isIn
    obtain ⟨distance, within, rfl⟩ := List.mem_iff_getElem.1 isIn
    rw [List.length_drop] at within
    have below := clear (start + 1 + distance) (by omega)
    rw [List.getD_eq_getElem _ _ (by omega)] at below
    rw [List.getElem_drop, below]
  unfold boundaryAfter
  rw [none]

/-- The body of a block under the header on line `start` ends in front of line `stop`: at the
first boundary below, or, without one, where the document ends, but not before the line behind
`number`. -/
structure EndsBody (lines : List (List Char)) (start number stop : Nat) : Prop where
  below : start < stop
  clear : ∀ between, start < between → between < stop → isBoundary (lines.getD between []) = false
  ends : isBoundary (lines.getD stop []) = true ∨
    (∀ later, start < later → isBoundary (lines.getD later []) = false) ∧
      stop = max lines.length (number + 1)

theorem endsBody_boundaryAfter (lines : List (List Char)) {start number : Nat}
    (le : start ≤ number) : EndsBody lines start number (boundaryAfter lines start number) := by
  by_cases later : ∃ stop, start < stop ∧ isBoundary (lines.getD stop []) = true
  · obtain ⟨stop, ⟨below, isStop⟩, least⟩ :
        ∃ stop, (start < stop ∧ isBoundary (lines.getD stop []) = true) ∧
          ∀ n < stop, ¬ (start < n ∧ isBoundary (lines.getD n []) = true) :=
      ⟨Nat.find later, Nat.find_spec later, fun _ => Nat.find_min later⟩
    have clear : ∀ between, start < between → between < stop →
        isBoundary (lines.getD between []) = false :=
      fun between after before => Bool.eq_false_iff.2 fun isStop => least _ before ⟨after, isStop⟩
    rw [boundaryAfter_eq number below isStop clear]
    exact ⟨below, clear, .inl isStop⟩
  · have clear : ∀ below, start < below → isBoundary (lines.getD below []) = false :=
      fun below after => Bool.eq_false_iff.2 fun isStop => later ⟨below, after, isStop⟩
    rw [boundaryAfter_eq_max number clear]
    exact ⟨by omega, fun between after _ => clear between after, .inr ⟨clear, rfl⟩⟩

theorem boundaryAfter_eq_iff {lines : List (List Char)} {start number stop : Nat}
    (le : start ≤ number) :
    boundaryAfter lines start number = stop ↔ EndsBody lines start number stop := by
  constructor
  · rintro rfl
    exact endsBody_boundaryAfter lines le
  · rintro ⟨below, clear, isStop | ⟨noStop, rfl⟩⟩
    · exact boundaryAfter_eq number below isStop clear
    · exact boundaryAfter_eq_max number noStop

/-! ## Outlines -/

/-- The lines show these blocks, from top to bottom, and no others. -/
structure Outline (lines : List (List Char)) (blocks : List Block) : Prop where
  ordered : blocks.Pairwise fun first second => first.endLine < second.startLine
  grounded : ∀ b ∈ blocks, 0 ≤ b.startLine ∧ b.startLine ≤ b.endLine
  header : ∀ (number : Nat) (found : Header), header? (lines.getD number []) = some found ↔
    ∃ b ∈ blocks, b.startLine = number ∧ found = ⟨b.kind, b.name⟩
  closesOnLine : ∀ b ∈ blocks, closesOnLine (lines.getD b.startLine.toNat []) = true ↔
    b.startLine = b.endLine
  closing : ∀ number : Nat, startsWithBrace (lines.getD number []) = true ↔
    ∃ b ∈ blocks, b.startLine < b.endLine ∧ b.endLine = number

namespace Outline

variable {lines : List (List Char)} {blocks : List Block}

theorem eq_or_apart (outline : Outline lines blocks) {first second : Block}
    (isFirst : first ∈ blocks) (isSecond : second ∈ blocks) :
    first = second ∨ first.endLine < second.startLine ∨ second.endLine < first.startLine := by
  let Apart (first second : Block) : Prop :=
    first = second ∨ first.endLine < second.startLine ∨ second.endLine < first.startLine
  have down : blocks.Pairwise Apart := outline.ordered.imp fun before => .inr (.inl before)
  have up : blocks.Pairwise (flip Apart) := outline.ordered.imp fun before => .inr (.inr before)
  exact List.Pairwise.forall_of_forall_of_flip (fun _ _ => .inl rfl) down up isFirst isSecond

theorem boundary_iff (outline : Outline lines blocks) {number : Nat} :
    isBoundary (lines.getD number []) = true ↔
      ∃ b ∈ blocks, b.startLine = number ∨ b.startLine < b.endLine ∧ b.endLine = number := by
  rw [isBoundary, Bool.or_eq_true, outline.closing, Option.isSome_iff_exists]
  constructor
  · rintro (⟨found, isHeader⟩ | ⟨b, isIn, hasBody, ends⟩)
    · obtain ⟨b, isIn, starts, -⟩ := (outline.header number found).1 isHeader
      exact ⟨b, isIn, .inl starts⟩
    · exact ⟨b, isIn, .inr ⟨hasBody, ends⟩⟩
  · rintro ⟨b, isIn, starts | ends⟩
    · exact .inl ⟨_, (outline.header number _).2 ⟨b, isIn, starts, rfl⟩⟩
    · exact .inr ⟨b, isIn, ends⟩

/-- No boundary lies strictly inside a block. -/
theorem noBoundary (outline : Outline lines blocks) {b : Block} (isIn : b ∈ blocks)
    {number : Nat} (below : b.startLine < number) (above : number < b.endLine) :
    isBoundary (lines.getD number []) = false := by
  rw [Bool.eq_false_iff]
  intro boundary
  obtain ⟨other, isOther, atEdge⟩ := outline.boundary_iff.1 boundary
  have grounded := outline.grounded other isOther
  rcases outline.eq_or_apart isIn isOther with rfl | before | behind <;> omega

/-- The walk down from the header of a block stops at its closing brace. -/
theorem boundaryAfter_eq_end (outline : Outline lines blocks) {b : Block} (isIn : b ∈ blocks)
    {start : Nat} (starts : b.startLine = start) (hasBody : b.startLine < b.endLine)
    (number : Nat) : boundaryAfter lines start number = b.endLine.toNat := by
  have grounded := outline.grounded b isIn
  refine boundaryAfter_eq _ (by omega)
    (outline.boundary_iff.2 ⟨b, isIn, .inr ⟨hasBody, by omega⟩⟩) ?_
  intro between below above
  exact outline.noBoundary isIn (by omega) (by omega)

/-- A header opens a body if its block does not end there again. -/
theorem opensBody_iff (outline : Outline lines blocks) {start : Nat} :
    opensBody (lines.getD start []) = true ↔
      ∃ b ∈ blocks, b.startLine = start ∧ b.startLine < b.endLine := by
  simp only [opensBody, Bool.and_eq_true, Bool.not_eq_true', Option.isSome_iff_exists]
  constructor
  · rintro ⟨⟨found, isHeader⟩, stays⟩
    obtain ⟨b, isIn, starts, -⟩ := (outline.header start found).1 isHeader
    have grounded := outline.grounded b isIn
    refine ⟨b, isIn, starts, ?_⟩
    by_contra flat
    have closes := (outline.closesOnLine b isIn).2 (by omega)
    rw [starts, Int.toNat_natCast, stays] at closes
    cases closes
  · rintro ⟨b, isIn, starts, hasBody⟩
    have stays := mt (outline.closesOnLine b isIn).1 (by omega)
    rw [starts, Int.toNat_natCast, Bool.not_eq_true] at stays
    exact ⟨⟨_, (outline.header start _).2 ⟨b, isIn, starts, rfl⟩⟩, stays⟩

/-- Scanning finds the block whose body holds a line, and only that one. -/
theorem blockRange?_eq_some (outline : Outline lines blocks) {number : Int} {start stop : Nat} :
    blockRange? lines number = some (start, stop) ↔
      ∃ b ∈ blocks, b.containsLine number = true ∧ b.startLine = start ∧ b.endLine = stop := by
  simp only [Block.containsLine, Bool.and_eq_true, decide_eq_true_eq]
  unfold blockRange?
  constructor
  · intro found
    split at found
    · cases found
    split at found
    · cases found
    rename_i above _ nearest
    obtain ⟨below, -, -⟩ := boundaryBefore?_eq_some.1 nearest
    simp only at found
    split at found
    · rename_i opened
      obtain ⟨opens, inside⟩ := opened
      obtain ⟨rfl, rfl⟩ := Prod.mk.inj (Option.some.inj found)
      obtain ⟨b, isIn, starts, hasBody⟩ := outline.opensBody_iff.1 opens
      rw [outline.boundaryAfter_eq_end isIn starts hasBody] at inside ⊢
      have grounded := outline.grounded b isIn
      exact ⟨b, isIn, ⟨by omega, by omega⟩, starts, by omega⟩
    · cases found
  · rintro ⟨b, isIn, ⟨below, above⟩, starts, ends⟩
    have grounded := outline.grounded b isIn
    have nearest : boundaryBefore? lines number.toNat = some start := by
      rw [boundaryBefore?_eq_some]
      refine ⟨by omega, outline.boundary_iff.2 ⟨b, isIn, .inl starts⟩, ?_⟩
      intro between after before
      exact outline.noBoundary isIn (by omega) (by omega)
    have opened := outline.opensBody_iff.2 ⟨b, isIn, starts, by omega⟩
    rw [if_neg (by omega), nearest]
    simp only [outline.boundaryAfter_eq_end isIn starts (by omega), opened, true_and]
    rw [if_pos (by omega), ends, Int.toNat_natCast]

/-- A line lies in the body of one block at most. -/
theorem blockAtLine?_eq_some (outline : Outline lines blocks) {number : Int} {b : Block} :
    (Schema.mk blocks).blockAtLine? number = some b ↔
      b ∈ blocks ∧ b.containsLine number = true := by
  rw [Schema.blockAtLine?]
  constructor
  · intro found
    have holds := List.find?_some found
    exact ⟨List.mem_of_find?_eq_some found, holds⟩
  · rintro ⟨isIn, holds⟩
    cases found : blocks.find? (·.containsLine number) with
    | none => exact absurd holds (List.find?_eq_none.1 found b isIn)
    | some other =>
        have isOther := List.mem_of_find?_eq_some found
        have holdsOther := List.find?_some found
        simp only [Block.containsLine, Bool.and_eq_true, decide_eq_true_eq] at holds holdsOther
        rcases outline.eq_or_apart isIn isOther with rfl | before | behind
        · rfl
        · omega
        · omega

/-- **Scanning and the tree find the same block** around every line. -/
theorem at?_eq (outline : Outline lines blocks) (number : Int) :
    ScannedBlock.at? ⟨lines⟩ number = ((Schema.mk blocks).blockAtLine? number).map fun b =>
      ⟨b.kind, b.name, b.startLine, b.endLine, lines⟩ := by
  unfold ScannedBlock.at?
  cases found : (Schema.mk blocks).blockAtLine? number with
  | none =>
      cases scanned : blockRange? lines number with
      | none => rfl
      | some range =>
          obtain ⟨b, isIn, holds, -⟩ := outline.blockRange?_eq_some.1 scanned
          rw [outline.blockAtLine?_eq_some.2 ⟨isIn, holds⟩] at found
          cases found
  | some b =>
      obtain ⟨isIn, holds⟩ := outline.blockAtLine?_eq_some.1 found
      have grounded := outline.grounded b isIn
      have scanned : blockRange? lines number = some (b.startLine.toNat, b.endLine.toNat) :=
        outline.blockRange?_eq_some.2 ⟨b, isIn, holds, by omega, by omega⟩
      have starts : ((b.startLine.toNat : Nat) : Int) = b.startLine := by omega
      have ends : ((b.endLine.toNat : Nat) : Int) = b.endLine := by omega
      have isHeader := (outline.header b.startLine.toNat _).2 ⟨b, isIn, by omega, rfl⟩
      have line : (Document.mk lines).line b.startLine = lines.getD b.startLine.toNat [] := by
        rw [Document.line, if_neg (by omega)]
      simp only [scanned, Option.bind_some, ScannedBlock.ofRange?, starts, ends, line, isHeader,
        Option.map_some]

end Outline

end SchemaAssist
