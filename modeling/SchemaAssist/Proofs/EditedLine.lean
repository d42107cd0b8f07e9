/-
# SchemaAssist.Proofs.EditedLine — the block around a line that is being typed

While a line is typed it holds all kinds of unfinished text.  As long as none of it is a block
header or starts with a closing brace, the block that scanning finds around the line stays: its
kind, name and range, and the members on its other lines (`at?_alike`).

Around the other lines of its body the same block is found, cut off at the end of the document.
This makes a difference at one place only: a last line with nothing on it is no line, so while
nothing has been typed there the document is one line shorter, and a block that nothing closes
ends with it (`at?_emptiedLine`).
-/
import SchemaAssist.Proofs.BlockRanges
import SchemaAssist.Proofs.RightOfCursor

namespace SchemaAssist

set_option autoImplicit false

open Text Scan

namespace ScannedBlock

variable {first second document : Document} {line : Nat} {number : Int}
  {block : ScannedBlock}

/-- The members of a block that was found in a document can be listed. -/
theorem exists_memberNames (found : at? document number = some block) (exclude : Option Int) :
    ∃ names, block.memberNames? exclude = some names := by
  obtain ⟨start, stop, starts, ends, lines, inside⟩ := exists_range found
  rw [memberNames?, starts, ends, lines, memberNames?_eq_walk inside]
  exact ⟨_, rfl⟩

/-! ## Around the other lines -/

/-- The line is a line of both documents, or the first behind the shorter one. -/
theorem le_of_alike (alike : first.AlikeUpTo second ⟨line, 0⟩)
    (inside : line < first.lines.length ∨ line < second.lines.length) :
    line ≤ first.lines.length ∧ line ≤ second.lines.length := by
  rcases alike.size with same | ⟨⟨ends, -⟩, ends', -⟩
  · omega
  · simp only at ends ends'
    omega

/-- Around another line of its body a block is found again, but cut off at the end of the
document. -/
theorem at?_other (found : at? document line = some block) (near : line ≤ document.lines.length)
    (other : number ≠ line) (above : block.startLine < number) (below : number < block.endLine) :
    at? document number = some (block.upTo document.lines.length) := by
  have within : number < document.lines.length := by
    rcases endLine_le found with le | further <;> omega
  exact at?_upTo found above below within

/-- **A line that is being typed does not move the block around it**, as long as it bounds no
block.  Scanning finds no block around it, or one of the same kind and name on the same lines,
and the members on the other lines are the same.  Around each other line of its body this block
is found again, up to the end of the document; if the document has as many lines as before, it is
found around all lines of its body as it was. -/
theorem at?_alike (alike : first.AlikeUpTo second ⟨line, 0⟩)
    (inside : line < first.lines.length ∨ line < second.lines.length)
    (passes : isBoundary (first.line line) = false)
    (passes' : isBoundary (second.line line) = false) :
    at? first line = none ∧ at? second line = none ∨
      ∃ block other, at? first line = some block ∧ at? second line = some other ∧
        (block.kind, block.name, block.startLine, block.endLine) =
          (other.kind, other.name, other.startLine, other.endLine) ∧
        (∃ names, block.memberNames? (some line) = some names ∧
          other.memberNames? (some line) = some names) ∧
        (∃ names, (BlockView.scanned block).fieldNames? (some line) = some names ∧
          (BlockView.scanned other).fieldNames? (some line) = some names) ∧
        (∀ number : Int, number ≠ line → block.startLine < number → number < block.endLine →
          at? first number = some (block.upTo first.lines.length) ∧
            at? second number = some (other.upTo second.lines.length)) ∧
        (first.lines.length = second.lines.length →
          ∀ number : Int, block.startLine < number → number < block.endLine →
            at? first number = some block ∧ at? second number = some other) := by
  have located : at? second line = (at? first line).map fun block =>
      { block with lines := second.lines } := alike.at?_eq passes passes'
  cases found : at? first line with
  | none => exact .inl ⟨rfl, by rw [located, found]; rfl⟩
  | some block =>
      rw [found] at located
      have members := (alike.agree found located).members
      obtain ⟨names, listed⟩ := exists_memberNames found (some line)
      have listed' : BlockView.memberNames? _ (some (line : Int)) = some names :=
        members.symm.trans listed
      obtain ⟨near, near'⟩ := le_of_alike alike inside
      refine .inr ⟨block, _, rfl, located, rfl, ⟨names, listed, listed'⟩, ?_, ?_, ?_⟩
      · exact ⟨_, congrArg (Option.map _) listed, congrArg (Option.map _) listed'⟩
      · intro number other above below
        exact ⟨at?_other found near other above below, at?_other located near' other above below⟩
      · intro same number above below
        exact ⟨at?_within found (by omega) above below, at?_within located (by omega) above below⟩

/-- A model whose third line is being typed. -/
def draftModel (line : String) : Document :=
  .ofText ("model A \x7b\n  id Int\n" ++ (("" ++ line) ++ "\n  @@index([id])\n\x7d"))

theorem at?_draftModel :
    ∃ block other, at? (draftModel "") 2 = some block ∧
      at? (draftModel "  name Str // \x7b") 2 = some other ∧
      (other.kind, other.name, other.startLine, other.endLine) = (.model, "A", 0, 4) ∧
      block.memberNames? (some 2) = other.memberNames? (some 2) ∧
      ∀ number : Int, block.startLine < number → number < block.endLine →
        at? (draftModel "") number = some block ∧
          at? (draftModel "  name Str // \x7b") number = some other := by
  have alike : (draftModel "").AlikeUpTo (draftModel "  name Str // \x7b") ⟨(2 : Nat), 0⟩ :=
    @Document.AlikeUpTo.ofText "model A \x7b\n  id Int\n" "" "" "  name Str // \x7b"
      "\n  @@index([id])\n\x7d" (by rintro c ⟨⟩; exact .inl rfl) (by rintro c ⟨⟩; exact .inl rfl)
      (List.all_iff_forall_prop.1 (by decide)) (List.all_iff_forall_prop.1 (by decide))
  have known : (at? (draftModel "") 2).map (fun block =>
      (block.kind, block.name, block.startLine, block.endLine)) = some (.model, "A", 0, 4) := by
    decide +kernel
  obtain ⟨outside, -⟩ | ⟨block, other, found, found', same, ⟨names, listed, listed'⟩, -, -, body⟩ :=
    at?_alike alike (.inl (by decide +kernel)) (by decide +kernel) (by decide +kernel)
  · rw [show ((2 : Nat) : Int) = 2 from rfl] at outside
    rw [outside] at known
    cases known
  · refine ⟨block, other, found, found', ?_, listed.trans listed'.symm, body (by decide +kernel)⟩
    rw [← same]
    exact Option.some.inj ((congrArg (Option.map _) found).symm.trans known)

/-- A model that nothing closes, with its last line still to be typed. -/
def begunModel (line : String) : Document := .ofText ("model A \x7b\n  x Int\n" ++ line)

/-- Emptying the last line of a document takes it away, and moves the end of the block around the
line above. -/
theorem at?_emptiedLine :
    (2 < (begunModel "  y").lines.length ∧ (begunModel "  y").line 2 = "  y".toList ∧
        isBoundary "  y".toList = false ∧ isBoundary [] = false) ∧
      (at? (begunModel "  y") 2).map (fun block => (block.startLine, block.endLine)) =
        some (0, 3) ∧
      (at? (begunModel "") 2).map (fun block => (block.startLine, block.endLine)) =
        some (0, 3) ∧
      (at? (begunModel "  y") 1).map (fun block => (block.startLine, block.endLine)) =
        some (0, 3) ∧
      (at? (begunModel "") 1).map (fun block => (block.startLine, block.endLine)) =
        some (0, 2) := by
  decide +kernel

end ScannedBlock

end SchemaAssist
