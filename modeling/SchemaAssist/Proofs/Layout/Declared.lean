/-
# SchemaAssist.Proofs.Layout.Declared — the names of a block in the order of its lines

A block keeps one list for each sort of member, and puts the names of all of them in
order of their lines.  If no two members share a line, that is the order in which they
were written (`declaredNames_ofMembers`).
-/
import SchemaAssist.BlockView
import SchemaAssist.Proofs.Grammar
import Mathlib.Data.List.Basic
import Mathlib.Tactic.Common

namespace SchemaAssist

set_option autoImplicit false

def Member.declared : Member → Int × String
  | assignment a => (a.line, a.key)
  | field f => (f.line, f.name)
  | value v => (v.line, v.name)
  | blockAttribute a => (a.line, a.label)

/-- Whether a member may stand in a block of that kind. -/
def Member.Fits (kind : BlockKind) : Member → Prop
  | assignment _ => kind.holdsAssignments = true
  | field _ => kind.holdsFields = true
  | value _ => kind = .enum
  | blockAttribute _ => kind.holdsAssignments = false

theorem Grammar.IsMember.fits {kind : BlockKind} {tokens : List Token} {m : Member}
    (member : IsMember kind tokens m) : m.Fits kind := by
  cases member with
  | assignment holds _ _ _ => exact holds
  | field holds _ _ _ _ _ => exact holds
  | value isEnum _ _ => exact isEnum
  | blockAttribute holds _ _ => exact holds

theorem Grammar.IsBody.fits {kind : BlockKind} {body : List Token} {members : List Member}
    (isBody : IsBody kind body members) : ∀ m ∈ members, m.Fits kind := by
  induction isBody with
  | empty => simp
  | last member => simpa using member.fits
  | more member _ _ _ ih =>
      intro m isIn
      rcases List.mem_cons.1 isIn with rfl | isIn
      · exact member.fits
      · exact ih m isIn

/-! ## Sorting -/

theorem insertDeclared_perm (name : Int × String) (names : List (Int × String)) :
    (insertDeclared name names).Perm (name :: names) := by
  induction names with
  | nil => exact .refl _
  | cons other rest ih =>
      rw [insertDeclared]
      split
      · exact .refl _
      · exact (ih.cons other).trans (.swap name other rest)

theorem sortDeclared_perm (names : List (Int × String)) : (sortDeclared names).Perm names := by
  induction names with
  | nil => exact .refl _
  | cons name rest ih => exact (insertDeclared_perm name _).trans (ih.cons name)

theorem insertDeclared_sorted {name : Int × String} {names : List (Int × String)}
    (sorted : names.Pairwise (·.1 ≤ ·.1)) :
    (insertDeclared name names).Pairwise (·.1 ≤ ·.1) := by
  induction names with
  | nil => simp [insertDeclared]
  | cons other rest ih =>
      obtain ⟨least, onward⟩ := List.pairwise_cons.1 sorted
      rw [insertDeclared]
      split
      · rename_i before
        have le : name.1 ≤ other.1 := by
          simp only [declaredBefore, Bool.or_eq_true, decide_eq_true_eq, Bool.and_eq_true,
            beq_iff_eq] at before
          omega
        refine List.pairwise_cons.2 ⟨fun later isIn => ?_, sorted⟩
        rcases List.mem_cons.1 isIn with rfl | isIn
        · exact le
        · exact Int.le_trans le (least later isIn)
      · rename_i behind
        have le : other.1 ≤ name.1 := by
          simp only [declaredBefore, Bool.or_eq_true, decide_eq_true_eq, not_or] at behind
          omega
        refine List.pairwise_cons.2 ⟨fun later isIn => ?_, ih onward⟩
        rcases List.mem_cons.1 ((insertDeclared_perm name rest).subset isIn) with rfl | isIn
        · exact le
        · exact least later isIn

theorem sortDeclared_sorted (names : List (Int × String)) :
    (sortDeclared names).Pairwise (·.1 ≤ ·.1) := by
  induction names with
  | nil => exact .nil
  | cons name rest ih => exact insertDeclared_sorted ih

theorem line_injective {names : List (Int × String)} (increasing : names.Pairwise (·.1 < ·.1)) :
    ∀ first ∈ names, ∀ second ∈ names, first.1 = second.1 → first = second := by
  intro first isFirst second isSecond same
  let Apart (x y : Int × String) : Prop := x.1 = y.1 → x = y
  have down : names.Pairwise Apart :=
    increasing.imp fun before same => absurd same (Int.ne_of_lt before)
  have up : names.Pairwise (flip Apart) :=
    increasing.imp fun before same => absurd same.symm (Int.ne_of_lt before)
  exact List.Pairwise.forall_of_forall_of_flip (fun _ _ _ => rfl) down up isFirst isSecond same

/-- Names on lines of their own have one order only in which their lines do not fall. -/
theorem eq_of_sorted {names sorted : List (Int × String)} (perm : names.Perm sorted)
    (ordered : names.Pairwise (·.1 ≤ ·.1)) (increasing : sorted.Pairwise (·.1 < ·.1)) :
    names = sorted := by
  refine List.Perm.eq_of_pairwise (fun x y isIn isIn' le ge => ?_) ordered
    (increasing.imp Int.le_of_lt) perm
  exact line_injective increasing x (perm.subset isIn) y isIn' (Int.le_antisymm le ge)

/-- So they are sorted by their lines alone. -/
theorem sortDeclared_eq {names sorted : List (Int × String)} (same : names.Perm sorted)
    (increasing : sorted.Pairwise (·.1 < ·.1)) : sortDeclared names = sorted :=
  eq_of_sorted ((sortDeclared_perm names).trans same) (sortDeclared_sorted names) increasing

/-! ## The names of a block -/

theorem filterMap_split_perm {members : List Member} {first second : Member → Option (Int × String)}
    (split : ∀ m ∈ members, first m = some m.declared ∧ second m = none ∨
      first m = none ∧ second m = some m.declared) :
    (members.filterMap first ++ members.filterMap second).Perm (members.map Member.declared) := by
  induction members with
  | nil => exact .refl _
  | cons m members ih =>
      have onward := ih fun m isIn => split m (by simp [isIn])
      rcases split m (by simp) with ⟨here, other⟩ | ⟨other, here⟩
      · rw [List.filterMap_cons_some here, List.filterMap_cons_none other, List.map_cons,
          List.cons_append]
        exact onward.cons _
      · rw [List.filterMap_cons_none other, List.filterMap_cons_some here, List.map_cons]
        exact List.perm_middle.trans (onward.cons _)

/-- On a line on which no member starts, nothing is declared. -/
theorem find?_declared_eq_none {members : List Member} {n : Int}
    (other : ∀ m ∈ members, m.declared.1 ≠ n) :
    (members.map Member.declared).find? (fun name => name.1 == n) = none := by
  rw [List.find?_eq_none]
  intro name isIn
  obtain ⟨m, known, rfl⟩ := List.mem_map.1 isIn
  simpa using other m known

/-- **A block declares its members in the order of their lines.** -/
theorem declaredNames_ofMembers {kind : BlockKind} {members : List Member}
    (fits : ∀ m ∈ members, m.Fits kind)
    (increasing : (members.map Member.declared).Pairwise (·.1 < ·.1)) (name : String)
    (opened closed : Mark) :
    (Block.ofMembers kind name opened closed members).declaredNames =
      members.map Member.declared := by
  unfold Block.declaredNames
  simp only [Block.ofMembers, List.map_filterMap]
  by_cases assigns : kind.holdsAssignments = true
  · rw [if_pos assigns]
    apply List.filterMap_eq_map_iff_forall_eq_some.2
    intro m isIn
    have fit := fits m isIn
    cases m with
    | assignment a => rfl
    | field f => cases kind <;> cases assigns <;> cases fit
    | value v =>
        obtain rfl : kind = .enum := fit
        cases assigns
    | blockAttribute a =>
        have none : kind.holdsAssignments = false := fit
        rw [assigns] at none
        cases none
  · rw [if_neg assigns]
    refine sortDeclared_eq ?_ increasing
    split
    · rename_i isEnum
      apply filterMap_split_perm
      intro m isIn
      have fit := fits m isIn
      cases m with
      | assignment a => exact absurd fit assigns
      | field f =>
          subst isEnum
          cases fit
      | value v => exact .inl ⟨rfl, rfl⟩
      | blockAttribute a => exact .inr ⟨rfl, rfl⟩
    · rename_i noEnum
      apply filterMap_split_perm
      intro m isIn
      have fit := fits m isIn
      cases m with
      | assignment a => exact absurd fit assigns
      | field f => exact .inl ⟨rfl, rfl⟩
      | value v => exact absurd fit noEnum
      | blockAttribute a => exact .inr ⟨rfl, rfl⟩

/-- If the names of a block come on increasing lines, its assignments do. -/
theorem Block.assignments_increasing {b : Block} (assigns : b.kind.holdsAssignments = true)
    (increasing : b.declaredNames.Pairwise fun first second => first.1 < second.1) :
    b.assignments.Pairwise fun first second => first.line < second.line := by
  rw [Block.declaredNames, if_pos assigns, List.pairwise_map] at increasing
  exact increasing

end SchemaAssist
