/-
# SchemaAssist.Proofs.Layout.Shown — what scanning makes of lines that show their blocks

`Shown lines blocks line` extends the outline of a text by what its lines say about
members, types and providers.  The line `line` is being edited: what it says of members
does not count, and it may lie in a datasource only where no provider is asked for.

Scanning then lists what the tree lists: the members of a block
(`Shown.memberNames?_eq`), the models and enums (`Shown.typeNames_eq`) and the
providers (`Shown.usesProvider_eq`).  What members and providers need of the lines is said
before (`Outline.memberNames?_eq`, `Outline.usesProvider_eq`).
-/
import SchemaAssist.Proofs.Layout.Outline
import SchemaAssist.Proofs.Layout.Providers
import SchemaAssist.Proofs.Layout.Walks
import Mathlib.Data.List.Nodup

namespace SchemaAssist

set_option autoImplicit false

open Text Scan

/-! ## Members -/

/-- If the body lines of a block declare what its tree declares, the two list the same names,
whichever line is left out.  On that line, anything may stand. -/
theorem Outline.memberNames?_eq {lines : List (List Char)} {blocks : List Block}
    (outline : Outline lines blocks) {b : Block} (isIn : b ∈ blocks)
    (hasBody : b.startLine < b.endLine) {exclude : Option Int}
    (increasing : b.declaredNames.Pairwise fun first second => first.1 < second.1)
    (inside : ∀ name ∈ b.declaredNames, b.startLine < name.1 ∧ name.1 < b.endLine)
    (member : ∀ n : Nat, b.startLine < n → n < b.endLine → exclude ≠ some (n : Int) →
      memberName? (lines.getD n []) =
        (b.declaredNames.find? fun name => name.1 == (n : Int)).map (·.2)) :
    memberNames? lines b.startLine b.endLine exclude = some (b.memberNames exclude) := by
  have grounded := outline.grounded b isIn
  have ends : b.endLine.toNat < lines.length := lt_length_of_isBoundary
    (outline.boundary_iff.2 ⟨b, isIn, .inr ⟨hasBody, by omega⟩⟩)
  have cut : (min b.endLine lines.length - (b.startLine + 1)).toNat =
      b.endLine.toNat - (b.startLine.toNat + 1) := by omega
  have first : b.startLine + 1 = ((b.startLine.toNat + 1 : Nat) : Int) := by omega
  have walked : (List.range' (b.startLine.toNat + 1) (b.endLine.toNat - (b.startLine.toNat + 1))
      ).filterMap (fun n : Nat =>
        if exclude = some (n : Int) then none else memberName? (lines.getD n [])) =
      b.declaredNames.filterMap fun name =>
        if exclude = some name.1 then none else some name.2 := by
    refine filterMap_range'_eq increasing (fun name known => ?_) fun n above below => ?_
    · have within := inside name known
      omega
    · by_cases edited : exclude = some (n : Int)
      · rw [if_pos edited]
        cases found : b.declaredNames.find? (fun name => name.1 == (n : Int)) with
        | none => rfl
        | some name =>
            have same : name.1 = n := by simpa using List.find?_some found
            rw [Option.bind_some, same, if_pos edited]
      · rw [if_neg edited, member n (by omega) (by omega) edited]
        cases found : b.declaredNames.find? (fun name => name.1 == (n : Int)) with
        | none => rfl
        | some name =>
            have same : name.1 = n := by simpa using List.find?_some found
            rw [Option.map_some, Option.bind_some, same, if_neg edited]
  unfold memberNames?
  rw [cut, first, namesOn?_eq _ _ _ _ (by omega), walked, Block.memberNames,
    ← List.filterMap_eq_map, List.filterMap_filter]
  congr 1
  apply List.filterMap_congr
  intro name _
  by_cases edited : exclude = some name.1
  · simp [edited]
  · simp [edited]

/-! ## Providers -/

/-- Whether a datasource assigns at most one provider. -/
def Block.HasSingleProvider (b : Block) : Prop :=
  (b.assignments.filter fun a => a.key == "provider").length ≤ 1

theorem Block.HasSingleProvider.findSome?_eq {b : Block} (single : b.HasSingleProvider) :
    b.assignments.findSome? Assignment.provider? =
      (b.assignment? "provider").bind Assignment.provider? := by
  unfold HasSingleProvider at single
  rw [assignment?]
  generalize b.assignments = assignments at single
  induction assignments with
  | nil => rfl
  | cons a rest ih =>
      by_cases key : a.key = "provider"
      · rw [List.filter_cons_of_pos (by simpa using key), List.length_cons] at single
        have others : ∀ other ∈ rest, other.provider? = none := by
          intro other isIn
          have empty := List.length_eq_zero_iff.1 (Nat.le_zero.1 (Nat.le_of_succ_le_succ single))
          have unlike := List.filter_eq_nil_iff.1 empty other isIn
          exact if_neg fun same => unlike (by simpa using same.1)
        rw [List.find?_cons_of_pos (by simpa using key), List.findSome?_cons, Option.bind_some,
          List.findSome?_eq_none_iff.2 others]
        cases a.provider? <;> rfl
      · have none : a.provider? = none := if_neg fun same => key same.1
        rw [List.filter_cons_of_neg (by simpa using key)] at single
        rw [List.find?_cons_of_neg (by simpa using key), List.findSome?_cons, none, ih single]

/-- The lines show the datasources among the blocks: only their headers mention the word, and
on their lines the search for a provider meets their assignments one by one and no closing
brace but the last. -/
structure ShownSources (lines : List (List Char)) (blocks : List Block) : Prop where
  mentioned : ∀ n : Nat, occursIn "datasource".toList (lines.getD n []) = true ↔
    ∃ b ∈ blocks, b.kind = .datasource ∧ b.startLine = n
  increasing : ∀ b ∈ blocks, b.kind = .datasource →
    b.assignments.Pairwise fun first second => first.line < second.line
  within : ∀ b ∈ blocks, b.kind = .datasource → ∀ a ∈ b.assignments,
    b.startLine ≤ a.line ∧ a.line ≤ b.endLine
  single : ∀ b ∈ blocks, b.kind = .datasource → b.HasSingleProvider
  provider : ∀ b ∈ blocks, b.kind = .datasource → ∀ n : Nat, b.startLine ≤ n → n ≤ b.endLine →
    firstMatch providerPattern (lines.getD n []) =
        (b.assignments.find? fun a => a.line == (n : Int)).bind Assignment.provider? ∧
      ('\x7d' ∈ lines.getD n [] ↔ b.endLine = n)

section

variable {lines : List (List Char)} {blocks : List Block}

/-- The search from the header of a datasource finds its provider. -/
theorem ShownSources.providerFrom_eq (sources : ShownSources lines blocks)
    (outline : Outline lines blocks) {b : Block} (isIn : b ∈ blocks)
    (isSource : b.kind = .datasource) :
    providerFrom (lines.drop b.startLine.toNat) =
      (b.assignment? "provider").bind Assignment.provider? := by
  have grounded := outline.grounded b isIn
  have rows := sources.provider b isIn isSource
  have walked : (List.range' b.startLine.toNat (b.endLine.toNat + 1 - b.startLine.toNat)
      ).filterMap (fun n => firstMatch providerPattern (lines.getD n [])) =
      b.assignments.filterMap Assignment.provider? := by
    refine filterMap_range'_eq (sources.increasing b isIn isSource) (fun a known => ?_)
      fun n above below => ?_
    · have inside := sources.within b isIn isSource a known
      omega
    · exact (rows n (by omega) (by omega)).1
  rw [providerFrom_drop (by omega) ((rows b.endLine.toNat (by omega) (by omega)).2.2 (by omega))
    fun n above below isIn => ?_, ← List.head?_filterMap, walked, List.head?_filterMap]
  · exact (sources.single b isIn isSource).findSome?_eq
  · have last := (rows n (by omega) (by omega)).2.1 isIn
    omega

theorem Outline.starts_increasing (outline : Outline lines blocks) :
    blocks.Pairwise fun first second => first.startLine < second.startLine := by
  refine outline.ordered.imp_of_mem fun {first second} isFirst _ before => ?_
  have grounded := outline.grounded first isFirst
  omega

theorem Outline.start_lt_length (outline : Outline lines blocks) {b : Block} (isIn : b ∈ blocks) :
    0 ≤ b.startLine ∧ b.startLine < lines.length := by
  have grounded := outline.grounded b isIn
  have bound : b.startLine.toNat < lines.length := lt_length_of_isBoundary
    (outline.boundary_iff.2 ⟨b, isIn, .inl (by omega)⟩)
  omega

/-- If the lines show the datasources, they use the same providers as the tree. -/
theorem Outline.usesProvider_eq (outline : Outline lines blocks)
    (sources : ShownSources lines blocks) (wanted : List String) :
    usesProvider ⟨lines⟩ wanted = (Schema.mk blocks).usesProvider wanted := by
  have walked : providersIn lines = blocks.filterMap fun b =>
      if b.kind = .datasource then (b.assignment? "provider").bind Assignment.provider?
      else none := by
    rw [providersIn_eq]
    refine filterMap_range'_eq outline.starts_increasing (fun b isIn => ?_) fun n above below => ?_
    · have inside := outline.start_lt_length isIn
      omega
    · by_cases mentioned : occursIn "datasource".toList (lines.getD n []) = true
      · obtain ⟨b, isIn, isSource, starts⟩ := (sources.mentioned n).1 mentioned
        have here : n = b.startLine.toNat := by omega
        rw [if_pos mentioned, find?_eq_some_of_increasing outline.starts_increasing isIn starts,
          Option.bind_some, if_pos isSource, here, sources.providerFrom_eq outline isIn isSource]
      · rw [if_neg mentioned]
        cases found : blocks.find? (fun b => b.startLine == (n : Int)) with
        | none => rfl
        | some b =>
            have starts : b.startLine = n := by simpa using List.find?_some found
            have other : b.kind ≠ .datasource := fun isSource => mentioned
              ((sources.mentioned n).2 ⟨b, List.mem_of_find?_eq_some found, isSource, starts⟩)
            rw [Option.bind_some, if_neg other]
  rw [usesProvider, providers, walked, Schema.usesProvider, Schema.blocksOfKind,
    List.any_filterMap, List.any_filter]
  congr 1
  funext b
  by_cases isSource : b.kind = .datasource
  · cases found : b.assignment? "provider" with
    | none => simp [isSource]
    | some a =>
        have key : a.key = "provider" := by simpa using List.find?_some found
        by_cases isString : a.value.kind = .string
        · simp [isSource, Assignment.provider?, key, isString]
        · simp [isSource, Assignment.provider?, isString]
  · simp [isSource]

end

/-! ## Shown blocks -/

def Block.typeName? (b : Block) : Option String :=
  match b.kind with
  | .model | .enum => some b.name
  | _ => none

/-- The lines of a text show the blocks of its tree, and what these declare, while one
of the lines is being edited. -/
structure Shown (lines : List (List Char)) (blocks : List Block) (line : Int) : Prop where
  outline : Outline lines blocks
  names : (blocks.map (·.name)).Nodup
  increasing : ∀ b ∈ blocks, b.declaredNames.Pairwise fun first second => first.1 < second.1
  inside : ∀ b ∈ blocks, b.startLine < b.endLine → ∀ name ∈ b.declaredNames,
    b.startLine < name.1 ∧ name.1 < b.endLine
  member : ∀ b ∈ blocks, ∀ n : Nat, b.startLine < n → n < b.endLine → (n : Int) ≠ line →
    memberName? (lines.getD n []) =
      (b.declaredNames.find? fun name => name.1 == (n : Int)).map (·.2)
  datasource : ∀ n : Nat, occursIn "datasource".toList (lines.getD n []) = true ↔
    ∃ b ∈ blocks, b.kind = .datasource ∧ b.startLine = n
  within : ∀ b ∈ blocks, b.kind = .datasource → ∀ a ∈ b.assignments,
    b.startLine ≤ a.line ∧ a.line ≤ b.endLine
  single : ∀ b ∈ blocks, b.kind = .datasource → b.HasSingleProvider
  provider : (∀ b ∈ blocks, b.containsLine line = false) → ∀ b ∈ blocks, b.kind = .datasource →
    ∀ n : Nat, b.startLine ≤ n → n ≤ b.endLine →
      firstMatch providerPattern (lines.getD n []) =
          (b.assignments.find? fun a => a.line == (n : Int)).bind Assignment.provider? ∧
        ('\x7d' ∈ lines.getD n [] ↔ b.endLine = n)

namespace Shown

variable {lines : List (List Char)} {blocks : List Block} {line : Int}

/-- **Members.**  The body lines of a block declare what its tree declares. -/
theorem memberNames?_eq (shown : Shown lines blocks line) {b : Block} (isIn : b ∈ blocks)
    (hasBody : b.startLine < b.endLine) :
    memberNames? lines b.startLine b.endLine (some line) = some (b.memberNames (some line)) := by
  refine shown.outline.memberNames?_eq isIn hasBody (shown.increasing b isIn)
    (shown.inside b isIn hasBody) fun n below above other => ?_
  exact shown.member b isIn n below above fun same => other (by rw [same])

/-! ## Types -/

/-- Blocks start on one line if they have one name. -/
theorem startLine_eq_iff (shown : Shown lines blocks line) {b c : Block} (isIn : b ∈ blocks)
    (isOther : c ∈ blocks) : b.startLine = c.startLine ↔ b.name = c.name := by
  constructor
  · intro same
    have grounded := shown.outline.grounded b isIn
    have grounded' := shown.outline.grounded c isOther
    rcases shown.outline.eq_or_apart isIn isOther with rfl | before | behind
    · rfl
    · omega
    · omega
  · intro same
    rw [List.inj_on_of_nodup_map shown.names isIn isOther same]

/-- **Types.**  The headers elsewhere announce the models and enums of other names. -/
theorem typeNames_eq (shown : Shown lines blocks line) {b : Block} (isIn : b ∈ blocks) :
    typeNames ⟨lines⟩ (some b.startLine) =
      (((Schema.mk blocks).blocksOfKind [.model, .enum]).filter fun other =>
        some b.name != some other.name).map (·.name) := by
  have walked : (List.range' 0 lines.length).filterMap (fun n : Nat =>
        if some b.startLine = some (n : Int) then none else typeName? (lines.getD n [])) =
      blocks.filterMap fun other =>
        if some b.startLine = some other.startLine then none else other.typeName? := by
    refine filterMap_range'_eq shown.outline.starts_increasing (fun other known => ?_)
      fun n above below => ?_
    · have inside := shown.outline.start_lt_length known
      omega
    · cases isHeader : header? (lines.getD n []) with
      | some found =>
          obtain ⟨other, known, starts, rfl⟩ := (shown.outline.header n found).1 isHeader
          rw [find?_eq_some_of_increasing shown.outline.starts_increasing known starts,
            Option.bind_some, starts, typeName?, isHeader, Block.typeName?]
          cases other.kind <;> rfl
      | none =>
          have noBlock : blocks.find? (fun other => other.startLine == (n : Int)) = none := by
            rw [List.find?_eq_none]
            intro other known starts
            have isOther := (shown.outline.header n _).2
              ⟨other, known, beq_iff_eq.1 starts, rfl⟩
            rw [isHeader] at isOther
            cases isOther
          rw [noBlock, typeName?, isHeader]
          simp
  rw [SchemaAssist.typeNames_eq, walked, Schema.blocksOfKind, ← List.filterMap_eq_map,
    List.filterMap_filter, List.filterMap_filter]
  apply List.filterMap_congr
  intro other known
  have same := shown.startLine_eq_iff isIn known
  by_cases own : b.name = other.name
  · simp [own, same.2 own]
  · have apart := mt same.1 own
    cases kind : other.kind <;> simp [Block.typeName?, own, apart, kind]

/-- **Providers.**  Outside all blocks, the lines that mention a datasource lead to the
providers of the datasources. -/
theorem usesProvider_eq (shown : Shown lines blocks line)
    (outside : ∀ b ∈ blocks, b.containsLine line = false) (wanted : List String) :
    usesProvider ⟨lines⟩ wanted = (Schema.mk blocks).usesProvider wanted := by
  refine shown.outline.usesProvider_eq ⟨shown.datasource, fun b isIn isSource => ?_, shown.within,
    shown.single, shown.provider outside⟩ wanted
  exact Block.assignments_increasing (by rw [isSource]; rfl) (shown.increasing b isIn)

end Shown

/-! ## Editing a line -/

theorem trimStart_of_blank {line : List Char} (blank : ∀ c ∈ line, isBlank c = true) :
    trimStart line = [] := List.dropWhile_eq_nil_iff.2 blank

theorem header?_of_blank {line : List Char} (blank : ∀ c ∈ line, isBlank c = true) :
    header? line = none := by
  rw [header?, trimStart_of_blank blank]
  rfl

theorem startsWithBrace_of_blank {line : List Char} (blank : ∀ c ∈ line, isBlank c = true) :
    startsWithBrace line = false := by
  rw [startsWithBrace, trimStart_of_blank blank]
  rfl

namespace Shown

variable {lines edited : List (List Char)} {blocks : List Block} {line : Nat}

/-- A blank line is neither the first nor the last of a block. -/
theorem not_edge_of_blank (shown : Shown lines blocks line)
    (blank : ∀ c ∈ lines.getD line [], isBlank c = true) {b : Block} (isIn : b ∈ blocks) :
    b.startLine ≠ line ∧ b.endLine ≠ line := by
  have starts : b.startLine ≠ line := by
    intro here
    have isHeader := (shown.outline.header line _).2 ⟨b, isIn, here, rfl⟩
    rw [header?_of_blank blank] at isHeader
    cases isHeader
  refine ⟨starts, fun here => ?_⟩
  have grounded := shown.outline.grounded b isIn
  have closes := (shown.outline.closing line).2 ⟨b, isIn, by omega, here⟩
  rw [startsWithBrace_of_blank blank] at closes
  cases closes

/-- **A blank line may be edited** and the blocks still be shown, if it becomes neither
a header nor an end and mentions no datasource. -/
theorem edit (shown : Shown lines blocks line)
    (blank : ∀ c ∈ lines.getD line [], isBlank c = true)
    (same : ∀ n, n ≠ line → edited.getD n [] = lines.getD n [])
    (noHeader : header? (edited.getD line []) = none)
    (noBrace : startsWithBrace (edited.getD line []) = false)
    (noMention : occursIn "datasource".toList (edited.getD line []) = false) :
    Shown edited blocks line where
  outline := {
    ordered := shown.outline.ordered
    grounded := shown.outline.grounded
    header := by
      intro n found
      by_cases here : n = line
      · subst here
        rw [noHeader]
        apply iff_of_false nofun
        rintro ⟨b, isIn, starts, -⟩
        exact (shown.not_edge_of_blank blank isIn).1 starts
      · rw [same n here]
        exact shown.outline.header n found
    closesOnLine := by
      intro b isIn
      have grounded := shown.outline.grounded b isIn
      have other := (shown.not_edge_of_blank blank isIn).1
      rw [same _ (by omega)]
      exact shown.outline.closesOnLine b isIn
    closing := by
      intro n
      by_cases here : n = line
      · subst here
        rw [noBrace]
        apply iff_of_false nofun
        rintro ⟨b, isIn, -, ends⟩
        exact (shown.not_edge_of_blank blank isIn).2 ends
      · rw [same n here]
        exact shown.outline.closing n
  }
  names := shown.names
  increasing := shown.increasing
  inside := shown.inside
  member b isIn n below above other := by
    rw [same n (by omega)]
    exact shown.member b isIn n below above other
  datasource n := by
    by_cases here : n = line
    · subst here
      rw [noMention]
      apply iff_of_false nofun
      rintro ⟨b, isIn, -, starts⟩
      exact (shown.not_edge_of_blank blank isIn).1 starts
    · rw [same n here]
      exact shown.datasource n
  within := shown.within
  single := shown.single
  provider outside b isIn isSource n below above := by
    have edges := shown.not_edge_of_blank blank isIn
    have away : ¬ (b.startLine < line ∧ line < b.endLine) := by
      simpa [Block.containsLine] using outside b isIn
    rw [same n (by omega)]
    exact shown.provider outside b isIn isSource n below above

end Shown

end SchemaAssist
