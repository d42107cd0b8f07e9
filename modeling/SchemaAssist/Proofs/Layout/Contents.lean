/-
# SchemaAssist.Proofs.Layout.Contents — what a block has on its lines

On the lines of a block that is laid out stand its header, its members and its closing brace,
and nothing else (`Laid.contents`).  A line has tokens of one member at most, and the first
lines of the members increase, so the names that the block declares come in the order of the
text (`Contents.declaredNames`).
-/
import SchemaAssist.Proofs.Layout.Bodies
import SchemaAssist.Proofs.Layout.Walks

namespace SchemaAssist

set_option autoImplicit false

open Grammar

/-- What a block has on its lines, if its tokens are `opened`, `inner` and `closing`: the
tokens of its members make up the `body`. -/
structure Contents (tokens : List Token) (b : Block) (opened inner : List Token)
    (closing : Token) (body : List Token) (members : List Member) : Prop where
  block : ∃ first last, b = .ofMembers b.kind b.name first last members
  fits : ∀ m ∈ members, m.Fits b.kind
  increasing : (members.map Member.declared).Pairwise (·.1 < ·.1)
  places : ∀ m ∈ members, ∃ t ∈ inner, t.lexeme ≠ .newline ∧ t.mark.row = m.declared.1
  within : ∀ m ∈ members, b.startLine ≤ m.declared.1 ∧ m.declared.1 ≤ b.endLine
  onLine : ∀ n : Nat, b.startLine ≤ n → n ≤ b.endLine → lineTokens tokens n =
    lineTokens opened n ++ (lineTokens body n ++ lineTokens [closing] n)
  rows : ∀ n : Nat, MemberRow b.kind tokens members (lineTokens body n) n

namespace Contents

variable {tokens : List Token} {b : Block} {opened inner body : List Token} {closing : Token}
  {members : List Member}

theorem declaredNames (contents : Contents tokens b opened inner closing body members) :
    b.declaredNames = members.map Member.declared := by
  obtain ⟨first, last, same⟩ := contents.block
  rw [same]
  exact declaredNames_ofMembers contents.fits contents.increasing _ _ _

theorem mem_assignments (contents : Contents tokens b opened inner closing body members)
    {a : Assignment} : a ∈ b.assignments ↔ .assignment a ∈ members := by
  obtain ⟨first, last, same⟩ := contents.block
  have listed : b.assignments = members.filterMap Member.assignment? := by rw [same]; rfl
  rw [listed, List.mem_filterMap]
  constructor
  · rintro ⟨m, isIn, found⟩
    cases m with
    | assignment other =>
        obtain rfl := Option.some.inj found
        exact isIn
    | field _ | value _ | blockAttribute _ => cases found
  · exact fun isIn => ⟨_, isIn, rfl⟩

theorem assignments_increasing (contents : Contents tokens b opened inner closing body members)
    (assigns : b.kind.holdsAssignments = true) :
    b.assignments.Pairwise fun first second => first.line < second.line := by
  apply Block.assignments_increasing assigns
  rw [contents.declaredNames]
  exact contents.increasing

theorem find?_assignments (contents : Contents tokens b opened inner closing body members)
    (assigns : b.kind.holdsAssignments = true) {a : Assignment} (isIn : .assignment a ∈ members)
    {n : Int} (here : a.line = n) : b.assignments.find? (fun a => a.line == n) = some a :=
  find?_eq_some_of_increasing (contents.assignments_increasing assigns)
    (contents.mem_assignments.2 isIn) here

theorem find?_assignments_eq_none (contents : Contents tokens b opened inner closing body members)
    {n : Int} (other : ∀ m ∈ members, m.declared.1 ≠ n) :
    b.assignments.find? (fun a => a.line == n) = none := by
  rw [List.find?_eq_none]
  intro a isIn
  have away : a.line ≠ n := other _ (contents.mem_assignments.1 isIn)
  simpa using away

end Contents

/-- **The lines of a block** hold its header, its members and its closing brace. -/
theorem Laid.contents {text : String} {segments : List Segment} (laid : Laid text segments)
    {b : Block} {before inner after : List Token} {keyword token opening closing : Token}
    (placed : Placed (tokensOf segments) b before keyword token opening inner closing after) :
    ∃ body members, Contents (tokensOf segments) b [keyword, token, opening] inner closing body
      members := by
  obtain ⟨ends, body, members, rfl, allEnds, isBody, same⟩ := placed.body
  have part : body <:+: tokensOf segments := by
    refine ⟨before ++ keyword :: token :: opening :: ends, closing :: after, ?_⟩
    rw [placed.shape]
    simp
  have ordered := laid.segmented.ordered.sublist part.sublist
  have places : ∀ m ∈ members, ∃ t ∈ ends ++ body, t.lexeme ≠ .newline ∧
      t.mark.row = m.declared.1 := by
    intro m isIn
    obtain ⟨t, known, other, place⟩ := isBody.places m isIn
    exact ⟨t, List.mem_append_right _ known, other, place⟩
  refine ⟨body, members, ⟨_, _, same⟩, isBody.fits, isBody.increasing ordered, places,
    fun m isIn => ?_, fun n below above => ?_, fun n => ?_⟩
  · obtain ⟨t, known, -, place⟩ := places m isIn
    have own : t ∈ keyword :: token :: opening :: (ends ++ body) ++ [closing] :=
      List.mem_append_left _ (.tail _ (.tail _ (.tail _ known)))
    have within := laid.within placed own
    rw [← place, placed.starts, placed.ends, Mark.row, Mark.row, Mark.row]
    omega
  · have split : keyword :: token :: opening :: (ends ++ body) ++ [closing] =
        [keyword, token, opening] ++ (ends ++ (body ++ [closing])) := by simp
    rw [laid.lineTokens_block placed below above, split, lineTokens_append, lineTokens_append,
      lineTokens_append, allEnds.lineTokens, List.nil_append]
  · have shape : tokensOf segments =
        before ++ ([keyword, token, opening] ++ ends) ++ body ++ (closing :: after) := by
      rw [placed.shape]
      simp
    rw [shape]
    refine (isBody.memberRow ordered n).within (fun depth => ?_) _
    rw [depthBehind_append, depthBehind_append, placed.balanced,
      depthBehind_header placed.isKeyword placed.named placed.opens, allEnds.balanced]

/-- The names that a block declares stand on increasing lines, all of them its own. -/
theorem Laid.declaredNames {text : String} {segments : List Segment} {schema : Schema}
    (laid : Laid text segments) (derived : IsSchema (tokensOf segments) schema) {b : Block}
    (isIn : b ∈ schema.blocks) :
    (b.declaredNames.Pairwise fun first second => first.1 < second.1) ∧
      ∀ name ∈ b.declaredNames, b.startLine ≤ name.1 ∧ name.1 ≤ b.endLine := by
  obtain ⟨before, keyword, token, opening, inner, closing, after, placed⟩ := derived.isPlaced isIn
  obtain ⟨body, members, contents⟩ := laid.contents placed
  rw [contents.declaredNames]
  refine ⟨contents.increasing, fun name isIn => ?_⟩
  obtain ⟨m, known, rfl⟩ := List.mem_map.1 isIn
  exact contents.within m known

end SchemaAssist
