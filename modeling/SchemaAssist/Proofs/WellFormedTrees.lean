/-
# SchemaAssist.Proofs.WellFormedTrees — what holds of the tree of every text

The lines in a tree come from tokens, and tokens come in the order of their lines
(`Segmented.ordered`).  Blocks are read one behind the other, so a block starts where the last one
ends or below (`IsSchema.blocks_apart`), and a line inside a block is inside no other
(`Schema.filter_containsLine`).

Inside a block a line end stands between two members, so no two share a line, and what belongs to
a member stands above the next one (`IsBody.attributes_above`).  The lists that a block keeps, one
for each sort of member, are parts of the list that was read, so their lines increase with it, and
the order of the lines is the order of reading (`Block.Declares`).
-/
import SchemaAssist.Proofs.Grammar.Anchors
import SchemaAssist.Proofs.Grammar.Placement
import SchemaAssist.Proofs.Layout.Bodies
import SchemaAssist.Proofs.Parsing

namespace SchemaAssist

set_option autoImplicit false

open Grammar

/-! ## The attributes of members -/

def Member.attributes : Member → List Attribute
  | field f => f.attributes
  | value v => v.attributes
  | _ => []

theorem TakenFrom.exists_isOf {anchors : List Anchor} {tokens : List Token}
    (taken : TakenFrom anchors tokens) : ∀ a ∈ anchors, ∃ t ∈ tokens, a.IsOf t := by
  obtain ⟨own, part, matched⟩ := taken
  have known : ∀ t ∈ own, t ∈ tokens := fun t isIn => part.subset isIn
  clear part
  induction matched with
  | nil => exact List.forall_mem_nil _
  | cons here _ ih =>
      obtain ⟨isIn, others⟩ := List.forall_mem_cons.1 known
      exact List.forall_mem_cons.2 ⟨⟨_, isIn, here⟩, ih others⟩

namespace Grammar

variable {kind : BlockKind} {tokens body : List Token} {m : Member} {members : List Member}

/-- The line of an attribute is that of one of the tokens of its member. -/
theorem IsMember.attribute_row (member : IsMember kind tokens m) :
    ∀ a ∈ m.attributes, ∃ t ∈ tokens, t.mark.row = a.line := by
  intro a isIn
  have anchored : a.anchor ∈ m.anchors := by
    cases m with
    | assignment _ | blockAttribute _ => cases isIn
    | field _ | value _ => exact List.mem_cons_of_mem _ (List.mem_map_of_mem isIn)
  obtain ⟨t, known, isOf⟩ := member.takenFrom.exists_isOf _ anchored
  exact ⟨t, known, isOf.row⟩

/-- No attribute stands above its member. -/
theorem IsMember.attribute_below (member : IsMember kind tokens m)
    (ordered : tokens.Pairwise Precedes) : ∀ a ∈ m.attributes, m.declared.1 ≤ a.line := by
  intro a isIn
  obtain ⟨t, known, row⟩ := member.attribute_row a isIn
  obtain ⟨first, rest, rfl, place⟩ := member.head
  rw [← row, place, Mark.row, Mark.row]
  rcases List.mem_cons.1 known with rfl | later
  · exact le_rfl
  · have below := (List.rel_of_pairwise_cons ordered later).1
    omega

theorem IsBody.attribute_row (isBody : IsBody kind body members) :
    ∀ m ∈ members, ∀ a ∈ m.attributes, ∃ t ∈ body, t.mark.row = a.line := by
  induction isBody with
  | empty => exact List.forall_mem_nil _
  | last member => simpa using member.attribute_row
  | more member _ _ _ ih =>
      refine List.forall_mem_cons.2 ⟨fun a isIn => ?_, fun other isIn a belongs => ?_⟩
      · obtain ⟨t, known, row⟩ := member.attribute_row a isIn
        exact ⟨t, by simp [known], row⟩
      · obtain ⟨t, known, row⟩ := ih other isIn a belongs
        exact ⟨t, by simp [known], row⟩

theorem IsBody.attribute_below (isBody : IsBody kind body members)
    (ordered : body.Pairwise Precedes) :
    ∀ m ∈ members, ∀ a ∈ m.attributes, m.declared.1 ≤ a.line := by
  induction isBody with
  | empty => exact List.forall_mem_nil _
  | last member => simpa using member.attribute_below ordered
  | more member _ _ _ ih =>
      obtain ⟨front, behind, -⟩ := List.pairwise_append.1 ordered
      exact List.forall_mem_cons.2
        ⟨member.attribute_below (List.pairwise_append.1 front).1, ih behind⟩

/-- Whatever belongs to a member stands above the next one. -/
theorem IsBody.attributes_above (isBody : IsBody kind body members)
    (ordered : body.Pairwise Precedes) :
    members.Pairwise fun m next => ∀ a ∈ m.attributes, a.line < next.declared.1 := by
  induction isBody with
  | empty => exact .nil
  | last _ => exact List.pairwise_singleton _ _
  | more member allEnds nonempty isBody ih =>
      obtain ⟨-, behind, -⟩ := List.pairwise_append.1 ordered
      refine List.pairwise_cons.2 ⟨fun next isIn a belongs => ?_, ih behind⟩
      obtain ⟨t, inMember, row⟩ := member.attribute_row a belongs
      obtain ⟨u, inRest, -, place⟩ := isBody.places next isIn
      have under := below_lineEnds allEnds nonempty ordered t inMember u inRest
      rw [← row, ← place, Mark.row, Mark.row]
      omega

end Grammar

/-! ## One block -/

def Block.memberLines (b : Block) : List Int :=
  b.assignments.map (·.line) ++ b.fields.map (·.line) ++ b.attributes.map (·.line) ++
    b.values.map (·.line)

/-- The members of a block are of its sorts and stand on lines of their own between its braces. -/
structure Block.WellFormed (b : Block) : Prop where
  upright : b.startLine ≤ b.endLine
  assignments_only : b.assignments ≠ [] → b.kind.holdsAssignments = true
  fields_only : b.fields ≠ [] → b.kind.holdsFields = true
  values_only : b.values ≠ [] → b.kind = .enum
  attributes_only : b.attributes ≠ [] → b.kind.holdsAssignments = false
  within : ∀ line ∈ b.memberLines, b.startLine ≤ line ∧ line ≤ b.endLine
  apart : b.memberLines.Nodup
  assignments_increase : b.assignments.Pairwise (·.line < ·.line)
  fields_increase : b.fields.Pairwise (·.line < ·.line)
  values_increase : b.values.Pairwise (·.line < ·.line)
  attributes_increase : b.attributes.Pairwise (·.line < ·.line)

/-- The parser reads these members of the block, in this order, somewhere among the tokens. -/
def Block.ReadFrom (tokens : List Token) (members : List Member) (b : Block) : Prop :=
  ∃ behind opened closed bound rest, behind <:+ tokens ∧
    Reader.members b.kind b.name opened bound behind = .done (members, closed) rest ∧
    b = .ofMembers b.kind b.name opened closed members

/-- The members of a block are declared in this order, which is that of their lines alone, and the
attributes of each stand between it and the next. -/
structure Block.Declares (members : List Member) (b : Block) : Prop where
  declared : b.declaredNames = members.map Member.declared
  listed : ∀ exclude, b.memberNames exclude =
    (members.filter fun m => exclude != some m.declared.1).map (·.declared.2)
  by_line : ∀ names, names.Perm b.declaredNames → names.Pairwise (·.1 ≤ ·.1) →
    names = b.declaredNames
  attributes_within : ∀ m ∈ members, ∀ a ∈ m.attributes, m.declared.1 ≤ a.line ∧ a.line ≤ b.endLine
  attributes_above : members.Pairwise fun m next => ∀ a ∈ m.attributes, a.line < next.declared.1

section

variable {kind : BlockKind} {members : List Member} {α : Type} {sort : Member → Option α}

/-- The lines of one sort of members increase with those of all. -/
theorem pairwise_filterMap {line : α → Int} (same : ∀ m a, sort m = some a → m.declared.1 = line a)
    (increasing : (members.map Member.declared).Pairwise (·.1 < ·.1)) :
    (members.filterMap sort).Pairwise (line · < line ·) := by
  refine (List.pairwise_map.1 increasing).filterMap sort ?_
  intro m next before a isFirst b isNext
  rw [← same m a isFirst, ← same next b isNext]
  exact before

theorem sort_only (fits : ∀ m ∈ members, m.Fits kind) {known : Prop}
    (tells : ∀ m a, sort m = some a → m.Fits kind → known) (some : members.filterMap sort ≠ []) :
    known := by
  obtain ⟨a, isIn⟩ := List.exists_mem_of_ne_nil _ some
  obtain ⟨m, isMember, isSort⟩ := List.mem_filterMap.1 isIn
  exact tells m a isSort (fits m isMember)

end

section

variable {b : Block} {members : List Member} {opened closed : Mark}

theorem memberLines_perm (same : b = .ofMembers b.kind b.name opened closed members) :
    b.memberLines.Perm (members.map (·.declared.1)) := by
  have sorted := (members_perm members).map (·.declared.1)
  simp only [List.map_append, List.map_map] at sorted
  rw [same]
  exact sorted

theorem Block.WellFormed.ofMembers (same : b = .ofMembers b.kind b.name opened closed members)
    (fits : ∀ m ∈ members, m.Fits b.kind)
    (increasing : (members.map Member.declared).Pairwise (·.1 < ·.1))
    (upright : b.startLine ≤ b.endLine)
    (within : ∀ m ∈ members, b.startLine ≤ m.declared.1 ∧ m.declared.1 ≤ b.endLine) :
    b.WellFormed where
  upright := upright
  assignments_only some := by
    rw [same] at some
    exact sort_only fits (fun m a isSort fit => by cases m <;> cases isSort; exact fit) some
  fields_only some := by
    rw [same] at some
    exact sort_only fits (fun m a isSort fit => by cases m <;> cases isSort; exact fit) some
  values_only some := by
    rw [same] at some
    exact sort_only fits (fun m a isSort fit => by cases m <;> cases isSort; exact fit) some
  attributes_only some := by
    rw [same] at some
    exact sort_only fits (fun m a isSort fit => by cases m <;> cases isSort; exact fit) some
  within line isIn := by
    obtain ⟨m, known, rfl⟩ := List.mem_map.1 ((memberLines_perm same).subset isIn)
    exact within m known
  apart := by
    refine (memberLines_perm same).nodup_iff.2 (List.nodup_iff_pairwise_ne.2 ?_)
    rw [List.pairwise_map] at increasing ⊢
    exact increasing.imp Int.ne_of_lt
  assignments_increase := by
    rw [same]
    exact pairwise_filterMap (fun m a isSort => by cases m <;> cases isSort; rfl) increasing
  fields_increase := by
    rw [same]
    exact pairwise_filterMap (fun m a isSort => by cases m <;> cases isSort; rfl) increasing
  values_increase := by
    rw [same]
    exact pairwise_filterMap (fun m a isSort => by cases m <;> cases isSort; rfl) increasing
  attributes_increase := by
    rw [same]
    exact pairwise_filterMap (fun m a isSort => by cases m <;> cases isSort; rfl) increasing

theorem Block.Declares.ofMembers (same : b = .ofMembers b.kind b.name opened closed members)
    (fits : ∀ m ∈ members, m.Fits b.kind)
    (increasing : (members.map Member.declared).Pairwise (·.1 < ·.1))
    (within : ∀ m ∈ members, ∀ a ∈ m.attributes, m.declared.1 ≤ a.line ∧ a.line ≤ b.endLine)
    (above : members.Pairwise fun m next => ∀ a ∈ m.attributes, a.line < next.declared.1) :
    b.Declares members := by
  have declared : b.declaredNames = members.map Member.declared := by
    rw [same]
    exact declaredNames_ofMembers fits increasing _ _ _
  refine ⟨declared, ?_, ?_, within, above⟩
  · intro exclude
    rw [Block.memberNames, declared, List.filter_map, List.map_map]
    rfl
  · intro names arranged ordered
    rw [declared] at arranged ⊢
    exact eq_of_sorted arranged ordered increasing

end

/-- Where a block stands, the parser reads members that it is well formed with. -/
theorem Grammar.Placed.exists_members {tokens before inner after : List Token} {b : Block}
    {keyword token opening closing : Token}
    (placed : Placed tokens b before keyword token opening inner closing after)
    (ordered : tokens.Pairwise Precedes) :
    ∃ members, b.ReadFrom tokens members ∧ b.WellFormed ∧ b.Declares members := by
  obtain ⟨ends, body, members, rfl, allEnds, isBody, same⟩ := placed.body
  have shape : tokens = before ++ keyword :: token :: opening :: ends ++ (body ++ closing :: after) :=
    placed.shape.trans (by simp)
  have inBody : body.Pairwise Precedes := by
    rw [shape] at ordered
    exact (List.pairwise_append.1 (List.pairwise_append.1 ordered).2.1).1
  have upright : b.startLine ≤ b.endLine := by
    have below := (placed.within ordered List.mem_cons_self).2
    rw [placed.starts, placed.ends, Mark.row, Mark.row]
    omega
  have between : ∀ t ∈ body, b.startLine ≤ t.mark.row ∧ t.mark.row ≤ b.endLine := by
    intro t isIn
    have own : t ∈ keyword :: token :: opening :: (ends ++ body) ++ [closing] := by simp [isIn]
    have within := placed.within ordered own
    rw [placed.starts, placed.ends, Mark.row, Mark.row, Mark.row]
    omega
  refine ⟨members, ?_, .ofMembers same isBody.fits (isBody.increasing inBody) upright ?_,
    .ofMembers same isBody.fits (isBody.increasing inBody) ?_ (isBody.attributes_above inBody)⟩
  · exact ⟨body ++ closing :: after, keyword.mark, closing.mark, body.length + 1, after,
      ⟨_, shape.symm⟩, members_complete b.name keyword.mark isBody placed.closes after _ (by omega),
      same⟩
  · intro m isIn
    obtain ⟨t, known, -, place⟩ := isBody.places m isIn
    rw [← place]
    exact between t known
  · intro m isIn a belongs
    obtain ⟨t, known, row⟩ := isBody.attribute_row m isIn a belongs
    refine ⟨isBody.attribute_below inBody m isIn a belongs, ?_⟩
    rw [← row]
    exact (between t known).2

/-! ## All blocks -/

theorem filter_eq_toList_find? {α : Type} {p : α → Bool} {items : List α}
    (apart : items.Pairwise fun first second => p first = true → p second = false) :
    items.filter p = (items.find? p).toList := by
  induction apart with
  | nil => rfl
  | @cons item items others _ ih =>
      by_cases holds : p item = true
      · rw [List.filter_cons_of_pos holds, List.find?_cons_of_pos holds, Option.toList_some,
          List.filter_eq_nil_iff.2 fun other isIn => by simp [others other isIn holds]]
      · rw [List.filter_cons_of_neg holds, List.find?_cons_of_neg holds, ih]

/-- A block starts where an earlier one ends, or below. -/
theorem Grammar.IsSchema.blocks_apart {tokens : List Token} {schema : Schema}
    (derived : IsSchema tokens schema) (ordered : tokens.Pairwise Precedes) :
    schema.blocks.Pairwise fun first second => first.endLine ≤ second.startLine := by
  apply derived.pairwise.imp
  rintro first second ⟨before, keyword, token, opening, inner, closing, after, placed, t, isIn,
    ends⟩
  rw [placed.shape, List.append_assoc] at ordered
  have above := ((List.pairwise_append.1 ordered).2.2 t isIn keyword (by simp)).1
  rw [← ends, placed.starts, Mark.row, Mark.row]
  omega

/-- So a line is inside one block at most, and that one is found. -/
theorem Schema.filter_containsLine {schema : Schema}
    (apart : schema.blocks.Pairwise fun first second => first.endLine ≤ second.startLine)
    (line : Int) :
    schema.blocks.filter (·.containsLine line) = (schema.blockAtLine? line).toList := by
  apply filter_eq_toList_find?
  apply apart.imp
  intro first second below inside
  simp only [Block.containsLine, Bool.and_eq_true, decide_eq_true_eq] at inside
  rw [Block.containsLine, Bool.and_eq_false_iff, decide_eq_false_iff_not]
  left
  omega

/-- **Every tree that a text has is well formed.**  Its blocks stand one below the other, at most
sharing a line, so that at most one has a line in its body; and in each the members that were read
are of its sorts, on lines of their own, and in the order of these lines. -/
theorem parse?_wellFormed {text : String} {schema : Schema}
    (parsed : Schema.parse? text = some schema) :
    schema.blocks.Pairwise (fun first second => first.endLine ≤ second.startLine) ∧
      (∀ line, schema.blocks.filter (·.containsLine line) =
        (schema.blockAtLine? line).toList) ∧
      ∃ stream, TokenStream.ofText text = .ok stream ∧ ∀ b ∈ schema.blocks,
        ∃ members, b.ReadFrom stream.tokens members ∧ b.WellFormed ∧ b.Declares members := by
  obtain ⟨segments, segmented, derived⟩ := parse_eq_ok.1 (parse?_eq_some.1 parsed)
  have apart := derived.blocks_apart segmented.ordered
  refine ⟨apart, Schema.filter_containsLine apart, _, ofText_eq_ok.2 ⟨segments, segmented, rfl⟩,
    fun b isIn => ?_⟩
  obtain ⟨before, keyword, token, opening, inner, closing, after, placed⟩ := derived.isPlaced isIn
  exact placed.exists_members segmented.ordered

/-- An enum and a model that share a line, with arguments that go on over lines. -/
def stackedSource : String :=
  "enum E \x7b A @x(1,\n 2)\n B \x7d model M \x7b id Int @y(\n) @z\n @@u([a,\n b]) \x7d"

def stackedEnum : Block :=
  .ofMembers .enum "E" ⟨1, 1⟩ ⟨3, 4⟩
    [.value ⟨"A", [⟨"x", false, [⟨none, ⟨.number, "1", []⟩⟩, ⟨none, ⟨.number, "2", []⟩⟩], 0⟩], 0⟩,
      .value ⟨"B", [], 2⟩]

def stackedModel : Block :=
  .ofMembers .model "M" ⟨3, 6⟩ ⟨6, 5⟩
    [.field ⟨"id", ⟨"Int", false, false⟩, [⟨"y", false, [], 2⟩, ⟨"z", false, [], 3⟩], 2⟩,
      .blockAttribute ⟨"u", true, [⟨none, ⟨.array, "",
        [⟨.identifier, "a", []⟩, ⟨.identifier, "b", []⟩]⟩⟩], 4⟩]

theorem parse?_wellFormed_stackedSource :
    Schema.parse? stackedSource = some ⟨[stackedEnum, stackedModel]⟩ ∧
      stackedEnum.endLine ≤ stackedModel.startLine ∧ stackedEnum.WellFormed ∧
      ∃ members, stackedModel.Declares members := by
  have parsed : Schema.parse? stackedSource = some ⟨[stackedEnum, stackedModel]⟩ := by
    decide +kernel
  obtain ⟨apart, -, stream, -, known⟩ := parse?_wellFormed parsed
  obtain ⟨-, -, wellFormed, -⟩ := known stackedEnum (by simp)
  obtain ⟨members, -, -, declares⟩ := known stackedModel (by simp)
  exact ⟨parsed, (List.pairwise_cons.1 apart).1 stackedModel (by simp), wellFormed, members,
    declares⟩

end SchemaAssist
