/-
# SchemaAssist.Proofs.Grammar.FieldPlaces — where the fields of a schema stand

`FieldPlace` cuts the tokens of a schema around one field: in front of it stand the blocks
above, the header of its own block and the members before it, behind it its line ends, the
members after it, the closing brace and the blocks below.  Every field of a schema has such
a place (`IsSchema.exists_fieldPlace`), and a place derives its schema again, whichever
field stands there (`FieldPlace.exchange`, `FieldPlace.derives`).

The cuts are made once for each sequence of the grammar: members in a body
(`IsBody.exists_place`), blocks in a schema (`IsSchema.exists_block`).
-/
import SchemaAssist.Proofs.Grammar.Exchange

namespace SchemaAssist.Grammar

set_option autoImplicit false

/-! ## Attributes one after another -/

theorem IsAttributes.append {first second : List Token} {list₁ list₂ : List Attribute}
    (h₁ : IsAttributes first list₁) (h₂ : IsAttributes second list₂) :
    IsAttributes (first ++ second) (list₁ ++ list₂) := by
  induction h₁ with
  | none => exact h₂
  | @more sign tokens rest attr others isSign isAttribute _ ih =>
      have whole := IsAttributes.more isSign isAttribute ih
      simpa only [List.cons_append, List.append_assoc] using whole

/-- Further attributes can be written behind a field. -/
theorem IsMember.field_append {kind : BlockKind} {own more : List Token} {field : Field}
    {attributes : List Attribute} (member : IsMember kind own (.field field))
    (further : IsAttributes more attributes) :
    IsMember kind (own ++ more)
      (.field { field with attributes := field.attributes ++ attributes }) := by
  generalize shape : Member.field field = m at member
  cases member with
  | field holds named typed list optional own =>
      cases shape
      have whole := IsMember.field holds named typed list optional (own.append further)
      simpa only [List.cons_append, List.append_assoc] using whole
  | _ => cases shape

/-! ## Members in a body -/

/-- Every member above has line ends behind it. -/
def EndsInLineEnd (tokens : List Token) : Prop :=
  ∀ t ∈ tokens.getLast?, t.lexeme = .newline

/-- Where a member stands in a body: behind the members before it and their line ends, in
front of its own line ends and the members after it. -/
structure MemberPlace (kind : BlockKind) (before : List Member) (m : Member)
    (after : List Member) (upper own ends lower : List Token) : Prop where
  above : IsBody kind upper before
  ended : EndsInLineEnd upper
  member : IsMember kind own m
  allEnds : IsLineEnds ends
  closed : ends = [] → lower = []
  below : IsBody kind lower after

section

variable {kind : BlockKind}

/-- A body in which every member has a line end can be continued. -/
theorem IsBody.append {first second : List Token} {before after : List Member}
    (h₁ : IsBody kind first before) (ended : EndsInLineEnd first) (h₂ : IsBody kind second after) :
    IsBody kind (first ++ second) (before ++ after) := by
  induction h₁ with
  | empty => exact h₂
  | @last tokens m member =>
      -- the last token of a member is no line end
      obtain ⟨token, rest, rfl, -⟩ := member.cons
      have last := List.getLast?_eq_some_getLast (List.cons_ne_nil token rest)
      exact absurd (ended _ last) (member.inside.inner _ (List.getLast_mem _)).1
  | @more tokens ends rest m others member allEnds nonempty onward ih =>
      have ended' : EndsInLineEnd rest := by
        intro t isLast
        refine ended t ?_
        rw [List.getLast?_append, isLast]
        rfl
      have whole := IsBody.more member allEnds nonempty (ih ended')
      simpa only [List.append_assoc, List.cons_append] using whole

theorem MemberPlace.isBody {before after : List Member} {m : Member}
    {upper own ends lower : List Token}
    (place : MemberPlace kind before m after upper own ends lower) :
    IsBody kind (upper ++ (own ++ ends ++ lower)) (before ++ m :: after) := by
  refine place.above.append place.ended ?_
  by_cases none : ends = []
  · have isBody := place.below
    rw [place.closed none] at isBody ⊢
    rw [none, List.append_nil, List.append_nil, isBody.members_of_nil]
    exact .last place.member
  · exact .more place.member place.allEnds none place.below

/-- Every member of a body has its place. -/
theorem IsBody.exists_place {body : List Token} {members before after : List Member} {m : Member}
    (isBody : IsBody kind body members) (shape : members = before ++ m :: after) :
    ∃ upper own ends lower, body = upper ++ (own ++ ends ++ lower) ∧
      MemberPlace kind before m after upper own ends lower := by
  induction isBody generalizing before with
  | empty => simp at shape
  | @last tokens other member =>
      obtain ⟨rfl, rfl, rfl⟩ : before = [] ∧ other = m ∧ after = [] := by
        cases before with
        | nil => simpa [eq_comm] using shape
        | cons first before => simp at shape
      exact ⟨[], tokens, [], [], by simp, .empty, nofun, member, List.forall_mem_nil _,
        fun _ => rfl, .empty⟩
  | @more tokens ends rest first others member allEnds nonempty onward ih =>
      cases before with
      | nil =>
          obtain ⟨rfl, rfl⟩ := List.cons.inj shape
          exact ⟨[], tokens, ends, rest, rfl, .empty, nofun, member, allEnds,
            fun none => absurd none nonempty, onward⟩
      | cons other before =>
          obtain ⟨rfl, behind⟩ := List.cons.inj shape
          obtain ⟨upper, own, ends', lower, rfl, place⟩ := ih behind
          refine ⟨tokens ++ ends ++ upper, own, ends', lower, by simp, ?_⟩
          refine { place with
            above := .more member allEnds nonempty place.above
            ended := fun t isLast => ?_ }
          rw [List.getLast?_append] at isLast
          cases last : upper.getLast? with
          | some token =>
              rw [last] at isLast
              exact place.ended t (last.trans isLast)
          | none =>
              rw [last, Option.none_or, List.getLast?_append_of_ne_nil _ nonempty] at isLast
              exact allEnds t (List.mem_of_getLast? isLast)

end

/-! ## Blocks in a schema -/

/-- Every block of a schema stands between schemas of the blocks above and below it. -/
theorem IsSchema.exists_block {tokens : List Token} {above below : List Block} {b : Block}
    (derived : IsSchema tokens ⟨above ++ b :: below⟩) :
    ∃ first own last, tokens = first ++ (own ++ last) ∧ IsSchema first ⟨above⟩ ∧ IsBlock own b ∧
      IsSchema last ⟨below⟩ := by
  have noEnds : IsLineEnds [] := List.forall_mem_nil _
  generalize shape : Schema.mk (above ++ b :: below) = schema at derived
  cases derived with
  | @intro ends rest blocks allEnds isBlocks =>
      induction isBlocks generalizing above ends with
      | none => simp at shape
      | @more tokens ends' rest head others isBlock allEnds' onward ih =>
          have blocks := (Schema.mk.inj shape).symm
          cases above with
          | nil =>
              obtain ⟨rfl, rfl⟩ := List.cons.inj blocks
              have alone : IsSchema (ends ++ []) ⟨[]⟩ := .intro allEnds .none
              rw [List.append_nil] at alone
              exact ⟨ends, tokens, ends' ++ rest, by simp, alone, isBlock, .intro allEnds' onward⟩
          | cons other above =>
              obtain ⟨rfl, behind⟩ := List.cons.inj blocks
              obtain ⟨first, own, last, split, front, found, back⟩ :=
                ih allEnds' (congrArg Schema.mk behind.symm)
              have upper : IsSchema (tokens ++ first) ⟨head :: above⟩ :=
                (IsSchema.block_append isBlock).2 ⟨above, rfl, front⟩
              refine ⟨ends ++ (tokens ++ first), own, last, ?_,
                (IsSchema.lineEnds_append allEnds).2 upper, found, back⟩
              rw [List.append_assoc tokens, split]
              simp only [List.append_assoc]

/-- A block between two schemas makes one schema of them. -/
theorem IsSchema.append_block {first own last : List Token} {above below : List Block} {b : Block}
    (front : IsSchema first ⟨above⟩) (isBlock : IsBlock own b) (back : IsSchema last ⟨below⟩) :
    IsSchema (first ++ (own ++ last)) ⟨above ++ b :: below⟩ :=
  front.append.2 ⟨b :: below, rfl, (IsSchema.block_append isBlock).2 ⟨below, rfl, back⟩⟩

/-! ## Fields in a schema -/

/-- Where a field stands among the tokens of a schema. -/
inductive FieldPlace (above below : List Block) (field : Field) :
    Block → List Field → List Field → List Token → List Token → List Token → Prop
  | intro {first lineEnds upper own ends lower last : List Token}
      {keyword token opening closing : Token} {kind : BlockKind} {name : String}
      {before after : List Member} :
      IsSchema first ⟨above⟩ → keyword.lexeme = .keyword kind → token.lexeme.name? = some name →
      opening.lexeme = .punct .braceOpen → IsLineEnds lineEnds →
      MemberPlace kind before (.field field) after upper own ends lower →
      closing.lexeme = .punct .braceClose → IsSchema last ⟨below⟩ →
      FieldPlace above below field
        (.ofMembers kind name keyword.mark closing.mark (before ++ .field field :: after))
        (before.filterMap Member.field?) (after.filterMap Member.field?)
        (first ++ (keyword :: token :: opening :: lineEnds ++ upper)) own
        (ends ++ lower ++ closing :: last)

/-- **Every field of a schema has its place** among the tokens. -/
theorem IsSchema.exists_fieldPlace {tokens : List Token} {above below : List Block} {b : Block}
    {before after : List Field} {field : Field}
    (derived : IsSchema tokens ⟨above ++ b :: below⟩)
    (fields : b.fields = before ++ field :: after) :
    ∃ front own back, tokens = front ++ (own ++ back) ∧
      FieldPlace above below field b before after front own back := by
  obtain ⟨first, block, last, rfl, front, isBlock, back⟩ := derived.exists_block
  cases isBlock with
  | @intro keyword token opening closing lineEnds body kind name members isKeyword named opens
      allEnds isBody closes =>
      obtain ⟨before, after, rfl, rfl, rfl⟩ := exists_members_of_fields fields
      obtain ⟨upper, own, ends, lower, rfl, place⟩ := isBody.exists_place rfl
      refine ⟨_, _, _, ?_, .intro front isKeyword named opens allEnds place closes back⟩
      simp only [List.append_assoc, List.cons_append, List.nil_append]

namespace FieldPlace

variable {above below : List Block} {b : Block} {before after : List Field} {field : Field}
  {front own back : List Token}

theorem fields (place : FieldPlace above below field b before after front own back) :
    b.fields = before ++ field :: after := by
  cases place
  simp [Block.ofMembers, Member.field?, List.filterMap_cons]

theorem isMember (place : FieldPlace above below field b before after front own back) :
    IsMember b.kind own (.field field) := by
  cases place with
  | intro _ _ _ _ _ place _ _ => exact place.member

/-- At least its closing brace stands behind the fields of a block. -/
theorem back_ne_nil (place : FieldPlace above below field b before after front own back) :
    back ≠ [] := by
  cases place
  simp

/-- The tokens around a field derive its schema. -/
theorem derives (place : FieldPlace above below field b before after front own back) :
    IsSchema (front ++ (own ++ back)) ⟨above ++ b :: below⟩ := by
  cases place with
  | intro schema isKeyword named opens allEnds place closes rest =>
      have block := IsBlock.intro isKeyword named opens allEnds place.isBody closes
      have whole := IsSchema.append_block schema block rest
      simpa only [List.append_assoc, List.cons_append, List.nil_append] using whole

/-- Up to the end of a field, every parenthesis and bracket is closed. -/
theorem balanced (place : FieldPlace above below field b before after front own back)
    (depth : Nat) : depthBehind depth (front ++ own) = depth := by
  cases place with
  | @intro first lineEnds upper own ends lower last keyword token opening closing kind name
      before after schema isKeyword named opens allEnds place closes rest =>
      show depthBehind depth
        (first ++ ([keyword, token, opening] ++ lineEnds ++ upper) ++ own) = depth
      rw [depthBehind_append, depthBehind_append, depthBehind_append, depthBehind_append,
        schema.balanced, depthBehind_header isKeyword named opens, allEnds.balanced,
        place.above.balanced, place.member.inside.balanced]

/-- **Another field can stand in the place of a field**, with another line end behind it. -/
theorem exchange {lineEnd lineEnd' : Token} {rest own' : List Token} {field' : Field}
    (place : FieldPlace above below field b before after front own (lineEnd :: rest))
    (isEnd : lineEnd.lexeme = .newline) (isEnd' : lineEnd'.lexeme = .newline)
    (member : IsMember b.kind own' (.field field')) :
    FieldPlace above below field' (b.withFields (before ++ field' :: after)) before after front
      own' (lineEnd' :: rest) := by
  generalize shape : lineEnd :: rest = back at place
  cases place with
  | @intro first lineEnds upper own ends lower last keyword token opening closing kind name
      before after schema isKeyword named opens allEnds place closes rest' =>
      cases ends with
      | nil =>
          -- without line ends the closing brace comes next
          rw [place.closed rfl, List.nil_append, List.nil_append] at shape
          obtain ⟨rfl, -⟩ := List.cons.inj shape
          rw [isEnd] at closes
          cases closes
      | cons first' ends =>
          obtain ⟨rfl, rfl⟩ := List.cons.inj shape
          obtain ⟨-, allEnds'⟩ := List.forall_mem_cons.1 place.allEnds
          have further : MemberPlace kind before (.field field') after upper own'
              (lineEnd' :: ends) lower :=
            { place with
              member := member
              allEnds := List.forall_mem_cons.2 ⟨isEnd', allEnds'⟩
              closed := nofun }
          have whole := FieldPlace.intro schema isKeyword named opens allEnds further closes rest'
          rwa [Block.ofMembers_exchange] at whole

end FieldPlace

end SchemaAssist.Grammar
