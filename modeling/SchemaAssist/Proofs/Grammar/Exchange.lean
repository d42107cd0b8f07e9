/-
# SchemaAssist.Proofs.Grammar.Exchange — exchanging a field of a schema

A field of a tree stands somewhere among the tokens, with line ends behind it.  Other
tokens that derive a field can stand in its place, and then the whole derives the tree
with the other field (`IsSchema.slot`).  Nothing around the field is looked at: a slot
of a body is one of its block, of a row of blocks and of the whole schema, each time
with more tokens in front and behind (`Slot.enclose`).
-/
import SchemaAssist.Proofs.Grammar.Acceptance
import SchemaAssist.Proofs.Grammar.Placement
import Mathlib.Data.List.Basic

namespace SchemaAssist

set_option autoImplicit false

/-! ## Exchanging fields in trees -/

def Block.withFields (b : Block) (fields : List Field) : Block := { b with fields }

/-- Members with one field exchanged are those of the block with that field exchanged. -/
theorem Block.ofMembers_exchange (kind : BlockKind) (name : String) (opened closed : Mark)
    (before after : List Member) (field other : Field) :
    Block.ofMembers kind name opened closed (before ++ .field other :: after) =
      (Block.ofMembers kind name opened closed (before ++ .field field :: after)).withFields
        (before.filterMap Member.field? ++ other :: after.filterMap Member.field?) := by
  simp [Block.ofMembers, Block.withFields, Member.field?, Member.assignment?, Member.value?,
    Member.blockAttribute?, List.filterMap_cons]

/-- A field of a block is one of its members. -/
theorem exists_members_of_fields {members : List Member} {before after : List Field}
    {field : Field} (fields : members.filterMap Member.field? = before ++ field :: after) :
    ∃ front back, members = front ++ .field field :: back ∧
      front.filterMap Member.field? = before ∧ back.filterMap Member.field? = after := by
  obtain ⟨front, rest, rfl, rfl, behind⟩ := List.filterMap_eq_append_iff.1 fields
  obtain ⟨skipped, m, back, rfl, none, found, rfl⟩ := List.filterMap_eq_cons_iff.1 behind
  obtain rfl : m = .field field := by cases m <;> cases found; rfl
  refine ⟨front ++ skipped, back, by rw [List.append_assoc], ?_, rfl⟩
  rw [List.filterMap_append, List.filterMap_eq_nil_iff.2 none, List.append_nil]

namespace Grammar

/-! ## Slots -/

/-- The tokens do not end in a name. -/
def EndsUnnamed (tokens : List Token) : Prop := ∀ t ∈ tokens.getLast?, t.lexeme.name? = none

theorem EndsUnnamed.append {first second : List Token} (h₁ : EndsUnnamed first)
    (h₂ : EndsUnnamed second) : EndsUnnamed (first ++ second) := by
  intro t isLast
  rw [List.getLast?_append] at isLast
  cases last : second.getLast? with
  | none => exact h₁ t (by simpa [last] using isLast)
  | some other => exact h₂ t (by simpa [last] using isLast)

theorem endsUnnamed_concat (tokens : List Token) {t : Token} (unnamed : t.lexeme.name? = none) :
    EndsUnnamed (tokens ++ [t]) := by
  intro other isLast
  obtain rfl : t = other := by simpa using isLast
  exact unnamed

theorem IsLineEnds.endsUnnamed {ends : List Token} (allEnds : IsLineEnds ends) :
    EndsUnnamed ends := by
  intro t isLast
  rw [allEnds t (List.mem_of_getLast? isLast)]
  rfl

theorem IsLineEnds.endsUnnamed_append {ends : List Token} (allEnds : IsLineEnds ends)
    (nonempty : ends ≠ []) (tokens : List Token) : EndsUnnamed (tokens ++ ends) := by
  intro t isLast
  rw [List.getLast?_append_of_ne_nil _ nonempty] at isLast
  exact allEnds.endsUnnamed t isLast

/-- Where a field stands in a stretch of tokens that derives something from it.  No name
stands directly before it, all line ends directly behind it are counted, and any other
field with line ends can stand there instead. -/
structure Slot (kind : BlockKind) (derives : List Token → Field → Prop) (tokens : List Token)
    (field : Field) (front own ends back : List Token) : Prop where
  shape : tokens = front ++ own ++ ends ++ back
  isField : IsMember kind own (.field field)
  allEnds : IsLineEnds ends
  starts : EndsUnnamed front
  stops : next back ≠ some .newline
  balanced : ∀ depth, depthBehind depth front = depth
  exchange : ∀ own' ends' field', IsMember kind own' (.field field') → IsLineEnds ends' →
    (ends' = [] → ends = []) → derives (front ++ own' ++ ends' ++ back) field'

/-- A slot stays one between further tokens. -/
theorem Slot.enclose {kind : BlockKind} {derives further : List Token → Field → Prop}
    {tokens front own ends back : List Token} {field : Field}
    (slot : Slot kind derives tokens field front own ends back) (first second : List Token)
    (balanced : ∀ depth, depthBehind depth first = depth)
    (starts : EndsUnnamed first)
    (stops : back = [] → next second ≠ some .newline)
    (onward : ∀ tokens' field', derives tokens' field' →
      further (first ++ tokens' ++ second) field') :
    Slot kind further (first ++ tokens ++ second) field (first ++ front) own ends
      (back ++ second) where
  shape := by rw [slot.shape]; simp only [List.append_assoc]
  isField := slot.isField
  allEnds := slot.allEnds
  starts := starts.append slot.starts
  stops := by
    cases back with
    | nil => exact stops rfl
    | cons t back => exact slot.stops
  balanced depth := by rw [depthBehind_append, balanced, slot.balanced]
  exchange own' ends' field' member allEnds kept := by
    have whole := onward _ _ (slot.exchange own' ends' field' member allEnds kept)
    simpa only [List.append_assoc] using whole

/-! ## In a body -/

/-- Tokens of a body whose members are the given ones around a field. -/
def BodyAround (kind : BlockKind) (before after : List Member) (tokens : List Token)
    (field : Field) : Prop :=
  IsBody kind tokens (before ++ .field field :: after)

theorem IsBody.slot {kind : BlockKind} {tokens : List Token} {members before after : List Member}
    {field : Field} (isBody : IsBody kind tokens members)
    (shape : members = before ++ .field field :: after) :
    ∃ front own ends back,
      Slot kind (BodyAround kind before after) tokens field front own ends back := by
  induction isBody generalizing before with
  | empty => simp at shape
  | @last tokens m member =>
      obtain ⟨rfl, rfl, rfl⟩ : before = [] ∧ m = .field field ∧ after = [] := by
        cases before with
        | nil => simpa [eq_comm] using shape
        | cons first before => simp at shape
      refine ⟨[], tokens, [], [], by simp, member, List.forall_mem_nil _, nofun, by simp,
        fun _ => rfl, ?_⟩
      intro own' ends' field' member' allEnds' _
      cases ends' with
      | nil =>
          rw [List.nil_append, List.append_nil, List.append_nil]
          exact .last member'
      | cons lineEnd ends' => exact .more member' allEnds' (by simp) .empty
  | @more tokens ends rest m others member allEnds nonempty onward ih =>
      cases before with
      | nil =>
          obtain ⟨rfl, rfl⟩ := List.cons.inj shape
          refine ⟨[], tokens, ends, rest, by simp, member, allEnds, nofun, ?_, fun _ => rfl, ?_⟩
          · rcases onward.next with rfl | ⟨lexeme, starts, isInner⟩
            · simp
            · rw [starts]
              exact fun same => isInner.1 (Option.some.inj same)
          · intro own' ends' field' member' allEnds' kept
            exact .more member' allEnds' (fun none => nonempty (kept none)) onward
      | cons first before =>
          obtain ⟨rfl, behind⟩ := List.cons.inj shape
          obtain ⟨front, own, ends', back, slot⟩ := ih behind
          have balanced : ∀ depth, depthBehind depth (tokens ++ ends) = depth := fun depth => by
            rw [depthBehind_append, member.inside.balanced, allEnds.balanced]
          have starts : EndsUnnamed (tokens ++ ends) := allEnds.endsUnnamed_append nonempty _
          have onward : ∀ tokens' field', BodyAround kind before after tokens' field' →
              BodyAround kind (m :: before) after (tokens ++ ends ++ tokens' ++ []) field' := by
            intro tokens' field' isBody
            rw [List.append_nil]
            exact IsBody.more member allEnds nonempty isBody
          have whole := slot.enclose _ [] balanced starts (fun _ => by simp) onward
          rw [List.append_nil] at whole
          exact ⟨_, _, _, _, whole⟩

/-! ## In blocks -/

def BlockAround (b : Block) (before after : List Field) (tokens : List Token) (field : Field) :
    Prop :=
  IsBlock tokens (b.withFields (before ++ field :: after))

theorem IsBlock.slot {tokens : List Token} {b : Block} {before after : List Field} {field : Field}
    (isBlock : IsBlock tokens b) (fields : b.fields = before ++ field :: after) :
    ∃ front own ends back,
      Slot b.kind (BlockAround b before after) tokens field front own ends back ∧ back ≠ [] := by
  cases isBlock with
  | @intro keyword token opening closing lineEnds body kind name members isKeyword named opens
      allEnds isBody closes =>
      obtain ⟨front, back, rfl, rfl, rfl⟩ := exists_members_of_fields fields
      obtain ⟨front', own, ends, back', slot⟩ := isBody.slot rfl
      have balanced : ∀ depth,
          depthBehind depth ([keyword, token, opening] ++ lineEnds) = depth := fun depth => by
        rw [depthBehind_append, depthBehind_header isKeyword named opens, allEnds.balanced]
      have starts : EndsUnnamed ([keyword, token, opening] ++ lineEnds) :=
        (endsUnnamed_concat [keyword, token] (by rw [opens]; rfl)).append allEnds.endsUnnamed
      have onward : ∀ tokens' field', BodyAround kind front back tokens' field' →
          BlockAround (.ofMembers kind name keyword.mark closing.mark
              (front ++ .field field :: back)) (front.filterMap Member.field?)
            (back.filterMap Member.field?)
            ([keyword, token, opening] ++ lineEnds ++ tokens' ++ [closing]) field' := by
        intro tokens' field' isBody'
        rw [BlockAround, ← Block.ofMembers_exchange]
        exact .intro isKeyword named opens allEnds isBody' closes
      have whole := slot.enclose _ [closing] balanced starts (fun _ => by simp [closes]) onward
      exact ⟨_, _, _, _, whole, by simp⟩

def BlocksAround (first second : List Block) (b : Block) (before after : List Field)
    (tokens : List Token) (field : Field) : Prop :=
  IsBlocks tokens (first ++ b.withFields (before ++ field :: after) :: second)

theorem IsBlock.endsUnnamed {tokens : List Token} {b : Block} (isBlock : IsBlock tokens b) :
    EndsUnnamed tokens := by
  cases isBlock with
  | intro _ _ _ _ _ closes => exact endsUnnamed_concat _ (by rw [closes]; rfl)

theorem IsBlocks.slot {tokens : List Token} {blocks first second : List Block} {b : Block}
    {before after : List Field} {field : Field} (isBlocks : IsBlocks tokens blocks)
    (shape : blocks = first ++ b :: second) (fields : b.fields = before ++ field :: after) :
    ∃ front own ends back,
      Slot b.kind (BlocksAround first second b before after) tokens field front own ends back := by
  induction isBlocks generalizing first with
  | none => simp at shape
  | @more tokens ends rest head others isBlock allEnds onward ih =>
      cases first with
      | nil =>
          obtain ⟨rfl, rfl⟩ := List.cons.inj shape
          obtain ⟨front, own, ends', back, slot, nonempty⟩ := isBlock.slot fields
          have further : ∀ tokens' field', BlockAround head before after tokens' field' →
              BlocksAround [] others head before after ([] ++ tokens' ++ (ends ++ rest))
                field' := by
            intro tokens' field' isBlock'
            rw [List.nil_append, ← List.append_assoc]
            exact IsBlocks.more isBlock' allEnds onward
          have whole := slot.enclose [] _ (fun _ => rfl) nofun (fun none => absurd none nonempty)
            further
          rw [List.nil_append, ← List.append_assoc] at whole
          exact ⟨_, _, _, _, whole⟩
      | cons head' first =>
          obtain ⟨rfl, behind⟩ := List.cons.inj shape
          obtain ⟨front, own, ends', back, slot⟩ := ih behind
          have further : ∀ tokens' field', BlocksAround first second b before after tokens' field' →
              BlocksAround (head :: first) second b before after (tokens ++ ends ++ tokens' ++ [])
                field' := by
            intro tokens' field' isBlocks'
            rw [List.append_nil]
            exact IsBlocks.more isBlock allEnds isBlocks'
          have whole := slot.enclose _ [] (isBlock.balanced_lineEnds allEnds)
            (isBlock.endsUnnamed.append allEnds.endsUnnamed) (fun _ => by simp) further
          rw [List.append_nil] at whole
          exact ⟨_, _, _, _, whole⟩

/-! ## In a schema -/

/-- Tokens of the schema that has the given blocks around the one with the given fields
around one. -/
def SchemaAround (first second : List Block) (b : Block) (before after : List Field)
    (tokens : List Token) (field : Field) : Prop :=
  IsSchema tokens ⟨first ++ b.withFields (before ++ field :: after) :: second⟩

/-- **Every field of a schema can be exchanged** for any other one of its block. -/
theorem IsSchema.slot {tokens : List Token} {first second : List Block} {b : Block}
    {before after : List Field} {field : Field}
    (derived : IsSchema tokens ⟨first ++ b :: second⟩)
    (fields : b.fields = before ++ field :: after) :
    ∃ front own ends back,
      Slot b.kind (SchemaAround first second b before after) tokens field front own ends back := by
  generalize shape : Schema.mk (first ++ b :: second) = schema at derived
  cases derived with
  | @intro ends rest blocks allEnds isBlocks =>
      obtain ⟨front, own, ends', back, slot⟩ := isBlocks.slot (Schema.mk.inj shape).symm fields
      have further : ∀ tokens' field', BlocksAround first second b before after tokens' field' →
          SchemaAround first second b before after (ends ++ tokens' ++ []) field' := by
        intro tokens' field' isBlocks'
        rw [List.append_nil]
        exact .intro allEnds isBlocks'
      have whole := slot.enclose _ [] allEnds.balanced allEnds.endsUnnamed (fun _ => by simp)
        further
      rw [List.append_nil] at whole
      exact ⟨_, _, _, _, whole⟩

end Grammar

end SchemaAssist
