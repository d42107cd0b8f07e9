/-
# SchemaAssist.Proofs.Grammar.Relocation — moving a schema to other lines

A tree names lines, and nothing else in it depends on where its tokens stand.  So
tokens that are moved derive the moved tree (`IsSchema.relocate`): the grammar never
looks at a place, it only writes down its line.
-/
import SchemaAssist.Proofs.Grammar

namespace SchemaAssist

set_option autoImplicit false

/-! ## Moving trees -/

def Attribute.mapLine (move : Int → Int) (attr : Attribute) : Attribute :=
  { attr with line := move attr.line }

def Field.mapLine (move : Int → Int) (field : Field) : Field :=
  { field with
    attributes := field.attributes.map (·.mapLine move)
    line := move field.line }

def Assignment.mapLine (move : Int → Int) (assignment : Assignment) : Assignment :=
  { assignment with line := move assignment.line }

def EnumValue.mapLine (move : Int → Int) (value : EnumValue) : EnumValue :=
  { value with
    attributes := value.attributes.map (·.mapLine move)
    line := move value.line }

def Block.mapLine (move : Int → Int) (block : Block) : Block :=
  { block with
    startLine := move block.startLine
    endLine := move block.endLine
    assignments := block.assignments.map (·.mapLine move)
    fields := block.fields.map (·.mapLine move)
    attributes := block.attributes.map (·.mapLine move)
    values := block.values.map (·.mapLine move) }

def Schema.mapLine (move : Int → Int) (schema : Schema) : Schema :=
  ⟨schema.blocks.map (·.mapLine move)⟩

def Member.mapLine (move : Int → Int) : Member → Member
  | assignment a => assignment (a.mapLine move)
  | field f => field (f.mapLine move)
  | value v => value (v.mapLine move)
  | blockAttribute attr => blockAttribute (attr.mapLine move)

/-- Lines that are replaced by themselves stay. -/
theorem Schema.mapLine_id (schema : Schema) : schema.mapLine id = schema := by
  have attr : Attribute.mapLine id = id := rfl
  have assignment : Assignment.mapLine id = id := rfl
  have field : Field.mapLine id = id := by
    funext field
    simp [Field.mapLine, attr]
  have value : EnumValue.mapLine id = id := by
    funext value
    simp [EnumValue.mapLine, attr]
  have block : Block.mapLine id = id := by
    funext block
    simp [Block.mapLine, attr, assignment, field, value]
  simp [Schema.mapLine, block]

theorem Block.mapLine_ofMembers (move : Int → Int) (kind : BlockKind) (name : String)
    {opened closed opened' closed' : Mark} (atStart : opened'.row = move opened.row)
    (atEnd : closed'.row = move closed.row) (members : List Member) :
    (Block.ofMembers kind name opened closed members).mapLine move =
      Block.ofMembers kind name opened' closed' (members.map (·.mapLine move)) := by
  have sorts : ∀ m : Member,
      (m.mapLine move).assignment? = m.assignment?.map (·.mapLine move) ∧
      (m.mapLine move).field? = m.field?.map (·.mapLine move) ∧
      (m.mapLine move).value? = m.value?.map (·.mapLine move) ∧
      (m.mapLine move).blockAttribute? = m.blockAttribute?.map (·.mapLine move) := by
    intro m
    cases m <;> simp [Member.mapLine, Member.assignment?, Member.field?, Member.value?,
      Member.blockAttribute?]
  simp only [Block.ofMembers, Block.mapLine, atStart, atEnd, List.filterMap_map,
    List.map_filterMap, Function.comp_def, sorts]

/-! ## Moving tokens -/

def Token.relocate (f : Mark → Mark) (token : Token) : Token := ⟨token.lexeme, f token.mark⟩

namespace Grammar

/-- Whether `f` moves the rows of these tokens as `move` says. -/
def Moves (f : Mark → Mark) (move : Int → Int) (tokens : List Token) : Prop :=
  ∀ token ∈ tokens, (f token.mark).row = move token.mark.row

variable {f : Mark → Mark} {move : Int → Int}

@[simp] theorem lexeme_relocate (token : Token) :
    (token.relocate f).lexeme = token.lexeme := rfl

@[simp] theorem mark_relocate (token : Token) : (token.relocate f).mark = f token.mark := rfl

theorem moves_append {first second : List Token} :
    Moves f move (first ++ second) ↔ Moves f move first ∧ Moves f move second :=
  List.forall_mem_append

theorem moves_cons {token : Token} {rest : List Token} :
    Moves f move (token :: rest) ↔
      (f token.mark).row = move token.mark.row ∧ Moves f move rest :=
  List.forall_mem_cons

theorem Separated.relocate {α : Type} {item moved : List Token → α → Prop}
    (each : ∀ tokens a, item tokens a → moved (tokens.map (·.relocate f)) a)
    {tokens : List Token} {items : List α} (separated : Separated item tokens items) :
    Separated moved (tokens.map (·.relocate f)) items := by
  induction separated with
  | empty => exact .empty
  | last one => exact .last (each _ _ one)
  | more one comma _ ih =>
      rw [List.map_append, List.map_cons]
      exact .more (each _ _ one) comma ih

theorem IsArgument.relocate {value moved : List Token → Value → Prop}
    (each : ∀ tokens v, value tokens v → moved (tokens.map (·.relocate f)) v)
    {tokens : List Token} {a : Argument} (argument : IsArgument value tokens a) :
    IsArgument moved (tokens.map (·.relocate f)) a := by
  cases argument with
  | plain one => exact .plain (each _ _ one)
  | named key colon one => exact .named key colon (each _ _ one)

theorem IsValue.relocate {tokens : List Token} {v : Value} (value : IsValue tokens v) :
    IsValue (tokens.map (·.relocate f)) v := by
  refine value.induct (motive := fun tokens v => IsValue (tokens.map (·.relocate f)) v)
    ?string ?number ?array ?boolean ?identifier ?call
  case string => exact fun lexeme => .string lexeme
  case number => exact fun lexeme => .number lexeme
  case array =>
    intro opening closing inner items opens separated closes
    rw [List.map_append, List.map_cons]
    exact .array opens (separated.relocate fun _ _ known => known.2) closes
  case boolean => exact fun named isBoolean => .boolean named isBoolean
  case identifier => exact fun named other => .identifier named other
  case call =>
    intro token opening closing inner name arguments named other opens separated closes
    rw [List.map_append, List.map_cons, List.map_cons]
    exact .call named other opens
      (separated.relocate fun _ _ a => a.relocate fun _ _ known => known.2) closes

theorem IsDotParts.relocate {tokens : List Token} {others : String}
    (parts : IsDotParts tokens others) : IsDotParts (tokens.map (·.relocate f)) others := by
  induction parts with
  | none => exact .none
  | more dot named _ ih => exact .more dot named ih

theorem IsArguments.relocate {tokens : List Token} {list : List Argument}
    (arguments : IsArguments tokens list) : IsArguments (tokens.map (·.relocate f)) list := by
  cases arguments with
  | absent => exact .absent
  | list opens separated closes =>
      rw [List.map_append, List.map_cons]
      exact .list opens
        (separated.relocate fun _ _ a => a.relocate fun _ _ value => value.relocate) closes

theorem IsAttribute.relocate {isBlock : Bool} {mark : Mark} {tokens : List Token}
    {attr : Attribute} (derived : IsAttribute isBlock mark tokens attr)
    (moved : (f mark).row = move mark.row) :
    IsAttribute isBlock (f mark) (tokens.map (·.relocate f)) (attr.mapLine move) := by
  cases derived with
  | intro named parts arguments =>
      rw [List.map_append, List.map_cons]
      simp only [Attribute.mapLine, ← moved]
      exact .intro named parts.relocate arguments.relocate

theorem IsAttributes.relocate {tokens : List Token} {list : List Attribute}
    (derived : IsAttributes tokens list) (moved : Moves f move tokens) :
    IsAttributes (tokens.map (·.relocate f)) (list.map (·.mapLine move)) := by
  induction derived with
  | none => exact .none
  | more sign one _ ih =>
      rw [moves_append, moves_cons] at moved
      rw [List.map_append, List.map_cons, List.map_cons]
      exact .more sign (one.relocate moved.1.1) (ih moved.2)

theorem IsListSuffix.relocate {tokens : List Token} {isList : Bool}
    (suffix : IsListSuffix tokens isList) : IsListSuffix (tokens.map (·.relocate f)) isList := by
  cases suffix with
  | absent => exact .absent
  | brackets opens closes => exact .brackets opens closes

theorem IsOptionalSuffix.relocate {tokens : List Token} {isOptional : Bool}
    (suffix : IsOptionalSuffix tokens isOptional) :
    IsOptionalSuffix (tokens.map (·.relocate f)) isOptional := by
  cases suffix with
  | absent => exact .absent
  | question sign => exact .question sign

theorem IsMember.relocate {kind : BlockKind} {tokens : List Token} {m : Member}
    (member : IsMember kind tokens m) (moved : Moves f move tokens) :
    IsMember kind (tokens.map (·.relocate f)) (m.mapLine move) := by
  cases member with
  | assignment holds named isEquals value =>
      rw [moves_cons] at moved
      simp only [Member.mapLine, Assignment.mapLine, ← moved.1]
      exact .assignment holds named isEquals value.relocate
  | field holds named typed list optional attributes =>
      simp only [moves_append, moves_cons] at moved
      simp only [Member.mapLine, Field.mapLine, ← moved.1.1.1, List.map_append, List.map_cons]
      exact .field holds named typed list.relocate optional.relocate
        (attributes.relocate moved.2)
  | value isEnum named attributes =>
      rw [moves_cons] at moved
      simp only [Member.mapLine, EnumValue.mapLine, ← moved.1]
      exact .value isEnum named (attributes.relocate moved.2)
  | blockAttribute holds sign one =>
      rw [moves_cons] at moved
      exact .blockAttribute holds sign (one.relocate moved.1)

/-! ## Blocks and schemas -/

theorem IsLineEnds.relocate {tokens : List Token} (allEnds : IsLineEnds tokens) :
    IsLineEnds (tokens.map (·.relocate f)) := by
  intro token member
  obtain ⟨original, isIn, rfl⟩ := List.mem_map.1 member
  exact allEnds original isIn

theorem IsBody.relocate {kind : BlockKind} {tokens : List Token} {list : List Member}
    (body : IsBody kind tokens list) (moved : Moves f move tokens) :
    IsBody kind (tokens.map (·.relocate f)) (list.map (·.mapLine move)) := by
  induction body with
  | empty => exact .empty
  | last member => exact .last (member.relocate moved)
  | more member allEnds nonempty _ ih =>
      simp only [moves_append] at moved
      rw [List.map_append, List.map_append]
      exact .more (member.relocate moved.1.1) allEnds.relocate (by simpa using nonempty)
        (ih moved.2)

theorem IsBlock.relocate {tokens : List Token} {b : Block} (isBlock : IsBlock tokens b)
    (moved : Moves f move tokens) :
    IsBlock (tokens.map (·.relocate f)) (b.mapLine move) := by
  cases isBlock with
  | @intro keyword token opening closing ends body kind name members isKeyword named opens
      allEnds isBody closes =>
      simp only [moves_append, moves_cons] at moved
      have isKeyword' : (keyword.relocate f).lexeme = .keyword kind := isKeyword
      have closes' : (closing.relocate f).lexeme = .punct .braceClose := closes
      rw [Block.mapLine_ofMembers move kind name moved.1.1.1 moved.2.1]
      simp only [List.map_append, List.map_cons, List.map_nil]
      exact .intro isKeyword' named opens allEnds.relocate (isBody.relocate moved.1.2) closes'

theorem IsBlocks.relocate {tokens : List Token} {list : List Block}
    (blocks : IsBlocks tokens list) (moved : Moves f move tokens) :
    IsBlocks (tokens.map (·.relocate f)) (list.map (·.mapLine move)) := by
  induction blocks with
  | none => exact .none
  | more isBlock allEnds _ ih =>
      simp only [moves_append] at moved
      rw [List.map_append, List.map_append]
      exact .more (isBlock.relocate moved.1.1) allEnds.relocate (ih moved.2)

/-- Moved tokens derive the moved tree. -/
theorem IsSchema.relocate {tokens : List Token} {schema : Schema}
    (derived : IsSchema tokens schema) (moved : Moves f move tokens) :
    IsSchema (tokens.map (·.relocate f)) (schema.mapLine move) := by
  cases derived with
  | intro allEnds isBlocks =>
      rw [moves_append] at moved
      rw [List.map_append]
      exact .intro allEnds.relocate (isBlocks.relocate moved.2)

end Grammar

end SchemaAssist
