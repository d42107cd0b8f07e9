/-
# SchemaAssist.Tree — the tree of a schema

A schema is a list of named, braced blocks of five kinds.  Datasource and
generator blocks hold assignments, models and type aliases hold fields, enums
hold values; the last three also hold block attributes (`@@…`).  A block keeps
one list per sort of member, so that a tree built by hand may fill any of them;
a parsed tree fills only those of its kind.

All lines in a tree count from zero, as an editor counts them.
-/

namespace SchemaAssist

set_option autoImplicit false

/-! ## Block kinds -/

inductive BlockKind where
  | datasource
  | generator
  | model
  | enum
  | typeAlias
  deriving DecidableEq, Inhabited

namespace BlockKind

def keyword : BlockKind → String
  | datasource => "datasource"
  | generator => "generator"
  | model => "model"
  | enum => "enum"
  | typeAlias => "type_alias"

def all : List BlockKind := [datasource, generator, model, enum, typeAlias]

def ofKeyword? (word : String) : Option BlockKind :=
  all.find? (·.keyword == word)

def holdsAssignments : BlockKind → Bool
  | datasource | generator => true
  | _ => false

def holdsFields : BlockKind → Bool
  | model | typeAlias => true
  | _ => false

end BlockKind

/-! ## Values and attributes -/

inductive ValueKind where
  | string
  | number
  | boolean
  | identifier
  | function
  | array
  deriving DecidableEq, Inhabited

def ValueKind.label : ValueKind → String
  | string => "string"
  | number => "number"
  | boolean => "boolean"
  | identifier => "identifier"
  | function => "function"
  | array => "array"

/-- A value: `raw` is its text (the name of a function, nothing for an array),
`items` are the elements of an array or the arguments of a function. -/
structure Value where
  kind : ValueKind
  raw : String
  items : List Value
  deriving Inhabited

mutual

def Value.decideEq : (x y : Value) → Decidable (x = y)
  | ⟨kind₁, raw₁, items₁⟩, ⟨kind₂, raw₂, items₂⟩ =>
      match decEq kind₁ kind₂, decEq raw₁ raw₂, decideEqItems items₁ items₂ with
      | .isTrue kinds, .isTrue raws, .isTrue items => .isTrue (by rw [kinds, raws, items])
      | .isFalse kinds, _, _ => .isFalse fun h => kinds (congrArg Value.kind h)
      | _, .isFalse raws, _ => .isFalse fun h => raws (congrArg Value.raw h)
      | _, _, .isFalse items => .isFalse fun h => items (congrArg Value.items h)

def Value.decideEqItems : (xs ys : List Value) → Decidable (xs = ys)
  | [], [] => .isTrue rfl
  | [], _ :: _ => .isFalse nofun
  | _ :: _, [] => .isFalse nofun
  | x :: xs, y :: ys =>
      match decideEq x y, decideEqItems xs ys with
      | .isTrue heads, .isTrue tails => .isTrue (by rw [heads, tails])
      | .isFalse heads, _ => .isFalse fun h => heads (List.cons.inj h).1
      | _, .isFalse tails => .isFalse fun h => tails (List.cons.inj h).2

end

instance : DecidableEq Value := Value.decideEq

/-- The names among the items of a value. -/
def Value.identifiers (value : Value) : List String :=
  (value.items.filter (·.kind == .identifier)).map (·.raw)

structure Argument where
  name : Option String
  value : Value
  deriving DecidableEq, Inhabited

/-- An attribute of a field (`@…`) or of its block (`@@…`). -/
structure Attribute where
  name : String
  isBlock : Bool
  arguments : List Argument
  line : Int
  deriving DecidableEq, Inhabited

def Attribute.label (attr : Attribute) : String :=
  (if attr.isBlock then "@@" else "@") ++ attr.name

/-- The first argument of that name. -/
def Attribute.argument? (attr : Attribute) (name : String) : Option Argument :=
  attr.arguments.find? (·.name == some name)

/-! ## Members -/

structure FieldType where
  name : String
  isList : Bool
  isOptional : Bool
  deriving DecidableEq, Inhabited

structure Field where
  name : String
  type : FieldType
  attributes : List Attribute
  line : Int
  deriving DecidableEq, Inhabited

def Field.hasAttribute (field : Field) (name : String) : Bool :=
  field.attributes.any (·.name == name)

/-- A `key = value` pair of a datasource or a generator. -/
structure Assignment where
  key : String
  value : Value
  line : Int
  deriving DecidableEq, Inhabited

structure EnumValue where
  name : String
  attributes : List Attribute
  line : Int
  deriving DecidableEq, Inhabited

/-! ## Blocks and schemas -/

/-- A block, from the line of its keyword to the line of its closing brace. -/
structure Block where
  kind : BlockKind
  name : String
  startLine : Int
  endLine : Int
  assignments : List Assignment
  fields : List Field
  attributes : List Attribute
  values : List EnumValue
  deriving DecidableEq, Inhabited

def Block.assignment? (block : Block) (key : String) : Option Assignment :=
  block.assignments.find? (·.key == key)

/-- Whether `line` lies strictly between the first and the last line. -/
def Block.containsLine (block : Block) (line : Int) : Bool :=
  decide (block.startLine < line) && decide (line < block.endLine)

structure Schema where
  blocks : List Block
  deriving DecidableEq, Inhabited

namespace Schema

def blocksOfKind (schema : Schema) (kinds : List BlockKind) : List Block :=
  schema.blocks.filter (kinds.contains ·.kind)

/-- The first block whose body contains `line`. -/
def blockAtLine? (schema : Schema) (line : Int) : Option Block :=
  schema.blocks.find? (·.containsLine line)

/-- Whether some datasource assigns one of these strings as its provider.  Only
the first `provider` of a datasource counts. -/
def usesProvider (schema : Schema) (providers : List String) : Bool :=
  (schema.blocksOfKind [.datasource]).any fun block =>
    (block.assignment? "provider").any fun assignment =>
      assignment.value.kind == .string && providers.contains assignment.value.raw

end Schema

end SchemaAssist
