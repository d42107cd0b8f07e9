/-
# SchemaAssist.Catalogue — what may stand where in a schema

The fixed knowledge behind every suggestion: the scalar types, the block
keywords, the attributes of fields and of blocks, the keys of datasources and
generators with the values of their `provider`, the functions inside
`@default(…)` and the arguments of `@relation(…)`.  Each with the words that an
editor shows beside it, in the order in which it is offered.

What depends on the line being edited depends on three whole words on it: `Int`,
`DateTime` and the attribute `@id`.
-/
import SchemaAssist.Tree
import SchemaAssist.Text.Search

namespace SchemaAssist

set_option autoImplicit false

open Text

/-- The sorts of suggestions that editors tell apart. -/
inductive ItemKind where
  | blockClass
  | field
  | property
  | typeParameter
  | function
  deriving DecidableEq, Inhabited

def ItemKind.label : ItemKind → String
  | blockClass => "Class"
  | field => "Field"
  | property => "Property"
  | typeParameter => "TypeParameter"
  | function => "Function"

structure Entry where
  label : String
  kind : ItemKind
  detail : Option String
  documentation : Option String
  deriving DecidableEq, Inhabited

/-- What an attribute is attached to. -/
inductive Target where
  | field
  | block
  deriving DecidableEq, Inhabited

namespace Target

def label : Target → String
  | field => "field"
  | block => "block"

def signs : Target → String
  | field => "@"
  | block => "@@"

end Target

/-- An attribute of the language: `callSuffix` follows its name where it is
offered, `arguments` are the names of its arguments. -/
structure AttributeSpec where
  name : String
  target : Target
  callSuffix : String
  arguments : List String
  detail : Option String
  documentation : Option String
  deriving DecidableEq, Inhabited

/-- The attribute as it is offered, without at-signs. -/
def AttributeSpec.label (spec : AttributeSpec) : String := spec.name ++ spec.callSuffix

namespace Catalogue

/-! ## The tables -/

def scalarTypes : List Entry :=
  [⟨"String", .typeParameter, none, some "Variable length text"⟩,
   ⟨"Boolean", .typeParameter, none, some "True or false value"⟩,
   ⟨"Int", .typeParameter, none, some "Integer value"⟩,
   ⟨"Float", .typeParameter, none, some "Floating point number"⟩,
   ⟨"DateTime", .typeParameter, none, some "Timestamp"⟩]

def blockKinds : List Entry :=
  [⟨BlockKind.datasource.keyword, .blockClass, none,
     some "The datasource block tells the schema where the models are backed."⟩,
   ⟨BlockKind.generator.keyword, .blockClass, none,
     some ("Generator blocks configure which clients are generated and how they're " ++
       "generated. Language preferences and binary configuration will go in here.")⟩,
   ⟨BlockKind.model.keyword, .blockClass, none,
     some ("Models represent the entities of your application domain. " ++
       "They are defined using model blocks in the data model.")⟩,
   ⟨BlockKind.typeAlias.keyword, .blockClass, none,
     some "Type aliases group reusable field declarations and attributes."⟩,
   ⟨BlockKind.enum.keyword, .blockClass, none,
     some ("Enums are defined via the enum block. You can define enums in your data model " ++
       "if they're supported by the data source you use:\n" ++
       "• PostgreSQL: Supported\n• MySQL: Supported\n• SQLite: Not supported")⟩]

def modelAttributes : List AttributeSpec :=
  [⟨"map", .block, "([])", ["name"], some "@@map(_ name: String)",
     some "Defines the name of the underlying table or collection name."⟩,
   ⟨"id", .block, "([])", ["fields"], some "@@id(_ fields: Identifier[])",
     some "Defines a composite primary key across fields."⟩,
   ⟨"unique", .block, "([])", ["fields", "name"],
     some "@@unique(_ fields: Identifier[], name: String?)",
     some "Defines a composite unique constraint across fields."⟩,
   ⟨"index", .block, "([])", ["fields", "name"],
     some "@@index(_ fields: Identifier[], name: String?)",
     some "Defines an index for multiple fields"⟩]

def fieldAttributes : List AttributeSpec :=
  [⟨"id", .field, "", [], some "@id",
     some "Defines the primary key. There must be exactly one field @id or block @id"⟩,
   ⟨"unique", .field, "", [], some "@unique", some "Defines the unique constraint."⟩,
   ⟨"map", .field, "()", ["name"], some "@map(_ name: String)",
     some "Defines the raw column name the field is mapped to."⟩,
   ⟨"default", .field, "()", ["expr"], some "@default(_ expr: Expr)",
     some "Specifies a default value if null is provided."⟩,
   ⟨"relation", .field, "()", ["name", "fields", "references"],
     some ("@relation(_ name?: String, fields?: Identifier[], references?: Identifier[])\n" ++
       "Arguments:\n" ++
       "•name: (optional, except when required for disambiguation) defines the name of " ++
       "the relationship.\n" ++
       "•fields: (optional) list of fields of the current model\n" ++
       "•references: (optional) list of field names to reference"),
     some ("Specifies and disambiguates relationships when needed. Where possible on " ++
       "relational databases, the @relation annotation will translate to a foreign key " ++
       "constraint, but not an index.")⟩]

def datasourceKeys : List Entry :=
  [⟨"provider", .field, none,
     some ("Can be one of the following built in datasource providers:\n" ++
       "•`postgresql`\n•`mysql`\n•`sqlite`")⟩,
   ⟨"url", .field, none,
     some ("Connection URL including authentication info. Each datasource provider " ++
       "documents the URL syntax. Most providers use the syntax provided by the database.")⟩]

def generatorKeys : List Entry :=
  [⟨"provider", .field, none,
     some ("Can be a path or one of the following built in generator providers:\n" ++
       "•`prisma-client-js`")⟩,
   ⟨"output", .field, none, some "Path for the generated client."⟩,
   ⟨"platforms", .field, some "Declarative way to download the required binaries.",
     some ("(optional) An array of binaries that are required by the application, " ++
       "string for known platforms and path for custom binaries.")⟩,
   ⟨"pinnedPlatform", .field, some "Declarative way to choose the runtime binary.",
     some ("(optional) A string that points to the name of an object in the platforms " ++
       "field, usually an environment variable.\n" ++
       "When a custom binary is provided the pinnedPlatform is required.")⟩]

def datasourceProviders : List String := ["postgresql", "mysql", "sqlite"]

def generatorProviders : List String := ["prisma-client-js"]

/-- The providers whose datasources have no enums. -/
def enumlessProviders : List String := ["sqlite"]

/-- The argument lists that are filled with field names. -/
def relationLists : List String := ["fields", "references"]

/-- How the arguments of a relation open. -/
def relationShapes : List String := ["references: []", "fields: []", "\"\""]

/-! ## What a line says -/

def mentionsInt (line : List Char) : Bool := (firstMatch (wholeWord "Int".toList) line).isSome

def mentionsDateTime (line : List Char) : Bool :=
  (firstMatch (wholeWord "DateTime".toList) line).isSome

/-- Whether the line has the attribute `@id`. -/
def mentionsId (line : List Char) : Bool := (firstMatch (endingWord "@id".toList) line).isSome

/-! ## What a kind of block admits -/

def blockAttributesOf (kind : Option BlockKind) : List AttributeSpec :=
  if kind = some .model then modelAttributes else []

/-- The field attributes for a line of a kind of block.  The attribute `@id` is
for fields of type `Int`. -/
def fieldAttributesOf (kind : Option BlockKind) (line : List Char) : List AttributeSpec :=
  if kind.any BlockKind.holdsFields then
    fieldAttributes.filter fun spec => mentionsInt line || spec.name != "id"
  else []

def keysOf : Option BlockKind → List Entry
  | some .datasource => datasourceKeys
  | some .generator => generatorKeys
  | _ => []

def providersOf (kind : Option BlockKind) (forGenerators : List String) : List String :=
  match kind with
  | some .datasource => datasourceProviders
  | some .generator => forGenerators
  | _ => []

/-- The functions for the default of the field declared on a line. -/
def defaultFunctions (line : List Char) : List String :=
  ["uuid()", "cuid()"] ++
    (if mentionsInt line && mentionsId line then ["autoincrement()"] else []) ++
    (if mentionsDateTime line then ["now()"] else [])

end Catalogue

end SchemaAssist
