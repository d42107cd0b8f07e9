/-
# SchemaAssist.Completion.Candidates — which candidates remain

Of the elements that the catalogue admits, those already used are left out:
keys that the block assigns on other lines, fields that the other list of a
relation holds, arguments that a relation already has, and enums where the
datasource has none.  What depends on the members of a block is `none` if they
cannot be listed.
-/
import SchemaAssist.BlockView
import SchemaAssist.Catalogue
import SchemaAssist.Text.Split

namespace SchemaAssist.Candidates

set_option autoImplicit false

open Text

/-! ## Keys -/

def undeclared (entries : List Entry) (declared : List String) : List Entry :=
  entries.filter fun entry => !declared.contains entry.label

def withoutKind (entries : List Entry) (kind : BlockKind) : List Entry :=
  entries.filter fun entry => entry.label != kind.keyword

/-- The keys of a kind of block that the block does not assign.  The line being
edited does not count. -/
def unusedKeys? (kind : Option BlockKind) (block : Option BlockView) (exclude : Option Int) :
    Option (List Entry) :=
  match block with
  | none => some (Catalogue.keysOf kind)
  | some block => (block.memberNames? exclude).map (undeclared (Catalogue.keysOf kind))

/-! ## Lists of fields -/

/-- The pattern `argument: […`, starting at a word boundary; it answers with the
text inside the brackets, up to the end of the line if they stay open. -/
def bracketPattern (argument : List Char) : Pattern (List Char) := fun before text =>
  match atBoundary argument before text with
  | none => none
  | some rest =>
    match trimStart rest with
    | ':' :: rest =>
      match trimStart rest with
      | '[' :: rest => some (rest.takeWhile (· != ']'))
      | _ => none
    | _ => none

/-- The identifiers in the first list of that argument on a line, each once. -/
def bracketIdentifiers (line argument : List Char) : List String :=
  match firstMatch (bracketPattern argument) line with
  | none => []
  | some inside =>
      let names := (splitWhere (· == ',') inside).map trim
      ((names.filter (!·.isEmpty)).map String.ofList).eraseDups

/-- The identifiers in the other list of a relation that has both lists. -/
def otherListIdentifiers (line : List Char) (argument : Option String) : List String :=
  match argument with
  | none => []
  | some argument =>
      if Catalogue.relationLists.contains argument ∧
          Catalogue.relationLists.all (fun name => occursIn name.toList line) then
        let other := if argument = "references" then "fields" else "references"
        bracketIdentifiers line other.toList
      else []

/-- The fields of a block that may stand in the list of an argument.  The line
being edited declares none of them. -/
def fieldCandidates? (block : BlockView) (line : List Char) (exclude : Option Int)
    (argument : Option String) : Option (List String) :=
  let used := otherListIdentifiers line argument
  (block.fieldNames? exclude).map fun names => names.filter fun name => !used.contains name

/-! ## Arguments of a relation -/

/-- The pattern `name:`, starting at a word boundary. -/
def namedArgumentPattern (name : List Char) : Pattern Unit := fun before text =>
  match atBoundary name before text with
  | none => none
  | some rest => if (trimStart rest).head? = some ':' then some () else none

/-- Whether the arguments already have one of that shape: its name with a colon,
or a quote if it has no name. -/
def hasShape (arguments : List Char) (shape : String) : Bool :=
  if shape = "\"\"" then arguments.contains '"'
  else
    (firstMatch (namedArgumentPattern (shape.toList.takeWhile (· != ':'))) arguments).isSome

def remainingShapes (arguments : List Char) : List String :=
  Catalogue.relationShapes.filter fun shape => !hasShape arguments shape

/-! ## Enums -/

/-- Whether the datasource can back enums, as far as the tree says, or the
document if there is no tree. -/
def enumsSupported (schema : Option Schema) (document : Option Document)
    (enumless : List String) : Bool :=
  match schema, document with
  | some schema, _ => !schema.usesProvider enumless
  | none, some document => !Scan.usesProvider document enumless
  | none, none => true

end SchemaAssist.Candidates
