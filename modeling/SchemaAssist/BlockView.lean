/-
# SchemaAssist.BlockView — the block under the cursor, from a tree or from lines

Completion looks at a block through one interface, whether it was parsed or
found by scanning: its kind, name and first and last line, and the names of its
members.  Members of a parsed block come from its tree, in order of line and
then of name; assignments keep the order of the tree.  Members of a scanned
block come from its body lines.  They cannot be listed if it starts so far before
its lines that some body line does not exist; no block found in a document does.
-/
import SchemaAssist.Document.Scan
import SchemaAssist.Text.Quoted

namespace SchemaAssist

set_option autoImplicit false

/-! ## Parsed blocks -/

def declaredBefore (first second : Int × String) : Bool :=
  decide (first.1 < second.1) || (first.1 == second.1 && !decide (second.2 < first.2))

def insertDeclared (name : Int × String) : List (Int × String) → List (Int × String)
  | [] => [name]
  | other :: rest =>
      if declaredBefore name other then name :: other :: rest
      else other :: insertDeclared name rest

/-- The names in order of line, and on one line in order of name. -/
def sortDeclared (names : List (Int × String)) : List (Int × String) :=
  names.foldr insertDeclared []

def Block.declaredNames (block : Block) : List (Int × String) :=
  if block.kind.holdsAssignments then block.assignments.map fun a => (a.line, a.key)
  else
    let own :=
      if block.kind = .enum then block.values.map fun v => (v.line, v.name)
      else block.fields.map fun f => (f.line, f.name)
    sortDeclared (own ++ block.attributes.map fun a => (a.line, a.label))

/-- The names a block declares, without those on the line `exclude`. -/
def Block.memberNames (block : Block) (exclude : Option Int) : List String :=
  (block.declaredNames.filter fun (line, _) => exclude != some line).map (·.2)

/-! ## Scanned blocks -/

/-- A block found by scanning, with the lines of its document. -/
structure ScannedBlock where
  kind : BlockKind
  name : String
  startLine : Int
  endLine : Int
  lines : List (List Char)
  deriving DecidableEq, Inhabited

namespace ScannedBlock

/-- The names on the body lines, without those on the line `exclude`, if all other
body lines exist. -/
def memberNames? (block : ScannedBlock) (exclude : Option Int) : Option (List String) :=
  Scan.memberNames? block.lines block.startLine block.endLine exclude

def ofRange? (document : Document) (startLine endLine : Int) : Option ScannedBlock :=
  (Scan.header? (document.line startLine)).map fun header =>
    ⟨header.kind, header.name, startLine, endLine, document.lines⟩

/-- The block whose body holds the line. -/
def at? (document : Document) (line : Int) : Option ScannedBlock :=
  (Scan.blockRange? document.lines line).bind fun (start, stop) =>
    ofRange? document start stop

end ScannedBlock

/-! ## The common view -/

/-- A block, as parsed or as scanned. -/
inductive BlockView where
  | parsed (block : Block)
  | scanned (block : ScannedBlock)
  deriving DecidableEq, Inhabited

namespace BlockView

def kind : BlockView → BlockKind
  | parsed block => block.kind
  | scanned block => block.kind

def name : BlockView → String
  | parsed block => block.name
  | scanned block => block.name

def startLine : BlockView → Int
  | parsed block => block.startLine
  | scanned block => block.startLine

/-- The line of the closing brace, or of whatever ends the block. -/
def endLine : BlockView → Int
  | parsed block => block.endLine
  | scanned block => block.endLine

/-- The names of the members, without those on the line `exclude`; `none` if they
cannot be listed. -/
def memberNames? (view : BlockView) (exclude : Option Int) : Option (List String) :=
  match view with
  | parsed block => some (block.memberNames exclude)
  | scanned block => block.memberNames? exclude

/-- The members that are fields, assignments or enum values. -/
def fieldNames? (view : BlockView) (exclude : Option Int) : Option (List String) :=
  (view.memberNames? exclude).map fun names =>
    names.filter fun name => name.toList.head? != some '@'

/-- Whether the block does not end before it starts. -/
def isWellFormed (view : BlockView) : Bool := decide (view.startLine ≤ view.endLine)

/-- Whether the line lies strictly between header and end. -/
def containsLine (view : BlockView) (line : Int) : Bool :=
  decide (view.startLine < line) && decide (line < view.endLine)

def text (view : BlockView) : String :=
  let origin := match view with
    | parsed _ => "ParsedBlock"
    | scanned _ => "ScannedBlock"
  origin ++ "(" ++ view.kind.keyword ++ " " ++ Text.quoted view.name ++ ", lines " ++
    toString view.startLine ++ "-" ++ toString view.endLine ++ ")"

/-- The block whose body holds the line: from the tree if there is one, by
scanning otherwise. -/
def find? (document : Document) (line : Int) : Option Schema → Option BlockView
  | some schema => (schema.blockAtLine? line).map parsed
  | none => (ScannedBlock.at? document line).map scanned

end BlockView

end SchemaAssist
