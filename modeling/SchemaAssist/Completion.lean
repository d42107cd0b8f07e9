/-
# SchemaAssist.Completion — the suggestions at a cursor

One function per grammatical position lists what may stand there, and
`Completion.items` finds the block around the cursor, tells the position and
asks the right one.  The tree is optional: without it, blocks, types and
providers are found by scanning the lines.

Positions that ask for the members of a block answer with `none` if these cannot
be listed, which never happens for a block found in the document.
-/
import SchemaAssist.Completion.Context
import SchemaAssist.Completion.Candidates
import SchemaAssist.Settings.Basic

namespace SchemaAssist

set_option autoImplicit false

open Text

/-- A suggestion.  `insertText` is what accepting it inserts, if that is not the
label; `target` says what a suggested attribute is attached to. -/
structure Item where
  label : String
  kind : ItemKind
  detail : Option String
  documentation : Option String
  insertText : Option String
  target : Option Target
  deriving DecidableEq, Inhabited

namespace Item

def ofEntry (entry : Entry) : Item :=
  ⟨entry.label, entry.kind, entry.detail, entry.documentation, none, none⟩

def ofLabel (kind : ItemKind) (label : String) : Item := ⟨label, kind, none, none, none, none⟩

/-- An attribute, with the at-signs that are still to be typed. -/
def ofSpec (typed : String) (spec : AttributeSpec) : Item where
  label := String.ofList (spec.target.signs.toList.drop typed.length) ++ spec.label
  kind := .property
  detail := spec.detail
  documentation := spec.documentation
  insertText := none
  target := some spec.target

end Item

namespace Completion

def isInsideString (text : List Char) : Bool := text.count '"' % 2 == 1

/-! ## The positions -/

def blockKindItems (schema : Option Schema) (document : Option Document)
    (settings : CompletionSettings) : List Item :=
  let hasEnums := Candidates.enumsSupported schema document settings.enumlessProviders
  let kinds := Catalogue.blockKinds
  (if hasEnums then kinds else Candidates.withoutKind kinds .enum).map .ofEntry

/-- The members that a line may start with: keys that are not assigned yet, or
block attributes. -/
def firstMemberItems? (kind : Option BlockKind) (document : Document) (cursor : Cursor)
    (schema : Option Schema) (block : Option BlockView) : Option (List Item) :=
  if block.any (!·.isWellFormed) then some []
  else if kind.any BlockKind.holdsAssignments then
    let block := block.or (BlockView.find? document cursor.line schema)
    (Candidates.unusedKeys? kind block (some cursor.line)).map (·.map .ofEntry)
  else some ((Catalogue.blockAttributesOf kind).map (.ofSpec ""))

/-- The attributes of a field, and those of its block. -/
def attributeItems (kind : Option BlockKind) (document : Document) (cursor : Cursor) :
    List Item :=
  let start := AttributeStart.atCursor document cursor
  let forField :=
    if start = .block then [] else Catalogue.fieldAttributesOf kind (document.line cursor.line)
  (forField ++ Catalogue.blockAttributesOf kind).map (.ofSpec start.typed)

/-- The models and enums that a field may have as its type: those of the tree
under another name, or those declared on another line than the block itself. -/
def declaredTypes (block : Option BlockView) (document : Document) :
    Option Schema → List String
  | some schema =>
      ((schema.blocksOfKind [.model, .enum]).filter fun other =>
        block.map (·.name) != some other.name).map (·.name)
  | none => Scan.typeNames document (block.map (·.startLine))

def typeItems (block : Option BlockView) (document : Document) (schema : Option Schema) :
    List Item :=
  if block.any (!·.isWellFormed) then []
  else
    Catalogue.scalarTypes.map .ofEntry ++
      (declaredTypes block document schema).map (.ofLabel .typeParameter)

/-- The values of a `provider`, in quotes unless one is already open. -/
def fieldValueItems (kind : Option BlockKind) (document : Document) (cursor : Cursor)
    (settings : CompletionSettings) : List Item :=
  let line := document.line cursor.line
  if (stripWord "provider".toList (trim line)).isNone then []
  else
    let isQuoted := isInsideString (document.textBefore cursor)
    (Catalogue.providersOf kind settings.generatorProviders).map fun value =>
      { Item.ofLabel .field value with
        insertText := some (if isQuoted then value else "\"" ++ value ++ "\"") }

/-- The fields of a block that may stand in a list at the cursor. -/
def fieldItems? (block : BlockView) (line : List Char) (cursorLine : Int)
    (argument : Option String) : Option (List Item) :=
  (Candidates.fieldCandidates? block line (some cursorLine) argument).map
    (·.map (.ofLabel .field))

/-- The arguments of a relation: fields inside its lists, and otherwise the
arguments that it does not have yet. -/
def relationItems? (block : BlockView) (line : List Char) (cursorLine : Int)
    (arguments : List Char) : Option (List Item) :=
  match Catalogue.relationLists.find? fun name => isInsideArgument name.toList arguments with
  | some name => fieldItems? block line cursorLine (some name)
  | none =>
      if arguments.count '[' ≤ arguments.count ']' then
        some ((Candidates.remainingShapes arguments).map (.ofLabel .property))
      else some []

def fieldListAttributes : List String := ["@@unique", "@@id", "@@index"]

def argumentItems? (document : Document) (cursor : Cursor) (block : Option BlockView) :
    Option (List Item) :=
  match block, openCall? (document.textBefore cursor) with
  | some block, some call =>
      let line := document.line cursor.line
      if !block.isWellFormed || isInsideString call.arguments then some []
      else if call.name = "@default" then
        some ((Catalogue.defaultFunctions line).map (.ofLabel .function))
      else if call.name = "@relation" then
        relationItems? block line cursor.line call.arguments
      else if fieldListAttributes.contains call.name then
        fieldItems? block line cursor.line none
      else some []
  | _, _ => some []

/-! ## All positions -/

def itemsIn (context : Context) (document : Document) (cursor : Cursor)
    (schema : Option Schema) (settings : CompletionSettings) (block : Option BlockView) :
    List Item :=
  match context, block with
  | .blockKind, _ => blockKindItems schema document settings
  | .nothing, _ => []
  | _, none => []
  | .firstMember, some view =>
      (firstMemberItems? view.kind document cursor schema view).getD []
  | .attributeName, some view => attributeItems view.kind document cursor
  | .attributeArgument, some view => (argumentItems? document cursor view).getD []
  | .fieldType, some view => typeItems view document schema
  | .fieldValue, some view => fieldValueItems view.kind document cursor settings

/-- The suggestions at a cursor; none if it lies outside the document. -/
def items (document : Document) (cursor : Cursor) (schema : Option Schema)
    (settings : CompletionSettings) : List Item :=
  if cursor.line < 0 ∨ cursor.character < 0 ∨ document.lines.length < cursor.line then []
  else
    let block := BlockView.find? document cursor.line schema
    itemsIn (Context.atCursor document cursor block) document cursor schema settings block

end Completion

end SchemaAssist
