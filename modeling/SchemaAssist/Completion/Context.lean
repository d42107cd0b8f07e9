/-
# SchemaAssist.Completion.Context — what belongs at the cursor

The grammatical position of a cursor is told from the text in front of it on
its line and from the block around it.  Outside blocks a line starts with a
block keyword.  Inside a model or a type alias an open parenthesis decides
first: it belongs to the attribute in front of it, if that takes suggestions,
or to nothing.  Then an at-sign starts an attribute, the first word of a line
is a member, the second the type of a field, and all further ones attributes.
Assignments have a value behind their equals sign.

Main definitions: `openCall?`, `isInsideArgument`, `isTypePosition` and
`Context.atCursor`.
-/
import SchemaAssist.BlockView
import SchemaAssist.Text.Split

namespace SchemaAssist

set_option autoImplicit false

open Text

/-! ## Open attribute calls -/

/-- An attribute whose argument list is still open, and the text behind its
parenthesis. -/
structure OpenCall where
  name : String
  arguments : List Char
  deriving DecidableEq, Inhabited

/-- The last opening parenthesis that is not closed: the text in front of it,
reversed, and the text behind it.  The text to search is given reversed;
`closed` counts the closing parentheses already passed. -/
def uncovered? (closed : Nat) (behind : List Char) :
    List Char → Option (List Char × List Char)
  | [] => none
  | c :: rest =>
      if c = ')' then uncovered? (closed + 1) (c :: behind) rest
      else if c = '(' then
        match closed with
        | 0 => some (rest, behind)
        | closed + 1 => uncovered? closed (c :: behind) rest
      else uncovered? closed (c :: behind) rest

/-- The attribute at the end of a text that is given reversed, with one or two
at-signs; blanks may follow it. -/
def attributeAtEnd? (reversed : List Char) : Option String :=
  let text := reversed.dropWhile isBlank
  let name := text.takeWhile Scan.isMemberChar
  let signs := ((text.dropWhile Scan.isMemberChar).takeWhile (· == '@')).take 2
  if name.isEmpty || signs.isEmpty then none
  else some (String.ofList (signs ++ name.reverse))

/-- The attribute whose argument list is open at the end of the text.  `none` if
every parenthesis is closed, or the innermost open one belongs to nothing. -/
def openCall? (text : List Char) : Option OpenCall :=
  match uncovered? 0 [] text.reverse with
  | none => none
  | some (before, arguments) => (attributeAtEnd? before).map (⟨·, arguments⟩)

/-! ## Lists of arguments -/

/-- Whether a word names the argument: what stands before its first colon, but
for parentheses and commas around it. -/
def namesArgument (argument word : List Char) : Bool :=
  word.contains ':' &&
    trimWhere (fun c => c == '(' || c == ',') (word.takeWhile (· != ':')) == argument

/-- Whether, among words given last first, the list of an argument is still open:
its name comes before any closing bracket. -/
def isInsideArgumentWords (argument : List Char) : List (List Char) → Bool
  | [] => false
  | word :: rest =>
      if namesArgument argument word then !word.contains ']'
      else if word.contains ']' then false
      else isInsideArgumentWords argument rest

def isInsideArgument (argument text : List Char) : Bool :=
  isInsideArgumentWords argument (words text).reverse

/-! ## Positions on a line -/

/-- Whether the text is at most an indentation and the start of a word. -/
def isFirstWord (text : List Char) : Bool := (trimStart text).all isWordChar

def startsWithOneOf (starts word : List Char) : Bool := word.head?.any starts.contains

/-- Whether the line goes on with an argument list that an earlier line opened:
it starts with a named argument or a bracket. -/
def continuesArguments (text : List Char) : Bool :=
  match words text with
  | [] => false
  | word :: _ => word.contains ':' || startsWithOneOf ['(', ')', '[', ']'] word

/-- Whether the name of a field is complete and its type is not. -/
def isTypePosition (text : List Char) : Bool :=
  match words text with
  | [] => false
  | word :: rest =>
      if startsWithOneOf ['@'] word || (stripWord ['/', '/'] word).isSome then false
      else if continuesArguments text || (word :: rest).any (startsWithOneOf ['[']) then false
      else if text.getLast?.any isBlank then rest.isEmpty
      else
        match rest with
        | [second] => !startsWithOneOf ['@'] second
        | _ => false

def endsInAttribute (text : List Char) : Bool :=
  text.getLast? == some '@' || (words text).getLast?.any (startsWithOneOf ['@'])

/-! ## The context -/

/-- What may stand at the cursor. -/
inductive Context where
  | blockKind
  | firstMember
  | attributeName
  | attributeArgument
  | fieldType
  | fieldValue
  | nothing
  deriving DecidableEq, Inhabited

namespace Context

def label : Context → String
  | blockKind => "block_kind"
  | firstMember => "first_member"
  | attributeName => "attribute"
  | attributeArgument => "attribute_argument"
  | fieldType => "type"
  | fieldValue => "field_value"
  | nothing => "none"

def argumentAttributes : List String :=
  ["@default", "@relation", "@@unique", "@@id", "@@index"]

/-- The context behind a text that opens an argument list, continues one, or ends
in an attribute; `none` if it does none of these. -/
def ofAttributeText (text : List Char) : Option Context :=
  match openCall? text with
  | some call => some (if argumentAttributes.contains call.name then attributeArgument else nothing)
  | none =>
      if continuesArguments text then some nothing
      else if endsInAttribute text then some attributeName
      else none

def ofBodyText (kind : BlockKind) (text : List Char) : Context :=
  match if kind.holdsFields then ofAttributeText text else none with
  | some context => context
  | none =>
      if isFirstWord text then firstMember
      else if kind.holdsAssignments then if text.contains '=' then fieldValue else nothing
      else if kind.holdsFields then if isTypePosition text then fieldType else attributeName
      else nothing

def atCursor (document : Document) (cursor : Cursor) (block : Option BlockView) : Context :=
  let text := document.textBefore cursor
  match block with
  | none => if isFirstWord text then blockKind else nothing
  | some block =>
      if !block.isWellFormed then nothing
      else if (stripWord ['/', '/'] (trimStart text)).isSome then nothing
      else ofBodyText block.kind text

end Context

/-! ## At-signs in front of the cursor -/

/-- What the two characters in front of the cursor say about an attribute. -/
inductive AttributeStart where
  | block
  | field
  | plain
  deriving DecidableEq, Inhabited

namespace AttributeStart

def label : AttributeStart → String
  | block => "block_attribute_start"
  | field => "field_attribute_start"
  | plain => "plain_body"

def typed : AttributeStart → String
  | block => "@@"
  | field => "@"
  | plain => ""

/-- The start at a cursor: two at-signs, a space and one, or anything else. -/
def atCursor (document : Document) (cursor : Cursor) : AttributeStart :=
  let symbol := document.symbolBefore cursor 2
  if symbol = ['@', '@'] then block
  else if symbol = [' ', '@'] then field
  else plain

end AttributeStart

end SchemaAssist
