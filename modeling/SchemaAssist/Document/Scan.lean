/-
# SchemaAssist.Document.Scan — finding blocks without a tree

While a document does not parse, its blocks are found line by line:

* a *header* is a line `keyword Name {`, with any blanks around the words;
* a *boundary* is a header or a line whose first character is a closing brace.
  A block runs from its header to the next boundary, or to the end of the
  document if there is none;
* a header that also closes its brace is a block without a body;
* a *member* is the leading name of a body line: at most two at-signs and a run
  of word characters and dots.  Blank lines, comments and closing braces have
  none.

Main definitions: `header?`, `blockRange?`, `memberNames?`, `typeNames` and
`providers`.
-/
import SchemaAssist.Document
import SchemaAssist.Tree
import SchemaAssist.Text.Search

namespace SchemaAssist.Scan

set_option autoImplicit false

open Text

/-! ## Headers and boundaries -/

structure Header where
  kind : BlockKind
  name : String
  deriving DecidableEq, Inhabited

/-- The block keyword at the front of a text, and what follows it. -/
def leadingKeyword? (text : List Char) : Option (BlockKind × List Char) :=
  BlockKind.all.findSome? fun kind => (stripWord kind.keyword.toList text).map (kind, ·)

def header? (line : List Char) : Option Header :=
  match leadingKeyword? (trimStart line) with
  | none => none
  | some (kind, rest) =>
      let name := (trimStart rest).takeWhile isWordChar
      let behind := trimStart ((trimStart rest).dropWhile isWordChar)
      if rest.head?.any isBlank ∧ !name.isEmpty ∧ behind.head? = some '\x7b' then
        some ⟨kind, String.ofList name⟩
      else none

/-- Whether the first character of a line is a closing brace. -/
def startsWithBrace (line : List Char) : Bool := (trimStart line).head? == some '\x7d'

/-- Whether a block ends at this line. -/
def isBoundary (line : List Char) : Bool := (header? line).isSome || startsWithBrace line

/-- Whether a closing brace follows the first opening one. -/
def closesOnLine (line : List Char) : Bool :=
  (line.dropWhile (· != '\x7b')).contains '\x7d'

/-- Whether the line is a header whose block has a body. -/
def opensBody (line : List Char) : Bool := (header? line).isSome && !closesOnLine line

/-! ## Block ranges -/

def boundaryBefore? (lines : List (List Char)) (number : Nat) : Option Nat :=
  let above := lines.take number
  (above.reverse.findIdx? isBoundary).map fun distance => above.length - 1 - distance

/-- The first boundary after line `start`; without one, the end of the document,
or the line after `number` if that is further. -/
def boundaryAfter (lines : List (List Char)) (start number : Nat) : Nat :=
  match (lines.drop (start + 1)).findIdx? isBoundary with
  | some distance => start + 1 + distance
  | none => max lines.length (number + 1)

/-- The header and the end of the block whose body holds line `number`. -/
def blockRange? (lines : List (List Char)) (number : Int) : Option (Nat × Nat) :=
  if number < 0 then none
  else
    match boundaryBefore? lines number.toNat with
    | none => none
    | some start =>
        let stop := boundaryAfter lines start number.toNat
        if opensBody (lines.getD start []) ∧ number.toNat < stop then some (start, stop)
        else none

/-! ## Members -/

def isMemberChar (c : Char) : Bool := isWordChar c || c == '.'

def memberName? (line : List Char) : Option String :=
  let text := trim line
  let signs := (text.takeWhile (· == '@')).take 2
  let name := (text.drop signs.length).takeWhile isMemberChar
  if name.isEmpty then none else some (String.ofList (signs ++ name))

/-- The line of that number; negative numbers count from the end. -/
def lineAt? (lines : List (List Char)) (number : Int) : Option (List Char) :=
  let number := if number < 0 then number + lines.length else number
  if number < 0 then none else lines[number.toNat]?

/-- The names declared on `count` lines from line `number` on, without those on the
line `exclude`; `none` if one of the other lines does not exist. -/
def namesOn? (lines : List (List Char)) (exclude : Option Int) :
    Nat → Int → Option (List String)
  | 0, _ => some []
  | count + 1, number =>
      if exclude = some number then namesOn? lines exclude count (number + 1)
      else
        match lineAt? lines number with
        | none => none
        | some line =>
            (namesOn? lines exclude count (number + 1)).map ((memberName? line).toList ++ ·)

/-- The names declared strictly between `start` and `stop`, as far as there are
lines, without those on the line `exclude`.  Only a `start` far before the first
line leads to lines that do not exist. -/
def memberNames? (lines : List (List Char)) (start stop : Int) (exclude : Option Int) :
    Option (List String) :=
  namesOn? lines exclude (min stop lines.length - (start + 1)).toNat (start + 1)

/-! ## Types and providers -/

/-- The name of the model or enum that a line opens. -/
def typeName? (line : List Char) : Option String :=
  match header? line with
  | some ⟨.model, name⟩ | some ⟨.enum, name⟩ => some name
  | _ => none

/-- The names of all models and enums, without the one on the line `exclude`. -/
def typeNames (document : Document) (exclude : Option Int) : List String :=
  document.lines.zipIdx.filterMap fun (line, number) =>
    if exclude = some (number : Int) then none else typeName? line

/-- The pattern `provider = "…"` at the start of a word; it answers with the text
between the quotes. -/
def providerPattern : Pattern String := fun before text =>
  match atBoundary "provider".toList before text with
  | none => none
  | some rest =>
    match trimStart rest with
    | '=' :: rest =>
      match trimStart rest with
      | '"' :: rest =>
          if rest.contains '"' then some (String.ofList (rest.takeWhile (· != '"'))) else none
      | _ => none
    | _ => none

/-- The first provider assigned on these lines, up to the first line with a
closing brace. -/
def providerFrom : List (List Char) → Option String
  | [] => none
  | line :: rest =>
      match firstMatch providerPattern line with
      | some provider => some provider
      | none => if line.contains '\x7d' then none else providerFrom rest

/-- The providers assigned from every line on that mentions a datasource. -/
def providersIn : List (List Char) → List String
  | [] => []
  | line :: rest =>
      if occursIn "datasource".toList line then
        (providerFrom (line :: rest)).toList ++ providersIn rest
      else providersIn rest

def providers (document : Document) : List String := providersIn document.lines

def usesProvider (document : Document) (wanted : List String) : Bool :=
  (providers document).any wanted.contains

end SchemaAssist.Scan
