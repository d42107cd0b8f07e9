/-
# SchemaAssist.Diagnostic — how a fault is shown

A diagnostic is a message, possibly at a place of a file.  With a place it is
shown as the place (`file:line:column`), then the source lines around it, then
the message.  Of the source, the line itself and up to two lines before it are
shown, each behind its number, and a marker stands under the column.
-/
import SchemaAssist.Text.Lines

namespace SchemaAssist

set_option autoImplicit false

open Text

/-- A place of a file, counted from one, and the source lines shown with it. -/
structure Place where
  file : String
  line : Int
  column : Int
  excerpt : Option String
  deriving Inhabited

structure Diagnostic where
  detail : String
  place : Option Place
  deriving Inhabited

def excerptStart (line : Int) : Int := max 1 (line - 2)

/-- The line and the two before it, as far as the text has them. -/
def excerptOf (text : String) (line : Int) : String :=
  let shown := slice (feedLines text.toList) (excerptStart line - 1).toNat line
  "\n".intercalate (shown.map String.ofList)

def padStart (width : Nat) (text : String) : String :=
  String.ofList (List.replicate (width - text.length) ' ') ++ text

namespace Place

def margin (number : Int) : String := padStart 4 (toString number) ++ " | "

def marker (place : Place) : String :=
  let indent := ((margin place.line).length + place.column - 1).toNat
  String.ofList (List.replicate indent ' ') ++ "^^^"

/-- The lines of the excerpt, from line `number` on, with the marker. -/
def numbered (place : Place) : Int → List String → List String
  | _, [] => []
  | number, source :: rest =>
      let shown := margin number ++ source
      if number = place.line then shown :: place.marker :: place.numbered (number + 1) rest
      else shown :: place.numbered (number + 1) rest

def text (place : Place) : String :=
  let spot := place.file ++ ":" ++ toString place.line ++ ":" ++ toString place.column
  match place.excerpt with
  | none => spot
  | some excerpt =>
      if excerpt.isEmpty then spot
      else
        let source := (feedLines excerpt.toList).map String.ofList
        "\n".intercalate (spot :: place.numbered (excerptStart place.line) source)

end Place

def Diagnostic.text (diagnostic : Diagnostic) : String :=
  match diagnostic.place with
  | none => diagnostic.detail
  | some place => place.text ++ "\n" ++ diagnostic.detail

end SchemaAssist
