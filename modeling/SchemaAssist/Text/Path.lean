/-
# SchemaAssist.Text.Path — file names in their plain form

A path is shown without empty and `.` parts and without a slash at its end;
`..` stays.  A leading slash makes it absolute.  Exactly two leading slashes
stay two, and more count as one.  The path without any part is `.`.
-/
import SchemaAssist.Text.Split

namespace SchemaAssist.Text

set_option autoImplicit false

/-- The root that a path starts from: nothing for a relative one. -/
def pathRoot (path : List Char) : List Char :=
  match (path.takeWhile (· == '/')).length with
  | 0 => []
  | 2 => ['/', '/']
  | _ => ['/']

/-- The parts of a path that say something. -/
def pathParts (path : List Char) : List (List Char) :=
  (splitWhere (· == '/') path).filter fun part => !part.isEmpty && part != ['.']

def joinParts (parts : List (List Char)) : List Char := ['/'].intercalate parts

def plainPath (path : String) : String :=
  let plain := pathRoot path.toList ++ joinParts (pathParts path.toList)
  if plain.isEmpty then "." else String.ofList plain

end SchemaAssist.Text
