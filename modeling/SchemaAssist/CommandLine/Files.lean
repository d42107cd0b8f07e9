/-
# SchemaAssist.CommandLine.Files — the files that a command may read

A folder is where a command runs: its absolute location and the files in it, by
their names, absolute or relative to it.  Its subfolders are those that the names go through.
A path is followed part by part, and asking for one yields the text of a file or
says why there is none.  Parts and paths have a greatest length, and no path
holds the character with code 0.
-/
import SchemaAssist.Text.Path

namespace SchemaAssist

set_option autoImplicit false

open Text

/-- Parts with every `..` taken back together with the part before it. -/
def foldedParts (parts : List (List Char)) : List (List Char) :=
  parts.foldl (fun kept part => if part = ['.', '.'] then kept.dropLast else kept ++ [part]) []

/-- Why a path has no text. -/
inductive FileFault where
  | missing
  | notAFolder
  | isAFolder
  | tooLong
  | notAPath
  deriving DecidableEq, Inhabited

/-- The fault as the operating system puts it; it never sees what is no path. -/
def FileFault.text : FileFault → String
  | missing => "[Errno 2] No such file or directory"
  | notAFolder => "[Errno 20] Not a directory"
  | isAFolder => "[Errno 21] Is a directory"
  | tooLong => "[Errno 36] File name too long"
  | notAPath => "a path cannot hold the character with code 0"

/-- The bytes that a part of a path may have. -/
def partBound : Nat := 255

/-- The bytes that a path may have. -/
def pathBound : Nat := 4095

/-- A location and the files below it. -/
structure Folder where
  location : String
  files : List (String × String)
  deriving DecidableEq, Inhabited

namespace Folder

/-- A place in the file system: its parts from the root. -/
abbrev Spot := List (List Char)

def spot (folder : Folder) : Spot := pathParts folder.location.toList

def spotOf (folder : Folder) (path : String) : Spot :=
  foldedParts ((if path.toList.head? = some '/' then [] else folder.spot) ++ pathParts path.toList)

def fileAt? (folder : Folder) (spot : Spot) : Option String :=
  (folder.files.find? fun (name, _) => folder.spotOf name == spot).map (·.2)

/-- Whether a folder is at a place: the folder itself and those around it are, and
those that the names of files go through. -/
def hasFolderAt (folder : Folder) (spot : Spot) : Bool :=
  spot.isPrefixOf folder.spot ||
    folder.files.any fun (name, _) =>
      spot.isPrefixOf (folder.spotOf name) && spot != folder.spotOf name

def follow (folder : Folder) : Spot → List (List Char) → Except FileFault String
  | _, [] => .error .isAFolder
  | spot, part :: rest =>
      let next := if part = ['.', '.'] then spot.dropLast else spot ++ [part]
      if partBound < (String.ofList part).utf8ByteSize then .error .tooLong
      else if folder.hasFolderAt next then folder.follow next rest
      else
        match folder.fileAt? next with
        | none => .error .missing
        | some text => if rest.isEmpty then .ok text else .error .notAFolder

def read (folder : Folder) (path : String) : Except FileFault String :=
  let start := if path.toList.head? = some '/' then [] else folder.spot
  if path.toList.contains '\x00' then .error .notAPath
  else if pathBound < path.utf8ByteSize then .error .tooLong
  else folder.follow start (pathParts path.toList)

end Folder

/-! ## Neighbours and absolute paths -/

/-- The path of a file of that name beside the one at `path`. -/
def siblingPath (path name : String) : String :=
  let parts := (pathParts path.toList).dropLast ++ [name.toList]
  String.ofList (pathRoot path.toList ++ joinParts parts)

def absolutePath (location path : String) : String :=
  let whole := if path.toList.head? = some '/' then path else location ++ "/" ++ path
  String.ofList (pathRoot whole.toList ++ joinParts (foldedParts (pathParts whole.toList)))

end SchemaAssist
