/-
# SchemaAssist.Settings.Toml — a TOML document read into data

A document is a list of statements, one a line: a key with its value, the
heading of a table in brackets, the heading of a further table of a list in
double brackets, or nothing, each perhaps with a comment.  Keys belong to the
table headed last.

A table that a dotted key leads through counts as declared from the next heading
on.  A value in brackets or braces is frozen.
-/
import SchemaAssist.Settings.Toml.Values

namespace SchemaAssist.Toml

set_option autoImplicit false

/-- What has been read of a document: its data, the marks on its paths, the paths
that count as declared from the next heading on, and the table headed last. -/
structure Progress where
  entries : Entries
  marks : List PathMark
  pending : List KeyPath
  heading : KeyPath
  deriving Inhabited

namespace Progress

def start : Progress := ⟨[], [], [], []⟩

/-- The progress at a heading. -/
def settled (progress : Progress) : Progress :=
  { progress with
    marks := progress.pending.map (⟨·, .declared, false⟩) ++ progress.marks
    pending := [] }

def write (progress : Progress) (path : KeyPath) (value : Data) : Option Progress := do
  let key ← path.getLast?
  let containers := (List.range (path.length - 1)).map fun (fewer : Nat) =>
    progress.heading ++ path.take (fewer + 1)
  let nest := progress.heading ++ path.dropLast
  if containers.any (isMarked progress.marks .declared) then none
  else if isMarked progress.marks .frozen nest then none
  else
    let entries ← within true (writeNew key value) nest progress.entries
    let marks :=
      if isCompound value then ⟨progress.heading ++ path, .frozen, true⟩ :: progress.marks
      else progress.marks
    some { progress with entries, marks, pending := containers ++ progress.pending }

def headTable (progress : Progress) (path : KeyPath) : Option Progress :=
  if isMarked progress.marks .declared path || isMarked progress.marks .frozen path then none
  else
    (within true some path progress.entries).map fun entries =>
      { progress with
        entries
        marks := ⟨path, .declared, false⟩ :: progress.marks
        heading := path }

/-- Head a further table of a list.  What was known of the table before it is
forgotten. -/
def headListed (progress : Progress) (path : KeyPath) : Option Progress := do
  let key ← path.getLast?
  if isMarked progress.marks .frozen path then none
  else
    let entries ← within true (appendTable key) path.dropLast progress.entries
    some { progress with
      entries
      marks := ⟨path, .declared, false⟩ :: withoutMarks progress.marks path
      heading := path }

end Progress

/-- Reads the heading of a table, whose opening bracket has been read. -/
def heading? (progress : Progress) (text : List Char) : Option (Progress × List Char) := do
  let (path, rest) ← key? text.length (skipGap text)
  match rest with
  | ']' :: rest => some (← progress.settled.headTable path, skipGap rest)
  | _ => none

/-- Reads the heading of a further table of a list, whose opening brackets have
been read. -/
def listHeading? (progress : Progress) (text : List Char) : Option (Progress × List Char) := do
  let (path, rest) ← key? text.length (skipGap text)
  match rest with
  | ']' :: ']' :: rest => some (← progress.settled.headListed path, skipGap rest)
  | _ => none

/-- Reads the statement in front, up to the end of its line or a comment. -/
def statement (progress : Progress) (text : List Char) : Except Fault (Progress × List Char) :=
  match text with
  | [] => .ok (progress, [])
  | '\n' :: _ | '#' :: _ => .ok (progress, text)
  | '[' :: '[' :: rest => required (listHeading? progress rest)
  | '[' :: rest => required (heading? progress rest)
  | text => do
      let (path, data, rest) ← pair (value text.length) text
      .ok (← required (progress.write path data), skipGap rest)

def statements : Nat → Progress → List Char → Except Fault Progress
  | 0, _, _ => .error .malformed
  | bound + 1, progress, text => do
      let (progress, rest) ← statement progress (skipGap text)
      match ← required (skipComment rest) with
      | [] => .ok progress
      | '\n' :: rest => statements bound progress rest
      | _ => .error .malformed

def parse (text : String) : Except Fault Entries :=
  (statements (text.length + 1) .start text.toList).map (·.entries)

end SchemaAssist.Toml
