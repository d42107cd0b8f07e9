/-
# SchemaAssist.Settings.Toml.Nest — tables within tables

The keys of a TOML document lead through nested tables (`within`).  Tables that
do not exist yet are made on the way; a list of tables is entered at its last
table; anything else in the way is an error.  A key is written once.

Two marks keep parts of the document from being written again: a *declared*
table may not be declared by another heading, nor extended by a dotted key; a
*frozen* value was written in one piece, and nothing inside it may change.  A
mark may hold for one path, or for all paths that go through it.
-/
import SchemaAssist.Settings.Data

namespace SchemaAssist.Toml

set_option autoImplicit false

abbrev KeyPath := List String

/-- The entries with the value of a key replaced, or added at the end. -/
def putEntry (key : String) (value : Data) : Entries → Entries
  | [] => [(key, value)]
  | entry :: rest =>
      if entry.1 = key then (key, value) :: rest else entry :: putEntry key value rest

/-- Change the entries of the table that a path leads to.  `entersLists` says
whether it may lead through lists of tables. -/
def within (entersLists : Bool) (change : Entries → Option Entries) :
    KeyPath → Entries → Option Entries
  | [], entries => change entries
  | key :: path, entries =>
      match entries.lookup key with
      | none => (within entersLists change path []).map fun inner =>
          putEntry key (.table inner) entries
      | some (.table inner) => (within entersLists change path inner).map fun inner =>
          putEntry key (.table inner) entries
      | some (.list items) =>
          match entersLists, items.getLast? with
          | true, some (.table inner) => (within entersLists change path inner).map fun inner =>
              putEntry key (.list (items.dropLast ++ [.table inner])) entries
          | _, _ => none
      | some _ => none

/-- Write a value under a key that has none. -/
def writeNew (key : String) (value : Data) (entries : Entries) : Option Entries :=
  if (entries.lookup key).isSome then none else some (putEntry key value entries)

def appendTable (key : String) (entries : Entries) : Option Entries :=
  match entries.lookup key with
  | none => some (putEntry key (.list [.table []]) entries)
  | some (.list items) => some (putEntry key (.list (items ++ [.table []])) entries)
  | some _ => none

/-! ## Marks -/

/-- What a mark forbids. -/
inductive MarkKind where
  | declared
  | frozen
  deriving DecidableEq, Inhabited

/-- A mark on a path; a deep one holds for all paths through it. -/
structure PathMark where
  path : KeyPath
  kind : MarkKind
  isDeep : Bool
  deriving DecidableEq, Inhabited

/-- Whether a path has a mark of that kind.  The document itself has none. -/
def isMarked (marks : List PathMark) (kind : MarkKind) (path : KeyPath) : Bool :=
  !path.isEmpty && marks.any fun mark =>
    mark.kind == kind && (mark.path == path || (mark.isDeep && mark.path.isPrefixOf path))

def withoutMarks (marks : List PathMark) (path : KeyPath) : List PathMark :=
  marks.filter fun mark => !path.isPrefixOf mark.path

end SchemaAssist.Toml
