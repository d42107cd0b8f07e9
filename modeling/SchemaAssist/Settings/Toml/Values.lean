/-
# SchemaAssist.Settings.Toml.Values — keys and values of a TOML document

A key is a list of parts with dots between them; a part is bare or a string on
one line.  A value is a string, a boolean, an array, an inline table, a number,
a date or a time.  Arrays may go over several lines and hold comments; inline
tables stand on one line, and no comma follows their last entry.

Values nest, so their readers count down a bound on the text still to come.  The
first thing that cannot be read refuses the document.
-/
import SchemaAssist.Settings.Toml.Strings
import SchemaAssist.Settings.Toml.Numbers
import SchemaAssist.Settings.Toml.Nest

namespace SchemaAssist.Toml

set_option autoImplicit false

/-! ## Keys -/

def isBareKeyChar (c : Char) : Bool := c.isAlphanum || c == '-' || c == '_'

def keyPart? : List Char → Option (String × List Char)
  | [] => none
  | '"' :: rest => (basicBody false .absent rest).map fun (text, rest) => (String.ofList text, rest)
  | '\'' :: rest => (literalBody rest).map fun (text, rest) => (String.ofList text, rest)
  | text =>
      let part := text.takeWhile isBareKeyChar
      if part.isEmpty then none else some (String.ofList part, text.drop part.length)

/-- Reads the parts of a key, and the blanks behind it. -/
def key? : Nat → List Char → Option (KeyPath × List Char)
  | 0, _ => none
  | bound + 1, text => do
      let (part, rest) ← keyPart? text
      match skipGap rest with
      | '.' :: rest =>
          let (path, rest) ← key? bound (skipGap rest)
          some (part :: path, rest)
      | rest => some ([part], rest)

/-! ## Values -/

/-- Skips blanks, line ends and comments. -/
def skipLines : Nat → List Char → Option (List Char)
  | 0, _ => none
  | bound + 1, text =>
      match text.dropWhile isWideGap with
      | '#' :: rest => do skipLines bound (← skipComment ('#' :: rest))
      | rest => some rest

abbrev ValueReader := List Char → Except Fault (Data × List Char)

def arrayItems (value : ValueReader) : Nat → List Char → Except Fault (List Data × List Char)
  | 0, _ => .error .malformed
  | bound + 1, text => do
      match ← required (skipLines bound text) with
      | ']' :: rest => .ok ([], rest)
      | text =>
          let (item, rest) ← value text
          match ← required (skipLines bound rest) with
          | ',' :: rest =>
              let (items, rest) ← arrayItems value bound rest
              .ok (item :: items, rest)
          | ']' :: rest => .ok ([item], rest)
          | _ => .error .malformed

/-- Reads a key, an equals sign and a value. -/
def pair (value : ValueReader) (text : List Char) : Except Fault (KeyPath × Data × List Char) := do
  let (path, rest) ← required (key? text.length text)
  match rest with
  | '=' :: rest =>
      let (data, rest) ← value (skipGap rest)
      .ok (path, data, rest)
  | _ => .error .malformed

/-- Whether nothing may be added to the value later. -/
def isCompound : Data → Bool
  | .list _ | .table _ => true
  | _ => false

/-- Adds an entry to an inline table, given the marks on its entries. -/
def addInline (marks : List PathMark) (entries : Entries) (path : KeyPath) (data : Data) :
    Option Entries := do
  let key ← path.getLast?
  if isMarked marks .frozen path then none
  else within false (writeNew key data) path.dropLast entries

/-- Reads the entries of an inline table up to its closing brace, given those read
so far and the marks on them. -/
def inlineEntries (value : ValueReader) :
    Nat → List PathMark → Entries → List Char → Except Fault (Entries × List Char)
  | 0, _, _, _ => .error .malformed
  | bound + 1, marks, entries, text => do
      let (path, data, rest) ← pair value text
      let entries ← required (addInline marks entries path data)
      match skipGap rest with
      | '\x7d' :: rest => .ok (entries, rest)
      | ',' :: rest =>
          let marks := if isCompound data then ⟨path, .frozen, true⟩ :: marks else marks
          inlineEntries value bound marks entries (skipGap rest)
      | _ => .error .malformed

def value : Nat → ValueReader
  | 0, _ => .error .malformed
  | bound + 1, text =>
      match text with
      | 't' :: 'r' :: 'u' :: 'e' :: rest => .ok (.bool true, rest)
      | 'f' :: 'a' :: 'l' :: 's' :: 'e' :: rest => .ok (.bool false, rest)
      | '[' :: rest =>
          (arrayItems (value bound) bound rest).map fun (items, rest) => (.list items, rest)
      | '\x7b' :: rest =>
          match skipGap rest with
          | '\x7d' :: rest => .ok (.table [], rest)
          | rest =>
              (inlineEntries (value bound) bound [] [] rest).map fun (entries, rest) =>
                (.table entries, rest)
      | '"' :: _ | '\'' :: _ =>
          (required (string? text)).map fun (text, rest) => (.text (String.ofList text), rest)
      | _ => scalar text

end SchemaAssist.Toml
