/-
# SchemaAssist.Settings.Toml.Strings — strings and gaps of a TOML document

A basic string stands between double quotes and has escapes, a literal string
stands between single quotes and has none.  Three quotes in a row open a string
that may go over several lines; a line feed right behind them is dropped, and up
to two further quotes may stand right in front of the closing three.  In such a
basic string a backslash at the end of a line joins it with the next text,
without the blanks and line ends between.  Control characters other than the
tab are not allowed, nor is any other escape.

All readers take the text still to come and answer with what they read and the
rest; `none` means that the text is no TOML.
-/
import SchemaAssist.Text.Percent

namespace SchemaAssist.Toml

set_option autoImplicit false

/-- Whether `c` is a control character other than the tab. -/
def isControl (c : Char) : Bool := (decide (c.toNat < 32) && c != '\t') || c.toNat == 127

/-- Whether `c` separates words on a line. -/
def isGap (c : Char) : Bool := c == ' ' || c == '\t'

/-- Whether `c` separates words or lines. -/
def isWideGap (c : Char) : Bool := isGap c || c == '\n'

def skipGap (text : List Char) : List Char := text.dropWhile isGap

def skipComment : List Char → Option (List Char)
  | '#' :: rest =>
      let comment := rest.takeWhile (· != '\n')
      if comment.any isControl then none else some (rest.drop comment.length)
  | text => some text

/-! ## Basic strings -/

/-- How far a line continuation has got: there is none, its line end is still to
come, or the blanks behind its line end are being dropped. -/
inductive Continuation where
  | absent
  | lineEndDue
  | dropping
  deriving DecidableEq, Inhabited

def escaped? : Char → Option Char
  | 'b' => some '\x08'
  | 't' => some '\t'
  | 'n' => some '\n'
  | 'f' => some '\x0c'
  | 'r' => some '\r'
  | '"' => some '"'
  | '\\' => some '\\'
  | _ => none

def hexChar? (digits : List Char) : Option Char := do
  let values ← digits.mapM Text.hexValue?
  let n := values.foldl (fun n digit => 16 * n + digit) 0
  if n.isValidChar then some (Char.ofNat n) else none

/-- The text of a basic string up to its closing quotes, and the rest behind
them. -/
def basicBody (isMultiline : Bool) : Continuation → List Char → Option (List Char × List Char)
  | _, [] => none
  | .lineEndDue, c :: rest =>
      if isGap c then basicBody isMultiline .lineEndDue rest
      else if c = '\n' then basicBody isMultiline .dropping rest
      else none
  | state, c :: rest =>
      let literally := fun (c : Char) (tail : Option (List Char × List Char)) =>
        tail.map fun (text, rest) => (c :: text, rest)
      if state = .dropping ∧ isWideGap c then basicBody isMultiline .dropping rest
      else if c = '"' then
        if !isMultiline then some ([], rest)
        else
          match rest with
          | '"' :: '"' :: behind => some ([], behind)
          | _ => literally c (basicBody isMultiline .absent rest)
      else if c = '\\' then
        match rest with
        | [] => none
        | 'u' :: d₁ :: d₂ :: d₃ :: d₄ :: rest =>
            match hexChar? [d₁, d₂, d₃, d₄] with
            | none => none
            | some c => literally c (basicBody isMultiline .absent rest)
        | 'U' :: d₁ :: d₂ :: d₃ :: d₄ :: d₅ :: d₆ :: d₇ :: d₈ :: rest =>
            match hexChar? [d₁, d₂, d₃, d₄, d₅, d₆, d₇, d₈] with
            | none => none
            | some c => literally c (basicBody isMultiline .absent rest)
        | e :: rest =>
            if isMultiline ∧ e = '\n' then basicBody isMultiline .dropping rest
            else if isMultiline ∧ isGap e then basicBody isMultiline .lineEndDue rest
            else
              match escaped? e with
              | none => none
              | some c => literally c (basicBody isMultiline .absent rest)
      else if isControl c ∧ !(isMultiline ∧ c = '\n') then none
      else literally c (basicBody isMultiline .absent rest)

/-! ## Literal strings -/

/-- The text up to the first three single quotes, and the rest behind them. -/
def untilTriple : List Char → Option (List Char × List Char)
  | [] => none
  | '\'' :: '\'' :: '\'' :: rest => some ([], rest)
  | c :: rest => (untilTriple rest).map fun (text, rest) => (c :: text, rest)

/-- The text of a literal string whose opening quote has been read. -/
def literalBody (text : List Char) : Option (List Char × List Char) :=
  let body := text.takeWhile (· != '\'')
  match text.drop body.length with
  | '\'' :: rest => if body.any isControl then none else some (body, rest)
  | _ => none

/-! ## Strings of either sort -/

/-- Adds the further quotes in front of the closing three, which have been read
as if they were the first. -/
def withFinalQuotes (quote : Char) (text rest : List Char) : List Char × List Char :=
  let more := (rest.takeWhile (· == quote)).take 2
  (text ++ more, rest.drop more.length)

def skipLineFeed : List Char → List Char
  | '\n' :: rest => rest
  | text => text

def string? : List Char → Option (List Char × List Char)
  | '"' :: '"' :: '"' :: rest =>
      (basicBody true .absent (skipLineFeed rest)).map fun (text, rest) =>
        withFinalQuotes '"' text rest
  | '"' :: rest => basicBody false .absent rest
  | '\'' :: '\'' :: '\'' :: rest =>
      match untilTriple (skipLineFeed rest) with
      | none => none
      | some (text, rest) =>
          if text.any fun c => isControl c && c != '\n' then none
          else some (withFinalQuotes '\'' text rest)
  | '\'' :: rest => literalBody rest
  | _ => none

end SchemaAssist.Toml
