/-
# SchemaAssist.Settings.Data — what a settings file or an editor may hand over

Settings arrive as nested data: tables, lists, texts, numbers and so on.  A
table keeps its entries in the order in which they were written.  Data of the
wrong sort is shown to the reader in the message that refuses it
(`Data.shown`), unless it holds an integer that is too long for a message
(`Data.isShowable`).
-/
import SchemaAssist.Settings.Calendar
import SchemaAssist.Decimal.Shortest
import SchemaAssist.Text.Quoted

namespace SchemaAssist

set_option autoImplicit false

inductive Data where
  | null
  | bool (value : Bool)
  | int (value : Int)
  | float (value : Float)
  | text (value : String)
  | date (date : Date)
  | time (time : TimeOfDay)
  | dateTime (date : Date) (time : TimeOfDay) (zone : Option Int)
  | list (items : List Data)
  | table (entries : List (String × Data))
  deriving Inhabited

abbrev Entries := List (String × Data)

namespace Data

def enclosed (opening closing : String) (items : List String) : String :=
  opening ++ ", ".intercalate items ++ closing

mutual

def shown : Data → String
  | null => "None"
  | bool value => if value then "True" else "False"
  | int value => toString value
  | float value => Decimal.text value
  | text value => Text.quoted value
  | date d => enclosed "datetime.date(" ")" d.parts
  | time t => enclosed "datetime.time(" ")" t.parts
  | dateTime d t zone =>
      let zone := match zone with
        | none => []
        | some minutes => ["tzinfo=" ++ zoneText minutes]
      enclosed "datetime.datetime(" ")" (d.parts ++ t.parts ++ zone)
  | list items => enclosed "[" "]" (shownItems items)
  | table entries => enclosed "\x7b" "\x7d" (shownEntries entries)

def shownItems : List Data → List String
  | [] => []
  | item :: rest => shown item :: shownItems rest

def shownEntries : List (String × Data) → List String
  | [] => []
  | (key, value) :: rest => (Text.quoted key ++ ": " ++ shown value) :: shownEntries rest

end

/-! ## Long integers -/

/-- The digits that an integer may have in decimal notation.  Longer ones are
neither read from decimal digits nor shown. -/
def digitBound : Nat := 4300

mutual

/-- Whether no integer in the data is too long to be shown. -/
def isShowable : Data → Bool
  | int value => decide (value.natAbs < Nat.pow 10 digitBound)
  | list items => itemsShowable items
  | table entries => entriesShowable entries
  | _ => true

def itemsShowable : List Data → Bool
  | [] => true
  | item :: rest => isShowable item && itemsShowable rest

def entriesShowable : List (String × Data) → Bool
  | [] => true
  | (_, value) :: rest => isShowable value && entriesShowable rest

end

/-! ## Texts -/

def text? : Data → Option String
  | text value => some value
  | _ => none

/-- The texts of a list that holds nothing else. -/
def texts? : Data → Option (List String)
  | list items => items.mapM text?
  | _ => none

end Data

end SchemaAssist
