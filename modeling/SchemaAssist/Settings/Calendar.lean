/-
# SchemaAssist.Settings.Calendar — dates and times in settings

A settings file may hold dates, times of day, and both together with or without
a distance from universal time.  They are no settings, but a message that
refuses one has to show it.
-/

namespace SchemaAssist

set_option autoImplicit false

structure Date where
  year : Nat
  month : Nat
  day : Nat
  deriving DecidableEq, Inhabited

namespace Date

def isLeapYear (year : Nat) : Bool :=
  year % 4 == 0 && (year % 100 != 0 || year % 400 == 0)

def daysIn (year month : Nat) : Nat :=
  if month = 2 then if isLeapYear year then 29 else 28
  else if month = 4 ∨ month = 6 ∨ month = 9 ∨ month = 11 then 30
  else 31

def isValid (date : Date) : Bool :=
  decide (1 ≤ date.year) && decide (1 ≤ date.month ∧ date.month ≤ 12) &&
    decide (1 ≤ date.day ∧ date.day ≤ daysIn date.year date.month)

/-- The numbers of a date, as a message lists them. -/
def parts (date : Date) : List String :=
  [toString date.year, toString date.month, toString date.day]

end Date

/-- A time of day, to the microsecond. -/
structure TimeOfDay where
  hour : Nat
  minute : Nat
  second : Nat
  micro : Nat
  deriving DecidableEq, Inhabited

/-- The numbers of a time, as a message lists them: seconds and microseconds are
left out when nothing but zeros would follow. -/
def TimeOfDay.parts (time : TimeOfDay) : List String :=
  let minutes := [toString time.hour, toString time.minute]
  if time.micro ≠ 0 then minutes ++ [toString time.second, toString time.micro]
  else if time.second ≠ 0 then minutes ++ [toString time.second]
  else minutes

/-- A distance from universal time, in minutes, as a message shows it.  Negative
ones are shown as a day less and the seconds that this is too much. -/
def zoneText (minutes : Int) : String :=
  if minutes = 0 then "datetime.timezone.utc"
  else
    let size :=
      if minutes < 0 then "days=-1, seconds=" ++ toString (86400 + minutes * 60)
      else "seconds=" ++ toString (minutes * 60)
    "datetime.timezone(datetime.timedelta(" ++ size ++ "))"

end SchemaAssist
