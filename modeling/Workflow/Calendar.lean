import Workflow.Text.Quoted

/-!
# Dates and times

Dates of the Gregorian calendar and times of day with an optional offset from universal time, with
their ISO 8601 text. A date is checked field by field, the month first.
-/

namespace Workflow

structure Date where
  year : Nat
  month : Nat
  day : Nat
  deriving DecidableEq

structure DateTime where
  date : Date
  hour : Nat
  minute : Nat
  second : Nat
  micro : Nat
  /-- Seconds east of universal time. -/
  offset : Option Int
  deriving DecidableEq

def padded (width n : Nat) : List Char :=
  let ds := (toString n).toList
  List.replicate (width - ds.length) '0' ++ ds

def isLeapYear (y : Nat) : Bool := y % 4 = 0 && (y % 100 ≠ 0 || y % 400 = 0)

def daysInMonth (y m : Nat) : Nat :=
  if m = 2 then (if isLeapYear y then 29 else 28)
  else if m = 4 ∨ m = 6 ∨ m = 9 ∨ m = 11 then 30 else 31

/-- A field of a date or time outside its range. -/
inductive CalendarFault where
  | year (y : Nat) | month | day | hour | minute | second | offset (text : String)
  deriving DecidableEq

def CalendarFault.message : CalendarFault → String
  | year y => s!"year {y} is out of range"
  | month => "month must be in 1..12"
  | day => "day is out of range for month"
  | hour => "hour must be in 0..23"
  | minute => "minute must be in 0..59"
  | second => "second must be in 0..59"
  | offset text => "offset must be a timedelta strictly between -timedelta(hours=24) and " ++
      "timedelta(hours=24), not " ++ text ++ "."

def Date.fault? (d : Date) : Option CalendarFault :=
  if d.year < 1 ∨ 9999 < d.year then some (.year d.year)
  else if d.month < 1 ∨ 12 < d.month then some .month
  else if d.day < 1 ∨ daysInMonth d.year d.month < d.day then some .day
  else none

def DateTime.fault? (t : DateTime) : Option CalendarFault :=
  t.date.fault?.or
    (if 23 < t.hour then some .hour
     else if 59 < t.minute then some .minute
     else if 59 < t.second then some .second
     else none)

def Date.isoChars (d : Date) : List Char :=
  padded 4 d.year ++ '-' :: padded 2 d.month ++ '-' :: padded 2 d.day

def Date.iso (d : Date) : String := String.ofList d.isoChars

/-- An offset as a sign, hours and minutes, and seconds only where they are not zero. -/
def offsetChars (seconds : Int) : List Char :=
  let s := seconds.natAbs
  (if seconds < 0 then '-' else '+') :: padded 2 (s / 3600) ++ ':' :: padded 2 (s / 60 % 60) ++
    (if s % 60 = 0 then [] else ':' :: padded 2 (s % 60))

def DateTime.isoWith (separator : Char) (t : DateTime) : String :=
  String.ofList <|
    t.date.isoChars ++ separator :: padded 2 t.hour ++ ':' :: padded 2 t.minute ++ ':' :: padded 2 t.second ++
      (if t.micro = 0 then [] else '.' :: padded 6 t.micro) ++ (t.offset.map offsetChars).getD []

def DateTime.iso (t : DateTime) : String := t.isoWith 'T'

end Workflow
