/-
Days and times of day.

A date is a day of the Gregorian calendar, from year 1 to year 9999. A moment is a date and a
time of day to the microsecond; it may say how far its clock is ahead of universal time, by less
than a day. Numbers that make no date or no moment are told apart by the first that is out of
range.
-/

namespace InferTrace.Calendar

/-- Why numbers make no date or no moment: which of them is out of range. -/
inductive Fault where
  | year (year : Nat)
  | month
  | day
  | hour
  | minute
  | second
  /-- The distance from universal time, in minutes. -/
  | offset (minutes : Int)
deriving DecidableEq, Repr

/-- A day. -/
structure Date where
  year : Nat
  month : Nat
  day : Nat
deriving DecidableEq, Repr

/-- A day and a time of day. -/
structure Moment where
  date : Date
  hour : Nat
  minute : Nat
  second : Nat
  micro : Nat
  offset : Option Int := none
deriving DecidableEq, Repr

-- ============================================================ calendar

/-- The year has a 29th of February. -/
def isLeap (year : Nat) : Bool := year % 4 == 0 && (year % 100 != 0 || year % 400 == 0)

/-- The number of days in a month. -/
def daysIn (year month : Nat) : Nat :=
  if month = 2 then (if isLeap year then 29 else 28)
  else if [4, 6, 9, 11].contains month then 30
  else 31

/-- The date of a year, a month and a day. -/
def Date.make (year month day : Nat) : Except Fault Date :=
  if year = 0 ∨ 9999 < year then .error (.year year)
  else if month = 0 ∨ 12 < month then .error .month
  else if day = 0 ∨ daysIn year month < day then .error .day
  else .ok { year, month, day }

/-- The moment of its parts. The distance from universal time is looked at first. -/
def Moment.make (year month day hour minute second micro : Nat) (offset : Option Int) :
    Except Fault Moment := do
  match offset.filter fun minutes => 24 * 60 ≤ minutes.natAbs with
  | some minutes => throw (.offset minutes)
  | none =>
    let date ← Date.make year month day
    if 23 < hour then throw .hour
    else if 59 < minute then throw .minute
    else if 59 < second then throw .second
    else return { date, hour, minute, second, micro, offset }

/-- The number of a day, counted from the first of January of year 1. -/
def Date.number (d : Date) : Nat :=
  let years := d.year - 1
  let months := (List.range d.month).map fun m => if m = 0 then 0 else daysIn d.year m
  years * 365 + years / 4 - years / 100 + years / 400 + months.foldl (· + ·) 0 + (d.day - 1)

/-- The microseconds up to a moment, by universal time if the moment says how far it is. -/
def Moment.instant (m : Moment) : Int :=
  let minutes : Int := (m.date.number * 24 + m.hour) * 60 + m.minute
  ((minutes - m.offset.getD 0) * 60 + m.second) * 1000000 + m.micro

-- =============================================================== texts

/-- The digits of a number, with zeros in front up to a width. -/
def padded (width n : Nat) : String :=
  let digits := toString n
  "".pushn '0' (width - digits.length) ++ digits

/-- A date in digits. -/
def Date.text (d : Date) : String :=
  padded 4 d.year ++ "-" ++ padded 2 d.month ++ "-" ++ padded 2 d.day

/-- A distance from universal time in hours and minutes. -/
def offsetText (minutes : Int) : String :=
  let size := minutes.natAbs
  (if minutes < 0 then "-" else "+") ++ padded 2 (size / 60) ++ ":" ++ padded 2 (size % 60)

/-- A moment in digits. -/
def Moment.text (m : Moment) : String :=
  m.date.text ++ " " ++ padded 2 m.hour ++ ":" ++ padded 2 m.minute ++ ":" ++ padded 2 m.second
    ++ (if m.micro = 0 then "" else "." ++ padded 6 m.micro)
    ++ (m.offset.map offsetText).getD ""

/-- A name with its arguments. -/
def call (name : String) (arguments : List String) : String :=
  "datetime." ++ name ++ "(" ++ ", ".intercalate arguments ++ ")"

/-- A date as it stands inside a list or a mapping. -/
def Date.inner (d : Date) : String :=
  call "date" [toString d.year, toString d.month, toString d.day]

/-- A stretch of minutes, as whole days and the seconds left, which are not negative. -/
def durationText (minutes : Int) : String :=
  let days := minutes.fdiv (24 * 60)
  let seconds := minutes.fmod (24 * 60) * 60
  let parts := (if days = 0 then [] else ["days=" ++ toString days])
    ++ (if seconds = 0 then [] else ["seconds=" ++ toString seconds])
  call "timedelta" (if parts.isEmpty then ["0"] else parts)

/-- The distance from universal time as it stands inside a list or a mapping. -/
def offsetInner (minutes : Int) : String :=
  if minutes = 0 then "datetime.timezone.utc" else call "timezone" [durationText minutes]

/-- A moment as it stands inside a list or a mapping. Seconds and microseconds are left out
where they are zero. -/
def Moment.inner (m : Moment) : String :=
  let small := if m.micro = 0 then (if m.second = 0 then [] else [m.second]) else [m.second, m.micro]
  call "datetime"
    (([m.date.year, m.date.month, m.date.day, m.hour, m.minute] ++ small).map toString
      ++ (m.offset.map fun minutes => "tzinfo=" ++ offsetInner minutes).toList)

/-- What is wrong with numbers that make no date or no moment. -/
def Fault.message : Fault → String
  | year n => "year " ++ toString n ++ " is out of range"
  | month => "month must be in 1..12"
  | day => "day is out of range for month"
  | hour => "hour must be in 0..23"
  | minute => "minute must be in 0..59"
  | second => "second must be in 0..59"
  | offset minutes =>
    "offset must be a timedelta strictly between -timedelta(hours=24) and timedelta(hours=24), not "
      ++ durationText minutes ++ "."

end InferTrace.Calendar
