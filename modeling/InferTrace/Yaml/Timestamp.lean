/-
Points in time as a YAML scalar writes them.

A date is a year of four digits, a month and a day. A time of day may follow it, after a `T` or
blanks, with a fraction of a second and the distance from universal time. A plain scalar is
taken for a date only if month and day have two digits each.
-/
import InferTrace.Config.Value

namespace InferTrace.Yaml

open Config (Value)

/-- A time of day as it is written: its numbers, and the distance from universal time in
minutes. -/
structure Clock where
  hour : Nat
  minute : Nat
  second : Nat
  micro : Nat
  offset : Option Int
deriving DecidableEq, Repr

/-- A point in time as it is written. -/
structure Stamp where
  year : Nat
  month : Nat
  day : Nat
  clock : Option Clock
deriving DecidableEq, Repr

/-- A number of `least` to `most` digits, and the rest. -/
def numberOf (least most : Nat) (cs : List Char) : Option (Nat × List Char) :=
  let digits := (cs.take most).takeWhile Char.isDigit
  if digits.length < least then none
  else some (Nat.ofDigitChars 10 digits 0, cs.drop digits.length)

/-- The rest after a character that has to come next. -/
def after? (c : Char) : List Char → Option (List Char)
  | d :: rest => if c = d then some rest else none
  | [] => none

/-- A space or a tab. -/
def isGap (c : Char) : Bool := c == ' ' || c == '\t'

/-- The microseconds after the point, of which six digits count, and the rest. -/
def fractionOf : List Char → Nat × List Char
  | '.' :: rest =>
    let digits := rest.takeWhile Char.isDigit
    let counted := digits.take 6
    (Nat.ofDigitChars 10 (counted ++ List.replicate (6 - counted.length) '0') 0,
      rest.drop digits.length)
  | cs => (0, cs)

/-- The distance from universal time at the end of a scalar. -/
def offsetOf : List Char → Option Int
  | ['Z'] => some 0
  | sign :: rest => do
    let (hours, rest) ← numberOf 1 2 rest
    let (minutes, rest) ← match rest with
      | ':' :: rest => numberOf 2 2 rest
      | rest => some (0, rest)
    let size : Int := hours * 60 + minutes
    if !rest.isEmpty then none
    else if sign = '+' then some size
    else if sign = '-' then some (-size)
    else none
  | [] => none

/-- A time of day. -/
def clockOf (cs : List Char) : Option Clock := do
  let (hour, rest) ← numberOf 1 2 cs
  let (minute, rest) ← numberOf 2 2 (← after? ':' rest)
  let (second, rest) ← numberOf 2 2 (← after? ':' rest)
  let (micro, rest) := fractionOf rest
  if rest.isEmpty then return { hour, minute, second, micro, offset := none }
  else
    let offset ← offsetOf (rest.dropWhile isGap)
    return { hour, minute, second, micro, offset := some offset }

/-- A point in time. -/
def Stamp.of? (cs : List Char) : Option Stamp := do
  let (year, rest) ← numberOf 4 4 cs
  let (month, rest) ← numberOf 1 2 (← after? '-' rest)
  let (day, rest) ← numberOf 1 2 (← after? '-' rest)
  match rest with
  | [] => return { year, month, day, clock := none }
  | c :: more =>
    let time ←
      if c = 'T' ∨ c = 't' then some more
      else if isGap c then some (more.dropWhile isGap)
      else none
    return { year, month, day, clock := some (← clockOf time) }

/-- A plain scalar is taken for a point in time. -/
def isTimestamp (cs : List Char) : Bool :=
  match Stamp.of? cs with
  | some stamp => stamp.clock.isSome || cs.length == 10
  | none => false

/-- The value of a point in time, if its numbers are in range. -/
def Stamp.value (s : Stamp) : Except Calendar.Fault Value :=
  match s.clock with
  | none => (Calendar.Date.make s.year s.month s.day).map .date
  | some c =>
    (Calendar.Moment.make s.year s.month s.day c.hour c.minute c.second c.micro c.offset).map
      .moment

end InferTrace.Yaml
