/-
The shortest decimal of a double: the fewest digits that still read back as it.

The reals that round to `m * 2 ^ e` form an interval around it, whose ends belong to it when
`m` is even. For one digit, two digits, and so on up to seventeen, the value's two neighbours
on that decimal grid are tried; the first grid with a neighbour in the interval gives the
digits, the nearer of two hits winning and a tie going to the even digit.

The text is positional while the leading digit stands from 10 ^ -4 to 10 ^ 15, and
`d.ddde+XX` outside; a whole number keeps `.0`.
-/
import InferTrace.Number.Binary64

namespace InferTrace.Number

/-- Digits and the place of the point: `0.d₁d₂… * 10 ^ point`. -/
structure Decimal where
  digits : List Char
  point : Int
deriving DecidableEq, Repr, Inhabited

/-- How many zeros follow the point before the first digit of `num / den < 1`. -/
def leadingZeros (num den : Nat) : Nat → Nat
  | 0 => 0
  | fuel + 1 => if den ≤ num * 10 then 0 else leadingZeros (num * 10) den fuel + 1

/-- The number of digits before the point, negative for zeros after it. -/
def pointOf (num den : Nat) : Int :=
  if den ≤ num then (Nat.toDigits 10 (num / den)).length
  else -(leadingZeros num den 400 : Nat)

/-- The fraction divided by `10 ^ k`. -/
def scaleByTen (num den : Nat) (k : Int) : Nat × Nat :=
  if k < 0 then (num * Nat.pow 10 (-k).toNat, den) else (num, den * Nat.pow 10 k.toNat)

/-- The hit on the grid `10 ^ k`, if one of the value's neighbours there lies between `lo` and
`hi`. All four are numerators over `den`. -/
def gridHit (lo value hi den : Nat) (closed : Bool) (k : Int) : Option Nat :=
  let inside (x : Nat) : Bool :=
    let (l, d) := scaleByTen lo den k
    let (h, _) := scaleByTen hi den k
    if closed then decide (l ≤ x * d) && decide (x * d ≤ h)
    else decide (l < x * d) && decide (x * d < h)
  let (v, d) := scaleByTen value den k
  let below := v / d
  let above := if v % d = 0 then below else below + 1
  match inside below, inside above with
  | true, true => some (roundQuotient v d)
  | true, false => some below
  | false, true => some above
  | false, false => none

/-- The first grid with a hit, from the coarsest; `k` is the grid's power of ten. -/
def firstHit (lo value hi den : Nat) (closed : Bool) : Nat → Int → Nat × Int
  | 0, k => (0, k)
  | fuel + 1, k =>
    match gridHit lo value hi den closed k with
    | some d => (d, k)
    | none => firstHit lo value hi den closed fuel (k - 1)

/-- The shortest decimal of `m * 2 ^ e`, for a positive mantissa. -/
def shortest (m : Nat) (e : Int) : Decimal :=
  let low := if m = Nat.pow 2 52 ∧ -1074 < e then 4 * m - 1 else 4 * m - 2
  let (unit, den) := scaleBy 1 1 (2 - e)
  let value := 4 * m * unit
  let point := pointOf value den
  let (d, k) := firstHit (low * unit) value ((4 * m + 2) * unit) den (m % 2 == 0) 18 (point - 1)
  let digits := Nat.toDigits 10 d
  { digits := ((digits.reverse.dropWhile (· == '0')).reverse)
    point := digits.length + k }

/-- The digits of a decimal with its point in place. -/
def Decimal.positional (d : Decimal) : String :=
  let count : Int := d.digits.length
  if d.point ≤ 0 then
    "0." ++ String.ofList (List.replicate (-d.point).toNat '0' ++ d.digits)
  else if count ≤ d.point then
    String.ofList (d.digits ++ List.replicate (d.point - count).toNat '0') ++ ".0"
  else
    String.ofList (d.digits.take d.point.toNat) ++ "."
      ++ String.ofList (d.digits.drop d.point.toNat)

/-- A decimal with one digit before the point and an exponent of at least two digits. -/
def Decimal.scientific (d : Decimal) : String :=
  let exponent := d.point - 1
  let size := toString exponent.natAbs
  let lead := match d.digits with
    | [] => "0"
    | [c] => String.ofList [c]
    | c :: rest => String.ofList (c :: '.' :: rest)
  lead ++ (if exponent < 0 then "e-" else "e+") ++ (if size.length < 2 then "0" ++ size else size)

/-- The text of a double. -/
def Binary64.text : Binary64 → String
  | .nan => "nan"
  | .infinite negative => if negative then "-inf" else "inf"
  | .finite negative m e =>
    let body :=
      if m = 0 then "0.0"
      else
        let d := shortest m e
        if -4 < d.point ∧ d.point ≤ 16 then d.positional else d.scientific
    if negative then "-" ++ body else body

end InferTrace.Number
