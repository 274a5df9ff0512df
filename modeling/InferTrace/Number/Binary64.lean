/-
Double-precision numbers, held exactly: a sign, a whole mantissa and a power of two.

`Binary64.ofDecimal` reads a decimal as the nearest double, a tie going to the even
mantissa; what lies beyond the largest double is infinite. Sums and products are rounded in the
same way from their exact values.
-/

namespace InferTrace.Number

/-- A double: `finite` stands for `± mantissa * 2 ^ exponent`. -/
inductive Binary64 where
  | finite (negative : Bool) (mantissa : Nat) (exponent : Int)
  | infinite (negative : Bool)
  | nan
deriving DecidableEq, Repr, Inhabited

/-- The whole number nearest to `num / den`, a tie going to the even one. -/
def roundQuotient (num den : Nat) : Nat :=
  let q := num / den
  let r := num % den
  if 2 * r < den then q
  else if den < 2 * r then q + 1
  else if q % 2 = 0 then q else q + 1

/-- The fraction `num / den` divided by `2 ^ e`, as a fraction. -/
def scaleBy (num den : Nat) (e : Int) : Nat × Nat :=
  if e < 0 then (num * Nat.pow 2 (-e).toNat, den) else (num, den * Nat.pow 2 e.toNat)

namespace Binary64

/-- The double nearest to the positive fraction `num / den`. The first guess at the exponent
is at most one too large; no exponent is below that of the smallest subnormal. -/
def ofFraction (negative : Bool) (num den : Nat) : Binary64 :=
  let guess : Int := (num.log2 : Int) - den.log2 - 52
  let (n, d) := scaleBy num den guess
  let e := max (if n / d < Nat.pow 2 52 then guess - 1 else guess) (-1074)
  let (n, d) := scaleBy num den e
  let m := roundQuotient n d
  let (m, e) := if m = Nat.pow 2 53 then (Nat.pow 2 52, e + 1) else (m, e)
  if 971 < e then .infinite negative else .finite negative m e

/-- The double nearest to `± digits * 10 ^ scale`. Magnitudes far outside the range of
doubles are settled by counting digits. -/
def ofDecimal (negative : Bool) (digits : Nat) (scale : Int) : Binary64 :=
  let magnitude : Int := (Nat.toDigits 10 digits).length + scale
  if digits = 0 ∨ magnitude < -330 then .finite negative 0 0
  else if 310 < magnitude then .infinite negative
  else if scale < 0 then ofFraction negative digits (Nat.pow 10 (-scale).toNat)
  else ofFraction negative (digits * Nat.pow 10 scale.toNat) 1

/-- The double nearest to a whole number. -/
def ofNat (n : Nat) : Binary64 := ofDecimal false n 0

/-- The double nearest to `± mantissa * 2 ^ exponent`. -/
def round (negative : Bool) (mantissa : Nat) (exponent : Int) : Binary64 :=
  if mantissa = 0 then .finite negative 0 0
  else
    let (num, den) := scaleBy mantissa 1 (-exponent)
    ofFraction negative num den

/-- The double with the other sign. -/
def neg : Binary64 → Binary64
  | finite negative m e => .finite (!negative) m e
  | infinite negative => .infinite (!negative)
  | nan => .nan

/-- The product of two doubles. -/
def mul : Binary64 → Binary64 → Binary64
  | finite s m e, finite t n f => round (s != t) (m * n) (e + f)
  | finite s m _, infinite t | infinite t, finite s m _ =>
    if m = 0 then .nan else .infinite (s != t)
  | infinite s, infinite t => .infinite (s != t)
  | nan, _ | _, nan => .nan

/-- The sum of two doubles. A sum of zero is negative only if both parts are. -/
def add : Binary64 → Binary64 → Binary64
  | finite s m e, finite t n f =>
    let low := min e f
    let part (negative : Bool) (m : Nat) (e : Int) : Int :=
      let size : Int := m * Nat.pow 2 (e - low).toNat
      if negative then -size else size
    let total := part s m e + part t n f
    if total = 0 then .finite (s && t) 0 0 else round (decide (total < 0)) total.natAbs low
  | infinite s, infinite t => if s = t then .infinite s else .nan
  | infinite s, finite _ _ _ | finite _ _ _, infinite s => .infinite s
  | nan, _ | _, nan => .nan

/-- Zero of either sign. -/
def isZero : Binary64 → Bool
  | finite _ m _ => m == 0
  | _ => false

end Binary64

end InferTrace.Number
