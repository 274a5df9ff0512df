/-
The values of YAML scalars.

The tag of a scalar says what its text is read as, and the text has to be that. Where the tag was
found from the look of the scalar it nearly always is; a tag that is written may ask for
anything.

Numbers may have blanks around them and digits of any script. Underscores in them do not count.
-/
import InferTrace.Text.Base64
import InferTrace.Text.Blank
import InferTrace.Text.Digit
import InferTrace.Yaml.Tag

namespace InferTrace.Yaml

open Config (ReadFault ScalarFault Value)
open Text (Point Points)

-- ============================================================== points

/-- The points of a text without underscores. -/
def unspaced (p : Points) : List Point := p.toList.filter (· != .char '_')

/-- The parts of a text between colons. -/
def colonParts : List Point → List (List Point)
  | [] => [[]]
  | p :: rest =>
    if p = .char ':' then [] :: colonParts rest
    else
      match colonParts rest with
      | part :: parts => (p :: part) :: parts
      | [] => [[p]]

/-- The sign at the front, and the rest. -/
def splitSign : List Point → Bool × List Point
  | p :: rest =>
    if p = .char '-' then (true, rest) else if p = .char '+' then (false, rest)
    else (false, p :: rest)
  | [] => (false, [])

/-- A point as a number shows it: digits of any script as `0` to `9`, blanks as spaces, and
whatever else is beyond ASCII as a question mark. -/
def plainDigit : Point → Char
  | .char c =>
    if c.toNat < 127 then c
    else if Text.isBlank c then ' '
    else ((Text.digitValue? c).map Nat.digitChar).getD '?'
  | .code _ => '?'

/-- A blank of ASCII. -/
def isAsciiBlank (c : Char) : Bool := c == ' ' || (9 ≤ c.toNat && c.toNat ≤ 13)

-- ======================================================= whole numbers

/-- The value of digits in a base. -/
def valueIn (base : Nat) (digits : List Char) : Nat :=
  digits.foldl (fun n c => n * base + (Json.hexValue c).getD 0) 0

/-- The digits without the mark of their base. -/
def withoutMark (base : Nat) : List Char → List Char
  | '0' :: c :: rest =>
    let mark := if base = 16 then 'x' else if base = 8 then 'o' else 'b'
    if base ≠ 10 ∧ c.toLower = mark then rest else '0' :: c :: rest
  | cs => cs

/-- A whole number in a base, with a sign or none. In base ten its digits are limited. -/
def wholeIn (base : Nat) (points : List Point) : Except ScalarFault Int :=
  let cs := (points.map plainDigit).dropWhile isAsciiBlank
  let negative := cs.head? == some '-'
  let cs := if negative || cs.head? == some '+' then cs.drop 1 else cs
  let cs := withoutMark base cs
  let digits := cs.takeWhile fun c => ((Json.hexValue c).map fun d => decide (d < base)).getD false
  let rest := (cs.drop digits.length).dropWhile isAsciiBlank
  if base = 10 ∧ Number.maxDigits < digits.length then .error (.numberTooLong digits.length)
  else if digits.isEmpty || !rest.isEmpty then .error (.noWhole base ⟨points⟩)
  else
    let n : Int := valueIn base digits
    .ok (if negative then -n else n)

/-- The parts of a number in base sixty, put together. -/
def sixtieths (parts : List Int) : Int := parts.foldl (fun n part => n * 60 + part) 0

/-- The whole number that a scalar stands for. -/
def wholeOf (text : Points) : Except ScalarFault Int := do
  let points := unspaced text
  let (negative, body) := splitSign points
  let n ←
    if points.isEmpty then throw .noDigits
    else if body = [.char '0'] then pure 0
    else if body.take 2 = [.char '0', .char 'b'] then wholeIn 2 (body.drop 2)
    else if body.take 2 = [.char '0', .char 'x'] then wholeIn 16 (body.drop 2)
    else
      match body with
      | [] => throw .noDigits
      | p :: _ =>
        if p = .char '0' then wholeIn 8 body
        else
          match colonParts body with
          | [_] => wholeIn 10 body
          | parts => (parts.mapM (wholeIn 10)).map sixtieths
  return if negative then -n else n

-- ============================================================= doubles

/-- The power of ten after a number, up to the end. -/
def powerOf : List Char → Option Int
  | [] => some 0
  | mark :: rest => do
    let negative := rest.head? == some '-'
    let digits := if negative || rest.head? == some '+' then rest.drop 1 else rest
    if (mark = 'e' ∨ mark = 'E') ∧ !digits.isEmpty ∧ digits.all Char.isDigit then
      let n : Int := Nat.ofDigitChars 10 digits 0
      return if negative then -n else n
    else none

/-- A double of digits, a point and a power of ten, or a name for one. -/
def doubleForm (negative : Bool) (cs : List Char) : Option Number.Binary64 :=
  let word := String.ofList (cs.map Char.toLower)
  if word = "inf" ∨ word = "infinity" then some (.infinite negative)
  else if word = "nan" then some .nan
  else
    let whole := cs.takeWhile Char.isDigit
    let (fraction, rest) := match cs.drop whole.length with
      | '.' :: rest => (rest.takeWhile Char.isDigit, rest.dropWhile Char.isDigit)
      | rest => ([], rest)
    let digits := whole ++ fraction
    if digits.isEmpty then none
    else
      (powerOf rest).map fun power =>
        .ofDecimal negative (Nat.ofDigitChars 10 digits 0) (power - fraction.length)

/-- A double, with a sign or none. -/
def doubleIn (points : List Point) : Except ScalarFault Number.Binary64 :=
  let cs := (points.map plainDigit).dropWhile isAsciiBlank
  let cs := (cs.reverse.dropWhile isAsciiBlank).reverse
  let negative := cs.head? == some '-'
  let cs := if negative || cs.head? == some '+' then cs.drop 1 else cs
  match doubleForm negative cs with
  | some x => .ok x
  | none => .error (.noDouble ⟨points⟩)

/-- The sum of parts, each of which counts sixty times the one after it. Every product and every
sum is rounded, from the last part to the first. There is no double for `60 ^ 174`. -/
def sixtiethSum (parts : List Number.Binary64) : Except ScalarFault Number.Binary64 :=
  if 174 < parts.length then .error .tooManyParts
  else
    let weighted := parts.reverse.zipIdx.map fun (x, i) => x.mul (.ofNat (Nat.pow 60 i))
    .ok (weighted.foldl Number.Binary64.add (.ofNat 0))

/-- The points of a double that count, in lower case: its sign, and the rest. -/
def doubleBody (text : Points) : Bool × List Point :=
  splitSign (Points.mk (unspaced text)).lower.toList

/-- The text is the name of what is not a number. -/
def namesNan (text : Points) : Bool :=
  (Points.mk (doubleBody text).2).string? == some ".nan"

/-- The double that a scalar stands for. -/
def doubleOf (text : Points) : Except ScalarFault Number.Binary64 := do
  let (negative, body) := doubleBody text
  if (unspaced text).isEmpty then throw .noDigits
  else if (Points.mk body).string? = some ".inf" then return .infinite negative
  else if namesNan text then return .nan
  else
    let x ← match colonParts body with
      | [_] => doubleIn body
      | parts => (parts.mapM doubleIn).bind sixtiethSum
    return if negative then x.neg else x

-- ============================================================= scalars

/-- The truth value that a scalar stands for. -/
def truthOf (text : Points) : Except ScalarFault Bool :=
  let word := text.lower
  if ["yes", "true", "on"].any fun w => word == .ofString w then .ok true
  else if ["no", "false", "off"].any fun w => word == .ofString w then .ok false
  else .error (.noTruth word)

/-- The point in time that a scalar stands for. -/
def timeOf (text : Points) : Except ScalarFault Value :=
  let cs := (text.string?.map String.toList).getD []
  match Stamp.of? (if cs.getLast? == some '\n' then cs.dropLast else cs) with
  | none => .error .noTimestamp
  | some stamp => stamp.value.mapError .outOfCalendar

/-- The bytes that a scalar stands for, if it is ASCII. -/
def bytesOf (text : Points) : Option (List UInt8) := do
  let word ← text.string?
  if word.toList.all fun c => c.toNat < 128 then Text.Base64.decode word.toList else none

/-- The value of a scalar. Its tag has to be that of a scalar. -/
def atom (tag : Tag) (text : Points) : Except ReadFault Value :=
  match tag with
  | .null => .ok .null
  | .str => .ok (.text text)
  | .bool => ((truthOf text).map Value.bool).mapError .scalar
  | .int => ((wholeOf text).map Value.int).mapError .scalar
  | .float => ((doubleOf text).map Value.float).mapError .scalar
  | .timestamp => (timeOf text).mapError .scalar
  | .binary =>
    match bytesOf text with
    | some bytes => .ok (.bytes bytes)
    | none => .error .malformed
  | _ => .error .malformed

end InferTrace.Yaml
