/-
Reading a JSON text.

The reader takes the standard grammar, and beside it the three names `NaN`, `Infinity` and
`-Infinity`. A number with a fraction or an exponent is a double, any other a whole number,
of which the caller limits the digits. Of two fields with one key the last value stays.
Characters below U+0020 may not stand in a string. The escapes of two surrogates that belong
together are one character; any other surrogate is a point of its own. The caller also limits
the nesting.
-/
import InferTrace.Config.Value

namespace InferTrace.Json

open Config (ReadFault Value)
open Text (Point Points)

/-- A value read from the front of the text, and the rest. -/
abbrev Read (α : Type) := Except ReadFault (α × List Char)

/-- The text after its leading blanks. -/
def skipSpace (cs : List Char) : List Char :=
  cs.dropWhile fun c => c == ' ' || c == '\t' || c == '\n' || c == '\r'

/-- The rest after `word`, if the text starts with it. -/
def expectWord : List Char → List Char → Option (List Char)
  | [], cs => some cs
  | w :: word, c :: cs => if w = c then expectWord word cs else none
  | _ :: _, [] => none

-- ============================================================ strings

/-- The value of a hexadecimal digit. -/
def hexValue (c : Char) : Option Nat :=
  let n := c.toNat
  if 48 ≤ n ∧ n ≤ 57 then some (n - 48)
  else if 97 ≤ n ∧ n ≤ 102 then some (n - 87)
  else if 65 ≤ n ∧ n ≤ 70 then some (n - 55)
  else none

/-- The unit of four hexadecimal digits. -/
def hexUnit (a b c d : Char) : Option Nat := do
  let a ← hexValue a
  let b ← hexValue b
  let c ← hexValue c
  let d ← hexValue d
  return ((a * 16 + b) * 16 + c) * 16 + d

/-- The character of a one-letter escape. -/
def shortEscape (c : Char) : Option Char :=
  if c = '"' ∨ c = '\\' ∨ c = '/' then some c
  else if c = 'b' then some (Char.ofNat 0x08)
  else if c = 'f' then some (Char.ofNat 0x0C)
  else if c = 'n' then some '\n'
  else if c = 'r' then some '\r'
  else if c = 't' then some '\t'
  else none

/-- One point of a string and the rest, at a text that does not start with a quote. -/
def readPoint : List Char → Option (Point × List Char)
  | '\\' :: 'u' :: a :: b :: c :: d :: rest => do
    let unit ← hexUnit a b c d
    match rest with
    | '\\' :: 'u' :: e :: f :: g :: h :: rest' =>
      match hexUnit e f g h with
      | some low =>
        if 0xD800 ≤ unit ∧ unit ≤ 0xDBFF ∧ 0xDC00 ≤ low ∧ low ≤ 0xDFFF then
          return (.ofCode (0x10000 + (unit - 0xD800) * 0x400 + (low - 0xDC00)), rest')
        else return (.ofCode unit, rest)
      | none => return (.ofCode unit, rest)
    | _ => return (.ofCode unit, rest)
  | '\\' :: c :: rest => (shortEscape c).map fun e => (.char e, rest)
  | c :: rest => if c.toNat < 0x20 ∨ c = '\\' then none else some (.char c, rest)
  | [] => none

/-- The points up to the closing quote, which is dropped. `fuel` bounds their number. -/
def readPoints : Nat → List Point → List Char → Read Points
  | 0, _, _ => .error .malformed
  | _ + 1, taken, '"' :: rest => .ok (⟨taken.reverse⟩, rest)
  | fuel + 1, taken, cs =>
    match readPoint cs with
    | some (p, rest) => readPoints fuel (p :: taken) rest
    | none => .error .malformed

/-- A string after its opening quote. -/
def readString (cs : List Char) : Read Points := readPoints (cs.length + 1) [] cs

-- ============================================================ numbers

/-- The value of a run of digits. -/
def digitsValue (digits : List Char) : Nat := Nat.ofDigitChars 10 digits 0

/-- A fraction after its point, if digits follow. -/
def readFraction : List Char → Option (List Char × List Char)
  | '.' :: rest =>
    match rest.takeWhile Char.isDigit with
    | [] => none
    | digits => some (digits, rest.dropWhile Char.isDigit)
  | _ => none

/-- An exponent after its mark, if digits follow. -/
def readExponent : List Char → Option (Int × List Char)
  | mark :: rest =>
    if mark = 'e' ∨ mark = 'E' then
      let (negative, rest) := match rest with
        | '-' :: r => (true, r)
        | '+' :: r => (false, r)
        | r => (false, r)
      match rest.takeWhile Char.isDigit with
      | [] => none
      | digits =>
        let n : Int := digitsValue digits
        some (if negative then -n else n, rest.dropWhile Char.isDigit)
    else none
  | [] => none

/-- The whole part of a number: a zero alone, or digits that start with none. -/
def readWhole : List Char → Option (List Char × List Char)
  | '0' :: rest => some (['0'], rest)
  | cs =>
    match cs.takeWhile Char.isDigit with
    | [] => none
    | digits => some (digits, cs.dropWhile Char.isDigit)

/-- A number without its sign, of at most `maxDigits` digits if it is whole. -/
def readMagnitude (maxDigits : Nat) (negative : Bool) (cs : List Char) : Read Value :=
  match readWhole cs with
  | none => .error .malformed
  | some (whole, rest) =>
    let (fraction, rest) := (readFraction rest).getD ([], rest)
    match fraction, readExponent rest with
    | [], none =>
      if maxDigits < whole.length then .error (.scalar (.numberTooLong whole.length))
      else
        let n : Int := digitsValue whole
        .ok (.int (if negative then -n else n), rest)
    | _, exponent =>
      let (power, rest) := exponent.getD (0, rest)
      .ok (.float (.ofDecimal negative (digitsValue (whole ++ fraction)) (power - fraction.length)),
        rest)

/-- A number, or a name that stands for one. -/
def readNumber (maxDigits : Nat) : List Char → Read Value
  | '-' :: rest =>
    match expectWord "Infinity".toList rest with
    | some rest => .ok (.float (.infinite true), rest)
    | none => readMagnitude maxDigits true rest
  | cs => readMagnitude maxDigits false cs

-- ============================================================= values

/-- The names of constants. -/
def constants : List (List Char × Value) :=
  [("null".toList, .null), ("true".toList, .bool true), ("false".toList, .bool false),
   ("NaN".toList, .float .nan), ("Infinity".toList, .float (.infinite false))]

/-- The constant at the front of the text. -/
def readConstant (cs : List Char) : Option (Value × List Char) :=
  constants.findSome? fun (name, value) => (expectWord name cs).map fun rest => (value, rest)

/-- The items of an array up to its closing bracket; `fuel` bounds their number. -/
def readItems (inner : List Char → Read Value) :
    Nat → List Value → List Char → Except ReadFault (List Value × List Char)
  | 0, _, _ => .error .malformed
  | fuel + 1, taken, cs => do
    let (x, rest) ← inner (skipSpace cs)
    match skipSpace rest with
    | ',' :: rest => readItems inner fuel (x :: taken) rest
    | ']' :: rest => .ok ((x :: taken).reverse, rest)
    | _ => .error .malformed

/-- The fields of an object up to its closing brace; `fuel` bounds their number. -/
def readFields (inner : List Char → Read Value) :
    Nat → List (Value × Value) → List Char →
      Except ReadFault (List (Value × Value) × List Char)
  | 0, _, _ => .error .malformed
  | fuel + 1, taken, cs => do
    match skipSpace cs with
    | '"' :: rest =>
      let (key, rest) ← readString rest
      match skipSpace rest with
      | ':' :: rest =>
        let (x, rest) ← inner (skipSpace rest)
        match skipSpace rest with
        | ',' :: rest => readFields inner fuel (Value.putEntry (.text key) x taken) rest
        | '\x7d' :: rest => .ok (Value.putEntry (.text key) x taken, rest)
        | _ => .error .malformed
      | _ => .error .malformed
    | _ => .error .malformed

/-- A value at the front of the text, nested at most `limit` deep. -/
def readValue (maxDigits : Nat) : Nat → List Char → Read Value
  | 0, _ => .error .tooDeep
  | limit + 1, cs =>
    match cs with
    | '"' :: rest => (readString rest).map fun (s, rest) => (.text s, rest)
    | '[' :: rest =>
      match skipSpace rest with
      | ']' :: rest => .ok (.list [], rest)
      | _ =>
        (readItems (readValue maxDigits limit) rest.length [] rest).map fun (xs, r) =>
          (.list xs, r)
    | '\x7b' :: rest =>
      match skipSpace rest with
      | '\x7d' :: rest => .ok (.mapping [], rest)
      | _ =>
        (readFields (readValue maxDigits limit) rest.length [] rest).map fun (es, r) =>
          (.mapping es, r)
    | cs =>
      match readConstant cs with
      | some found => .ok found
      | none => readNumber maxDigits cs

/-- A whole text as one value, nested at most `limit` deep, its whole numbers of at most
`maxDigits` digits. -/
def parse (limit maxDigits : Nat) (text : String) : Except ReadFault Value := do
  let (value, rest) ← readValue maxDigits limit (skipSpace text.toList)
  match skipSpace rest with
  | [] => .ok value
  | _ => .error .malformed

end InferTrace.Json
