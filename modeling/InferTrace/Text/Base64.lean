/-
Bytes written in base 64.

Four digits stand for three bytes. Characters that are no digits are passed over. Reading ends
with the equals signs that fill up a group of four; a group that is left open is a mistake.
-/

namespace InferTrace.Text.Base64

/-- The value of a digit in base 64. -/
def digit? (c : Char) : Option Nat :=
  let n := c.toNat
  if 65 ≤ n ∧ n ≤ 90 then some (n - 65)
  else if 97 ≤ n ∧ n ≤ 122 then some (n - 71)
  else if 48 ≤ n ∧ n ≤ 57 then some (n + 4)
  else if c = '+' then some 62
  else if c = '/' then some 63
  else none

/-- Read on inside a group of four: `place` digits of it have been read, `kept` are the bits that
are not yet part of a byte, and `fill` equals signs have just come. -/
def decodeFrom (place kept fill : Nat) : List Char → Option (List UInt8)
  | [] => if place = 0 then some [] else none
  | c :: rest =>
    if c = '=' then
      if place < 2 then decodeFrom place kept fill rest
      else if 4 ≤ place + fill + 1 then some []
      else decodeFrom place kept (fill + 1) rest
    else
      match digit? c with
      | none => decodeFrom place kept fill rest
      | some d =>
        match place with
        | 0 => decodeFrom 1 d 0 rest
        | 1 => (decodeFrom 2 (d % 16) 0 rest).map ((kept * 4 + d / 16).toUInt8 :: ·)
        | 2 => (decodeFrom 3 (d % 4) 0 rest).map ((kept * 16 + d / 4).toUInt8 :: ·)
        | _ => (decodeFrom 0 0 0 rest).map ((kept * 64 + d).toUInt8 :: ·)

/-- The bytes of a text in base 64. -/
def decode (cs : List Char) : Option (List UInt8) := decodeFrom 0 0 0 cs

end InferTrace.Text.Base64
