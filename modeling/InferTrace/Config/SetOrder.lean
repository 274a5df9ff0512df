/-
The order in which a set of numbers lists its members.

The members stand in a table of slots and are listed from its first slot to its last. The number
of slots is a power of two, and more than twice that of the members unless they are few. Every
number has a code, which leads it to a slot. If that is taken, the number tries the slots next to
it, and after them it leaps to another part of the table. Numbers that are equal have one code,
also if one of them is whole and the other a double.
-/
import InferTrace.Config.Value

namespace InferTrace.Config

-- =============================================================== codes

/-- The prime by which numbers are reduced to their codes. -/
def codePrime : Nat := Nat.pow 2 61 - 1

/-- The code of a number of which the size is reduced already. Codes have 64 bits, and minus one
is none. -/
def signedCode (negative : Bool) (size : Nat) : Nat :=
  let n : Int := if negative then -(size : Int) else size
  ((if n = -1 then -2 else n) % Nat.pow 2 64).toNat

/-- The code of a number. For `2 ^ 61` leaves one when it is reduced, the power of a double counts
only by what it leaves when divided by 61. -/
def Value.code? (v : Value) : Option Nat :=
  match v.key? with
  | some (.whole n) => some (signedCode (decide (n < 0)) (n.natAbs % codePrime))
  | some (.double (.finite negative mantissa exponent)) =>
    some (signedCode negative (mantissa * Nat.pow 2 (exponent % 61).toNat % codePrime))
  | some (.double (.infinite negative)) => some (signedCode negative 314159)
  | _ => none

-- =============================================================== slots

/-- The number of slots for so many members. -/
def slotCount (members : Nat) : Nat :=
  if members < 5 then 8 else Nat.pow 2 ((2 * members).log2 + 1)

/-- The free slot that is found from the slot `i` on, where `code` has the part of a code that
leaps still depend on. The ten slots from `i` on are tried if there are so many, else `i` alone. -/
def freeSlot (slots : Array (Option Value)) : Nat → Nat → Nat → Nat
  | 0, i, _ => i
  | fuel + 1, i, code =>
    let near := List.range' i (if i + 9 < slots.size then 10 else 1)
    match near.find? fun slot => ((slots[slot]?).join).isNone with
    | some slot => slot
    | none =>
      let code := code / 32
      freeSlot slots fuel ((i * 5 + 1 + code) % slots.size) code

/-- Put a member into the table. Once nothing is left of its code, leaps reach every slot. -/
def putMember (slots : Array (Option Value)) (v : Value) (code : Nat) : Array (Option Value) :=
  slots.setIfInBounds (freeSlot slots (slots.size + 14) (code % slots.size) code) (some v)

/-- The members of a set in the order in which they are listed. What is not a number has no code,
and a set with such a member lists them as they were put. -/
def setOrder (members : List Value) : List Value :=
  match members.mapM Value.code? with
  | none => members
  | some codes =>
    let slots := Array.replicate (slotCount members.length) none
    ((members.zip codes).foldl (fun slots (v, code) => putMember slots v code) slots).toList
      |>.filterMap id

end InferTrace.Config
