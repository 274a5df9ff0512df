/-
Whole numbers in decimal.

A number is read and written only if it has few enough digits, so that no text takes long to
turn into a number or back.
-/

namespace InferTrace.Number

/-- The most digits of a whole number that is read or written. -/
def maxDigits : Nat := 4300

/-- The number has few enough digits to be written. A sign does not count. -/
def isShort (n : Int) : Bool := (Nat.toDigits 10 n.natAbs).length ≤ maxDigits

/-- The text of a number; one with too many digits has none. -/
def text? (n : Int) : Option String := if isShort n then some (toString n) else none

/-- The least whole number that has too many digits. -/
def firstLong : Nat := Nat.pow 10 maxDigits

theorem isShort_firstLong : isShort firstLong = false := by
  -- for any number of zeros, so that none are counted
  have hlong : ∀ k, 0 < k → ¬ (Nat.toDigits 10 (Nat.pow 10 k)).length ≤ k := by
    intro k hk
    rw [Nat.length_toDigits_le_iff (by decide) hk]
    exact Nat.lt_irrefl _
  unfold isShort firstLong
  rw [Int.natAbs_natCast]
  exact decide_eq_false (hlong maxDigits (by decide))

end InferTrace.Number
