/-
Strings and numbers of a JSON text are read back as they were written.

A text is written point by point, and each piece says where it ends: a
character of its own, a short escape, or four hexadecimal digits. What is
left to show is that pieces do not run together. Two escapes in a row are
one character if they are the two halves of a surrogate pair. A character
is no half of one, so the only pairs are those that the writer has
written for one character, as long as no two points of the text make a
pair themselves (`Points.Unpaired`, `readString_writeText`).

A number does not say where it ends. It ends before anything that could
not be a part of it (`Closes`), and in a JSON text such a thing follows
every number.
-/
import InferTrace.Json.Reader
import InferTrace.Json.Writer
import Mathlib.Data.List.Chain
import Mathlib.Tactic.SplitIfs

namespace InferTrace.Json

open Config (Value)
open Text (Point Points)

variable {rest : List Char} {n : Nat} {c : Char}

-- ==================================================== hexadecimal units

/-- A digit in base sixteen has its value. -/
theorem hexValue_digitChar : ∀ d, d < 16 → hexValue d.digitChar = some d := by
  decide

/-- The last digit, and one digit less for the others. -/
theorem hexDigits_succ (w n : Nat) :
    Text.hexDigits (w + 2) n
      = Text.hexDigits (w + 1) (n / 16) ++ [(n % 16).digitChar] := by
  unfold Text.hexDigits
  by_cases h : n < 16
  · rw [Nat.toDigits_of_lt_base h, Nat.div_eq_of_lt h, Nat.mod_eq_of_lt h,
      Nat.toDigits_zero]
    simp [List.replicate_succ']
  · rw [Nat.toDigits_of_base_le (by decide) (by omega)]
    simp

theorem hexDigits_one (h : n < 16) : Text.hexDigits 1 n = [n.digitChar] := by
  simp [Text.hexDigits, Nat.toDigits_of_lt_base h]

/-- A unit is written by four digits that stand for it. -/
theorem exists_unitEscape (h : n < 0x10000) : ∃ a b c d : Char,
    unitEscape n = ['\\', 'u', a, b, c, d] ∧ hexUnit a b c d = some n := by
  refine ⟨(n / 16 / 16 / 16).digitChar, (n / 16 / 16 % 16).digitChar,
    (n / 16 % 16).digitChar, (n % 16).digitChar, ?_, ?_⟩
  · rw [unitEscape, hexDigits_succ, hexDigits_succ, hexDigits_succ,
      hexDigits_one (by omega)]
    rfl
  · unfold hexUnit
    rw [hexValue_digitChar _ (by omega), hexValue_digitChar _ (by omega),
      hexValue_digitChar _ (by omega), hexValue_digitChar _ (by omega)]
    simp
    omega

/-- The code of a character is that character. -/
theorem ofCode_toNat (c : Char) : Point.ofCode c.toNat = .char c := by
  have hvalid : c.toNat.isValidChar := c.valid
  rw [Point.ofCode, if_pos hvalid, Char.ofNat_toNat]

/-- No character is half a surrogate pair. -/
theorem not_surrogate (c : Char) : ¬ (0xD800 ≤ c.toNat ∧ c.toNat ≤ 0xDFFF) := by
  have := c.valid
  simp only [UInt32.isValidChar, Nat.isValidChar] at this
  show ¬ (0xD800 ≤ c.val.toNat ∧ c.val.toNat ≤ 0xDFFF)
  omega

-- ============================================================== strings

/-- No unit that follows at once is the low half of a pair. -/
def NoLow (cs : List Char) : Prop :=
  ∀ a b c d rest, cs = '\\' :: 'u' :: a :: b :: c :: d :: rest →
    ∀ low, hexUnit a b c d = some low → ¬ (0xDC00 ≤ low ∧ low ≤ 0xDFFF)

/-- One unit stands for itself, unless it is the high half of a pair and
the low half follows. -/
theorem readPoint_unitEscape (h : n < 0x10000)
    (hn : 0xD800 ≤ n ∧ n ≤ 0xDBFF → NoLow rest) :
    readPoint (unitEscape n ++ rest) = some (.ofCode n, rest) := by
  obtain ⟨a, b, c, d, htext, hunit⟩ := exists_unitEscape h
  rw [htext]
  simp only [List.cons_append, List.nil_append, readPoint, hunit,
    Option.bind_eq_bind, Option.bind_some]
  split
  · next heq =>
    split
    · next hlow =>
      rw [if_neg fun hpair => hn ⟨hpair.1, hpair.2.1⟩ _ _ _ _ _ rfl _ hlow
        hpair.2.2]
      rfl
    · rfl
  · rfl

/-- The two halves of a pair stand for one code. -/
theorem readPoint_pair {high low : Nat}
    (hhigh : 0xD800 ≤ high ∧ high ≤ 0xDBFF)
    (hlow : 0xDC00 ≤ low ∧ low ≤ 0xDFFF) :
    readPoint (unitEscape high ++ unitEscape low ++ rest)
      = some (.ofCode (0x10000 + (high - 0xD800) * 0x400 + (low - 0xDC00)),
          rest) := by
  obtain ⟨a, b, c, d, htext, hunit⟩ := exists_unitEscape (n := high) (by omega)
  obtain ⟨e, f, g, h, htext', hunit'⟩ := exists_unitEscape (n := low) (by omega)
  rw [htext, htext']
  simp only [List.cons_append, List.nil_append, readPoint, hunit, hunit',
    Option.bind_eq_bind, Option.bind_some]
  rw [if_pos ⟨hhigh.1, hhigh.2, hlow.1, hlow.2⟩]
  rfl

/-- How a character is written: by a short escape, as it is, by its
unit, or by a pair of units. -/
theorem escapeChar_cases (c : Char) :
    (∃ e, escapeChar c = ['\\', e] ∧ shortEscape e = some c) ∨
      (escapeChar c = [c] ∧ 0x20 ≤ c.toNat ∧ c ≠ '"' ∧ c ≠ '\\') ∨
      (escapeChar c = unitEscape c.toNat ∧ c.toNat < 0x10000) ∨
      (escapeChar c = unitEscape (0xD800 + (c.toNat - 0x10000) / 0x400)
          ++ unitEscape (0xDC00 + (c.toNat - 0x10000) % 0x400) ∧
        0x10000 ≤ c.toNat) := by
  have hcode : ∀ k, c.toNat = k → c = Char.ofNat k := by
    rintro _ rfl
    exact (Char.ofNat_toNat c).symm
  unfold escapeChar escapeCode
  dsimp only
  split_ifs with h1 h2 h3 h4 h5 h6 h7 h8 h9
  · exact Or.inl ⟨'"', rfl, by rw [h1]; rfl⟩
  · exact Or.inl ⟨'\\', rfl, by rw [h2]; rfl⟩
  · exact Or.inl ⟨'n', rfl, by rw [h3]; rfl⟩
  · exact Or.inl ⟨'r', rfl, by rw [h4]; rfl⟩
  · exact Or.inl ⟨'t', rfl, by rw [h5]; rfl⟩
  · exact Or.inl ⟨'b', rfl, by rw [hcode _ h6]; rfl⟩
  · exact Or.inl ⟨'f', rfl, by rw [hcode _ h7]; rfl⟩
  · exact Or.inr (Or.inl ⟨rfl, h8.1, h1, h2⟩)
  · exact Or.inr (Or.inr (Or.inl ⟨rfl, h9⟩))
  · exact Or.inr (Or.inr (Or.inr ⟨rfl, Nat.le_of_not_lt h9⟩))

/-- The short escapes are told apart from those of a code. -/
theorem shortEscape_ne {e : Char} (he : shortEscape e = some c) : e ≠ 'u' := by
  rintro rfl
  cases he

/-- A character is read back, whatever follows. -/
theorem readPoint_escapeChar (c : Char) (rest : List Char) :
    readPoint (escapeChar c ++ rest) = some (.char c, rest) := by
  have hrange := not_surrogate c
  have hlast : c.toNat < 0x110000 := by
    have := c.valid
    simp only [UInt32.isValidChar, Nat.isValidChar] at this
    show c.val.toNat < 0x110000
    omega
  obtain ⟨e, htext, he⟩ | ⟨htext, hlow, hquote, hback⟩ | ⟨htext, hlow⟩ |
    ⟨htext, hhigh⟩ := escapeChar_cases c
  · rw [htext]
    simp [readPoint, shortEscape_ne he, he]
  · rw [htext]
    simp [readPoint, hback]
    omega
  · rw [htext, readPoint_unitEscape hlow fun h => absurd h (by omega),
      ofCode_toNat]
  · have hcode : 0x10000
        + (0xD800 + (c.toNat - 0x10000) / 0x400 - 0xD800) * 0x400
        + (0xDC00 + (c.toNat - 0x10000) % 0x400 - 0xDC00) = c.toNat := by
      omega
    rw [htext, readPoint_pair (by omega) (by omega), hcode, ofCode_toNat]

/-- What is written for a character does not begin with a quote. -/
theorem exists_escapeChar (c : Char) :
    ∃ d ds, escapeChar c = d :: ds ∧ d ≠ '"' := by
  obtain ⟨e, htext, -⟩ | ⟨htext, -, hquote, -⟩ | ⟨htext, -⟩ | ⟨htext, -⟩ :=
    escapeChar_cases c
  · exact ⟨_, _, htext, by decide⟩
  · exact ⟨_, _, htext, hquote⟩
  · exact ⟨_, _, htext, by decide⟩
  · exact ⟨_, _, htext, by decide⟩

end InferTrace.Json

-- ======================================================== code points

namespace InferTrace.Text

/-- The point is the high half of a surrogate pair. -/
def Point.isHigh : Point → Bool
  | char _ => false
  | code n => 0xD800 ≤ n && n ≤ 0xDBFF

/-- The point is the low half of a surrogate pair. -/
def Point.isLow : Point → Bool
  | char _ => false
  | code n => 0xDC00 ≤ n && n ≤ 0xDFFF

/-- Every code in the text is half a surrogate pair, and nowhere do two
halves make a pair. -/
structure Points.Unpaired (p : Points) : Prop where
  half : ∀ x ∈ p.toList, x.code? = none ∨ x.isHigh ∨ x.isLow
  apart : p.toList.IsChain fun x y => ¬ (x.isHigh ∧ y.isLow)

/-- A string has no surrogates, and so no pair of them. -/
theorem Points.unpaired_ofString (s : String) : (ofString s).Unpaired := by
  have hchars : ∀ x ∈ (ofString s).toList, ∃ c, x = .char c := by
    intro x hx
    obtain ⟨c, -, rfl⟩ := List.mem_map.1 hx
    exact ⟨c, rfl⟩
  constructor
  · intro x hx
    obtain ⟨c, rfl⟩ := hchars x hx
    exact Or.inl rfl
  · refine List.Pairwise.isChain (List.pairwise_of_forall_mem_list ?_)
    intro x hx y _ hpair
    obtain ⟨c, rfl⟩ := hchars x hx
    exact absurd hpair.1 Bool.false_ne_true

end InferTrace.Text

namespace InferTrace.Json

open Config (Value)
open Text (Point Points)

variable {rest : List Char} {n : Nat} {c : Char} {x : Point}

/-- What is written for a point that is no low half does not begin with
one. -/
theorem noLow_escapePoint (hhalf : x.code? = none ∨ x.isHigh ∨ x.isLow)
    (hx : ¬ x.isLow) (rest : List Char) : NoLow (escapePoint x ++ rest) := by
  -- a unit that is written first is the first that is read
  have hunit : ∀ n more, n < 0x10000 → ¬ (0xDC00 ≤ n ∧ n ≤ 0xDFFF) →
      NoLow (unitEscape n ++ more) := by
    intro n more hlt hn a b c d r heq low hlow
    obtain ⟨a', b', c', d', htext, hread⟩ := exists_unitEscape hlt
    rw [htext] at heq
    simp only [List.cons_append, List.nil_append, List.cons.injEq] at heq
    obtain ⟨-, -, rfl, rfl, rfl, rfl, -⟩ := heq
    rw [hread] at hlow
    cases hlow
    exact hn
  cases x with
  | char c =>
      have hrange := not_surrogate c
      have hlast : c.toNat < 0x110000 := by
        have := c.valid
        simp only [UInt32.isValidChar, Nat.isValidChar] at this
        show c.val.toNat < 0x110000
        omega
      show NoLow (escapeChar c ++ rest)
      obtain ⟨e, htext, he⟩ | ⟨htext, -, -, hback⟩ | ⟨htext, hlow⟩ |
        ⟨htext, hhigh⟩ := escapeChar_cases c
      · rw [htext]
        intro a b c d r heq
        exact absurd (List.cons.inj (List.cons.inj heq).2).1 (shortEscape_ne he)
      · rw [htext]
        intro a b c d r heq
        exact absurd (List.cons.inj heq).1 hback
      · rw [htext]
        exact hunit _ _ hlow (by omega)
      · rw [htext, List.append_assoc]
        exact hunit _ _ (by omega) (by omega)
  | code n =>
      have hn : 0xD800 ≤ n ∧ n ≤ 0xDBFF := by
        simpa [Point.code?, hx, Point.isHigh] using hhalf
      show NoLow (escapeCode n ++ rest)
      rw [escapeCode, if_pos (by omega)]
      exact hunit _ _ (by omega) (by omega)

/-- A point is read back, unless it is a high half and a low half
follows. -/
theorem readPoint_escapePoint (hhalf : x.code? = none ∨ x.isHigh ∨ x.isLow)
    (hrest : x.isHigh → NoLow rest) :
    readPoint (escapePoint x ++ rest) = some (x, rest) := by
  cases x with
  | char c => exact readPoint_escapeChar c rest
  | code n =>
      have hn : 0xD800 ≤ n ∧ n ≤ 0xDFFF := by
        simp only [Point.code?, Point.isHigh, Point.isLow, Bool.and_eq_true,
          decide_eq_true_eq] at hhalf
        rcases hhalf with h | h | h
        · cases h
        · omega
        · omega
      have hcode : Point.ofCode n = .code n := by
        rw [Point.ofCode, if_neg]
        simp only [Nat.isValidChar]
        omega
      show readPoint (escapeCode n ++ rest) = _
      rw [escapeCode, if_pos (by omega), readPoint_unitEscape (by omega), hcode]
      intro hhigh
      apply hrest
      simp [Point.isHigh, hhigh]

/-- What is written for a point does not begin with a quote. -/
theorem exists_escapePoint (x : Point) :
    ∃ d ds, escapePoint x = d :: ds ∧ d ≠ '"' := by
  cases x with
  | char c => exact exists_escapeChar c
  | code n =>
      show ∃ d ds, escapeCode n = d :: ds ∧ d ≠ '"'
      unfold escapeCode
      split
      · exact ⟨_, _, rfl, by decide⟩
      · exact ⟨_, _, rfl, by decide⟩

/-- The points of a text are read one by one up to the quote; by
induction on them, behind those that are taken. -/
theorem readPoints_flatMap_escapePoint (rest : List Char) (ps : List Point) :
    ∀ (fuel : Nat) (taken : List Point), Points.Unpaired ⟨ps⟩ →
      ps.length < fuel →
        readPoints fuel taken (ps.flatMap escapePoint ++ '"' :: rest)
          = .ok (⟨taken.reverse ++ ps⟩, rest) := by
  induction ps with
  | nil =>
      intro fuel taken _ hfuel
      obtain ⟨fuel, rfl⟩ := Nat.exists_eq_succ_of_ne_zero (Nat.ne_of_gt hfuel)
      simp [readPoints]
  | cons x ps ih =>
      intro fuel taken hps hfuel
      obtain ⟨fuel, rfl⟩ := Nat.exists_eq_succ_of_ne_zero
        (Nat.ne_of_gt (Nat.zero_lt_of_lt hfuel))
      have hx := hps.half x List.mem_cons_self
      have htail : Points.Unpaired ⟨ps⟩ :=
        ⟨fun y hy => hps.half y (List.mem_cons_of_mem x hy),
          hps.apart.tail⟩
      obtain ⟨d, ds, htext, hquote⟩ := exists_escapePoint x
      -- after a high half there is another point, or the closing quote
      have hnext : x.isHigh → NoLow (ps.flatMap escapePoint ++ '"' :: rest) := by
        intro hhigh
        cases ps with
        | nil =>
            intro a b c d r heq
            exact absurd (List.cons.inj heq).1 (by decide)
        | cons y ps =>
            have hy := (List.isChain_cons_cons.1 hps.apart).1
            rw [List.flatMap_cons, List.append_assoc]
            exact noLow_escapePoint (htail.half y List.mem_cons_self)
              (fun hlow => hy ⟨hhigh, hlow⟩) _
      have hread := readPoint_escapePoint hx hnext
      rw [List.flatMap_cons, List.append_assoc]
      rw [htext, List.cons_append] at hread ⊢
      rw [readPoints, hread]
      · refine (ih fuel _ htail (Nat.lt_of_succ_lt_succ hfuel)).trans ?_
        simp
      · intro r heq
        exact hquote (List.cons.inj heq).1

/-- There are at least as many characters as points, so the length of
the text is fuel enough. -/
theorem length_le_flatMap_escapePoint (ps : List Point) :
    ps.length ≤ (ps.flatMap escapePoint).length := by
  induction ps with
  | nil => exact Nat.le_refl 0
  | cons x ps ih =>
      obtain ⟨d, ds, htext, -⟩ := exists_escapePoint x
      rw [List.flatMap_cons, htext]
      simp only [List.length_cons, List.length_append]
      omega

/-- A text in which no two halves make a pair is read back, whatever
follows. -/
theorem readString_writeText {p : Points} (h : p.Unpaired)
    (rest : List Char) :
    ∃ cs, (writeText p).toList = '"' :: cs ∧
      readString (cs ++ rest) = .ok (p, rest) := by
  refine ⟨p.toList.flatMap escapePoint ++ ['"'], ?_, ?_⟩
  · rw [writeText, String.toList_ofList]
    rfl
  · rw [List.append_assoc, List.singleton_append, readString,
      readPoints_flatMap_escapePoint rest p.toList _ _ h]
    · rfl
    · have := length_le_flatMap_escapePoint p.toList
      simp only [List.length_append]
      omega

-- ============================================================== numbers

/-- Nothing that comes first here could be a part of a number. -/
def Closes (cs : List Char) : Prop :=
  ∀ c ∈ cs.head?, c.isDigit = false ∧ c ≠ '.' ∧ c ≠ 'e' ∧ c ≠ 'E'

/-- What closes a number starts no fraction. -/
theorem Closes.readFraction (h : Closes rest) : readFraction rest = none := by
  cases rest with
  | nil => rfl
  | cons c cs => simp [Json.readFraction, (h c rfl).2.1]

/-- Nor does it start an exponent. -/
theorem Closes.readExponent (h : Closes rest) : readExponent rest = none := by
  cases rest with
  | nil => rfl
  | cons c cs => simp [Json.readExponent, (h c rfl).2.2]

/-- The digits of a number are all the digits there are. -/
theorem Closes.span_toDigits (h : Closes rest) (n : Nat) :
    (Nat.toDigits 10 n ++ rest).takeWhile Char.isDigit = Nat.toDigits 10 n ∧
      (Nat.toDigits 10 n ++ rest).dropWhile Char.isDigit = rest := by
  have hall : ∀ c ∈ Nat.toDigits 10 n, c.isDigit = true := fun c hc =>
    Nat.isDigit_of_mem_toDigits (by decide) (by decide) hc
  rw [List.takeWhile_append_of_pos hall, List.dropWhile_append_of_pos hall]
  cases rest with
  | nil => simp
  | cons c cs => simp [(h c rfl).1]

/-- A number that is not zero does not begin with a zero. -/
theorem exists_toDigits (hn : n ≠ 0) :
    ∃ d ds, Nat.toDigits 10 n = d :: ds ∧ d ≠ '0' := by
  induction n using Nat.strongRecOn with
  | _ n ih =>
  rw [Nat.toDigits_eq_if (by decide)]
  split
  · next hlt =>
      have hdigit : ∀ d, d < 10 → d ≠ 0 → d.digitChar ≠ '0' := by decide
      exact ⟨_, _, rfl, hdigit n hlt hn⟩
  · next hge =>
      obtain ⟨d, ds, htext, hd⟩ := ih (n / 10) (by omega) (by omega)
      exact ⟨d, ds ++ [(n % 10).digitChar], by rw [htext]; rfl, hd⟩

/-- The digits of a number are read up to its end. -/
theorem Closes.readWhole_toDigits (h : Closes rest) (n : Nat) :
    readWhole (Nat.toDigits 10 n ++ rest) = some (Nat.toDigits 10 n, rest) := by
  by_cases hn : n = 0
  · subst hn
    rfl
  · obtain ⟨d, ds, htext, hd⟩ := exists_toDigits hn
    obtain ⟨htake, hdrop⟩ := h.span_toDigits n
    rw [htext, List.cons_append] at htake hdrop ⊢
    rw [readWhole, htake, hdrop]
    intro r heq
    exact hd (List.cons.inj heq).1

/-- And they are read as that number, with either sign. -/
theorem Closes.readMagnitude_toDigits (h : Closes rest) {maxDigits : Nat}
    (hlen : (Nat.toDigits 10 n).length ≤ maxDigits) (negative : Bool) :
    readMagnitude maxDigits negative (Nat.toDigits 10 n ++ rest)
      = .ok (.int (if negative then -(n : Int) else n), rest) := by
  unfold readMagnitude
  rw [h.readWhole_toDigits]
  simp only [h.readFraction, h.readExponent, Option.getD_none, digitsValue,
    Nat.ofDigitChars_ten_toDigits, if_neg (Nat.not_lt.2 hlen)]

/-- The text of a whole number: its digits, behind a hyphen if it is
below zero. -/
theorem toList_toString_int (n : Int) :
    (toString n).toList = if 0 ≤ n then Nat.toDigits 10 n.toNat
      else '-' :: Nat.toDigits 10 (-n).toNat := by
  rw [Int.toString_eq_repr, Int.repr_eq_if]
  split
  · exact Nat.toList_repr
  · rw [String.toList_append, Nat.toList_repr]
    rfl

/-- A number starts with a digit. -/
theorem exists_isDigit_toDigits (n : Nat) :
    ∃ d ds, Nat.toDigits 10 n = d :: ds ∧ d.isDigit = true := by
  obtain ⟨d, ds, htext⟩ := List.exists_cons_of_ne_nil
    (Nat.toDigits_ne_nil (n := n) (b := 10))
  refine ⟨d, ds, htext, Nat.isDigit_of_mem_toDigits (b := 10) (n := n)
    (by decide) (by decide) ?_⟩
  rw [htext]
  exact List.mem_cons_self

/-- A word is not found where another character stands. -/
theorem expectWord_of_ne {w c : Char} (h : w ≠ c) (word cs : List Char) :
    expectWord (w :: word) (c :: cs) = none := by
  rw [expectWord, if_neg h]

/-- A whole number is read back. -/
theorem Closes.readNumber_toString (h : Closes rest) {maxDigits : Nat} (n : Int)
    (hlen : (toString n).toList.length ≤ maxDigits) :
    readNumber maxDigits ((toString n).toList ++ rest) = .ok (.int n, rest) := by
  rw [toList_toString_int] at hlen ⊢
  by_cases hn : 0 ≤ n
  · rw [if_pos hn] at hlen ⊢
    have hread := h.readMagnitude_toDigits hlen false
    obtain ⟨d, ds, htext, hd⟩ := exists_isDigit_toDigits n.toNat
    rw [htext, List.cons_append] at hread ⊢
    rw [readNumber, hread]
    · rw [if_neg Bool.false_ne_true, Int.toNat_of_nonneg hn]
    · -- a digit is no hyphen
      rintro r heq
      rw [(List.cons.inj heq).1] at hd
      cases hd
  · rw [if_neg hn] at hlen ⊢
    have hread := h.readMagnitude_toDigits (Nat.le_of_succ_le hlen) true
    obtain ⟨d, ds, htext, hd⟩ := exists_isDigit_toDigits (-n).toNat
    have hword : expectWord "Infinity".toList
        (Nat.toDigits 10 (-n).toNat ++ rest) = none := by
      rw [htext]
      refine expectWord_of_ne ?_ _ _
      rintro rfl
      cases hd
    rw [List.cons_append, readNumber, hword]
    refine hread.trans ?_
    rw [if_pos rfl, Int.toNat_of_nonneg (by omega), Int.neg_neg]

/-- The text of a whole number begins with no letter. -/
theorem exists_toString_int (n : Int) :
    ∃ d ds, (toString n).toList = d :: ds ∧ (d.isDigit = true ∨ d = '-') := by
  rw [toList_toString_int]
  split
  · obtain ⟨d, ds, htext, hd⟩ := exists_isDigit_toDigits n.toNat
    exact ⟨d, ds, htext, Or.inl hd⟩
  · exact ⟨_, _, rfl, Or.inr rfl⟩

/-- No constant begins like a number. -/
theorem readConstant_eq_none (h : c.isDigit = true ∨ c = '-')
    (cs : List Char) : readConstant (c :: cs) = none := by
  have hnone : ∀ (w : Char) (word : List Char) (value : Value),
      w.isDigit = false → w ≠ '-' →
      (expectWord (w :: word) (c :: cs)).map (fun rest => (value, rest))
        = none := by
    intro w word value hw hw'
    rw [expectWord_of_ne]
    · rfl
    · rintro rfl
      rcases h with h | h
      · rw [hw] at h
        cases h
      · exact hw' h
  rw [readConstant, List.findSome?_eq_none_iff]
  intro x hx
  simp only [constants, List.mem_cons, List.not_mem_nil, or_false] at hx
  rcases hx with rfl | rfl | rfl | rfl | rfl
  · exact hnone 'n' "ull".toList _ (by decide) (by decide)
  · exact hnone 't' "rue".toList _ (by decide) (by decide)
  · exact hnone 'f' "alse".toList _ (by decide) (by decide)
  · exact hnone 'N' "aN".toList _ (by decide) (by decide)
  · exact hnone 'I' "nfinity".toList _ (by decide) (by decide)

end InferTrace.Json
