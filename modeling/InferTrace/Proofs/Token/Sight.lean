/-
What the scanner sees at a place, apart from where the place is.

Which item the scanner finds, and how many characters it passes for it,
depends on the characters ahead only; the position goes into the place of
the item and nowhere else (`Cursor.item_of_sees`). `Cursor.Sees` says
what is seen, with one case for each way in which an item is found, so
that a statement about items needs no look into the readers.

Nothing is seen behind a blank: what is seen in a text is also seen if a
blank follows it, whatever comes then (`Cursor.Sees.append`).
-/
import InferTrace.Proofs.Token.Spaced

namespace InferTrace

namespace Cursor

variable {mode : Mode} {ch c : Char} {r r' w : List Char} {l : Lexeme}
  {n : Nat} {cur : Cursor}

-- ============================================================= sights

/-- An item without its place. -/
inductive Sight where
  | lexeme (lexeme : Lexeme)
  | stray (char : Char)
  | bad (cause : Cause)
deriving DecidableEq, Repr

/-- The item that is seen at a place. -/
def Sight.item (place : Location) : Sight → Item
  | lexeme l => .token { lexeme := l, location := place }
  | stray c => .dropped c place
  | bad cause => .fault { cause, location := some place }

/-- In front of the text `r`, which begins with `ch`, the scanner sees
this, and it passes so many characters. -/
inductive Sees (mode : Mode) (ch : Char) (r : List Char) :
    Sight → Nat → Prop
  | number : ch.isDigit = true → r.takeWhile Char.isDigit ≠ [] →
      (r.takeWhile Char.isDigit).length ≤ Number.maxDigits →
      Sees mode ch r
        (.lexeme (.number (Nat.ofDigitChars 10 (r.takeWhile Char.isDigit) 0)))
        (r.takeWhile Char.isDigit).length
  | long : ch.isDigit = true →
      Number.maxDigits < (r.takeWhile Char.isDigit).length →
      Sees mode ch r
        (.bad (.literalTooLarge (r.takeWhile Char.isDigit).length))
        (r.takeWhile Char.isDigit).length
  | word : isWordStart ch = true →
      Sees mode ch r
        (.lexeme (wordLexeme (String.ofList (r.takeWhile isWordChar))))
        (r.takeWhile isWordChar).length
  | mark : ch ∈ punctuationMarks →
      Sees mode ch r (.lexeme (.punctuation (String.singleton ch))) 1
  | symbol {l : Lexeme} {n : Nat} : isWordChar ch = false →
      ch ∉ punctuationMarks → symbolLexeme? r = some (l, n) →
      Sees mode ch r (.lexeme l) n
  | refused : isWordChar ch = false → ch ∉ punctuationMarks →
      symbolLexeme? r = none → mode.strict = true →
      Sees mode ch r (.bad (.strayCharacter (String.singleton ch))) 0
  | dropped : isWordChar ch = false → ch ∉ punctuationMarks →
      symbolLexeme? r = none → mode.strict = false →
      Sees mode ch r (.stray ch) 1

variable {s : Sight}

/-- Something is seen at every character. -/
theorem exists_sees (mode : Mode) (ch : Char) (r : List Char) :
    ∃ s n, Sees mode ch (ch :: r) s n := by
  by_cases hdigit : ch.isDigit = true
  · by_cases hlong : Number.maxDigits
        < ((ch :: r).takeWhile Char.isDigit).length
    · exact ⟨_, _, .long hdigit hlong⟩
    · refine ⟨_, _, .number hdigit ?_ (Nat.le_of_not_lt hlong)⟩
      rw [List.takeWhile_cons_of_pos hdigit]
      exact List.cons_ne_nil _ _
  by_cases hstart : isWordStart ch = true
  · exact ⟨_, _, .word hstart⟩
  by_cases hmark : ch ∈ punctuationMarks
  · exact ⟨_, _, .mark hmark⟩
  have hword : isWordChar ch = false := by
    simp [isWordChar, hdigit, hstart]
  cases hl : symbolLexeme? (ch :: r) with
  | some found => exact ⟨_, _, .symbol hword hmark hl⟩
  | none =>
      cases hstrict : mode.strict with
      | true => exact ⟨_, _, .refused hword hmark hl hstrict⟩
      | false => exact ⟨_, _, .dropped hword hmark hl hstrict⟩

/-- What is seen is found, at the place of the cursor. -/
theorem item_of_sees (h : Sees mode ch cur.rest s n) :
    cur.item mode ch = (s.item (cur.location mode.file), cur.pass n) := by
  cases h with
  | number hdigit hne hshort =>
      rw [item_of_digits mode hdigit hne hshort, passWhile_eq_pass]
      rfl
  | long hdigit hlong =>
      rw [item_of_long mode hdigit hlong, passWhile_eq_pass]
      rfl
  | word hstart =>
      rw [item_of_word mode hstart, passWhile_eq_pass]
      rfl
  | mark hmark => exact item_of_mark mode hmark
  | symbol hword hmark hl => exact item_of_symbol mode hword hmark hl
  | refused hword hmark hl hstrict =>
      rw [item_of_none mode hword hmark hl, if_pos hstrict]
      rfl
  | dropped hword hmark hl hstrict =>
      rw [item_of_none mode hword hmark hl, if_neg (by simp [hstrict])]
      rfl

/-- What is found has been seen, and is passed. -/
theorem sees_of_item {i : Item} {next : Cursor} (hr : cur.rest = ch :: r)
    (hitem : cur.item mode ch = (i, next)) :
    ∃ s n, Sees mode ch (ch :: r) s n ∧
      i = s.item (cur.location mode.file) ∧ next = cur.pass n := by
  obtain ⟨s, n, hsees⟩ := exists_sees mode ch r
  rw [← hr] at hsees
  rw [item_of_sees hsees] at hitem
  cases hitem
  exact ⟨s, n, hr ▸ hsees, rfl, rfl⟩

theorem Sees.le_length (h : Sees mode ch (ch :: r) s n) :
    n ≤ (ch :: r).length := by
  cases h with
  | number | long | word => exact (List.takeWhile_prefix _).length_le
  | mark => exact Nat.le_add_left 1 _
  | symbol _ _ hl => exact (longest_symbol hl).le
  | refused => exact Nat.zero_le _
  | dropped => exact Nat.le_add_left 1 _

-- ===================================================== behind a blank

/-- A run ends at the latest where a blank follows. -/
theorem takeWhile_append_parted {f : Char → Bool} (hr : Parted r')
    (hf : ∀ c, Text.isBlank c = true → f c = false) :
    (w ++ r').takeWhile f = w.takeWhile f := by
  induction w with
  | nil => exact takeWhile_parted hr (by simp) hf
  | cons c w ih =>
      by_cases hc : f c = true
      · rw [List.cons_append, List.takeWhile_cons_of_pos hc,
          List.takeWhile_cons_of_pos hc, ih]
      · rw [List.cons_append, List.takeWhile_cons_of_neg hc,
          List.takeWhile_cons_of_neg hc]

theorem not_isDigit_of_isBlank (h : Text.isBlank c = true) :
    c.isDigit = false :=
  (Bool.or_eq_false_iff.1 (not_isWordChar_of_isBlank h)).2

/-- What follows a blank does not change what is seen before it. -/
theorem Sees.append (h : Sees mode ch r s n) (hr : Parted r') :
    Sees mode ch (r ++ r') s n := by
  have hdigits : (r ++ r').takeWhile Char.isDigit = r.takeWhile Char.isDigit :=
    takeWhile_append_parted hr fun _ => not_isDigit_of_isBlank
  have hword : (r ++ r').takeWhile isWordChar = r.takeWhile isWordChar :=
    takeWhile_append_parted hr fun _ => not_isWordChar_of_isBlank
  have hsymbol : symbolLexeme? (r ++ r') = symbolLexeme? r :=
    symbolLexeme?_parted hr
  cases h with
  | number hch hne hshort =>
      rw [← hdigits] at hne hshort ⊢
      exact .number hch hne hshort
  | long hch hlong =>
      rw [← hdigits] at hlong ⊢
      exact .long hch hlong
  | word hch =>
      rw [← hword]
      exact .word hch
  | mark hch => exact .mark hch
  | symbol hch hmark hl => exact .symbol hch hmark (hsymbol.trans hl)
  | refused hch hmark hl hstrict =>
      exact .refused hch hmark (hsymbol.trans hl) hstrict
  | dropped hch hmark hl hstrict =>
      exact .dropped hch hmark (hsymbol.trans hl) hstrict

end Cursor

end InferTrace
