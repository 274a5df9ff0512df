/-
Legible lexemes: what the scanner gives, and what it gives back.

A lexeme is legible if the text it is shown as spells it, and is not too
long for a literal. Every lexeme of a scan is (`Cursor.fair_scan`): a
number may have lost leading zeros, and everything else is shown as it
was written. Conversely a list of legible lexemes, shown one by one with a
blank between them, is scanned to that list (`scanSource_spaced`). The
blank ends each lexeme: it belongs to no run of word characters and to no
symbol, so that what stands behind it cannot be drawn in.

Both hold in either mode, since a character is only dropped, or refused,
where no lexeme begins. What stands at a place is said once for each
class of characters (`Cursor.item_of_digits` and its companions), and
what becomes of it is said by `Cursor.scan_cons`.
-/
import InferTrace.Proofs.Token.Munch
import Mathlib

namespace InferTrace

variable {c : Char} {w r : List Char} {l : Lexeme} {p : Char → Bool}
  {cur : Cursor}

-- ========================================================== legible

/-- The text that the lexeme is shown as spells it, and it is no literal
that is too long. -/
structure Lexeme.Legible (l : Lexeme) : Prop where
  spells : Spells l.text.toList l
  short : l.cls = .number → l.text.length ≤ Number.maxDigits

/-- A number is spelled by its digits. -/
theorem spells_toDigits (n : Nat) : Spells (Nat.toDigits 10 n) (.number n) := by
  have hall : ∀ c ∈ Nat.toDigits 10 n, c.isDigit = true := fun _ hc =>
    Nat.isDigit_of_mem_toDigits (by decide) (by decide) hc
  have hspells := Spells.number Nat.toDigits_ne_nil hall
  rw [ofDigits_reverse, Nat.ofDigitChars_ten_toDigits] at hspells
  exact hspells

theorem digitOf_lt (h : c.isDigit = true) : digitOf c < 10 := by
  have hrange := toNat_of_isDigit h
  have hzero : '0'.toNat = 48 := rfl
  unfold digitOf
  omega

/-- To write a number takes no more digits than it was read from. -/
theorem length_toDigits_ofDigits_le (hne : w ≠ [])
    (hall : ∀ c ∈ w, c.isDigit = true) :
    (Nat.toDigits 10 (Nat.ofDigits 10 (w.reverse.map digitOf))).length
      ≤ w.length := by
  have hlt : ∀ x ∈ w.reverse.map digitOf, x < 10 := by
    intro x hx
    obtain ⟨c, hc, rfl⟩ := List.mem_map.1 hx
    exact digitOf_lt (hall c (List.mem_reverse.1 hc))
  have hvalue := Nat.ofDigits_lt_base_pow_length (by decide) hlt
  rw [List.length_map, List.length_reverse] at hvalue
  exact (Nat.length_toDigits_le_iff (by decide) (List.length_pos_iff.2 hne)).2
    hvalue

/-- What is spelled, if not by too many digits, is legible. -/
theorem Spells.legible (h : Spells w l)
    (hshort : (∀ c ∈ w, c.isDigit = true) → w.length ≤ Number.maxDigits) :
    l.Legible := by
  cases h with
  | number hne hall =>
      refine ⟨?_, fun _ => ?_⟩
      · show Spells (Nat.repr _).toList _
        rw [Nat.toList_repr]
        exact spells_toDigits _
      · show (Nat.repr _).length ≤ _
        rw [← String.length_toList, Nat.toList_repr]
        exact (length_toDigits_ofDigits_le hne hall).trans (hshort hall)
  | keyword hw => exact ⟨.keyword hw, fun hc => by cases hc⟩
  | yes => exact ⟨.yes, fun hc => by cases hc⟩
  | no => exact ⟨.no, fun hc => by cases hc⟩
  | identifier hc hcs hword =>
      refine ⟨?_, fun hc => by cases hc⟩
      show Spells (String.ofList _).toList _
      rw [String.toList_ofList]
      exact .identifier hc hcs hword
  | punctuation hc =>
      refine ⟨?_, fun hc => by cases hc⟩
      show Spells (String.singleton _).toList _
      rw [String.toList_singleton]
      exact .punctuation hc
  | arrow => exact ⟨.arrow, fun hc => by cases hc⟩
  | operator hop => exact ⟨.operator hop, fun hc => by cases hc⟩

/-- A spelling with a character that is no digit is that of a legible
lexeme. -/
theorem Spells.legible_of_mem (h : Spells w l) (hc : c ∈ w)
    (hdigit : ¬ c.isDigit = true) : l.Legible :=
  h.legible fun hall => absurd (hall c hc) hdigit

-- ================================================= items, by class

namespace Cursor

variable {ch : Char} {n : Nat}

/-- A run of digits that is not too long is a number. -/
theorem item_of_digits (mode : Mode) (hch : ch.isDigit = true)
    (hne : cur.rest.takeWhile Char.isDigit ≠ [])
    (hshort : (cur.rest.takeWhile Char.isDigit).length ≤ Number.maxDigits) :
    cur.item mode ch =
      (.token { lexeme := .number
                  (Nat.ofDigitChars 10 (cur.rest.takeWhile Char.isDigit) 0)
                location := cur.location mode.file },
        cur.passWhile Char.isDigit) := by
  unfold item readNumber
  rw [if_pos hch]
  simp only [List.isEmpty_eq_false_iff.2 hne, Nat.not_lt_of_le hshort,
    decide_false, Bool.or_self, Bool.false_eq_true, if_false]

/-- A run that is too long is a fault. -/
theorem item_of_long (mode : Mode) (hch : ch.isDigit = true)
    (hlong : Number.maxDigits < (cur.rest.takeWhile Char.isDigit).length) :
    cur.item mode ch =
      (.fault { cause := .literalTooLarge
                  (cur.rest.takeWhile Char.isDigit).length
                location := some (cur.location mode.file) },
        cur.passWhile Char.isDigit) := by
  unfold item readNumber
  rw [if_pos hch]
  simp only [hlong, decide_true, Bool.or_true, if_true]

/-- A run of word characters is a word. -/
theorem item_of_word (mode : Mode) (hch : isWordStart ch = true) :
    cur.item mode ch =
      (.token { lexeme := wordLexeme
                  (String.ofList (cur.rest.takeWhile isWordChar))
                location := cur.location mode.file },
        cur.passWhile isWordChar) := by
  have hdigit : ¬ ch.isDigit = true := by
    intro hdigit
    rw [not_isWordStart_of_isDigit hdigit] at hch
    cases hch
  unfold item readWord
  rw [if_neg hdigit, if_pos hch]

/-- A mark is a lexeme by itself. -/
theorem item_of_mark (mode : Mode) (hch : ch ∈ punctuationMarks) :
    cur.item mode ch =
      (.token { lexeme := .punctuation (String.singleton ch)
                location := cur.location mode.file }, cur.pass 1) := by
  have hword := Bool.or_eq_false_iff.1 (not_isWordChar_of_mark hch)
  unfold item
  rw [if_neg (Bool.eq_false_iff.1 hword.2),
    if_neg (Bool.eq_false_iff.1 hword.1), if_pos hch]

/-- A symbol is taken where one is found. -/
theorem item_of_symbol (mode : Mode) (hword : isWordChar ch = false)
    (hmark : ch ∉ punctuationMarks)
    (hl : symbolLexeme? cur.rest = some (l, n)) :
    cur.item mode ch =
      (.token { lexeme := l, location := cur.location mode.file },
        cur.pass n) := by
  obtain ⟨hstart, hdigit⟩ := Bool.or_eq_false_iff.1 hword
  unfold item readSymbol?
  rw [if_neg (Bool.eq_false_iff.1 hdigit),
    if_neg (Bool.eq_false_iff.1 hstart), if_neg hmark, hl]
  rfl

/-- Any other character is refused or dropped. -/
theorem item_of_none (mode : Mode) (hword : isWordChar ch = false)
    (hmark : ch ∉ punctuationMarks) (hl : symbolLexeme? cur.rest = none) :
    cur.item mode ch =
      if mode.strict then
        (.fault { cause := .strayCharacter (String.singleton ch)
                  location := some (cur.location mode.file) }, cur)
      else (.dropped ch (cur.location mode.file), cur.pass 1) := by
  obtain ⟨hstart, hdigit⟩ := Bool.or_eq_false_iff.1 hword
  unfold item readSymbol?
  rw [if_neg (Bool.eq_false_iff.1 hdigit),
    if_neg (Bool.eq_false_iff.1 hstart), if_neg hmark, hl]
  rfl

end Cursor

-- ============================================================= fair

/-- The scanner takes a legible lexeme, drops a character, or finds fault
with the characters alone. -/
def Cursor.Item.Fair : Cursor.Item → Prop
  | .token t => t.lexeme.Legible
  | .dropped _ _ => True
  | .fault f => f.cause.kind = .lexical

namespace Cursor

variable {ch : Char}

/-- The number of a run of digits is legible. -/
theorem fair_number (mode : Mode) (hr : cur.rest = ch :: r)
    (hch : ch.isDigit = true) :
    (cur.item mode ch).1.Fair := by
  have hspells := (@longest_number ch r hch).spells
  rw [← hr, ← List.prefix_iff_eq_take.1 (List.takeWhile_prefix _)] at hspells
  by_cases hlong : Number.maxDigits < (cur.rest.takeWhile Char.isDigit).length
  · rw [item_of_long mode hch hlong]
    exact (rfl : Kind.lexical = .lexical)
  · have hshort := Nat.le_of_not_lt hlong
    rw [item_of_digits mode hch hspells.ne_nil hshort]
    exact hspells.legible fun _ => hshort

/-- So is every lexeme that the scanner takes. -/
theorem fair_item (mode : Mode) (hr : cur.rest = ch :: r) :
    (cur.item mode ch).1.Fair := by
  by_cases hdigit : ch.isDigit = true
  · exact fair_number mode hr hdigit
  by_cases hstart : isWordStart ch = true
  · have hspells := (@longest_word ch r hstart).spells
    rw [← hr, ← List.prefix_iff_eq_take.1 (List.takeWhile_prefix _)] at hspells
    rw [item_of_word mode hstart]
    refine hspells.legible_of_mem (c := ch) ?_ hdigit
    rw [hr, List.takeWhile_cons_of_pos (isWordChar_of_isWordStart hstart)]
    exact .head _
  by_cases hmark : ch ∈ punctuationMarks
  · rw [item_of_mark mode hmark]
    exact (Spells.punctuation hmark).legible_of_mem (.head _) hdigit
  have hword : isWordChar ch = false := by
    simp [isWordChar, hdigit, hstart]
  cases hl : symbolLexeme? cur.rest with
  | some found =>
      have hlongest := longest_symbol hl
      rw [item_of_symbol mode hword hmark hl]
      refine hlongest.spells.legible_of_mem (c := ch) ?_ hdigit
      obtain ⟨k, hk⟩ := Nat.exists_eq_add_one_of_ne_zero hlongest.pos.ne'
      rw [hr, hk, List.take_succ_cons]
      exact .head _
  | none =>
      rw [item_of_none mode hword hmark hl]
      cases mode.strict with
      | true => simp [Item.Fair, Cause.kind]
      | false => simp [Item.Fair]

/-- A scan gives legible lexemes and one end of input, or ends with a
fault of the characters. -/
def Fair : Except Fault (List Token) → Prop
  | .ok tokens => ∃ body place,
      tokens = body ++ [{ lexeme := .endOfInput, location := place }] ∧
        ∀ t ∈ body, t.lexeme.Legible
  | .error fault => fault.cause.kind = .lexical

/-- All lexemes of a scan are legible. -/
theorem fair_scan (cur : Cursor) (mode : Mode) :
    Fair (cur.scan mode).result := by
  fun_induction Cursor.scan cur mode with
  | case1 cur hrest => exact ⟨[], _, rfl, by simp⟩
  | case2 cur ch r hrest token next hitem hlt ih =>
      have hfair := fair_item mode hrest
      rw [hitem] at hfair
      show Fair ((next.scan mode).result.map (token :: ·))
      cases hscan : (next.scan mode).result with
      | ok tokens =>
          rw [hscan] at ih
          obtain ⟨body, place, rfl, hbody⟩ := ih
          exact ⟨token :: body, place, rfl,
            List.forall_mem_cons.2 ⟨hfair, hbody⟩⟩
      | error fault =>
          rw [hscan] at ih
          exact ih
  | case3 cur ch r hrest char place next hitem hlt ih => exact ih
  | case4 cur ch r hrest fault next hitem =>
      have hfair := fair_item mode hrest
      rw [hitem] at hfair
      exact hfair

end Cursor

-- ============================================= a blank ends a lexeme

/-- Nothing follows, or a blank. -/
def Parted (r : List Char) : Prop := ∀ c ∈ r.head?, Text.isBlank c = true

/-- A run ends at the blank behind it. -/
theorem takeWhile_parted (hr : Parted r) (hw : ∀ c ∈ w, p c = true)
    (hp : ∀ c, Text.isBlank c = true → p c = false) :
    (w ++ r).takeWhile p = w := by
  rw [List.takeWhile_append_of_pos hw]
  cases r with
  | nil => exact List.append_nil w
  | cons c r =>
      have hc := hp c (hr c rfl)
      rw [List.takeWhile_cons_of_neg (Bool.eq_false_iff.1 hc), List.append_nil]

/-- A text without blanks that fits in front of the whole fits in front of
the part before the blank. -/
theorem isPrefixOf_parted {s : List Char} (hr : Parted r)
    (hs : ∀ c ∈ s, Text.isBlank c = false) :
    s.isPrefixOf (w ++ r) = s.isPrefixOf w := by
  induction s generalizing w with
  | nil => rfl
  | cons d s ih =>
      obtain ⟨hd, hs⟩ := List.forall_mem_cons.1 hs
      cases w with
      | cons c w =>
          show (d == c && s.isPrefixOf (w ++ r)) = (d == c && s.isPrefixOf w)
          rw [ih hs]
      | nil =>
          cases r with
          | nil => rfl
          | cons c r =>
              have hne : d ≠ c := by
                rintro rfl
                rw [hr d rfl] at hd
                cases hd
              show (d == c && _) = false
              rw [beq_eq_false_iff_ne.2 hne, Bool.false_and]

/-- There is no blank in a symbol. -/
theorem not_isBlank_of_symbol {s : String} (hs : s ∈ symbols) :
    ∀ c ∈ s.toList, Text.isBlank c = false := by
  have hall : symbols.all (fun s => s.toList.all fun c => !Text.isBlank c)
      = true := by
    decide
  intro c hc
  simpa using List.all_eq_true.1 (List.all_eq_true.1 hall s hs) c hc

/-- What follows a blank does not matter to the search for a symbol. -/
theorem symbolLexeme?_parted (hr : Parted r) :
    symbolLexeme? (w ++ r) = symbolLexeme? w := by
  have hfind : operators.find? (fun op => op.toList.isPrefixOf (w ++ r))
      = operators.find? fun op => op.toList.isPrefixOf w := by
    refine List.find?_congr fun op hop => ?_
    exact isPrefixOf_parted hr (not_isBlank_of_symbol (.tail _ hop))
  unfold symbolLexeme?
  rw [hfind, isPrefixOf_parted hr (not_isBlank_of_symbol (.head _))]

namespace Cursor

variable {ch : Char}

/-- At the character `ch` the scanner takes `n` characters as the lexeme. -/
def TakesAs (cur : Cursor) (mode : Mode) (ch : Char) (n : Nat) (l : Lexeme) :
    Prop :=
  cur.item mode ch =
    (.token { lexeme := l, location := cur.location mode.file }, cur.pass n)

/-- A run that a blank ends is passed as a whole. -/
theorem passWhile_parted (hrest : cur.rest = w ++ r) (hr : Parted r)
    (hw : ∀ c ∈ w, p c = true)
    (hp : ∀ c, Text.isBlank c = true → p c = false) :
    cur.rest.takeWhile p = w ∧ cur.passWhile p = cur.pass w.length := by
  have htake : cur.rest.takeWhile p = w := by
    rw [hrest]
    exact takeWhile_parted hr hw hp
  exact ⟨htake, by rw [passWhile_eq_pass, htake]⟩

/-- Digits in front of a blank are taken as their number. -/
theorem takesAs_number (mode : Mode) (hrest : cur.rest = w ++ r) (hr : Parted r)
    (hw : ∀ c ∈ w, c.isDigit = true) (hch : ch ∈ w)
    (hshort : w.length ≤ Number.maxDigits) :
    cur.TakesAs mode ch w.length (.number (Nat.ofDigitChars 10 w 0)) := by
  obtain ⟨htake, hpass⟩ := passWhile_parted hrest hr hw fun c hc => by
    have hword := not_isWordChar_of_isBlank hc
    exact (Bool.or_eq_false_iff.1 hword).2
  have hne : w ≠ [] := List.ne_nil_of_mem hch
  rw [← htake] at hne hshort
  have hitem := item_of_digits mode (hw ch hch) hne hshort
  rw [htake, hpass] at hitem
  exact hitem

/-- Word characters in front of a blank are taken as their word. -/
theorem takesAs_word (mode : Mode) (hrest : cur.rest = w ++ r) (hr : Parted r)
    (hw : ∀ c ∈ w, isWordChar c = true) (hch : isWordStart ch = true) :
    cur.TakesAs mode ch w.length (wordLexeme (String.ofList w)) := by
  obtain ⟨htake, hpass⟩ := passWhile_parted hrest hr hw fun c hc =>
    not_isWordChar_of_isBlank hc
  have hitem : cur.item mode ch = _ := item_of_word mode hch
  rw [htake, hpass] at hitem
  exact hitem

/-- A symbol in front of a blank is taken as such. -/
theorem takesAs_symbol (mode : Mode) {s : String}
    (hrest : cur.rest = s.toList ++ r) (hr : Parted r) (hs : s ∈ symbols)
    (hch : ch ∈ s.toList)
    (hl : symbolLexeme? s.toList = some (l, s.toList.length)) :
    cur.TakesAs mode ch s.toList.length l := by
  obtain ⟨hword, hmark⟩ := (class_of_symbol hs).2 ch hch
  apply item_of_symbol mode hword hmark
  rw [hrest, symbolLexeme?_parted hr, hl]

/-- And so is a reserved word. -/
theorem takesAs_reserved (mode : Mode) {word : String}
    (hrest : cur.rest = word.toList ++ r) (hr : Parted r)
    (hword : word ∈ reservedWords) (hch : word.toList.head? = some ch) :
    cur.TakesAs mode ch word.toList.length (wordLexeme word) := by
  obtain ⟨c, cs, heq, hstart, hall⟩ := class_of_reserved hword
  rw [heq] at hch
  cases hch
  rw [← heq] at hall
  have hitem := takesAs_word mode hrest hr hall hstart
  rw [String.ofList_toList] at hitem
  exact hitem

/-- What spells a lexeme is taken as that lexeme, if a blank or nothing
follows. -/
theorem takesAs_of_spells (mode : Mode) (h : Spells w l)
    (hshort : l.cls = .number → w.length ≤ Number.maxDigits)
    (hrest : cur.rest = w ++ r) (hr : Parted r) (hch : w.head? = some ch) :
    cur.TakesAs mode ch w.length l := by
  have hmem : ch ∈ w := List.mem_of_head? hch
  cases h with
  | number hne hall =>
      rw [ofDigits_reverse]
      exact takesAs_number mode hrest hr hall hmem (hshort rfl)
  | @keyword word hword =>
      have hitem := takesAs_reserved mode hrest hr
        (List.mem_append_left _ hword) hch
      rw [wordLexeme, if_pos hword] at hitem
      exact hitem
  | yes => exact takesAs_reserved mode hrest hr (by decide) hch
  | no => exact takesAs_reserved mode hrest hr (by decide) hch
  | @identifier c cs hc hcs hword =>
      cases hch
      have hall : ∀ d ∈ ch :: cs, isWordChar d = true :=
        List.forall_mem_cons.2 ⟨isWordChar_of_isWordStart hc, hcs⟩
      have hitem := takesAs_word mode hrest hr hall hc
      simp only [reservedWords, List.mem_append, List.mem_cons, not_or] at hword
      rw [wordLexeme, if_neg hword.1, if_neg hword.2.1, if_neg hword.2.2.1]
        at hitem
      exact hitem
  | punctuation hc =>
      cases hch
      exact item_of_mark mode hc
  | arrow => exact takesAs_symbol mode hrest hr (.head _) hmem (by decide)
  | @operator op hop =>
      have hall : ∀ op ∈ operators, symbolLexeme? op.toList
          = some (.operator op, op.toList.length) := by
        decide
      exact takesAs_symbol mode hrest hr (.tail _ hop) hmem (hall op hop)

-- ============================================================ scans

/-- How a scan goes on from an item. -/
def resume (mode : Mode) : Item × Cursor → Scan
  | (.token token, next) => (next.scan mode).after token
  | (.dropped char place, next) => (next.scan mode).dropping char place
  | (.fault fault, next) => { result := .error fault, stop := next }

/-- At the end there is the end of input. -/
theorem scan_nil {mode : Mode} (hrest : cur.skipBlanks.rest = []) :
    cur.scan mode =
      { result := .ok [{ lexeme := .endOfInput
                         location := cur.skipBlanks.location mode.file }]
        stop := cur.skipBlanks } := by
  rw [scan]
  split
  · rfl
  · next hcons =>
    rw [hrest] at hcons
    cases hcons

/-- Anywhere else the scan goes on behind the item. -/
theorem scan_cons {mode : Mode} (hrest : cur.skipBlanks.rest = ch :: r) :
    cur.scan mode = resume mode (cur.skipBlanks.item mode ch) := by
  rw [scan]
  split
  · next hnil =>
    rw [hrest] at hnil
    cases hnil
  · next hcons =>
    rw [hrest] at hcons
    cases hcons
    split
    · next hitem => exact (congrArg (resume mode) hitem).symm
    · next hitem => exact (congrArg (resume mode) hitem).symm
    · next hitem => exact (congrArg (resume mode) hitem).symm

end Cursor

-- ====================================================== spaced texts

/-- The lexemes as they are shown, with a blank between any two. -/
def spaced (ls : List Lexeme) : String :=
  " ".intercalate (ls.map Lexeme.text)

variable {ls : List Lexeme}

/-- A lexeme begins with no blank. -/
theorem Spells.not_isBlank (h : Spells (c :: w) l) :
    Text.isBlank c = false := by
  refine Bool.eq_false_iff.2 fun hblank => ?_
  have hword := Cursor.not_isWordChar_of_isBlank hblank
  cases h.shape_cons with
  | digits hc =>
      rw [isWordChar_of_isDigit hc] at hword
      cases hword
  | word hc =>
      rw [isWordChar_of_isWordStart hc] at hword
      cases hword
  | mark hc =>
      have hall : punctuationMarks.all (fun c => !Text.isBlank c) = true := by
        decide
      simpa [hblank] using List.all_eq_true.1 hall c hc
  | symbol _ _ hs heq =>
      rw [not_isBlank_of_symbol hs c (heq ▸ .head _)] at hblank
      cases hblank

/-- Behind the first lexeme, a blank leads to the others. -/
theorem toList_spaced_cons (l : Lexeme) (ls : List Lexeme) :
    ∃ r, (spaced (l :: ls)).toList = l.text.toList ++ r ∧
      (ls = [] ∧ r = [] ∨ r = ' ' :: (spaced ls).toList) := by
  cases ls with
  | nil => exact ⟨[], by simp [spaced], Or.inl ⟨rfl, rfl⟩⟩
  | cons l' ls =>
      refine ⟨_, ?_, Or.inr rfl⟩
      simp [spaced, String.intercalate_cons_cons]

/-- A text of lexemes does not start with a blank. -/
theorem dropWhile_spaced (h : ∀ l ∈ ls, l.Legible) :
    (spaced ls).toList.dropWhile Text.isBlank = (spaced ls).toList := by
  cases ls with
  | nil => simp [spaced]
  | cons l ls =>
      obtain ⟨r, hr, -⟩ := toList_spaced_cons l ls
      have hspells := (h l (.head _)).spells
      obtain ⟨c, w, hw, -⟩ := hspells.shape
      rw [hw] at hr hspells
      rw [hr, List.cons_append, List.dropWhile_cons_of_neg]
      exact Bool.eq_false_iff.1 hspells.not_isBlank

/-- A scan that comes to stand before spaced lexemes gives them. -/
theorem Cursor.scan_spaced (mode : Mode) (h : ∀ l ∈ ls, l.Legible) :
    ∀ cur : Cursor, cur.skipBlanks.rest = (spaced ls).toList →
      ∃ tokens, (cur.scan mode).result = .ok tokens ∧
        tokens.map Token.lexeme = ls ++ [.endOfInput] := by
  induction ls with
  | nil =>
      intro cur hcur
      have hnil : cur.skipBlanks.rest = [] := by
        rw [hcur]
        simp [spaced]
      rw [scan_nil hnil]
      exact ⟨_, rfl, rfl⟩
  | cons l ls ih =>
      intro cur hcur
      obtain ⟨hl, hls⟩ := List.forall_mem_cons.1 h
      obtain ⟨r, hr, hgap⟩ := toList_spaced_cons l ls
      rw [hr] at hcur
      have hparted : Parted r := by
        intro c hc
        rcases hgap with ⟨-, rfl⟩ | rfl
        · cases hc
        · cases hc
          decide
      obtain ⟨ch, w, hw, -⟩ := hl.spells.shape
      have hhead : l.text.toList.head? = some ch := by
        rw [hw]
        rfl
      have hitem := takesAs_of_spells mode hl.spells hl.short hcur hparted hhead
      have hnext : (cur.skipBlanks.pass l.text.toList.length).skipBlanks.rest
          = (spaced ls).toList := by
        show ((cur.skipBlanks.rest.drop _).dropWhile _) = _
        rw [hcur, List.drop_left]
        rcases hgap with ⟨rfl, rfl⟩ | rfl
        · simp [spaced]
        · rw [List.dropWhile_cons_of_pos (by decide), dropWhile_spaced hls]
      obtain ⟨tokens, htokens, hlexemes⟩ := ih hls _ hnext
      rw [hw] at hcur
      have hresult : (cur.scan mode).result = .ok
          ({ lexeme := l, location := cur.skipBlanks.location mode.file }
            :: tokens) := by
        rw [scan_cons hcur, hitem]
        show Except.map _ _ = _
        rw [htokens]
        rfl
      exact ⟨_, hresult, congrArg (l :: ·) hlexemes⟩

/-- Legible lexemes are read back from the text that shows them. -/
theorem scanSource_spaced (mode : Mode) (h : ∀ l ∈ ls, l.Legible) :
    ∃ tokens, (scanSource mode (spaced ls)).result = .ok tokens ∧
      tokens.map Token.lexeme = ls ++ [.endOfInput] := by
  refine Cursor.scan_spaced mode h _ ?_
  exact dropWhile_spaced h

end InferTrace
