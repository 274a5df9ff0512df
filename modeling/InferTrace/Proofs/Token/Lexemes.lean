/-
How lexemes are spelled, and that the readers take the longest spelling.

`Spells` says of a piece of text what it is, class by class, and says
nothing of what stands around it: `in` is a keyword at the front of
`inner`, and `=` is an operator at the front of `==`. Which piece is taken
is another question. `Longest` answers it: at the front of a text, the
piece that spells a lexeme, when no longer one spells any.

The first character decides the class (`Spells.shape`), since the classes
share none. Digits and words are taken as runs, and a run cannot be made
longer (`longest_run`). Symbols are looked up in a list that is sorted by
length, so the first that fits is the longest (`longest_symbol`).
-/
import InferTrace.Token.Scanner
import Mathlib.Data.Nat.Digits.Defs

namespace InferTrace

variable {c : Char} {w cs r : List Char} {l : Lexeme} {n : Nat}

-- ========================================================= spelling

/-- The value of a digit. -/
def digitOf (c : Char) : Nat := c.toNat - '0'.toNat

/-- The words that are no identifiers. -/
def reservedWords : List String := keywords ++ ["true", "false"]

/-- The characters spell the lexeme. -/
inductive Spells : List Char → Lexeme → Prop
  | number {ds : List Char} : ds ≠ [] → (∀ c ∈ ds, c.isDigit = true) →
      Spells ds (.number (Nat.ofDigits 10 (ds.reverse.map digitOf) : Nat))
  | keyword {word : String} : word ∈ keywords →
      Spells word.toList (.keyword word)
  | yes : Spells "true".toList (.boolean true)
  | no : Spells "false".toList (.boolean false)
  | identifier {c : Char} {cs : List Char} : isWordStart c = true →
      (∀ d ∈ cs, isWordChar d = true) →
        String.ofList (c :: cs) ∉ reservedWords →
          Spells (c :: cs) (.identifier (String.ofList (c :: cs)))
  | punctuation {c : Char} : c ∈ punctuationMarks →
      Spells [c] (.punctuation (String.singleton c))
  | arrow : Spells arrowSymbol.toList (.arrow arrowSymbol)
  | operator {op : String} : op ∈ operators →
      Spells op.toList (.operator op)

/-- The arrow and the operators. -/
def symbols : List String := arrowSymbol :: operators

-- ============================================== the first character

/-- The digits are the ten code points from that of zero on. -/
theorem toNat_of_isDigit (h : c.isDigit = true) :
    48 ≤ c.toNat ∧ c.toNat ≤ 57 := by
  have hrange : 48 ≤ c.val ∧ c.val ≤ 57 := by
    simpa [Char.isDigit] using h
  exact hrange

/-- Words start with the low line or with a letter. -/
theorem toNat_of_isWordStart (h : isWordStart c = true) :
    c.toNat = 95 ∨ 65 ≤ c.toNat ∧ c.toNat ≤ 90 ∨
      97 ≤ c.toNat ∧ c.toNat ≤ 122 := by
  have hcases : (c == '_' || (c.isUpper || c.isLower)) = true := h
  rw [Bool.or_eq_true, Bool.or_eq_true, beq_iff_eq] at hcases
  rcases hcases with rfl | hupper | hlower
  · exact Or.inl rfl
  · have hrange : 65 ≤ c.val ∧ c.val ≤ 90 := of_decide_eq_true hupper
    exact Or.inr (Or.inl hrange)
  · have hboth : (decide (97 ≤ c.val) && decide (c.val ≤ 122)) = true := hlower
    have hrange : 97 ≤ c.val ∧ c.val ≤ 122 := by simpa using hboth
    exact Or.inr (Or.inr hrange)

/-- No word starts with a digit. -/
theorem not_isWordStart_of_isDigit (h : c.isDigit = true) :
    isWordStart c = false := by
  refine Bool.eq_false_iff.2 fun hstart => ?_
  have hdigit := toNat_of_isDigit h
  have hletter := toNat_of_isWordStart hstart
  omega

/-- But a word may go on with one. -/
theorem isWordChar_of_isDigit (h : c.isDigit = true) :
    isWordChar c = true := by
  simp [isWordChar, h]

theorem isWordChar_of_isWordStart (h : isWordStart c = true) :
    isWordChar c = true := by
  simp [isWordChar, h]

/-- A mark is part of no word. -/
theorem not_isWordChar_of_mark (h : c ∈ punctuationMarks) :
    isWordChar c = false := by
  have hall : punctuationMarks.all (fun c => !isWordChar c) = true := by decide
  simpa using List.all_eq_true.1 hall c h

/-- The characters of a symbol are neither those of words nor marks. -/
theorem class_of_symbol {s : String} (hs : s ∈ symbols) :
    s.toList ≠ [] ∧ ∀ c ∈ s.toList, isWordChar c = false ∧
      c ∉ punctuationMarks := by
  have hall : symbols.all (fun s => !s.toList.isEmpty && s.toList.all
      fun c => !isWordChar c && !punctuationMarks.contains c) = true := by
    decide
  have hs' := List.all_eq_true.1 hall s hs
  rw [Bool.and_eq_true, List.all_eq_true] at hs'
  refine ⟨by simpa using hs'.1, fun c hc => ?_⟩
  simpa using hs'.2 c hc

/-- What a piece of text that spells a lexeme is made of, by its first
character. -/
inductive Shape (c : Char) (cs : List Char) : Prop
  | digits : c.isDigit = true → (∀ d ∈ c :: cs, d.isDigit = true) → Shape c cs
  | word : isWordStart c = true → (∀ d ∈ c :: cs, isWordChar d = true) →
      Shape c cs
  | mark : c ∈ punctuationMarks → cs = [] → Shape c cs
  | symbol {s : String} : isWordChar c = false → c ∉ punctuationMarks →
      s ∈ symbols → s.toList = c :: cs → Shape c cs

/-- A symbol has the shape of a lexeme. -/
theorem shape_of_symbol {s : String} (hs : s ∈ symbols) :
    ∃ c cs, s.toList = c :: cs ∧ Shape c cs := by
  obtain ⟨hne, hclass⟩ := class_of_symbol hs
  obtain ⟨c, cs, heq⟩ := List.exists_cons_of_ne_nil hne
  have hc := hclass c (heq ▸ .head _)
  exact ⟨c, cs, heq, .symbol hc.1 hc.2 hs heq⟩

/-- So has a word. -/
theorem shape_of_word (hc : isWordStart c = true)
    (hcs : ∀ d ∈ cs, isWordChar d = true) : Shape c cs :=
  .word hc (List.forall_mem_cons.2 ⟨isWordChar_of_isWordStart hc, hcs⟩)

/-- The reserved words are words. -/
theorem class_of_reserved {s : String} (hs : s ∈ reservedWords) :
    ∃ c cs, s.toList = c :: cs ∧ isWordStart c = true ∧
      ∀ d ∈ c :: cs, isWordChar d = true := by
  have hall : reservedWords.all (fun s => s.toList.head?.any isWordStart
      && s.toList.all isWordChar) = true := by
    decide
  have hs' := List.all_eq_true.1 hall s hs
  rw [Bool.and_eq_true] at hs'
  cases heq : s.toList with
  | nil =>
      rw [heq] at hs'
      cases hs'.1
  | cons c cs =>
      rw [heq] at hs'
      exact ⟨c, cs, rfl, hs'.1, List.all_eq_true.1 hs'.2⟩

theorem shape_of_reserved {s : String} (hs : s ∈ reservedWords) :
    ∃ c cs, s.toList = c :: cs ∧ Shape c cs := by
  obtain ⟨c, cs, heq, hc, hall⟩ := class_of_reserved hs
  exact ⟨c, cs, heq, .word hc hall⟩

/-- Every spelling has the shape of a lexeme. -/
theorem Spells.shape (h : Spells w l) : ∃ c cs, w = c :: cs ∧ Shape c cs := by
  cases h with
  | number hne hall =>
      obtain ⟨c, cs, rfl⟩ := List.exists_cons_of_ne_nil hne
      exact ⟨c, cs, rfl, .digits (hall c (.head _)) hall⟩
  | keyword hw => exact shape_of_reserved (List.mem_append_left _ hw)
  | yes => exact shape_of_reserved (by decide)
  | no => exact shape_of_reserved (by decide)
  | identifier hc hcs => exact ⟨_, _, rfl, shape_of_word hc hcs⟩
  | @punctuation c hc => exact ⟨c, [], rfl, .mark hc rfl⟩
  | arrow => exact shape_of_symbol (.head _)
  | operator hop => exact shape_of_symbol (.tail _ hop)

theorem Spells.ne_nil (h : Spells w l) : w ≠ [] := by
  obtain ⟨c, cs, rfl, _⟩ := h.shape
  exact List.cons_ne_nil c cs

/-- The end of input is spelled by nothing. -/
theorem Spells.ne_endOfInput (h : Spells w l) : l ≠ .endOfInput := by
  rintro rfl
  cases h

theorem Spells.shape_cons (h : Spells (c :: cs) l) : Shape c cs := by
  obtain ⟨c', cs', heq, hshape⟩ := h.shape
  obtain ⟨rfl, rfl⟩ := List.cons.inj heq
  exact hshape

-- where the first character is of one class, the others are ruled out

/-- What starts with a digit is all digits. -/
theorem Shape.digits_of_isDigit (h : Shape c cs) (hc : c.isDigit = true) :
    ∀ d ∈ c :: cs, d.isDigit = true := by
  have hword := isWordChar_of_isDigit hc
  cases h with
  | digits _ hall => exact hall
  | word hstart =>
      rw [not_isWordStart_of_isDigit hc] at hstart
      cases hstart
  | mark hmark =>
      rw [not_isWordChar_of_mark hmark] at hword
      cases hword
  | symbol hnot =>
      rw [hnot] at hword
      cases hword

/-- What starts like a word is a word. -/
theorem Shape.word_of_isWordStart (h : Shape c cs)
    (hc : isWordStart c = true) : ∀ d ∈ c :: cs, isWordChar d = true := by
  have hword := isWordChar_of_isWordStart hc
  cases h with
  | digits hdigit =>
      rw [not_isWordStart_of_isDigit hdigit] at hc
      cases hc
  | word _ hall => exact hall
  | mark hmark =>
      rw [not_isWordChar_of_mark hmark] at hword
      cases hword
  | symbol hnot =>
      rw [hnot] at hword
      cases hword

/-- A mark stands alone. -/
theorem Shape.eq_nil_of_mark (h : Shape c cs) (hc : c ∈ punctuationMarks) :
    cs = [] := by
  have hword := not_isWordChar_of_mark hc
  cases h with
  | digits hdigit =>
      rw [isWordChar_of_isDigit hdigit] at hword
      cases hword
  | word hstart =>
      rw [isWordChar_of_isWordStart hstart] at hword
      cases hword
  | mark _ hnil => exact hnil
  | symbol _ hnot => exact absurd hc hnot

/-- What starts in no other way is a symbol. -/
theorem Shape.exists_symbol (h : Shape c cs) (hword : isWordChar c = false)
    (hmark : c ∉ punctuationMarks) : ∃ s ∈ symbols, s.toList = c :: cs := by
  cases h with
  | digits hdigit =>
      rw [isWordChar_of_isDigit hdigit] at hword
      cases hword
  | word hstart =>
      rw [isWordChar_of_isWordStart hstart] at hword
      cases hword
  | mark hc => exact absurd hc hmark
  | symbol _ _ hs heq => exact ⟨_, hs, heq⟩

-- ================================================ the longest piece

/-- At the front of the text the first `n` characters spell the lexeme,
and no longer piece spells any. -/
structure Longest (r : List Char) (n : Nat) (l : Lexeme) : Prop where
  le : n ≤ r.length
  spells : Spells (r.take n) l
  none_longer : ∀ m l', n < m → m ≤ r.length → ¬ Spells (r.take m) l'

/-- A lexeme takes at least one character. -/
theorem Longest.pos (h : Longest r n l) : 0 < n := by
  refine Nat.pos_of_ne_zero fun hn => h.spells.ne_nil ?_
  rw [hn, List.take_zero]

/-- A run of one kind of characters is the longest piece if all pieces
are made of them. -/
theorem longest_run {p : Char → Bool} (hspells : Spells (r.takeWhile p) l)
    (hall : ∀ m l', Spells (r.take m) l' → ∀ d ∈ r.take m, p d = true) :
    Longest r (r.takeWhile p).length l := by
  have hfront : r.takeWhile p <+: r := List.takeWhile_prefix p
  refine ⟨hfront.length_le, ?_, fun m l' hlt hle h => ?_⟩
  · rw [← List.prefix_iff_eq_take.1 hfront]
    exact hspells
  · have hrun : r.takeWhile p = r.take m ++ (r.drop m).takeWhile p := by
      rw [← List.takeWhile_append_of_pos (hall m l' h), List.take_append_drop]
    have hlength := congrArg List.length hrun
    rw [List.length_append, List.length_take, Nat.min_eq_left hle] at hlength
    omega

-- ========================================================== readers

/-- Digits read from the left are digits weighed by their places. -/
theorem ofDigits_reverse (ds : List Char) :
    Nat.ofDigits 10 (ds.reverse.map digitOf) = Nat.ofDigitChars 10 ds 0 := by
  rw [Nat.ofDigits_eq_foldr, Nat.ofDigitChars_eq_foldl, List.map_reverse,
    List.foldr_reverse, List.foldl_map]
  simp [digitOf, Nat.add_comm]

/-- The run of digits is the longest number. -/
theorem longest_number (hc : c.isDigit = true) :
    let ds := (c :: cs).takeWhile Char.isDigit
    Longest (c :: cs) ds.length (.number (Nat.ofDigitChars 10 ds 0)) := by
  intro ds
  have hall : ∀ d ∈ ds, d.isDigit = true :=
    List.all_eq_true.1 List.all_takeWhile
  have hne : ds ≠ [] := by
    show (c :: cs).takeWhile Char.isDigit ≠ []
    rw [List.takeWhile_cons_of_pos hc]
    exact List.cons_ne_nil _ _
  refine longest_run ?_ fun m l' h => ?_
  · rw [← ofDigits_reverse]
    exact .number hne hall
  · cases m with
    | zero => exact absurd rfl h.ne_nil
    | succ m => exact h.shape_cons.digits_of_isDigit hc

/-- A word spells what the table of words says. -/
theorem spells_wordLexeme (hc : isWordStart c = true)
    (hcs : ∀ d ∈ cs, isWordChar d = true) :
    Spells (c :: cs) (wordLexeme (String.ofList (c :: cs))) := by
  have hlist : (String.ofList (c :: cs)).toList = c :: cs :=
    String.toList_ofList
  unfold wordLexeme
  by_cases hkeyword : String.ofList (c :: cs) ∈ keywords
  · rw [if_pos hkeyword]
    have hspells := Spells.keyword hkeyword
    rw [hlist] at hspells
    exact hspells
  rw [if_neg hkeyword]
  by_cases htrue : String.ofList (c :: cs) = "true"
  · rw [if_pos htrue, ← hlist, htrue]
    exact .yes
  rw [if_neg htrue]
  by_cases hfalse : String.ofList (c :: cs) = "false"
  · rw [if_pos hfalse, ← hlist, hfalse]
    exact .no
  rw [if_neg hfalse]
  refine .identifier hc hcs fun hreserved => ?_
  rcases List.mem_append.1 hreserved with hmem | hmem
  · exact hkeyword hmem
  · rcases List.mem_cons.1 hmem with heq | hmem
    · exact htrue heq
    · exact hfalse (List.mem_singleton.1 hmem)

/-- The run of word characters is the longest word. -/
theorem longest_word (hc : isWordStart c = true) :
    let run := (c :: cs).takeWhile isWordChar
    Longest (c :: cs) run.length (wordLexeme (String.ofList run)) := by
  intro run
  have hrun : run = c :: cs.takeWhile isWordChar :=
    List.takeWhile_cons_of_pos (isWordChar_of_isWordStart hc)
  refine longest_run ?_ fun m l' h => ?_
  · show Spells run (wordLexeme (String.ofList run))
    rw [hrun]
    exact spells_wordLexeme hc (List.all_eq_true.1 List.all_takeWhile)
  · cases m with
    | zero => exact absurd rfl h.ne_nil
    | succ m => exact h.shape_cons.word_of_isWordStart hc

/-- No lexeme goes on behind a mark. -/
theorem longest_mark (hc : c ∈ punctuationMarks) :
    Longest (c :: cs) 1 (.punctuation (String.singleton c)) := by
  refine ⟨Nat.le_add_left 1 _, .punctuation hc, fun m l' hlt hle h => ?_⟩
  cases m with
  | zero => exact absurd hlt (by decide)
  | succ m =>
      rcases List.take_eq_nil_iff.1 (h.shape_cons.eq_nil_of_mark hc) with rfl | rfl
      · exact absurd hlt (Nat.lt_irrefl 1)
      · exact absurd hle (Nat.not_le_of_lt hlt)

/-- A symbol at the front is the longest piece if no longer symbol is
there. -/
theorem longest_of_front {s : String} (hs : s ∈ symbols)
    (hspells : Spells s.toList l) (hfront : s.toList <+: r)
    (hmax : ∀ s' ∈ symbols, s'.toList <+: r →
      s'.toList.length ≤ s.toList.length) :
    Longest r s.toList.length l := by
  refine ⟨hfront.length_le, ?_, fun m l' hlt hle h => ?_⟩
  · rw [← List.prefix_iff_eq_take.1 hfront]
    exact hspells
  · -- a longer piece would be a symbol as well, by its first character
    obtain ⟨hne, hclass⟩ := class_of_symbol hs
    obtain ⟨c, cs, heq⟩ := List.exists_cons_of_ne_nil hne
    obtain ⟨hword, hmark⟩ := hclass c (heq ▸ .head _)
    obtain ⟨t, ht⟩ := hfront
    rw [heq, List.cons_append] at ht
    obtain ⟨k, rfl⟩ := Nat.exists_eq_add_one_of_ne_zero (Nat.ne_zero_of_lt hlt)
    rw [← ht, List.take_succ_cons] at h
    obtain ⟨s', hs', heq'⟩ := h.shape_cons.exists_symbol hword hmark
    rw [← List.take_succ_cons, ht] at heq'
    have hle' := hmax s' hs' (heq' ▸ List.take_prefix ..)
    rw [heq', List.length_take, Nat.min_eq_left hle] at hle'
    omega

/-- The operators are tried longest first. -/
theorem operators_sorted :
    operators.Pairwise fun a b => b.toList.length ≤ a.toList.length := by
  decide

/-- Symbols are tried longest first, so the one that is found is the
longest. -/
theorem longest_symbol (h : symbolLexeme? r = some (l, n)) : Longest r n l := by
  unfold symbolLexeme? at h
  split at h
  · next hpre =>
    cases h
    refine longest_of_front (.head _) .arrow (List.isPrefixOf_iff_prefix.1 hpre) ?_
    have hall : ∀ s ∈ symbols, s.toList.length ≤ arrowSymbol.toList.length := by
      decide
    exact fun s hs _ => hall s hs
  · next hpre =>
    obtain ⟨op, hfind, heq⟩ := Option.map_eq_some_iff.1 h
    cases heq
    obtain ⟨hop, before, after, hsplit, hbefore⟩ :=
      List.find?_eq_some_iff_append.1 hfind
    have hmem := List.mem_of_find?_eq_some hfind
    rw [← String.length_toList]
    refine longest_of_front (.tail _ hmem) (.operator hmem)
      (List.isPrefixOf_iff_prefix.1 hop) fun s hs hs' => ?_
    rcases List.mem_cons.1 hs with rfl | hs
    · exact absurd (List.isPrefixOf_iff_prefix.2 hs') hpre
    · -- what was tried before does not fit, what comes later is no longer
      have hsorted := operators_sorted
      rw [hsplit] at hs hsorted
      rcases List.mem_append.1 hs with hs | hs
      · have hno := hbefore s hs
        rw [List.isPrefixOf_iff_prefix.2 hs'] at hno
        cases hno
      · rcases List.mem_cons.1 hs with rfl | hs
        · exact Nat.le_refl _
        · have hrest := (List.pairwise_append.1 hsorted).2.1
          exact (List.pairwise_cons.1 hrest).1 s hs

/-- Where no symbol stands at the front, and the first character is of
no other class, nothing is spelled. -/
theorem not_spells_of_symbolLexeme? (hword : isWordChar c = false)
    (hmark : c ∉ punctuationMarks) (h : symbolLexeme? (c :: cs) = none) :
    ¬ Spells ((c :: cs).take n) l := by
  intro hspells
  cases n with
  | zero => exact hspells.ne_nil rfl
  | succ n =>
      obtain ⟨s, hs, heq⟩ := hspells.shape_cons.exists_symbol hword hmark
      have hfront : s.toList.isPrefixOf (c :: cs) = true := by
        rw [List.isPrefixOf_iff_prefix, heq, ← List.take_succ_cons]
        exact List.take_prefix ..
      unfold symbolLexeme? at h
      split at h
      · cases h
      · next hpre =>
        rcases List.mem_cons.1 hs with rfl | hs
        · exact hpre hfront
        · have hnone := Option.map_eq_none_iff.1 h
          exact List.find?_eq_none.1 hnone s hs hfront

end InferTrace
