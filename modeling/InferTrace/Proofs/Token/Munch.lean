/-
The scanner takes the longest lexeme at each place.

Where the tokens of a text stand is said by spans: intervals that do not
overlap, each the longest lexeme at its start, with nothing between them
but blanks and characters that begin no lexeme (`Munch`). A scan gives
one token for each span, or stops at a literal that is too long
(`scanSource_munches`).

# Long runs

A run of too many digits is described without the scanner, by the
characters around it (`LongRun`). The scanner comes to stand at the first
such run, since it never stands in the middle of one: behind a word or a
number the next character is no digit. `Cursor.Stands` carries this
along: where the cursor is, that no digit here goes on with a word, and
that no long run has been passed. Each kind of step keeps it, by what
the characters are that it passes.
-/
import InferTrace.Proofs.Token.Lexemes
import Mathlib

namespace InferTrace

variable {cs : List Char} {i j n hi : Nat} {file : Text.Points} {c : Char}
  {l : Lexeme}

-- =========================================================== places

/-- The place of the character at `i`: one line for each newline before
it, one column for each character of its line before it. -/
def locationAt (file : Text.Points) (cs : List Char) (i : Nat) : Location :=
  { line := (1 + (cs.take i).count '\n' : Nat)
    column := (1 + ((cs.take i).reverse.takeWhile (· != '\n')).length : Nat)
    file }

/-- The line counts the line breaks, and the column the characters since
the last one. -/
theorem line_column_after (cs : List Char) :
    (Position.after {} cs).line = 1 + cs.count '\n' ∧
      (Position.after {} cs).column
        = 1 + (cs.reverse.takeWhile (· != '\n')).length := by
  induction cs using List.reverseRecOn with
  | nil => exact ⟨rfl, rfl⟩
  | append_singleton cs c ih =>
      rw [Position.after_append, List.count_append, List.reverse_append]
      show ((Position.after {} cs).past c).line = _ ∧
        ((Position.after {} cs).past c).column = _
      unfold Position.past
      by_cases hc : c = '\n'
      · simp [hc, ih.1]
        omega
      · simp [hc, ih.1, ih.2]
        omega

/-- The position behind some characters is the place of the next one. -/
theorem location_after (file : Text.Points) (cs : List Char) (i : Nat) :
    (Position.after {} (cs.take i)).location file = locationAt file cs i := by
  obtain ⟨hline, hcolumn⟩ := line_column_after (cs.take i)
  unfold Position.location locationAt
  rw [hline, hcolumn]

-- ============================================================ spans

/-- An interval of the text and what it says. -/
structure Span where
  start : Nat
  length : Nat
  lexeme : Lexeme
deriving DecidableEq, Repr

/-- The token of a span. -/
def Span.token (file : Text.Points) (cs : List Char) (s : Span) : Token :=
  { lexeme := s.lexeme, location := locationAt file cs s.start }

/-- Between two places the text is cut into the longest lexemes; what is
left out is blank or begins no lexeme. -/
structure Munch (cs : List Char) (lo hi : Nat) (spans : List Span) : Prop where
  ordered : spans.Pairwise fun s s' => s.start + s.length ≤ s'.start
  inside : ∀ s ∈ spans, lo ≤ s.start ∧ s.start + s.length ≤ hi
  longest : ∀ s ∈ spans, Longest (cs.drop s.start) s.length s.lexeme
  outside : ∀ i c, lo ≤ i → i < hi → cs[i]? = some c →
    (∀ s ∈ spans, i < s.start ∨ s.start + s.length ≤ i) →
      Text.isBlank c = true ∨ ∀ n l, ¬ Spells ((cs.drop i).take n) l

variable {spans : List Span}

theorem munch_nil (cs : List Char) (i : Nat) : Munch cs i i [] :=
  ⟨.nil, nofun, nofun, fun _ _ hle hlt => absurd hlt (Nat.not_lt_of_le hle)⟩

/-- Characters that are blank or begin no lexeme may stand in front. -/
theorem Munch.skip (h : Munch cs (i + n) hi spans)
    (hskip : ∀ k c, i ≤ k → k < i + n → cs[k]? = some c →
      Text.isBlank c = true ∨ ∀ m l, ¬ Spells ((cs.drop k).take m) l) :
    Munch cs i hi spans := by
  refine ⟨h.ordered, fun s hs => ?_, h.longest, fun k c hle hlt hc hout => ?_⟩
  · have := h.inside s hs
    omega
  · rcases Nat.lt_or_ge k (i + n) with hk | hk
    · exact hskip k c hle hk hc
    · exact h.outside k c hk hlt hc hout

/-- A longest lexeme may stand in front. -/
theorem Munch.take (h : Munch cs (i + n) hi spans) (hhi : i + n ≤ hi)
    (hl : Longest (cs.drop i) n l) :
    Munch cs i hi ({ start := i, length := n, lexeme := l } :: spans) := by
  refine ⟨.cons (fun s hs => (h.inside s hs).1) h.ordered,
    List.forall_mem_cons.2 ⟨⟨Nat.le_refl i, hhi⟩, fun s hs => ?_⟩,
    List.forall_mem_cons.2 ⟨hl, h.longest⟩, fun k c hle hlt hc hout => ?_⟩
  · have := h.inside s hs
    omega
  · obtain ⟨hfirst, hrest⟩ := List.forall_mem_cons.1 hout
    have hk : i + n ≤ k := hfirst.resolve_left (Nat.not_lt_of_le hle)
    exact h.outside k c hk hlt hc hrest

-- ======================================================== long runs

/-- At the place begins a run of exactly `n` digits, too many for a
literal, that is no part of a word. -/
structure LongRun (cs : List Char) (i n : Nat) : Prop where
  long : Number.maxDigits < n
  digits : ∀ k, i ≤ k → k < i + n → ∃ c, cs[k]? = some c ∧ c.isDigit = true
  ends : ∀ c, cs[i + n]? = some c → c.isDigit = false
  starts : ∀ k c, i = k + 1 → cs[k]? = some c → isWordChar c = false

/-- A run that is too long starts with a digit. -/
theorem LongRun.first (h : LongRun cs i n) :
    ∃ c, cs[i]? = some c ∧ c.isDigit = true :=
  h.digits i (Nat.le_refl i) (Nat.lt_add_of_pos_right (Nat.zero_lt_of_lt h.long))

/-- A character of an interval of the text. -/
theorem mem_slice {k : Nat} (h : cs[k]? = some c) (hle : i ≤ k)
    (hlt : k < i + n) : c ∈ (cs.drop i).take n := by
  have hget : ((cs.drop i).take n)[k - i]? = some c := by
    rw [List.getElem?_take_of_lt (by omega), List.getElem?_drop,
      Nat.add_sub_cancel' hle]
    exact h
  exact List.mem_of_getElem? hget

/-- The characters of a run and the one behind it. -/
theorem run_chars (p : Char → Bool) (cs : List Char) (i : Nat) :
    let n := ((cs.drop i).takeWhile p).length
    (∀ k, i ≤ k → k < i + n → ∃ c, cs[k]? = some c ∧ p c = true) ∧
      ∀ c, cs[i + n]? = some c → p c = false := by
  intro n
  have hsplit : ∀ k, i ≤ k → cs[k]?
      = ((cs.drop i).takeWhile p ++ (cs.drop i).dropWhile p)[k - i]? := by
    intro k hk
    rw [List.takeWhile_append_dropWhile, List.getElem?_drop,
      Nat.add_sub_cancel' hk]
  refine ⟨fun k hle hlt => ?_, fun c hc => ?_⟩
  · have hk : k - i < ((cs.drop i).takeWhile p).length := by omega
    rw [hsplit k hle, List.getElem?_append_left hk, List.getElem?_eq_getElem hk]
    exact ⟨_, rfl, List.all_eq_true.1 List.all_takeWhile _ (List.getElem_mem hk)⟩
  · rw [hsplit _ (Nat.le_add_right ..), Nat.add_sub_cancel_left,
      List.getElem?_append_right (Nat.le_refl _), Nat.sub_self,
      ← List.head?_eq_getElem?] at hc
    have hhead := List.head?_dropWhile_not p (cs.drop i)
    rw [hc] at hhead
    simpa using hhead

/-- A long run is what a reader of digits takes. -/
theorem LongRun.length_eq (h : LongRun cs i n) :
    ((cs.drop i).takeWhile Char.isDigit).length = n := by
  obtain ⟨hrun, hend⟩ := run_chars Char.isDigit cs i
  rcases Nat.lt_trichotomy ((cs.drop i).takeWhile Char.isDigit).length n with
    hlt | heq | hgt
  · obtain ⟨c, hc, hdigit⟩ := h.digits _ (Nat.le_add_right ..)
      (Nat.add_lt_add_left hlt i)
    rw [hend c hc] at hdigit
    cases hdigit
  · exact heq
  · obtain ⟨c, hc, hdigit⟩ := hrun _ (Nat.le_add_right ..)
      (Nat.add_lt_add_left hgt i)
    rw [h.ends c hc] at hdigit
    cases hdigit

-- ========================================================== cursors

/-- The cursor is at the place, no digit here goes on with a word, and
no long run has been passed. -/
structure Cursor.Stands (cs : List Char) (cur : Cursor) (i : Nat) : Prop where
  le : i ≤ cs.length
  rest : cur.rest = cs.drop i
  position : cur.position = Position.after {} (cs.take i)
  clear : ∀ k c d, i = k + 1 → cs[k]? = some c → isWordChar c = true →
    cs[i]? = some d → d.isDigit = false
  first : ∀ j n, LongRun cs j n → i ≤ j

variable {cur : Cursor} {p : Char → Bool}

namespace Cursor

theorem stands_start (cs : List Char) : Stands cs { rest := cs } 0 :=
  ⟨Nat.zero_le _, rfl, rfl, nofun, fun _ _ _ => Nat.zero_le _⟩

/-- A cursor that stands at a character has its place. -/
theorem Stands.location (h : cur.Stands cs i) (file : Text.Points) :
    cur.location file = locationAt file cs i := by
  unfold Cursor.location
  rw [h.position, location_after]

/-- A run is passed as any number of characters is. -/
theorem passWhile_eq_pass (p : Char → Bool) (cur : Cursor) :
    cur.passWhile p = cur.pass (cur.rest.takeWhile p).length := by
  have htake : cur.rest.takeWhile p
      = cur.rest.take (cur.rest.takeWhile p).length :=
    List.prefix_iff_eq_take.1 (List.takeWhile_prefix p)
  have hdrop : (cur.rest.takeWhile p ++ cur.rest.dropWhile p).drop
      (cur.rest.takeWhile p).length = cur.rest.dropWhile p :=
    List.drop_left' rfl
  rw [List.takeWhile_append_dropWhile] at hdrop
  unfold passWhile pass
  rw [← htake, hdrop]

/-- To pass characters, it is enough to say that what comes is not cut
out of a word, and that no long run begins among them. -/
theorem Stands.pass (h : cur.Stands cs i) (hn : n ≤ cur.rest.length)
    (hclear : ∀ k c d, i + n = k + 1 → cs[k]? = some c →
      isWordChar c = true → cs[i + n]? = some d → d.isDigit = false)
    (hfirst : ∀ j m, LongRun cs j m → i ≤ j → i + n ≤ j) :
    (cur.pass n).Stands cs (i + n) := by
  refine ⟨?_, ?_, ?_, hclear, fun j m hj => hfirst j m hj (h.first j m hj)⟩
  · have := h.le
    rw [h.rest, List.length_drop] at hn
    omega
  · show cur.rest.drop n = cs.drop (i + n)
    rw [h.rest, List.drop_drop]
  · show cur.position.after (cur.rest.take n) = _
    rw [h.position, h.rest, ← Position.after_append, ← List.take_add]

/-- Characters that belong to no word. -/
theorem Stands.pass_foreign (h : cur.Stands cs i) (hn : n ≤ cur.rest.length)
    (hforeign : ∀ c ∈ cur.rest.take n, isWordChar c = false) :
    (cur.pass n).Stands cs (i + n) := by
  rw [h.rest] at hforeign
  refine h.pass hn (fun k c d hk hc hword hd => ?_) fun j m hj hle => ?_
  · rcases Nat.eq_zero_or_pos n with rfl | hpos
    · exact h.clear k c d hk hc hword hd
    · rw [hforeign c (mem_slice hc (by omega) (by omega))] at hword
      cases hword
  · by_contra hlt
    obtain ⟨c, hc, hdigit⟩ := hj.first
    have hno := hforeign c (mem_slice hc hle (by omega))
    rw [isWordChar_of_isDigit hdigit] at hno
    cases hno

/-- A whole run of digits or of word characters. Inside it no long run
begins, since there is always a word character before. -/
theorem Stands.passWhile (h : cur.Stands cs i)
    (hword : ∀ c, p c = true → isWordChar c = true)
    (hdigit : ∀ c, p c = false → c.isDigit = false)
    (hstart : ∀ m, ¬ LongRun cs i m) :
    (cur.passWhile p).Stands cs (i + (cur.rest.takeWhile p).length) := by
  obtain ⟨hrun, hend⟩ := run_chars p cs i
  rw [passWhile_eq_pass]
  refine h.pass ((List.takeWhile_prefix p).length_le)
    (fun k c d _ _ _ hd => ?_) fun j m hj hle => ?_
  · rw [h.rest] at hd
    exact hdigit d (hend d hd)
  · by_contra hlt
    rcases Nat.eq_or_lt_of_le hle with rfl | hgt
    · exact hstart m hj
    · obtain ⟨k, rfl⟩ := Nat.exists_eq_add_one_of_ne_zero (Nat.ne_zero_of_lt hgt)
      rw [h.rest] at hlt
      obtain ⟨c, hc, hp⟩ := hrun k (by omega) (by omega)
      have hno := hj.starts k c rfl hc
      rw [hword c hp] at hno
      cases hno

/-- Blanks belong to no word. -/
theorem not_isWordChar_of_isBlank (h : Text.isBlank c = true) :
    isWordChar c = false := by
  refine Bool.eq_false_iff.2 fun hword => ?_
  simp [Text.isBlank, Text.blankRanges] at h
  rw [isWordChar, Bool.or_eq_true] at hword
  rcases hword with hstart | hdigit
  · have hletter := toNat_of_isWordStart hstart
    omega
  · have hdigit := toNat_of_isDigit hdigit
    omega

/-- Past the blanks a cursor stands behind them. -/
theorem Stands.skipBlanks (h : cur.Stands cs i) :
    cur.skipBlanks.Stands cs (i + (cur.rest.takeWhile Text.isBlank).length) := by
  have hfront : cur.rest.takeWhile Text.isBlank <+: cur.rest :=
    List.takeWhile_prefix _
  unfold Cursor.skipBlanks
  rw [passWhile_eq_pass]
  refine h.pass_foreign hfront.length_le fun c hc => ?_
  rw [← List.prefix_iff_eq_take.1 hfront] at hc
  exact not_isWordChar_of_isBlank (List.all_eq_true.1 List.all_takeWhile c hc)

end Cursor

-- ============================================================ items

/-- What is at the front of the text: a longest lexeme, a character that
begins none, or a long run. -/
def Cursor.Found (file : Text.Points) (cs : List Char) (i : Nat) :
    Cursor.Item × Cursor → Prop
  | (.token token, next) => ∃ n l, Longest (cs.drop i) n l ∧
      token = { lexeme := l, location := locationAt file cs i } ∧
        next.Stands cs (i + n)
  | (.dropped _ _, next) => (∀ n l, ¬ Spells ((cs.drop i).take n) l) ∧
      next.Stands cs (i + 1)
  | (.fault fault, _) => ∃ n, LongRun cs i n ∧
      fault = { cause := .literalTooLarge n
                location := some (locationAt file cs i) }

namespace Cursor

variable {ch : Char} {r : List Char}

/-- What is next is the character where the cursor stands. -/
theorem Stands.getElem? (h : cur.Stands cs i) (hr : cur.rest = ch :: r) :
    cs[i]? = some ch := by
  rw [← List.head?_drop, ← h.rest, hr]
  rfl

/-- A literal is taken, or is the first that is too long. -/
theorem found_number (h : cur.Stands cs i) (hr : cur.rest = ch :: r)
    (hch : ch.isDigit = true) :
    Found file cs i (match cur.readNumber file with
      | (.ok token, next) => (.token token, next)
      | (.error fault, next) => (.fault fault, next)) := by
  have hne : (cur.rest.takeWhile Char.isDigit).isEmpty = false := by
    rw [hr, List.takeWhile_cons_of_pos hch]
    rfl
  unfold readNumber
  by_cases hlong : Number.maxDigits < (cur.rest.takeWhile Char.isDigit).length
  · simp only [hne, hlong, decide_true, Bool.false_or, if_true, h.location]
    refine ⟨_, ⟨hlong, ?_, ?_, fun k c hk hc => ?_⟩, rfl⟩
    · rw [h.rest]
      exact (run_chars Char.isDigit cs i).1
    · rw [h.rest]
      exact (run_chars Char.isDigit cs i).2
    · refine Bool.eq_false_iff.2 fun hword => ?_
      have hno := h.clear k c ch hk hc hword (h.getElem? hr)
      rw [hch] at hno
      cases hno
  · simp only [hne, hlong, decide_false, Bool.or_self, Bool.false_eq_true,
      if_false, h.location]
    refine ⟨_, _, ?_, rfl, h.passWhile (fun _ => isWordChar_of_isDigit)
      (fun _ => id) fun m hm => ?_⟩
    · rw [← h.rest, hr]
      exact longest_number hch
    · have hlength := hm.length_eq
      rw [← h.rest] at hlength
      rw [hlength] at hlong
      exact hlong hm.long

/-- Where a word starts, the longest word is found. -/
theorem found_word (h : cur.Stands cs i) (hr : cur.rest = ch :: r)
    (hch : isWordStart ch = true) :
    Found file cs i
      (.token (cur.readWord file).1, (cur.readWord file).2) := by
  refine ⟨(cur.rest.takeWhile isWordChar).length,
    wordLexeme (String.ofList (cur.rest.takeWhile isWordChar)), ?_, ?_, ?_⟩
  · rw [← h.rest, hr]
    exact longest_word hch
  · unfold readWord
    rw [h.location]
  · refine h.passWhile (fun _ => id) (fun c hc => ?_) fun m hm => ?_
    · refine Bool.eq_false_iff.2 fun hdigit => ?_
      rw [isWordChar_of_isDigit hdigit] at hc
      cases hc
    · obtain ⟨c, hc, hdigit⟩ := hm.first
      rw [h.getElem? hr] at hc
      cases hc
      rw [not_isWordStart_of_isDigit hdigit] at hch
      cases hch

/-- A single character that belongs to no word is passed. -/
theorem Stands.pass_one (h : cur.Stands cs i) (hr : cur.rest = ch :: r)
    (hch : isWordChar ch = false) : (cur.pass 1).Stands cs (i + 1) := by
  refine h.pass_foreign ?_ fun c hc => ?_
  · rw [hr]
    exact Nat.le_add_left 1 _
  · rw [hr] at hc
    rw [List.mem_singleton.1 hc]
    exact hch

/-- Where a symbol starts, the longest symbol is found. -/
theorem found_symbol (h : cur.Stands cs i) (hr : cur.rest = ch :: r)
    (hword : isWordChar ch = false) (hmark : ch ∉ punctuationMarks)
    {n : Nat} (hl : symbolLexeme? cur.rest = some (l, n)) :
    Found file cs i
      (.token { lexeme := l, location := cur.location file }, cur.pass n) := by
  have hlongest := longest_symbol hl
  refine ⟨n, l, h.rest ▸ hlongest, by rw [h.location], ?_⟩
  refine h.pass_foreign hlongest.le fun c hc => ?_
  have hspells := hlongest.spells
  obtain ⟨k, rfl⟩ := Nat.exists_eq_add_one_of_ne_zero hlongest.pos.ne'
  rw [hr, List.take_succ_cons] at hspells hc
  obtain ⟨s, hs, heq⟩ := hspells.shape_cons.exists_symbol hword hmark
  rw [← heq] at hc
  exact ((class_of_symbol hs).2 c hc).1

/-- What the scanner finds at a place is there. -/
theorem found_item (file : Text.Points) (h : cur.Stands cs i)
    (hr : cur.rest = ch :: r) : Found file cs i (cur.item { file } ch) := by
  unfold item
  by_cases hdigit : ch.isDigit = true
  · rw [if_pos hdigit]
    exact found_number h hr hdigit
  rw [if_neg hdigit]
  by_cases hstart : isWordStart ch = true
  · rw [if_pos hstart]
    exact found_word h hr hstart
  rw [if_neg hstart]
  have hword : isWordChar ch = false := by
    simp [isWordChar, hdigit, hstart]
  by_cases hmark : ch ∈ punctuationMarks
  · rw [if_pos hmark]
    refine ⟨1, _, ?_, by rw [h.location], h.pass_one hr hword⟩
    rw [← h.rest, hr]
    exact longest_mark hmark
  rw [if_neg hmark]
  unfold readSymbol?
  cases hl : symbolLexeme? cur.rest with
  | some found => exact found_symbol h hr hword hmark hl
  | none =>
      refine ⟨fun n l => ?_, h.pass_one hr hword⟩
      rw [hr] at hl
      rw [← h.rest, hr]
      exact not_spells_of_symbolLexeme? hword hmark hl

end Cursor

-- ============================================================ scans

/-- What a scan from the place on has come to. -/
def Scanned (file : Text.Points) (cs : List Char) (i : Nat) :
    Except Fault (List Token) → Prop
  | .ok tokens => ∃ spans, Munch cs i cs.length spans ∧
      tokens = spans.map (Span.token file cs)
        ++ [{ lexeme := .endOfInput
              location := locationAt file cs cs.length }] ∧
      ∀ j n, ¬ LongRun cs j n
  | .error fault => ∃ spans j n, Munch cs i j spans ∧ i ≤ j ∧
      LongRun cs j n ∧ (∀ k m, LongRun cs k m → j ≤ k) ∧
      fault = { cause := .literalTooLarge n
                location := some (locationAt file cs j) }

variable {result : Except Fault (List Token)}

/-- Characters that start no lexeme are skipped. -/
theorem Scanned.skip (h : Scanned file cs (i + n) result)
    (hskip : ∀ k c, i ≤ k → k < i + n → cs[k]? = some c →
      Text.isBlank c = true ∨ ∀ m l, ¬ Spells ((cs.drop k).take m) l) :
    Scanned file cs i result := by
  cases result with
  | ok tokens =>
      obtain ⟨spans, hmunch, htokens, hnone⟩ := h
      exact ⟨spans, hmunch.skip hskip, htokens, hnone⟩
  | error fault =>
      obtain ⟨spans, j, m, hmunch, hle, hrun⟩ := h
      exact ⟨spans, j, m, hmunch.skip hskip,
        Nat.le_trans (Nat.le_add_right ..) hle, hrun⟩

/-- The longest lexeme is taken, and put in front of what is scanned
behind it. -/
theorem Scanned.take (h : Scanned file cs (i + n) result)
    (hi : i + n ≤ cs.length) (hl : Longest (cs.drop i) n l) :
    Scanned file cs i (result.map
      ({ lexeme := l, location := locationAt file cs i } :: ·)) := by
  cases result with
  | ok tokens =>
      obtain ⟨spans, hmunch, htokens, hnone⟩ := h
      exact ⟨_ :: spans, hmunch.take hi hl, congrArg _ htokens, hnone⟩
  | error fault =>
      obtain ⟨spans, j, m, hmunch, hle, hrun⟩ := h
      exact ⟨_ :: spans, j, m, hmunch.take hle hl,
        Nat.le_trans (Nat.le_add_right ..) hle, hrun⟩

/-- At the end of the text there is nothing more to come. -/
theorem scanned_end (h : cur.Stands cs i) (hr : cur.rest = []) :
    Scanned file cs i (.ok
      [{ lexeme := .endOfInput, location := cur.location file }]) := by
  have hi : i = cs.length := by
    have hle := List.drop_eq_nil_iff.1 (h.rest.symm.trans hr)
    exact Nat.le_antisymm h.le hle
  refine ⟨[], ?_, ?_, fun j n hj => ?_⟩
  · rw [hi]
    exact munch_nil cs _
  · rw [h.location, hi]
    rfl
  · have hle := h.first j n hj
    obtain ⟨c, hc, -⟩ := hj.first
    obtain ⟨hlt, -⟩ := List.getElem?_eq_some_iff.1 hc
    omega

/-- A scan from a place between two lexemes, by the length of what is
left: blanks are passed, and then what is found there. -/
theorem scanned_scan : ∀ (length : Nat) (cur : Cursor) (i : Nat),
    cur.rest.length = length → cur.Stands cs i →
      Scanned file cs i (cur.scan { file }).result := by
  intro length
  induction length using Nat.strongRecOn with
  | ind length ih =>
  intro cur i hlength h
  have hblanks := h.skipBlanks
  refine Scanned.skip (n := (cur.rest.takeWhile Text.isBlank).length) ?_ ?_
  · generalize i + (cur.rest.takeWhile Text.isBlank).length = i at hblanks ⊢
    rw [Cursor.scan]
    split
    · next hr => exact scanned_end hblanks hr
    · next ch r hr =>
      have hfound := Cursor.found_item file hblanks hr
      split
      · next token next hitem =>
        have hlt := Cursor.next_shorter hr hitem (by intro fault h; cases h)
        rw [hitem] at hfound
        obtain ⟨n, l, hl, rfl, hnext⟩ := hfound
        exact (ih _ (hlength ▸ hlt) next _ rfl hnext).take hnext.le hl
      · next char place next hitem =>
        have hlt := Cursor.next_shorter hr hitem (by intro fault h; cases h)
        rw [hitem] at hfound
        obtain ⟨hnone, hnext⟩ := hfound
        refine (ih _ (hlength ▸ hlt) next _ rfl hnext).skip ?_
        intro k c hle hlt _
        obtain rfl : k = i := by omega
        exact Or.inr hnone
      · next fault next hitem =>
        rw [hitem] at hfound
        obtain ⟨n, hrun, rfl⟩ := hfound
        exact ⟨[], i, n, munch_nil cs i, Nat.le_refl i, hrun, hblanks.first, rfl⟩
  · intro k c hle hlt hc
    obtain ⟨c', hc', hblank⟩ :=
      (run_chars Text.isBlank cs i).1 k hle (h.rest ▸ hlt)
    rw [hc] at hc'
    cases hc'
    exact Or.inl hblank

/-- Scanning by the longest lexeme. If tokens are given, the text is cut
into their spans, one end of input follows them, and there is no literal
that is too long. If not, the first such literal is reported, with its
length and place; up to it the text is cut as well. -/
theorem scanSource_munches (file : Text.Points) (source : String) :
    (∀ tokens, (scanSource (.mk file false) source).result = .ok tokens →
      ∃ spans, Munch source.toList 0 source.toList.length spans ∧
        tokens = spans.map (Span.token file source.toList)
          ++ [{ lexeme := .endOfInput
                location :=
                  locationAt file source.toList source.toList.length }] ∧
        (∀ s ∈ spans, s.lexeme ≠ .endOfInput) ∧
        ∀ i n, ¬ LongRun source.toList i n) ∧
    ∀ fault, (scanSource (.mk file false) source).result = .error fault →
      ∃ spans i n, Munch source.toList 0 i spans ∧
        LongRun source.toList i n ∧
        (∀ j m, LongRun source.toList j m → i ≤ j) ∧
        fault = { cause := .literalTooLarge n
                  location := some (locationAt file source.toList i) } := by
  have hscan : Scanned file source.toList 0
      (scanSource (.mk file false) source).result :=
    scanned_scan _ _ 0 rfl (Cursor.stands_start _)
  refine ⟨fun tokens hok => ?_, fun fault herror => ?_⟩
  · rw [hok] at hscan
    obtain ⟨spans, hmunch, htokens, hnone⟩ := hscan
    refine ⟨spans, hmunch, htokens, fun s hs => ?_, hnone⟩
    exact (hmunch.longest s hs).spells.ne_endOfInput
  · rw [herror] at hscan
    obtain ⟨spans, i, n, hmunch, -, hrun, hfirst, hfault⟩ := hscan
    exact ⟨spans, i, n, hmunch, hrun, hfirst, hfault⟩

/-- `a1<=12`: the name takes its digit and the operator its second
character, and three spans are left. -/
theorem scanSource_munches_comparison : ∃ spans,
    Munch "a1<=12".toList 0 6 spans ∧
      spans.map Span.lexeme
        = [.identifier "a1", .operator "<=", .number 12] := by
  have hok : (scanSource (.mk "<input>" false) "a1<=12").result
      = .ok
        [{ lexeme := .identifier "a1", location := { line := 1, column := 1 } },
         { lexeme := .operator "<=", location := { line := 1, column := 3 } },
         { lexeme := .number 12, location := { line := 1, column := 5 } },
         { lexeme := .endOfInput, location := { line := 1, column := 7 } }] := by
    cbv
  obtain ⟨spans, hmunch, htokens, -, -⟩ :=
    (scanSource_munches "<input>" "a1<=12").1 _ hok
  refine ⟨spans, hmunch, ?_⟩
  have hlexemes := congrArg (List.map Token.lexeme) htokens
  rw [List.map_append, List.map_map] at hlexemes
  exact (List.append_inj_left' hlexemes rfl).symm

end InferTrace
