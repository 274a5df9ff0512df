/-
Places are exact, however the scanner is used.

A cursor may be sent over a text by any calls in any order: whole scans,
single readers also where they do not apply, single characters, and calls
that fail. After each of them it is at some place of the text, and its
line and column are those of the place (`Cursor.Marks`). Line and column
are counted up one character at a time; `locationAt` says what they come
to, from the text before the place.

`Cursor.Answered` says what each call answers at a place and where it
leaves the cursor. A token has the place where it starts: the place of
the call, for a reader; for a scan, the place from which on it is the
longest lexeme, all before it being taken or skipped (`Laid`). A fault
has the place of what is at fault (`Faulty`), and the end of input that
of the end of the text.
-/
import InferTrace.Proofs.Token.Sight
import InferTrace.Proofs.Token.Strictness

namespace InferTrace

variable {cs : List Char} {mode : Mode} {i j k n : Nat} {l : Lexeme}
  {tokens : List Token} {result : Except Fault (List Token)}

-- =========================================================== answers

/-- From place `i` up to place `k` these tokens stand in the text. Each is
the longest lexeme at its start; what is between them is blank or, unless
it is refused, begins no lexeme. -/
inductive Laid (mode : Mode) (cs : List Char) : Nat → List Token → Nat → Prop
  | nil {i : Nat} : Laid mode cs i [] i
  | blank {i k : Nat} {c : Char} {tokens : List Token} :
      cs[i]? = some c → Text.isBlank c = true →
      Laid mode cs (i + 1) tokens k → Laid mode cs i tokens k
  | stray {i k : Nat} {c : Char} {tokens : List Token} :
      cs[i]? = some c → mode.strict = false →
      (∀ n l, ¬ Spells ((cs.drop i).take n) l) →
      Laid mode cs (i + 1) tokens k → Laid mode cs i tokens k
  | token {i k n : Nat} {l : Lexeme} {tokens : List Token} :
      Longest (cs.drop i) n l → Laid mode cs (i + n) tokens k →
      Laid mode cs i
        ({ lexeme := l, location := locationAt mode.file cs i } :: tokens) k

/-- The fault of what is at place `i`, and where the cursor is left: in
front of a character that begins no lexeme, or behind digits that are too
many for a literal. -/
inductive Faulty (mode : Mode) (cs : List Char) (i : Nat) :
    Fault → Nat → Prop
  | stray {c : Char} : mode.strict = true → cs[i]? = some c →
      Text.isBlank c = false → (∀ n l, ¬ Spells ((cs.drop i).take n) l) →
      Faulty mode cs i
        { cause := .strayCharacter (String.singleton c)
          location := some (locationAt mode.file cs i) } i
  | literal {n : Nat} : n = ((cs.drop i).takeWhile Char.isDigit).length →
      Number.maxDigits < n →
      Faulty mode cs i
        { cause := .literalTooLarge n
          location := some (locationAt mode.file cs i) } (i + n)

/-- What a scan from place `i` on reports, and where it leaves the
cursor. -/
inductive Reports (mode : Mode) (cs : List Char) (i : Nat) :
    Except Fault (List Token) → Nat → Prop
  | ok {tokens : List Token} : Laid mode cs i tokens cs.length →
      Reports mode cs i
        (.ok (tokens ++ [{ lexeme := .endOfInput
                           location := locationAt mode.file cs cs.length }]))
        cs.length
  | error {tokens : List Token} {j k : Nat} {fault : Fault} :
      Laid mode cs i tokens j → Faulty mode cs j fault k →
      Reports mode cs i (.error fault) k

namespace Cursor

/-- One use of a cursor. -/
inductive Call where
  | scan
  | peek
  | advance
  | skipBlanks
  | readNumber
  | readWord
  | readSymbol
deriving DecidableEq, Repr

/-- What a call answers. To advance at the end of the text is out of
range. -/
inductive Answer where
  | tokens (result : Except Fault (List Token))
  | token (result : Except Fault Token)
  | symbol (token : Option Token)
  | char (char : Option Char)
  | done
  | outOfRange

/-- The answer to a call, and the cursor after it. -/
def Call.make (mode : Mode) (cur : Cursor) : Call → Answer × Cursor
  | scan => (.tokens (cur.scan mode).result, (cur.scan mode).stop)
  | peek => (.char cur.peek, cur)
  | advance =>
    match cur.advance? with
    | some next => (.char next.1, next.2)
    | none => (.outOfRange, cur)
  | skipBlanks => (.done, cur.skipBlanks)
  | readNumber =>
    (.token (cur.readNumber mode.file).1, (cur.readNumber mode.file).2)
  | readWord =>
    (.token (.ok (cur.readWord mode.file).1), (cur.readWord mode.file).2)
  | readSymbol =>
    match cur.readSymbol? mode.file with
    | some next => (.symbol next.1, next.2)
    | none => (.symbol none, cur)

/-- A cursor on the source after some calls. -/
def afterCalls (mode : Mode) (source : String) (calls : List Call) : Cursor :=
  calls.foldl (fun cur call => (call.make mode cur).2) (ofSource source)

/-- What a call answers at place `i`, and the place it leads to. -/
inductive Answered (mode : Mode) (cs : List Char) (i : Nat) :
    Call → Answer → Nat → Prop
  | scan {result : Except Fault (List Token)} {k : Nat} :
      Reports mode cs i result k → Answered mode cs i .scan (.tokens result) k
  | peek : Answered mode cs i .peek (.char cs[i]?) i
  | advance {c : Char} : cs[i]? = some c →
      Answered mode cs i .advance (.char (some c)) (i + 1)
  | outOfRange : i = cs.length → Answered mode cs i .advance .outOfRange i
  | skipBlanks : Answered mode cs i .skipBlanks .done
      (i + ((cs.drop i).takeWhile Text.isBlank).length)
  | number {n value : Nat} : Longest (cs.drop i) n (.number value) →
      Answered mode cs i .readNumber
        (.token (.ok { lexeme := .number value
                       location := locationAt mode.file cs i }))
        (i + n)
  | fault {fault : Fault} {k : Nat} : Faulty mode cs i fault k →
      Answered mode cs i .readNumber (.token (.error fault)) k
  | noDigits : (cs.drop i).takeWhile Char.isDigit = [] →
      Answered mode cs i .readNumber
        (.token (.error { cause := .literalTooLarge 0
                          location := some (locationAt mode.file cs i) })) i
  | word : Answered mode cs i .readWord
      (.token (.ok
        { lexeme := wordLexeme
            (String.ofList ((cs.drop i).takeWhile isWordChar))
          location := locationAt mode.file cs i }))
      (i + ((cs.drop i).takeWhile isWordChar).length)
  | symbol {n : Nat} {l : Lexeme} : Longest (cs.drop i) n l →
      Answered mode cs i .readSymbol
        (.symbol (some { lexeme := l, location := locationAt mode.file cs i }))
        (i + n)
  | noSymbol : symbolLexeme? (cs.drop i) = none →
      Answered mode cs i .readSymbol (.symbol none) i

-- ============================================================ places

/-- The cursor is at place `i` of the text. -/
structure Marks (cs : List Char) (i : Nat) (cur : Cursor) : Prop where
  le : i ≤ cs.length
  rest : cur.rest = cs.drop i
  position : cur.position = Position.after {} (cs.take i)

/-- The place of the cursor is in the text, and its line and column are
those of the place. -/
structure Exact (cs : List Char) (cur : Cursor) : Prop where
  le : cur.position.offset ≤ cs.length
  line : cur.position.line = 1 + (cs.take cur.position.offset).count '\n'
  column : cur.position.column = 1 + ((cs.take
    cur.position.offset).reverse.takeWhile (· != '\n')).length

variable {cur : Cursor} {ch : Char} {r : List Char}

namespace Marks

/-- The cursor of a source marks its first character. -/
theorem start (source : String) :
    (ofSource source).Marks source.toList 0 :=
  ⟨Nat.zero_le _, rfl, rfl⟩

theorem offset (h : cur.Marks cs i) : cur.position.offset = i := by
  rw [h.position, Position.offset_after, List.length_take,
    Nat.min_eq_left h.le]
  exact Nat.zero_add i

theorem exact (h : cur.Marks cs i) : cur.Exact cs := by
  obtain ⟨hline, hcolumn⟩ := line_column_after (cs.take i)
  rw [← h.position] at hline hcolumn
  refine ⟨?_, ?_, ?_⟩
  · rw [h.offset]
    exact h.le
  · rw [h.offset]
    exact hline
  · rw [h.offset]
    exact hcolumn

/-- A cursor that marks a character has its place. -/
theorem location (h : cur.Marks cs i) (file : Text.Points) :
    cur.location file = locationAt file cs i := by
  unfold Cursor.location
  rw [h.position, location_after]

/-- The character that is marked is the next one. -/
theorem getElem? (h : cur.Marks cs i) : cs[i]? = cur.rest.head? := by
  rw [h.rest, List.head?_drop]

/-- However many characters are passed, line and column keep count. -/
theorem pass (h : cur.Marks cs i) (hn : n ≤ cur.rest.length) :
    (cur.pass n).Marks cs (i + n) := by
  refine ⟨?_, ?_, ?_⟩
  · have hle := h.le
    rw [h.rest, List.length_drop] at hn
    omega
  · show cur.rest.drop n = cs.drop (i + n)
    rw [h.rest, List.drop_drop]
  · show cur.position.after (cur.rest.take n) = _
    rw [h.position, h.rest, ← Position.after_append, ← List.take_add]

/-- Past a run of characters the cursor marks what stands behind them.
-/
theorem passWhile (h : cur.Marks cs i) (p : Char → Bool) :
    (cur.passWhile p).Marks cs (i + ((cs.drop i).takeWhile p).length) := by
  rw [passWhile_eq_pass, ← h.rest]
  exact h.pass (List.takeWhile_prefix p).length_le

end Marks

-- ============================================================= scans

/-- A lexeme that is seen is the longest one. -/
theorem Sees.longest (h : Sees mode ch (ch :: r) (.lexeme l) n) :
    Longest (ch :: r) n l := by
  cases h with
  | number hch => exact longest_number hch
  | word hch => exact longest_word hch
  | mark hch => exact longest_mark hch
  | symbol _ _ hl => exact longest_symbol hl

end Cursor

/-- Blanks may stand before the tokens. -/
theorem Laid.blanks (h : Laid mode cs (i + n) tokens k)
    (hblank : ∀ j, i ≤ j → j < i + n →
      ∃ c, cs[j]? = some c ∧ Text.isBlank c = true) :
    Laid mode cs i tokens k := by
  induction n generalizing i with
  | zero => exact h
  | succ n ih =>
      obtain ⟨c, hc, hb⟩ := hblank i (Nat.le_refl i) (by omega)
      refine .blank hc hb (ih ?_ fun j hle hlt => ?_)
      · rw [Nat.add_assoc, Nat.add_comm 1]
        exact h
      · exact hblank j (by omega) (by omega)

namespace Reports

/-- What is laid before a scan may be reported with it. -/
theorem blanks (h : Reports mode cs (i + n) result k)
    (hblank : ∀ j, i ≤ j → j < i + n →
      ∃ c, cs[j]? = some c ∧ Text.isBlank c = true) :
    Reports mode cs i result k := by
  cases h with
  | ok hlaid => exact .ok (hlaid.blanks hblank)
  | error hlaid hfault => exact .error (hlaid.blanks hblank) hfault

/-- A character that starts no lexeme is passed over. -/
theorem stray {c : Char} (h : Reports mode cs (i + 1) result k)
    (hc : cs[i]? = some c) (hstrict : mode.strict = false)
    (hnone : ∀ n l, ¬ Spells ((cs.drop i).take n) l) :
    Reports mode cs i result k := by
  cases h with
  | ok hlaid => exact .ok (.stray hc hstrict hnone hlaid)
  | error hlaid hfault => exact .error (.stray hc hstrict hnone hlaid) hfault

/-- The longest lexeme is reported, at its place. -/
theorem token (h : Reports mode cs (i + n) result k)
    (hl : Longest (cs.drop i) n l) :
    Reports mode cs i (result.map
      ({ lexeme := l, location := locationAt mode.file cs i } :: ·)) k := by
  cases h with
  | ok hlaid => exact .ok (.token hl hlaid)
  | error hlaid hfault => exact .error (.token hl hlaid) hfault

end Reports

namespace Cursor

variable {cur next : Cursor} {found : Item} {ch : Char} {r : List Char}

/-- A scan begins behind the blanks. -/
theorem Marks.skipBlanks (h : cur.Marks cs i) :
    ∃ n, cur.skipBlanks.Marks cs (i + n) ∧ ∀ j, i ≤ j → j < i + n →
      ∃ c, cs[j]? = some c ∧ Text.isBlank c = true :=
  ⟨_, h.passWhile Text.isBlank, (run_chars Text.isBlank cs i).1⟩

/-- At the end of the text its length is marked. -/
theorem Marks.eq_length (h : cur.Marks cs i) (hr : cur.rest = []) :
    i = cs.length := by
  have hle := h.le
  rw [h.rest, List.drop_eq_nil_iff] at hr
  omega

/-- What is found at the cursor has been seen at its place, and passing it
leads to a place. -/
theorem Marks.item (h : cur.Marks cs i) (hr : cur.rest = ch :: r)
    (hitem : cur.item mode ch = (found, next)) :
    ∃ s n, Sees mode ch (cs.drop i) s n ∧ cs.drop i = ch :: r ∧
      found = s.item (locationAt mode.file cs i) ∧ next.Marks cs (i + n) := by
  obtain ⟨s, n, hsees, hfound, hnext⟩ := sees_of_item hr hitem
  have hn : n ≤ cur.rest.length := hr ▸ hsees.le_length
  have hdrop : cs.drop i = ch :: r := h.rest.symm.trans hr
  rw [h.location] at hfound
  exact ⟨s, n, hdrop ▸ hsees, hdrop, hfound, hnext ▸ h.pass hn⟩

/-- No lexeme begins at a character that no reader takes. -/
theorem foreign_of_drop (hdrop : cs.drop i = ch :: r)
    (hword : isWordChar ch = false) (hmark : ch ∉ punctuationMarks)
    (hl : symbolLexeme? (cs.drop i) = none) :
    cs[i]? = some ch ∧ ∀ n l, ¬ Spells ((cs.drop i).take n) l := by
  refine ⟨?_, fun n l => ?_⟩
  · rw [← List.head?_drop, hdrop]
    rfl
  · rw [hdrop] at hl ⊢
    exact not_spells_of_symbolLexeme? hword hmark hl

/-- What is seen to be bad is at fault. -/
theorem Sees.faulty {cause : Cause}
    (h : Sees mode ch (cs.drop i) (.bad cause) n)
    (hdrop : cs.drop i = ch :: r) (hch : Text.isBlank ch = false) :
    Faulty mode cs i
      { cause, location := some (locationAt mode.file cs i) } (i + n) := by
  cases h with
  | long hdigit hlong => exact .literal rfl hlong
  | refused hword hmark hl hstrict =>
      obtain ⟨hc, hnone⟩ := foreign_of_drop hdrop hword hmark hl
      exact .stray hstrict hc hch hnone

/-- A scan reports the tokens and the fault at their places, and leaves
the cursor at a place. -/
theorem Marks.scan (h : cur.Marks cs i) (mode : Mode) :
    ∃ k, Reports mode cs i (cur.scan mode).result k ∧
      (cur.scan mode).stop.Marks cs k := by
  -- In each case the blanks are put in front of what is found behind them.
  fun_induction Cursor.scan cur mode generalizing i with
  | case1 cur hrest =>
      obtain ⟨n, hskip, hblank⟩ := h.skipBlanks
      have hend := hskip.eq_length hrest
      refine ⟨_, Reports.blanks ?_ hblank, hskip⟩
      rw [hskip.location, hend]
      exact .ok .nil
  | case2 cur ch r hrest token next hitem hlt ih =>
      obtain ⟨n, hskip, hblank⟩ := h.skipBlanks
      obtain ⟨s, m, hsees, hdrop, hfound, hnext⟩ := hskip.item hrest hitem
      obtain ⟨k, hreports, hstop⟩ := ih hnext
      cases s with
      | lexeme l =>
          cases hfound
          rw [hdrop] at hsees
          exact ⟨k, .blanks (hreports.token (hdrop ▸ hsees.longest)) hblank,
            hstop⟩
      | stray c => cases hfound
      | bad cause => cases hfound
  | case3 cur ch r hrest char place next hitem hlt ih =>
      obtain ⟨n, hskip, hblank⟩ := h.skipBlanks
      obtain ⟨s, m, hsees, hdrop, hfound, hnext⟩ := hskip.item hrest hitem
      obtain ⟨k, hreports, hstop⟩ := ih hnext
      cases s with
      | lexeme l => cases hfound
      | stray c =>
          cases hsees with
          | dropped hword hmark hl hstrict =>
              obtain ⟨hc, hnone⟩ := foreign_of_drop hdrop hword hmark hl
              exact ⟨k, .blanks (hreports.stray hc hstrict hnone) hblank,
                hstop⟩
      | bad cause => cases hfound
  | case4 cur ch r hrest fault next hitem =>
      obtain ⟨n, hskip, hblank⟩ := h.skipBlanks
      obtain ⟨s, m, hsees, hdrop, hfound, hnext⟩ := hskip.item hrest hitem
      cases s with
      | lexeme l => cases hfound
      | stray c => cases hfound
      | bad cause =>
          cases hfound
          have hfault := hsees.faulty hdrop (not_isBlank_of_skipBlanks hrest)
          exact ⟨_, .blanks (.error .nil hfault) hblank, hnext⟩

-- =========================================================== readers

/-- The number reader, called anywhere. -/
theorem Marks.readNumber (h : cur.Marks cs i) (mode : Mode) :
    Answered mode cs i .readNumber (.token (cur.readNumber mode.file).1)
      (i + ((cs.drop i).takeWhile Char.isDigit).length) := by
  unfold Cursor.readNumber
  rw [h.location, h.rest]
  dsimp only
  by_cases hnone : (cs.drop i).takeWhile Char.isDigit = []
  · rw [hnone]
    exact .noDigits hnone
  by_cases hlong : Number.maxDigits
      < ((cs.drop i).takeWhile Char.isDigit).length
  · rw [if_pos (by simp [hlong])]
    exact .fault (.literal rfl hlong)
  rw [if_neg (by simp [hnone, hlong])]
  cases hdrop : cs.drop i with
  | nil => simp [hdrop] at hnone
  | cons ch r =>
      have hdigit : ch.isDigit = true := by
        by_contra hch
        exact hnone (hdrop ▸ List.takeWhile_cons_of_neg hch)
      have hlongest : Longest (ch :: r) _ _ := longest_number hdigit
      rw [← hdrop] at hlongest ⊢
      exact .number hlongest

/-- Wherever a cursor is, a call answers for the place and leads to a
place. -/
theorem Marks.make (h : cur.Marks cs i) (mode : Mode) (call : Call) :
    ∃ k, Answered mode cs i call (call.make mode cur).1 k ∧
      (call.make mode cur).2.Marks cs k := by
  cases call with
  | scan =>
      obtain ⟨k, hreports, hstop⟩ := h.scan mode
      exact ⟨k, .scan hreports, hstop⟩
  | peek =>
      refine ⟨i, ?_, h⟩
      show Answered mode cs i .peek (.char cur.rest.head?) i
      rw [← h.getElem?]
      exact .peek
  | advance =>
      unfold Call.make Cursor.advance?
      cases hr : cur.rest with
      | nil => exact ⟨i, .outOfRange (h.eq_length hr), h⟩
      | cons ch r =>
          refine ⟨i + 1, .advance ?_, h.pass (by simp [hr])⟩
          rw [h.getElem?, hr]
          rfl
  | skipBlanks => exact ⟨_, .skipBlanks, h.passWhile Text.isBlank⟩
  | readNumber => exact ⟨_, h.readNumber mode, h.passWhile Char.isDigit⟩
  | readWord =>
      refine ⟨_, ?_, h.passWhile isWordChar⟩
      unfold Call.make Cursor.readWord
      rw [h.location, h.rest]
      exact .word
  | readSymbol =>
      unfold Call.make Cursor.readSymbol?
      cases hl : symbolLexeme? cur.rest with
      | none =>
          refine ⟨i, .noSymbol ?_, h⟩
          rw [← h.rest, hl]
      | some found =>
          have hlongest := longest_symbol hl
          refine ⟨i + found.2, ?_, h.pass hlongest.le⟩
          show Answered mode cs i .readSymbol (.symbol (some
            { lexeme := found.1, location := cur.location mode.file })) _
          rw [h.location]
          exact .symbol (h.rest ▸ hlongest)

-- ============================================================== runs

/-- Calls lead from a place to a place. -/
theorem Marks.calls (h : cur.Marks cs i) (mode : Mode) (calls : List Call) :
    ∃ k, (calls.foldl (fun cur call => (call.make mode cur).2) cur).Marks
      cs k := by
  induction calls generalizing cur i with
  | nil => exact ⟨i, h⟩
  | cons call calls ih =>
      obtain ⟨j, -, hnext⟩ := h.make mode call
      exact ih hnext

/-- After any calls the cursor is at a place of the source, with the line
and column of that place, and the next call answers for that place. -/
theorem afterCalls_exact (mode : Mode) (source : String) (calls : List Call) :
    (afterCalls mode source calls).Exact source.toList ∧
    ∀ call : Call, Answered mode source.toList
      (afterCalls mode source calls).position.offset call
      (call.make mode (afterCalls mode source calls)).1
      (afterCalls mode source (calls ++ [call])).position.offset := by
  obtain ⟨i, h⟩ : ∃ i, (afterCalls mode source calls).Marks source.toList i :=
    (Marks.start source).calls mode calls
  refine ⟨h.exact, fun call => ?_⟩
  obtain ⟨k, hanswer, hnext⟩ := h.make mode call
  have hlast : afterCalls mode source (calls ++ [call])
      = (call.make mode (afterCalls mode source calls)).2 := by
    unfold afterCalls
    rw [List.foldl_append]
    rfl
  rw [hlast, h.offset, hnext.offset]
  exact hanswer

-- A carriage return is blank but begins no line, and the number reader fails
-- at a letter without passing it.
example :
    (afterCalls {} "a\n\r b" [.readNumber, .advance, .skipBlanks]).position
      = { offset := 4, line := 2, column := 3 } := by
  cbv

end Cursor

end InferTrace
