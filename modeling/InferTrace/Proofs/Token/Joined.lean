/-
A blank cuts a source in two, and each part is scanned on its own.

No lexeme has a blank in it, so a scan comes to stand right behind every
blank, whatever is before it. Up to there it does what it would do if the
text ended there, and from there on what it would do if the text began
there. `Cursor.joins_scan` is the first half, by induction over the scan
of the first part: with something behind a blank the same items are seen
(`Sees.append`).

The second half is about places. A scan that starts behind other text
finds the same items at places that are moved: by the lines of that text,
and on the first line also by the columns of its last line
(`Cursor.scan_behind`). Positions are moved alike whatever is passed
(`Position.after_behind`), so that the two scans keep in step.
-/
import InferTrace.Proofs.Token.Sight
import InferTrace.Proofs.Token.Strictness

namespace InferTrace

variable {front : List Char} {file : Text.Points} {mode : Mode}

-- ======================================================= moved places

/-- The number of characters behind the last newline. -/
def lastColumns (front : List Char) : Nat :=
  (front.reverse.takeWhile (· != '\n')).length

/-- A place of a text, in a text that has `front` before it: the lines of
`front` come before, and on the first line also its last columns. -/
def Location.behind (front : List Char) (l : Location) : Location :=
  { line := l.line + front.count '\n'
    column := if l.line = 1 then l.column + lastColumns front else l.column
    file := l.file }

/-- A token of a text that has `front` before it. -/
def Token.behind (front : List Char) (t : Token) : Token :=
  { t with location := t.location.behind front }

/-- A fault of a text that has `front` before it. -/
def Fault.behind (front : List Char) (f : Fault) : Fault :=
  { f with location := f.location.map (·.behind front) }

/-- What a scan gives, in a text that has `front` before it. -/
def resultBehind (front : List Char) :
    Except Fault (List Token) → Except Fault (List Token)
  | .ok tokens => .ok (tokens.map (Token.behind front))
  | .error fault => .error (fault.behind front)

/-- A token in front is moved with the others. -/
theorem resultBehind_map (t : Token) (result : Except Fault (List Token)) :
    resultBehind front (result.map (t :: ·))
      = (resultBehind front result).map (t.behind front :: ·) := by
  cases result with
  | ok tokens => rfl
  | error fault => rfl

namespace Position

/-- A position of a text, in a text that has `front` before it. -/
def behind (front : List Char) (p : Position) : Position :=
  { offset := front.length + p.offset
    line := p.line + front.count '\n'
    column := if p.line = 1 then p.column + lastColumns front else p.column }

/-- A position that is moved has its place moved. -/
theorem location_behind (p : Position) :
    (p.behind front).location file = (p.location file).behind front := by
  unfold behind location Location.behind
  by_cases hline : p.line = 1
  · simp [hline]
  · have hline' : ¬ (p.line : Int) = 1 := by omega
    simp [hline, hline']

theorem line_pos_past {p : Position} (h : 0 < p.line) (c : Char) :
    0 < (p.past c).line := by
  unfold past
  by_cases hc : c = '\n'
  · rw [if_pos hc]
    exact Nat.succ_pos _
  · rw [if_neg hc]
    exact h

/-- To pass a character is the same step on both sides. Only a newline
leaves the first line, and behind it there is nothing to add. -/
theorem past_behind {p : Position} (h : 0 < p.line) (c : Char) :
    (p.behind front).past c = (p.past c).behind front := by
  unfold past behind
  by_cases hc : c = '\n'
  · have hline : ¬ p.line + 1 = 1 := by omega
    simp only [if_pos hc, if_neg hline, Nat.add_assoc, Nat.add_comm 1]
  · by_cases hline : p.line = 1
    · simp only [if_neg hc, if_pos hline, Nat.add_assoc, Nat.add_comm 1]
    · simp only [if_neg hc, if_neg hline, Nat.add_assoc]

/-- Lines are counted from one. -/
theorem line_pos_after {p : Position} (h : 0 < p.line) (cs : List Char) :
    0 < (p.after cs).line := by
  induction cs generalizing p with
  | nil => exact h
  | cons c cs ih => exact ih (line_pos_past h c)

/-- To read on and to be moved may change places. -/
theorem after_behind {p : Position} (h : 0 < p.line) (cs : List Char) :
    (p.behind front).after cs = (p.after cs).behind front := by
  induction cs generalizing p with
  | nil => rfl
  | cons c cs ih =>
      rw [after_cons, after_cons, past_behind h, ih (line_pos_past h c)]

/-- The end of a text is the start of what is behind it. -/
theorem after_eq_behind (front : List Char) :
    Position.after {} front = Position.behind front {} := by
  have hoffset := offset_after {} front
  obtain ⟨hline, hcolumn⟩ := line_column_after front
  generalize Position.after {} front = p at hoffset hline hcolumn
  cases p with
  | mk offset line column =>
      unfold behind lastColumns
      simp only [Position.mk.injEq] at *
      simp only [if_true]
      omega

end Position

-- ========================================================== moved scans

namespace Cursor

variable {cur next : Cursor} {ch : Char} {r : List Char} {n : Nat}

/-- The cursor in a text that has `front` before it. -/
def behind (front : List Char) (cur : Cursor) : Cursor :=
  { cur with position := cur.position.behind front }

/-- Blanks are skipped alike behind another text. -/
theorem skipBlanks_behind (front : List Char) (h : 0 < cur.position.line) :
    (cur.behind front).skipBlanks = cur.skipBlanks.behind front := by
  unfold skipBlanks passWhile behind
  rw [Position.after_behind h]

/-- Characters are passed alike behind another text. -/
theorem pass_behind (front : List Char) (h : 0 < cur.position.line) (n : Nat) :
    (cur.behind front).pass n = (cur.pass n).behind front := by
  unfold pass behind
  rw [Position.after_behind h]

/-- An item of a text that has `front` before it. -/
def Item.behind (front : List Char) : Item → Item
  | token t => token (t.behind front)
  | dropped c place => dropped c (place.behind front)
  | fault f => fault (f.behind front)

/-- What is seen at a place that is moved is what was seen, moved. -/
theorem Sight.item_behind (s : Sight) (place : Location) :
    s.item (place.behind front) = (s.item place).behind front := by
  cases s with
  | lexeme l => rfl
  | stray c => rfl
  | bad cause => rfl

/-- What is found behind the blanks is found there by a moved cursor, at
the moved place. -/
theorem step_behind {i : Item} (front : List Char)
    (h : 0 < cur.position.line) (hrest : cur.skipBlanks.rest = ch :: r)
    (hitem : cur.skipBlanks.item mode ch = (i, next)) :
    (cur.behind front).skipBlanks.rest = ch :: r ∧
      (cur.behind front).skipBlanks.item mode ch
        = (i.behind front, next.behind front) ∧
      0 < next.position.line := by
  have hline : 0 < cur.skipBlanks.position.line :=
    Position.line_pos_after h _
  obtain ⟨s, n, hsees, rfl, rfl⟩ := sees_of_item hrest hitem
  rw [skipBlanks_behind front h]
  have hrest' : (cur.skipBlanks.behind front).rest = ch :: r := hrest
  have hplace : (cur.skipBlanks.behind front).location mode.file
      = (cur.skipBlanks.location mode.file).behind front :=
    Position.location_behind _
  refine ⟨hrest', ?_, Position.line_pos_after hline _⟩
  rw [← hrest'] at hsees
  rw [item_of_sees hsees, pass_behind front hline, hplace, Sight.item_behind]

/-- A scan from a moved cursor finds the same items at moved places. -/
theorem scan_behind (front : List Char) (mode : Mode) (cur : Cursor)
    (h : 0 < cur.position.line) :
    ((cur.behind front).scan mode).result
      = resultBehind front (cur.scan mode).result := by
  fun_induction Cursor.scan cur mode with
  | case1 cur hrest =>
      have hskip := skipBlanks_behind front h
      have hrest' : (cur.behind front).skipBlanks.rest = [] := by
        rw [hskip]
        exact hrest
      have hplace : (cur.behind front).skipBlanks.location mode.file
          = (cur.skipBlanks.location mode.file).behind front := by
        rw [hskip]
        exact Position.location_behind _
      rw [scan_nil hrest', hplace]
      rfl
  | case2 cur ch r hrest token next hitem hlt ih =>
      obtain ⟨hrest', hitem', hnext⟩ := step_behind front h hrest hitem
      rw [scan_cons hrest', hitem']
      show Except.map _ ((next.behind front).scan mode).result = _
      rw [ih hnext]
      exact (resultBehind_map token _).symm
  | case3 cur ch r hrest char place next hitem hlt ih =>
      obtain ⟨hrest', hitem', hnext⟩ := step_behind front h hrest hitem
      rw [scan_cons hrest', hitem']
      exact ih hnext
  | case4 cur ch r hrest fault next hitem =>
      obtain ⟨hrest', hitem', -⟩ := step_behind front h hrest hitem
      rw [scan_cons hrest', hitem']
      rfl

-- ======================================================= what follows

variable {back : List Char} {w : Char}

/-- The cursor in a text that goes on with `back`. -/
def extend (back : List Char) (cur : Cursor) : Cursor :=
  { cur with rest := cur.rest ++ back }

/-- Where the text ends. -/
def finish (cur : Cursor) : Position := cur.position.after cur.rest

/-- The end is the same from wherever the text is read. -/
theorem finish_pass (n : Nat) : (cur.pass n).finish = cur.finish := by
  unfold finish pass
  rw [← Position.after_append, List.take_append_drop]

theorem finish_skipBlanks : cur.skipBlanks.finish = cur.finish := by
  unfold skipBlanks
  rw [passWhile_eq_pass, finish_pass]

/-- What lies ahead is passed alike if more text follows. -/
theorem pass_extend (hn : n ≤ cur.rest.length) :
    (cur.extend back).pass n = (cur.pass n).extend back := by
  unfold pass extend
  rw [List.take_append_of_le_length hn, List.drop_append_of_le_length hn]

/-- If something is behind the blanks, they are passed alike. -/
theorem skipBlanks_extend (hrest : cur.skipBlanks.rest = ch :: r) :
    (cur.extend back).skipBlanks = cur.skipBlanks.extend back := by
  obtain ⟨b, hb, hcur, -⟩ := cur.exists_blanks
  have hno := Bool.eq_false_iff.1 (not_isBlank_of_skipBlanks hrest)
  have htake : ∀ t, (b ++ ch :: t).takeWhile Text.isBlank = b := by
    intro t
    rw [List.takeWhile_append_of_pos hb, List.takeWhile_cons_of_neg hno,
      List.append_nil]
  have hdrop : ∀ t, (b ++ ch :: t).dropWhile Text.isBlank = ch :: t := by
    intro t
    rw [List.dropWhile_append_of_pos hb, List.dropWhile_cons_of_neg hno]
  rw [hrest] at hcur
  unfold skipBlanks passWhile extend
  simp only [hcur, List.append_assoc, List.cons_append, htake, hdrop]

/-- What is found behind the blanks is found there also if the text goes
on behind another blank. -/
theorem step_extend {i : Item} (hback : Parted back)
    (hrest : cur.skipBlanks.rest = ch :: r)
    (hitem : cur.skipBlanks.item mode ch = (i, next)) :
    (cur.extend back).skipBlanks.rest = ch :: (r ++ back) ∧
      (cur.extend back).skipBlanks.item mode ch = (i, next.extend back) ∧
      next.finish = cur.finish := by
  obtain ⟨s, n, hsees, rfl, rfl⟩ := sees_of_item hrest hitem
  have hn : n ≤ cur.skipBlanks.rest.length := hrest ▸ hsees.le_length
  rw [skipBlanks_extend hrest]
  have hrest' : (cur.skipBlanks.extend back).rest = ch :: (r ++ back) := by
    show cur.skipBlanks.rest ++ back = _
    rw [hrest]
    rfl
  refine ⟨hrest', ?_, ?_⟩
  · have hsees' := hsees.append hback
    rw [List.cons_append, ← hrest'] at hsees'
    rw [item_of_sees hsees', pass_extend hn]
    rfl
  · rw [finish_pass, finish_skipBlanks]

/-- How the scan of a whole text comes from those of two parts of it. -/
inductive Joins (whole second : Except Fault (List Token)) :
    Except Fault (List Token) → Prop
  | error {fault : Fault} : whole = .error fault →
      Joins whole second (.error fault)
  | ok (body : List Token) (place : Location) :
      whole = second.map (body ++ ·) →
      Joins whole second
        (.ok (body ++ [{ lexeme := .endOfInput, location := place }]))

/-- A token in front is in front of what is joined. -/
theorem Joins.cons {whole second first : Except Fault (List Token)}
    (h : Joins whole second first) (t : Token) :
    Joins (whole.map (t :: ·)) second (first.map (t :: ·)) := by
  cases h with
  | error h =>
      rw [h]
      exact .error rfl
  | ok body place h =>
      refine .ok (t :: body) place ?_
      rw [h]
      cases second with
      | ok tokens => rfl
      | error fault => rfl

/-- A scan up to a blank and a scan from behind it make a scan of the
whole. -/
theorem joins_scan (hw : Text.isBlank w = true) (back : List Char)
    (mode : Mode) (cur : Cursor) :
    Joins ((cur.extend (w :: back)).scan mode).result
      (scan ⟨cur.finish.past w, back⟩ mode).result
      (cur.scan mode).result := by
  have hparted : Parted (w :: back) := by
    intro c hc
    cases hc
    exact hw
  fun_induction Cursor.scan cur mode with
  | case1 cur hrest =>
      -- nothing but blanks, up to the start of the second part
      obtain ⟨b, hb, hcur, -⟩ := cur.exists_blanks
      rw [hrest, List.append_nil] at hcur
      have hblank : ∀ c ∈ cur.rest ++ [w], Text.isBlank c = true := by
        intro c hc
        rcases List.mem_append.1 hc with hc | hc
        · exact hb c (hcur ▸ hc)
        · rw [List.mem_singleton.1 hc]
          exact hw
      have hscan : (cur.extend (w :: back)).scan mode
          = scan ⟨cur.finish.past w, back⟩ mode := by
        unfold extend finish
        rw [List.append_cons, scan_blanks mode hblank, Position.after_append]
        rfl
      refine .ok [] _ ?_
      rw [hscan]
      cases (scan ⟨cur.finish.past w, back⟩ mode).result with
      | ok tokens => rfl
      | error fault => rfl
  | case2 cur ch r hrest token next hitem hlt ih =>
      obtain ⟨hrest', hitem', hfinish⟩ := step_extend hparted hrest hitem
      rw [scan_cons hrest', hitem', ← hfinish]
      exact ih.cons token
  | case3 cur ch r hrest char place next hitem hlt ih =>
      obtain ⟨hrest', hitem', hfinish⟩ := step_extend hparted hrest hitem
      rw [scan_cons hrest', hitem', ← hfinish]
      exact ih
  | case4 cur ch r hrest fault next hitem =>
      obtain ⟨hrest', hitem', -⟩ := step_extend hparted hrest hitem
      rw [scan_cons hrest', hitem']
      exact .error rfl

end Cursor

-- =========================================================== sources

/-- A blank cuts a source in two. If the first part cannot be scanned, the
whole cannot, for the same fault at the same place. Otherwise the whole is
scanned to the tokens of the first part, without the end of input, and
then to what the second part is scanned to, with every place moved behind
the first part and the blank. -/
theorem scanSource_blank {w : Char} (hw : Text.isBlank w = true)
    (mode : Mode) (s₁ s₂ : String) :
    (∀ fault, (scanSource mode s₁).result = .error fault →
      (scanSource mode (s₁ ++ String.singleton w ++ s₂)).result
        = .error fault) ∧
    ∀ tokens, (scanSource mode s₁).result = .ok tokens →
      ∃ body place,
        tokens = body ++ [{ lexeme := .endOfInput, location := place }] ∧
        (scanSource mode (s₁ ++ String.singleton w ++ s₂)).result
          = (resultBehind (s₁.toList ++ [w])
              (scanSource mode s₂).result).map (body ++ ·) := by
  have hjoins := Cursor.joins_scan hw s₂.toList mode (.ofSource s₁)
  have hwhole : (Cursor.ofSource s₁).extend (w :: s₂.toList)
      = .ofSource (s₁ ++ String.singleton w ++ s₂) := by
    simp [Cursor.extend, Cursor.ofSource]
  have hsecond : (Cursor.mk ((Cursor.ofSource s₁).finish.past w)
      s₂.toList) = (Cursor.ofSource s₂).behind (s₁.toList ++ [w]) := by
    have hfinish : (Cursor.ofSource s₁).finish.past w
        = Position.after {} (s₁.toList ++ [w]) := by
      rw [Position.after_append]
      rfl
    rw [hfinish, Position.after_eq_behind]
    rfl
  rw [hwhole, hsecond, Cursor.scan_behind _ _ _ Nat.one_pos] at hjoins
  refine ⟨fun fault hfault => ?_, fun tokens hok => ?_⟩
  · have hscan : ((Cursor.ofSource s₁).scan mode).result = .error fault :=
      hfault
    rw [hscan] at hjoins
    cases hjoins with
    | error h => exact h
  · have hscan : ((Cursor.ofSource s₁).scan mode).result = .ok tokens := hok
    rw [hscan] at hjoins
    cases hjoins with
    | ok body place h => exact ⟨body, place, rfl, h⟩

/-- Two lines, a tab, and two more: what is behind the tab goes on with
the second line. -/
theorem scanSource_blank_lines :
    Text.isBlank '\t' = true ∧
      (scanSource (.mk "<input>" true)
        ("f\nx" ++ String.singleton '\t' ++ "y\n=")).result
      = .ok
        [{ lexeme := .identifier "f", location := { line := 1, column := 1 } },
         { lexeme := .identifier "x", location := { line := 2, column := 1 } },
         { lexeme := .identifier "y", location := { line := 2, column := 3 } },
         { lexeme := .operator "=", location := { line := 3, column := 1 } },
         { lexeme := .endOfInput, location := { line := 3, column := 2 } }] := by
  have hblank : Text.isBlank '\t' = true := by decide
  have hfirst : (scanSource (.mk "<input>" true) "f\nx").result
      = .ok
        [{ lexeme := .identifier "f", location := { line := 1, column := 1 } },
         { lexeme := .identifier "x", location := { line := 2, column := 1 } },
         { lexeme := .endOfInput, location := { line := 2, column := 2 } }] := by
    cbv
  have hsecond : (scanSource (.mk "<input>" true) "y\n=").result
      = .ok
        [{ lexeme := .identifier "y", location := { line := 1, column := 1 } },
         { lexeme := .operator "=", location := { line := 2, column := 1 } },
         { lexeme := .endOfInput, location := { line := 2, column := 2 } }] := by
    cbv
  obtain ⟨body, place, hbody, hwhole⟩ :=
    (scanSource_blank hblank (.mk "<input>" true) "f\nx" "y\n=").2 _ hfirst
  have htokens := List.append_inj_left'
    (show [_, _] ++ [_] = body ++ [_] from hbody) rfl
  rw [hsecond, ← htokens] at hwhole
  exact ⟨hblank, hwhole⟩

end InferTrace
