/-
What a lenient scan drops, a strict scan refuses.

The two kinds of scan part at the first character that begins no lexeme.
Up to there they do the same, so a strict scan gives what the lenient one
gives if nothing is dropped, and otherwise stops at the first character
that is (`Cursor.scan_strictly`).

A dropped character still separates what stands around it, as a space
does. So the lenient scan of a text gives what the strict scan gives of
the text with a space for every dropped character (`Cursor.faded_scan`).
`Faded` says what such a text is, from a position on. The step is that
the scanner takes the same lexeme in front of a faded rest as in front of
the rest itself (`Cursor.matched_item`): a run of digits or of word
characters ends where it did, and no symbol gets longer, since no symbol
has a space.

Which characters are replaced can be said by their places alone, since no
two characters of a text have one place (`Faded.blankOut_eq`).
-/
import InferTrace.Proofs.Token.Spaced
import Mathlib

namespace InferTrace

variable {file : Text.Points} {p : Position} {c ch : Char}
  {b w r r' s : List Char} {d : List (Char × Location)}

-- ========================================================== places

/-- On a line before, or on the same line to the left. -/
def Location.Before (a b : Location) : Prop :=
  a.line < b.line ∨ a.line = b.line ∧ a.column < b.column

theorem Location.Before.trans {a b c : Location} (h : a.Before b)
    (h' : b.Before c) : a.Before c := by
  unfold Before at *
  omega

/-- What stands before a place is another place. -/
theorem Location.Before.ne {a b : Location} (h : a.Before b) : a ≠ b := by
  intro heq
  unfold Before at h
  rw [heq] at h
  omega

/-- Past a character the place is a later one. -/
theorem Position.before_past (p : Position) (c : Char) (file : Text.Points) :
    (p.location file).Before ((p.past c).location file) := by
  unfold Location.Before Position.location Position.past
  by_cases hc : c = '\n'
  · left
    simp [hc]
  · right
    simp [hc]

/-- A space moves on as every other character on the line does. -/
theorem Position.past_space (hc : Text.isBlank c = false) :
    p.past ' ' = p.past c := by
  have hnewline : c ≠ '\n' := by
    intro heq
    rw [heq] at hc
    cases hc
  unfold Position.past
  rw [if_neg hnewline, if_neg (by decide)]

-- ==================================================== faded texts

/-- The text from a position on, with a space for every character that
is listed with its place. -/
def blankOut (file : Text.Points) (dropped : List (Char × Location)) :
    Position → List Char → List Char
  | _, [] => []
  | p, c :: cs =>
    (if (c, p.location file) ∈ dropped then ' ' else c)
      :: blankOut file dropped (p.past c) cs

/-- The second text is the first, from a position on, with a space for
each of the characters in the list. None of them belongs to a word. -/
inductive Faded (file : Text.Points) :
    Position → List Char → List Char → List (Char × Location) → Prop
  | nil {p : Position} : Faded file p [] [] []
  | keep {p : Position} {c : Char} {r r' : List Char}
      {d : List (Char × Location)} : Faded file (p.past c) r r' d →
      Faded file p (c :: r) (c :: r') d
  | drop {p : Position} {c : Char} {r r' : List Char}
      {d : List (Char × Location)} : isWordChar c = false →
      Faded file (p.past c) r r' d →
      Faded file p (c :: r) (' ' :: r') ((c, p.location file) :: d)

namespace Faded

theorem refl (file : Text.Points) (p : Position) (r : List Char) :
    Faded file p r r [] := by
  induction r generalizing p with
  | nil => exact .nil
  | cons c r ih => exact .keep (ih _)

/-- What stands in front does not fade. -/
theorem append (w : List Char) (h : Faded file (p.after w) r r' d) :
    Faded file p (w ++ r) (w ++ r') d := by
  induction w generalizing p with
  | nil => exact h
  | cons c w ih => exact .keep (ih h)

/-- What is dropped from a position on stands behind all that is before
it. -/
theorem later {place : Location} (h : Faded file p r r' d)
    (hp : place.Before (p.location file)) : ∀ e ∈ d, place.Before e.2 := by
  induction h with
  | nil => simp
  | @keep p c _ _ _ _ ih => exact ih (hp.trans (p.before_past c file))
  | @drop p c _ _ _ _ _ ih =>
      intro e he
      rcases List.mem_cons.1 he with rfl | he
      · exact hp
      · exact ih (hp.trans (p.before_past c file)) e he

/-- The places tell which characters have been replaced. -/
theorem blankOut_eq (h : Faded file p r r' d)
    (d₀ : List (Char × Location))
    (h₀ : ∀ e ∈ d₀, e.2.Before (p.location file)) :
    blankOut file (d₀ ++ d) p r = r' := by
  induction h generalizing d₀ with
  | nil => rfl
  | @keep p c r r' d h ih =>
      have hnot : (c, p.location file) ∉ d₀ ++ d := by
        intro hmem
        rcases List.mem_append.1 hmem with hmem | hmem
        · exact (h₀ _ hmem).ne rfl
        · exact (h.later (p.before_past c file) _ hmem).ne rfl
      rw [blankOut, if_neg hnot, ih]
      exact fun e he => (h₀ e he).trans (p.before_past c file)
  | @drop p c r r' d _ h ih =>
      have hmem : (c, p.location file) ∈ d₀ ++ (c, p.location file) :: d :=
        List.mem_append_right _ (.head _)
      rw [blankOut, if_pos hmem, List.append_cons, ih]
      intro e he
      rcases List.mem_append.1 he with he | he
      · exact (h₀ e he).trans (p.before_past c file)
      · rw [List.mem_singleton.1 he]
        exact p.before_past c file

/-- A run of word characters ends where it did. -/
theorem takeWhile {f : Char → Bool} (h : Faded file p r r' d)
    (hf : ∀ c, isWordChar c = false → f c = false) :
    r'.takeWhile f = r.takeWhile f := by
  induction h with
  | nil => rfl
  | @keep p c r r' d _ ih =>
      rw [List.takeWhile_cons, List.takeWhile_cons, ih]
  | @drop p c r r' d hc _ _ =>
      have hspace : f ' ' = false := hf ' ' (by decide)
      rw [List.takeWhile_cons, List.takeWhile_cons, hf c hc, hspace]
      rfl

/-- What has no space fits in front of the faded text only where it fits
in front of the text. -/
theorem isPrefixOf (h : Faded file p r r' d) (hs : ' ' ∉ s)
    (hfit : s.isPrefixOf r' = true) : s.isPrefixOf r = true := by
  induction h generalizing s with
  | nil => exact hfit
  | keep _ ih =>
      cases s with
      | nil => rfl
      | cons c s =>
          rw [List.isPrefixOf, Bool.and_eq_true] at hfit ⊢
          exact ⟨hfit.1, ih (fun hmem => hs (.tail _ hmem)) hfit.2⟩
  | drop _ _ ih =>
      cases s with
      | nil => rfl
      | cons c s =>
          rw [List.isPrefixOf, Bool.and_eq_true, beq_iff_eq] at hfit
          rw [hfit.1] at hs
          exact absurd (.head _) hs

/-- A symbol of which nothing has faded is found in both texts. -/
theorem symbolLexeme? {l : Lexeme} {n : Nat} (h : Faded file p r r' d)
    (hsame : r'.take n = r.take n)
    (hl : InferTrace.symbolLexeme? r = some (l, n)) :
    InferTrace.symbolLexeme? r' = some (l, n) := by
  have hback : ∀ op ∈ symbols, op.toList.isPrefixOf r = false →
      op.toList.isPrefixOf r' = false := by
    intro op hop hno
    have hspace : ' ' ∉ op.toList := by
      intro hmem
      have hblank := not_isBlank_of_symbol hop ' ' hmem
      cases hblank
    refine Bool.eq_false_iff.2 fun hfit => ?_
    rw [h.isPrefixOf hspace hfit] at hno
    cases hno
  have hforth : ∀ op : String, op.toList.length = n →
      op.toList.isPrefixOf r = true → op.toList.isPrefixOf r' = true := by
    intro op hlength hfit
    rw [List.isPrefixOf_iff_prefix, List.prefix_iff_eq_take] at hfit ⊢
    rw [hlength, hsame, ← hlength]
    exact hfit
  unfold InferTrace.symbolLexeme? at hl ⊢
  split at hl
  · next hpre =>
    cases hl
    rw [if_pos (hforth arrowSymbol rfl hpre)]
  · next hpre =>
    have hno := hback arrowSymbol (.head _) (Bool.eq_false_iff.2 hpre)
    rw [if_neg (Bool.eq_false_iff.1 hno)]
    obtain ⟨op, hfind, heq⟩ := Option.map_eq_some_iff.1 hl
    cases heq
    obtain ⟨hop, before, after, hsplit, hbefore⟩ :=
      List.find?_eq_some_iff_append.1 hfind
    have hfind' : operators.find? (fun op => op.toList.isPrefixOf r')
        = some op := by
      refine List.find?_eq_some_iff_append.2
        ⟨hforth op String.length_toList hop, before, after, hsplit, ?_⟩
      intro op' hmem
      have hmem' : op' ∈ symbols := by
        refine .tail _ ?_
        rw [hsplit]
        exact List.mem_append_left _ hmem
      have hno := hbefore op' hmem
      rw [Bool.not_eq_true', hback op' hmem' (by simpa using hno)]
    rw [hfind']
    rfl

end Faded

-- ============================================== items in both modes

namespace Cursor

variable {cur : Cursor} {l : Lexeme} {n : Nat}

/-- What a lenient scan finds at `ch`, in front of `r`, and what a strict
scan does there. A lexeme is taken also if what follows it has faded; a
character that is dropped is refused; a fault is found by both. -/
inductive Matched (file : Text.Points) (p : Position) (ch : Char)
    (r : List Char) : Item × Cursor → Prop
  | token {t : Token} {w r₁ : List Char} : r = w ++ r₁ →
      (∀ r₁' d, Faded file (p.after (ch :: w)) r₁ r₁' d →
        item ⟨p, ch :: (w ++ r₁')⟩ (.mk file true) ch
          = (.token t, ⟨p.after (ch :: w), r₁'⟩)) →
      Matched file p ch r (.token t, ⟨p.after (ch :: w), r₁⟩)
  | dropped : isWordChar ch = false →
      item ⟨p, ch :: r⟩ (.mk file true) ch
        = (.fault { cause := .strayCharacter (String.singleton ch)
                    location := some (p.location file) }, ⟨p, ch :: r⟩) →
      Matched file p ch r (.dropped ch (p.location file), ⟨p.past ch, r⟩)
  | fault {f : Fault} {next : Cursor} :
      item ⟨p, ch :: r⟩ (.mk file true) ch = (.fault f, next) →
      Matched file p ch r (.fault f, next)

/-- A run that ends at a character of no word ends there also if what
follows has faded. -/
theorem passWhile_faded {f : Char → Bool} {r₁ r₁' : List Char}
    (h : Faded file (p.after w) r₁ r₁' d)
    (hw : (w ++ r₁).takeWhile f = w)
    (hf : ∀ c, isWordChar c = false → f c = false) :
    (w ++ r₁').takeWhile f = w ∧
      passWhile f ⟨p, w ++ r₁'⟩ = ⟨p.after w, r₁'⟩ := by
  have htake : (w ++ r₁').takeWhile f = w := by
    rw [(h.append w).takeWhile hf, hw]
  refine ⟨htake, ?_⟩
  rw [passWhile_eq_pass]
  simp only [pass, htake, List.take_left, List.drop_left]

/-- A lexeme that is a run of characters in `f`. -/
theorem matched_run {f : Char → Bool}
    (hf : ∀ c, isWordChar c = false → f c = false) (hch : f ch = true)
    (hitem : ∀ (mode : Mode) (cur : Cursor),
      cur.rest.takeWhile f = (ch :: r).takeWhile f →
      cur.item mode ch =
        (.token { lexeme := l, location := cur.location mode.file },
          cur.passWhile f)) :
    Matched file p ch r (item ⟨p, ch :: r⟩ (.mk file false) ch) := by
  have hrun : (ch :: r).takeWhile f = ch :: r.takeWhile f :=
    List.takeWhile_cons_of_pos hch
  have hsplit : r.takeWhile f ++ r.dropWhile f = r :=
    List.takeWhile_append_dropWhile
  have hpass : passWhile f ⟨p, ch :: r⟩
      = ⟨p.after (ch :: r.takeWhile f), r.dropWhile f⟩ := by
    unfold passWhile
    rw [hrun, List.dropWhile_cons_of_pos hch]
  rw [hitem _ _ rfl, hpass]
  refine .token hsplit.symm fun r₁' d h => ?_
  have hw : (ch :: r.takeWhile f ++ r.dropWhile f).takeWhile f
      = ch :: r.takeWhile f := by
    rw [List.cons_append, hsplit, hrun]
  obtain ⟨htake, hpass'⟩ := passWhile_faded h hw hf
  rw [hitem _ _ (htake.trans hrun.symm)]
  rw [List.cons_append] at hpass'
  rw [hpass']
  rfl

/-- A number is taken alike in a text that has faded behind it. -/
theorem matched_number (hch : ch.isDigit = true) :
    Matched file p ch r (item ⟨p, ch :: r⟩ (.mk file false) ch) := by
  by_cases hlong : Number.maxDigits
      < ((ch :: r).takeWhile Char.isDigit).length
  · rw [item_of_long _ hch hlong]
    exact .fault (item_of_long _ hch hlong)
  · have hne : (ch :: r).takeWhile Char.isDigit ≠ [] := by
      rw [List.takeWhile_cons_of_pos hch]
      exact List.cons_ne_nil _ _
    refine matched_run (l := .number (Nat.ofDigitChars 10
      ((ch :: r).takeWhile Char.isDigit) 0)) ?_ hch fun mode cur hcur => ?_
    · exact fun c hc => (Bool.or_eq_false_iff.1 hc).2
    · rw [← hcur] at hne hlong ⊢
      exact item_of_digits mode hch hne (Nat.le_of_not_lt hlong)

/-- So is a word. -/
theorem matched_word (hch : isWordStart ch = true) :
    Matched file p ch r (item ⟨p, ch :: r⟩ (.mk file false) ch) := by
  refine matched_run (l := wordLexeme (String.ofList
    ((ch :: r).takeWhile isWordChar))) (fun _ => id)
    (isWordChar_of_isWordStart hch) fun mode cur hcur => ?_
  rw [← hcur]
  exact item_of_word mode hch

/-- So is a mark. -/
theorem matched_mark (hch : ch ∈ punctuationMarks) :
    Matched file p ch r (item ⟨p, ch :: r⟩ (.mk file false) ch) := by
  rw [item_of_mark _ hch]
  exact .token (w := []) rfl fun r₁' d _ => item_of_mark _ hch

/-- And so is a symbol. -/
theorem matched_symbol (hword : isWordChar ch = false)
    (hmark : ch ∉ punctuationMarks)
    (hl : symbolLexeme? (ch :: r) = some (l, n)) :
    Matched file p ch r (item ⟨p, ch :: r⟩ (.mk file false) ch) := by
  have hlongest := longest_symbol hl
  obtain ⟨k, rfl⟩ := Nat.exists_eq_add_one_of_ne_zero hlongest.pos.ne'
  have hk : (r.take k).length = k := by
    have hle := hlongest.le
    rw [List.length_cons] at hle
    rw [List.length_take]
    omega
  have hpass : pass ⟨p, ch :: r⟩ (k + 1)
      = ⟨p.after (ch :: r.take k), r.drop k⟩ := rfl
  rw [item_of_symbol _ hword hmark hl, hpass]
  refine .token (w := r.take k) (List.take_append_drop k r).symm
    fun r₁' d h => ?_
  have hfaded := h.append (ch :: r.take k)
  rw [List.cons_append, List.cons_append, List.take_append_drop] at hfaded
  have hsame : (ch :: (r.take k ++ r₁')).take (k + 1)
      = (ch :: r).take (k + 1) := by
    rw [List.take_succ_cons, List.take_succ_cons, List.take_left' hk]
  rw [item_of_symbol _ hword hmark (hfaded.symbolLexeme? hsame hl)]
  unfold pass
  rw [hsame, List.drop_succ_cons, List.drop_left' hk]
  rfl

/-- What both scans do at a character. -/
theorem matched_item (file : Text.Points) (p : Position) (ch : Char)
    (r : List Char) :
    Matched file p ch r (item ⟨p, ch :: r⟩ (.mk file false) ch) := by
  by_cases hdigit : ch.isDigit = true
  · exact matched_number hdigit
  by_cases hstart : isWordStart ch = true
  · exact matched_word hstart
  by_cases hmark : ch ∈ punctuationMarks
  · exact matched_mark hmark
  have hword : isWordChar ch = false := by
    simp [isWordChar, hdigit, hstart]
  cases hl : symbolLexeme? (ch :: r) with
  | some found => exact matched_symbol hword hmark hl
  | none =>
      rw [item_of_none _ hword hmark hl]
      exact .dropped hword (item_of_none _ hword hmark hl)

-- ============================================================ scans

/-- A scan begins behind the blanks. -/
theorem scan_congr {cur' : Cursor} (mode : Mode)
    (h : cur.skipBlanks = cur'.skipBlanks) :
    cur.scan mode = cur'.scan mode := by
  cases hrest : cur'.skipBlanks.rest with
  | nil => rw [scan_nil (h ▸ hrest), scan_nil hrest, h]
  | cons ch r => rw [scan_cons (h ▸ hrest), scan_cons hrest, h]

/-- Blanks in front may be left out. -/
theorem scan_blanks (mode : Mode) (hb : ∀ c ∈ b, Text.isBlank c = true) :
    scan ⟨p, b ++ r⟩ mode = scan ⟨p.after b, r⟩ mode := by
  apply scan_congr
  unfold skipBlanks passWhile
  rw [List.takeWhile_append_of_pos hb, List.dropWhile_append_of_pos hb,
    Position.after_append]

/-- The blanks that a scan begins with, and what is behind them. -/
theorem exists_blanks (cur : Cursor) : ∃ b,
    (∀ c ∈ b, Text.isBlank c = true) ∧ cur.rest = b ++ cur.skipBlanks.rest ∧
      cur.skipBlanks.position = cur.position.after b :=
  ⟨cur.rest.takeWhile Text.isBlank, List.all_eq_true.1 List.all_takeWhile,
    List.takeWhile_append_dropWhile.symm, rfl⟩

/-- Behind the blanks there is none. -/
theorem not_isBlank_of_skipBlanks (h : cur.skipBlanks.rest = ch :: r) :
    Text.isBlank ch = false := by
  have hhead := List.head?_dropWhile_not Text.isBlank cur.rest
  have hrest : cur.rest.dropWhile Text.isBlank = ch :: r := h
  rw [hrest] at hhead
  simpa using hhead

/-- Without blanks in front the scan begins with the next item. -/
theorem scan_of_not_isBlank (mode : Mode) (hch : Text.isBlank ch = false) :
    scan ⟨p, ch :: r⟩ mode = resume mode (item ⟨p, ch :: r⟩ mode ch) := by
  have hno := Bool.eq_false_iff.1 hch
  have hskip : skipBlanks ⟨p, ch :: r⟩ = ⟨p, ch :: r⟩ := by
    unfold skipBlanks passWhile
    rw [List.takeWhile_cons_of_neg hno, List.dropWhile_cons_of_neg hno]
    rfl
  have hrest : (skipBlanks ⟨p, ch :: r⟩).rest = ch :: r := by
    rw [hskip]
  rw [scan_cons hrest, hskip]

/-- Whatever comes next is taken alike. -/
theorem matched_of_rest (file : Text.Points)
    (hrest : cur.skipBlanks.rest = ch :: r) :
    Matched file cur.skipBlanks.position ch r
      (cur.skipBlanks.item (.mk file false) ch) := by
  have hmatched := matched_item file cur.skipBlanks.position ch r
  rw [← hrest] at hmatched
  exact hmatched

/-- A lenient scan of a text gives what a strict scan gives of the text
that has faded by what was dropped. -/
theorem faded_scan (file : Text.Points) (cur : Cursor) :
    ∃ r', Faded file cur.position cur.rest r'
        (cur.scan (.mk file false)).dropped ∧
      (scan ⟨cur.position, r'⟩ (.mk file true)).result
        = (cur.scan (.mk file false)).result := by
  fun_induction Cursor.scan cur (.mk file false) with
  | case1 cur hrest =>
      refine ⟨cur.rest, .refl .., ?_⟩
      show (cur.scan (.mk file true)).result = _
      rw [scan_nil hrest]
  | case2 cur ch r hrest token next hitem hlt ih =>
      obtain ⟨b, hb, hcur, hposition⟩ := cur.exists_blanks
      have hblank := not_isBlank_of_skipBlanks hrest
      have hmatched := matched_of_rest file hrest
      rw [hitem] at hmatched
      cases hmatched with
      | @token _ w r₁ hr hstrict =>
          obtain ⟨r₁', hfaded, hresult⟩ := ih
          refine ⟨b ++ ch :: (w ++ r₁'), ?_, ?_⟩
          · rw [hcur, hrest, hr]
            apply Faded.append b
            rw [← hposition]
            exact hfaded.append (ch :: w)
          · rw [scan_blanks _ hb, ← hposition,
              scan_of_not_isBlank _ hblank, hstrict _ _ hfaded]
            exact congrArg (Except.map (token :: ·)) hresult
  | case3 cur ch r hrest char place next hitem hlt ih =>
      obtain ⟨b, hb, hcur, hposition⟩ := cur.exists_blanks
      have hblank := not_isBlank_of_skipBlanks hrest
      have hmatched := matched_of_rest file hrest
      rw [hitem] at hmatched
      cases hmatched with
      | dropped hword _ =>
          obtain ⟨r₁', hfaded, hresult⟩ := ih
          refine ⟨b ++ ' ' :: r₁', ?_, ?_⟩
          · rw [hcur, hrest]
            apply Faded.append b
            rw [← hposition]
            exact .drop hword hfaded
          · -- the strict scan passes the space with the blanks before it
            have hspace : ∀ c ∈ b ++ [' '], Text.isBlank c = true := by
              intro c hc
              rcases List.mem_append.1 hc with hc | hc
              · exact hb c hc
              · rw [List.mem_singleton.1 hc]
                decide
            have hafter : cur.position.after (b ++ [' '])
                = cur.skipBlanks.position.past ch := by
              rw [Position.after_append, ← hposition]
              exact Position.past_space hblank
            rw [List.append_cons, scan_blanks _ hspace, hafter]
            exact hresult
  | case4 cur ch r hrest fault next hitem =>
      have hmatched := matched_of_rest file hrest
      rw [hitem] at hmatched
      refine ⟨cur.rest, .refl .., ?_⟩
      show (cur.scan (.mk file true)).result = _
      cases hmatched with
      | fault hstrict =>
          rw [← hrest] at hstrict
          rw [scan_cons hrest]
          exact congrArg (fun x => (resume _ x).result) hstrict

/-- What a strict scan makes of the text: what the lenient scan gives,
or the first character that it drops. -/
def Scan.strictly (s : Scan) : Except Fault (List Token) :=
  match s.dropped.head? with
  | none => s.result
  | some stray =>
    .error { cause := .strayCharacter (String.singleton stray.1)
             location := some stray.2 }

/-- A token in front is there in strict mode, too. -/
theorem Scan.strictly_after (t : Token) (s : Scan) :
    (s.after t).strictly = s.strictly.map (t :: ·) := by
  unfold strictly after
  cases s.dropped.head? with
  | none => rfl
  | some stray => rfl

/-- The strict scan follows the lenient one as long as nothing is
dropped. -/
theorem scan_strictly (file : Text.Points) (cur : Cursor) :
    (cur.scan (.mk file true)).result
      = (cur.scan (.mk file false)).strictly := by
  fun_induction Cursor.scan cur (.mk file false) with
  | case1 cur hrest =>
      rw [scan_nil hrest]
      rfl
  | case2 cur ch r hrest token next hitem hlt ih =>
      have hmatched := matched_of_rest file hrest
      rw [hitem] at hmatched
      cases hmatched with
      | @token _ w r₁ hr hstrict =>
          have hsame := hstrict r₁ [] (.refl ..)
          rw [← hr, ← hrest] at hsame
          rw [Scan.strictly_after, ← ih, scan_cons hrest]
          exact congrArg (fun x => (resume _ x).result) hsame
  | case3 cur ch r hrest char place next hitem hlt ih =>
      have hmatched := matched_of_rest file hrest
      rw [hitem] at hmatched
      cases hmatched with
      | dropped _ hstrict =>
          rw [← hrest] at hstrict
          rw [scan_cons hrest]
          exact congrArg (fun x => (resume _ x).result) hstrict
  | case4 cur ch r hrest fault next hitem =>
      have hmatched := matched_of_rest file hrest
      rw [hitem] at hmatched
      cases hmatched with
      | fault hstrict =>
          rw [← hrest] at hstrict
          rw [scan_cons hrest]
          exact congrArg (fun x => (resume _ x).result) hstrict

end Cursor

-- ========================================================== sources

/-- The source with a space for every character that a lenient scan
drops. -/
def blanked (file : Text.Points) (source : String) : String :=
  String.ofList (blankOut file (scanSource (.mk file false) source).dropped
    {} source.toList)

/-- Strict and lenient scans agree. A lenient scan of a source gives what
a strict scan gives of the source with spaces for what is dropped. A
strict scan of the source itself gives the same if nothing is dropped;
otherwise it refuses the first character that is. -/
theorem scanSource_strict (file : Text.Points) (source : String) :
    (scanSource (.mk file true) (blanked file source)).result
        = (scanSource (.mk file false) source).result ∧
      ((scanSource (.mk file false) source).dropped = [] →
        (scanSource (.mk file true) source).result
          = (scanSource (.mk file false) source).result) ∧
      ∀ c place rest,
        (scanSource (.mk file false) source).dropped = (c, place) :: rest →
        (scanSource (.mk file true) source).result
          = .error { cause := .strayCharacter (String.singleton c)
                     location := some place } := by
  have hstrict : (scanSource (.mk file true) source).result
      = (scanSource (.mk file false) source).strictly :=
    Cursor.scan_strictly file (.ofSource source)
  refine ⟨?_, fun hnone => ?_, fun c place rest hfirst => ?_⟩
  · obtain ⟨r', hfaded, hresult⟩ :=
      Cursor.faded_scan file (.ofSource source)
    have htext : (blanked file source).toList = r' := by
      rw [blanked, String.toList_ofList]
      exact hfaded.blankOut_eq [] (by simp)
    rw [← htext] at hresult
    exact hresult
  · rw [hstrict, Cursor.Scan.strictly, hnone]
    rfl
  · rw [hstrict, Cursor.Scan.strictly, hfirst]
    rfl

/-- A colon begins no lexeme unless another one follows; dropped, it
parts the numbers around it. -/
theorem scanSource_strict_colon :
    (scanSource (.mk "<input>" true) "1 2").result
        = (scanSource (.mk "<input>" false) "1:2").result ∧
      (scanSource (.mk "<input>" true) "1:2").result
        = .error { cause := .strayCharacter ":"
                   location := some { line := 1, column := 2 } } ∧
      (scanSource (.mk "<input>" true) "1 2").result
        = (scanSource (.mk "<input>" false) "1 2").result := by
  have hblanked : blanked "<input>" "1:2" = "1 2" := by
    cbv
  have hdropped : (scanSource (.mk "<input>" false) "1:2").dropped
      = [(':', { line := 1, column := 2 })] := by
    cbv
  have hnone : (scanSource (.mk "<input>" false) "1 2").dropped = [] := by
    cbv
  have hsame := (scanSource_strict "<input>" "1:2").1
  rw [hblanked] at hsame
  exact ⟨hsame, (scanSource_strict _ _).2.2 _ _ _ hdropped,
    (scanSource_strict _ _).2.1 hnone⟩

end InferTrace
