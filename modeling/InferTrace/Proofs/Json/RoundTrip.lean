/-
A JSON text gives back the value it was written for, in every layout.

The reader takes one value from the front of a text and leaves what comes
after it. So the statement that goes through the containers is about a
value in front of any text that closes it (`ReadsBack`): an item is
followed by a comma or a bracket, never by more digits. Items and fields
are then read one by one, with the blanks of the layout between them, and
fields are put behind those that were read before, since no key comes
twice (`Plain`).

The reader counts levels and digits down from its limits. A text is
longer than it is deep, and longer than any number in it, so that its
length is enough for both (`Plain.readsBack`).
-/
import InferTrace.Proofs.Json.Scalars
import Mathlib.Data.List.TakeWhile
import Mathlib.Tactic.ByContra

namespace InferTrace.Json

open Config (Value)
open Text (Point Points)

variable {rest : List Char} {indent : Option Nat} {level : Nat}

-- =============================================================== blanks

/-- A character that may stand between the parts of a text. -/
def isSpace (c : Char) : Bool := c == ' ' || c == '\t' || c == '\n' || c == '\r'

/-- The end of a line is a blank between values. -/
theorem isSpace_newline : ∀ c ∈ "\n".toList, isSpace c = true := by
  simp [isSpace]

/-- Blanks before something are skipped. -/
theorem skipSpace_append {b : List Char} {c : Char}
    (hb : ∀ c ∈ b, isSpace c = true) (hc : isSpace c = false)
    (cs : List Char) : skipSpace (b ++ c :: cs) = c :: cs := by
  show (b ++ c :: cs).dropWhile isSpace = _
  rw [List.dropWhile_append_of_pos hb]
  simp [hc]

/-- Line breaks and what indents a line are blanks. -/
theorem isSpace_of_mem_lineBreak {c : Char}
    (h : c ∈ (lineBreak indent level).toList) : isSpace c = true := by
  cases indent with
  | none => simp [lineBreak] at h
  | some width =>
      rw [lineBreak, String.toList_ofList] at h
      rcases List.mem_cons.1 h with rfl | h
      · rfl
      · rw [(List.mem_replicate.1 h).2]
        rfl

/-- What stands between a comma and the next item. -/
def gap (indent : Option Nat) (level : Nat) : List Char :=
  match indent with
  | none => [' ']
  | some _ => (lineBreak indent level).toList

/-- A separator is a comma and the gap behind it. -/
theorem toList_separator :
    (separator indent level).toList = ',' :: gap indent level := by
  cases indent with
  | none => simp [separator, gap]
  | some width =>
      rw [separator, String.toList_append]
      rfl

/-- The gap behind a comma is blank. -/
theorem isSpace_of_mem_gap {c : Char} (h : c ∈ gap indent level) :
    isSpace c = true := by
  cases indent with
  | none =>
      rw [List.mem_singleton.1 h]
      rfl
  | some width => exact isSpace_of_mem_lineBreak h

-- =============================================================== layout

/-- Items after the first, each behind a comma. -/
def laterItems (gap : List Char) (texts : List String) : List Char :=
  texts.flatMap fun t => ',' :: gap ++ t.toList

/-- Items with separators are the first and then the later ones, each
behind its gap. -/
theorem toList_intercalate_cons (t : String) (ts : List String) :
    ((separator indent level).intercalate (t :: ts)).toList
      = t.toList ++ laterItems (gap indent level) ts := by
  induction ts generalizing t with
  | nil => simp [laterItems]
  | cons u us ih =>
      rw [String.intercalate_cons_cons, String.toList_append,
        String.toList_append, ih, toList_separator]
      simp [laterItems]

/-- A container around its items: blanks may stand behind the opening
and before the closing bracket. -/
theorem toList_enclose (opening closing t : String) (ts : List String) :
    (enclose indent level opening closing (t :: ts)).toList
      = opening.toList ++ ((lineBreak indent (level + 1)).toList ++ (t.toList
        ++ (laterItems (gap indent (level + 1)) ts
          ++ ((lineBreak indent level).toList ++ closing.toList)))) := by
  rw [enclose]
  simp only [String.toList_append, toList_intercalate_cons, List.append_assoc]

theorem itemTexts_eq (items : List Json) :
    itemTexts indent level items = items.map (renderAt indent level) := by
  induction items with
  | nil => rfl
  | cons x items ih => rw [itemTexts, ih, List.map_cons]

/-- The text of a field. -/
def fieldText (indent : Option Nat) (level : Nat) (f : String × Json) :
    String :=
  writeText f.1 ++ ": " ++ renderAt indent level f.2

theorem fieldTexts_eq (fields : List (String × Json)) :
    fieldTexts indent level fields = fields.map (fieldText indent level) := by
  induction fields with
  | nil => rfl
  | cons f fields ih => rw [fieldTexts, ih, List.map_cons, fieldText]

/-- The text of an array, part by part. -/
theorem toList_renderAt_arr (x : Json) (items : List Json) :
    (renderAt indent level (.arr (x :: items))).toList
      = '[' :: ((lineBreak indent (level + 1)).toList
        ++ ((renderAt indent (level + 1) x).toList
        ++ (laterItems (gap indent (level + 1))
            (items.map (renderAt indent (level + 1)))
          ++ ((lineBreak indent level).toList ++ [']'])))) := by
  rw [renderAt, itemTexts_eq, List.map_cons, toList_enclose]
  rfl

/-- The text of an object, part by part. -/
theorem toList_renderAt_obj (f : String × Json) (fields : List (String × Json)) :
    (renderAt indent level (.obj (f :: fields))).toList
      = '\x7b' :: ((lineBreak indent (level + 1)).toList
        ++ ((fieldText indent (level + 1) f).toList
        ++ (laterItems (gap indent (level + 1))
            (fields.map (fieldText indent (level + 1)))
          ++ ((lineBreak indent level).toList ++ ['\x7d'])))) := by
  rw [renderAt, fieldTexts_eq, List.map_cons, toList_enclose]
  rfl

-- ============================================================== reading

/-- Values that their text gives back: doubles apart, with no surrogates
that make a pair in a text, and with no key twice in an object. -/
inductive Plain : Json → Prop
  | null : Plain .null
  | bool (b : Bool) : Plain (.bool b)
  | int (n : Int) : Plain (.int n)
  | text {p : Points} : p.Unpaired → Plain (.str p)
  | arr {items : List Json} : (∀ x ∈ items, Plain x) → Plain (.arr items)
  | obj {fields : List (String × Json)} : (fields.map Prod.fst).Nodup →
      (∀ f ∈ fields, Plain f.2) → Plain (.obj fields)

theorem Plain.str (s : String) : Plain (.str s) :=
  .text (Points.unpaired_ofString s)

/-- The reader takes the text of the value from the front of any text
that goes on with something else. -/
def ReadsBack (inner : List Char → Read Value) (indent : Option Nat)
    (level : Nat) (j : Json) : Prop :=
  ∀ rest, Closes rest →
    inner ((renderAt indent level j).toList ++ rest)
      = .ok (Value.ofJson j, rest)

/-- A text begins with what is neither a blank nor a closing bracket. -/
theorem Plain.exists_renderAt {j : Json} (h : j.Plain)
    (indent : Option Nat) (level : Nat) :
    ∃ c cs, (renderAt indent level j).toList = c :: cs ∧
      isSpace c = false ∧ c ≠ ']' := by
  cases h with
  | null =>
      rw [renderAt]
      exact ⟨'n', "ull".toList, rfl, by decide, by decide⟩
  | bool b =>
      rw [renderAt]
      cases b with
      | true => exact ⟨'t', "rue".toList, rfl, by decide, by decide⟩
      | false => exact ⟨'f', "alse".toList, rfl, by decide, by decide⟩
  | int n =>
      obtain ⟨d, ds, htext, hd⟩ := exists_toString_int n
      refine ⟨d, ds, htext, ?_, ?_⟩
      · rcases hd with hd | rfl
        · by_contra hspace
          simp only [isSpace, Bool.not_eq_false, Bool.or_eq_true, beq_iff_eq]
            at hspace
          rcases hspace with ((rfl | rfl) | rfl) | rfl <;> cases hd
        · rfl
      · rcases hd with hd | rfl
        · rintro rfl
          cases hd
        · decide
  | text hp =>
      obtain ⟨cs, htext, -⟩ := readString_writeText hp []
      exact ⟨'"', cs, htext, by decide, by decide⟩
  | @arr items _ =>
      cases items with
      | nil =>
          rw [renderAt]
          exact ⟨'[', "]".toList, rfl, by decide, by decide⟩
      | cons x items =>
          exact ⟨'[', _, toList_renderAt_arr x items, by decide, by decide⟩
  | @obj fields _ _ =>
      cases fields with
      | nil =>
          rw [renderAt]
          exact ⟨'\x7b', "\x7d".toList, rfl, by decide, by decide⟩
      | cons f fields =>
          exact ⟨'\x7b', _, toList_renderAt_obj f fields, by decide, by decide⟩

/-- What continues no number closes one. -/
theorem closes_cons {c : Char}
    (h : c.isDigit = false ∧ c ≠ '.' ∧ c ≠ 'e' ∧ c ≠ 'E') (cs : List Char) :
    Closes (c :: cs) := by
  intro d hd
  obtain rfl : c = d := Option.some.inj hd
  exact h

/-- Blanks close a number, and so does what is no part of one. -/
theorem closes_append {b cs : List Char} (hb : ∀ c ∈ b, isSpace c = true)
    (hcs : Closes cs) : Closes (b ++ cs) := by
  cases b with
  | nil => exact hcs
  | cons d b =>
      have hspace := hb d List.mem_cons_self
      simp only [isSpace, Bool.or_eq_true, beq_iff_eq] at hspace
      apply closes_cons
      rcases hspace with ((rfl | rfl) | rfl) | rfl <;> decide

/-- What follows an item closes a number. -/
theorem closes_laterItems (gap : List Char) (texts : List String)
    {b cs : List Char} (hb : ∀ c ∈ b, isSpace c = true) (hcs : Closes cs) :
    Closes (laterItems gap texts ++ (b ++ cs)) := by
  cases texts with
  | nil =>
      show Closes (b ++ cs)
      exact closes_append hb hcs
  | cons t ts => exact closes_cons (by decide) _

theorem closes_bracket (cs : List Char) : Closes (']' :: cs) :=
  closes_cons (by decide) cs

theorem closes_brace (cs : List Char) : Closes ('\x7d' :: cs) :=
  closes_cons (by decide) cs

variable {inner : List Char → Read Value} {close : List Char}

/-- Behind an item comes a comma, if another item follows. -/
theorem skipSpace_laterItems (gap : List Char) (t : String) (ts : List String)
    (tail : List Char) :
    skipSpace (laterItems gap (t :: ts) ++ tail)
      = ',' :: (gap ++ (t.toList ++ (laterItems gap ts ++ tail))) := by
  have htext : laterItems gap (t :: ts) ++ tail
      = [] ++ ',' :: (gap ++ (t.toList ++ (laterItems gap ts ++ tail))) := by
    simp [laterItems]
  rw [htext]
  exact skipSpace_append (by simp) (by decide) _

/-- Blanks before a value are passed over. -/
theorem ReadsBack.skipSpace {j : Json} {b : List Char}
    (h : ReadsBack inner indent level j) (hj : j.Plain)
    (hb : ∀ c ∈ b, isSpace c = true) (hrest : Closes rest) :
    inner (Json.skipSpace (b ++ ((renderAt indent level j).toList ++ rest)))
      = .ok (Value.ofJson j, rest) := by
  have hread := h rest hrest
  obtain ⟨c, cs, htext, hc, -⟩ := hj.exists_renderAt indent level
  rw [htext, List.cons_append] at hread ⊢
  rw [skipSpace_append hb hc, hread]

-- ================================================================ items

variable {fuel : Nat} {cs r s : List Char} {v : Value}

/-- A comma behind an item: the next item is read. -/
theorem readItems_comma {taken : List Value}
    (hread : inner (skipSpace cs) = .ok (v, r)) (hr : skipSpace r = ',' :: s) :
    readItems inner (fuel + 1) taken cs = readItems inner fuel (v :: taken) s := by
  rw [readItems, hread]
  simp only [bind, Except.bind, hr]

/-- A bracket behind an item: that was the last one. -/
theorem readItems_bracket {taken : List Value}
    (hread : inner (skipSpace cs) = .ok (v, r)) (hr : skipSpace r = ']' :: s) :
    readItems inner (fuel + 1) taken cs = .ok ((v :: taken).reverse, s) := by
  rw [readItems, hread]
  simp only [bind, Except.bind, hr]

/-- Items that are read back one by one are read back in a row. -/
theorem readItems_laterItems (hclose : ∀ c ∈ close, isSpace c = true)
    (items : List Json) :
    ∀ (x : Json) (fuel : Nat) (taken : List Value) (b : List Char),
      (∀ y ∈ x :: items, y.Plain ∧ ReadsBack inner indent level y) →
      items.length < fuel → (∀ c ∈ b, isSpace c = true) →
      readItems inner fuel taken (b ++ ((renderAt indent level x).toList
          ++ (laterItems (gap indent level) (items.map (renderAt indent level))
            ++ (close ++ ']' :: rest))))
        = .ok (taken.reverse ++ (x :: items).map Value.ofJson, rest) := by
  induction items with
  | nil =>
      intro x fuel taken b hread hfuel hb
      obtain ⟨fuel, rfl⟩ := Nat.exists_eq_succ_of_ne_zero (Nat.ne_of_gt hfuel)
      obtain ⟨hplain, hx⟩ := hread x List.mem_cons_self
      have hclosed := closes_append hclose (closes_bracket rest)
      refine (readItems_bracket (hx.skipSpace hplain hb hclosed)
        (skipSpace_append hclose (by decide) rest)).trans ?_
      simp
  | cons y items ih =>
      intro x fuel taken b hread hfuel hb
      obtain ⟨fuel, rfl⟩ := Nat.exists_eq_succ_of_ne_zero
        (Nat.ne_of_gt (Nat.zero_lt_of_lt hfuel))
      obtain ⟨hplain, hx⟩ := hread x List.mem_cons_self
      have hclosed := closes_laterItems (gap indent level)
        ((y :: items).map (renderAt indent level)) hclose
        (closes_bracket rest)
      rw [readItems_comma (hx.skipSpace hplain hb hclosed)
          (skipSpace_laterItems _ _ _ _),
        ih y fuel _ _ (fun z hz => hread z (List.mem_cons_of_mem _ hz))
          (Nat.lt_of_succ_lt_succ hfuel) fun c hc => isSpace_of_mem_gap hc]
      simp

-- =============================================================== fields

/-- A field is at the front of the text: its key, its value, and the
rest. -/
def HasField (inner : List Char → Read Value) (cs : List Char) (key : Points)
    (v : Value) (r : List Char) : Prop :=
  ∃ t u w, skipSpace cs = '"' :: t ∧ readString t = .ok (key, u) ∧
    skipSpace u = ':' :: w ∧ inner (skipSpace w) = .ok (v, r)

variable {key : Points} {taken : List (Value × Value)}

/-- A comma behind a field: the next field is read. -/
theorem HasField.readFields_comma (h : HasField inner cs key v r)
    (hr : skipSpace r = ',' :: s) :
    readFields inner (fuel + 1) taken cs
      = readFields inner fuel (Value.putEntry (.text key) v taken) s := by
  obtain ⟨t, u, w, hcs, hkey, hu, hv⟩ := h
  rw [readFields]
  simp only [hcs, hkey, hu, hv, hr, bind, Except.bind]

/-- A brace behind a field: that was the last one. -/
theorem HasField.readFields_brace (h : HasField inner cs key v r)
    (hr : skipSpace r = '\x7d' :: s) :
    readFields inner (fuel + 1) taken cs
      = .ok (Value.putEntry (.text key) v taken, s) := by
  obtain ⟨t, u, w, hcs, hkey, hu, hv⟩ := h
  rw [readFields]
  simp only [hcs, hkey, hu, hv, hr, bind, Except.bind]

/-- The text of a field has the field at its front. -/
theorem hasField_fieldText {f : String × Json} {b : List Char}
    (h : ReadsBack inner indent level f.2) (hf : f.2.Plain)
    (hb : ∀ c ∈ b, isSpace c = true) (hrest : Closes rest) :
    HasField inner (b ++ ((fieldText indent level f).toList ++ rest))
      (.ofString f.1) (Value.ofJson f.2) rest := by
  obtain ⟨cs, htext, hread⟩ := readString_writeText
    (Points.unpaired_ofString f.1)
    (": ".toList ++ ((renderAt indent level f.2).toList ++ rest))
  refine ⟨_, _, _, ?_, hread, rfl, ?_⟩
  · rw [fieldText, String.toList_append, String.toList_append, htext]
    simp only [List.cons_append, List.append_assoc]
    exact skipSpace_append hb (by decide) _
  · exact h.skipSpace (b := [' ']) hf (by simp [isSpace]) hrest

/-- A key that is new is put behind the others. -/
theorem putEntry_ofJsonFields {fields : List (String × Json)} {name : String}
    (h : name ∉ fields.map Prod.fst) :
    Value.putEntry (.text (.ofString name)) v (Value.ofJsonFields fields)
      = Value.ofJsonFields fields ++ [(.text (.ofString name), v)] := by
  induction fields with
  | nil => rfl
  | cons f fields ih =>
      rw [List.map_cons, List.mem_cons, not_or] at h
      have hne : (Value.text (.ofString f.1)).key?
          ≠ (Value.text (.ofString name)).key? := by
        intro heq
        simp only [Value.key?, Option.some.injEq, Value.Key.text.injEq] at heq
        exact h.1 (Points.ofString_inj.1 heq).symm
      rw [Value.ofJsonFields, Value.putEntry, if_neg hne, ih h.2]
      rfl

theorem ofJsonFields_append (fields more : List (String × Json)) :
    Value.ofJsonFields (fields ++ more)
      = Value.ofJsonFields fields ++ Value.ofJsonFields more := by
  induction fields with
  | nil => rfl
  | cons f fields ih =>
      rw [List.cons_append, Value.ofJsonFields, ih, Value.ofJsonFields]
      rfl

/-- Fields that are read back one by one are read back in a row, behind
those that were read `before`. -/
theorem readFields_laterItems (hclose : ∀ c ∈ close, isSpace c = true)
    (fields : List (String × Json)) :
    ∀ (f : String × Json) (fuel : Nat) (before : List (String × Json))
      (b : List Char),
      (∀ g ∈ f :: fields, g.2.Plain ∧ ReadsBack inner indent level g.2) →
      ((before ++ f :: fields).map Prod.fst).Nodup →
      fields.length < fuel → (∀ c ∈ b, isSpace c = true) →
      readFields inner fuel (Value.ofJsonFields before)
        (b ++ ((fieldText indent level f).toList
          ++ (laterItems (gap indent level) (fields.map (fieldText indent level))
            ++ (close ++ '\x7d' :: rest))))
        = .ok (Value.ofJsonFields (before ++ f :: fields), rest) := by
  have hnew : ∀ {f : String × Json} {before fields : List (String × Json)},
      ((before ++ f :: fields).map Prod.fst).Nodup →
      Value.putEntry (.text (.ofString f.1)) (Value.ofJson f.2)
          (Value.ofJsonFields before)
        = Value.ofJsonFields (before ++ [f]) := by
    intro f before fields hnodup
    rw [putEntry_ofJsonFields, ofJsonFields_append]
    · rfl
    · rw [List.map_append, List.map_cons] at hnodup
      intro hmem
      exact (List.nodup_append.1 hnodup).2.2 _ hmem _ List.mem_cons_self rfl
  induction fields with
  | nil =>
      intro f fuel before b hread hnodup hfuel hb
      obtain ⟨fuel, rfl⟩ := Nat.exists_eq_succ_of_ne_zero (Nat.ne_of_gt hfuel)
      obtain ⟨hplain, hf⟩ := hread f List.mem_cons_self
      have hfield := hasField_fieldText hf hplain hb
        (closes_append hclose (closes_brace rest))
      refine (hfield.readFields_brace
        (skipSpace_append hclose (by decide) rest)).trans ?_
      rw [hnew hnodup]
  | cons g fields ih =>
      intro f fuel before b hread hnodup hfuel hb
      obtain ⟨fuel, rfl⟩ := Nat.exists_eq_succ_of_ne_zero
        (Nat.ne_of_gt (Nat.zero_lt_of_lt hfuel))
      obtain ⟨hplain, hf⟩ := hread f List.mem_cons_self
      have hfield := hasField_fieldText hf hplain hb
        (closes_laterItems (gap indent level)
          ((g :: fields).map (fieldText indent level)) hclose
          (closes_brace rest))
      have hsplit : before ++ f :: g :: fields = before ++ [f] ++ g :: fields := by
        simp
      rw [hfield.readFields_comma (skipSpace_laterItems _ _ _ _), hnew hnodup,
        ih g fuel (before ++ [f]) _
          (fun h hh => hread h (List.mem_cons_of_mem _ hh)) (hsplit ▸ hnodup)
          (Nat.lt_of_succ_lt_succ hfuel) fun c hc => isSpace_of_mem_gap hc,
        ← hsplit]

-- =============================================================== values

/-- An item is no longer than the row it stands in. -/
theorem length_le_laterItems (gap : List Char) {t : String}
    {ts : List String} (h : t ∈ ts) : t.toList.length ≤ (laterItems gap ts).length := by
  induction ts with
  | nil => cases h
  | cons u us ih =>
      have hlen : (laterItems gap (u :: us)).length
          = 1 + gap.length + u.toList.length + (laterItems gap us).length := by
        simp [laterItems]
        omega
      rcases List.mem_cons.1 h with rfl | h
      · omega
      · have := ih h
        omega

/-- There are at least as many characters as items, so the length of the
text is fuel enough. -/
theorem length_le_laterItems_length (gap : List Char) (ts : List String) :
    ts.length ≤ (laterItems gap ts).length := by
  induction ts with
  | nil => exact Nat.le_refl 0
  | cons t ts ih =>
      simp only [laterItems, List.flatMap_cons, List.length_append,
        List.length_cons] at ih ⊢
      omega

variable {maxDigits limit : Nat}

/-- A value that starts with a bracket is the list of its items. -/
theorem readValue_items {body : List Char} {xs : List Value}
    (hskip : ∀ t, skipSpace body ≠ ']' :: t)
    (hitems : readItems (readValue maxDigits limit) body.length [] body
      = .ok (xs, r)) :
    readValue maxDigits (limit + 1) ('[' :: body) = .ok (.list xs, r) := by
  rw [readValue]
  split
  · next heq => exact absurd heq (hskip _)
  · rw [hitems]
    rfl

/-- A value that starts with a brace is the mapping of its fields. -/
theorem readValue_fields {body : List Char}
    (hskip : ∀ t, skipSpace body ≠ '\x7d' :: t)
    (hfields : readFields (readValue maxDigits limit) body.length [] body
      = .ok (taken, r)) :
    readValue maxDigits (limit + 1) ('\x7b' :: body) = .ok (.mapping taken, r) := by
  rw [readValue]
  split
  · next heq => exact absurd heq (hskip _)
  · rw [hfields]
    rfl

/-- A value that starts with a digit or a sign is a number. -/
theorem readValue_number {c : Char} (hc : c.isDigit = true ∨ c = '-') :
    readValue maxDigits (limit + 1) (c :: cs) = readNumber maxDigits (c :: cs) := by
  have hne : ∀ d : Char, d.isDigit = false → d ≠ '-' → ∀ t, c :: cs ≠ d :: t := by
    rintro d hd hd' t heq
    rw [(List.cons.inj heq).1] at hc
    rcases hc with hc | hc
    · rw [hd] at hc
      cases hc
    · exact hd' hc
  rw [readValue, readConstant_eq_none hc]
  · exact hne '"' (by decide) (by decide)
  · exact hne '[' (by decide) (by decide)
  · exact hne '\x7b' (by decide) (by decide)

theorem ofJsonItems_eq (items : List Json) :
    Value.ofJsonItems items = items.map Value.ofJson := by
  induction items with
  | nil => rfl
  | cons x items ih => rw [Value.ofJsonItems, ih, List.map_cons]

/-- An array is read back if its items are. -/
theorem readsBack_arr {x : Json} {items : List Json}
    (h : ∀ y ∈ x :: items, y.Plain ∧
      ReadsBack (readValue maxDigits limit) indent (level + 1) y) :
    ReadsBack (readValue maxDigits (limit + 1)) indent level
      (.arr (x :: items)) := by
  intro rest hrest
  obtain ⟨c, cs, htext, hc, hbracket⟩ :=
    (h x List.mem_cons_self).1.exists_renderAt indent (level + 1)
  rw [toList_renderAt_arr, Value.ofJson, ofJsonItems_eq]
  simp only [List.cons_append, List.append_assoc, List.nil_append]
  refine readValue_items ?_ ?_
  · intro t heq
    rw [htext, List.cons_append,
      skipSpace_append (fun d hd => isSpace_of_mem_lineBreak hd) hc] at heq
    exact hbracket (List.cons.inj heq).1
  · refine readItems_laterItems (fun d hd => isSpace_of_mem_lineBreak hd)
      items x _ [] _ h ?_ fun d hd => isSpace_of_mem_lineBreak hd
    have := length_le_laterItems_length (gap indent (level + 1))
      (items.map (renderAt indent (level + 1)))
    simp only [List.length_append, List.length_cons, List.length_map] at this ⊢
    omega

/-- An object is read back if its fields are. -/
theorem readsBack_obj {f : String × Json} {fields : List (String × Json)}
    (hnodup : ((f :: fields).map Prod.fst).Nodup)
    (h : ∀ g ∈ f :: fields, g.2.Plain ∧
      ReadsBack (readValue maxDigits limit) indent (level + 1) g.2) :
    ReadsBack (readValue maxDigits (limit + 1)) indent level
      (.obj (f :: fields)) := by
  intro rest hrest
  obtain ⟨cs, htext, -⟩ := readString_writeText
    (Points.unpaired_ofString f.1) []
  rw [toList_renderAt_obj, Value.ofJson]
  simp only [List.cons_append, List.append_assoc, List.nil_append]
  refine readValue_fields ?_ ?_
  · intro t heq
    rw [fieldText, String.toList_append, String.toList_append, htext,
      List.cons_append, List.cons_append, List.cons_append,
      skipSpace_append (fun d hd => isSpace_of_mem_lineBreak hd) (by decide)]
      at heq
    exact absurd (List.cons.inj heq).1 (by decide)
  · refine readFields_laterItems (fun d hd => isSpace_of_mem_lineBreak hd)
      fields f _ [] _ h hnodup ?_ fun d hd => isSpace_of_mem_lineBreak hd
    have := length_le_laterItems_length (gap indent (level + 1))
      (fields.map (fieldText indent (level + 1)))
    simp only [List.length_append, List.length_cons, List.length_map] at this ⊢
    omega

/-- The text of an item is shorter than that of its array. -/
theorem length_lt_renderAt_arr {items : List Json} {y : Json} (h : y ∈ items) :
    (renderAt indent (level + 1) y).toList.length
      < (renderAt indent level (.arr items)).toList.length := by
  cases items with
  | nil => cases h
  | cons x items =>
      rw [toList_renderAt_arr]
      simp only [List.length_append, List.length_cons]
      rcases List.mem_cons.1 h with rfl | h
      · omega
      · have := length_le_laterItems (gap indent (level + 1))
          (List.mem_map_of_mem (f := renderAt indent (level + 1)) h)
        omega

/-- The text of a field's value is shorter than that of its object. -/
theorem length_lt_renderAt_obj {fields : List (String × Json)}
    {g : String × Json} (h : g ∈ fields) :
    (renderAt indent (level + 1) g.2).toList.length
      < (renderAt indent level (.obj fields)).toList.length := by
  have hvalue : (renderAt indent (level + 1) g.2).toList.length
      ≤ (fieldText indent (level + 1) g).toList.length := by
    rw [fieldText]
    simp only [String.toList_append, List.length_append]
    omega
  cases fields with
  | nil => cases h
  | cons f fields =>
      rw [toList_renderAt_obj]
      simp only [List.length_append, List.length_cons]
      rcases List.mem_cons.1 h with rfl | h
      · omega
      · have := length_le_laterItems (gap indent (level + 1))
          (List.mem_map_of_mem (f := fieldText indent (level + 1)) h)
        omega

/-- The text of a plain value is read back, in every layout and at every
level, under limits that the text itself does not exceed. -/
theorem Plain.readsBack {j : Json} (h : j.Plain) :
    ∀ {level limit : Nat},
      (renderAt indent level j).toList.length ≤ limit →
      (renderAt indent level j).toList.length ≤ maxDigits →
      ReadsBack (readValue maxDigits (limit + 1)) indent level j := by
  induction h with
  | null =>
      intro level limit _ _ rest _
      rw [renderAt]
      rfl
  | bool b =>
      intro level limit _ _ rest _
      rw [renderAt]
      cases b <;> rfl
  | int n =>
      intro level limit _ hdigits rest hrest
      rw [renderAt] at hdigits ⊢
      have hread := hrest.readNumber_toString n hdigits
      obtain ⟨d, ds, htext, hd⟩ := exists_toString_int n
      rw [htext, List.cons_append] at hread ⊢
      exact (readValue_number hd).trans hread
  | text hp =>
      intro level limit _ _ rest _
      obtain ⟨cs, htext, hread⟩ := readString_writeText hp rest
      rw [renderAt, htext, List.cons_append, readValue, hread]
      rfl
  | @arr items hplain ih =>
      intro level limit hlimit hdigits
      cases items with
      | nil =>
          intro rest _
          rw [renderAt]
          rfl
      | cons x items =>
          -- every item is shorter, so its own limit may be smaller
          have hitem : ∀ y ∈ x :: items,
              (renderAt indent (level + 1) y).toList.length < limit := by
            intro y hy
            exact Nat.lt_of_lt_of_le (length_lt_renderAt_arr hy) hlimit
          obtain ⟨limit, rfl⟩ := Nat.exists_eq_succ_of_ne_zero
            (Nat.ne_of_gt (Nat.zero_lt_of_lt (hitem x List.mem_cons_self)))
          refine readsBack_arr fun y hy => ⟨hplain y hy, ih y hy ?_ ?_⟩
          · exact Nat.le_of_lt_succ (hitem y hy)
          · exact Nat.le_of_lt
              (Nat.lt_of_lt_of_le (length_lt_renderAt_arr hy) hdigits)
  | @obj fields hnodup hplain ih =>
      intro level limit hlimit hdigits
      cases fields with
      | nil =>
          intro rest _
          rw [renderAt]
          rfl
      | cons f fields =>
          have hfield : ∀ g ∈ f :: fields,
              (renderAt indent (level + 1) g.2).toList.length < limit := by
            intro g hg
            exact Nat.lt_of_lt_of_le (length_lt_renderAt_obj hg) hlimit
          obtain ⟨limit, rfl⟩ := Nat.exists_eq_succ_of_ne_zero
            (Nat.ne_of_gt (Nat.zero_lt_of_lt (hfield f List.mem_cons_self)))
          refine readsBack_obj hnodup
            fun g hg => ⟨hplain g hg, ih g hg ?_ ?_⟩
          · exact Nat.le_of_lt_succ (hfield g hg)
          · exact Nat.le_of_lt
              (Nat.lt_of_lt_of_le (length_lt_renderAt_obj hg) hdigits)

-- ================================================================ texts

/-- The value that a text stands for, if JSON has its kind. The limits
are such that no text exceeds them. -/
def decode (text : String) : Option Json :=
  (parse (text.toList.length + 1) text.toList.length text).toOption.bind
    Value.toJson?

/-- Items that come back one by one come back together. -/
theorem toJsonItems?_ofJsonItems {items : List Json}
    (h : ∀ x ∈ items, (Value.ofJson x).toJson? = some x) :
    Value.toJsonItems? (Value.ofJsonItems items) = some items := by
  induction items with
  | nil => rfl
  | cons x items ih =>
      rw [Value.ofJsonItems, Value.toJsonItems?, h x List.mem_cons_self,
        ih fun y hy => h y (List.mem_cons_of_mem _ hy)]
      rfl

/-- Fields whose values come back come back together, keys and all. -/
theorem toJsonFields?_ofJsonFields {fields : List (String × Json)}
    (h : ∀ f ∈ fields, (Value.ofJson f.2).toJson? = some f.2) :
    Value.toJsonFields? (Value.ofJsonFields fields) = some fields := by
  induction fields with
  | nil => rfl
  | cons f fields ih =>
      rw [Value.ofJsonFields, Value.toJsonFields?, Points.string?_ofString,
        h f List.mem_cons_self, ih fun g hg => h g (List.mem_cons_of_mem _ hg)]
      rfl

/-- A value that came from JSON goes back. -/
theorem Plain.toJson?_ofJson {j : Json} (h : j.Plain) :
    (Value.ofJson j).toJson? = some j := by
  induction h with
  | null | bool b | int n | text hp => rfl
  | arr _ ih =>
      rw [Value.ofJson, Value.toJson?, toJsonItems?_ofJsonItems ih]
      rfl
  | obj _ _ ih =>
      rw [Value.ofJson, Value.toJson?, toJsonFields?_ofJsonFields ih]
      rfl

/-- The text of a plain value is read as the value, in every layout.
Blanks may follow it. -/
theorem Plain.parse_render {j : Json} (h : j.Plain) {b : String}
    (hb : ∀ c ∈ b.toList, isSpace c = true) {limit : Nat}
    (hlimit : (j.render indent).toList.length ≤ limit)
    (hdigits : (j.render indent).toList.length ≤ maxDigits) :
    parse (limit + 1) maxDigits (j.render indent ++ b) = .ok (Value.ofJson j) := by
  have hends : Closes (b.toList ++ []) := closes_append hb (by simp [Closes])
  rw [List.append_nil] at hends
  have hread := h.readsBack hlimit hdigits b.toList hends
  obtain ⟨c, cs, htext, hc, -⟩ := h.exists_renderAt indent 0
  have hskip : skipSpace (j.render indent ++ b).toList
      = (renderAt indent 0 j).toList ++ b.toList := by
    rw [String.toList_append, render, htext]
    exact skipSpace_append (b := []) (by simp) hc _
  have hend : skipSpace b.toList = [] := List.dropWhile_eq_nil_iff.2 hb
  rw [parse, hskip, hread]
  simp only [bind, Except.bind, hend]

/-- The text of a plain value is decoded to the value, in every layout.
Blanks may follow it. -/
theorem Plain.decode_render {j : Json} (h : j.Plain) (indent : Option Nat)
    {b : String} (hb : ∀ c ∈ b.toList, isSpace c = true) :
    decode (j.render indent ++ b) = some j := by
  have hlen : (j.render indent).toList.length
      ≤ (j.render indent ++ b).toList.length := by
    rw [String.toList_append, List.length_append]
    exact Nat.le_add_right _ _
  rw [decode, h.parse_render hb hlen hlen]
  exact h.toJson?_ofJson

end InferTrace.Json
