/-
Expressions and the source texts that say them.

Not every expression can be written. A source text has no holes, no signs,
no literals beyond the limit on digits, no names but words that are not
reserved, no operators but the infix ones, and no lists of more than two
elements. `Expr.Expressible` lists these conditions node by node.

An expression that meets them has a source text: its lexemes, with every
part in parentheses, shown with blanks between them (`Expr.source`). The
parentheses make each part an atom, so the layers of the grammar never
matter, and the blanks keep the lexemes apart. The text is parsed to the
expression it was made from, and no source text is parsed to any
expression that is not expressible (`parseSource_expressible`).
-/
import InferTrace.Outcome
import InferTrace.Proofs.Expr.Exact
import InferTrace.Proofs.Token.Spaced

namespace InferTrace

variable {e : Expr} {w : List Lexeme}

-- ======================================================= expressible

/-- The operators that stand between operands. -/
def infixOperators : List String :=
  ["==", "!=", "<=", ">=", "::", "+", "-", "*", "/", "<", ">"]

/-- A word that may stand for a variable. -/
def IsName (x : String) : Prop :=
  x.toList.head?.any isWordStart = true ∧ x.toList.all isWordChar = true ∧
    x ∉ reservedWords

instance (x : String) : Decidable (IsName x) :=
  inferInstanceAs (Decidable (_ ∧ _))

namespace Expr

/-- What follows the first element of a list. -/
def tail? : Expr → Option Expr
  | cons _ t => some t
  | _ => none

/-- The node can be written, if its parts can be. -/
def Fits : Expr → Prop
  | hole => False
  | int n => 0 ≤ n ∧ (toString n).length ≤ Number.maxDigits
  | var x | lambda x _ | letIn x _ _ => IsName x
  | binary op _ _ => op ∈ infixOperators
  | cons _ t => t = nil ∨ t.tail? = some nil
  | bool _ | nil | ite _ _ _ | app _ _ => True

instance : DecidablePred Fits
  | hole => inferInstanceAs (Decidable False)
  | int _ => inferInstanceAs (Decidable (_ ∧ _))
  | var x | lambda x _ | letIn x _ _ => inferInstanceAs (Decidable (IsName x))
  | binary _ _ _ => inferInstanceAs (Decidable (_ ∈ _))
  | cons _ _ => inferInstanceAs (Decidable (_ ∨ _))
  | bool _ | nil | ite _ _ _ | app _ _ => inferInstanceAs (Decidable True)

/-- Every node can be written. -/
def Expressible (e : Expr) : Prop := ∀ n ∈ e.walk, n.Fits

instance (e : Expr) : Decidable e.Expressible :=
  inferInstanceAs (Decidable (∀ n ∈ e.walk, n.Fits))

/-- An expression can be written if its root can, and its parts. -/
theorem expressible_iff (e : Expr) :
    e.Expressible ↔ e.Fits ∧ ∀ c ∈ e.children, c.Expressible := by
  unfold Expressible
  rw [walk_eq, List.forall_mem_cons]
  simp only [List.mem_flatMap]
  constructor
  · rintro ⟨hfits, hparts⟩
    exact ⟨hfits, fun c hc n hn => hparts n ⟨c, hc, hn⟩⟩
  · rintro ⟨hfits, hparts⟩
    refine ⟨hfits, fun n hn => ?_⟩
    obtain ⟨c, hc, hn⟩ := hn
    exact hparts c hc n hn

-- ============================================================ source

/-- Lexemes in parentheses. -/
def enclosed (w : List Lexeme) : List Lexeme :=
  .punctuation "(" :: (w ++ [.punctuation ")"])

/-- The lexemes of an expression, its parts in parentheses. A hole has
none, and of a list only two elements are written. -/
def lexemes : Expr → List Lexeme
  | hole => []
  | int n => [.number n]
  | bool b => [.boolean b]
  | var x => [.identifier x]
  | nil => [.punctuation "[", .punctuation "]"]
  | binary op l r =>
    enclosed l.lexemes ++ .operator op :: enclosed r.lexemes
  | ite c t e =>
    .keyword "if" :: (enclosed c.lexemes ++ .keyword "then"
      :: (enclosed t.lexemes ++ .keyword "else" :: enclosed e.lexemes))
  | lambda x b =>
    .keyword "fun" :: .identifier x :: .arrow arrowSymbol
      :: enclosed b.lexemes
  | letIn x v b =>
    .keyword "let" :: .identifier x :: .operator "="
      :: (enclosed v.lexemes ++ .keyword "in" :: enclosed b.lexemes)
  | app f a => enclosed f.lexemes ++ enclosed a.lexemes
  | cons h (cons s _) =>
    .punctuation "[" :: (enclosed h.lexemes ++ .punctuation ","
      :: (enclosed s.lexemes ++ [.punctuation "]"]))
  | cons h _ => .punctuation "[" :: (enclosed h.lexemes ++ [.punctuation "]"])

/-- The source text of an expression. -/
def source (e : Expr) : String := spaced e.lexemes

-- =============================================== from node to text

theorem Expressible.fits (h : e.Expressible) : e.Fits :=
  ((expressible_iff e).1 h).1

theorem Expressible.part {e' : Expr} (h : e.Expressible)
    (hpart : e' ∈ e.children) : e'.Expressible :=
  ((expressible_iff e).1 h).2 e' hpart

/-- The lexemes of an expression that can be written derive it. -/
theorem derives_lexemes (h : e.Expressible) : Derives .expr e.lexemes e := by
  induction e using lexemes.induct with
  | case1 => exact absurd h.fits id
  | case2 n => exact .ofAtom .number
  | case3 b => exact .ofAtom .boolean
  | case4 x => exact .ofAtom .identifier
  | case5 => exact .ofAtom .nil
  | case6 op l r ihl ihr =>
      have hl := Derives.parens (ihl (h.part (.head _)))
      have hr := Derives.parens (ihr (h.part (.tail _ (.head _))))
      have hop : op ≠ "=" := by
        rintro rfl
        have hfits : "=" ∈ infixOperators := h.fits
        exact absurd hfits (by decide)
      exact .binary (.operation hop (.atom hl) (.operand (.atom hr)))
  | case7 c t e ihc iht ihe =>
      have hc := Derives.parens (ihc (h.part (.head _)))
      have ht := Derives.parens (iht (h.part (.tail _ (.head _))))
      have he := Derives.parens (ihe (h.part (.tail _ (.tail _ (.head _)))))
      exact .ite hc.ofAtom ht.ofAtom he.ofAtom
  | case8 x b ihb =>
      have hb := Derives.parens (ihb (h.part (.head _)))
      exact .lambda hb.ofAtom
  | case9 x v b ihv ihb =>
      have hv := Derives.parens (ihv (h.part (.head _)))
      have hb := Derives.parens (ihb (h.part (.tail _ (.head _))))
      exact .letIn hv.ofAtom hb.ofAtom
  | case10 f a ihf iha =>
      have hf := Derives.parens (ihf (h.part (.head _)))
      have ha := Derives.parens (iha (h.part (.tail _ (.head _))))
      exact .binary (.operand (.app (.atom hf) ha))
  | case11 head second t ihh ihs =>
      have hh := Derives.parens (ihh (h.part (.head _)))
      have hs := Derives.parens
        (ihs ((h.part (.tail _ (.head _))).part (.head _)))
      have ht : t = nil := by
        rcases h.fits with hnil | htail
        · cases hnil
        · exact Option.some.inj htail
      rw [ht]
      exact (Derives.pair hh.ofAtom hs.ofAtom).ofAtom
  | case12 head t hne ihh =>
      have hh := Derives.parens (ihh (h.part (.head _)))
      have ht : t = nil := by
        rcases h.fits with hnil | htail
        · exact hnil
        · cases t with
          | cons second t => exact absurd rfl (hne second t)
          | _ => cases htail
      rw [ht]
      exact (Derives.single hh.ofAtom).ofAtom

/-- The numbers that can be written are those without a sign that are
not too long. -/
theorem legible_number_iff {n : Int} : (Lexeme.number n).Legible ↔
    0 ≤ n ∧ (toString n).length ≤ Number.maxDigits := by
  constructor
  · intro h
    have hnonneg : ∀ w, Spells w (.number n) → 0 ≤ n := by
      intro w hw
      cases hw
      exact Int.natCast_nonneg _
    exact ⟨hnonneg _ h.spells, h.short rfl⟩
  · rintro ⟨hnonneg, hshort⟩
    obtain ⟨k, rfl⟩ := Int.eq_ofNat_of_zero_le hnonneg
    refine ⟨?_, fun _ => hshort⟩
    show Spells (Nat.repr k).toList _
    rw [Nat.toList_repr]
    exact spells_toDigits k

/-- The names that can be written are the words that are not reserved.
-/
theorem legible_identifier_iff {x : String} :
    (Lexeme.identifier x).Legible ↔ IsName x := by
  constructor
  · intro h
    have hname : ∀ w, Spells w (.identifier x) → IsName x := by
      intro w hw
      cases hw with
      | identifier hc hcs hword =>
          refine ⟨?_, ?_, hword⟩
          · simp [hc]
          · simpa [isWordChar_of_isWordStart hc] using hcs
    exact hname _ h.spells
  · rintro ⟨hhead, hall, hword⟩
    refine ⟨?_, fun hc => by cases hc⟩
    show Spells x.toList (.identifier x)
    cases hx : x.toList with
    | nil =>
        rw [hx] at hhead
        cases hhead
    | cons c cs =>
        rw [hx] at hhead hall
        have hofList : String.ofList (c :: cs) = x := by
          rw [← hx, String.ofList_toList]
        have hcs : ∀ d ∈ cs, isWordChar d = true := fun d hd =>
          List.all_eq_true.1 hall d (.tail _ hd)
        have hspells := Spells.identifier hhead hcs (hofList ▸ hword)
        rw [hofList] at hspells
        exact hspells

/-- The operators that can be written are those of the scanner. -/
theorem legible_operator_iff {op : String} :
    (Lexeme.operator op).Legible ↔ op ∈ operators := by
  constructor
  · intro h
    have hmem : ∀ w, Spells w (.operator op) → op ∈ operators := by
      intro w hw
      cases hw with
      | operator hop => exact hop
    exact hmem _ h.spells
  · intro hop
    exact ⟨.operator hop, fun hc => by cases hc⟩

theorem legible_keyword {word : String} (h : word ∈ keywords) :
    (Lexeme.keyword word).Legible :=
  ⟨.keyword h, fun hc => by cases hc⟩

theorem legible_mark {s : String}
    (h : s ∈ punctuationMarks.map String.singleton) :
    (Lexeme.punctuation s).Legible := by
  obtain ⟨c, hc, rfl⟩ := List.mem_map.1 h
  refine (Spells.punctuation hc).legible fun _ => ?_
  show 1 ≤ Number.maxDigits
  decide

/-- All of them but one stand between operands. -/
theorem mem_infixOperators_iff {op : String} :
    op ∈ infixOperators ↔ op ∈ operators ∧ op ≠ "=" := by
  have hfilter : infixOperators = operators.filter (· ≠ "=") := by decide
  rw [hfilter, List.mem_filter, decide_eq_true_iff]

/-- Parentheses can be written. -/
theorem legible_enclosed (h : ∀ l ∈ w, l.Legible) :
    ∀ l ∈ enclosed w, l.Legible := by
  simp only [enclosed, List.forall_mem_cons, List.forall_mem_append]
  exact ⟨legible_mark (by decide), h, legible_mark (by decide), by simp⟩

/-- The lexemes of an expression that can be written are legible. -/
theorem legible_lexemes (h : e.Expressible) : ∀ l ∈ e.lexemes, l.Legible := by
  induction e using lexemes.induct with
  | case1 => exact absurd h.fits id
  | case2 n => simpa [lexemes] using legible_number_iff.2 h.fits
  | case3 b =>
      cases b
      · simpa [lexemes] using Spells.no.legible fun _ => by decide
      · simpa [lexemes] using Spells.yes.legible fun _ => by decide
  | case4 x => simpa [lexemes] using legible_identifier_iff.2 h.fits
  | case5 =>
      simp only [lexemes, List.forall_mem_cons]
      exact ⟨legible_mark (by decide), legible_mark (by decide), by simp⟩
  | case6 op l r ihl ihr =>
      have hl := legible_enclosed (ihl (h.part (.head _)))
      have hr := legible_enclosed (ihr (h.part (.tail _ (.head _))))
      have hop := (mem_infixOperators_iff.1 h.fits).1
      simp only [lexemes, List.forall_mem_append, List.forall_mem_cons]
      exact ⟨hl, legible_operator_iff.2 hop, hr⟩
  | case7 c t e ihc iht ihe =>
      have hc := legible_enclosed (ihc (h.part (.head _)))
      have ht := legible_enclosed (iht (h.part (.tail _ (.head _))))
      have he := legible_enclosed (ihe (h.part (.tail _ (.tail _ (.head _)))))
      simp only [lexemes, List.forall_mem_append, List.forall_mem_cons]
      exact ⟨legible_keyword (by decide), hc, legible_keyword (by decide), ht,
        legible_keyword (by decide), he⟩
  | case8 x b ihb =>
      have hb := legible_enclosed (ihb (h.part (.head _)))
      simp only [lexemes, List.forall_mem_cons]
      exact ⟨legible_keyword (by decide), legible_identifier_iff.2 h.fits,
        Spells.arrow.legible fun _ => by decide, hb⟩
  | case9 x v b ihv ihb =>
      have hv := legible_enclosed (ihv (h.part (.head _)))
      have hb := legible_enclosed (ihb (h.part (.tail _ (.head _))))
      simp only [lexemes, List.forall_mem_append, List.forall_mem_cons]
      exact ⟨legible_keyword (by decide), legible_identifier_iff.2 h.fits,
        legible_operator_iff.2 (by decide), hv, legible_keyword (by decide), hb⟩
  | case10 f a ihf iha =>
      have hf := legible_enclosed (ihf (h.part (.head _)))
      have ha := legible_enclosed (iha (h.part (.tail _ (.head _))))
      simp only [lexemes, List.forall_mem_append]
      exact ⟨hf, ha⟩
  | case11 head second t ihh ihs =>
      have hh := legible_enclosed (ihh (h.part (.head _)))
      have hs := legible_enclosed
        (ihs ((h.part (.tail _ (.head _))).part (.head _)))
      simp only [lexemes, List.forall_mem_append, List.forall_mem_cons]
      exact ⟨legible_mark (by decide), hh, legible_mark (by decide), hs,
        legible_mark (by decide), by simp⟩
  | case12 head t hne ihh =>
      have hh := legible_enclosed (ihh (h.part (.head _)))
      rw [lexemes.eq_12 head t hne]
      simp only [List.forall_mem_append, List.forall_mem_cons]
      exact ⟨legible_mark (by decide), hh, legible_mark (by decide), by simp⟩

-- =============================================== from text to node

theorem expressible_nil : nil.Expressible := by decide

/-- What derives from legible lexemes can be written. -/
theorem expressible_of_derives {p : Phrase} (h : Derives p w e)
    (hw : ∀ l ∈ w, l.Legible) : e.Expressible := by
  -- a node fits by the lexemes of its rule, and its parts come from the
  -- lexemes between them
  induction h with
  | letIn _ _ ihv ihb =>
      simp only [List.forall_mem_append, List.forall_mem_cons] at hw
      obtain ⟨-, hx, -, hv, -, hb⟩ := hw
      refine (expressible_iff _).2 ⟨legible_identifier_iff.1 hx, ?_⟩
      simpa [children] using ⟨ihv hv, ihb hb⟩
  | lambda _ ihb =>
      simp only [List.forall_mem_cons] at hw
      obtain ⟨-, hx, -, hb⟩ := hw
      refine (expressible_iff _).2 ⟨legible_identifier_iff.1 hx, ?_⟩
      simpa [children] using ihb hb
  | ite _ _ _ ihc ihy ihn =>
      simp only [List.forall_mem_append, List.forall_mem_cons] at hw
      obtain ⟨-, hc, -, hy, -, hn⟩ := hw
      refine (expressible_iff _).2 ⟨trivial, ?_⟩
      simpa [children] using ⟨ihc hc, ihy hy, ihn hn⟩
  | binary _ ih | operand _ ih | atom _ ih => exact ih hw
  | operation hop _ _ ihl ihr =>
      simp only [List.forall_mem_append, List.forall_mem_cons] at hw
      obtain ⟨hl, hsymbol, hr⟩ := hw
      refine (expressible_iff _).2 ⟨?_, ?_⟩
      · exact mem_infixOperators_iff.2 ⟨legible_operator_iff.1 hsymbol, hop⟩
      · simpa [children] using ⟨ihl hl, ihr hr⟩
  | app _ _ ihf iha =>
      simp only [List.forall_mem_append] at hw
      refine (expressible_iff _).2 ⟨trivial, ?_⟩
      simpa [children] using ⟨ihf hw.1, iha hw.2⟩
  | number =>
      have hn := legible_number_iff.1 (hw _ (.head _))
      exact (expressible_iff _).2 ⟨hn, by simp [children]⟩
  | boolean => exact (expressible_iff _).2 ⟨trivial, by simp [children]⟩
  | identifier =>
      have hx := legible_identifier_iff.1 (hw _ (.head _))
      exact (expressible_iff _).2 ⟨hx, by simp [children]⟩
  | parens _ ih =>
      simp only [List.forall_mem_append, List.forall_mem_cons] at hw
      exact ih hw.2.1
  | nil => exact expressible_nil
  | single _ ih =>
      simp only [List.forall_mem_append, List.forall_mem_cons] at hw
      refine (expressible_iff _).2 ⟨Or.inl rfl, ?_⟩
      simpa [children] using ⟨ih hw.2.1, expressible_nil⟩
  | pair _ _ ihh ihs =>
      simp only [List.forall_mem_append, List.forall_mem_cons] at hw
      obtain ⟨-, hh, -, hs, -⟩ := hw
      have htail : Expressible (cons _ nil) :=
        (expressible_iff _).2 ⟨Or.inl rfl, by
          simpa [children] using ⟨ihs hs, expressible_nil⟩⟩
      refine (expressible_iff _).2 ⟨Or.inr rfl, ?_⟩
      simpa [children] using ⟨ihh hh, htail⟩

end Expr

-- ======================================================== round trip

variable {limit : Nat} {mode : Mode}

/-- Legible lexemes that derive an expression are a source text of it. -/
theorem parseSource_spaced (h : Derives .expr w e) (hw : ∀ l ∈ w, l.Legible)
    (hnested : NestedWithin limit w) :
    parseSource limit mode (spaced w) = .ok e := by
  obtain ⟨tokens, hscan, htokens⟩ := scanSource_spaced mode hw
  have hend : beforeEnd (tokens.map Token.lexeme) = w := by
    rw [htokens]
    exact beforeEnd_append h.endOfInput_notMem rfl
  unfold parseSource
  rw [hscan]
  rw [← hend] at h hnested
  exact parseTokens_of_derives h hnested

/-- What a source is parsed as can be written. -/
theorem expressible_of_parseSource {source : String}
    (h : parseSource limit mode source = .ok e) : e.Expressible := by
  have hfair := Cursor.fair_scan (.ofSource source) mode
  unfold parseSource scanSource at h
  cases hscan : ((Cursor.ofSource source).scan mode).result with
  | error fault =>
      rw [hscan] at h
      cases h
  | ok tokens =>
      rw [hscan] at h hfair
      obtain ⟨body, place, rfl, hbody⟩ := hfair
      have hderives := derives_of_parseTokens h
      rw [List.map_append] at hderives
      refine Expr.expressible_of_derives hderives fun l hl => ?_
      rw [List.map_singleton, beforeEnd_concat] at hl
      have hmem := (List.takeWhile_prefix _).subset hl
      obtain ⟨t, ht, rfl⟩ := List.mem_map.1 hmem
      exact hbody t ht

/-- Parsing a source text and writing one. An expression that can be
written is parsed from its own text, whose lexemes are its own, if they
nest within the limit; and every expression that is parsed from any text
can be written. -/
theorem parseSource_expressible (limit : Nat) (mode : Mode) :
    (∀ e : Expr, e.Expressible →
      (∃ tokens, (scanSource mode e.source).result = .ok tokens ∧
        tokens.map Token.lexeme = e.lexemes ++ [.endOfInput]) ∧
      (NestedWithin limit e.lexemes →
        parseSource limit mode e.source = .ok e)) ∧
    ∀ source e, parseSource limit mode source = .ok e → e.Expressible := by
  refine ⟨fun e he => ⟨?_, fun hnested => ?_⟩, fun source e h => ?_⟩
  · exact scanSource_spaced mode (Expr.legible_lexemes he)
  · exact parseSource_spaced (Expr.derives_lexemes he)
      (Expr.legible_lexemes he) hnested
  · exact expressible_of_parseSource h

/-- `let f = fun x -> [x, 10] in f 2 <= g`, with every part in
parentheses. -/
theorem parseSource_expressible_list :
    let e : Expr := .letIn "f"
      (.lambda "x" (.cons (.var "x") (.cons (.int 10) .nil)))
      (.binary "<=" (.app (.var "f") (.int 2)) (.var "g"))
    e.Expressible ∧ NestedWithin 60 e.lexemes ∧
      parseSource 60 (.mk "<input>" true) e.source = .ok e := by
  intro e
  have he : e.Expressible := by decide
  have hnested : NestedWithin 60 e.lexemes :=
    nestedWithin_of_length_lt (by decide)
  have hparse := ((parseSource_expressible 60 (.mk "<input>" true)).1 e he).2
  exact ⟨he, hnested, hparse hnested⟩

end InferTrace
