/-
The grammar of expressions, by rules over lexemes.

A phrase belongs to one of four layers. The rules say nothing of the
order in which lexemes are looked at, of how far a phrase reaches, or
of limits: a list of lexemes may be cut into parts in any way that the
rules allow. It is what the parser is measured against.

# Nesting

How deeply expressions stand inside one another is said by the rules as
well, and of any list of lexemes, not only of those that are
expressions. `Leads` lists what may stand between the beginning of a
phrase and that of an expression directly inside it; `Opens` says that
after some prefix an expression begins that is the `n`-th from the
outside. A list is nested within a limit when it opens no expression
beyond it (`NestedWithin`). Every step inwards takes a lexeme, so a list
that is shorter than the limit is nested within it.
-/
import InferTrace.Expr.Basic
import InferTrace.Token.Basic

namespace InferTrace

-- ============================================================ rules

/-- The layers of phrases, from the loosest to the tightest. -/
inductive Phrase where
  | expr
  | binary
  | app
  | atom
deriving DecidableEq, Repr

/-- The lexemes form a phrase of the layer, and the phrase is the
expression. -/
inductive Derives : Phrase → List Lexeme → Expr → Prop
  | letIn {x : String} {v b : List Lexeme} {value body : Expr} :
      Derives .expr v value → Derives .expr b body →
        Derives .expr
          (.keyword "let" :: .identifier x :: .operator "="
            :: (v ++ .keyword "in" :: b))
          (.letIn x value body)
  | lambda {x arrow : String} {b : List Lexeme} {body : Expr} :
      Derives .expr b body →
        Derives .expr
          (.keyword "fun" :: .identifier x :: .arrow arrow :: b)
          (.lambda x body)
  | ite {c y n : List Lexeme} {cond yes no : Expr} :
      Derives .expr c cond → Derives .expr y yes → Derives .expr n no →
        Derives .expr
          (.keyword "if" :: (c ++ .keyword "then"
            :: (y ++ .keyword "else" :: n)))
          (.ite cond yes no)
  | binary {w : List Lexeme} {e : Expr} :
      Derives .binary w e → Derives .expr w e
  | operand {w : List Lexeme} {e : Expr} :
      Derives .app w e → Derives .binary w e
  | operation {op : String} {l r : List Lexeme} {left right : Expr} :
      op ≠ "=" → Derives .app l left → Derives .binary r right →
        Derives .binary (l ++ .operator op :: r) (.binary op left right)
  | atom {w : List Lexeme} {e : Expr} :
      Derives .atom w e → Derives .app w e
  | app {f a : List Lexeme} {func arg : Expr} :
      Derives .app f func → Derives .atom a arg →
        Derives .app (f ++ a) (.app func arg)
  | number {n : Int} : Derives .atom [.number n] (.int n)
  | boolean {b : Bool} : Derives .atom [.boolean b] (.bool b)
  | identifier {x : String} : Derives .atom [.identifier x] (.var x)
  | parens {w : List Lexeme} {e : Expr} :
      Derives .expr w e →
        Derives .atom (.punctuation "(" :: (w ++ [.punctuation ")"])) e
  | nil : Derives .atom [.punctuation "[", .punctuation "]"] .nil
  | single {h : List Lexeme} {head : Expr} :
      Derives .expr h head →
        Derives .atom (.punctuation "[" :: (h ++ [.punctuation "]"]))
          (.cons head .nil)
  | pair {h s : List Lexeme} {head second : Expr} :
      Derives .expr h head → Derives .expr s second →
        Derives .atom
          (.punctuation "[" :: (h ++ .punctuation ","
            :: (s ++ [.punctuation "]"])))
          (.cons head (.cons second .nil))

-- ========================================================== nesting

/-- In a phrase of the layer that begins with these lexemes and goes on
with `rest`, an expression begins between the two, directly inside the
phrase. A bracket that is closed at once opens none. -/
inductive Leads (rest : List Lexeme) : Phrase → List Lexeme → Prop
  | value {x : String} :
      Leads rest .expr [.keyword "let", .identifier x, .operator "="]
  | body {x : String} {v : List Lexeme} {value : Expr} :
      Derives .expr v value →
        Leads rest .expr
          (.keyword "let" :: .identifier x :: .operator "="
            :: (v ++ [.keyword "in"]))
  | lambda {x arrow : String} :
      Leads rest .expr [.keyword "fun", .identifier x, .arrow arrow]
  | cond : Leads rest .expr [.keyword "if"]
  | yes {c : List Lexeme} {cond : Expr} :
      Derives .expr c cond →
        Leads rest .expr (.keyword "if" :: (c ++ [.keyword "then"]))
  | no {c y : List Lexeme} {cond yes : Expr} :
      Derives .expr c cond → Derives .expr y yes →
        Leads rest .expr
          (.keyword "if" :: (c ++ .keyword "then"
            :: (y ++ [.keyword "else"])))
  | binary {w : List Lexeme} : Leads rest .binary w → Leads rest .expr w
  | operand {w : List Lexeme} : Leads rest .app w → Leads rest .binary w
  | operation {op : String} {l w : List Lexeme} {left : Expr} :
      op ≠ "=" → Derives .app l left → Leads rest .binary w →
        Leads rest .binary (l ++ .operator op :: w)
  | atom {w : List Lexeme} : Leads rest .atom w → Leads rest .app w
  | app {f w : List Lexeme} {func : Expr} :
      Derives .app f func → Leads rest .atom w → Leads rest .app (f ++ w)
  | parens : Leads rest .atom [.punctuation "("]
  | head : rest.head? ≠ some (.punctuation "]") →
      Leads rest .atom [.punctuation "["]
  | second {h : List Lexeme} {head : Expr} :
      Derives .expr h head →
        Leads rest .atom (.punctuation "[" :: (h ++ [.punctuation ","]))

/-- After these lexemes, with `rest` to follow, an expression begins
that is the `n`-th from the outside. -/
inductive Opens (rest : List Lexeme) : Nat → List Lexeme → Prop
  | program : Opens rest 1 []
  | inside {n : Nat} {mid pre : List Lexeme} :
      Leads (pre ++ rest) .expr mid → Opens rest n pre →
        Opens rest (n + 1) (mid ++ pre)

/-- No expression in the list is beyond the limit. -/
def NestedWithin (limit : Nat) (w : List Lexeme) : Prop :=
  ∀ n pre rest, w = pre ++ rest → Opens rest n pre → n ≤ limit

variable {p : Phrase} {w rest : List Lexeme} {e : Expr} {n : Nat}

/-- An atom is an expression. -/
theorem Derives.ofAtom (h : Derives .atom w e) : Derives .expr w e :=
  .binary (.operand (.atom h))

theorem Leads.ne_nil (h : Leads rest p w) : w ≠ [] := by
  induction h with
  | value | body | lambda | cond | yes | no | parens | head | second =>
      exact List.cons_ne_nil _ _
  | binary _ ih | operand _ ih | atom _ ih => exact ih
  | operation =>
      exact List.append_ne_nil_of_right_ne_nil _ (List.cons_ne_nil _ _)
  | app _ _ ih => exact List.append_ne_nil_of_right_ne_nil _ ih

theorem Opens.le_length (h : Opens rest n w) : n ≤ w.length + 1 := by
  induction h with
  | program => exact Nat.le_refl _
  | @inside n mid pre hmid _ ih =>
      have := List.length_pos_iff.2 hmid.ne_nil
      rw [List.length_append]
      omega

/-- Each level of nesting takes a lexeme. -/
theorem nestedWithin_of_length_lt {limit : Nat} (h : w.length < limit) :
    NestedWithin limit w := by
  rintro n pre rest rfl hopens
  have := hopens.le_length
  rw [List.length_append] at h
  omega

-- ================================================= the end of input

/-- The end of input is part of no phrase. -/
theorem Derives.endOfInput_notMem (h : Derives p w e) :
    Lexeme.endOfInput ∉ w := by
  induction h <;> simp_all

theorem Leads.endOfInput_notMem (h : Leads rest p w) :
    Lexeme.endOfInput ∉ w := by
  induction h with
  | body hv => simp [hv.endOfInput_notMem]
  | yes hc => simp [hc.endOfInput_notMem]
  | no hc hy => simp [hc.endOfInput_notMem, hy.endOfInput_notMem]
  | operation _ hl _ ih => simp [hl.endOfInput_notMem, ih]
  | app hf _ ih => simp [hf.endOfInput_notMem, ih]
  | second hh => simp [hh.endOfInput_notMem]
  | _ => simp_all

theorem Opens.endOfInput_notMem (h : Opens rest n w) :
    Lexeme.endOfInput ∉ w := by
  induction h with
  | program => simp
  | inside hmid _ ih => simp [hmid.endOfInput_notMem, ih]

/-- Of what follows, only its first lexeme matters, and only whether it
closes a list. -/
theorem Leads.congr {rest' : List Lexeme} (h : Leads rest p w)
    (hrest : rest'.head? = some (.punctuation "]") →
      rest.head? = some (.punctuation "]")) : Leads rest' p w := by
  induction h with
  | value => exact .value
  | body hv => exact .body hv
  | lambda => exact .lambda
  | cond => exact .cond
  | yes hc => exact .yes hc
  | no hc hy => exact .no hc hy
  | binary _ ih => exact .binary ih
  | operand _ ih => exact .operand ih
  | operation hop hl _ ih => exact .operation hop hl ih
  | atom _ ih => exact .atom ih
  | app hf _ ih => exact .app hf ih
  | parens => exact .parens
  | head hne => exact .head (mt hrest hne)
  | second hh => exact .second hh

/-- What stands behind the end of input opens and closes nothing. -/
theorem opens_append_iff {tail : List Lexeme}
    (htail : tail.head?.getD .endOfInput = .endOfInput) :
    Opens (rest ++ tail) n w ↔ Opens rest n w := by
  have hhead : ∀ u : List Lexeme,
      (u ++ tail).head? = some (.punctuation "]") ↔
        u.head? = some (.punctuation "]") := by
    intro u
    cases u with
    | nil =>
        cases tail with
        | nil => exact Iff.rfl
        | cons l tail => simp_all
    | cons l u => exact Iff.rfl
  constructor
  · intro h
    induction h with
    | program => exact .program
    | inside hmid _ ih =>
        rw [← List.append_assoc] at hmid
        exact .inside (hmid.congr (hhead _).2) ih
  · intro h
    induction h with
    | program => exact .program
    | inside hmid _ ih =>
        refine .inside (hmid.congr fun hc => ?_) ih
        rw [← List.append_assoc] at hc
        exact (hhead _).1 hc

-- ============================================= where phrases stop

/-- An atom begins with this lexeme. -/
def Lexeme.StartsAtom (l : Lexeme) : Prop :=
  (∃ n, l = .number n) ∨ (∃ b, l = .boolean b) ∨ (∃ x, l = .identifier x) ∨
    l = .punctuation "(" ∨ l = .punctuation "["

/-- A phrase of the layer may go on with this lexeme after what is a
phrase already. -/
def Phrase.GoesOn : Phrase → Lexeme → Prop
  | .atom, _ => False
  | .app, l => l.StartsAtom
  | .binary, l | .expr, l => l.StartsAtom ∨ ∃ op, l = .operator op ∧ op ≠ "="

/-- What follows does not go on with a phrase of the layer. -/
def Phrase.StopsAt (p : Phrase) (rest : List Lexeme) : Prop :=
  ∀ l ∈ rest.head?, ¬ p.GoesOn l

/-- A phrase is not empty. It begins as an atom does, or is an
expression and begins with a keyword. -/
theorem Derives.exists_cons (h : Derives p w e) :
    ∃ l w', w = l :: w' ∧
      (l.StartsAtom ∨ p = .expr ∧ ∃ s, l = .keyword s) := by
  induction h with
  | letIn | lambda | ite => exact ⟨_, _, rfl, Or.inr ⟨rfl, _, rfl⟩⟩
  | binary _ ih | operand _ ih | atom _ ih =>
      obtain ⟨l, w', rfl, hl⟩ := ih
      exact ⟨l, w', rfl, Or.inl (hl.resolve_right nofun)⟩
  | operation _ _ _ ih _ | app _ _ ih _ =>
      obtain ⟨l, w', rfl, hl⟩ := ih
      exact ⟨l, _, rfl, Or.inl (hl.resolve_right nofun)⟩
  | number => exact ⟨_, _, rfl, Or.inl (Or.inl ⟨_, rfl⟩)⟩
  | boolean => exact ⟨_, _, rfl, Or.inl (Or.inr (Or.inl ⟨_, rfl⟩))⟩
  | identifier =>
      exact ⟨_, _, rfl, Or.inl (Or.inr (Or.inr (Or.inl ⟨_, rfl⟩)))⟩
  | parens =>
      exact ⟨_, _, rfl, Or.inl (Or.inr (Or.inr (Or.inr (Or.inl rfl))))⟩
  | nil | single | pair =>
      exact ⟨_, _, rfl, Or.inl (Or.inr (Or.inr (Or.inr (Or.inr rfl))))⟩

/-- Below the layer of expressions, phrases begin as atoms do. -/
theorem Derives.exists_startsAtom (h : Derives p w e) (hp : p ≠ .expr) :
    ∃ l w', w = l :: w' ∧ l.StartsAtom := by
  obtain ⟨l, w', hw, hl⟩ := h.exists_cons
  exact ⟨l, w', hw, hl.resolve_right fun hr => hp hr.1⟩

/-- The same of what leads to an expression inside. -/
theorem Leads.exists_startsAtom (h : Leads rest p w) (hp : p ≠ .expr) :
    ∃ l w', w = l :: w' ∧ l.StartsAtom := by
  induction h with
  | value | body | lambda | cond | yes | no | binary => exact absurd rfl hp
  | operand _ ih | atom _ ih => exact ih nofun
  | operation _ hd _ _ | app hd _ _ =>
      obtain ⟨l, w', rfl, hl⟩ := hd.exists_startsAtom nofun
      exact ⟨l, _, rfl, hl⟩
  | parens =>
      exact ⟨_, _, rfl, Or.inr (Or.inr (Or.inr (Or.inl rfl)))⟩
  | head | second =>
      exact ⟨_, _, rfl, Or.inr (Or.inr (Or.inr (Or.inr rfl)))⟩

end InferTrace
