/-
Every phrase of the grammar is parsed, and the parser gives up only
where the grammar nests too deeply.

Where the lexemes ahead form a phrase, the parser of its layer takes
exactly those, if what follows cannot go on with the phrase (`Reads`).
Two layers need more than that. Applications nest to the left while the
parser loops to the right, so the statement for them is about the loop:
with the phrase behind it, the parser ends as the loop over further
arguments does (`Continues`). Chains of operators are read with fuel
(`ReadsChain`). The induction over derivations puts the rules together
(`complete_of_derives`).

The same rules show that a parser with too small a limit reaches the
expression beyond it (`givesUp_of_opens`): the lexemes before it are
read, so nothing else can have stopped the parser earlier.
-/
import InferTrace.Proofs.Expr.Feed

namespace InferTrace

variable {f : Feed} {l : Lexeme} {w rest : List Lexeme} {p : Phrase}
  {n limit : Nat} {e : Expr}

namespace Parse

variable {α β : Type} {done : α → Feed → Prop} {halted : Halt → Feed → Prop}
  {s : String} {inner : Parse Expr}

-- ========================================== what decides the rule

/-- Where a phrase stops, the next token does not continue it. -/
theorem not_goesOn (h : p.StopsAt f.lexemes) :
    ¬ p.GoesOn f.current.lexeme := by
  rw [Feed.current_lexeme]
  cases hf : f.lexemes with
  | nil => cases p <;> simp [Phrase.GoesOn, Lexeme.StartsAtom]
  | cons l w =>
      rw [hf] at h
      exact h l rfl

/-- Every phrase stops at a keyword. -/
theorem stopsAt_keyword : p.StopsAt (.keyword s :: rest) := by
  rintro _ ⟨⟩
  cases p <;> simp [Phrase.GoesOn, Lexeme.StartsAtom]

/-- And at a mark that opens nothing. -/
theorem stopsAt_punctuation (hs : s ≠ "(" ∧ s ≠ "[") :
    p.StopsAt (.punctuation s :: rest) := by
  rintro _ ⟨⟩
  cases p <;> simp [Phrase.GoesOn, Lexeme.StartsAtom, hs.1, hs.2]

/-- At the keyword `let`, the parser comes to the value. -/
theorem ends_let {done : Expr → Feed → Prop} {x : String}
    (h : f.lexemes
      = .keyword "let" :: .identifier x :: .operator "=" :: w)
    (hk : ∀ f', f'.lexemes = w → Ends (do
      let value ← inner
      let _ ← expect .keyword (some "in")
      let body ← inner
      return .letIn x value body) f' done halted) :
    Ends (expressionWith inner) f done halted := by
  rw [expressionWith]
  refine takes_accepted h rfl rfl fun f₁ h₁ => ?_
  rw [letTail, ends_bind]
  refine takes_name h₁ fun f₂ h₂ => ?_
  rw [ends_bind]
  exact takes_expected h₂ rfl rfl fun _ => hk

/-- At the keyword `fun`, the parser comes to the body. -/
theorem ends_fun {done : Expr → Feed → Prop} {x arrow : String}
    (h : f.lexemes
      = .keyword "fun" :: .identifier x :: .arrow arrow :: w)
    (hk : ∀ f', f'.lexemes = w → Ends (do
      let body ← inner
      return .lambda x body) f' done halted) :
    Ends (expressionWith inner) f done halted := by
  have hc := current_eq h
  rw [expressionWith]
  refine passes_over (.keyword "let") rfl rfl (by simp [hc]) ?_
  refine takes_accepted h rfl rfl fun f₁ h₁ => ?_
  rw [funTail, ends_bind]
  refine takes_name h₁ fun f₂ h₂ => ?_
  rw [ends_bind]
  exact takes_class h₂ rfl fun _ f₃ _ => hk f₃

/-- At the keyword `if`, the parser comes to the condition. -/
theorem ends_if {done : Expr → Feed → Prop}
    (h : f.lexemes = .keyword "if" :: w)
    (hk : ∀ f', f'.lexemes = w → Ends (ifTail inner) f' done halted) :
    Ends (expressionWith inner) f done halted := by
  have hc := current_eq h
  rw [expressionWith]
  refine passes_over (.keyword "let") rfl rfl (by simp [hc]) ?_
  refine passes_over (.keyword "fun") rfl rfl (by simp [hc]) ?_
  exact takes_accepted h rfl rfl hk

/-- Where an atom begins, the parser comes to a chain of operators. -/
theorem ends_chain {done : Expr → Feed → Prop} (h : f.lexemes = l :: w)
    (hl : l.StartsAtom)
    (hk : Ends (binaryChain inner f.lexemes.length) f done halted) :
    Ends (expressionWith inner) f done halted := by
  have hne : ∀ s, f.current.lexeme ≠ .keyword s := by
    intro s
    rw [current_eq h]
    rintro rfl
    simp [Lexeme.StartsAtom] at hl
  rw [expressionWith]
  refine passes_over (.keyword "let") rfl rfl (hne _) ?_
  refine passes_over (.keyword "fun") rfl rfl (hne _) ?_
  refine passes_over (.keyword "if") rfl rfl (hne _) ?_
  rw [binary, ends_bind, ends_get, ← Feed.length_lexemes]
  exact hk

/-- At a parenthesis, the parser comes to what it encloses. -/
theorem ends_parens {done : Expr → Feed → Prop}
    (h : f.lexemes = .punctuation "(" :: w)
    (hk : ∀ f', f'.lexemes = w → Ends (do
      let e ← inner
      let _ ← expect .punctuation (some ")")
      return e) f' done halted) :
    Ends (atom inner) f done halted := by
  rw [atom, ends_bind, ends_current, current_eq h]
  exact takes_accepted h rfl rfl hk

/-- At a bracket, the parser comes to the rest of a list. -/
theorem ends_bracket {done : Expr → Feed → Prop}
    (h : f.lexemes = .punctuation "[" :: w)
    (hk : ∀ f', f'.lexemes = w → Ends (listTail inner) f' done halted) :
    Ends (atom inner) f done halted := by
  rw [atom, ends_bind, ends_current, current_eq h]
  refine passes_over (.punctuation "(") rfl rfl (by simp [current_eq h]) ?_
  exact takes_accepted h rfl rfl hk

/-- A list that is not closed at once has a first element. -/
theorem ends_listTail {done : Expr → Feed → Prop}
    (h : f.lexemes.head? ≠ some (.punctuation "]"))
    (hk : Ends (do
      let head ← inner
      if (← accept .punctuation (some ",")).isSome then
        let second ← inner
        let _ ← expect .punctuation (some "]")
        return .cons head (.cons second .nil)
      else
        let _ ← expect .punctuation (some "]")
        return .cons head .nil) f done halted) :
    Ends (listTail inner) f done halted := by
  rw [listTail]
  refine passes_over (.punctuation "]") rfl rfl ?_ hk
  rw [Feed.current_lexeme]
  cases hf : f.lexemes.head? with
  | none => exact nofun
  | some l =>
      rw [hf] at h
      exact fun heq => h (congrArg some heq)

-- ======================================================== phrases

/-- The parser takes the lexemes of the phrase, wherever they stand and
whatever follows that does not go on with it, or gives up for want of
depth. -/
def Reads (x : Parse Expr) (p : Phrase) (w : List Lexeme) (e : Expr) : Prop :=
  ∀ f rest, f.lexemes = w ++ rest → p.StopsAt rest →
    Ends x f (fun e' f' => e' = e ∧ f'.lexemes = rest)
      fun halt _ => halt = .tooDeep

/-- What has been read is left behind for what comes next. -/
theorem Reads.bind {x : Parse Expr} {k : Expr → Parse α} (h : Reads x p w e)
    (hf : f.lexemes = w ++ rest) (hstop : p.StopsAt rest)
    (hk : ∀ f', f'.lexemes = rest →
      Ends (k e) f' done fun halt _ => halt = .tooDeep) :
    Ends (x >>= k) f done fun halt _ => halt = .tooDeep := by
  rw [ends_bind]
  refine (h f rest hf hstop).mono ?_ fun _ _ hhalt => hhalt
  rintro _ f' ⟨rfl, hf'⟩
  exact hk f' hf'

/-- A phrase that a keyword follows is read, and the keyword is taken. -/
theorem Reads.bind_keyword {x : Parse Expr} {k : Expr → Parse α}
    (h : Reads x p w e) (hf : f.lexemes = w ++ .keyword s :: rest)
    (hk : ∀ f', f'.lexemes = rest →
      Ends (k e) f' done fun halt _ => halt = .tooDeep) :
    Ends (x >>= fun e => expect .keyword (some s) >>= fun _ => k e) f done
      fun halt _ => halt = .tooDeep := by
  refine h.bind hf stopsAt_keyword fun f₁ h₁ => ?_
  rw [ends_bind]
  exact takes_expected h₁ rfl rfl fun _ => hk

variable {v b c y t : List Lexeme}
  {value body cond yes no head second func arg : Expr}

/-- A `let` is read if its value and its body are. -/
theorem reads_letIn {x : String} (hv : Reads inner .expr v value)
    (hb : Reads inner .expr b body) :
    Reads (expressionWith inner) .expr
      (.keyword "let" :: .identifier x :: .operator "="
        :: (v ++ .keyword "in" :: b))
      (.letIn x value body) := by
  intro f rest hf hstop
  simp only [List.cons_append, List.append_assoc] at hf
  refine ends_let hf fun f₁ h₁ => ?_
  refine hv.bind_keyword h₁ fun f₂ h₂ => ?_
  exact hb.bind h₂ hstop fun f₃ h₃ => ⟨rfl, h₃⟩

/-- A function is read if its body is, whatever the arrow looks like. -/
theorem reads_lambda {x arrow : String} (hb : Reads inner .expr b body) :
    Reads (expressionWith inner) .expr
      (.keyword "fun" :: .identifier x :: .arrow arrow :: b)
      (.lambda x body) := by
  intro f rest hf hstop
  refine ends_fun hf fun f₁ h₁ => ?_
  exact hb.bind h₁ hstop fun f₂ h₂ => ⟨rfl, h₂⟩

/-- A conditional is read if its three parts are. -/
theorem reads_ite (hc : Reads inner .expr c cond)
    (hy : Reads inner .expr y yes) (hn : Reads inner .expr t no) :
    Reads (expressionWith inner) .expr
      (.keyword "if" :: (c ++ .keyword "then" :: (y ++ .keyword "else" :: t)))
      (.ite cond yes no) := by
  intro f rest hf hstop
  simp only [List.cons_append, List.append_assoc] at hf
  refine ends_if hf fun f₁ h₁ => ?_
  rw [ifTail]
  refine hc.bind_keyword h₁ fun f₂ h₂ => ?_
  refine hy.bind_keyword h₂ fun f₃ h₃ => ?_
  exact hn.bind h₃ hstop fun f₄ h₄ => ⟨rfl, h₄⟩

-- atoms: nothing goes on with them

/-- What stands in parentheses is read as itself. -/
theorem reads_parens (hw : Reads inner .expr w e) :
    Reads (atom inner) .atom
      (.punctuation "(" :: (w ++ [.punctuation ")"])) e := by
  intro f rest hf _
  simp only [List.cons_append, List.append_assoc, List.nil_append] at hf
  refine ends_parens hf fun f₁ h₁ => ?_
  refine hw.bind h₁ (stopsAt_punctuation (by decide)) fun f₂ h₂ => ?_
  rw [ends_bind]
  exact takes_expected h₂ rfl rfl fun _ f₃ h₃ => ⟨rfl, h₃⟩

/-- Brackets with nothing between them are the empty list. -/
theorem reads_nil : Reads (atom inner) .atom
    [.punctuation "[", .punctuation "]"] .nil := by
  intro f rest hf _
  refine ends_bracket hf fun f₁ h₁ => ?_
  rw [listTail]
  exact takes_accepted h₁ rfl rfl fun f₂ h₂ => ⟨rfl, h₂⟩

/-- No expression begins with a closing bracket. -/
theorem head?_ne_of_derives (h : Derives p w e) :
    (w ++ rest).head? ≠ some (.punctuation "]") := by
  obtain ⟨l, w', rfl, hl⟩ := h.exists_cons
  rintro ⟨⟩
  simp [Lexeme.StartsAtom] at hl

/-- Brackets around one element. -/
theorem reads_single (hd : Derives .expr w head)
    (hw : Reads inner .expr w head) :
    Reads (atom inner) .atom
      (.punctuation "[" :: (w ++ [.punctuation "]"])) (.cons head .nil) := by
  intro f rest hf _
  simp only [List.cons_append, List.append_assoc, List.nil_append] at hf
  refine ends_bracket hf fun f₁ h₁ => ?_
  refine ends_listTail (h₁ ▸ head?_ne_of_derives hd) ?_
  refine hw.bind h₁ (stopsAt_punctuation (by decide)) fun f₂ h₂ => ?_
  refine passes_over (.punctuation ",") rfl rfl (by simp [current_eq h₂]) ?_
  rw [ends_bind]
  exact takes_expected h₂ rfl rfl fun _ f₃ h₃ => ⟨rfl, h₃⟩

/-- Brackets around two. -/
theorem reads_pair (hd : Derives .expr w head)
    (hw : Reads inner .expr w head) (ht : Reads inner .expr t second) :
    Reads (atom inner) .atom
      (.punctuation "[" :: (w ++ .punctuation ","
        :: (t ++ [.punctuation "]"])))
      (.cons head (.cons second .nil)) := by
  intro f rest hf _
  simp only [List.cons_append, List.append_assoc, List.nil_append] at hf
  refine ends_bracket hf fun f₁ h₁ => ?_
  refine ends_listTail (h₁ ▸ head?_ne_of_derives hd) ?_
  refine hw.bind h₁ (stopsAt_punctuation (by decide)) fun f₂ h₂ => ?_
  refine takes_accepted h₂ rfl rfl fun f₃ h₃ => ?_
  refine ht.bind h₃ (stopsAt_punctuation (by decide)) fun f₄ h₄ => ?_
  rw [ends_bind]
  exact takes_expected h₄ rfl rfl fun _ f₅ h₅ => ⟨rfl, h₅⟩

-- ===================================== applications and operators

/-- The parser of applications comes to the loop over arguments with
the phrase behind it, and ends as the loop does. Any number of arguments
may still follow. -/
def Continues (inner : Parse Expr) (w : List Lexeme) (e : Expr) : Prop :=
  ∀ f rest (done : Expr → Feed → Prop), f.lexemes = w ++ rest →
    (∀ fuel f', f'.lexemes = rest → rest.length ≤ fuel →
      Ends (arguments inner fuel e) f' done fun halt _ => halt = .tooDeep) →
    Ends (application inner) f done fun halt _ => halt = .tooDeep

/-- An application may start with any atom. -/
theorem continues_atom (hw : Reads (atom inner) .atom w e) :
    Continues inner w e := by
  intro f rest done hf hloop
  rw [application]
  refine hw.bind hf (fun _ _ => id) fun f₁ h₁ => ?_
  rw [ends_bind, ends_get]
  refine hloop _ f₁ h₁ ?_
  rw [← h₁]
  exact Nat.le_of_eq Feed.length_lexemes

/-- With an atom ahead, the loop has fuel for one more round. -/
theorem ends_arguments {done : Expr → Feed → Prop} {fuel : Nat}
    (h : f.lexemes = l :: w) (hl : l.StartsAtom)
    (hfuel : f.lexemes.length ≤ fuel)
    (hk : ∀ fuel', fuel ≤ fuel' + 1 → Ends (do
      let arg ← atom inner
      arguments inner fuel' (.app func arg)) f done halted) :
    Ends (arguments inner fuel func) f done halted := by
  rw [h, List.length_cons] at hfuel
  obtain ⟨fuel, rfl⟩ := Nat.exists_eq_add_one_of_ne_zero (by omega : fuel ≠ 0)
  have hstarts : f.startsAtom = true := by
    rw [Feed.startsAtom_iff, current_eq h]
    exact hl
  rw [arguments, ends_bind, ends_get, if_pos hstarts]
  exact hk fuel (Nat.le_refl _)

/-- An atom behind an application is one more argument. -/
theorem continues_app (hw : Continues inner w func)
    (hd : Derives .atom t arg) (ht : Reads (atom inner) .atom t arg) :
    Continues inner (w ++ t) (.app func arg) := by
  intro f rest done hf hloop
  rw [List.append_assoc] at hf
  obtain ⟨l, t', rfl, hl⟩ := hd.exists_startsAtom nofun
  refine hw f _ done hf fun fuel f₁ h₁ hfuel => ?_
  refine ends_arguments h₁ hl (h₁ ▸ hfuel) fun fuel' hfuel' => ?_
  refine ht.bind h₁ (fun _ _ => id) fun f₂ h₂ => hloop fuel' f₂ h₂ ?_
  rw [List.length_append, List.length_cons] at hfuel
  omega

/-- The loop ends where no atom begins. -/
theorem Continues.reads (h : Continues inner w e) :
    Reads (application inner) .app w e := by
  intro f rest hf hstop
  refine h f rest _ hf fun fuel f₁ h₁ _ => ?_
  cases fuel with
  | zero => exact ⟨rfl, h₁⟩
  | succ fuel =>
      have hstarts : ¬ f₁.startsAtom = true := by
        rw [Feed.startsAtom_iff]
        exact not_goesOn (p := .app) (h₁ ▸ hstop)
      rw [arguments, ends_bind, ends_get, if_neg hstarts]
      exact ⟨rfl, h₁⟩

/-- What `Reads` says, for a chain of operators with fuel for the
lexemes that are left. -/
def ReadsChain (inner : Parse Expr) (w : List Lexeme) (e : Expr) : Prop :=
  ∀ fuel f rest, f.lexemes = w ++ rest → f.lexemes.length ≤ fuel →
    Phrase.binary.StopsAt rest →
      Ends (binaryChain inner fuel) f
        (fun e' f' => e' = e ∧ f'.lexemes = rest) fun halt _ => halt = .tooDeep

theorem stopsAt_app (h : Phrase.binary.StopsAt rest) :
    Phrase.app.StopsAt rest :=
  fun l hl hstarts => h l hl (Or.inl hstarts)

/-- A chain may end with any operand. -/
theorem readsChain_operand (hw : Reads (application inner) .app w e) :
    ReadsChain inner w e := by
  intro fuel f rest hf _ hstop
  cases fuel with
  | zero => exact hw f rest hf (stopsAt_app hstop)
  | succ fuel =>
      rw [binaryChain]
      refine hw.bind hf (stopsAt_app hstop) fun f₁ h₁ => ?_
      rw [ends_bind, ends_current]
      split
      · next op hop =>
        by_cases heq : op = "="
        · rw [if_pos heq]
          exact ⟨rfl, h₁⟩
        · have hgo := not_goesOn (p := .binary) (h₁ ▸ hstop)
          exact absurd (Or.inr ⟨op, hop, heq⟩) hgo
      · exact ⟨rfl, h₁⟩

/-- With an operator behind the first operand, the chain has fuel for
what follows it. -/
theorem ends_operation {op : String} {left : Expr} {fuel : Nat}
    {done : Expr → Feed → Prop} (hop : op ≠ "=")
    (hl : Reads (application inner) .app w left)
    (hf : f.lexemes = w ++ .operator op :: rest)
    (hfuel : f.lexemes.length ≤ fuel)
    (hk : ∀ fuel' f', f'.lexemes = rest → rest.length ≤ fuel' →
      Ends (do
        let right ← binaryChain inner fuel'
        return .binary op left right) f' done fun halt _ => halt = .tooDeep) :
    Ends (binaryChain inner fuel) f done fun halt _ => halt = .tooDeep := by
  rw [hf, List.length_append, List.length_cons] at hfuel
  obtain ⟨fuel, rfl⟩ := Nat.exists_eq_add_one_of_ne_zero (by omega : fuel ≠ 0)
  rw [binaryChain]
  refine hl.bind hf ?_ fun f₁ h₁ => ?_
  · rintro _ ⟨⟩
    simp [Phrase.GoesOn, Lexeme.StartsAtom]
  · rw [ends_bind, ends_current, current_eq h₁]
    show Ends (if op = "=" then _ else _) _ _ _
    rw [if_neg hop, ends_bind, ends_advance]
    exact hk fuel _ (advance_eq h₁) (by omega)

/-- An operator continues a chain to the right. -/
theorem readsChain_operation {op : String} {left right : Expr}
    (hop : op ≠ "=") (hl : Reads (application inner) .app w left)
    (hr : ReadsChain inner t right) :
    ReadsChain inner (w ++ .operator op :: t) (.binary op left right) := by
  intro fuel f rest hf hfuel hstop
  rw [List.append_assoc, List.cons_append] at hf
  refine ends_operation hop hl hf hfuel fun fuel' f₁ h₁ hfuel' => ?_
  rw [ends_bind]
  refine (hr fuel' f₁ rest h₁ (h₁ ▸ hfuel') hstop).mono ?_ fun _ _ hhalt => hhalt
  rintro _ f₂ ⟨rfl, h₂⟩
  exact ⟨rfl, h₂⟩

/-- A chain is read as an expression. -/
theorem reads_chain (hd : Derives .binary w e) (hw : ReadsChain inner w e) :
    Reads (expressionWith inner) .expr w e := by
  intro f rest hf hstop
  obtain ⟨l, w', rfl, hl⟩ := hd.exists_startsAtom nofun
  exact ends_chain hf hl (hw _ f rest hf (Nat.le_refl _) hstop)

-- ====================================================== all layers

/-- The parser of the layer reads the phrase. -/
def Complete (inner : Parse Expr) : Phrase → List Lexeme → Expr → Prop
  | .expr => Reads (expressionWith inner) .expr
  | .binary => ReadsChain inner
  | .app => Continues inner
  | .atom => Reads (atom inner) .atom

/-- One level down an expression is read if there is a level left. -/
theorem reads_expression
    (h : ∀ limit, Complete (expression limit) .expr w e) (limit : Nat) :
    Reads (expression limit) .expr w e := by
  cases limit with
  | zero => exact fun f rest _ _ => rfl
  | succ limit => exact h limit

/-- Every phrase is read by the parser of its layer. -/
theorem complete_of_derives (h : Derives p w e) :
    ∀ limit, Complete (expression limit) p w e := by
  induction h with
  | letIn _ _ ihv ihb =>
      exact fun limit => reads_letIn (reads_expression ihv limit)
        (reads_expression ihb limit)
  | lambda _ ih => exact fun limit => reads_lambda (reads_expression ih limit)
  | ite _ _ _ ihc ihy ihn =>
      exact fun limit => reads_ite (reads_expression ihc limit)
        (reads_expression ihy limit) (reads_expression ihn limit)
  | binary hd ih => exact fun limit => reads_chain hd (ih limit)
  | operand _ ih => exact fun limit => readsChain_operand (ih limit).reads
  | operation hop _ _ ihl ihr =>
      exact fun limit => readsChain_operation hop (ihl limit).reads (ihr limit)
  | atom _ ih => exact fun limit => continues_atom (ih limit)
  | app _ hd ihf iha =>
      exact fun limit => continues_app (ihf limit) hd (iha limit)
  | number | boolean | identifier =>
      intro limit f rest hf _
      rw [atom, ends_bind, ends_current, current_eq hf]
      exact ⟨rfl, advance_eq hf⟩
  | parens _ ih => exact fun limit => reads_parens (reads_expression ih limit)
  | nil => exact fun limit => reads_nil
  | single hd ih =>
      exact fun limit => reads_single hd (reads_expression ih limit)
  | pair hd _ ihh ihs =>
      exact fun limit => reads_pair hd (reads_expression ihh limit)
        (reads_expression ihs limit)

/-- What is derived is read, unless the limit is in the way; by
induction on the derivation. -/
theorem reads_of_derives (h : Derives .expr w e) (limit : Nat) :
    Reads (expression limit) .expr w e :=
  reads_expression (complete_of_derives h) limit

-- =================================================== want of depth

/-- From `f` on, the parser gives up for want of depth. -/
def GivesUp (x : Parse α) (f : Feed) : Prop :=
  Ends x f (fun _ _ => False) fun halt _ => halt = .tooDeep

/-- Who gives up does not go on. -/
theorem GivesUp.bind {x : Parse α} {k : α → Parse β} (h : GivesUp x f) :
    GivesUp (x >>= k) f := by
  unfold GivesUp
  rw [ends_bind]
  exact Ends.mono h (fun _ _ hf => hf.elim) fun _ _ hhalt => hhalt

/-- The parser of the layer gives up from `f` on. -/
def GivesUpIn (inner : Parse Expr) : Phrase → Feed → Prop
  | .expr, f => GivesUp (expressionWith inner) f
  | .binary, f => ∀ fuel, f.lexemes.length ≤ fuel →
      GivesUp (binaryChain inner fuel) f
  | .app, f => GivesUp (application inner) f
  | .atom, f => GivesUp (atom inner) f

/-- A lead is passed, and what the parser of nested expressions does
behind it, the parser of the layer does as well. -/
theorem givesUpIn_of_leads (h : Leads rest p w) :
    (∀ f', f'.lexemes = rest → GivesUp (expression limit) f') →
      ∀ f, f.lexemes = w ++ rest → GivesUpIn (expression limit) p f := by
  intro hrest
  induction h with
  | value =>
      intro f hf
      exact ends_let hf fun f₁ h₁ => (hrest f₁ h₁).bind
  | body hv =>
      intro f hf
      simp only [List.cons_append, List.append_assoc, List.nil_append] at hf
      refine ends_let hf fun f₁ h₁ => ?_
      refine (reads_of_derives hv limit).bind_keyword h₁ fun f₂ h₂ => ?_
      exact (hrest f₂ h₂).bind
  | lambda =>
      intro f hf
      exact ends_fun hf fun f₁ h₁ => (hrest f₁ h₁).bind
  | cond =>
      intro f hf
      exact ends_if hf fun f₁ h₁ => (hrest f₁ h₁).bind
  | yes hc =>
      intro f hf
      simp only [List.cons_append, List.append_assoc, List.nil_append] at hf
      refine ends_if hf fun f₁ h₁ => ?_
      rw [ifTail]
      refine (reads_of_derives hc limit).bind_keyword h₁ fun f₂ h₂ => ?_
      exact (hrest f₂ h₂).bind
  | no hc hy =>
      intro f hf
      simp only [List.cons_append, List.append_assoc, List.nil_append] at hf
      refine ends_if hf fun f₁ h₁ => ?_
      rw [ifTail]
      refine (reads_of_derives hc limit).bind_keyword h₁ fun f₂ h₂ => ?_
      refine (reads_of_derives hy limit).bind_keyword h₂ fun f₃ h₃ => ?_
      exact (hrest f₃ h₃).bind
  | binary hlead ih =>
      intro f hf
      obtain ⟨l, w', rfl, hl⟩ := hlead.exists_startsAtom nofun
      exact ends_chain hf hl (ih f hf _ (Nat.le_refl _))
  | operand _ ih =>
      intro f hf fuel _
      cases fuel with
      | zero => exact ih f hf
      | succ fuel =>
          rw [binaryChain]
          exact (ih f hf).bind
  | operation hop hl _ ih =>
      intro f hf fuel hfuel
      rw [List.append_assoc, List.cons_append] at hf
      have hleft := (complete_of_derives hl limit).reads
      refine ends_operation hop hleft hf hfuel fun fuel' f₁ h₁ hfuel' => ?_
      exact (ih f₁ h₁ fuel' (h₁ ▸ hfuel')).bind
  | atom _ ih =>
      intro f hf
      exact (ih f hf).bind
  | app hd hlead ih =>
      intro f hf
      rw [List.append_assoc] at hf
      obtain ⟨l, w', rfl, hl⟩ := hlead.exists_startsAtom nofun
      refine complete_of_derives hd limit f _ _ hf fun fuel f₁ h₁ hfuel => ?_
      exact ends_arguments h₁ hl (h₁ ▸ hfuel) fun _ _ => (ih f₁ h₁).bind
  | parens =>
      intro f hf
      exact ends_parens hf fun f₁ h₁ => (hrest f₁ h₁).bind
  | head hne =>
      intro f hf
      refine ends_bracket hf fun f₁ h₁ => ?_
      exact ends_listTail (h₁ ▸ hne) (hrest f₁ h₁).bind
  | second hd =>
      intro f hf
      simp only [List.cons_append, List.append_assoc, List.nil_append] at hf
      refine ends_bracket hf fun f₁ h₁ => ?_
      refine ends_listTail (h₁ ▸ head?_ne_of_derives hd) ?_
      refine (reads_of_derives hd limit).bind h₁
        (stopsAt_punctuation (by decide)) fun f₂ h₂ => ?_
      exact takes_accepted h₂ rfl rfl fun f₃ h₃ => (hrest f₃ h₃).bind

/-- Where an expression is opened beyond the limit, the parser gives
up. -/
theorem givesUp_of_opens (h : Opens rest n w) : ∀ limit, limit < n →
    ∀ f, f.lexemes = w ++ rest → GivesUp (expression limit) f := by
  induction h with
  | program =>
      intro limit hlimit f _
      obtain rfl : limit = 0 := by omega
      exact rfl
  | inside hmid _ ih =>
      intro limit hlimit f hf
      cases limit with
      | zero => exact rfl
      | succ limit =>
          rw [List.append_assoc] at hf
          exact givesUpIn_of_leads hmid (ih limit (by omega)) f hf

end Parse

end InferTrace
