/-
The parser's procedures, with nothing that counts down.

The parser carries a limit on nesting, and fuel for its loops. Here is
what its procedures do, without either. A `Plan` is the next thing to
do: give an expression, fail at the next token, look at it, take it, or
call a procedure and go on with what it gives. `Callee.plan` writes the
body of each procedure as a plan; the loop over arguments is a part of
its own, and a chain of operators calls itself for what is behind an
operator. The rules (`Runs`) say how a plan ends from a feed. A
derivation is a finite tree of calls; a parser that goes on for ever has
none. Where depth is `bounded`, a parser may also give up, at any point.

- The rules without a bound give one answer at most (`Runs.unique`), and
  they give every answer of a bounded parser that has not given up
  (`Runs.unbounded`).
- However it ends, a parser has passed some tokens and gone back over
  none; one that calls a procedure or takes a token before it gives an
  expression has passed at least one (`Runs.moved`). The end of input is
  never passed, since no plan takes it (`Plan.Wary`).
- What the parser does, the rules allow (`Follows`), layer by layer, for
  every limit (`Layer.runs_parse`). The loops have fuel enough, for the
  tokens get fewer each time round.
-/
import InferTrace.Proofs.Expr.Lookahead

namespace InferTrace

variable {f f₁ f' : Feed} {l : Lexeme} {r r' : EStateM.Result Halt Feed Expr}

-- ============================================================= plans

/-- The procedures of the parser. -/
inductive Layer where
  | expression
  | letTail
  | funTail
  | ifTail
  | binary
  | application
  | atom
  | listTail
deriving DecidableEq, Repr

/-- What is called: a procedure, or the loop over the arguments of a
function. -/
inductive Callee where
  | layer (layer : Layer)
  | arguments (func : Expr)

/-- What there is to do. To look leaves the token where it is. -/
inductive Plan where
  | done (e : Expr)
  | fail (expected : String)
  | look (test : Lexeme → Prop) (yes no : Plan)
  | take (test : Lexeme → Prop) (yes : Lexeme → Plan) (no : Plan)
  | call (callee : Callee) (next : Expr → Plan)

namespace Plan

/-- Take the lexeme if it is there. -/
def accept (l : Lexeme) (yes no : Plan) : Plan :=
  take (· = l) (fun _ => yes) no

/-- Take the lexeme, which has to be there. -/
def expect (l : Lexeme) (next : Plan) : Plan :=
  accept l next (fail ("'" ++ l.text ++ "'"))

/-- Take an identifier. -/
def name (next : String → Plan) : Plan :=
  take (·.cls = .identifier) (fun l => next (l.word?.getD "")) (fail "IDENT")

/-- Take an arrow. -/
def arrow (next : Plan) : Plan :=
  take (·.cls = .arrow) (fun _ => next) (fail "ARROW")

/-- Call a procedure. -/
def parse (layer : Layer) (next : Expr → Plan) : Plan :=
  call (.layer layer) next

end Plan

/-- The expression that a lexeme is by itself. -/
def leaf? : Lexeme → Option Expr
  | .number n => some (.int n)
  | .boolean b => some (.bool b)
  | .identifier x => some (.var x)
  | _ => none

/-- An operator that joins applications. -/
def Joins (l : Lexeme) : Prop := ∃ op, l = .operator op ∧ op ≠ "="

open Plan in
/-- The body of each procedure. -/
def Callee.plan : Callee → Plan
  | .layer .expression =>
      accept (.keyword "let") (parse .letTail done) <|
      accept (.keyword "fun") (parse .funTail done) <|
      accept (.keyword "if") (parse .ifTail done) <|
      parse .binary done
  | .layer .letTail =>
      name fun x => expect (.operator "=") <|
      parse .expression fun value => expect (.keyword "in") <|
      parse .expression fun body => done (.letIn x value body)
  | .layer .funTail =>
      name fun x => arrow <|
      parse .expression fun body => done (.lambda x body)
  | .layer .ifTail =>
      parse .expression fun cond => expect (.keyword "then") <|
      parse .expression fun yes => expect (.keyword "else") <|
      parse .expression fun no => done (.ite cond yes no)
  | .layer .binary =>
      parse .application fun left =>
      take Joins
        (fun op => parse .binary fun right =>
          done (.binary (op.word?.getD "") left right))
        (done left)
  | .layer .application =>
      parse .atom fun func => call (.arguments func) done
  | .arguments func =>
      look Lexeme.StartsAtom
        (parse .atom fun arg => call (.arguments (.app func arg)) done)
        (done func)
  | .layer .atom =>
      take (fun l => (leaf? l).isSome) (fun l => done ((leaf? l).getD .nil)) <|
      accept (.punctuation "(")
        (parse .expression fun e => expect (.punctuation ")") (done e)) <|
      accept (.punctuation "[") (parse .listTail done) <|
      fail "an expression"
  | .layer .listTail =>
      accept (.punctuation "]") (done .nil) <|
      parse .expression fun head =>
      accept (.punctuation ",")
        (parse .expression fun second =>
          expect (.punctuation "]") (done (.cons head (.cons second .nil))))
        (expect (.punctuation "]") (done (.cons head .nil)))

-- ============================================================= rules

/-- From the feed on, the plan ends with the result. If depth is
`bounded`, it may be given up at any point. -/
inductive Runs (bounded : Prop) :
    Plan → Feed → EStateM.Result Halt Feed Expr → Prop
  | givesUp {p : Plan} {f : Feed} : bounded →
      Runs bounded p f (.error .tooDeep f)
  | done {e : Expr} {f : Feed} : Runs bounded (.done e) f (.ok e f)
  | fail {expected : String} {f : Feed} :
      Runs bounded (.fail expected) f
        (.error (unexpected expected f.current) f)
  | seen {test : Lexeme → Prop} {yes no : Plan} {f : Feed}
      {r : EStateM.Result Halt Feed Expr} : test f.current.lexeme →
      Runs bounded yes f r → Runs bounded (.look test yes no) f r
  | unseen {test : Lexeme → Prop} {yes no : Plan} {f : Feed}
      {r : EStateM.Result Halt Feed Expr} : ¬ test f.current.lexeme →
      Runs bounded no f r → Runs bounded (.look test yes no) f r
  | taken {test : Lexeme → Prop} {yes : Lexeme → Plan} {no : Plan} {f : Feed}
      {r : EStateM.Result Halt Feed Expr} : test f.current.lexeme →
      Runs bounded (yes f.current.lexeme) f.advance r →
      Runs bounded (.take test yes no) f r
  | left {test : Lexeme → Prop} {yes : Lexeme → Plan} {no : Plan} {f : Feed}
      {r : EStateM.Result Halt Feed Expr} : ¬ test f.current.lexeme →
      Runs bounded no f r → Runs bounded (.take test yes no) f r
  | call {callee : Callee} {next : Expr → Plan} {f f₁ : Feed} {e : Expr}
      {r : EStateM.Result Halt Feed Expr} :
      Runs bounded callee.plan f (.ok e f₁) → Runs bounded (next e) f₁ r →
      Runs bounded (.call callee next) f r
  | halt {callee : Callee} {next : Expr → Plan} {f f₁ : Feed} {halt : Halt} :
      Runs bounded callee.plan f (.error halt f₁) →
      Runs bounded (.call callee next) f (.error halt f₁)

variable {bounded : Prop} {p : Plan}

/-- Without a bound there is one way to go on at every point. -/
theorem Runs.unique (h : Runs False p f r) (h' : Runs False p f r') :
    r' = r := by
  induction h generalizing r' with
  | givesUp hf => exact hf.elim
  | done =>
      cases h' with
      | givesUp hf => exact hf.elim
      | done => rfl
  | fail =>
      cases h' with
      | givesUp hf => exact hf.elim
      | fail => rfl
  | seen htest _ ih =>
      cases h' with
      | givesUp hf => exact hf.elim
      | seen _ h' => exact ih h'
      | unseen hnot => exact absurd htest hnot
  | unseen hnot _ ih =>
      cases h' with
      | givesUp hf => exact hf.elim
      | seen htest => exact absurd htest hnot
      | unseen _ h' => exact ih h'
  | taken htest _ ih =>
      cases h' with
      | givesUp hf => exact hf.elim
      | taken _ h' => exact ih h'
      | left hnot => exact absurd htest hnot
  | left hnot _ ih =>
      cases h' with
      | givesUp hf => exact hf.elim
      | taken htest => exact absurd htest hnot
      | left _ h' => exact ih h'
  | call _ _ ihcallee ihnext =>
      cases h' with
      | givesUp hf => exact hf.elim
      | call hcallee hnext =>
          cases ihcallee hcallee
          exact ihnext hnext
      | halt hcallee => cases ihcallee hcallee
  | halt _ ih =>
      cases h' with
      | givesUp hf => exact hf.elim
      | call hcallee => cases ih hcallee
      | halt hcallee =>
          cases ih hcallee
          rfl

/-- A parser that has not given up needed no bound. -/
theorem Runs.unbounded (h : Runs bounded p f r)
    (hr : ∀ f', r ≠ .error .tooDeep f') : Runs False p f r := by
  induction h with
  | givesUp => exact absurd rfl (hr _)
  | done => exact .done
  | fail => exact .fail
  | seen htest _ ih => exact .seen htest (ih hr)
  | unseen hnot _ ih => exact .unseen hnot (ih hr)
  | taken htest _ ih => exact .taken htest (ih hr)
  | left hnot _ ih => exact .left hnot (ih hr)
  | call _ _ ihcallee ihnext => exact .call (ihcallee (by simp)) (ihnext hr)
  | halt _ ih =>
      refine .halt (ih fun f' heq => ?_)
      cases heq
      exact hr _ rfl

-- ========================================================== progress

/-- From `f` to `f'`, so many tokens are passed. -/
structure Feed.Passes (f : Feed) (n : Nat) (f' : Feed) : Prop where
  le : n ≤ f.rest.length
  pos : f'.pos = f.pos + n
  rest : f'.rest = f.rest.drop n
  stop : f'.stop = f.stop

namespace Feed

variable {n m : Nat}

theorem Passes.refl (f : Feed) : f.Passes 0 f :=
  ⟨Nat.zero_le _, rfl, rfl, rfl⟩

theorem Passes.trans (h : f.Passes n f₁) (h' : f₁.Passes m f') :
    f.Passes (n + m) f' := by
  have hle := h'.le
  rw [h.rest, List.length_drop] at hle
  refine ⟨?_, ?_, ?_, h'.stop.trans h.stop⟩
  · have := h.le
    omega
  · rw [h'.pos, h.pos, Nat.add_assoc]
  · rw [h'.rest, h.rest, List.drop_drop]

/-- What is passed is missing in what is left. -/
theorem Passes.length (h : f.Passes n f') :
    f'.rest.length + n = f.rest.length := by
  have := h.le
  rw [h.rest, List.length_drop]
  omega

/-- To advance passes a token, unless the input is at its end. -/
theorem passes_advance (h : f.rest ≠ []) : f.Passes 1 f.advance := by
  unfold advance
  cases hf : f.rest with
  | nil => exact absurd hf h
  | cons t rest => exact ⟨by simp [hf], rfl, by simp [hf], rfl⟩

/-- Without tokens, the end of input is next. -/
theorem current_lexeme_of_nil (h : f.rest = []) :
    f.current.lexeme = .endOfInput := by
  unfold current
  rw [h]

end Feed

/-- A parser that began at `f` has only passed tokens, and one at least
if it has given something and `gains`. -/
def Moved {α : Type} (f : Feed) (gains : Prop) :
    EStateM.Result Halt Feed α → Prop
  | .ok _ f' => ∃ n, f.Passes n f' ∧ (gains → 0 < n)
  | .error _ f' => ∃ n, f.Passes n f'

/-- What has moved from where another has stopped has moved from where
that one began. -/
theorem Moved.after {α : Type} {n : Nat} {gains gains' : Prop}
    {r : EStateM.Result Halt Feed α} (hn : f.Passes n f₁)
    (h : Moved f₁ gains' r) (hgains : gains → 0 < n ∨ gains') :
    Moved f gains r := by
  cases r with
  | ok a f' =>
      obtain ⟨m, hm, hpos⟩ := h
      refine ⟨n + m, hn.trans hm, fun hg => ?_⟩
      rcases hgains hg with hlt | hg'
      · omega
      · have := hpos hg'
        omega
  | error halt f' =>
      obtain ⟨m, hm⟩ := h
      exact ⟨n + m, hn.trans hm⟩

/-- The end of input is never taken. -/
def Plan.Wary : Plan → Prop
  | done _ | fail _ => True
  | look _ yes no => yes.Wary ∧ no.Wary
  | take test yes no => ¬ test .endOfInput ∧ (∀ l, (yes l).Wary) ∧ no.Wary
  | call _ next => ∀ e, (next e).Wary

/-- A procedure passes a token, a loop may not. -/
def Callee.Gains : Callee → Prop
  | layer _ => True
  | arguments _ => False

/-- On every way to an expression, a token is taken or a procedure
called. -/
def Plan.Gains : Plan → Prop
  | done _ => False
  | fail _ => True
  | look _ yes no => yes.Gains ∧ no.Gains
  | take _ _ no => no.Gains
  | call callee next => callee.Gains ∨ ∀ e, (next e).Gains

/-- Every plan asks for a token before it is taken. -/
theorem Callee.wary_plan (callee : Callee) : callee.plan.Wary := by
  cases callee with
  | arguments func => simp [plan, Plan.parse, Plan.Wary]
  | layer layer =>
      cases layer <;>
        simp [plan, Plan.parse, Plan.accept, Plan.expect, Plan.name,
          Plan.arrow, Plan.Wary, Joins, leaf?, Lexeme.cls]

/-- A callee that takes a token does so by its plan. -/
theorem Callee.Gains.plan {callee : Callee} (h : callee.Gains) :
    callee.plan.Gains := by
  cases callee with
  | arguments func => exact h.elim
  | layer layer =>
      cases layer <;>
        simp [Callee.plan, Plan.parse, Plan.accept, Plan.expect, Plan.name,
          Plan.arrow, Plan.Gains, Callee.Gains]

/-- However a plan ends, tokens have been passed and none is gone back
over. -/
theorem Runs.moved (h : Runs bounded p f r) (hp : p.Wary) :
    Moved f p.Gains r := by
  -- over the tree of calls: each starts where the one before has stopped
  induction h with
  | givesUp | fail => exact ⟨0, .refl _⟩
  | done => exact ⟨0, .refl _, False.elim⟩
  | seen _ _ ih => exact (ih hp.1).after (.refl _) fun hg => Or.inr hg.1
  | unseen _ _ ih => exact (ih hp.2).after (.refl _) fun hg => Or.inr hg.2
  | @taken _ _ _ f _ htest _ ih =>
      have hne : f.rest ≠ [] := fun hnil =>
        hp.1 (Feed.current_lexeme_of_nil hnil ▸ htest)
      exact (ih (hp.2.1 _)).after (Feed.passes_advance hne)
        fun _ => Or.inl Nat.one_pos
  | left _ _ ih => exact (ih hp.2.2).after (.refl _) Or.inr
  | call _ _ ihcallee ihnext =>
      obtain ⟨n, hn, hpos⟩ := ihcallee (Callee.wary_plan _)
      refine (ihnext (hp _)).after hn fun hg => ?_
      exact hg.imp (fun hc => hpos hc.plan) fun hnext => hnext _
  | halt _ ih => exact ih (Callee.wary_plan _)

/-- A procedure that has given an expression has passed a token. -/
theorem Runs.exists_passes {layer : Layer} {e : Expr}
    (h : Runs bounded (Callee.layer layer).plan f (.ok e f')) :
    ∃ n, 0 < n ∧ f.Passes n f' := by
  obtain ⟨n, hn, hpos⟩ := h.moved (Callee.wary_plan _)
  exact ⟨n, hpos (Callee.Gains.plan trivial), hn⟩

/-- A run of a layer that gives an expression has taken a token. -/
theorem Runs.length_lt {layer : Layer} {e : Expr}
    (h : Runs bounded (Callee.layer layer).plan f (.ok e f')) :
    f'.rest.length < f.rest.length := by
  obtain ⟨n, hpos, hn⟩ := h.exists_passes
  have hlength := hn.length
  omega

-- ==================================================== the rules followed

namespace Parse

variable {x y inner : Parse Expr} {q : Plan} {callee : Callee}
  {cls : Lexeme.Class} {s : String}

/-- From `f` on, the rules allow what the parser does. -/
def Follows (x : Parse Expr) (p : Plan) (f : Feed) : Prop :=
  Ends x f (fun e f' => Runs True p f (.ok e f'))
    fun halt f' => Runs True p f (.error halt f')

/-- A parser that follows a plan does what a run of the plan does. -/
theorem Follows.runs (h : Follows x p f) : Runs True p f (x f) := by
  unfold Follows Ends at h
  cases hx : x f with
  | ok e f' =>
      rw [hx] at h
      exact h
  | error halt f' =>
      rw [hx] at h
      exact h

/-- One plan may be followed for another that ends in all the same
ways. -/
theorem Follows.mono (h : Follows x p f₁)
    (hmono : ∀ r, Runs True p f₁ r → Runs True q f r) :
    Ends x f₁ (fun e f' => Runs True q f (.ok e f'))
      fun halt f' => Runs True q f (.error halt f') :=
  Ends.mono h (fun _ _ hr => hmono _ hr) fun _ _ hr => hmono _ hr

theorem follows_pure {e : Expr} : Follows (pure e) (.done e) f := .done

theorem follows_fail {expected : String} :
    Follows (fail expected) (.fail expected) f := .fail

/-- A call, and what is done with what it gives. -/
theorem Follows.bind {k : Expr → Parse Expr} {next : Expr → Plan}
    (hx : Follows x callee.plan f)
    (hk : ∀ e f₁, Runs True callee.plan f (.ok e f₁) →
      Follows (k e) (next e) f₁) :
    Follows (x >>= k) (.call callee next) f := by
  unfold Follows
  rw [ends_bind]
  refine Ends.mono hx (fun e f₁ he => ?_) fun _ _ hhalt => .halt hhalt
  exact (hk e f₁ he).mono fun _ hr => .call he hr

/-- A call whose answer is given as it is. -/
theorem Follows.tail (h : Follows x callee.plan f) :
    Follows x (.call callee .done) f :=
  Ends.mono h (fun _ _ hr => .call hr .done) fun _ _ hr => .halt hr

/-- A look that succeeds goes on with the first plan. -/
theorem Follows.seen {test : Lexeme → Prop} (htest : test f.current.lexeme)
    (h : Follows x p f) : Follows x (.look test p q) f :=
  h.mono fun _ hr => .seen htest hr

/-- A look that fails goes on with the second. -/
theorem Follows.unseen {test : Lexeme → Prop}
    (hnot : ¬ test f.current.lexeme) (h : Follows x q f) :
    Follows x (.look test p q) f :=
  h.mono fun _ hr => .unseen hnot hr

/-- To take the token that a plan asks for is to follow it. -/
theorem Follows.taken {test : Lexeme → Prop} {yes : Lexeme → Plan}
    (htest : test f.current.lexeme)
    (h : Follows x (yes f.current.lexeme) f.advance) :
    Follows (do let _ ← advance; x) (.take test yes q) f :=
  h.mono fun _ hr => .taken htest hr

/-- To leave a token that the plan does not ask for is to follow it,
too. -/
theorem Follows.left {test : Lexeme → Prop} {yes : Lexeme → Plan}
    (hnot : ¬ test f.current.lexeme) (h : Follows x q f) :
    Follows x (.take test yes q) f :=
  h.mono fun _ hr => .left hnot hr

/-- To accept a word follows the plan that looks for it. -/
theorem Follows.accept (l : Lexeme) (hcls : l.cls = cls)
    (hl : l.word? = some s) (hx : Follows x p f.advance)
    (hy : Follows y q f) :
    Follows (do if (← accept cls (some s)).isSome then x else y)
      (.accept l p q) f :=
  ends_accept l hcls hl (fun heq => hx.mono fun _ hr => .taken heq hr)
    fun hne => hy.mono fun _ hr => .left hne hr

/-- The text of a word is the word. -/
theorem text_of_word? (hl : l.word? = some s) : l.text = s := by
  cases l <;> cases hl <;> rfl

/-- To expect a word follows the plan that cannot do without it. -/
theorem Follows.expect (l : Lexeme) (hcls : l.cls = cls)
    (hl : l.word? = some s) (hx : Follows x p f.advance) :
    Follows (do let _ ← expect cls (some s); x) (.expect l p) f := by
  unfold Follows
  rw [ends_bind, Parse.expect, ends_bind, ends_get]
  by_cases h : f.current.lexeme = l
  · rw [if_pos ((Feed.check_iff cls hcls hl).2 h)]
    exact hx.mono fun _ hr => .taken h hr
  · rw [if_neg (mt (Feed.check_iff cls hcls hl).1 h)]
    refine .left h ?_
    rw [text_of_word? hl]
    exact .fail

/-- The same where any token of a class will do. -/
theorem Follows.expectClass {k : Token → Parse Expr} {next : Lexeme → Plan}
    (hk : Follows (k f.current) (next f.current.lexeme) f.advance) :
    Follows (Parse.expect cls >>= k)
      (.take (·.cls = cls) next (.fail cls.text)) f := by
  unfold Follows
  rw [ends_bind, Parse.expect, ends_bind, ends_get]
  by_cases h : f.current.lexeme.cls = cls
  · rw [if_pos (Feed.check_class_iff.2 h)]
    exact hk.mono fun _ hr => .taken h hr
  · rw [if_neg (mt Feed.check_class_iff.1 h)]
    exact .left h .fail

/-- To read a name follows the plan that asks for one. -/
theorem Follows.name {k : String → Parse Expr} {next : String → Plan}
    (hk : ∀ x, Follows (k x) (next x) f.advance) :
    Follows (Parse.name >>= k) (.name next) f := by
  show Follows ((Parse.expect .identifier >>= fun t =>
    pure (t.lexeme.word?.getD "")) >>= k) _ f
  rw [bind_assoc]
  simp only [pure_bind]
  exact .expectClass (hk _)

-- ========================================================= each layer

/-- The plan of a procedure. -/
abbrev planOf (layer : Layer) : Plan := (Callee.layer layer).plan

/-- The rest of a list is read by its plan. -/
theorem follows_listTail (h : ∀ f, Follows inner (planOf .expression) f)
    (f : Feed) : Follows (listTail inner) (planOf .listTail) f := by
  refine .accept (.punctuation "]") rfl rfl follows_pure ?_
  refine (h f).bind fun head f₁ _ => ?_
  refine .accept (.punctuation ",") rfl rfl ?_ ?_
  · refine (h _).bind fun second f₂ _ => ?_
    exact .expect (.punctuation "]") rfl rfl follows_pure
  · exact .expect (.punctuation "]") rfl rfl follows_pure

/-- An atom is read by its plan, one case for each lexeme that can start
one. -/
theorem follows_atom (h : ∀ f, Follows inner (planOf .expression) f)
    (f : Feed) : Follows (atom inner) (planOf .atom) f := by
  unfold Follows
  rw [atom, ends_bind, ends_current]
  cases hc : f.current.lexeme with
  | number | boolean | identifier =>
      refine Follows.taken (by rw [hc]; rfl) ?_
      rw [hc]
      exact follows_pure
  | _ =>
      have hleaf : ¬ (leaf? f.current.lexeme).isSome := by
        rw [hc]
        exact Bool.false_ne_true
      refine Follows.left hleaf (.accept (.punctuation "(") rfl rfl ?_ ?_)
      · refine (h _).bind fun e f₁ _ => ?_
        exact .expect (.punctuation ")") rfl rfl follows_pure
      · refine .accept (.punctuation "[") rfl rfl ?_ follows_fail
        exact (follows_listTail h _).tail

/-- Each time round the loop over the arguments passes a token. -/
theorem follows_arguments (h : ∀ f, Follows inner (planOf .expression) f) :
    ∀ (fuel : Nat) (func : Expr) (f : Feed), f.rest.length ≤ fuel →
      Follows (arguments inner fuel func) (Callee.arguments func).plan f := by
  intro fuel
  induction fuel with
  | zero =>
      intro func f hf
      have hend := Feed.current_lexeme_of_nil
        (List.length_eq_zero_iff.1 (Nat.le_zero.1 hf))
      refine .unseen ?_ .done
      rw [hend]
      simp [Lexeme.StartsAtom]
  | succ fuel ih =>
      intro func f hf
      unfold Follows
      rw [arguments, ends_bind, ends_get]
      by_cases hstart : f.startsAtom = true
      · rw [if_pos hstart]
        refine Follows.seen (Feed.startsAtom_iff.1 hstart) ?_
        refine (follows_atom h f).bind fun arg f₁ hrun => ?_
        have hlt := hrun.length_lt
        exact (ih (.app func arg) f₁ (by omega)).tail
      · rw [if_neg hstart]
        exact Follows.unseen (mt Feed.startsAtom_iff.2 hstart) follows_pure

/-- An application is read by its plan. -/
theorem follows_application (h : ∀ f, Follows inner (planOf .expression) f)
    (f : Feed) : Follows (application inner) (planOf .application) f := by
  refine (follows_atom h f).bind fun func f₁ _ => ?_
  exact (follows_arguments h _ func f₁ (Nat.le_refl _)).tail

/-- After an operand, an operator calls for another one. -/
theorem follows_operations {chain : Parse Expr} (left : Expr)
    (h : Follows chain (planOf .binary) f.advance) :
    Follows (operations chain left)
      (.take Joins
        (fun op => .parse .binary fun right =>
          .done (.binary (op.word?.getD "") left right))
        (.done left)) f := by
  unfold Follows operations
  rw [ends_bind, ends_current]
  cases hop : f.current.lexeme with
  | operator op =>
      by_cases heq : op = "="
      · have hnot : ¬ Joins f.current.lexeme := by
          rintro ⟨op', hop', hne⟩
          cases hop.symm.trans hop'
          exact hne heq
        simp only [if_pos heq]
        exact Follows.left hnot follows_pure
      · simp only [if_neg heq]
        refine Follows.taken ⟨op, hop, heq⟩ ?_
        rw [hop]
        exact h.bind fun right f₁ _ => follows_pure
  | _ =>
      refine Follows.left ?_ follows_pure
      rintro ⟨op, hop', -⟩
      cases hop.symm.trans hop'

/-- Each further operator passes a token, too. -/
theorem follows_binaryChain (h : ∀ f, Follows inner (planOf .expression) f) :
    ∀ (fuel : Nat) (f : Feed), f.rest.length ≤ fuel →
      Follows (binaryChain inner fuel) (planOf .binary) f := by
  intro fuel
  induction fuel with
  | zero =>
      intro f hf
      -- there is no token left, and so no application
      refine Ends.mono (follows_application h f) (fun e f₁ hrun => ?_)
        fun _ _ hrun => .halt hrun
      have hlt := hrun.length_lt
      omega
  | succ fuel ih =>
      intro f hf
      refine (follows_application h f).bind fun left f₁ hrun => ?_
      have hlt := hrun.length_lt
      have hle := length_advance_le f₁
      exact follows_operations left (ih f₁.advance (by omega))

/-- The rest of a `let` is read by its plan. -/
theorem follows_letTail (h : ∀ f, Follows inner (planOf .expression) f)
    (f : Feed) : Follows (letTail inner) (planOf .letTail) f := by
  rw [letTail, planOf, Callee.plan]
  refine .name fun x => ?_
  refine .expect (.operator "=") rfl rfl ?_
  refine (h _).bind fun value f₁ _ => .expect (.keyword "in") rfl rfl ?_
  exact (h _).bind fun body f₂ _ => follows_pure

/-- The rest of a function is read by its plan. -/
theorem follows_funTail (h : ∀ f, Follows inner (planOf .expression) f)
    (f : Feed) : Follows (funTail inner) (planOf .funTail) f := by
  rw [funTail, planOf, Callee.plan]
  refine .name fun x => .expectClass ?_
  exact (h _).bind fun body f₁ _ => follows_pure

/-- The rest of a conditional is read by its plan. -/
theorem follows_ifTail (h : ∀ f, Follows inner (planOf .expression) f)
    (f : Feed) : Follows (ifTail inner) (planOf .ifTail) f := by
  refine (h f).bind fun cond f₁ _ => .expect (.keyword "then") rfl rfl ?_
  refine (h _).bind fun yes f₂ _ => .expect (.keyword "else") rfl rfl ?_
  exact (h _).bind fun no f₃ _ => follows_pure

/-- An expression is read by its plan, by induction on the limit. -/
theorem follows_expression (limit : Nat) :
    ∀ f, Follows (expression limit) (planOf .expression) f := by
  induction limit with
  | zero => exact fun f => .givesUp trivial
  | succ limit ih =>
      intro f
      refine .accept (.keyword "let") rfl rfl (follows_letTail ih _).tail ?_
      refine .accept (.keyword "fun") rfl rfl (follows_funTail ih _).tail ?_
      refine .accept (.keyword "if") rfl rfl (follows_ifTail ih _).tail ?_
      exact (follows_binaryChain ih _ f (Nat.le_refl _)).tail

end Parse

/-- The procedure, with a limit on nesting. -/
def Layer.parse (limit : Nat) : Layer → Parse Expr
  | .expression => Parse.expression limit
  | .letTail => Parse.letTail (Parse.expression limit)
  | .funTail => Parse.funTail (Parse.expression limit)
  | .ifTail => Parse.ifTail (Parse.expression limit)
  | .binary => Parse.binary (Parse.expression limit)
  | .application => Parse.application (Parse.expression limit)
  | .atom => Parse.atom (Parse.expression limit)
  | .listTail => Parse.listTail (Parse.expression limit)

/-- Under any limit, the rules with a bound allow what the parser
does. -/
theorem Layer.runs_parse (layer : Layer) (limit : Nat) (f : Feed) :
    Runs True (Callee.layer layer).plan f (layer.parse limit f) := by
  have h := Parse.follows_expression limit
  cases layer with
  | expression => exact (h f).runs
  | letTail => exact (Parse.follows_letTail h f).runs
  | funTail => exact (Parse.follows_funTail h f).runs
  | ifTail => exact (Parse.follows_ifTail h f).runs
  | binary => exact (Parse.follows_binaryChain h _ f (Nat.le_refl _)).runs
  | application => exact (Parse.follows_application h f).runs
  | atom => exact (Parse.follows_atom h f).runs
  | listTail => exact (Parse.follows_listTail h f).runs

end InferTrace
