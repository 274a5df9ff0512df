/-
Every run ends in one well-formed outcome, or cannot be closed.

A run has three ways to end: the source is not parsed, inference halts,
or there is a type. Each closes the trace in its own way, and
`Outcome.WellFormed` says what is common to them: what can be read off
the outcome without knowing which way it was.

That nothing else happens rests on what each stage can fail with. The
scanner's faults are lexical and the parser's are of the grammar or of
nesting; what the parser gives has no holes and no numbers that cannot be
announced. What stops inference is then a limit, a name that is not in
scope or an equation without a solution.

A limit that is hit on the way is a failure like any other. When the run
is closed, its variables are shown once more, and nothing is left to
report that there is no room for it: there is no outcome then
(`run_wellFormed`).
-/
import InferTrace.Proofs.Expr.Points
import InferTrace.Proofs.History
import InferTrace.Proofs.Trace.Limit

namespace InferTrace

open Text (Points)

variable {limits : Limits} {mode : Mode} {source : Points} {e : Expr}
  {fault : Fault} {halt : Halt} {t : Tracer} {type : Ty} {o : Outcome}

-- ===================================================== well-formedness

/-- The report is of a source that was not parsed. -/
def Diagnostic.OfSource (d : Diagnostic) : Prop :=
  d.kind = .lexical ∨ d.kind = .grammatical ∨
    (d.kind = .nestingTooDeep ∧ d.details = [("stage", .str "parse")])

/-- The event that announces the root of an expression. -/
def rootEvent (e : Expr) : Event :=
  { message := "AST: analyzing " ++ e.label
    category := .ast
    node := some (nodeName 0) }

/-- The event that closes the trace of a failed run. -/
def Outcome.failure (o : Outcome) (d : Diagnostic) : Event :=
  { message := "failure: " ++ d.message
    category := .error
    snapshot := o.typeVars
    node := d.node }

/-- What every outcome of a run is. -/
structure Outcome.WellFormed (o : Outcome) : Prop where
  /-- There is a type or an error, not both. -/
  one : o.type.isSome ↔ o.error = none
  /-- There is no expression if the error is of the source, and only
  then. -/
  ast : o.ast = none ↔ ∃ d, o.error = some d ∧ d.OfSource
  /-- Every node is of a known kind. -/
  known : ∀ d, o.error = some d → d.kind ≠ .unknownExpression
  /-- A failure is the last event and the only one of an error; it is
  all there is if there is no expression. -/
  failed : ∀ d, o.error = some d → ∃ before : List Event,
    o.trace = before ++ [o.failure d] ∧
      (∀ ev ∈ before, ev.category ≠ .error) ∧ (o.ast = none → before = [])
  /-- Without a failure the trace starts at the root and tells of no
  error. -/
  succeeded : o.error = none → (∀ ev ∈ o.trace, ev.category ≠ .error) ∧
    ∃ e, o.ast = some e ∧ ∃ rest, o.trace = rootEvent e :: rest

/-- A run that is closed with a failure. -/
theorem wellFormed_failed {ast : Option Expr}
    (hast : ast = none ↔ fault.diagnostic.OfSource)
    (hknown : fault.diagnostic.kind ≠ .unknownExpression)
    (hevents : ∀ ev ∈ t.events.toList, ev.category ≠ .error)
    (hempty : ast = none → t.events.toList = []) :
    (Outcome.failed source ast fault t).WellFormed where
  one := by simp [Outcome.failed]
  ast := by
    simp only [Outcome.failed, Option.some.injEq, exists_eq_left']
    exact hast
  known := by
    intro d hd
    cases hd
    exact hknown
  failed := by
    intro d hd
    cases hd
    refine ⟨t.events.toList, ?_, hevents, hempty⟩
    simp [Outcome.failed, Outcome.failure, Tracer.record]
  succeeded := by simp [Outcome.failed]

/-- A run that is closed with a type. -/
theorem wellFormed_succeeded {rest : List Event}
    (htrace : t.events.toList = rootEvent e :: rest)
    (hevents : ∀ ev ∈ t.events.toList, ev.category ≠ .error) :
    (Outcome.succeeded source e type t).WellFormed where
  one := by simp [Outcome.succeeded]
  ast := by simp [Outcome.succeeded]
  known := by simp [Outcome.succeeded]
  failed := by simp [Outcome.succeeded]
  succeeded := fun _ => ⟨hevents, e, rfl, rest, htrace⟩

-- ========================================================== the stages

/-- A source that is not parsed fails with a fault of the source. -/
theorem atStage_of_parsePoints
    (h : parsePoints limits.parsing mode source = .error halt) :
    ∃ fault, halt.atStage "parse" none = .ok fault ∧
      fault.diagnostic.OfSource := by
  rcases halt_of_parsePoints h with rfl | ⟨f, rfl, hlexical | hgrammatical⟩
  · exact ⟨_, rfl, Or.inr (Or.inr ⟨rfl, rfl⟩)⟩
  · exact ⟨f, rfl, Or.inl hlexical⟩
  · exact ⟨f, rfl, Or.inr (Or.inl hgrammatical)⟩

theorem expressible_of_parsePoints
    (h : parsePoints limits.parsing mode source = .ok e) : e.Expressible :=
  expressible_of_parseSource (parseSource_of_parsePoints h)

/-- The kinds of faults that inference finds. None has a place in the
source. -/
def Fault.OfTyping (f : Fault) : Prop :=
  f.location = none ∧ (f.cause.kind = .undefinedVariable ∨
    f.cause.kind = .typeMismatch ∨ f.cause.kind = .infiniteType)

/-- The numbers of an expression that can be written in a source can be
announced. -/
theorem Expr.Expressible.writable (h : e.Expressible) : e.Writable := by
  intro n hn
  obtain ⟨hnonneg, hlen⟩ := h (.int n) hn
  exact Number.isShort_of_nonneg hnonneg hlen

/-- Without limits, what stops the inference of an expression of a source
is a fault that it has found. -/
theorem ofTyping_inferPruned (he : e.Expressible) :
    Ends (inferPruned e.depth [] e) {} (fun _ _ => True) fun halt _ =>
      ∃ f, halt = .fault f ∧ f.OfTyping := by
  have hexcuses : Excuses e.depth e fun halt =>
      ∃ f, halt = .fault f ∧ f.OfTyping := by
    refine ⟨⟨?_, ?_⟩, ?_, ?_⟩
    · exact fun hlt => absurd hlt (Nat.lt_irrefl _)
    · exact fun hlong => absurd he.writable hlong
    · exact fun hin => absurd (he .hole hin) id
    · exact fun _ _ => ⟨_, rfl, rfl, Or.inl rfl⟩
  rw [inferPruned, ends_bind]
  refine (ends_analyze (wellFormed_of_empty rfl) (by simp [Scope.Within])
    hexcuses ?_).mono (fun _ _ _ => trivial) fun _ _ h => h
  intro clash s node hjustified
  cases clash with
  | mismatch => exact ⟨_, rfl, rfl, Or.inr (Or.inl rfl)⟩
  | infinite => exact ⟨_, rfl, rfl, Or.inr (Or.inr rfl)⟩
  | rebound | endless => exact hjustified.elim

/-- From the start, an inference is the one without limits, cut
short. -/
theorem curbed_from_start (limits : Limits) (e : Expr) :
    Traced.Curbed (inferWithin limits [] e) (inferPruned e.depth [] e) {} := by
  have hscope : Scope.Within ({} : Tracer).store.size [] := by
    simp [Scope.Within]
  exact curbed_free (wellFormed_of_empty rfl) hscope limits e

/-- Under any limits it is such a fault, or a limit. -/
theorem ofTyping_inferWithin (he : e.Expressible) (limits : Limits) :
    Ends (inferWithin limits [] e) {} (fun _ _ => True) fun halt _ =>
      halt = .tooDeep ∨ ∃ f, halt = .fault f ∧ f.OfTyping := by
  rcases curbed_from_start limits e with heq | ⟨t₁, hstop, -⟩
  · unfold Ends
    rw [heq]
    exact (ofTyping_inferPruned he).mono (fun _ _ _ => trivial)
      fun _ _ h => Or.inr h
  · unfold Ends
    rw [hstop]
    exact Or.inl rfl

/-- What stops inference is a fault, and none of the source. -/
theorem atStage_of_inferWithin (he : e.Expressible)
    (h : inferWithin limits [] e {} = .error halt t) :
    ∃ fault, halt.atStage "infer" (some (nodeName 0)) = .ok fault ∧
      ¬ fault.diagnostic.OfSource ∧
      fault.diagnostic.kind ≠ .unknownExpression ∧
      (halt ≠ .tooDeep → fault.cause.kind ≠ .nestingTooDeep) := by
  unfold Diagnostic.OfSource
  rcases (ofTyping_inferWithin he limits).of_error h with
    rfl | ⟨f, rfl, -, hkind⟩
  · refine ⟨_, rfl, ?_, ?_, fun hne => absurd rfl hne⟩
    · have hne : Points.ofString "infer" ≠ .ofString "parse" := by decide
      simp [Fault.diagnostic, Cause.kind, Cause.details, hne]
    · simp [Fault.diagnostic, Cause.kind]
  · refine ⟨f, rfl, ?_⟩
    rcases hkind with hkind | hkind | hkind <;>
      simp [Fault.diagnostic, hkind]

/-- The events of an inference are none of an error. -/
theorem Tracer.Extends.category_ne_error (h : ({} : Tracer).Extends t) :
    ∀ ev ∈ t.events.toList, ev.category ≠ .error := by
  obtain ⟨later, heq, hlater⟩ := h
  rw [heq]
  exact hlater

/-- A script starts by entering the root. -/
theorem Expr.exists_script_eq (limit : Nat) (scope : Scope) (k : Nat)
    (e : Expr) (next : Ty → Script) :
    ∃ rest, e.script limit scope k next = .entered limit k e rest := by
  cases e with
  | _ => exact ⟨_, rfl⟩

/-- An inference that gives a type has told of the root first. -/
theorem rootEvent_inferPruned (limit : Nat) (e : Expr) :
    Ends (inferPruned limit [] e) {}
      (fun _ t => ∃ rest, t.events.toList = rootEvent e :: rest)
      fun _ _ => True := by
  obtain ⟨rest, hscript⟩ := e.exists_script_eq limit [] 0 .give
  rw [inferPruned, inferExpr, analyze, hscript, ends_bind]
  apply Script.entered_cases (P := fun script => Ends script.run {} _ _)
  · exact fun _ => trivial
  · exact fun _ => trivial
  · intro label _ hlabel
    obtain rfl := Expr.eq_label hlabel
    refine (Script.tells_runBy rest (fun _ => Conduct.telling_free)
      (({} : Tracer).note (.enter e.label) (some (nodeName 0)))).mono ?_
        fun _ _ _ => trivial
    rintro a t ⟨later, heq, -⟩
    exact ⟨later, heq⟩

-- =============================================================== runs

theorem run_of_parse_error
    (hparse : parsePoints limits.parsing mode source = .error halt)
    (hfault : halt.atStage "parse" none = .ok fault) :
    run limits mode source = .ok (.failed source none fault {}) := by
  unfold run runTraced
  rw [hparse]
  simp only [hfault]
  rfl

theorem run_of_infer_error
    (hparse : parsePoints limits.parsing mode source = .ok e)
    (hinfer : inferWithin limits [] e {} = .error halt t)
    (hfault : halt.atStage "infer" (some (nodeName 0)) = .ok fault) :
    run limits mode source = if t.store.canSnapshot limits.closing
      then .ok (.failed source (some e) fault t) else .error .tooDeep := by
  unfold run runTraced
  rw [hparse]
  simp only [hinfer, hfault]
  show (Outcome.closed limits t _).map Prod.fst = _
  unfold Outcome.closed
  split <;> rfl

theorem run_of_infer_ok
    (hparse : parsePoints limits.parsing mode source = .ok e)
    (hinfer : inferWithin limits [] e {} = .ok type t) :
    run limits mode source = if t.store.canSnapshot limits.closing
      then .ok (.succeeded source e type t) else .error .tooDeep := by
  unfold run runTraced
  rw [hparse]
  simp only [hinfer]
  unfold Outcome.closed
  split <;> rfl

/-- The source is parsed, and the variables that inference leaves cannot
be shown when the run is closed. -/
def Unclosed (limits : Limits) (mode : Mode) (source : Points) : Prop :=
  ∃ e, parsePoints limits.parsing mode source = .ok e ∧
    (endState (inferWithin limits [] e {})).store.canSnapshot limits.closing
      = false

/-- The outcome of a run, if it has one, has the source and its
expression and is well formed. -/
theorem wellFormed_run (hrun : run limits mode source = .ok o) :
    o.source = source ∧
      o.ast = (parsePoints limits.parsing mode source).toOption ∧
      o.WellFormed := by
  cases hparse : parsePoints limits.parsing mode source with
  | error halt =>
      obtain ⟨fault, hfault, hsource⟩ := atStage_of_parsePoints hparse
      rw [run_of_parse_error hparse hfault] at hrun
      cases hrun
      refine ⟨rfl, rfl, wellFormed_failed ?_ ?_ ?_ fun _ => rfl⟩
      · simp [hsource]
      · rcases hsource with h | h | h <;> simp [h]
      · simp
  | ok e =>
      have htells : Ends (inferWithin limits [] e) {} _ _ :=
        tells_inferWithin limits [] e {}
      cases hinfer : inferWithin limits [] e {} with
      | ok type t =>
          rw [run_of_infer_ok hparse hinfer] at hrun
          split at hrun
          · cases hrun
            -- a type that is given is given without limits too
            rcases curbed_from_start limits e with heq | ⟨t₁, hstop, -⟩
            · obtain ⟨rest, hrest⟩ := (rootEvent_inferPruned e.depth e).of_ok
                (heq.symm.trans hinfer)
              exact ⟨rfl, rfl, wellFormed_succeeded hrest
                (htells.of_ok hinfer).category_ne_error⟩
            · rw [hinfer] at hstop
              cases hstop
          · cases hrun
      | error halt t =>
          obtain ⟨fault, hfault, hsource, hknown, -⟩ := atStage_of_inferWithin
            (expressible_of_parsePoints hparse) hinfer
          rw [run_of_infer_error hparse hinfer hfault] at hrun
          split at hrun
          · cases hrun
            refine ⟨rfl, rfl, wellFormed_failed ?_ hknown
              (htells.of_error hinfer).category_ne_error ?_⟩
            · simp [hsource]
            · simp
          · cases hrun

/-- A run has no outcome only if it cannot be closed. -/
theorem run_cases (limits : Limits) (mode : Mode) (source : Points) :
    (Unclosed limits mode source ∧
        run limits mode source = .error .tooDeep) ∨
      (¬ Unclosed limits mode source ∧
        ∃ o, run limits mode source = .ok o) := by
  unfold Unclosed
  cases hparse : parsePoints limits.parsing mode source with
  | error halt =>
      obtain ⟨fault, hfault, -⟩ := atStage_of_parsePoints hparse
      exact Or.inr ⟨by simp, _, run_of_parse_error hparse hfault⟩
  | ok e =>
      cases hinfer : inferWithin limits [] e {} with
      | ok type t =>
          have hrun := run_of_infer_ok hparse hinfer
          cases hclosed : t.store.canSnapshot limits.closing with
          | true =>
              rw [if_pos hclosed] at hrun
              exact Or.inr ⟨by simp [endState, hinfer, hclosed], _, hrun⟩
          | false =>
              rw [if_neg (by simp [hclosed])] at hrun
              exact Or.inl ⟨⟨e, rfl, by rw [hinfer]; exact hclosed⟩, hrun⟩
      | error halt t =>
          obtain ⟨fault, hfault, -⟩ := atStage_of_inferWithin
            (expressible_of_parsePoints hparse) hinfer
          have hrun := run_of_infer_error hparse hinfer hfault
          cases hclosed : t.store.canSnapshot limits.closing with
          | true =>
              rw [if_pos hclosed] at hrun
              exact Or.inr ⟨by simp [endState, hinfer, hclosed], _, hrun⟩
          | false =>
              rw [if_neg (by simp [hclosed])] at hrun
              exact Or.inl ⟨⟨e, rfl, by rw [hinfer]; exact hclosed⟩, hrun⟩

/-- Every run that can be closed returns, with the expression of its
source if there is one, and its outcome is well formed. A run cannot be
closed if the variables that inference leaves cannot be shown; then there
is no outcome, and nothing else ever escapes. -/
theorem run_wellFormed (limits : Limits) (mode : Mode) (source : Points) :
    (¬ Unclosed limits mode source → ∃ o : Outcome,
      run limits mode source = .ok o ∧ o.source = source ∧
        o.ast = (parsePoints limits.parsing mode source).toOption ∧
        o.WellFormed) ∧
    (Unclosed limits mode source → run limits mode source = .error .tooDeep) := by
  rcases run_cases limits mode source with
    ⟨hunclosed, hrun⟩ | ⟨hclosed, o, hrun⟩
  · exact ⟨fun hclosed => absurd hunclosed hclosed, fun _ => hrun⟩
  · exact ⟨fun _ => ⟨o, hrun, wellFormed_run hrun⟩,
      fun hunclosed => absurd hunclosed hclosed⟩

/-- So many levels for the parser and the walk, and so many for all work
on types. -/
def Limits.flat (depth levels : Nat) : Limits :=
  { parsing := depth, walking := depth, room := fun _ => levels
    showing := levels, closing := levels }

/-- `fun x -> fun y -> let a = x == [[y]] in y == [[1]]`. -/
def listsInLists : Expr :=
  .lambda "x" (.lambda "y" (.letIn "a"
    (.binary "==" (.var "x") (.cons (.cons (.var "y") .nil) .nil))
    (.binary "==" (.var "y") (.cons (.cons (.int 1) .nil) .nil))))

theorem parsePoints_listsInLists : parsePoints 9 {}
    "fun x -> fun y -> let a = x == [[y]] in y == [[1]]"
      = .ok listsInLists := by
  rw [parsePoints_ofString]
  cbv

/-- Five levels are enough to link the type of `y` to a list of lists,
and not to show the type of `x` from then on; so they are not enough to
close the run. Eight are. -/
theorem run_wellFormed_listsInLists :
    run (.flat 9 5) {} "fun x -> fun y -> let a = x == [[y]] in y == [[1]]"
      = .error .tooDeep ∧
    ∃ o, run (.flat 9 8) {}
        "fun x -> fun y -> let a = x == [[y]] in y == [[1]]" = .ok o ∧
      o.ast = some listsInLists ∧ o.WellFormed := by
  constructor
  · exact (run_wellFormed _ _ _).2
      ⟨_, parsePoints_listsInLists, by decide +kernel⟩
  · have hclosed : ¬ Unclosed (.flat 9 8) {}
        "fun x -> fun y -> let a = x == [[y]] in y == [[1]]" := by
      rintro ⟨e, hparse, hunclosed⟩
      cases parsePoints_listsInLists.symm.trans hparse
      exact absurd hunclosed (by decide +kernel)
    obtain ⟨o, hrun, -, hast, hwf⟩ := (run_wellFormed _ _ _).1 hclosed
    refine ⟨o, hrun, hast.trans ?_, hwf⟩
    show (parsePoints 9 {} _).toOption = _
    rw [parsePoints_listsInLists]
    rfl

end InferTrace
