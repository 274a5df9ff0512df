/-
Limits on nesting never change an answer; they only withhold it.

Two runs of one source under different limits are compared stage by
stage. Parsing under the lower limit gives up or does the same, and
inference under lower limits is cut short or does the same. So a run
under lower limits that has an outcome has that of the other, or it stops
while parsing (`StoppedParsing`) or while inferring (`StoppedInferring`):
then it says so, and what it has told up to there is the beginning of
what the other run tells (`run_curbed`).

A run without limits is what all runs from some limits on have in common.
There is one, since every source is parsed with enough levels, every
expression has a depth, and every store can be shown.
-/
import InferTrace.Proofs.Outcome

namespace InferTrace

open Text (Points)

variable {limits limits' : Limits} {mode : Mode} {source : Points} {e : Expr}
  {fault : Fault} {halt : Halt} {t : Tracer} {type : Ty} {o o' : Outcome}

-- ========================================================== stopped

/-- The report that a stage has gone too deep. -/
def tooDeepAt (stage : String) (node : Option String) : Diagnostic :=
  Fault.diagnostic { cause := .nestingTooDeep stage, node }

namespace Outcome

/-- The run was stopped by the limit. -/
def TooDeep (o : Outcome) : Prop :=
  ∃ d, o.error = some d ∧ d.kind = .nestingTooDeep

/-- What inference has told: all events but that of a failure. -/
def analysis (o : Outcome) : List Event :=
  o.trace.filter fun ev => ev.category ≠ .error

/-- The source was nested too deep to be parsed. -/
structure StoppedParsing (o : Outcome) : Prop where
  error : o.error = some (tooDeepAt "parse" none)
  ast : o.ast = none
  type : o.type = none
  trace : o.trace = [o.failure (tooDeepAt "parse" none)]

/-- The expression, which the other run has parsed as well, was nested
too deep for inference, which has told the beginning of what the other
run tells. -/
structure StoppedInferring (o other : Outcome) : Prop where
  error : o.error = some (tooDeepAt "infer" (some (nodeName 0)))
  parsed : o.ast.isSome
  ast : o.ast = other.ast
  type : o.type = none
  trace : ∃ before, before <+: other.analysis ∧
    o.trace = before ++ [o.failure (tooDeepAt "infer" (some (nodeName 0)))]

/-- An outcome that was stopped in the parser is withheld. -/
theorem StoppedParsing.tooDeep (h : o.StoppedParsing) : o.TooDeep :=
  ⟨_, h.error, rfl⟩

theorem analysis_failed {ast : Option Expr}
    (h : ∀ ev ∈ t.events.toList, ev.category ≠ .error) :
    (Outcome.failed source ast fault t).analysis = t.events.toList := by
  have hall : t.events.toList.filter (fun ev => ev.category ≠ .error)
      = t.events.toList := by
    rw [List.filter_eq_self]
    simpa using h
  simp only [analysis, failed, Tracer.record, Array.toList_push,
    List.filter_append, hall]
  simp

theorem analysis_succeeded
    (h : ∀ ev ∈ t.events.toList, ev.category ≠ .error) :
    (Outcome.succeeded source e type t).analysis = t.events.toList := by
  unfold analysis succeeded
  rw [List.filter_eq_self]
  simpa using h

theorem stoppedParsing_failed :
    (Outcome.failed source none { cause := .nestingTooDeep "parse" }
      {}).StoppedParsing :=
  ⟨rfl, rfl, rfl, rfl⟩

theorem stoppedInferring_failed (hast : o.ast = some e)
    (htrace : t.events.toList <+: o.analysis) :
    (Outcome.failed source (some e)
      { cause := .nestingTooDeep "infer", node := some (nodeName 0) }
      t).StoppedInferring o := by
  refine ⟨rfl, rfl, hast.symm, rfl, t.events.toList, htrace, ?_⟩
  simp [Outcome.failed, Outcome.failure, Tracer.record, tooDeepAt]

end Outcome

-- =============================================================== runs

/-- What is closed is closed with the outcome at hand. -/
theorem eq_of_closed {room : Bool}
    (h : (if room then .ok o else .error .tooDeep : Except Escape Outcome)
      = .ok o') : room = true ∧ o = o' := by
  cases room with
  | true => exact ⟨rfl, Except.ok.inj h⟩
  | false => cases h

/-- Once the source is parsed, the outcome has the expression, and it
tells what inference has told, however that ends. -/
theorem analysis_run (hparse : parsePoints limits.parsing mode source = .ok e)
    (hrun : run limits mode source = .ok o) :
    o.ast = some e ∧
      o.analysis = (endState (inferWithin limits [] e {})).events.toList := by
  have htells : Ends (inferWithin limits [] e) {} _ _ :=
    tells_inferWithin limits [] e {}
  cases hinfer : inferWithin limits [] e {} with
  | ok type t =>
      rw [run_of_infer_ok hparse hinfer] at hrun
      obtain ⟨-, rfl⟩ := eq_of_closed hrun
      exact ⟨rfl, Outcome.analysis_succeeded
        (htells.of_ok hinfer).category_ne_error⟩
  | error halt t =>
      obtain ⟨fault, hfault, -⟩ := atStage_of_inferWithin
        (expressible_of_parsePoints hparse) hinfer
      rw [run_of_infer_error hparse hinfer hfault] at hrun
      obtain ⟨-, rfl⟩ := eq_of_closed hrun
      exact ⟨rfl, Outcome.analysis_failed
        (htells.of_error hinfer).category_ne_error⟩

/-- If inference is the same under higher limits, so is the outcome. -/
theorem run_of_inferWithin_eq (hle : limits ≤ limits')
    (hparse : parsePoints limits.parsing mode source = .ok e)
    (hparse' : parsePoints limits'.parsing mode source = .ok e)
    (hinfer : inferWithin limits [] e {} = inferWithin limits' [] e {})
    (hrun : run limits mode source = .ok o) :
    run limits' mode source = .ok o := by
  cases hend : inferWithin limits [] e {} with
  | ok type t =>
      rw [run_of_infer_ok hparse hend] at hrun
      obtain ⟨hroom, rfl⟩ := eq_of_closed hrun
      rw [run_of_infer_ok hparse' (hinfer.symm.trans hend),
        if_pos (Store.canSnapshot_mono hle.closing hroom)]
  | error halt t =>
      obtain ⟨fault, hfault, -⟩ := atStage_of_inferWithin
        (expressible_of_parsePoints hparse) hend
      rw [run_of_infer_error hparse hend hfault] at hrun
      obtain ⟨hroom, rfl⟩ := eq_of_closed hrun
      rw [run_of_infer_error hparse' (hinfer.symm.trans hend) hfault,
        if_pos (Store.canSnapshot_mono hle.closing hroom)]

/-- An outcome under lower limits is that under higher ones, or the run
was stopped on the way. -/
theorem run_curbed (hle : limits ≤ limits')
    (hrun : run limits mode source = .ok o) :
    run limits' mode source = .ok o ∨ o.StoppedParsing ∨
      (o.TooDeep ∧ ∀ o', run limits' mode source = .ok o' →
        o.StoppedInferring o') := by
  rcases parsePoints_curbed hle.parsing mode source with hdeep | hsame
  · right
    left
    rw [run_of_parse_error hdeep rfl] at hrun
    cases hrun
    exact Outcome.stoppedParsing_failed
  cases hparse : parsePoints limits.parsing mode source with
  | error halt =>
      left
      obtain ⟨fault, hfault, -⟩ := atStage_of_parsePoints hparse
      rw [run_of_parse_error hparse hfault] at hrun
      rw [run_of_parse_error (hsame.symm.trans hparse) hfault, hrun]
  | ok e =>
      have hparse' := hsame.symm.trans hparse
      rcases curbed_inferWithin hle [] e {} with heq | ⟨t₁, hstop, hends⟩
      · exact Or.inl (run_of_inferWithin_eq hle hparse hparse' heq hrun)
      · right
        right
        rw [run_of_infer_error hparse hstop rfl] at hrun
        obtain ⟨-, rfl⟩ := eq_of_closed hrun
        refine ⟨⟨_, rfl, rfl⟩, fun o' hrun' => ?_⟩
        obtain ⟨hast, hanalysis⟩ := analysis_run hparse' hrun'
        apply Outcome.stoppedInferring_failed hast
        have hextends :
            t₁.Extends (endState (inferWithin limits' [] e {})) := by
          cases hend : inferWithin limits' [] e {} with
          | ok type t => exact hends.of_ok hend
          | error halt t => exact hends.of_error hend
        obtain ⟨later, heq, -⟩ := hextends
        rw [hanalysis, heq]
        exact List.prefix_append _ _

-- ========================================================== no limits

theorem Outcome.not_tooDeep_failed {ast : Option Expr}
    (h : fault.cause.kind ≠ .nestingTooDeep) :
    ¬ (Outcome.failed source ast fault t).TooDeep := by
  intro hdeep
  obtain ⟨d, hd, hkind⟩ := hdeep
  cases hd
  exact h hkind

/-- Once the source is parsed, the limits are hit exactly if inference is
stopped by them. -/
theorem tooDeep_iff_of_run
    (hparse : parsePoints limits.parsing mode source = .ok e)
    (hrun : run limits mode source = .ok o) :
    o.TooDeep ↔ haltOf? (inferWithin limits [] e {}) = some .tooDeep := by
  cases hinfer : inferWithin limits [] e {} with
  | ok type t =>
      rw [run_of_infer_ok hparse hinfer] at hrun
      obtain ⟨-, rfl⟩ := eq_of_closed hrun
      simp [Outcome.TooDeep, Outcome.succeeded, haltOf?]
  | error halt t =>
      obtain ⟨fault, hfault, -, -, hkind⟩ := atStage_of_inferWithin
        (expressible_of_parsePoints hparse) hinfer
      rw [run_of_infer_error hparse hinfer hfault] at hrun
      obtain ⟨-, rfl⟩ := eq_of_closed hrun
      by_cases hdeep : halt = .tooDeep
      · subst hdeep
        cases hfault
        exact ⟨fun _ => rfl, fun _ => ⟨_, rfl, rfl⟩⟩
      · simp only [haltOf?, Option.some.injEq, hdeep, iff_false]
        exact Outcome.not_tooDeep_failed (hkind hdeep)

/-- Some limits are not hit. -/
theorem exists_run_not_tooDeep (mode : Mode) (source : Points) :
    ∃ limits o, run limits mode source = .ok o ∧ ¬ o.TooDeep := by
  obtain ⟨parsing, hne⟩ := exists_parsePoints_ne_tooDeep mode source
  cases hparse : parsePoints parsing mode source with
  | error halt =>
      rw [hparse] at hne
      rcases halt_of_parsePoints hparse with rfl | ⟨f, rfl, hkind⟩
      · exact absurd rfl hne
      · refine ⟨.flat parsing 0, _, run_of_parse_error hparse rfl, ?_⟩
        apply Outcome.not_tooDeep_failed
        rcases hkind with hkind | hkind <;> simp [hkind]
  | ok e =>
      have hstart : ({} : Tracer).store.WellFormed := wellFormed_of_empty rfl
      have hscope : Scope.Within ({} : Tracer).store.size [] := by
        simp [Scope.Within]
      obtain ⟨enough, henough⟩ := exists_inferWithin hstart hscope e.depth e
      obtain ⟨closing, hroom⟩ := (endState
        (inferPruned e.depth [] e {})).store.exists_canSnapshot
      let limits : Limits :=
        { parsing, walking := e.depth, room := fun _ => enough
          showing := enough, closing }
      have hsame : inferWithin limits [] e {} = inferPruned e.depth [] e {} :=
        henough limits rfl (fun _ => Nat.le_refl _) (Nat.le_refl _)
      rcases run_cases limits mode source with
        ⟨⟨e', hparse', hunclosed⟩, -⟩ | ⟨-, o, hrun⟩
      · cases hparse.symm.trans hparse'
        rw [hsame, hroom] at hunclosed
        cases hunclosed
      · refine ⟨limits, o, hrun, fun hdeep => ?_⟩
        rw [tooDeep_iff_of_run hparse hrun, hsame] at hdeep
        exact haltOf?_ne (inferPruned_ne_tooDeep hstart hscope
          (Nat.le_refl _)) hdeep

/-- Limits on nesting never change an answer. From some limits on all
runs of a source have one outcome, in which no limit is hit. Under any
limits a run has that outcome, or it is stopped while parsing or while
inferring, or it has none: that is so exactly if it cannot be closed. An
answer that is not withheld stays the same under all higher limits. -/
theorem run_limited (mode : Mode) (source : Points) :
    ∃ free : Outcome, ¬ free.TooDeep ∧
      (∃ ample : Limits, ∀ limits, ample ≤ limits →
        run limits mode source = .ok free) ∧
      ∀ limits : Limits,
        (Unclosed limits mode source ∧
          run limits mode source = .error .tooDeep) ∨
        (¬ Unclosed limits mode source ∧
          ∃ o, run limits mode source = .ok o ∧
            (o = free ∨ o.StoppedParsing ∨ o.StoppedInferring free) ∧
            (¬ o.TooDeep → ∀ limits', limits ≤ limits' →
              run limits' mode source = .ok o)) := by
  -- an answer that is not withheld is that of all higher limits
  have hstays : ∀ limits o, run limits mode source = .ok o → ¬ o.TooDeep →
      ∀ limits', limits ≤ limits' → run limits' mode source = .ok o := by
    intro limits o hrun hfree limits' hle
    rcases run_curbed hle hrun with hsame | hstopped | ⟨hdeep, -⟩
    · exact hsame
    · exact absurd hstopped.tooDeep hfree
    · exact absurd hdeep hfree
  obtain ⟨ample, free, hfree, hnot⟩ := exists_run_not_tooDeep mode source
  refine ⟨free, hnot, ⟨ample, hstays ample free hfree hnot⟩, fun limits => ?_⟩
  refine (run_cases limits mode source).imp_right ?_
  rintro ⟨hclosed, o, hrun⟩
  refine ⟨hclosed, o, hrun, ?_, hstays limits o hrun⟩
  -- the higher ones of the two limits are ample
  have hmax := hstays ample free hfree hnot (max limits ample)
    (Limits.le_max_right ..)
  rcases run_curbed (Limits.le_max_left ..) hrun with
    hsame | hstopped | ⟨-, hstopped⟩
  · exact Or.inl (Except.ok.inj (hsame.symm.trans hmax))
  · exact Or.inr (Or.inl hstopped)
  · exact Or.inr (Or.inr (hstopped free hmax))

/-- For lists in lists, five levels are not enough to close the run, with
six inference is stopped, and from eight on there is an answer. -/
theorem run_limited_listsInLists : ∃ free o : Outcome,
    run (.flat 9 5) {} "fun x -> fun y -> let a = x == [[y]] in y == [[1]]"
      = .error .tooDeep ∧
    run (.flat 9 6) {} "fun x -> fun y -> let a = x == [[y]] in y == [[1]]"
      = .ok o ∧ o.StoppedInferring free ∧
    ∀ limits, .flat 9 8 ≤ limits →
      run limits {} "fun x -> fun y -> let a = x == [[y]] in y == [[1]]"
        = .ok free := by
  have hparse := parsePoints_listsInLists
  generalize hsource : (Points.ofString
    "fun x -> fun y -> let a = x == [[y]] in y == [[1]]") = source
    at hparse ⊢
  have hclosed : ∀ levels, (endState (inferWithin (.flat 9 levels) []
      listsInLists {})).store.canSnapshot levels = true →
        ¬ Unclosed (.flat 9 levels) {} source := by
    rintro levels hroom ⟨e, hparse', hunclosed⟩
    cases hparse.symm.trans hparse'
    rw [show (Limits.flat 9 levels).closing = levels from rfl, hroom]
      at hunclosed
    cases hunclosed
  obtain ⟨free, hnot, ⟨ample, hample⟩, hlimited⟩ := run_limited {} source
  rcases hlimited (.flat 9 5) with ⟨-, h₅⟩ | ⟨h, -⟩
  swap
  · exact absurd ⟨_, hparse, by decide +kernel⟩ h
  rcases hlimited (.flat 9 6) with ⟨h, -⟩ | ⟨-, o₆, h₆, hcases, -⟩
  · exact absurd h (hclosed 6 (by decide +kernel))
  rcases hlimited (.flat 9 8) with ⟨h, -⟩ | ⟨-, o₈, h₈, -, hstays⟩
  · exact absurd h (hclosed 8 (by decide +kernel))
  have hdeep : o₆.TooDeep :=
    (tooDeep_iff_of_run hparse h₆).2 (by decide +kernel)
  have hanswer := hstays fun h =>
    absurd ((tooDeep_iff_of_run hparse h₈).1 h) (by decide +kernel)
  have hfree : o₈ = free := Except.ok.inj
    ((hanswer _ (Limits.le_max_left _ ample)).symm.trans
      (hample _ (Limits.le_max_right _ ample)))
  refine ⟨free, o₆, h₅, h₆, ?_, hfree ▸ hanswer⟩
  rcases hcases with rfl | hstopped | hstopped
  · exact absurd hdeep hnot
  · have hast := (wellFormed_run h₆).2.1
    rw [hstopped.ast, show (Limits.flat 9 6).parsing = 9 from rfl, hparse]
      at hast
    cases hast
  · exact hstopped

end InferTrace
