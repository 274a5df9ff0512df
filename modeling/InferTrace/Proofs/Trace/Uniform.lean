/-
Inference is the same wherever it starts.

A script that is run from a tracer is handed variables numbered on from
those of the tracer, and never looks below. So one account tells what it
does from all tracers (`Script.exists_account`): by induction on the
script, with one case for each kind of step. The account of the first
steps is a sketch, and each step adds to it what does not depend on the
tracer.

The walks over an expression from different tracers are one script with
its variables numbered on (`follows_script`), and so have one account
(`exists_account`).
-/
import InferTrace.Proofs.History
import InferTrace.Proofs.Trace.Account

namespace InferTrace

variable {S : Sketch} {a b : Ty}

-- ============================================================== steps

/-- Solving comes to the same links and the same end on top of every
tracer, and to some end from a store without cycles. -/
theorem Sketch.unify_above (hS : S.store.WellFormed)
    (ha : a.Within S.store.size) (hb : b.Within S.store.size)
    (reason : String) (node : Option String) :
    (∃ S' : Sketch, S.Grows S' ∧ Solved a b S.store S'.store ∧
        ∀ t : Tracer, t.store.WellFormed →
          Traced.unify (a.shift t.store.size) (b.shift t.store.size) reason
            node (S.above t) = .ok () (S'.above t)) ∨
      ∃ (failure : Failure) (S' : Sketch), S.Grows S' ∧
        ∀ t : Tracer, t.store.WellFormed →
          Traced.unify (a.shift t.store.size) (b.shift t.store.size) reason
            node (S.above t)
              = .error (failure.halt t.store.nameAbove) (S'.above t) := by
  let start : Solver := { store := S.store }
  have hends : Ends (unify a b reason) start _ _ := ends_unify hS ha hb
  have hmoves : Ends (unify a b reason) start _ _ :=
    Solve.moves_unifyWithin (S.store.fuelFor a b) a b reason start hS ha hb
  have hlifts : ∀ r : Store, Ends (unify a b reason) start _ _ :=
    fun r => lifts_unify (r := r) a b reason start
  have hstart : ∀ t : Tracer,
      { store := (S.above t).store } = start.above t.store := by
    intro t
    unfold Solver.above
    rw [Array.map_empty]
    rfl
  have hgrows : ∀ s : Solver, start.Moves s → S.Grows (S.absorb s node) ∧
      ∀ b ∈ s.bonds, b.store.WellFormed := by
    intro s hs
    exact ⟨⟨List.prefix_append .., hs.grows.1⟩,
      hs.wellFormed_bonds hS fun b hb => absurd hb (Array.not_mem_empty b)⟩
  cases hrun : unify a b reason start with
  | ok u s =>
      obtain ⟨hg, hbonds⟩ := hgrows s (hmoves.of_ok hrun)
      refine Or.inl ⟨_, hg, hends.of_ok hrun, fun t ht => ?_⟩
      have habove : unify (a.shift t.store.size) (b.shift t.store.size) reason
          (start.above t.store) = .ok () (s.above t.store) :=
        (hlifts t.store).of_ok hrun
      unfold Traced.unify Traced.solve
      rw [hstart, habove]
      exact congrArg (EStateM.Result.ok ()) (Sketch.absorb_above ht hbonds)
  | error clash s =>
      obtain ⟨hg, hbonds⟩ := hgrows s (hmoves.of_error hrun)
      have hjustified := (hends.of_error hrun).justified
      refine Or.inr ⟨clash.failure s.store node, _, hg, fun t ht => ?_⟩
      have hne : clash ≠ .endless := by
        intro h
        rw [h] at hjustified
        exact hjustified
      have habove : unify (a.shift t.store.size) (b.shift t.store.size)
          reason (start.above t.store)
            = .error (clash.shift t.store.size) (s.above t.store) :=
        (hlifts t.store).of_error hrun hne
      unfold Traced.unify Traced.solve
      rw [hstart, habove]
      refine congrArg₂ EStateM.Result.error ?_ (Sketch.absorb_above ht hbonds)
      exact Clash.halt_above ht (hg.store.wellFormed hS) hjustified

/-- To follow the links of a type is the same on top of every tracer. -/
theorem Sketch.prune_above (hS : S.store.WellFormed) (a : Ty)
    (t : Tracer) :
    Traced.prune (a.shift t.store.size) (S.above t)
      = .ok ((S.store.prune a).1.shift t.store.size)
          ({ S with store := (S.store.prune a).2 }.above t) := by
  have hprune : (S.above t).store.prune (a.shift t.store.size) = _ :=
    Store.prune_above hS.acyclic a
  show EStateM.Result.ok ((S.above t).store.prune (a.shift _)).1
    (Tracer.mk ((S.above t).store.prune (a.shift _)).2 _ _) = _
  rw [hprune]
  rfl

theorem Sketch.fresh_above (S : Sketch) (t : Tracer) :
    Traced.fresh (S.above t)
      = .ok (t.store.size + S.store.size)
          ({ S with store := S.store.fresh.2 }.above t) := by
  have hfresh : (S.above t).store.fresh = _ := Store.fresh_above
  show EStateM.Result.ok (S.above t).store.fresh.1
    (Tracer.mk (S.above t).store.fresh.2 _ _) = _
  rw [hfresh]
  rfl

-- ======================================================== one account

/-- The halt is the same whatever variables are called. -/
def Halt.Nameless (h : Halt) : Prop :=
  ∃ failure : Failure, ∀ name, failure.halt name = h

/-- Run on top of a sketch, a script that is ready has one account for
all tracers below. -/
theorem Script.exists_account : ∀ {script : Script} {S : Sketch},
    script.Ready S.store → script.Yields (fun _ => True) Halt.Nameless →
      ∃ account : Account, S.Grows account.toSketch ∧
        ∀ (t : Tracer) (script' : Script), t.store.WellFormed →
          Follows t.store.size False script script' →
            script'.run (S.above t) = account.above t := by
  intro script
  induction script with
  | give a =>
      intro S _ _
      refine ⟨⟨S, .ok a⟩, .refl S, fun t script' _ hfollows => ?_⟩
      cases hfollows
      rfl
  | halt h =>
      intro S _ hyields
      obtain ⟨failure, hfailure⟩ := hyields
      refine ⟨⟨S, .error failure⟩, .refl S, fun t script' _ hfollows => ?_⟩
      cases hfollows with
      | stop hcut => exact hcut.elim
      | halt =>
          show EStateM.Result.error h (S.above t)
            = .error (failure.halt t.store.nameAbove) (S.above t)
          rw [hfailure]
  | note m node rest ih =>
      intro S hready hyields
      obtain ⟨account, hgrows, haccount⟩ := ih
        (S := S.note (m.map S.store.tree) node) hready.note hyields
      refine ⟨account, (S.grows_note _ node).trans hgrows,
        fun t script' ht hfollows => ?_⟩
      cases hfollows with
      | note _ hrest =>
          rw [← haccount t _ ht hrest,
            ← Sketch.note_above ht hready.wellFormed]
          rfl
  | fresh rest ih =>
      intro S hready hyields
      obtain ⟨account, hgrows, haccount⟩ := ih _
        (S := { S with store := S.store.fresh.2 }) hready.fresh (hyields _)
      have hfresh : S.Grows { S with store := S.store.fresh.2 } :=
        ⟨List.prefix_rfl, Store.Step.fresh.grows⟩
      refine ⟨account, hfresh.trans hgrows,
        fun t script' ht hfollows => ?_⟩
      cases hfollows with
      | fresh hrest =>
          rw [run_fresh, bind_of_ok (S.fresh_above t)]
          exact haccount t _ ht (hrest _)
  | unify a b reason node rest ih =>
      intro S hready hyields
      rcases Sketch.unify_above hready.wellFormed hready.fits.1
        hready.fits.2.1 reason node with
        ⟨S', hg, hsolved, hrun⟩ | ⟨failure, S', hg, hrun⟩
      · obtain ⟨account, hgrows, haccount⟩ :=
          ih (hready.solved hsolved) hyields
        refine ⟨account, hg.trans hgrows, fun t script' ht hfollows => ?_⟩
        cases hfollows with
        | unify _ _ hrest =>
            rw [run_unify, bind_of_ok (hrun t ht)]
            exact haccount t _ ht hrest
      · refine ⟨⟨S', .error failure⟩, hg, fun t script' ht hfollows => ?_⟩
        cases hfollows with
        | unify _ _ hrest =>
            rw [run_unify, bind_of_error (hrun t ht)]
            rfl

/-- An inference without a scope has one account for all tracers. -/
theorem exists_account (limit : Nat) (e : Expr) :
    ∃ account : Account, account.store.WellFormed ∧
      ∀ t : Tracer, t.store.WellFormed →
        inferPruned limit [] e t = account.above t := by
  have hstart : ({} : Sketch).store.WellFormed := wellFormed_of_empty rfl
  have hexcuses : Excuses limit e Halt.Nameless := by
    refine ⟨⟨fun _ => ⟨.tooDeep, ?_⟩, fun _ => ⟨.tooLong, ?_⟩⟩,
      fun _ node => ⟨.unknown Expr.hole.kind node, ?_⟩,
      fun x node => ⟨.undefined x node, ?_⟩⟩
    · exact fun _ => rfl
    · exact fun _ => rfl
    · exact fun _ => rfl
    · exact fun _ => rfl
  have hyields := yields_script e limit [] 0 .give (fun _ => True) _ hexcuses
    fun _ _ _ => trivial
  obtain ⟨⟨S, answer⟩, hgrows, haccount⟩ := Script.exists_account
    (S := {}) (ready_script hstart (by simp [Scope.Within])) hyields
  have hS : S.store.WellFormed := hgrows.store.wellFormed hstart
  have hrun : ∀ t : Tracer, t.store.WellFormed →
      inferExpr limit [] e t = Account.above ⟨S, answer⟩ t := by
    intro t ht
    have hfollows := follows_script t.store.size False e limit limit [] 0
      .give .give (Or.inl rfl) .give
    have h := haccount t _ ht hfollows
    rw [Sketch.above_empty] at h
    exact h
  cases answer with
  | error failure =>
      refine ⟨⟨S, .error failure⟩, hS, fun t ht => ?_⟩
      exact bind_of_error (hrun t ht)
  | ok a =>
      refine ⟨⟨{ S with store := (S.store.prune a).2 },
        .ok (S.store.prune a).1⟩, ?_, fun t ht => ?_⟩
      · have hsh := hS.acyclic.shortens_prune a
        exact (Store.Step.shorten hsh).wellFormed hS
      · exact (bind_of_ok (hrun t ht)).trans (Sketch.prune_above hS a t)

-- ======================================================= independence

/-- Inferences over one store do not interfere. There is one account of
inferring the type of `e` without a scope, and it tells what happens in
a fresh tracer and, on top of what is there, in every tracer that is
reached, whatever was asked before and however it ended: its variables
are numbered on from those that are there, the type and the texts of
events and errors speak of them by their names, and each snapshot comes
after that of the store before. The links of the earlier variables stay
as they are. -/
theorem inferPruned_independent (limit : Nat) (e : Expr) :
    ∃ account : Account, inferPruned limit [] e {} = account.above {} ∧
      ∀ (t : Tracer) (types : List Ty), Reached t types →
        inferPruned limit [] e t = account.above t ∧
        (∀ a, (account.store.above t.store).render (a.shift t.store.size)
          = (account.store.tree a).render t.store.nameAbove) ∧
        ∀ v, v < t.store.size →
          (account.store.above t.store).link? v = t.store.link? v := by
  obtain ⟨account, haccount, habove⟩ := exists_account limit e
  refine ⟨account, habove {} (wellFormed_of_empty rfl), fun t types h => ?_⟩
  have ht := h.wellFormed.1
  refine ⟨habove t ht, fun a => ?_, fun v hv => ?_⟩
  · exact Store.render_above ht haccount.acyclic a
  · exact Store.link?_above_left hv

/-- After an equation that linked `T0` to `Int` and failed, `fun x -> x
x` fails as it does in a fresh tracer, and `T0` keeps its link. -/
theorem inferPruned_independent_halfway :
    ∃ (t : Tracer) (account : Account), Reached t [.var 0] ∧
      inferPruned 3 [] (.lambda "x" (.app (.var "x") (.var "x"))) {}
        = account.above {} ∧
      inferPruned 3 [] (.lambda "x" (.app (.var "x") (.var "x"))) t
        = account.above t ∧
      (account.store.above t.store).link? 0 = some .int := by
  have hempty : Reached {} [] := .empty rfl
  have hfresh := Reached.answered .fresh 1 hempty trivial rfl
  have hhalted := Reached.halted
    (.unify (.fn (.var 0) (.listOf (.var 0))) (.fn .int .bool) "" none) 1
    hfresh ⟨by decide, by decide⟩ rfl
  obtain ⟨account, hstart, habove⟩ := inferPruned_independent 3
    (.lambda "x" (.app (.var "x") (.var "x")))
  obtain ⟨hrun, -, hlinks⟩ := habove _ _ hhalted
  exact ⟨_, account, hhalted, hstart, hrun, hlinks 0 (by decide)⟩

end InferTrace
