/-
What a store knows.

A variable's link may be written many times: each time its way is
shortened. So it is not the links that are written once, but what they
say. `Refines` compares two stores by that. The later one has the
variables of the earlier by the same names; what was linked is linked;
and everything is read as before, except that variables without a link
may have been replaced, each by one tree wherever it occurs.

A store that inference has grown refines the one before
(`Grows.refines`), and so does whatever is left by one that has failed.
A second link is never tried: there is a halt of its own for that, and
no inference comes to it (`analyze_halt_ne`), nor does any other use of a
store (`Operation.halt_ne`).
-/
import InferTrace.Proofs.History
import InferTrace.Proofs.Trace.Script

namespace InferTrace

-- ========================================================== knowledge

namespace Store

variable {s s' : Store} {v : Nat} {σ θ : Nat → Tree}

/-- The later store knows what the earlier one knows. -/
structure Refines (s s' : Store) : Prop where
  /-- No variable is lost, and each keeps its name. -/
  name : ∀ v < s.size, v < s'.size ∧ s'.name v = s.name v
  /-- What has a link keeps one. -/
  isBound : ∀ v, s.isBound v = true → s'.isBound v = true
  /-- One substitution of variables without a link turns every tree into
  what it is later. -/
  tree : ∃ σ : Nat → Tree,
    (∀ v, σ v ≠ .var v → v < s.size ∧ s.isBound v = false) ∧
      ∀ a : Ty, a.Within s.size → s'.tree a = (s.tree a).subst σ
  /-- What was the same is the same. -/
  tree_eq : ∀ a b, s.tree a = s.tree b → s'.tree a = s'.tree b

/-- A solution reads a variable as it reads the variable's tree, and
that has only variables of the store without a link. -/
theorem SolvedBy.eq_subst_of_free (hθ : s.SolvedBy θ) (h : s.WellFormed)
    (hσ : ∀ w < s.size, s.link? w = none → σ w = θ w) (hv : v < s.size) :
    θ v = (s.assign v).subst σ := by
  -- along links: the variables of a link are in the store, as `v` is
  induction v using h.acyclic.induction with
  | step v ih =>
      cases hl : s.link? v with
      | none =>
          rw [assign_of_none hl]
          exact (hσ v hv hl).symm
      | some a =>
          rw [h.acyclic.assign_of_link hl, hθ v a hl, Store.tree,
            Ty.subst_inst]
          exact Ty.inst_congr fun w hw => ih w ⟨a, hl, hw⟩ (h.closed v a hl w hw)

/-- The variables that growth may replace, by what they are later. -/
def later (s s' : Store) (v : Nat) : Tree :=
  if v < s.size ∧ s.isBound v = false then s'.assign v else .var v

theorem Grows.refines (h : s.Grows s') (hs : s.WellFormed) :
    s.Refines s' := by
  have hsolved : s.SolvedBy s'.assign :=
    h.solvedBy hs (h.wellFormed hs).acyclic.solvedBy_assign
  refine ⟨fun v hv => ⟨Nat.lt_of_lt_of_le hv h.size_le, ?_⟩,
    fun v => h.isBound, ⟨s.later s', fun v hv => ?_, fun a ha => ?_⟩, ?_⟩
  · unfold Store.name
    rw [h.stem]
  · by_contra hnot
    exact hv (if_neg hnot)
  · have hlater : ∀ w < s.size, s.link? w = none →
        s.later s' w = s'.assign w :=
      fun w hw hl => if_pos ⟨hw, isBound_eq_false_iff.2 hl⟩
    rw [Store.tree, Store.tree, Ty.subst_inst]
    exact Ty.inst_congr fun v hv =>
      hsolved.eq_subst_of_free hs hlater (ha v hv)
  · intro a b hab
    rw [h.tree_eq hs, h.tree_eq hs, hab]

end Store

-- ======================================================= second links

variable {t : Tracer} {limit : Nat}

theorem Refuted.halt_ne {a b : Ty} {s s' : Store} {clash : Clash}
    (h : Refuted a b s clash s') (node : Option String) (r : Rebound) :
    clash.halt s' node ≠ .rebound r := by
  obtain ⟨f, hf, -⟩ := h.justified.exists_fault node
  rw [hf]
  exact Halt.noConfusion

/-- No inference tries a second link. -/
theorem analyze_halt_ne {scope : Scope} {k : Nat} {e : Expr}
    (ht : t.store.WellFormed) (hscope : scope.Within t.store.size) :
    Ends (analyze limit scope k e) t (fun _ _ => True)
      fun halt _ => ∀ r, halt ≠ .rebound r := by
  have hspares : Spares limit e fun halt => ∀ r, halt ≠ .rebound r :=
    ⟨fun _ _ => Halt.noConfusion, fun _ _ => Halt.noConfusion⟩
  exact (ends_analyze_of_faults ht hscope hspares
    fun _ _ => Halt.noConfusion).mono (fun _ _ _ => trivial) fun _ _ h => h

/-- No operation tries a second link. -/
theorem Operation.halt_ne {op : Operation} (ht : t.store.WellFormed)
    (hop : op.Within t.store.size) :
    Ends (op.action limit) t (fun _ _ => True)
      fun halt _ => ∀ r, halt ≠ .rebound r := by
  cases op with
  | fresh => trivial
  | prune a =>
      rw [Operation.action, ends_bind]
      unfold Ends
      rw [Workbench.prune_eq ht.acyclic]
      trivial
  | resolve a => trivial
  | occurs v a =>
      obtain ⟨s, -, heq⟩ := Workbench.occurs_eq ht.acyclic v a
      rw [Operation.action, ends_bind]
      unfold Ends
      rw [heq]
      trivial
  | unify a b reason node =>
      rw [Operation.action, ends_bind]
      unfold Ends
      rw [Workbench.unify_eq ht.acyclic]
      refine (Traced.ends_unify ht hop.1 hop.2).mono ?_ ?_
      · exact fun _ _ _ => trivial
      · rintro halt t₁ ⟨clash, rfl, hrefuted⟩
        exact hrefuted.halt_ne _
  | infer r =>
      rw [Operation.action, ends_bind, Request.action]
      by_cases hpruned : r.pruned = true
      · rw [if_pos hpruned, inferPruned, ends_bind]
        exact (analyze_halt_ne ht hop).mono (fun _ _ _ => trivial)
          fun _ _ h => h
      · rw [if_neg hpruned]
        exact (analyze_halt_ne ht hop).mono (fun _ _ _ => trivial)
          fun _ _ h => h

-- =========================================================== one way

/-- Knowledge only grows. Whatever a store is asked, and whether it is
answered or not, what is left knows all that was known before, and no
variable is linked that has a link. -/
theorem operation_refines {op : Operation} (ht : t.store.WellFormed)
    (hop : op.Within t.store.size) :
    Ends (op.action limit) t (fun _ t' => t.store.Refines t'.store)
      fun halt t' => t.store.Refines t'.store ∧ ∀ r, halt ≠ .rebound r := by
  have hgrows : Builds (op.action limit) t _ := builds_operation ht hop
  have hhalt : Ends (op.action limit) t _ _ := Operation.halt_ne ht hop
  unfold Builds Ends at hgrows
  unfold Ends at hhalt ⊢
  cases hrun : op.action limit t with
  | ok answer t' =>
      rw [hrun] at hgrows
      exact hgrows.1.refines ht
  | error halt t' =>
      rw [hrun] at hgrows hhalt
      exact ⟨Store.Grows.refines hgrows ht, hhalt⟩

/-- The equation of `T0 -> [T0]` and `Int -> Bool`. -/
def halfwayEquation : Operation :=
  .unify (.fn (.var 0) (.listOf (.var 0))) (.fn .int .bool) "test" none

/-- It fails at the results, and what it has found out about `T0` from
the parameters stays. -/
theorem operation_refines_halfway : ∃ (halt : Halt) (t' : Tracer),
    halfwayEquation.action 1 { store := { links := #[none] } }
        = .error halt t' ∧
      t'.store.tree (.var 0) = .int ∧
      Store.Refines { links := #[none] } t'.store ∧
      ∀ r, halt ≠ .rebound r := by
  obtain ⟨halt, t', hrun, htree⟩ : ∃ (halt : Halt) (t' : Tracer),
      halfwayEquation.action 1 { store := { links := #[none] } }
        = .error halt t' ∧ t'.store.tree (.var 0) = .int :=
    ⟨_, _, rfl, rfl⟩
  have hends : Ends (halfwayEquation.action 1)
      { store := { links := #[none] } } _ _ :=
    operation_refines (by decide) ⟨by decide, by decide⟩
  exact ⟨halt, t', hrun, htree, hends.of_error hrun⟩

end InferTrace
