/-
Unification is idle exactly when there is nothing to do.

Types that are equal already need not be one and the same: their
constructors may have been made apart, and their variables may come to
their ends along different chains. Solving their equation goes down both
of them and may shorten the chains. But it links no variable and records
nothing.

The argument is about solutions and not about the way down. Types of one
tree are read alike by every solution, so their equation takes no
solution away. A new link would: it takes the freedom of a variable
(`Grows.isBound_eq`). And without a new link there is nothing to record
(`Moves.mem_bonds`). The other way round, a store without new links says
what it said before (`Grows.assign_eq`), so what it says of the two types
after solving, it said already.

A store that grows keeps equal what is equal. So an equation that has
been solved once stays solved, whatever is done to the store after that,
by inference or by hand, and whether it succeeds or fails (`Later`).
-/
import InferTrace.Proofs.History
import InferTrace.Proofs.Trace.Steps

namespace InferTrace

variable {t t' : Tracer} {a b : Ty} {reason : String}
  {node : Option String}

-- ==================================================== links and freedom

namespace Store

variable {s s' : Store}

/-- A variable without a link had none before. -/
theorem Grows.link?_eq_none (h : s.Grows s') {v : Nat}
    (hv : s'.link? v = none) : s.link? v = none := by
  rw [← isBound_eq_false_iff] at hv ⊢
  rw [← Bool.not_eq_true] at hv ⊢
  exact mt h.isBound hv

/-- A store that has grown and kept its solutions has no new link. -/
theorem Grows.isBound_eq (h : s.Grows s') (hs : s.WellFormed)
    (hkept : ∀ θ, s.SolvedBy θ → s'.SolvedBy θ) (v : Nat) :
    s'.isBound v = s.isBound v := by
  cases hb : s.isBound v with
  | true => exact h.isBound hb
  | false =>
      by_contra hnew
      have hacyclic := (h.wellFormed hs).acyclic
      -- what `s` says solves `s'`, and there the variable is itself
      have hread := (hkept _ hs.acyclic.solvedBy_assign).eq_subst_assign
        hacyclic v
      rw [assign_of_none (isBound_eq_false_iff.1 hb)] at hread
      obtain ⟨w, htree, hw⟩ := Tree.exists_var_of_subst hread.symm
      have hfree' : s'.link? w = none := by
        apply hacyclic.link?_of_mem_assign (v := v)
        rw [htree]
        exact List.mem_singleton.2 rfl
      rw [assign_of_none (h.link?_eq_none hfree')] at hw
      rw [Tree.var.inj hw] at hfree'
      exact hnew (isBound_eq_false_iff.2 hfree')

/-- A store that has grown without a new link says what it said. -/
theorem Grows.assign_eq (h : s.Grows s') (hs : s.WellFormed)
    (hbound : ∀ v, s'.isBound v = s.isBound v) : s'.assign = s.assign := by
  have hsolved := (h.wellFormed hs).acyclic.solvedBy_assign
  apply (h.solvedBy hs hsolved).eq_assign hs.acyclic
  intro v hv
  apply assign_of_none
  rw [← isBound_eq_false_iff, hbound]
  exact isBound_eq_false_iff.2 hv

end Store

/-- A solver keeps a record of a link only for a variable that it has
linked. -/
theorem Solver.Moves.mem_bonds {s s' : Solver} (h : s.Moves s') :
    ∀ b ∈ s'.bonds, b ∈ s.bonds ∨
      s.store.isBound b.var = false ∧ s'.store.isBound b.var = true := by
  induction h with
  | refl => exact fun b hb => Or.inl hb
  | @tail s₁ s₂ hmoves hstep ih =>
      have hmoves : s.Moves s₁ := hmoves
      have hold : ∀ b ∈ s₁.bonds, b ∈ s.bonds ∨
          s.store.isBound b.var = false ∧ s₂.store.isBound b.var = true := by
        intro b hb
        rcases ih b hb with hb | hnew
        · exact Or.inl hb
        · exact Or.inr ⟨hnew.1, hstep.grows.1.isBound hnew.2⟩
      cases hstep with
      | shorten hsh => exact hold
      | link b hv hfree _ _ hstore =>
          intro b' hb'
          rcases Array.mem_push.1 hb' with hb' | rfl
          · exact hold b' hb'
          · refine Or.inr ⟨?_, ?_⟩
            · exact Store.isBound_eq_false_iff.2
                (hmoves.grows.1.link?_eq_none hfree)
            · show b'.store.isBound b'.var = true
              unfold Store.isBound
              rw [hstore, Store.link?_setLink hv, if_pos rfl]
              rfl

-- ============================================================== idling

/-- The equation is solved, without an event and without a link. -/
def Idle (t : Tracer) (a b : Ty) (reason : String)
    (node : Option String) : Prop :=
  ∃ t', Traced.unify a b reason node t = .ok () t' ∧
    t'.events = t.events ∧ ∀ v, t'.store.isBound v = t.store.isBound v

/-- If there has been no new link, the types were equal already. -/
theorem Idle.tree_eq (h : Idle t a b reason node)
    (ht : t.store.WellFormed) (ha : a.Within t.store.size)
    (hb : b.Within t.store.size) : t.store.tree a = t.store.tree b := by
  obtain ⟨t', hrun, -, hbound⟩ := h
  have hsolved := (Traced.ends_unify ht ha hb).of_ok hrun
  have hacyclic := (hsolved.grows.wellFormed ht).acyclic
  have heq := ((hsolved.solvedBy_iff _).1 hacyclic.solvedBy_assign).2
  rw [hsolved.grows.assign_eq ht hbound] at heq
  exact heq

/-- Types that are equal already are left alone. -/
theorem idle_of_tree_eq (ht : t.store.WellFormed)
    (ha : a.Within t.store.size) (hb : b.Within t.store.size)
    (heq : t.store.tree a = t.store.tree b) : Idle t a b reason node := by
  let s : Solver := { store := t.store }
  have hall : ∀ θ, t.store.SolvedBy θ → a.inst θ = b.inst θ := by
    intro θ hθ
    rw [hθ.inst_eq ht.acyclic, heq, ← hθ.inst_eq ht.acyclic]
  have hends : Ends (unify a b reason) s _ _ := ends_unify ht ha hb
  cases hrun : unify a b reason s with
  | error clash s' =>
      have hassign := ht.acyclic.solvedBy_assign
      exact absurd (hall _ hassign) ((hends.of_error hrun).inst_ne _ hassign)
  | ok _ s' =>
      have hsolved := hends.of_ok hrun
      have hbound := hsolved.grows.isBound_eq ht fun θ hθ =>
        (hsolved.solvedBy_iff θ).2 ⟨hθ, hall θ hθ⟩
      have hmoves : s.Moves s' := (Solve.moves_unifyWithin _ a b reason s
        ht ha hb).of_ok hrun
      have hbonds : s'.bonds = #[] := by
        rw [Array.eq_empty_iff_forall_not_mem]
        intro bond hmem
        rcases hmoves.mem_bonds bond hmem with hmem | hnew
        · exact absurd hmem (Array.not_mem_empty bond)
        · rw [hbound, hnew.1] at hnew
          cases hnew.2
      refine ⟨t.absorb s' node, ?_, ?_, hbound⟩
      · unfold Traced.unify Traced.solve
        rw [hrun]
      · simp [Tracer.absorb, hbonds]

-- =========================================================== later on

/-- The tracer may come to be `t'`. Operations are asked for one after
another and are answered or halt, variables are linked by hand without
closing a circle, and whatever else is done leaves the store alone. -/
inductive Later (t : Tracer) : Tracer → Prop
  | now : Later t t
  | answered (op : Operation) (limit : Nat) {t₁ t₂ : Tracer}
      {answer : Option Ty} : Later t t₁ → op.Within t₁.store.size →
        op.action limit t₁ = .ok answer t₂ → Later t t₂
  | halted (op : Operation) (limit : Nat) {t₁ t₂ : Tracer} {halt : Halt} :
      Later t t₁ → op.Within t₁.store.size →
        op.action limit t₁ = .error halt t₂ → Later t t₂
  | linked (v : Nat) (a : Ty) {t₁ t₂ : Tracer} : Later t t₁ →
      v < t₁.store.size → a.Within t₁.store.size →
        Workbench.bind v a t₁ = .ok () t₂ → t₂.store.Acyclic → Later t t₂
  | aside {t₁ t₂ : Tracer} : Later t t₁ → t₂.store = t₁.store → Later t t₂

/-- A link made by hand is one that inference could have made, if it
closes no circle. -/
theorem step_of_bind {v : Nat} (ht : t.store.WellFormed)
    (hv : v < t.store.size) (ha : a.Within t.store.size)
    (hrun : Workbench.bind v a t = .ok () t') (ht' : t'.store.Acyclic) :
    t.store.Step t'.store := by
  have hget : (get : Traced Tracer) t = .ok t t := rfl
  unfold Workbench.bind at hrun
  rw [bind_of_ok hget] at hrun
  unfold Store.bind at hrun
  cases hl : t.store.link? v with
  | some old =>
      rw [hl] at hrun
      simp only at hrun
      rw [bind_of_ok (Workbench.render_eq ht.acyclic old)] at hrun
      cases hrun
  | none =>
      rw [hl] at hrun
      cases hrun
      exact .link hv hl ha (ht.acyclic.not_mem_vars_of_setLink hv hl ht')

/-- Whatever is done, the store has grown. -/
theorem Later.grows (h : Later t t') (ht : t.store.WellFormed) :
    t.store.Grows t'.store := by
  induction h with
  | now => exact .refl _
  | answered op limit _ hop hrun ih =>
      have hbuilds : Builds (op.action limit) _ _ :=
        builds_operation (ih.wellFormed ht) hop
      exact ih.trans (hbuilds.of_ok hrun).1
  | halted op limit _ hop hrun ih =>
      have hbuilds : Builds (op.action limit) _ _ :=
        builds_operation (ih.wellFormed ht) hop
      exact ih.trans (hbuilds.of_error hrun)
  | linked v a _ hv ha hrun hacyclic ih =>
      exact ih.trans
        (step_of_bind (ih.wellFormed ht) hv ha hrun hacyclic).grows
  | aside _ hstore ih =>
      rw [hstore]
      exact ih

/-- An equation that has been solved is solved without doing anything
from then on. -/
theorem idle_of_solved {t₁ t₂ : Tracer} (ht : t.store.WellFormed)
    (ha : a.Within t.store.size) (hb : b.Within t.store.size)
    (hsolved : Solved a b t.store t₁.store) (hlater : Later t₁ t₂) :
    Idle t₂ a b reason node := by
  have ht₁ := hsolved.grows.wellFormed ht
  have hgrows := hlater.grows ht₁
  have hsize : t.store.size ≤ t₂.store.size :=
    (hsolved.grows.trans hgrows).size_le
  have heq : t₁.store.tree a = t₁.store.tree b :=
    ((hsolved.solvedBy_iff _).1 ht₁.acyclic.solvedBy_assign).2
  apply idle_of_tree_eq (hgrows.wellFormed ht₁) (ha.mono hsize)
    (hb.mono hsize)
  rw [hgrows.tree_eq ht₁, hgrows.tree_eq ht₁, heq]

/-- Unification solves an equation without an event and without a link
exactly if the two types have the same tree. So it does nothing for a
type and itself, and nothing for an equation that has been solved before,
whatever has been done since. -/
theorem unify_idle_iff (ht : t.store.WellFormed)
    (ha : a.Within t.store.size) (hb : b.Within t.store.size)
    (reason : String) (node : Option String) :
    (Idle t a b reason node ↔ t.store.tree a = t.store.tree b) ∧
      Idle t a a reason node ∧
      ∀ t₁ t₂, Traced.unify a b reason node t = .ok () t₁ → Later t₁ t₂ →
        ∀ reason' node', Idle t₂ a b reason' node' := by
  refine ⟨⟨fun hidle => hidle.tree_eq ht ha hb, idle_of_tree_eq ht ha hb⟩,
    idle_of_tree_eq ht ha ha rfl, ?_⟩
  intro t₁ t₂ hrun hlater reason' node'
  have hsolved := (Traced.ends_unify ht ha hb).of_ok hrun
  exact idle_of_solved ht ha hb hsolved hlater

/-- The equation of `T0 -> Bool` and `Int -> Int`. -/
def halfwayResults : Operation :=
  .unify (.fn (.var 0) .bool) (.fn .int .int) "" none

/-- A variable at the end of whose chain there is a list of `T0`, and
another such list. And an equation with a failure after it, which has
linked `T0` before it failed. -/
theorem unify_idle_iff_chained :
    Idle { store := .chained } (.var 3) (.list 1 (.var 0)) "" none ∧
      ∃ (t₁ t₂ : Tracer) (halt : Halt),
        Traced.unify (.var 2) (.var 3) "" none { store := .chained }
            = .ok () t₁ ∧
          halfwayResults.action 1 t₁ = .error halt t₂ ∧
          t₂.store.tree (.var 2) = .list .int ∧
          Idle t₂ (.var 2) (.var 3) "again" none := by
  have hlist := unify_idle_iff (t := { store := .chained }) (a := .var 3)
    (b := .list 1 (.var 0)) (by decide) (by decide) (by decide) "" none
  have hvars := unify_idle_iff (t := { store := .chained }) (a := .var 2)
    (b := .var 3) (by decide) (by decide) (by decide) "" none
  obtain ⟨t₁, hrun, hsize, halt, t₂, hhalt, htree⟩ :
      ∃ t₁ : Tracer, Traced.unify (.var 2) (.var 3) "" none
          { store := .chained } = .ok () t₁ ∧ t₁.store.size = 4 ∧
        ∃ (halt : Halt) (t₂ : Tracer),
          halfwayResults.action 1 t₁ = .error halt t₂ ∧
            t₂.store.tree (.var 2) = .list .int :=
    ⟨_, rfl, rfl, _, _, rfl, rfl⟩
  have hop : halfwayResults.Within t₁.store.size := by
    rw [hsize]
    exact ⟨by decide, by decide⟩
  have hlater : Later t₁ t₂ := .halted halfwayResults 1 .now hop hhalt
  exact ⟨hlist.1.2 (by decide), t₁, t₂, halt, hrun, hhalt, htree,
    hvars.2.2 t₁ t₂ hrun hlater "again" none⟩

end InferTrace
