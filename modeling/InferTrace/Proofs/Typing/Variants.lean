/-
Expressions with the same typings are inferred alike.

Two expressions may be walked in different orders, with different
variables and different equations on the way, so that nothing of the one
store is found in the other. If they have the same typings, each of the
two answers is an instance of the other all the same: the answer for the
first is a typing of the second, and what is found for the second is
most general (`exists_subst_of_typings`).

Trees that are instances of each other, all by the same two
substitutions, differ in the names of their variables only
(`exists_perm_of_instances`): what is taken there and back has not
changed, so on the way it was a variable. The names that occur are
finitely many, so that their renaming is part of a permutation of all
names (`exists_perm_of_injOn`).

A `let` and a function applied to the value have the same typings
(`hasType_letIn_iff`). So a `let` is no more than that.
-/
import InferTrace.Proofs.Typing.Principal
import Mathlib.Data.Set.Finite.Lattice
import Mathlib.Data.Set.Finite.List
import Mathlib.Logic.Denumerable
import Mathlib.Logic.Equiv.Set

namespace InferTrace

-- ============================================================ renaming

namespace Tree

variable {τ : Tree} {θ ψ : Nat → Tree}

/-- A tree with other names for its variables. -/
def rename (ρ : Nat → Nat) (τ : Tree) : Tree := τ.subst fun v => .var (ρ v)

theorem subst_subst (τ : Tree) (θ ψ : Nat → Tree) :
    (τ.subst θ).subst ψ = τ.subst fun v => (θ v).subst ψ := by
  induction τ with
  | int | bool | base m | var v => rfl
  | list τ ih => simp only [subst, ih]
  | arrow π ρ ihp ihr => simp only [subst, ihp, ihr]

/-- Two substitutions do the same to a tree exactly if they do the same
to its variables. -/
theorem subst_eq_subst_iff :
    τ.subst θ = τ.subst ψ ↔ ∀ v ∈ τ.vars, θ v = ψ v := by
  induction τ with
  | int | bool | base m => simp [subst, vars]
  | var v => simp [subst, vars]
  | list τ ih => simp [subst, vars, ih]
  | arrow π ρ ihp ihr =>
      simp only [subst, vars, arrow.injEq, ihp, ihr, List.mem_append]
      constructor
      · intro h v hv
        rcases hv with hv | hv
        · exact h.1 v hv
        · exact h.2 v hv
      · intro h
        exact ⟨fun v hv => h v (Or.inl hv), fun v hv => h v (Or.inr hv)⟩

end Tree

/-- A one-to-one map of finitely many numbers is part of a permutation:
infinitely many are left on both sides. -/
theorem exists_perm_of_injOn {W : Set Nat} (hW : W.Finite) {f : Nat → Nat}
    (hf : Set.InjOn f W) : ∃ ρ : Equiv.Perm Nat, ∀ w ∈ W, ρ w = f w := by
  classical
  have hleft : Infinite ↑Wᶜ := hW.infinite_compl.to_subtype
  have hright : Infinite ↑(f '' W)ᶜ := (hW.image f).infinite_compl.to_subtype
  have : Denumerable ↑Wᶜ := Nat.Subtype.denumerable _
  have : Denumerable ↑(f '' W)ᶜ := Nat.Subtype.denumerable _
  let moved : W ≃ ↑(f '' W) := Equiv.Set.imageOfInjOn f W hf
  let others : ↑Wᶜ ≃ ↑(f '' W)ᶜ := Denumerable.equiv₂ _ _
  refine ⟨Equiv.subtypeCongr moved others, fun w hw => ?_⟩
  show Equiv.sumCompl _
    (Equiv.sumCongr moved others ((Equiv.sumCompl (· ∈ W)).symm w)) = f w
  rw [Equiv.sumCompl_symm_apply_of_pos hw]
  rfl

/-- Finitely many trees that are instances of each other, all by the same
two substitutions, differ in the names of their variables only. -/
theorem exists_perm_of_instances {ι : Type} [Finite ι] {σ τ : ι → Tree}
    {θ ψ : Nat → Tree} (hθ : ∀ i, τ i = (σ i).subst θ)
    (hψ : ∀ i, σ i = (τ i).subst ψ) :
    ∃ ρ : Equiv.Perm Nat, ∀ i, τ i = (σ i).rename ρ := by
  let W : Set Nat := ⋃ i, {w | w ∈ (σ i).vars}
  have hW : W.Finite := Set.finite_iUnion fun i => (σ i).vars.finite_toSet
  -- there and back, a variable is itself again
  have hback : ∀ w ∈ W, (θ w).subst ψ = .var w := by
    intro w hw
    obtain ⟨i, hi⟩ := Set.mem_iUnion.1 hw
    have hround : (σ i).subst (fun v => (θ v).subst ψ) = (σ i).subst .var := by
      rw [← Tree.subst_subst, ← hθ, ← hψ,
        Tree.subst_eq_self fun v _ => rfl]
    exact Tree.subst_eq_subst_iff.1 hround w hi
  have hvar : ∀ w ∈ W, ∃ u, θ w = .var u ∧ ψ u = .var w := by
    intro w hw
    exact Tree.exists_var_of_subst (hback w hw)
  choose! f hf using hvar
  have hinj : Set.InjOn f W := by
    intro w hw w' hw' heq
    have hψw := (hf w hw).2
    rw [heq, (hf w' hw').2] at hψw
    exact (Tree.var.inj hψw).symm
  obtain ⟨ρ, hρ⟩ := exists_perm_of_injOn hW hinj
  refine ⟨ρ, fun i => ?_⟩
  rw [hθ i, Tree.rename, Tree.subst_eq_subst_iff]
  intro w hw
  have hw : w ∈ W := Set.mem_iUnion.2 ⟨i, hw⟩
  rw [(hf w hw).1, hρ w hw]

-- ========================================================== inference

variable {t t₁ t₂ : Tracer} {a a' : Ty} {scope : Scope}
  {limit limit' k k' : Nat} {e e' : Expr}

/-- Within the limit, inference gives a type exactly if there is a typing
under some solution of the store, and every number can be announced. -/
theorem exists_analyze_iff (ht : t.store.WellFormed)
    (hscope : scope.Within t.store.size) (hdepth : e.depth ≤ limit) :
    (∃ a t', analyze limit scope k e t = .ok a t') ↔
      (∃ θ τ, t.store.SolvedBy θ ∧ HasType (scope.inst θ) e τ) ∧
        e.Writable := by
  constructor
  · intro hok
    obtain ⟨a, t', hrun⟩ := hok
    obtain ⟨hgrows, -, htyped⟩ :=
      (builds_analyze e limit scope k t ht hscope).of_ok hrun
    have hsolved := (hgrows.wellFormed ht).acyclic.solvedBy_assign
    have hspares : Spares limit e fun _ => True :=
      ⟨fun _ => trivial, fun _ => trivial⟩
    have hends := ends_analyze_of_faults (k := k) ht hscope hspares
      fun _ => trivial
    exact ⟨⟨_, _, hgrows.solvedBy ht hsolved, htyped _ hsolved⟩,
      (hends.of_ok hrun).2⟩
  · intro htyping
    obtain ⟨⟨θ, τ, hθ, hty⟩, hw⟩ := htyping
    have hmeets := meets_analyze (E := fun _ => False) k ht hθ hscope hty
      ⟨fun hlt => absurd hdepth (Nat.not_le_of_lt hlt), fun hlong => hlong hw⟩
    obtain ⟨a, t', hrun, -⟩ := hmeets.exists_ok
    exact ⟨a, t', hrun⟩

/-- An answer that is a typing of another expression is an instance of
the answer for that one, as is all that the store says. -/
theorem exists_subst_of_typings (ht : t.store.WellFormed)
    (hscope : scope.Within t.store.size)
    (htypes : ∀ Γ τ, HasType Γ e τ → HasType Γ e' τ)
    (hrun : analyze limit scope k e t = .ok a t₁)
    (hrun' : analyze limit' scope k' e' t = .ok a' t₂) :
    ∃ θ, t₁.store.tree a = (t₂.store.tree a').subst θ ∧
      ∀ v < t.store.size,
        t₁.store.tree (.var v) = (t₂.store.tree (.var v)).subst θ := by
  obtain ⟨hgrows, -, htyped⟩ :=
    (builds_analyze e limit scope k t ht hscope).of_ok hrun
  have hgrows' := ((builds_analyze e' limit' scope k' t ht hscope).of_ok hrun').1
  have hacyclic := (hgrows'.wellFormed ht).acyclic
  have hsolved := (hgrows.wellFormed ht).acyclic.solvedBy_assign
  have hty := htypes _ _ (htyped _ hsolved)
  have hspares : Spares limit' e' fun _ => True :=
    ⟨fun _ => trivial, fun _ => trivial⟩
  have hmeets := meets_analyze k' ht (hgrows.solvedBy ht hsolved) hscope hty
    hspares
  obtain ⟨θ, hcarries, hfound⟩ := hmeets.of_ok hrun'
  refine ⟨θ, ?_, fun v hv => ?_⟩
  · rw [← hcarries.solvedBy.inst_eq hacyclic]
    exact hfound.2.symm
  · rw [← hcarries.solvedBy.inst_eq hacyclic]
    exact (hcarries.agree v hv).symm

/-- Expressions with the same typings are given the same type, and leave
the same known of the variables that were there, up to the names of
variables. -/
theorem exists_perm_of_typings (ht : t.store.WellFormed)
    (hscope : scope.Within t.store.size)
    (htypes : ∀ Γ τ, HasType Γ e τ ↔ HasType Γ e' τ)
    (hrun : analyze limit scope k e t = .ok a t₁)
    (hrun' : analyze limit' scope k' e' t = .ok a' t₂) :
    ∃ ρ : Equiv.Perm Nat,
      t₂.store.tree a' = (t₁.store.tree a).rename ρ ∧
        ∀ v < t.store.size,
          t₂.store.tree (.var v) = (t₁.store.tree (.var v)).rename ρ := by
  obtain ⟨θ, htype, hvars⟩ := exists_subst_of_typings ht hscope
    (fun Γ τ => (htypes Γ τ).2) hrun' hrun
  obtain ⟨ψ, htype', hvars'⟩ := exists_subst_of_typings ht hscope
    (fun Γ τ => (htypes Γ τ).1) hrun hrun'
  -- the type found and the variables, as one family of trees
  let family (s : Store) (a : Ty) (i : Option (Fin t.store.size)) : Tree :=
    s.tree (i.elim a fun v => .var v)
  have hθ : ∀ i, family t₂.store a' i = (family t₁.store a i).subst θ := by
    intro i
    cases i with
    | none => exact htype
    | some v => exact hvars v v.isLt
  have hψ : ∀ i, family t₁.store a i = (family t₂.store a' i).subst ψ := by
    intro i
    cases i with
    | none => exact htype'
    | some v => exact hvars' v v.isLt
  obtain ⟨ρ, hρ⟩ := exists_perm_of_instances hθ hψ
  exact ⟨ρ, hρ none, fun v hv => hρ (some ⟨v, hv⟩)⟩

-- ================================================================ let

/-- A `let` has the typings of a function applied to the value. -/
theorem hasType_letIn_iff {Γ : Context} {x : String} {v b : Expr}
    {τ : Tree} :
    HasType Γ (.letIn x v b) τ ↔ HasType Γ (.app (.lambda x b) v) τ := by
  constructor
  · intro h
    cases h with
    | letIn hv hb => exact .app (.lambda hb) hv
  · intro h
    cases h with
    | app hf hv =>
        cases hf with
        | lambda hb => exact .letIn hv hb

/-- It has the same numbers as well. -/
theorem writable_letIn_iff {x : String} {v b : Expr} :
    (Expr.letIn x v b).Writable ↔ (Expr.app (.lambda x b) v).Writable := by
  unfold Expr.Writable
  simp [Expr.walk, or_comm]

/-- A `let` is an applied function. One can be inferred exactly if the
other can; and then the types found, together with what each variable
that was there stands for, are the same up to the names of variables
without a link. -/
theorem analyze_letIn_app (x : String) (v b : Expr)
    (ht : t.store.WellFormed) (hscope : scope.Within t.store.size)
    (hdepth : (Expr.app (.lambda x b) v).depth ≤ limit) :
    ((∃ a t', analyze limit scope k (.letIn x v b) t = .ok a t') ↔
        ∃ a t', analyze limit scope k (.app (.lambda x b) v) t
          = .ok a t') ∧
      ∀ a t₁ a' t₂, analyze limit scope k (.letIn x v b) t = .ok a t₁ →
        analyze limit scope k (.app (.lambda x b) v) t = .ok a' t₂ →
          ∃ ρ : Equiv.Perm Nat,
            t₂.store.tree a' = (t₁.store.tree a).rename ρ ∧
              ∀ w < t.store.size, t₂.store.tree (.var w)
                = (t₁.store.tree (.var w)).rename ρ := by
  have hdepth' : (Expr.letIn x v b).depth ≤ limit := by
    simp only [Expr.depth] at hdepth ⊢
    omega
  constructor
  · rw [exists_analyze_iff ht hscope hdepth,
      exists_analyze_iff ht hscope hdepth']
    simp only [hasType_letIn_iff, writable_letIn_iff]
  · intro a t₁ a' t₂ hrun hrun'
    exact exists_perm_of_typings ht hscope (fun _ _ => hasType_letIn_iff)
      hrun hrun'

/-- `(fun ys -> fun f -> f ys) (1 :: xs)`. -/
def appliedToList : Expr :=
  .app (.lambda "ys" (.lambda "f" (.app (.var "f") (.var "ys"))))
    (.cons (.int 1) (.var "xs"))

/-- The function is walked before the value, so the result of `f` is the
sixth variable with `let` and the seventh without. -/
theorem analyze_letIn_app_chained : ∃ t₁ t₂ : Tracer,
    analyze 10 [("xs", .var 3)] 0 applyToList { store := .chained }
        = .ok (.fn (.var 4) (.var 5)) t₁ ∧
      analyze 10 [("xs", .var 3)] 0 appliedToList { store := .chained }
        = .ok (.var 7) t₂ ∧
      ∃ ρ : Equiv.Perm Nat,
        t₂.store.tree (.var 7)
            = (t₁.store.tree (.fn (.var 4) (.var 5))).rename ρ ∧
          ∀ w < 4, t₂.store.tree (.var w)
            = (t₁.store.tree (.var w)).rename ρ := by
  have hscope : Scope.Within Store.chained.size [("xs", .var 3)] := by decide
  have hdepth : appliedToList.depth ≤ 10 := by decide
  have hvalue₁ : (analyze 10 [("xs", .var 3)] 0 applyToList).run'
      { store := .chained } = some (.fn (.var 4) (.var 5)) := by
    decide +kernel
  have hvalue₂ : (analyze 10 [("xs", .var 3)] 0 appliedToList).run'
      { store := .chained } = some (.var 7) := by
    decide +kernel
  obtain ⟨t₁, hrun₁⟩ := exists_of_run' hvalue₁
  obtain ⟨t₂, hrun₂⟩ := exists_of_run' hvalue₂
  have hboth := analyze_letIn_app (t := { store := .chained }) (k := 0) _ _ _
    (by decide) hscope hdepth
  exact ⟨t₁, t₂, hrun₁, hrun₂, hboth.2 _ t₁ _ t₂ hrun₁ hrun₂⟩

end InferTrace
