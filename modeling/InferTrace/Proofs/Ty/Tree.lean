/-
Types against trees: which variables a type has, and what reading it
under an assignment depends on.

A tree may hold variables of its own, so an assignment can be applied
to a tree as well (`Tree.subst`). Two readings in a row are one
(`Ty.subst_inst`), and a reading looks at the variables of the type
and at nothing else (`Ty.inst_congr`): an assignment may be changed
beyond them, which is how a fresh variable gets its meaning.

The occurs check rests on `Tree.size_lt_subst`: a tree that has a
variable strictly inside is larger, under every assignment, than what
the variable stands for, so no assignment of finite trees makes the
two equal.
-/
import InferTrace.Ty.Basic

namespace InferTrace

-- ======================================================== variables

namespace Ty

/-- The variables of a type from left to right, as often as they
occur. -/
def vars : Ty → List Nat
  | int | bool | base _ => []
  | var v => [v]
  | list _ t => t.vars
  | arrow _ p r => p.vars ++ r.vars

/-- Every variable of the type is one of the first `n`. -/
def Within (n : Nat) (t : Ty) : Prop := ∀ v ∈ t.vars, v < n

instance (n : Nat) (t : Ty) : Decidable (t.Within n) :=
  inferInstanceAs (Decidable (∀ v ∈ t.vars, v < n))

variable {n m : Nat} {t p r : Ty} {θ θ' : Nat → Tree}

theorem within_int : Ty.int.Within n := fun _ hv => nomatch hv

theorem within_bool : Ty.bool.Within n := fun _ hv => nomatch hv

theorem within_var {v : Nat} : (Ty.var v).Within n ↔ v < n := by
  simp [Within, vars]

theorem within_list {k : Nat} : (Ty.list k t).Within n ↔ t.Within n :=
  Iff.rfl

theorem within_arrow {k : Nat} :
    (Ty.arrow k p r).Within n ↔ p.Within n ∧ r.Within n := by
  simp only [Within, vars, List.mem_append]
  constructor
  · intro h
    exact ⟨fun v hv => h v (Or.inl hv), fun v hv => h v (Or.inr hv)⟩
  · rintro ⟨hp, hr⟩ v (hv | hv)
    · exact hp v hv
    · exact hr v hv

theorem Within.mono (h : t.Within n) (hnm : n ≤ m) : t.Within m :=
  fun v hv => Nat.lt_of_lt_of_le (h v hv) hnm

-- ======================================================== readings

/-- A reading depends on the variables of the type alone. -/
theorem inst_congr (h : ∀ v ∈ t.vars, θ v = θ' v) :
    t.inst θ = t.inst θ' := by
  induction t with
  | int | bool | base m => rfl
  | var v => exact h v (List.mem_singleton.2 rfl)
  | list m t ih =>
      rw [inst, inst, ih h]
  | arrow m p r ihp ihr =>
      rw [inst, inst, ihp fun v hv => h v (List.mem_append_left _ hv),
        ihr fun v hv => h v (List.mem_append_right _ hv)]

/-- Assignments that agree on the first `n` variables read a type
within them alike. -/
theorem Within.inst_congr (h : t.Within n)
    (hθ : ∀ v, v < n → θ v = θ' v) : t.inst θ = t.inst θ' :=
  Ty.inst_congr fun v hv => hθ v (h v hv)

end Ty

-- ==================================================== substitution

namespace Tree

/-- A tree under an assignment of trees to its variables. -/
def subst (θ : Nat → Tree) : Tree → Tree
  | int => .int
  | bool => .bool
  | base m => .base m
  | var v => θ v
  | list t => .list (t.subst θ)
  | arrow p r => .arrow (p.subst θ) (r.subst θ)

/-- The number of constructors in a tree. -/
def size : Tree → Nat
  | int | bool | base _ | var _ => 1
  | list t => t.size + 1
  | arrow p r => p.size + r.size + 1

variable {θ : Nat → Tree} {v : Nat}

/-- An assignment that leaves the variables of a tree alone leaves the
tree alone. -/
theorem subst_eq_self {t : Tree} (h : ∀ v ∈ t.vars, θ v = .var v) :
    t.subst θ = t := by
  induction t with
  | int | bool | base m => rfl
  | var v => exact h v (List.mem_singleton.2 rfl)
  | list t ih => rw [subst, ih h]
  | arrow p r ihp ihr =>
      rw [subst, ihp fun v hv => h v (List.mem_append_left _ hv),
        ihr fun v hv => h v (List.mem_append_right _ hv)]

/-- Only a variable becomes a variable. -/
theorem exists_var_of_subst {t : Tree} (h : t.subst θ = .var v) :
    ∃ w, t = .var w ∧ θ w = .var v := by
  cases t with
  | var w => exact ⟨w, rfl, h⟩
  | _ => cases h

/-- What a variable stands for is no larger than the tree it occurs
in. -/
theorem size_le_subst {t : Tree} (hv : v ∈ t.vars) :
    (θ v).size ≤ (t.subst θ).size := by
  induction t with
  | int | bool | base m => cases hv
  | var w =>
      rw [List.mem_singleton.1 hv]
      exact Nat.le_refl _
  | list t ih =>
      have := ih hv
      simp only [subst, size]
      omega
  | arrow p r ihp ihr =>
      simp only [subst, size]
      rcases List.mem_append.1 hv with hv | hv
      · have := ihp hv
        omega
      · have := ihr hv
        omega

/-- Strictly inside a tree, it is smaller. -/
theorem size_lt_subst {t : Tree} (hv : v ∈ t.vars) (hne : t ≠ .var v) :
    (θ v).size < (t.subst θ).size := by
  cases t with
  | int | bool | base m => cases hv
  | var w => exact absurd (congrArg Tree.var (List.mem_singleton.1 hv).symm) hne
  | list t =>
      have := size_le_subst (θ := θ) (t := t) hv
      simp only [subst, size]
      omega
  | arrow p r =>
      simp only [subst, size]
      rcases List.mem_append.1 hv with hv | hv
      · have := size_le_subst (θ := θ) hv
        omega
      · have := size_le_subst (θ := θ) hv
        omega

end Tree

namespace Ty

/-- Two readings in a row are one. -/
theorem subst_inst (t : Ty) (θ ψ : Nat → Tree) :
    (t.inst θ).subst ψ = t.inst fun v => (θ v).subst ψ := by
  induction t with
  | int | bool | base m | var v => rfl
  | list m t ih => rw [inst, Tree.subst, ih, inst]
  | arrow m p r ihp ihr => rw [inst, Tree.subst, ihp, ihr, inst]

/-- The variables of a reading are those of what the type's variables
stand for. -/
theorem mem_vars_inst {t : Ty} {θ : Nat → Tree} {w : Nat} :
    w ∈ (t.inst θ).vars ↔ ∃ v ∈ t.vars, w ∈ (θ v).vars := by
  induction t with
  | int | bool | base m => simp [inst, Tree.vars, vars]
  | var v => simp [inst, vars]
  | list m t ih => exact ih
  | arrow m p r ihp ihr =>
      simp only [inst, Tree.vars, vars, List.mem_append, ihp, ihr]
      constructor
      · rintro (⟨v, hv, hw⟩ | ⟨v, hv, hw⟩)
        · exact ⟨v, Or.inl hv, hw⟩
        · exact ⟨v, Or.inr hv, hw⟩
      · rintro ⟨v, hv | hv, hw⟩
        · exact Or.inl ⟨v, hv, hw⟩
        · exact Or.inr ⟨v, hv, hw⟩

end Ty

end InferTrace
