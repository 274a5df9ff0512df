/-
Equations may be solved in any order.

A list of equations is solved one by one, each in the store that those
before it have left. The order decides which variable is linked to
which, how long the chains of links are, and even which variables have a
link in the end. So the stores that two orders leave cannot be compared
link by link.

What does not depend on the order is which assignments solve the store
at the end: those that solve the store at the beginning and make all the
equations hold (`Settled`). The trees of two types are equal exactly if
all these assignments read the two alike (`Acyclic.tree_eq_iff`), and
the list can be solved exactly if there is one of them
(`exists_solveAll_iff`). Neither mentions an order.
-/
import InferTrace.Proofs.Unify.Solution

namespace InferTrace

-- ============================================ what solutions decide

namespace Store

variable {s s' : Store} {a b : Ty}

/-- Two types have one tree if every solution reads them alike: one of
the solutions is what the store says, and every other is an instance of
it. -/
theorem Acyclic.tree_eq_iff (h : s.Acyclic) :
    s.tree a = s.tree b ↔ ∀ θ, s.SolvedBy θ → a.inst θ = b.inst θ := by
  constructor
  · intro htree θ hθ
    rw [hθ.inst_eq h a, htree, ← hθ.inst_eq h b]
  · intro hall
    exact hall s.assign h.solvedBy_assign

/-- Stores with the same solutions say that the same types are equal. -/
theorem tree_eq_iff_of_solutions (h : s.Acyclic) (h' : s'.Acyclic)
    (hsame : ∀ θ, s'.SolvedBy θ ↔ s.SolvedBy θ) (a b : Ty) :
    s.tree a = s.tree b ↔ s'.tree a = s'.tree b := by
  rw [h.tree_eq_iff, h'.tree_eq_iff]
  simp only [hsame]

end Store

-- ======================================================== equations

/-- Two types that shall be equal, why, and the node that asks for
it. -/
structure Equation where
  left : Ty
  right : Ty
  reason : String := ""
  node : Option String := none
deriving DecidableEq, Repr

namespace Equation

/-- The variables of both types are among the first `n`. -/
def Within (n : Nat) (e : Equation) : Prop :=
  e.left.Within n ∧ e.right.Within n

instance (n : Nat) (e : Equation) : Decidable (e.Within n) :=
  inferInstanceAs (Decidable (_ ∧ _))

/-- The assignment reads both types alike. -/
def HoldsBy (θ : Nat → Tree) (e : Equation) : Prop :=
  e.left.inst θ = e.right.inst θ

/-- Make the two types equal. -/
def solve (e : Equation) : Traced Unit :=
  Traced.unify e.left e.right e.reason e.node

end Equation

/-- Solve one equation after the other. One that cannot be solved halts,
and leaves those after it alone. -/
def solveAll : List Equation → Traced Unit
  | [] => return
  | e :: rest => do
    e.solve
    solveAll rest

variable {t t₁ t₂ : Tracer} {eqs eqs' : List Equation}

/-- The store says what the one before it said, that all the equations
hold, and no more. -/
structure Settled (eqs : List Equation) (s s' : Store) : Prop where
  wellFormed : s'.WellFormed
  solvedBy_iff : ∀ θ, s'.SolvedBy θ ↔
    s.SolvedBy θ ∧ ∀ e ∈ eqs, e.HoldsBy θ

/-- Some assignment solves the store and makes all the equations
hold. -/
def Solvable (eqs : List Equation) (s : Store) : Prop :=
  ∃ θ, s.SolvedBy θ ∧ ∀ e ∈ eqs, e.HoldsBy θ

/-- A list of equations is settled, or there is no solution. What an
equation has imposed is kept in the store in which the next one is
solved. -/
theorem ends_solveAll (ht : t.store.WellFormed)
    (heqs : ∀ e ∈ eqs, e.Within t.store.size) :
    Ends (solveAll eqs) t (fun _ t' => Settled eqs t.store t'.store)
      fun _ _ => ¬ Solvable eqs t.store := by
  induction eqs generalizing t with
  | nil =>
      rw [solveAll, ends_pure]
      exact ⟨ht, by simp⟩
  | cons e rest ih =>
      obtain ⟨⟨hleft, hright⟩, hrest⟩ := List.forall_mem_cons.1 heqs
      rw [solveAll, ends_bind]
      refine (Traced.ends_unify ht hleft hright).mono ?_ ?_
      · intro _ t₁ hsolved
        have ht₁ := hsolved.grows.wellFormed ht
        rw [← hsolved.size] at hrest
        -- a joint solution of all is one of the rest, from here on
        have hiff : ∀ θ, (t₁.store.SolvedBy θ ∧ ∀ e ∈ rest, e.HoldsBy θ) ↔
            t.store.SolvedBy θ ∧ ∀ e' ∈ e :: rest, e'.HoldsBy θ := by
          intro θ
          rw [hsolved.solvedBy_iff, List.forall_mem_cons, and_assoc]
          exact Iff.rfl
        refine (ih ht₁ hrest).mono ?_ ?_
        · intro _ t₂ hsettled
          refine ⟨hsettled.wellFormed, fun θ => ?_⟩
          rw [hsettled.solvedBy_iff, hiff]
        · intro _ _ hnone hsome
          obtain ⟨θ, hθ⟩ := hsome
          exact hnone ⟨θ, (hiff θ).2 hθ⟩
      · intro _ t₁ hhalted hsome
        obtain ⟨clash, -, hrefuted⟩ := hhalted
        obtain ⟨θ, hθ, hall⟩ := hsome
        exact hrefuted.inst_ne θ hθ (hall e (.head _))

/-- The equations can all be solved, one after the other, if there is a
joint solution, and only then. -/
theorem exists_solveAll_iff (ht : t.store.WellFormed)
    (heqs : ∀ e ∈ eqs, e.Within t.store.size) :
    (∃ t', solveAll eqs t = .ok () t') ↔ Solvable eqs t.store := by
  have hends := ends_solveAll ht heqs
  constructor
  · intro hok
    obtain ⟨t', hrun⟩ := hok
    have hsettled := hends.of_ok hrun
    have hsolved := hsettled.wellFormed.acyclic.solvedBy_assign
    exact ⟨_, (hsettled.solvedBy_iff _).1 hsolved⟩
  · intro hsome
    cases hrun : solveAll eqs t with
    | ok _ t' => exact ⟨t', rfl⟩
    | error halt t' => exact absurd hsome (hends.of_error hrun)

theorem solvable_perm {s : Store} (hperm : eqs.Perm eqs') :
    Solvable eqs s ↔ Solvable eqs' s := by
  unfold Solvable
  simp only [hperm.mem_iff]

-- ======================================================= any order

/-- The order of equations does not matter. They can be solved in one
order exactly if they can in the other, and then the two stores agree on
which types are equal; among these are the two sides of each
equation. -/
theorem solveAll_perm (ht : t.store.WellFormed)
    (heqs : ∀ e ∈ eqs, e.Within t.store.size) (hperm : eqs.Perm eqs') :
    ((∃ t₁, solveAll eqs t = .ok () t₁) ↔
        ∃ t₂, solveAll eqs' t = .ok () t₂) ∧
      ∀ t₁ t₂, solveAll eqs t = .ok () t₁ → solveAll eqs' t = .ok () t₂ →
        (∀ a b, t₁.store.tree a = t₁.store.tree b ↔
          t₂.store.tree a = t₂.store.tree b) ∧
        ∀ e ∈ eqs, t₁.store.tree e.left = t₁.store.tree e.right := by
  have heqs' : ∀ e ∈ eqs', e.Within t.store.size := by
    intro e he
    exact heqs e (hperm.mem_iff.2 he)
  constructor
  · rw [exists_solveAll_iff ht heqs, exists_solveAll_iff ht heqs']
    exact solvable_perm hperm
  · intro t₁ t₂ hrun₁ hrun₂
    have h₁ := (ends_solveAll ht heqs).of_ok hrun₁
    have h₂ := (ends_solveAll ht heqs').of_ok hrun₂
    have hacyclic := h₁.wellFormed.acyclic
    constructor
    · apply Store.tree_eq_iff_of_solutions hacyclic h₂.wellFormed.acyclic
      intro θ
      rw [h₁.solvedBy_iff, h₂.solvedBy_iff]
      simp only [hperm.mem_iff]
    · intro e he
      have hholds := (h₁.solvedBy_iff _).1 hacyclic.solvedBy_assign
      exact hholds.2 e he

/-- The first equation makes the elements of two lists equal, and the
second says the same of the elements alone. -/
def chainedEquations : List Equation :=
  [{ left := .var 3, right := .listOf (.var 2) },
   { left := .var 2, right := .var 0 }]

/-- In one order the first variable is linked to the third, in the other
the third to the first. -/
theorem solveAll_perm_chained : ∃ t₁ t₂ : Tracer,
    solveAll chainedEquations { store := .chained } = .ok () t₁ ∧
      solveAll chainedEquations.reverse { store := .chained } = .ok () t₂ ∧
      (t₁.store.link? 0 = some (.var 2) ∧ t₁.store.link? 2 = none) ∧
      (t₂.store.link? 0 = none ∧ t₂.store.link? 2 = some (.var 0)) ∧
      ∀ a b, t₁.store.tree a = t₁.store.tree b ↔
        t₂.store.tree a = t₂.store.tree b := by
  obtain ⟨t₁, hrun₁, hlinks₁⟩ : ∃ t₁ : Tracer,
      solveAll chainedEquations { store := .chained } = .ok () t₁ ∧
        t₁.store.link? 0 = some (.var 2) ∧ t₁.store.link? 2 = none :=
    ⟨_, rfl, rfl, rfl⟩
  obtain ⟨t₂, hrun₂, hlinks₂⟩ : ∃ t₂ : Tracer,
      solveAll chainedEquations.reverse { store := .chained } = .ok () t₂ ∧
        t₂.store.link? 0 = none ∧ t₂.store.link? 2 = some (.var 0) :=
    ⟨_, rfl, rfl, rfl⟩
  have hin : ∀ e ∈ chainedEquations, e.Within Store.chained.size := by
    decide
  have hperm := solveAll_perm (t := { store := .chained }) (by decide) hin
    (List.reverse_perm _).symm
  exact ⟨t₁, t₂, hrun₁, hrun₂, hlinks₁, hlinks₂,
    (hperm.2 t₁ t₂ hrun₁ hrun₂).1⟩

end InferTrace
