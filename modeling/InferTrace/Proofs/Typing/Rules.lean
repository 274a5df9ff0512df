/-
The types of expressions, by rules.

The system is monomorphic and says nothing of stores, fresh variables or
the order in which equations are solved: types are finite trees, and a
`let` gives its name the one type of its value. It is what inference is
measured against.

A scope becomes a context by reading its types under an assignment
(`Scope.inst`); which one does not matter beyond the variables of the
scope (`Scope.Within.inst_congr`).
-/
import InferTrace.Analysis
import InferTrace.Proofs.Ty.Tree

namespace InferTrace

/-- Names and their types, innermost first. -/
abbrev Context := List (String × Tree)

/-- The expression has the type in the context. -/
inductive HasType : Context → Expr → Tree → Prop
  | int {Γ : Context} {n : Int} : HasType Γ (.int n) .int
  | bool {Γ : Context} {b : Bool} : HasType Γ (.bool b) .bool
  | var {Γ : Context} {x : String} {τ : Tree} :
      Γ.lookup x = some τ → HasType Γ (.var x) τ
  | nil {Γ : Context} {τ : Tree} : HasType Γ .nil (.list τ)
  | cons {Γ : Context} {h t : Expr} {τ : Tree} :
      HasType Γ h τ → HasType Γ t (.list τ) →
        HasType Γ (.cons h t) (.list τ)
  | arithmetic {Γ : Context} {op : String} {l r : Expr} :
      op ∈ arithmeticOps → HasType Γ l .int → HasType Γ r .int →
        HasType Γ (.binary op l r) .int
  | comparison {Γ : Context} {op : String} {l r : Expr} {τ : Tree} :
      op ∉ arithmeticOps → HasType Γ l τ → HasType Γ r τ →
        HasType Γ (.binary op l r) .bool
  | ite {Γ : Context} {c y n : Expr} {τ : Tree} :
      HasType Γ c .bool → HasType Γ y τ → HasType Γ n τ →
        HasType Γ (.ite c y n) τ
  | lambda {Γ : Context} {x : String} {b : Expr} {α β : Tree} :
      HasType ((x, α) :: Γ) b β → HasType Γ (.lambda x b) (.arrow α β)
  | letIn {Γ : Context} {x : String} {v b : Expr} {α β : Tree} :
      HasType Γ v α → HasType ((x, α) :: Γ) b β →
        HasType Γ (.letIn x v b) β
  | app {Γ : Context} {f a : Expr} {α β : Tree} :
      HasType Γ f (.arrow α β) → HasType Γ a α → HasType Γ (.app f a) β

namespace Scope

variable {scope : Scope} {x : String} {t : Ty} {θ θ' : Nat → Tree} {n m : Nat}

/-- The scope with its types read under an assignment. -/
def inst (θ : Nat → Tree) (scope : Scope) : Context :=
  scope.map fun (x, t) => (x, t.inst θ)

/-- Every type of the scope is within the first `n` variables. -/
def Within (n : Nat) (scope : Scope) : Prop := ∀ p ∈ scope, p.2.Within n

instance (n : Nat) (scope : Scope) : Decidable (scope.Within n) :=
  inferInstanceAs (Decidable (∀ p ∈ scope, p.2.Within n))

theorem inst_extend : (scope.extend x t).inst θ
    = (x, t.inst θ) :: scope.inst θ := rfl

/-- What is done to every type of a scope is done to the one found. -/
theorem lookup_map {α : Type} (f : Ty → α) (scope : Scope) (x : String) :
    (scope.map fun p => (p.1, f p.2)).lookup x = (scope.lookup x).map f := by
  induction scope with
  | nil => rfl
  | cons p scope ih =>
      unfold lookup at ih ⊢
      rw [List.map_cons, List.lookup_cons, List.lookup_cons]
      cases x == p.1 with
      | true => rfl
      | false => exact ih

theorem lookup_inst :
    (scope.inst θ).lookup x = (scope.lookup x).map (Ty.inst θ) :=
  lookup_map (Ty.inst θ) scope x

theorem Within.mono (h : scope.Within n) (hnm : n ≤ m) : scope.Within m :=
  fun p hp => (h p hp).mono hnm

theorem Within.extend (h : scope.Within n) (ht : t.Within n) :
    (scope.extend x t).Within n := by
  intro p hp
  rcases List.mem_cons.1 hp with rfl | hp
  · exact ht
  · exact h p hp

theorem Within.lookup (h : scope.Within n) (hx : scope.lookup x = some t) :
    t.Within n := by
  induction scope with
  | nil => cases hx
  | cons p scope ih =>
      obtain ⟨y, u⟩ := p
      unfold Scope.lookup at hx ih
      rw [List.lookup_cons] at hx
      cases hxy : x == y with
      | true =>
          rw [hxy] at hx
          rw [← Option.some.inj hx]
          exact h (y, u) (List.mem_cons_self ..)
      | false =>
          rw [hxy] at hx
          exact ih (fun p hp => h p (List.mem_cons_of_mem _ hp)) hx

theorem Within.inst_congr (h : scope.Within n)
    (hθ : ∀ v, v < n → θ v = θ' v) : scope.inst θ = scope.inst θ' := by
  unfold inst
  refine List.map_congr_left fun p hp => ?_
  show (p.1, p.2.inst θ) = (p.1, p.2.inst θ')
  rw [(h p hp).inst_congr hθ]

end Scope

end InferTrace
