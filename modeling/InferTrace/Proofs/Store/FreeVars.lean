/-
Free variables against the occurs check.

Both go down a type and through its links, in different ways. The list
of free variables leaves the links as they are, follows one at a time,
and keeps a variable where it comes first. The occurs check shortens
the links on its way, and stops where it has found its variable.

Both are told by the tree of the type: the check by whether the
variable is in it (`Acyclic.occurs_eq`), the list by the order in which
variables come up in it (`Acyclic.freeVars_eq`). What it means to keep a
variable where it comes first is said without the way it is done
(`FirstsOf`): no element twice, the same elements, and of two elements
that one before the other which is met before it.
-/
import InferTrace.Proofs.History
import InferTrace.Proofs.Store.Alike
import InferTrace.Proofs.Unify.Solution
import Mathlib.Data.List.Basic

namespace InferTrace

namespace Store

-- =================================================== first occurrences

/-- The elements of `xs`, each once, in the order in which they come
first. -/
structure FirstsOf (vs xs : List Nat) : Prop where
  nodup : vs.Nodup
  mem_iff : ∀ v, v ∈ vs ↔ v ∈ xs
  order : vs.Pairwise fun v w => xs.idxOf v < xs.idxOf w

variable {vs xs : List Nat} {v : Nat}

/-- What comes first where, stays where it was when more follows. -/
theorem FirstsOf.pairwise_append (h : FirstsOf vs xs) (ys : List Nat) :
    vs.Pairwise fun v w => (xs ++ ys).idxOf v < (xs ++ ys).idxOf w := by
  refine h.order.imp_of_mem fun {v w} hv hw hlt => ?_
  rw [List.idxOf_append_of_mem ((h.mem_iff v).1 hv),
    List.idxOf_append_of_mem ((h.mem_iff w).1 hw)]
  exact hlt

/-- One more element is put behind the others, if it is new. -/
theorem FirstsOf.addNew (h : FirstsOf vs xs) (v : Nat) :
    FirstsOf (addNew vs v) (xs ++ [v]) := by
  unfold Store.addNew
  by_cases hv : v ∈ vs
  · rw [if_pos hv]
    refine ⟨h.nodup, fun w => ?_, h.pairwise_append [v]⟩
    rw [h.mem_iff, List.mem_append, List.mem_singleton]
    constructor
    · exact Or.inl
    · rintro (hw | rfl)
      · exact hw
      · exact (h.mem_iff w).1 hv
  · rw [if_neg hv]
    have hnew : v ∉ xs := fun hmem => hv ((h.mem_iff v).2 hmem)
    refine ⟨?_, fun w => ?_,
      List.pairwise_append.2 ⟨h.pairwise_append [v], ?_, ?_⟩⟩
    · refine List.nodup_append.2 ⟨h.nodup, List.nodup_singleton v, ?_⟩
      rintro w hw _ hv' rfl
      exact hv (List.mem_singleton.1 hv' ▸ hw)
    · rw [List.mem_append, List.mem_append, h.mem_iff]
    · exact List.pairwise_singleton _ v
    · intro w hw _ hv'
      rw [List.mem_singleton.1 hv',
        List.idxOf_append_of_mem ((h.mem_iff w).1 hw),
        List.idxOf_append_of_notMem hnew]
      exact Nat.lt_add_right _ (List.idxOf_lt_length_iff.2 ((h.mem_iff w).1 hw))

theorem firstsOf_foldl_addNew (xs : List Nat) :
    FirstsOf (xs.foldl Store.addNew []) xs := by
  -- from the last element backwards, as the list was built
  induction xs using List.reverseRecOn with
  | nil => exact ⟨.nil, fun _ => Iff.rfl, .nil⟩
  | append_singleton xs v ih =>
      rw [List.foldl_append]
      exact ih.addNew v

-- ====================================================== free variables

variable {s : Store} {t : Ty}

theorem Search.ofBool_eq_found {b : Bool} :
    Search.ofBool b = .found ↔ b = true := by
  cases b <;> simp [Search.ofBool]

theorem Search.ofBool_eq_absent {b : Bool} :
    Search.ofBool b = .absent ↔ b = false := by
  cases b <;> simp [Search.ofBool]

/-- The variables of the tree of a type have no link. -/
theorem Acyclic.link?_of_mem_tree (h : s.Acyclic)
    (hv : v ∈ (s.tree t).vars) : s.link? v = none := by
  obtain ⟨w, -, hw⟩ := Ty.mem_vars_inst.1 hv
  exact h.link?_of_mem_assign hw

theorem Acyclic.freeVars?_eq (h : s.Acyclic) (t : Ty) :
    s.freeVars? t = some (s.freeVars t) := by
  unfold freeVars?
  rw [h.endless_eq_false, if_neg Bool.false_ne_true]

theorem Acyclic.firstsOf_freeVars (h : s.Acyclic) (t : Ty) :
    FirstsOf (s.freeVars t) (s.tree t).vars := by
  rw [h.freeVars_eq]
  exact firstsOf_foldl_addNew _

end Store

/-- In a store without cycles the free variables of a type are the
variables of what it resolves to, none of them linked, each once and in
the order in which they come first from left to right. The occurs check
ends for every variable, linked or not: it finds those that are in the
list and misses the others. The links that it shortens on its way do not
change the list. -/
theorem occurs_iff_mem_freeVars {s : Store} (h : s.Acyclic) (t : Ty) :
    ∃ (vs : List Nat) (τ : Tree), s.freeVars? t = some vs ∧
      s.Resolves t τ ∧ Store.FirstsOf vs τ.vars ∧
      (∀ v ∈ vs, s.link? v = none) ∧
      ∀ v : Nat, ((s.occurs v t).1 = .found ↔ v ∈ vs) ∧
        ((s.occurs v t).1 = .absent ↔ v ∉ vs) ∧
        (s.occurs v t).2.freeVars? t = some vs := by
  have hfirsts := h.firstsOf_freeVars t
  refine ⟨s.freeVars t, s.tree t, h.freeVars?_eq t, h.resolves_iff.2 rfl,
    hfirsts, ?_, fun v => ?_⟩
  · intro v hv
    exact h.link?_of_mem_tree ((hfirsts.mem_iff v).1 hv)
  · obtain ⟨s', hsh, heq⟩ := h.occurs_eq v t
    have hlist : s'.freeVars? t = some (s.freeVars t) := by
      rw [(hsh.acyclic h).freeVars?_eq, (hsh.alike h).freeVars]
    rw [heq, hfirsts.mem_iff]
    refine ⟨?_, ?_, hlist⟩
    · exact Store.Search.ofBool_eq_found.trans decide_eq_true_iff
    · exact Store.Search.ofBool_eq_absent.trans decide_eq_false_iff_not

/-- A variable at the end of a chain of two links comes up twice, and the
linked variables on the way do not. -/
theorem occurs_iff_mem_freeVars_chained :
    Store.chained.freeVars? (.fn (.var 3) (.fn (.var 2) (.var 1)))
        = some [0, 2] ∧
      (Store.chained.occurs 2
          (.fn (.var 3) (.fn (.var 2) (.var 1)))).1 = .found ∧
      (Store.chained.occurs 1
          (.fn (.var 3) (.fn (.var 2) (.var 1)))).1 = .absent := by
  have hacyclic : Store.chained.Acyclic := by decide
  have hvars : Store.chained.freeVars? (.fn (.var 3) (.fn (.var 2) (.var 1)))
      = some [0, 2] := by decide
  obtain ⟨vs, -, hvs, -, -, -, hoccurs⟩ :=
    occurs_iff_mem_freeVars hacyclic (.fn (.var 3) (.fn (.var 2) (.var 1)))
  obtain rfl : [0, 2] = vs := Option.some.inj (hvars.symm.trans hvs)
  exact ⟨hvars, (hoccurs 2).1.2 (by decide), (hoccurs 1).2.1.2 (by decide)⟩

end InferTrace
