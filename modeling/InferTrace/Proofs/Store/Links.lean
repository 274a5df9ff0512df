/-
The graph of links, and the stores in which it has no cycle.

A variable reaches the variables of the type it is linked to. A store
is acyclic when no variable reaches itself, and well formed when its
links mention no variable that it does not have, either.

# The rank

In an acyclic store the number of linked variables that `v` comes to,
itself included, drops along every link (`Acyclic.ranked`) and is at most the
number of variables (`rank_le_size`). So the fuel of `resolve` and
`assign`, one step for each variable, is never used up, and the two
satisfy the equations one wants of them:

- `resolve_of_link`, `isLinked_resolve`: a link is followed, and the end
  of the links is no variable with a link;
- `assign_of_link`, `assign_of_none`: a variable stands for what its
  link stands for, or for itself.

The rank is also a way to count down along links (`Acyclic.induction`).

# Solutions

An assignment of trees to variables solves a store when it gives each
linked variable the tree of its link (`SolvedBy`). `assign` is a
solution, and the most general one: any solution reads a type as it
reads the type's tree (`SolvedBy.inst_eq`).
-/
import InferTrace.Proofs.Ty.Tree
import InferTrace.Ty.Store
import Mathlib.Data.Finset.Card
import Mathlib.Data.Finset.Range
import Mathlib.Logic.Relation

namespace InferTrace

namespace Store

variable {s : Store} {v w : Nat} {t : Ty} {θ : Nat → Tree}

-- ==================================================== single links

/-- Only variables of the store have links. -/
theorem lt_size_of_link? (h : s.link? v = some t) : v < s.size := by
  unfold link? at h
  unfold size
  by_contra hv
  rw [Array.getElem?_eq_none (Nat.le_of_not_lt hv)] at h
  cases h

@[simp] theorem size_setLink : (s.setLink v t).size = s.size :=
  Array.size_setIfInBounds ..

/-- A link that is set is there, and the others stay. -/
theorem link?_setLink (hv : v < s.size) :
    (s.setLink v t).link? w = if w = v then some t else s.link? w := by
  unfold link? setLink
  by_cases hw : w = v
  · subst hw
    rw [if_pos rfl, Array.getElem?_setIfInBounds_self_of_lt hv]
    rfl
  · rw [if_neg hw, Array.getElem?_setIfInBounds_ne (Ne.symm hw)]

@[simp] theorem size_fresh : s.fresh.2.size = s.size + 1 :=
  Array.size_push ..

/-- A new variable comes without a link and leaves the links alone. -/
@[simp] theorem link?_fresh : s.fresh.2.link? v = s.link? v := by
  unfold link? fresh
  rw [Array.getElem?_push]
  by_cases hv : v = s.links.size
  · rw [if_pos hv, hv, Array.getElem?_eq_none (Nat.le_refl _)]
    rfl
  · rw [if_neg hv]

/-- A variable without a link is not bound. -/
theorem isBound_eq_false_iff : s.isBound v = false ↔ s.link? v = none := by
  unfold isBound
  rw [Option.isSome_eq_false_iff, Option.isNone_iff_eq_none]

/-- A link of the changed store is the new one or was there before. -/
theorem eq_or_link?_of_setLink {u : Ty} (hv : v < s.size)
    (h : (s.setLink v t).link? w = some u) :
    (w = v ∧ u = t) ∨ s.link? w = some u := by
  rw [link?_setLink hv] at h
  by_cases hw : w = v
  · rw [if_pos hw] at h
    exact Or.inl ⟨hw, (Option.some.inj h).symm⟩
  · rw [if_neg hw] at h
    exact Or.inr h

-- ======================================================= the graph

/-- The variable `v` is linked to a type that has the variable `w`. -/
def Reaches (s : Store) (v w : Nat) : Prop :=
  ∃ t, s.link? v = some t ∧ w ∈ t.vars

/-- No variable comes back to itself along links. -/
def Acyclic (s : Store) : Prop :=
  ∀ v, ¬ Relation.TransGen s.Reaches v v

/-- The links mention only variables of the store. -/
def Closed (s : Store) : Prop :=
  ∀ v t, s.link? v = some t → t.Within s.size

/-- What every store of an inference is. -/
structure WellFormed (s : Store) : Prop where
  closed : s.Closed
  acyclic : s.Acyclic

/-- The assignment gives every linked variable the tree of its
link. -/
def SolvedBy (s : Store) (θ : Nat → Tree) : Prop :=
  ∀ v t, s.link? v = some t → θ v = t.inst θ

-- ======================================================== the rank

/-- A measure that drops along every link, and is not zero where there
is one. -/
structure Ranked (s : Store) (ρ : Nat → Nat) : Prop where
  pos : ∀ {v t}, s.link? v = some t → 0 < ρ v
  lt : ∀ {v t w}, s.link? v = some t → w ∈ t.vars → ρ w < ρ v

/-- A ranked store has no cycle: the measure would drop all the way
round. -/
theorem Ranked.acyclic {ρ : Nat → Nat} (h : s.Ranked ρ) : s.Acyclic := by
  have hlt : ∀ {v w}, Relation.TransGen s.Reaches v w → ρ w < ρ v := by
    intro v w hvw
    induction hvw with
    | single hw =>
        obtain ⟨t, ht, hw⟩ := hw
        exact h.lt ht hw
    | tail _ hw ih =>
        obtain ⟨t, ht, hw⟩ := hw
        exact Nat.lt_trans (h.lt ht hw) ih
  intro v hv
  exact Nat.lt_irrefl _ (hlt hv)

open Classical in
/-- The linked variables that `v` comes to, itself included. -/
noncomputable def linkedFrom (s : Store) (v : Nat) : Finset Nat :=
  (Finset.range s.size).filter fun w =>
    s.isBound w = true ∧ Relation.ReflTransGen s.Reaches v w

/-- How many linked variables `v` comes to, itself included. -/
noncomputable def rank (s : Store) (v : Nat) : Nat := (s.linkedFrom v).card

open Classical in
/-- The variables linked from one are those that are bound and reached
from it. -/
theorem mem_linkedFrom : w ∈ s.linkedFrom v ↔
    s.isBound w = true ∧ Relation.ReflTransGen s.Reaches v w := by
  unfold linkedFrom
  rw [Finset.mem_filter, Finset.mem_range]
  constructor
  · exact fun h => h.2
  · intro h
    obtain ⟨t, ht⟩ := Option.isSome_iff_exists.1 h.1
    exact ⟨lt_size_of_link? ht, h⟩

open Classical in
/-- A rank counts variables of the store. -/
theorem rank_le_size : s.rank v ≤ s.size := by
  unfold rank linkedFrom
  calc _ ≤ (Finset.range s.size).card := Finset.card_filter_le ..
    _ = s.size := Finset.card_range _

/-- A variable with a link is linked from itself. -/
theorem self_mem_linkedFrom (h : s.link? v = some t) :
    v ∈ s.linkedFrom v :=
  mem_linkedFrom.2 ⟨Option.isSome_iff_exists.2 ⟨t, h⟩, .refl⟩

/-- Without cycles the rank drops along links: what `w` comes to, `v`
comes to, and `w` does not come back to `v`. -/
theorem Acyclic.ranked (h : s.Acyclic) : s.Ranked s.rank where
  pos := fun hv => Finset.card_pos.2 ⟨_, self_mem_linkedFrom hv⟩
  lt := by
    intro v t w hv hw
    have hvw : s.Reaches v w := ⟨t, hv, hw⟩
    refine Finset.card_lt_card (Finset.ssubset_iff_subset_ne.2 ⟨?_, ?_⟩)
    · intro u hu
      obtain ⟨hb, hwu⟩ := mem_linkedFrom.1 hu
      exact mem_linkedFrom.2 ⟨hb, .head hvw hwu⟩
    · intro heq
      have hmem := self_mem_linkedFrom hv
      rw [← heq] at hmem
      exact h v (.head' hvw (mem_linkedFrom.1 hmem).2)

/-- What holds of a variable as soon as it holds of all that the
variable reaches, holds of every variable. -/
theorem Acyclic.induction (h : s.Acyclic) {P : Nat → Prop}
    (step : ∀ v, (∀ w, s.Reaches v w → P w) → P v) (v : Nat) : P v := by
  have hall : ∀ n v, s.rank v ≤ n → P v := by
    intro n
    induction n with
    | zero =>
        intro v hv
        refine step v fun w hw => ?_
        obtain ⟨t, ht, -⟩ := hw
        have := h.ranked.pos ht
        omega
    | succ n ih =>
        intro v hv
        refine step v fun w hw => ih w ?_
        obtain ⟨t, ht, hw⟩ := hw
        have := h.ranked.lt ht hw
        omega
  exact hall _ v (Nat.le_refl _)

-- ================================================= following links

/-- Where there is no link, none is followed. -/
theorem follow_of_not_isLinked (h : s.isLinked t = false) (fuel : Nat) :
    s.follow fuel t = t := by
  cases fuel with
  | zero => rfl
  | succ fuel =>
      cases t with
      | var v =>
          have hv := isBound_eq_false_iff.1 h
          simp only [follow, hv]
      | _ => rfl

/-- To follow a link takes one unit of fuel. -/
theorem follow_of_link (h : s.link? v = some t) (fuel : Nat) :
    s.follow (fuel + 1) (.var v) = s.follow fuel t := by
  simp only [follow, h]

/-- The rank of a type's variables is fuel enough to come to the end of
the links. -/
theorem Ranked.isLinked_follow {ρ : Nat → Nat} (h : s.Ranked ρ) :
    ∀ (fuel : Nat) (t : Ty), (∀ v ∈ t.vars, ρ v ≤ fuel) →
      s.isLinked (s.follow fuel t) = false := by
  intro fuel
  induction fuel with
  | zero =>
      intro t hfuel
      cases t with
      | var v =>
          refine isBound_eq_false_iff.2 (Option.eq_none_iff_forall_ne_some.2 ?_)
          intro t hv
          have := h.pos hv
          have := hfuel v (List.mem_singleton.2 rfl)
          omega
      | _ => rfl
  | succ fuel ih =>
      intro t hfuel
      cases t with
      | var v =>
          cases hv : s.link? v with
          | none =>
              have hend : s.isLinked (.var v) = false :=
                isBound_eq_false_iff.2 hv
              rw [follow_of_not_isLinked hend]
              exact hend
          | some t =>
              rw [follow_of_link hv]
              refine ih t fun w hw => ?_
              have := h.lt hv hw
              have := hfuel v (List.mem_singleton.2 rfl)
              omega
      | _ => rfl

/-- One more step changes nothing at the end of the links. -/
theorem follow_succ : ∀ (fuel : Nat) (t : Ty),
    s.isLinked (s.follow fuel t) = false →
      s.follow (fuel + 1) t = s.follow fuel t := by
  intro fuel
  induction fuel with
  | zero =>
      intro t h
      exact follow_of_not_isLinked h 1
  | succ fuel ih =>
      intro t h
      cases t with
      | var v =>
          cases hv : s.link? v with
          | none =>
              have hend : s.isLinked (.var v) = false :=
                isBound_eq_false_iff.2 hv
              rw [follow_of_not_isLinked hend, follow_of_not_isLinked hend]
          | some t =>
              rw [follow_of_link hv] at h ⊢
              rw [follow_of_link hv]
              exact ih t h
      | _ => rfl

/-- What has no link is resolved to itself. -/
theorem resolve_of_not_isLinked (h : s.isLinked t = false) :
    s.resolve t = t :=
  follow_of_not_isLinked h _

/-- A variable without a link is resolved to itself. -/
theorem resolve_of_none (h : s.link? v = none) :
    s.resolve (.var v) = .var v :=
  resolve_of_not_isLinked (isBound_eq_false_iff.2 h)

/-- The end of the links is no variable with a link. -/
theorem Acyclic.isLinked_resolve (h : s.Acyclic) (t : Ty) :
    s.isLinked (s.resolve t) = false :=
  h.ranked.isLinked_follow _ t fun _ _ => rank_le_size

/-- A link leads to where its type leads. -/
theorem Acyclic.resolve_of_link (h : s.Acyclic) (hv : s.link? v = some t) :
    s.resolve (.var v) = s.resolve t := by
  obtain ⟨n, hn⟩ : ∃ n, s.size = n + 1 :=
    Nat.exists_eq_succ_of_ne_zero (by
      have := lt_size_of_link? hv
      omega)
  have hfuel : ∀ w ∈ t.vars, s.rank w ≤ n := by
    intro w hw
    have := h.ranked.lt hv hw
    have : s.rank v ≤ s.size := rank_le_size
    omega
  unfold resolve
  rw [hn, follow_of_link hv,
    follow_succ n t (h.ranked.isLinked_follow n t hfuel)]

/-- What passes from a variable to its link passes from a type to the
end of its links. -/
theorem Acyclic.resolve_induction (h : s.Acyclic) {P : Ty → Prop}
    (hlink : ∀ v t, s.link? v = some t → P (.var v) → P t) (ht : P t) :
    P (s.resolve t) := by
  cases t with
  | var v =>
      induction v using h.induction with
      | step v ih =>
          cases hv : s.link? v with
          | none =>
              rw [resolve_of_none hv]
              exact ht
          | some t =>
              rw [h.resolve_of_link hv]
              have hP := hlink v t hv ht
              cases t with
              | var u => exact ih u ⟨_, hv, List.mem_singleton.2 rfl⟩ hP
              | _ =>
                  rw [resolve_of_not_isLinked rfl]
                  exact hP
  | _ =>
      rw [resolve_of_not_isLinked rfl]
      exact ht

/-- Following links from `v` takes the rank of what is found below that
of `v`. -/
theorem Acyclic.lt_of_mem_resolve (h : s.Acyclic) {ρ : Nat → Nat}
    (hρ : s.Ranked ρ) (hv : s.link? v = some t) :
    ∀ w ∈ (s.resolve (.var v)).vars, ρ w < ρ v := by
  rw [h.resolve_of_link hv]
  refine h.resolve_induction (P := fun t => ∀ w ∈ t.vars, ρ w < ρ v) ?_
    fun w hw => hρ.lt hv hw
  intro u t hu hlt w hw
  exact Nat.lt_trans (hρ.lt hu hw) (hlt u (List.mem_singleton.2 rfl))

-- ================================================== reading a type

/-- A variable without a link stands for itself. -/
theorem assignWithin_of_none (h : s.link? v = none) (fuel : Nat) :
    s.assignWithin fuel v = .var v := by
  cases fuel with
  | zero => rfl
  | succ fuel => simp only [assignWithin, h]

/-- One more step changes nothing where the rank is fuel enough. -/
theorem Ranked.assignWithin_succ {ρ : Nat → Nat} (h : s.Ranked ρ) :
    ∀ (fuel v : Nat), ρ v ≤ fuel →
      s.assignWithin (fuel + 1) v = s.assignWithin fuel v := by
  intro fuel
  induction fuel with
  | zero =>
      intro v hv
      cases hl : s.link? v with
      | none => rw [assignWithin_of_none hl, assignWithin_of_none hl]
      | some t =>
          have := h.pos hl
          omega
  | succ fuel ih =>
      intro v hv
      cases hl : s.link? v with
      | none => rw [assignWithin_of_none hl, assignWithin_of_none hl]
      | some t =>
          rw [assignWithin, assignWithin]
          simp only [hl]
          refine Ty.inst_congr fun w hw => ih w ?_
          have := h.lt hl hw
          omega

/-- So it does with enough fuel. -/
theorem assign_of_none (h : s.link? v = none) : s.assign v = .var v :=
  assignWithin_of_none h _

/-- A linked variable stands for what its link stands for. -/
theorem Acyclic.assign_of_link (h : s.Acyclic) (hv : s.link? v = some t) :
    s.assign v = s.tree t := by
  obtain ⟨n, hn⟩ : ∃ n, s.size = n + 1 :=
    Nat.exists_eq_succ_of_ne_zero (by
      have := lt_size_of_link? hv
      omega)
  unfold tree assign
  rw [hn]
  rw [assignWithin]
  simp only [hv]
  refine Ty.inst_congr fun w hw => (h.ranked.assignWithin_succ n w ?_).symm
  have := h.ranked.lt hv hw
  have : s.rank v ≤ s.size := rank_le_size
  omega

-- ======================================================= solutions

/-- What a store says about its variables is a solution of it. -/
theorem Acyclic.solvedBy_assign (h : s.Acyclic) : s.SolvedBy s.assign :=
  fun _ _ hv => h.assign_of_link hv

/-- A solution reads a variable as it reads the variable's tree. -/
theorem SolvedBy.eq_subst_assign (hθ : s.SolvedBy θ) (h : s.Acyclic)
    (v : Nat) : θ v = (s.assign v).subst θ := by
  induction v using h.induction with
  | step v ih =>
      cases hv : s.link? v with
      | none =>
          rw [assign_of_none hv]
          rfl
      | some t =>
          rw [h.assign_of_link hv, hθ v t hv, tree, Ty.subst_inst]
          exact Ty.inst_congr fun w hw => ih w ⟨t, hv, hw⟩

/-- A solution reads a type as it reads the type's tree: every solution
is an instance of what the store says. -/
theorem SolvedBy.inst_eq (hθ : s.SolvedBy θ) (h : s.Acyclic) (t : Ty) :
    t.inst θ = (s.tree t).subst θ := by
  rw [tree, Ty.subst_inst]
  exact Ty.inst_congr fun v _ => hθ.eq_subst_assign h v

/-- A solution reads a type as it reads the end of its links. -/
theorem SolvedBy.inst_resolve (hθ : s.SolvedBy θ) (h : s.Acyclic) (t : Ty) :
    (s.resolve t).inst θ = t.inst θ := by
  refine h.resolve_induction (P := fun u => u.inst θ = t.inst θ) ?_ rfl
  intro v u hv heq
  exact (hθ v u hv).symm.trans heq

/-- To follow the links does not change the tree. -/
theorem Acyclic.tree_resolve (h : s.Acyclic) (t : Ty) :
    s.tree (s.resolve t) = s.tree t :=
  h.solvedBy_assign.inst_resolve h t

/-- The variables of a tree have no link. -/
theorem Acyclic.link?_of_mem_assign (h : s.Acyclic)
    (hw : w ∈ (s.assign v).vars) : s.link? w = none := by
  induction v using h.induction with
  | step v ih =>
      cases hv : s.link? v with
      | none =>
          rw [assign_of_none hv] at hw
          rw [List.mem_singleton.1 hw]
          exact hv
      | some t =>
          rw [h.assign_of_link hv] at hw
          obtain ⟨u, hu, hw⟩ := Ty.mem_vars_inst.1 hw
          exact ih u ⟨t, hv, hu⟩ hw

/-- A solution that leaves the variables without a link alone is what
the store says. -/
theorem SolvedBy.eq_assign (hθ : s.SolvedBy θ) (h : s.Acyclic)
    (hfree : ∀ v, s.link? v = none → θ v = .var v) : θ = s.assign := by
  funext v
  rw [hθ.eq_subst_assign h v]
  exact Tree.subst_eq_self fun w hw => hfree w (h.link?_of_mem_assign hw)

end Store

end InferTrace
