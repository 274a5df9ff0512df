/-
How a store may change: the three things that inference does to it,
and what they keep.

A step makes a variable, shortens links, or links a variable that has
no link to a type in whose tree it does not occur. A store grows by
such steps in any number (`Grows`). Whatever is said here of growth is
proved for one step of each kind and carried along:

- a well-formed store stays well formed (`Grows.wellFormed`);
- variables stay, with their names, and links stay
  (`Grows.size_le`, `Grows.isBound`);
- a solution of the grown store is one of the store before
  (`Grows.solvedBy`), so what was once equal stays equal, and the new
  tree of a type is an instance of the old one (`Grows.tree_eq`).

Failures need no mention: a computation that stops midway has grown the
store by the steps it took.
-/
import InferTrace.Proofs.Store.Shortening

namespace InferTrace

namespace Store

variable {s s' s'' : Store} {v w : Nat} {t : Ty} {θ : Nat → Tree}

-- ================================================ linking a variable

/-- The solutions of a store with one more link are those that make it
true. -/
theorem solvedBy_setLink_iff (hv : v < s.size) (hfree : s.link? v = none) :
    (s.setLink v t).SolvedBy θ ↔ s.SolvedBy θ ∧ θ v = t.inst θ := by
  constructor
  · intro h
    constructor
    · intro w u hw
      have hne : w ≠ v := by
        rintro rfl
        rw [hfree] at hw
        cases hw
      refine h w u ?_
      rw [link?_setLink hv, if_neg hne]
      exact hw
    · refine h v t ?_
      rw [link?_setLink hv, if_pos rfl]
  · rintro ⟨h, heq⟩ w u hw
    rcases eq_or_link?_of_setLink hv hw with ⟨rfl, rfl⟩ | hw
    · exact heq
    · exact h w u hw

/-- A link to a type that does not come back closes no cycle. What has
`v` in its tree is lifted above all that has not: the new link leads
from above to below, and the old ones stay on their side or go down. -/
theorem Acyclic.setLink (h : s.Acyclic) (hv : v < s.size)
    (hfree : s.link? v = none) (hocc : v ∉ (s.tree t).vars) :
    (s.setLink v t).Acyclic := by
  let lift w := if v ∈ (s.assign w).vars then s.size + 1 else 0
  have hlift : ∀ {w}, v ∈ (s.assign w).vars → lift w = s.size + 1 :=
    fun hw => if_pos hw
  have hself : lift v = s.size + 1 := by
    refine hlift ?_
    rw [assign_of_none hfree]
    exact List.mem_singleton.2 rfl
  have hdown : ∀ {w u} {t' : Ty}, s.link? w = some t' → u ∈ t'.vars →
      lift u ≤ lift w := by
    intro w u t' hw hu
    by_cases hin : v ∈ (s.assign u).vars
    · have : v ∈ (s.assign w).vars := by
        rw [h.assign_of_link hw]
        exact Ty.mem_vars_inst.2 ⟨u, hu, hin⟩
      rw [hlift hin, hlift this]
    · rw [show lift u = 0 from if_neg hin]
      exact Nat.zero_le _
  have hranked : (s.setLink v t).Ranked fun w => s.rank w + lift w := by
    constructor
    · intro w u hw
      rcases eq_or_link?_of_setLink hv hw with ⟨rfl, rfl⟩ | hw
      · rw [hself]
        omega
      · have := h.ranked.pos hw
        omega
    · intro w t' u hw hu
      rcases eq_or_link?_of_setLink hv hw with ⟨rfl, rfl⟩ | hw
      · have hbelow : lift u = 0 :=
          if_neg fun hin => hocc (Ty.mem_vars_inst.2 ⟨u, hu, hin⟩)
        have : s.rank u ≤ s.size := rank_le_size
        rw [hself, hbelow]
        omega
      · have := h.ranked.lt hw hu
        have := hdown hw hu
        omega
  exact hranked.acyclic

/-- A variable in the tree of another is reached from it. -/
theorem Acyclic.reaches_of_mem_assign (h : s.Acyclic)
    (hw : w ∈ (s.assign v).vars) :
    Relation.ReflTransGen s.Reaches v w := by
  induction v using h.induction with
  | step v ih =>
      cases hv : s.link? v with
      | none =>
          rw [assign_of_none hv] at hw
          rw [List.mem_singleton.1 hw]
      | some t =>
          rw [h.assign_of_link hv] at hw
          obtain ⟨u, hu, hw⟩ := Ty.mem_vars_inst.1 hw
          have hvu : s.Reaches v u := ⟨t, hv, hu⟩
          exact .head hvu (ih u hvu hw)

/-- A link to a type that comes back closes a cycle. -/
theorem Acyclic.not_mem_vars_of_setLink (h : s.Acyclic) (hv : v < s.size)
    (hfree : s.link? v = none) (h' : (s.setLink v t).Acyclic) :
    v ∉ (s.tree t).vars := by
  intro hocc
  obtain ⟨w, hw, hocc⟩ := Ty.mem_vars_inst.1 hocc
  -- the old links are still there, since `v` had none
  have hold : ∀ {u u'}, s.Reaches u u' → (s.setLink v t).Reaches u u' := by
    intro u u' hu
    obtain ⟨a, ha, hu'⟩ := hu
    have hne : u ≠ v := by
      rintro rfl
      rw [hfree] at ha
      cases ha
    refine ⟨a, ?_, hu'⟩
    rw [link?_setLink hv, if_neg hne]
    exact ha
  have hnew : (s.setLink v t).Reaches v w := by
    refine ⟨t, ?_, hw⟩
    rw [link?_setLink hv, if_pos rfl]
  have hback := Relation.ReflTransGen.mono (fun _ _ => hold) w v
    (h.reaches_of_mem_assign hocc)
  exact h' v (.head' hnew hback)

-- ========================================================== growth

/-- One thing that inference does to a store. -/
inductive Step (s : Store) : Store → Prop
  /-- Make a variable. -/
  | fresh : Step s s.fresh.2
  /-- Lead links straight to where they led. -/
  | shorten {s' : Store} : s.Shortens s' → Step s s'
  /-- Link a variable to a type that does not have it. -/
  | link {v : Nat} {t : Ty} : v < s.size → s.link? v = none →
      t.Within s.size → v ∉ (s.tree t).vars → Step s (s.setLink v t)

/-- The store came to be `s'` by steps of inference. -/
def Grows : Store → Store → Prop := Relation.ReflTransGen Step

theorem Grows.refl (s : Store) : s.Grows s :=
  Relation.ReflTransGen.refl

theorem Grows.trans (h : s.Grows s') (h' : s'.Grows s'') : s.Grows s'' :=
  Relation.ReflTransGen.trans h h'

/-- A step makes a store grow. -/
theorem Step.grows (h : s.Step s') : s.Grows s' :=
  Relation.ReflTransGen.single h

/-- The names keep their stem. -/
theorem Step.stem (h : s.Step s') : s'.stem = s.stem := by
  cases h with
  | fresh => rfl
  | shorten h => exact h.stem
  | link => rfl

/-- No variable is lost. -/
theorem Step.size_le (h : s.Step s') : s.size ≤ s'.size := by
  cases h with
  | fresh =>
      rw [size_fresh]
      exact Nat.le_succ _
  | shorten h => exact Nat.le_of_eq h.size.symm
  | link => exact Nat.le_of_eq size_setLink.symm

/-- What is bound stays bound. -/
theorem Step.isBound (h : s.Step s') (hv : s.isBound v = true) :
    s'.isBound v = true := by
  cases h with
  | fresh =>
      unfold Store.isBound
      rw [link?_fresh]
      exact hv
  | shorten h =>
      rw [h.isBound]
      exact hv
  | @link w t hw _ _ _ =>
      unfold Store.isBound
      rw [link?_setLink hw]
      by_cases hvw : v = w
      · rw [if_pos hvw]
        rfl
      · rw [if_neg hvw]
        exact hv

/-- What is well formed stays so. -/
theorem Step.wellFormed (h : s.Step s') (hs : s.WellFormed) :
    s'.WellFormed := by
  cases h with
  | fresh =>
      have hreach : s.fresh.2.Reaches = s.Reaches := by
        funext v w
        unfold Reaches
        rw [link?_fresh]
      refine ⟨fun v t hv => ?_, fun v hv => ?_⟩
      · rw [link?_fresh] at hv
        rw [size_fresh]
        exact (hs.closed v t hv).mono (Nat.le_succ _)
      · rw [hreach] at hv
        exact hs.acyclic v hv
  | shorten h => exact h.wellFormed hs
  | @link w t hw hfree ht hocc =>
      refine ⟨fun v u hv => ?_, hs.acyclic.setLink hw hfree hocc⟩
      rw [size_setLink]
      rcases eq_or_link?_of_setLink hw hv with ⟨rfl, rfl⟩ | hv
      · exact ht
      · exact hs.closed v u hv

/-- What solves the store after a step solves it before. -/
theorem Step.solvedBy (h : s.Step s') (hs : s.WellFormed)
    (hθ : s'.SolvedBy θ) : s.SolvedBy θ := by
  cases h with
  | fresh =>
      intro v t hv
      exact hθ v t (link?_fresh.trans hv)
  | shorten h => exact (h.solvedBy_iff hs.acyclic).1 hθ
  | link hw hfree _ _ => exact ((solvedBy_setLink_iff hw hfree).1 hθ).1

/-- Growth keeps the names of the variables. -/
theorem Grows.stem (h : s.Grows s') : s'.stem = s.stem := by
  induction h with
  | refl => rfl
  | tail _ hstep ih => exact hstep.stem.trans ih

/-- Growth keeps the variables. -/
theorem Grows.size_le (h : s.Grows s') : s.size ≤ s'.size := by
  induction h with
  | refl => exact Nat.le_refl _
  | tail _ hstep ih => exact Nat.le_trans ih hstep.size_le

/-- Growth keeps links. -/
theorem Grows.isBound (h : s.Grows s') (hv : s.isBound v = true) :
    s'.isBound v = true := by
  induction h with
  | refl => exact hv
  | tail _ hstep ih => exact hstep.isBound ih

/-- Growth keeps a store well formed. -/
theorem Grows.wellFormed (h : s.Grows s') (hs : s.WellFormed) :
    s'.WellFormed := by
  induction h with
  | refl => exact hs
  | tail _ hstep ih => exact hstep.wellFormed ih

/-- Growth adds to what a solution has to satisfy. -/
theorem Grows.solvedBy (h : s.Grows s') (hs : s.WellFormed)
    (hθ : s'.SolvedBy θ) : s.SolvedBy θ := by
  induction h with
  | refl => exact hθ
  | tail hgrow hstep ih => exact ih (hstep.solvedBy (Grows.wellFormed hgrow hs) hθ)

/-- The tree of a type in a grown store is an instance of its tree
before. -/
theorem Grows.tree_eq (h : s.Grows s') (hs : s.WellFormed) (t : Ty) :
    s'.tree t = (s.tree t).subst s'.assign := by
  have hs' := h.wellFormed hs
  exact (h.solvedBy hs hs'.acyclic.solvedBy_assign).inst_eq hs.acyclic t

end Store

end InferTrace
