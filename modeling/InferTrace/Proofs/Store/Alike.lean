/-
Stores that cannot be told apart.

Two stores without cycles are alike if they have the same variables and
every variable comes to the same end in both. The ways there may differ:
one store may have had its links shortened where the other has not
(`Shortens.alike`).

Everything that is ever read off a store is determined by these ends:
which variables have a link, the tree of a type, its text and its free
variables, the snapshot. And what inference does to a store, it may do
to both: they stay alike with one more variable (`Alike.fresh`) and with
one more link (`Alike.setLink`). The last rests on what a link does to
the ends, which is the same wherever it is put: those that were the
variable are moved to the end of its type, and no others
(`resolve_setLink`).
-/
import InferTrace.Proofs.Store.Growth

namespace InferTrace

namespace Store

variable {s s' s'' : Store} {v w : Nat} {t u : Ty}

-- ===================================================== free variables

/-- A variable is put behind those found, unless it is among them. -/
def addNew (found : List Nat) (v : Nat) : List Nat :=
  if v ∈ found then found else found ++ [v]

/-- Collecting finds the variables of a reading, if it finds those of
what the variables stand for. -/
theorem collect_eq {atVar : Nat → List Nat → List Nat} {θ : Nat → Tree} :
    ∀ (t : Ty), (∀ v ∈ t.vars, ∀ found,
      atVar v found = (θ v).vars.foldl addNew found) →
        ∀ found, collect atVar t found
          = (t.inst θ).vars.foldl addNew found := by
  intro t
  induction t with
  | int | bool | base m => exact fun _ _ => rfl
  | var v => exact fun h found => h v (List.mem_singleton.2 rfl) found
  | list m t ih => exact fun h found => ih h found
  | arrow m p r ihp ihr =>
      intro h found
      have hp := ihp fun v hv => h v (List.mem_append_left _ hv)
      have hr := ihr fun v hv => h v (List.mem_append_right _ hv)
      rw [collect, hp, hr, Ty.inst, Tree.vars, List.foldl_append]

/-- The variables that are collected are those of the tree, in its
order; by induction on the fuel, with the rank below it. -/
theorem Ranked.collectVar_eq {ρ : Nat → Nat} (h : s.Ranked ρ) :
    ∀ (fuel v : Nat), ρ v < fuel → ∀ found,
      s.collectVar fuel v found = (s.assign v).vars.foldl addNew found := by
  intro fuel
  induction fuel with
  | zero =>
      intro v hv
      omega
  | succ fuel ih =>
      intro v hv found
      cases hl : s.link? v with
      | none =>
          rw [assign_of_none hl, collectVar]
          simp only [hl]
          rfl
      | some t =>
          rw [h.acyclic.assign_of_link hl, collectVar]
          simp only [hl]
          refine collect_eq t (fun w hw => ih w ?_) found
          have := h.lt hl hw
          omega

/-- The free variables of a type are those of its tree, each where it
comes first. -/
theorem Acyclic.freeVars_eq (h : s.Acyclic) (t : Ty) :
    s.freeVars t = (s.tree t).vars.foldl addNew [] := by
  refine collect_eq t (fun v _ => h.ranked.collectVar_eq _ v ?_) []
  exact Nat.lt_succ_of_le rank_le_size

-- ======================================================= alike stores

/-- The two stores have no cycles and the same variables, and every
variable comes to the same end in both. -/
structure Alike (s s' : Store) : Prop where
  acyclic : s.Acyclic
  acyclic' : s'.Acyclic
  stem : s'.stem = s.stem
  size : s'.size = s.size
  ends : ∀ v, s'.resolve (.var v) = s.resolve (.var v)

theorem Alike.refl (h : s.Acyclic) : s.Alike s :=
  ⟨h, h, rfl, rfl, fun _ => rfl⟩

theorem Alike.symm (h : s.Alike s') : s'.Alike s :=
  ⟨h.acyclic', h.acyclic, h.stem.symm, h.size.symm, fun v => (h.ends v).symm⟩

theorem Alike.trans (h : s.Alike s') (h' : s'.Alike s'') : s.Alike s'' :=
  ⟨h.acyclic, h'.acyclic', h'.stem.trans h.stem, h'.size.trans h.size,
    fun v => (h'.ends v).trans (h.ends v)⟩

/-- Shortening links leaves a store like the one before. -/
theorem Shortens.alike (h : s.Shortens s') (hs : s.Acyclic) : s.Alike s' :=
  ⟨hs, h.acyclic hs, h.stem, h.size, fun v => h.resolve hs (.var v)⟩

/-- Alike stores stay so when links of both are shortened. -/
theorem Alike.shorten {r r' : Store} (h : s.Alike s') (hr : s.Shortens r)
    (hr' : s'.Shortens r') : r.Alike r' :=
  (hr.alike h.acyclic).symm.trans (h.trans (hr'.alike h.acyclic'))

-- ================================================== what can be read

/-- Stores that are alike resolve every type alike. -/
theorem Alike.resolve (h : s.Alike s') (t : Ty) :
    s'.resolve t = s.resolve t := by
  cases t with
  | var v => exact h.ends v
  | _ => rw [resolve_of_not_isLinked rfl, resolve_of_not_isLinked rfl]

/-- A variable without a link is its own end, and no other is. -/
theorem Acyclic.resolve_eq_self_iff (h : s.Acyclic) :
    s.resolve (.var v) = .var v ↔ s.link? v = none := by
  refine ⟨fun heq => ?_, resolve_of_none⟩
  refine Option.eq_none_iff_forall_ne_some.2 fun t hv => ?_
  have hlt := h.lt_of_mem_resolve h.ranked hv v
  rw [heq] at hlt
  exact Nat.lt_irrefl _ (hlt (List.mem_singleton.2 rfl))

/-- They have links for the same variables. -/
theorem Alike.link?_eq_none_iff (h : s.Alike s') :
    s'.link? v = none ↔ s.link? v = none := by
  rw [← h.acyclic'.resolve_eq_self_iff, ← h.acyclic.resolve_eq_self_iff,
    h.ends]

/-- And the same variables are bound. -/
theorem Alike.isBound (h : s.Alike s') (v : Nat) :
    s'.isBound v = s.isBound v := by
  have hiff := h.link?_eq_none_iff (v := v)
  rw [← isBound_eq_false_iff, ← isBound_eq_false_iff] at hiff
  exact Bool.eq_iff_iff.2 (by simpa using not_congr hiff)

/-- Every variable stands for the same tree. -/
theorem Alike.assign (h : s.Alike s') : s'.assign = s.assign := by
  refine SolvedBy.eq_assign (h.acyclic.solvedBy_iff.2 fun v => ?_)
    h.acyclic fun v hv => assign_of_none (h.link?_eq_none_iff.2 hv)
  rw [← h.ends]
  exact h.acyclic'.solvedBy_iff.1 h.acyclic'.solvedBy_assign v

/-- Every type has one tree in both. -/
theorem Alike.tree (h : s.Alike s') (t : Ty) : s'.tree t = s.tree t := by
  unfold Store.tree
  rw [h.assign]

/-- A variable is in the tree of a type in both or in neither. -/
theorem Alike.inTree (h : s.Alike s') (v : Nat) (t : Ty) :
    s'.inTree v t = s.inTree v t := by
  unfold Store.inTree
  rw [h.tree]

theorem Alike.name (h : s.Alike s') : s'.name = s.name := by
  funext v
  unfold Store.name
  rw [h.stem]

/-- Every type is shown alike. -/
theorem Alike.render (h : s.Alike s') (t : Ty) :
    s'.render t = s.render t := by
  unfold Store.render
  rw [h.tree, h.name]

/-- So are all variables together. -/
theorem Alike.snapshot (h : s.Alike s') (placeholder : String) :
    s'.snapshot placeholder = s.snapshot placeholder := by
  unfold Store.snapshot
  rw [h.size, h.name]
  simp only [h.isBound, h.render]

/-- The free variables are listed alike. -/
theorem Alike.freeVars (h : s.Alike s') (t : Ty) :
    s'.freeVars t = s.freeVars t := by
  rw [h.acyclic'.freeVars_eq, h.acyclic.freeVars_eq, h.tree]

-- ================================================ what can be changed

/-- Where links are kept, every way goes on from its old end. -/
theorem Acyclic.resolve_resolve (h : s.Acyclic) (h' : s'.Acyclic)
    (hkept : ∀ w u, s.link? w = some u → s'.link? w = some u) (t : Ty) :
    s'.resolve (s.resolve t) = s'.resolve t := by
  refine h.resolve_induction (P := fun u => s'.resolve u = s'.resolve t) ?_ rfl
  intro w u hw heq
  rw [← heq, h'.resolve_of_link (hkept w u hw)]

/-- A way that has come to a variable without a link ends there. -/
theorem resolve_of_end (hend : s.isLinked t = false)
    (hfree : ∀ w, t = .var w → s.link? w = none → s'.link? w = none) :
    s'.resolve t = t := by
  apply resolve_of_not_isLinked
  cases t with
  | var w =>
      exact isBound_eq_false_iff.2
        (hfree w rfl (isBound_eq_false_iff.1 hend))
  | _ => rfl

/-- A fresh variable closes no cycle. -/
theorem Acyclic.fresh (h : s.Acyclic) : s.fresh.2.Acyclic := by
  refine Ranked.acyclic (ρ := s.rank) ⟨fun hv => ?_, fun hv hw => ?_⟩
  · exact h.ranked.pos (link?_fresh.symm.trans hv)
  · exact h.ranked.lt (link?_fresh.symm.trans hv) hw

/-- A new variable moves no end. -/
theorem Acyclic.resolve_fresh (h : s.Acyclic) (t : Ty) :
    s.fresh.2.resolve t = s.resolve t := by
  have hkept : ∀ w u, s.link? w = some u → s.fresh.2.link? w = some u :=
    fun _ _ hw => link?_fresh.trans hw
  rw [← h.resolve_resolve h.fresh hkept]
  exact resolve_of_end (h.isLinked_resolve t) fun _ _ hw =>
    link?_fresh.trans hw

/-- With a fresh variable each, stores that are alike stay alike. -/
theorem Alike.fresh (h : s.Alike s') : s.fresh.2.Alike s'.fresh.2 := by
  refine ⟨h.acyclic.fresh, h.acyclic'.fresh, h.stem, ?_, fun v => ?_⟩
  · rw [size_fresh, size_fresh, h.size]
  · rw [h.acyclic'.resolve_fresh, h.acyclic.resolve_fresh, h.ends]

/-- A link to a type that does not lead back moves the ends that were
the variable to the end of the type, and no others. -/
theorem Acyclic.resolve_setLink (h : s.Acyclic) (hv : v < s.size)
    (hfree : s.link? v = none) (hocc : v ∉ (s.tree t).vars) (u : Ty) :
    (s.setLink v t).resolve u
      = if s.resolve u = .var v then s.resolve t else s.resolve u := by
  have hset := h.setLink hv hfree hocc
  have hkept : ∀ w u, s.link? w = some u →
      (s.setLink v t).link? w = some u := by
    intro w u hw
    have hne : w ≠ v := by
      rintro rfl
      rw [hfree] at hw
      cases hw
    rw [link?_setLink hv, if_neg hne]
    exact hw
  have hstop : ∀ u, s.resolve u ≠ .var v →
      (s.setLink v t).resolve u = s.resolve u := by
    intro u hne
    rw [← h.resolve_resolve hset hkept]
    refine resolve_of_end (h.isLinked_resolve u) fun w heq hw => ?_
    have hwv : w ≠ v := by
      rintro rfl
      exact hne heq
    rw [link?_setLink hv, if_neg hwv]
    exact hw
  by_cases hu : s.resolve u = .var v
  · have hlink : (s.setLink v t).link? v = some t := by
      rw [link?_setLink hv, if_pos rfl]
    rw [if_pos hu, ← h.resolve_resolve hset hkept, hu,
      hset.resolve_of_link hlink]
    -- the type has an end of its own: its tree would have `v`
    refine hstop t fun heq => hocc ?_
    rw [← h.tree_resolve, heq, Store.tree, Ty.inst, assign_of_none hfree]
    exact List.mem_singleton.2 rfl
  · rw [if_neg hu]
    exact hstop u hu

/-- There is nothing to link beyond the last variable. -/
theorem setLink_of_size_le (hv : s.size ≤ v) : s.setLink v t = s := by
  unfold setLink
  rw [Array.setIfInBounds_eq_of_size_le hv]

/-- Alike stores stay so with one more link. -/
theorem Alike.setLink (h : s.Alike s') (hfree : s.link? v = none)
    (hocc : v ∉ (s.tree t).vars) : (s.setLink v t).Alike (s'.setLink v t) := by
  have hfree' := h.link?_eq_none_iff.2 hfree
  have hocc' : v ∉ (s'.tree t).vars := by
    rw [h.tree]
    exact hocc
  rcases Nat.lt_or_ge v s.size with hv | hv
  · have hv' : v < s'.size := by
      rw [h.size]
      exact hv
    refine ⟨h.acyclic.setLink hv hfree hocc,
      h.acyclic'.setLink hv' hfree' hocc', h.stem, ?_, fun w => ?_⟩
    · rw [size_setLink, size_setLink, h.size]
    · rw [h.acyclic'.resolve_setLink hv' hfree' hocc',
        h.acyclic.resolve_setLink hv hfree hocc, h.ends, h.resolve]
  · rw [setLink_of_size_le hv, setLink_of_size_le (h.size ▸ hv)]
    exact h

/-- If one of two alike stores mentions only its own variables, so does
the other. -/
theorem Alike.wellFormed (h : s.Alike s') (hs : s.WellFormed) :
    s'.WellFormed := by
  refine ⟨fun v t hv => ?_, h.acyclic'⟩
  have hlt : v < s.size := by
    rw [← h.size]
    exact lt_size_of_link? hv
  have hend : (s'.resolve t).Within s'.size := by
    rw [← h.acyclic'.resolve_of_link hv, h.ends, h.size]
    exact hs.within_resolve (Ty.within_var.2 hlt)
  cases t with
  | var w =>
      -- a variable that the store does not have would be its own end
      rw [Ty.within_var]
      by_contra hw
      have hfree : s'.link? w = none := by
        refine Option.eq_none_iff_forall_ne_some.2 fun u hu => ?_
        exact hw (lt_size_of_link? hu)
      rw [resolve_of_none hfree, Ty.within_var] at hend
      exact hw hend
  | _ =>
      rw [resolve_of_not_isLinked rfl] at hend
      exact hend

end Store

end InferTrace
