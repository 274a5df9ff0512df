/-
Shortened links: what pruning and the occurs check do to a store.

Both follow links and rewrite the ones they followed. All that happens
to a link is that it may come to lead straight to where it led before
(`Shortens`). In an acyclic store this is invisible: the ends of the
links, the solutions and the trees stay the same, and so does any rank
(`Shortens.resolve`, `solvedBy_iff`, `assign`, `ranked`).

With that, pruning is `resolve` up to shortening (`Acyclic.prune?_eq`),
and the occurs check decides whether a variable is in the tree of a
type (`Acyclic.occurs_eq`). Its search goes from store to store, each
shortened from the one before; the rank of the first one is a rank of
all of them, so it bounds the search from end to end.
-/
import InferTrace.Proofs.Store.Links

namespace InferTrace

namespace Store

variable {s s' s'' : Store} {v w : Nat} {t : Ty} {θ : Nat → Tree}

-- ================================================== shortened links

/-- Every link of `s'` is the link that `s` has, or leads straight to
where that one leads. -/
structure Shortens (s s' : Store) : Prop where
  stem : s'.stem = s.stem
  size : s'.size = s.size
  link : ∀ v, s'.link? v = s.link? v ∨
    (s.isBound v = true ∧ s'.link? v = some (s.resolve (.var v)))

theorem Shortens.refl (s : Store) : s.Shortens s :=
  ⟨rfl, rfl, fun _ => Or.inl rfl⟩

/-- No link comes or goes. -/
theorem Shortens.isBound (h : s.Shortens s') (v : Nat) :
    s'.isBound v = s.isBound v := by
  rcases h.link v with hv | ⟨hb, hv⟩
  · unfold Store.isBound
    rw [hv]
  · rw [hb]
    unfold Store.isBound
    rw [hv]
    rfl

theorem Shortens.link?_eq_none_iff (h : s.Shortens s') :
    s'.link? v = none ↔ s.link? v = none := by
  rw [← isBound_eq_false_iff, ← isBound_eq_false_iff, h.isBound]

/-- What is linked in one is linked in the other. -/
theorem Shortens.isLinked (h : s.Shortens s') (t : Ty) :
    s'.isLinked t = s.isLinked t := by
  cases t with
  | var v => exact h.isBound v
  | _ => rfl

/-- Where there is a link now, there was one, and the two are the same
or the new one is at the end. -/
theorem Shortens.exists_link {t' : Ty} (h : s.Shortens s')
    (hv : s'.link? v = some t') :
    ∃ t, s.link? v = some t ∧ (t' = t ∨ t' = s.resolve (.var v)) := by
  rcases h.link v with heq | ⟨hb, heq⟩
  · exact ⟨t', heq ▸ hv, Or.inl rfl⟩
  · obtain ⟨t, ht⟩ := Option.isSome_iff_exists.1 hb
    exact ⟨t, ht, Or.inr (Option.some.inj (hv.symm.trans heq))⟩

/-- A measure that drops along the links of `s` drops along those of
`s'`. -/
theorem Shortens.ranked (h : s.Shortens s') (hs : s.Acyclic)
    {ρ : Nat → Nat} (hρ : s.Ranked ρ) : s'.Ranked ρ := by
  constructor
  · intro v t' hv
    obtain ⟨t, ht, -⟩ := h.exists_link hv
    exact hρ.pos ht
  · intro v t' w hv hw
    obtain ⟨t, ht, rfl | rfl⟩ := h.exists_link hv
    · exact hρ.lt ht hw
    · exact hs.lt_of_mem_resolve hρ ht w hw

/-- No cycle comes of shorter chains. -/
theorem Shortens.acyclic (h : s.Shortens s') (hs : s.Acyclic) :
    s'.Acyclic :=
  (h.ranked hs hs.ranked).acyclic

/-- The ends of the links stay. -/
theorem Shortens.resolve (h : s.Shortens s') (hs : s.Acyclic) (t : Ty) :
    s'.resolve t = s.resolve t := by
  have hs' := h.acyclic hs
  cases t with
  | var v =>
      induction v using hs.induction with
      | step v ih =>
          rcases h.link v with hv | ⟨hb, hv⟩
          · cases hl : s.link? v with
            | none => rw [resolve_of_none hl, resolve_of_none (hv.trans hl)]
            | some t =>
                rw [hs.resolve_of_link hl, hs'.resolve_of_link (hv.trans hl)]
                cases t with
                | var u => exact ih u ⟨_, hl, List.mem_singleton.2 rfl⟩
                | _ =>
                    rw [resolve_of_not_isLinked rfl,
                      resolve_of_not_isLinked rfl]
          · -- the new link is at its end already
            rw [hs'.resolve_of_link hv, resolve_of_not_isLinked]
            rw [h.isLinked]
            exact hs.isLinked_resolve _
  | _ => rw [resolve_of_not_isLinked rfl, resolve_of_not_isLinked rfl]

/-- A store is solved by what reads each variable as the end of its
links. -/
theorem Acyclic.solvedBy_iff (h : s.Acyclic) : s.SolvedBy θ ↔
    ∀ v, θ v = (s.resolve (.var v)).inst θ := by
  constructor
  · intro hθ v
    exact (hθ.inst_resolve h (.var v)).symm
  · intro hθ v t hv
    rw [hθ v, h.resolve_of_link hv]
    cases t with
    | var u => exact (hθ u).symm
    | _ => rw [resolve_of_not_isLinked rfl]

/-- The solutions stay. -/
theorem Shortens.solvedBy_iff (h : s.Shortens s') (hs : s.Acyclic) :
    s'.SolvedBy θ ↔ s.SolvedBy θ := by
  rw [hs.solvedBy_iff, (h.acyclic hs).solvedBy_iff]
  simp only [h.resolve hs]

/-- What every variable stands for stays. -/
theorem Shortens.assign (h : s.Shortens s') (hs : s.Acyclic) :
    s'.assign = s.assign := by
  have hs' := h.acyclic hs
  refine SolvedBy.eq_assign ((h.solvedBy_iff hs).1 hs'.solvedBy_assign) hs ?_
  intro v hv
  exact assign_of_none (h.link?_eq_none_iff.2 hv)

/-- They are at no link, as they were. -/
theorem Shortens.isLinked_resolve (h : s.Shortens s') (hs : s.Acyclic)
    (t : Ty) : s'.isLinked (s.resolve t) = false := by
  rw [h.isLinked]
  exact hs.isLinked_resolve t

/-- Every type stands for the tree it stood for. -/
theorem Shortens.tree (h : s.Shortens s') (hs : s.Acyclic) (t : Ty) :
    s'.tree t = s.tree t := by
  unfold Store.tree
  rw [h.assign hs]

theorem Shortens.trans (h : s.Shortens s') (h' : s'.Shortens s'')
    (hs : s.Acyclic) : s.Shortens s'' := by
  refine ⟨h'.stem.trans h.stem, h'.size.trans h.size, fun v => ?_⟩
  rcases h'.link v with hv | ⟨hb, hv⟩
  · rw [hv]
    exact h.link v
  · rw [h.isBound] at hb
    rw [h.resolve hs] at hv
    exact Or.inr ⟨hb, hv⟩

/-- The end of the links is within the store. -/
theorem WellFormed.within_resolve (h : s.WellFormed) (ht : t.Within s.size) :
    (s.resolve t).Within s.size :=
  h.acyclic.resolve_induction (fun v t hv _ => h.closed v t hv) ht

/-- What is well formed stays so. -/
theorem Shortens.wellFormed (h : s.Shortens s') (hs : s.WellFormed) :
    s'.WellFormed := by
  refine ⟨?_, h.acyclic hs.acyclic⟩
  intro v t' hv
  rw [h.size]
  obtain ⟨t, ht, rfl | rfl⟩ := h.exists_link hv
  · exact hs.closed v _ ht
  · exact hs.within_resolve (Ty.within_var.2 (lt_size_of_link? ht))

-- ========================================================= pruning

/-- A type that is not linked is left as it is. -/
theorem pruneWithin_of_not_isLinked (h : s.isLinked t = false)
    (fuel : Nat) : pruneWithin fuel t s = (t, s) := by
  cases fuel with
  | zero => rfl
  | succ fuel =>
      cases t with
      | var v => simp only [pruneWithin, isBound_eq_false_iff.1 h]
      | _ => rfl

/-- Pruning gives what following the same number of links gives, and
leads every variable on the way to the end that the links have. -/
theorem pruneWithin_eq (h : s.Acyclic) : ∀ (fuel : Nat) (t : Ty),
    s.isLinked (s.follow fuel t) = false →
      (pruneWithin fuel t s).1 = s.resolve t ∧
        s.Shortens (pruneWithin fuel t s).2 := by
  intro fuel
  induction fuel with
  | zero =>
      intro t hend
      exact ⟨(resolve_of_not_isLinked hend).symm, .refl s⟩
  | succ fuel ih =>
      intro t hend
      cases t with
      | var v =>
          cases hv : s.link? v with
          | none =>
              simp only [pruneWithin, hv]
              exact ⟨(resolve_of_none hv).symm, .refl s⟩
          | some t =>
              rw [follow_of_link hv] at hend
              obtain ⟨hr, hsh⟩ := ih t hend
              simp only [pruneWithin, hv]
              rw [hr, ← h.resolve_of_link hv]
              refine ⟨rfl, hsh.stem, size_setLink.trans hsh.size, fun w => ?_⟩
              have hlt : v < (pruneWithin fuel t s).2.size := by
                rw [hsh.size]
                exact lt_size_of_link? hv
              rw [link?_setLink hlt]
              by_cases hw : w = v
              · subst hw
                rw [if_pos rfl]
                exact Or.inr ⟨Option.isSome_iff_exists.2 ⟨t, hv⟩, rfl⟩
              · rw [if_neg hw]
                exact hsh.link w
      | _ =>
          exact ⟨(resolve_of_not_isLinked rfl).symm, .refl s⟩

/-- Pruning finds the end of the chain. -/
theorem Acyclic.prune_fst (h : s.Acyclic) (t : Ty) :
    (s.prune t).1 = s.resolve t :=
  (pruneWithin_eq h _ t (h.isLinked_resolve t)).1

/-- And it does no more to the store than shorten chains. -/
theorem Acyclic.shortens_prune (h : s.Acyclic) (t : Ty) :
    s.Shortens (s.prune t).2 :=
  (pruneWithin_eq h _ t (h.isLinked_resolve t)).2

/-- Guarded pruning never finds a circle. -/
theorem Acyclic.prune?_eq (h : s.Acyclic) (t : Ty) :
    s.prune? t = some (s.resolve t, (s.prune t).2) := by
  have hend : (s.prune t).2.isLinked (s.prune t).1 = false := by
    rw [(h.shortens_prune t).isLinked, h.prune_fst]
    exact h.isLinked_resolve t
  unfold prune?
  simp only [hend, Bool.false_eq_true, if_false]
  rw [← h.prune_fst]

-- ==================================================== occurs check

/-- A search that ends: whether the variable is there. -/
def Search.ofBool : Bool → Search
  | true => .found
  | false => .absent

/-- The variable `v` is in the tree of the type. -/
def inTree (s : Store) (v : Nat) (t : Ty) : Bool := decide (v ∈ (s.tree t).vars)

/-- What is asked of a search at a variable: the answer of the tree,
and links shortened at most. `ρ` bounds the search; it is a rank of
every store that the search comes to. -/
def Finds (ρ : Nat → Nat) (v : Nat) (atVar : Nat → Store → Search × Store)
    (w : Nat) : Prop :=
  ∀ s : Store, s.Ranked ρ → ∃ s', s.Shortens s' ∧
    atVar w s = (Search.ofBool (s.inTree v (.var w)), s')

/-- A search that is right at the variables of a type is right at the
type. -/
theorem occursVia_eq {ρ : Nat → Nat} {atVar : Nat → Store → Search × Store} :
    ∀ (t : Ty), (∀ w ∈ t.vars, Finds ρ v atVar w) →
      ∀ s : Store, s.Ranked ρ → ∃ s', s.Shortens s' ∧
        occursVia atVar t s = (Search.ofBool (s.inTree v t), s') := by
  intro t
  induction t with
  | int | bool | base m => exact fun _ s _ => ⟨s, .refl s, rfl⟩
  | var w => exact fun h s hs => h w (List.mem_singleton.2 rfl) s hs
  | list m t ih => exact fun h s hs => ih h s hs
  | arrow m p r ihp ihr =>
      intro h s hs
      obtain ⟨s₁, hsh, hp⟩ :=
        ihp (fun w hw => h w (List.mem_append_left _ hw)) s hs
      have htree : s.inTree v (.arrow m p r)
          = (s.inTree v p || s.inTree v r) := by
        unfold inTree
        rw [← Bool.decide_or]
        exact decide_eq_decide.2 List.mem_append
      rw [htree]
      cases hin : s.inTree v p with
      | true =>
          rw [hin] at hp
          exact ⟨s₁, hsh, by simp only [occursVia, hp]; rfl⟩
      | false =>
          rw [hin] at hp
          obtain ⟨s₂, hsh', hr⟩ :=
            ihr (fun w hw => h w (List.mem_append_right _ hw)) s₁
              (hsh.ranked hs.acyclic hs)
          refine ⟨s₂, hsh.trans hsh' hs.acyclic, ?_⟩
          have hsame : s₁.inTree v r = s.inTree v r := by
            unfold inTree
            rw [hsh.tree hs.acyclic]
          rw [Bool.false_or, ← hsame, ← hr]
          simp only [occursVia, hp, Search.ofBool]

/-- A variable that ends in a variable has that one and no other in its
tree. -/
theorem Acyclic.inTree_of_resolve {u : Nat} (h : s.Acyclic)
    (hr : s.resolve (.var w) = .var u) :
    s.inTree v (.var w) = decide (u = v) := by
  have hu : s.link? u = none := by
    have hend := h.isLinked_resolve (.var w)
    rw [hr] at hend
    exact isBound_eq_false_iff.1 hend
  have htree : s.tree (.var w) = .var u := by
    rw [← h.tree_resolve, hr]
    exact assign_of_none hu
  unfold inTree
  rw [htree]
  exact decide_eq_decide.2 (List.mem_singleton.trans eq_comm)

/-- Fuel beyond the rank of a variable is enough to search what it
stands for: below a link the rank has dropped, and so may the fuel. -/
theorem occursAt_finds {ρ : Nat → Nat} : ∀ (fuel w : Nat), ρ w < fuel →
    Finds ρ v (occursAt v fuel) w := by
  intro fuel
  induction fuel with
  | zero =>
      intro w hw
      exact absurd hw (Nat.not_lt_zero _)
  | succ fuel ih =>
      intro w hw s hs
      have ha := hs.acyclic
      have hsh := ha.shortens_prune (.var w)
      rw [occursAt, ha.prune?_eq]
      cases hr : s.resolve (.var w) with
      | var u =>
          refine ⟨_, hsh, ?_⟩
          rw [ha.inTree_of_resolve hr]
          by_cases huv : u = v
          · simp only [huv, if_true, decide_true, Search.ofBool]
          · simp only [huv, if_false, decide_false, Search.ofBool]
      | _ =>
          have hl : ∃ t, s.link? w = some t := by
            refine Option.ne_none_iff_exists'.1 fun hl => ?_
            rw [resolve_of_none hl] at hr
            cases hr
          obtain ⟨t, hl⟩ := hl
          have hbelow : ∀ u ∈ (s.resolve (.var w)).vars,
              Finds ρ v (occursAt v fuel) u := by
            intro u hu
            have := ha.lt_of_mem_resolve hs hl u hu
            exact ih u (by omega)
          obtain ⟨s', hsh', heq⟩ :=
            occursVia_eq _ hbelow _ (hsh.ranked ha hs)
          refine ⟨s', hsh.trans hsh' ha, ?_⟩
          have hin : (s.prune (.var w)).2.inTree v (s.resolve (.var w))
              = s.inTree v (.var w) := by
            unfold inTree
            rw [hsh.tree ha, ha.tree_resolve]
          rw [hin, hr] at heq
          exact heq

/-- The occurs check ends, tells whether the variable is in the tree of
the type, and shortens links at most. -/
theorem Acyclic.occurs_eq (h : s.Acyclic) (v : Nat) (t : Ty) :
    ∃ s', s.Shortens s' ∧
      s.occurs v t = (Search.ofBool (s.inTree v t), s') := by
  refine occursVia_eq t (fun w _ => occursAt_finds _ w ?_) s h.ranked
  exact Nat.lt_succ_of_le rank_le_size

end Store

end InferTrace
