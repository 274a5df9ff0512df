/-
A store put on top of another.

`s.above r` has the variables of `r` first and then those of `s`, which are
numbered on from where `r` ends; their links are moved along with them
(`Ty.shift`). The two parts do not touch: what is done to a type of the
upper part is done there as it would be in `s` alone, and the lower part
stays what it is. Each operation has a lemma that says so, with the number
of variables of `r` as the distance.

Operations with fuel get more of it in the larger store. Where the fuel of
the smaller store was enough, more of it changes nothing; this is all that
is asked of `s`, in the form in which the operation itself tells of it
(`prune?_above`, `occurs_above`). To read types in the larger store takes
more: neither part may have a cycle, and the links of `r` must not lead
out of it (`assign_above`).
-/
import InferTrace.Proofs.Store.Shortening

namespace InferTrace

-- ========================================================== shifting

/-- The type with its variables numbered on from `n`. -/
def Ty.shift (n : Nat) : Ty → Ty
  | int => int
  | bool => bool
  | base m => base m
  | var v => var (n + v)
  | list m t => list m (t.shift n)
  | arrow m p r => arrow m (p.shift n) (r.shift n)

/-- The tree with its variables numbered on from `n`. -/
def Tree.shift (n : Nat) (τ : Tree) : Tree := τ.subst fun v => .var (n + v)

variable {n : Nat} {t t' : Ty} {τ : Tree} {θ : Nat → Tree}

/-- Types numbered on are the same only if the types are. -/
theorem Ty.shift_inj : t.shift n = t'.shift n ↔ t = t' := by
  constructor
  · intro h
    induction t generalizing t' with
    | int | bool | base | var =>
        cases t' <;> simp_all [Ty.shift]
    | list m t ih =>
        cases t' with
        | list m' t' =>
            simp only [Ty.shift, Ty.list.injEq] at h
            rw [h.1, ih h.2]
        | _ => cases h
    | arrow m p r ihp ihr =>
        cases t' with
        | arrow m' p' r' =>
            simp only [Ty.shift, Ty.arrow.injEq] at h
            rw [h.1, ihp h.2.1, ihr h.2.2]
        | _ => cases h
  · intro h
    rw [h]

/-- The variables of a type numbered on are its variables numbered on.
-/
theorem Ty.mem_vars_shift {w : Nat} :
    w ∈ (t.shift n).vars ↔ ∃ v ∈ t.vars, w = n + v := by
  induction t with
  | int | bool | base | var => simp [Ty.shift, Ty.vars]
  | list m t ih => exact ih
  | arrow m p r ihp ihr =>
      simp only [Ty.shift, Ty.vars, List.mem_append, ihp, ihr]
      constructor
      · rintro (⟨v, hv, rfl⟩ | ⟨v, hv, rfl⟩)
        · exact ⟨v, Or.inl hv, rfl⟩
        · exact ⟨v, Or.inr hv, rfl⟩
      · rintro ⟨v, hv | hv, rfl⟩
        · exact Or.inl ⟨v, hv, rfl⟩
        · exact Or.inr ⟨v, hv, rfl⟩

/-- An assignment reads a type numbered on as the assignment numbered
back reads the type. -/
theorem Ty.inst_shift (t : Ty) :
    (t.shift n).inst θ = t.inst fun v => θ (n + v) := by
  induction t with
  | int | bool | base | var => rfl
  | list m t ih => exact congrArg Tree.list ih
  | arrow m p r ihp ihr => exact congrArg₂ Tree.arrow ihp ihr

/-- To name the variables of a shifted tree is to name them from `n`
on. -/
theorem Tree.render_shift (name : Nat → String) (τ : Tree) :
    (τ.shift n).render name = τ.render fun v => name (n + v) := by
  have hisArrow : ∀ τ : Tree, (τ.shift n).isArrow = τ.isArrow := by
    intro τ
    cases τ <;> rfl
  induction τ with
  | int | bool | base | var => rfl
  | list τ ih =>
      show "[" ++ (τ.shift n).render name ++ "]" = _
      rw [ih]
      rfl
  | arrow π ρ ihp ihr =>
      show (if (π.shift n).isArrow then "(" ++ (π.shift n).render name ++ ")"
        else (π.shift n).render name) ++ " -> " ++ (ρ.shift n).render name = _
      rw [ihp, ihr, hisArrow]
      rfl

namespace Store

variable {r s s' : Store} {v w : Nat} {q : Ty}

-- ============================================================= links

/-- The variables of `s` on top of those of `r`. -/
def above (s r : Store) : Store :=
  { stem := r.stem
    links := r.links ++ s.links.map (Option.map (Ty.shift r.size)) }

/-- One store above another has the variables of both. -/
theorem size_above : (s.above r).size = r.size + s.size := by
  simp [above, size]

/-- The links below are those of the lower store. -/
theorem link?_above_left (hv : v < r.size) :
    (s.above r).link? v = r.link? v := by
  unfold link? above
  rw [Array.getElem?_append_left hv]

/-- The links above are those of the upper store, numbered on. -/
theorem link?_above_right (v : Nat) :
    (s.above r).link? (r.size + v) = (s.link? v).map (Ty.shift r.size) := by
  show (r.links ++ s.links.map _)[r.links.size + v]?.join = _
  rw [Array.getElem?_append_right (Nat.le_add_right ..),
    Nat.add_sub_cancel_left, Array.getElem?_map]
  unfold link?
  cases s.links[v]? with
  | none => rfl
  | some link => rfl

/-- A link may be set before or after the store is put above. -/
theorem setLink_above (v : Nat) (t : Ty) :
    (s.above r).setLink (r.size + v) (t.shift r.size)
      = (s.setLink v t).above r := by
  show Store.mk _ ((r.links ++ s.links.map _).setIfInBounds
    (r.links.size + v) (Option.map _ (some t))) = _
  rw [Array.setIfInBounds_append_right (Nat.le_add_right ..),
    Nat.add_sub_cancel_left, ← Array.map_setIfInBounds]
  rfl

/-- So may a fresh variable be made. -/
theorem fresh_above :
    (s.above r).fresh = (r.size + s.fresh.1, s.fresh.2.above r) := by
  unfold fresh
  rw [size_above]
  unfold above
  simp

/-- What is linked is linked above. -/
theorem isLinked_above (t : Ty) :
    (s.above r).isLinked (t.shift r.size) = s.isLinked t := by
  cases t with
  | var v =>
      show ((s.above r).link? (r.size + v)).isSome = (s.link? v).isSome
      rw [link?_above_right]
      cases s.link? v <;> rfl
  | _ => rfl

-- =========================================================== pruning

/-- A link that is set leaves the others. -/
theorem isLinked_of_setLink (h : (s.setLink v t).isLinked q = false) :
    s.isLinked q = false := by
  cases q with
  | var w =>
      rw [isLinked, isBound_eq_false_iff] at h ⊢
      by_cases hv : v < s.size
      · rw [link?_setLink hv] at h
        by_cases hw : w = v
        · rw [if_pos hw] at h
          cases h
        · rw [if_neg hw] at h
          exact h
      · unfold setLink at h
        rw [Array.setIfInBounds_eq_of_size_le (Nat.le_of_not_lt hv)] at h
        exact h
  | _ => rfl

/-- Where the fuel lasts to the end of the links, it may be more. -/
theorem pruneWithin_above : ∀ (fuel : Nat) (t : Ty) (q : Ty) (s' : Store),
    pruneWithin fuel t s = (q, s') → s'.isLinked q = false →
      ∀ more, fuel ≤ more →
        pruneWithin more (t.shift r.size) (s.above r)
          = (q.shift r.size, s'.above r) := by
  intro fuel
  induction fuel with
  | zero =>
      intro t q s' hprune hend more _
      cases hprune
      rw [← isLinked_above (r := r)] at hend
      exact pruneWithin_of_not_isLinked hend more
  | succ fuel ih =>
      intro t q s' hprune hend more hmore
      obtain ⟨more, rfl⟩ := Nat.exists_eq_add_of_le' hmore
      cases t with
      | var v =>
          have hlink := link?_above_right (r := r) (s := s) v
          cases hv : s.link? v with
          | none =>
              rw [hv] at hlink
              simp only [pruneWithin, hv] at hprune
              cases hprune
              simp only [← Nat.add_assoc, Ty.shift, pruneWithin, hlink,
                Option.map_none]
          | some t =>
              rw [hv] at hlink
              cases hrest : pruneWithin fuel t s with
              | mk q₁ s₁ =>
              simp only [pruneWithin, hv, hrest] at hprune
              cases hprune
              have habove := ih t q s₁ hrest (isLinked_of_setLink hend)
                (more + fuel) (Nat.le_add_left ..)
              simp only [← Nat.add_assoc, Ty.shift, pruneWithin, hlink,
                Option.map_some, habove, setLink_above]
      | _ =>
          cases hprune
          rfl

/-- Pruning comes to the same above. -/
theorem prune?_above (h : s.prune? t = some (q, s')) :
    (s.above r).prune? (t.shift r.size)
      = some (q.shift r.size, s'.above r) := by
  unfold prune? at h ⊢
  cases hprune : s.prune t with
  | mk q₁ s₁ =>
  rw [hprune] at h
  cases hend : s₁.isLinked q₁ with
  | true =>
      simp only [hend, if_true] at h
      cases h
  | false =>
      simp only [hend, Bool.false_eq_true, if_false] at h
      cases h
      have habove : (s.above r).prune (t.shift r.size) = _ :=
        pruneWithin_above s.size t q s' hprune hend (s.above r).size (by
          rw [size_above]
          exact Nat.le_add_left ..)
      simp only [habove, isLinked_above, hend, Bool.false_eq_true, if_false]

/-- Without cycles pruning comes to the end of the links. -/
theorem prune_above (h : s.Acyclic) (t : Ty) :
    (s.above r).prune (t.shift r.size)
      = ((s.prune t).1.shift r.size, (s.prune t).2.above r) := by
  have hend : (s.prune t).2.isLinked (s.prune t).1 = false := by
    rw [(h.shortens_prune t).isLinked, h.prune_fst]
    exact h.isLinked_resolve t
  refine pruneWithin_above s.size t _ _ rfl hend _ ?_
  rw [size_above]
  exact Nat.le_add_left ..

-- ====================================================== occurs check

/-- A search that ends at each variable ends alike at a type. -/
theorem occursVia_above {atVar atVar' : Nat → Store → Search × Store}
    (h : ∀ w s, (atVar w s).1 ≠ .endless →
      atVar' (r.size + w) (s.above r)
        = ((atVar w s).1, (atVar w s).2.above r)) :
    ∀ (t : Ty) (s : Store), (occursVia atVar t s).1 ≠ .endless →
      occursVia atVar' (t.shift r.size) (s.above r)
        = ((occursVia atVar t s).1, (occursVia atVar t s).2.above r) := by
  intro t
  induction t with
  | int | bool | base => exact fun s _ => rfl
  | var w => exact fun s hend => h w s hend
  | list m t ih => exact fun s hend => ih s hend
  | arrow m p q ihp ihq =>
      intro s hend
      have hp := ihp s
      cases hsearch : occursVia atVar p s with
      | mk answer s₁ =>
      rw [hsearch] at hp
      simp only [occursVia, hsearch] at hend ⊢
      cases answer with
      | found => simp only [Ty.shift, occursVia, hp (by simp)]
      | absent =>
          simp only [Ty.shift, occursVia, hp (by simp)]
          exact ihq s₁ hend
      | endless => exact absurd rfl hend

/-- The search for a variable comes to the same above, with any fuel
that it ends with; by induction on the fuel. -/
theorem occursAt_above (v : Nat) : ∀ (fuel w : Nat) (s : Store),
    (occursAt v fuel w s).1 ≠ .endless → ∀ more, fuel ≤ more →
      occursAt (r.size + v) more (r.size + w) (s.above r)
        = ((occursAt v fuel w s).1, (occursAt v fuel w s).2.above r) := by
  intro fuel
  induction fuel with
  | zero => exact fun w s hend => absurd rfl hend
  | succ fuel ih =>
      intro w s hend more hmore
      obtain ⟨more, rfl⟩ := Nat.exists_eq_add_of_le' hmore
      rw [← Nat.add_assoc]
      cases hprune : s.prune? (.var w) with
      | none =>
          simp only [occursAt, hprune] at hend
          exact absurd rfl hend
      | some found =>
          obtain ⟨q, s₁⟩ := found
          have habove := prune?_above (r := r) hprune
          rw [Ty.shift] at habove
          simp only [occursAt, hprune, habove] at hend ⊢
          cases q with
          | var u => simp only [Ty.shift, Nat.add_left_cancel_iff]
          | int | bool | base => rfl
          | list m q =>
              exact occursVia_above (fun w s h => ih w s h (more + fuel)
                (Nat.le_add_left ..)) (.list m q) s₁ hend
          | arrow m p q =>
              exact occursVia_above (fun w s h => ih w s h (more + fuel)
                (Nat.le_add_left ..)) (.arrow m p q) s₁ hend

/-- And so does the occurs check. -/
theorem occurs_above (h : (s.occurs v t).1 ≠ .endless) :
    (s.above r).occurs (r.size + v) (t.shift r.size)
      = ((s.occurs v t).1, (s.occurs v t).2.above r) := by
  have hfuel : s.size + 1 ≤ (s.above r).size + 1 := by
    rw [size_above]
    omega
  exact occursVia_above
    (fun w s h => occursAt_above v _ w s h _ hfuel) t s h

-- ===================================================== reading types

/-- The links of the lower part stay in it, so each part keeps its own
rank. -/
theorem acyclic_above (hr : r.WellFormed) (hs : s.Acyclic) :
    (s.above r).Acyclic := by
  let rank v := if v < r.size then r.rank v else s.rank (v - r.size)
  have hleft : ∀ {v}, v < r.size → rank v = r.rank v := fun hv => if_pos hv
  have hright : ∀ v, rank (r.size + v) = s.rank v := by
    intro v
    show (if _ then _ else _) = _
    rw [if_neg (by omega), Nat.add_sub_cancel_left]
  have hlink : ∀ {v a}, (s.above r).link? v = some a →
      0 < rank v ∧ ∀ w ∈ a.vars, rank w < rank v := by
    intro v a ha
    by_cases hv : v < r.size
    · rw [link?_above_left hv] at ha
      rw [hleft hv]
      refine ⟨hr.acyclic.ranked.pos ha, fun w hw => ?_⟩
      rw [hleft (hr.closed v a ha w hw)]
      exact hr.acyclic.ranked.lt ha hw
    · obtain ⟨v, rfl⟩ := Nat.exists_eq_add_of_le (Nat.le_of_not_lt hv)
      rw [link?_above_right] at ha
      obtain ⟨b, hb, rfl⟩ := Option.map_eq_some_iff.1 ha
      rw [hright]
      refine ⟨hs.ranked.pos hb, fun w hw => ?_⟩
      obtain ⟨u, hu, rfl⟩ := Ty.mem_vars_shift.1 hw
      rw [hright]
      exact hs.ranked.lt hb hu
  have hranked : (s.above r).Ranked rank :=
    ⟨fun ha => (hlink ha).1, fun ha hw => (hlink ha).2 _ hw⟩
  exact hranked.acyclic

/-- Each part says of its own variables what it says alone. -/
theorem assign_above (hr : r.WellFormed) (hs : s.Acyclic) :
    (∀ v, v < r.size → (s.above r).assign v = r.assign v) ∧
      ∀ v, (s.above r).assign (r.size + v) = (s.assign v).shift r.size := by
  let θ v := if v < r.size then r.assign v
    else (s.assign (v - r.size)).shift r.size
  have hleft : ∀ {v}, v < r.size → θ v = r.assign v := fun hv => if_pos hv
  have hright : ∀ v, θ (r.size + v) = (s.assign v).shift r.size := by
    intro v
    show (if _ then _ else _) = _
    rw [if_neg (by omega), Nat.add_sub_cancel_left]
  have hsolved : (s.above r).SolvedBy θ := by
    intro v a ha
    by_cases hv : v < r.size
    · rw [link?_above_left hv] at ha
      rw [hleft hv, hr.acyclic.assign_of_link ha]
      refine Ty.inst_congr fun w hw => ?_
      exact (hleft (hr.closed v a ha w hw)).symm
    · obtain ⟨v, rfl⟩ := Nat.exists_eq_add_of_le (Nat.le_of_not_lt hv)
      rw [link?_above_right] at ha
      obtain ⟨b, hb, rfl⟩ := Option.map_eq_some_iff.1 ha
      rw [hright, hs.assign_of_link hb, Ty.inst_shift]
      simp only [hright]
      exact Ty.subst_inst ..
  have hfree : ∀ v, (s.above r).link? v = none → θ v = .var v := by
    intro v hv
    by_cases hlt : v < r.size
    · rw [link?_above_left hlt] at hv
      rw [hleft hlt, assign_of_none hv]
    · obtain ⟨v, rfl⟩ := Nat.exists_eq_add_of_le (Nat.le_of_not_lt hlt)
      rw [link?_above_right, Option.map_eq_none_iff] at hv
      rw [hright, assign_of_none hv]
      rfl
  rw [← hsolved.eq_assign (acyclic_above hr hs) hfree]
  exact ⟨fun _ hv => hleft hv, hright⟩

/-- The tree of a type above is its tree numbered on. -/
theorem tree_above (hr : r.WellFormed) (hs : s.Acyclic) (t : Ty) :
    (s.above r).tree (t.shift r.size) = (s.tree t).shift r.size := by
  unfold tree Tree.shift
  rw [Ty.inst_shift, Ty.subst_inst]
  exact Ty.inst_congr fun v _ => (assign_above hr hs).2 v

/-- The name that a variable of the upper part has. -/
def nameAbove (r : Store) (v : Nat) : String := r.name (r.size + v)

/-- And its text has the names numbered on. -/
theorem render_above (hr : r.WellFormed) (hs : s.Acyclic) (t : Ty) :
    (s.above r).render (t.shift r.size) = (s.tree t).render r.nameAbove := by
  unfold render
  rw [tree_above hr hs, Tree.render_shift]
  rfl

/-- Every variable by its name under `name`, with its type or, if it
has no link, a question mark. -/
def lines (s : Store) (name : Nat → String) : List (String × String) :=
  (List.range s.size).map fun v =>
    (name v, if s.isBound v then (s.tree (.var v)).render name else "?")

/-- The lines of the lower part come first and are what they were. -/
theorem snapshot_above (hr : r.WellFormed) (hs : s.Acyclic) :
    (s.above r).snapshot = r.snapshot ++ s.lines r.nameAbove := by
  unfold snapshot lines
  rw [size_above, List.range_add, List.map_append, List.map_map]
  refine congrArg₂ (· ++ ·) (List.map_congr_left fun v hv => ?_)
    (List.map_congr_left fun v _ => ?_)
  · have hv := List.mem_range.1 hv
    have hbound : (s.above r).isBound v = r.isBound v := by
      unfold isBound
      rw [link?_above_left hv]
    have hrender : (s.above r).render (.var v) = r.render (.var v) :=
      congrArg (Tree.render r.name) ((assign_above hr hs).1 v hv)
    rw [hbound, hrender]
    rfl
  · have hbound : (s.above r).isBound (r.size + v) = s.isBound v :=
      isLinked_above (.var v)
    have hrender := render_above hr hs (.var v)
    rw [Ty.shift] at hrender
    simp only [Function.comp_apply, hbound, hrender]
    rfl

end Store

end InferTrace
