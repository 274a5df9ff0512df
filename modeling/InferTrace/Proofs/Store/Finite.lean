/-
The check for endless types is exact: it passes if and only if the
links have no cycle.

Where a rank drops along links, a search with as much fuel as the rank
comes to an end on every path (`Ranked.endlessWithin_eq_false`). The
other way round, the least fuel with which the search ends is a rank.
So whether a store is acyclic can be computed, and whether it is well
formed.
-/
import InferTrace.Proofs.Store.Links
import Mathlib.Order.Nat

namespace InferTrace

theorem Ty.anyVar_eq_false_iff {p : Nat → Bool} {t : Ty} :
    t.anyVar p = false ↔ ∀ v ∈ t.vars, p v = false := by
  induction t with
  | int | bool | base m => simp [anyVar, vars]
  | var v => simp [anyVar, vars]
  | list m t ih => exact ih
  | arrow m q r ihq ihr =>
      simp only [anyVar, vars, Bool.or_eq_false_iff, ihq, ihr, List.mem_append]
      constructor
      · rintro ⟨hq, hr⟩ v (hv | hv)
        · exact hq v hv
        · exact hr v hv
      · exact fun h => ⟨fun v hv => h v (Or.inl hv), fun v hv => h v (Or.inr hv)⟩

namespace Store

variable {s : Store} {v w : Nat} {t : Ty}

theorem endlessWithin_of_none (h : s.link? v = none) (fuel : Nat) :
    s.endlessWithin fuel v = false := by
  cases fuel with
  | zero => exact isBound_eq_false_iff.2 h
  | succ fuel => simp only [endlessWithin, h]

theorem endlessWithin_succ (h : s.link? v = some t) (fuel : Nat) :
    s.endlessWithin (fuel + 1) v = t.anyVar (s.endlessWithin fuel) := by
  simp only [endlessWithin, h]

theorem Ranked.endlessWithin_eq_false {ρ : Nat → Nat} (h : s.Ranked ρ) :
    ∀ (fuel v : Nat), ρ v ≤ fuel → s.endlessWithin fuel v = false := by
  intro fuel
  induction fuel with
  | zero =>
      intro v hv
      refine endlessWithin_of_none (Option.eq_none_iff_forall_ne_some.2 ?_) 0
      intro t ht
      have := h.pos ht
      omega
  | succ fuel ih =>
      intro v hv
      cases hl : s.link? v with
      | none => exact endlessWithin_of_none hl _
      | some t =>
          rw [endlessWithin_succ hl, Ty.anyVar_eq_false_iff]
          intro w hw
          have := h.lt hl hw
          exact ih w (by omega)

/-- In an acyclic store every type has an end. -/
theorem Acyclic.endless_eq_false (h : s.Acyclic) (t : Ty) :
    s.endless t = false :=
  Ty.anyVar_eq_false_iff.2 fun v _ =>
    h.ranked.endlessWithin_eq_false _ v rank_le_size

/-- The least fuel with which the search ends at every variable is a
rank. -/
theorem acyclic_of_endlessWithin
    (h : ∀ v, ∃ fuel, s.endlessWithin fuel v = false) : s.Acyclic := by
  have hpos : ∀ {v t}, s.link? v = some t → 0 < Nat.find (h v) := by
    intro v t hv
    refine Nat.pos_of_ne_zero fun hzero => ?_
    have hend := Nat.find_spec (h v)
    rw [hzero] at hend
    rw [isBound_eq_false_iff.1 hend] at hv
    cases hv
  refine Ranked.acyclic (ρ := fun v => Nat.find (h v)) ⟨hpos, ?_⟩
  intro v t w hv hw
  obtain ⟨n, hn⟩ := Nat.exists_eq_succ_of_ne_zero (Nat.ne_of_gt (hpos hv))
  have hend := Nat.find_spec (h v)
  rw [hn, Nat.succ_eq_add_one, endlessWithin_succ hv,
    Ty.anyVar_eq_false_iff] at hend
  have hle : Nat.find (h w) ≤ n := Nat.find_min' (h w) (hend w hw)
  show Nat.find (h w) < Nat.find (h v)
  omega

theorem isFinite_iff_acyclic : s.isFinite = true ↔ s.Acyclic := by
  unfold isFinite
  simp only [List.all_eq_true, List.mem_range, Bool.not_eq_true']
  constructor
  · intro h
    refine acyclic_of_endlessWithin fun v => ⟨s.size, ?_⟩
    by_cases hv : v < s.size
    · exact h v hv
    · refine endlessWithin_of_none (Option.eq_none_iff_forall_ne_some.2 ?_) _
      exact fun t ht => hv (lt_size_of_link? ht)
  · exact fun h v _ => h.endless_eq_false (.var v)

-- ======================================================= decisions

instance (s : Store) : Decidable s.Acyclic :=
  decidable_of_iff (s.isFinite = true) isFinite_iff_acyclic

instance (s : Store) : Decidable s.Closed :=
  decidable_of_iff (∀ v ∈ List.range s.size, ∀ t ∈ s.link? v, t.Within s.size)
    ⟨fun h v t hv => h v (List.mem_range.2 (lt_size_of_link? hv)) t hv,
      fun h v _ t hv => h v t hv⟩

instance (s : Store) : Decidable s.WellFormed :=
  decidable_of_iff (s.Closed ∧ s.Acyclic)
    ⟨fun h => ⟨h.1, h.2⟩, fun h => ⟨h.closed, h.acyclic⟩⟩

end Store

end InferTrace
