/-
Pruning, link by link.

`Shortens` says of a store that some of its links have been shortened,
and leaves open which. Pruning a type shortens the links on the type's
own chain, all of them, and no other (`Compresses`). The chain is what
is met on the way to the end: a variable, and what its link leads on to
(`OnChain`). Links may run into the chain from outside; they stay as
they are, and lead to the same end as before.

The recursion writes on its way back, so what a call leaves is known
from what the call inside it has left, with one more link set
(`compresses_pruneWithin`). Once the links of a chain are at their end
there is nothing left to write (`prune_of_link`).
-/
import InferTrace.Proofs.Store.FreeVars

namespace InferTrace

namespace Store

variable {s s' : Store} {v w : Nat} {t r : Ty}

-- ========================================================= the chain

/-- The variable is met on the way to the end of the type's links. -/
inductive OnChain (s : Store) : Ty → Nat → Prop
  | here {v : Nat} : OnChain s (.var v) v
  | next {v w : Nat} {t : Ty} : s.link? v = some t → OnChain s t w →
      OnChain s (.var v) w

/-- At the end of the links there is no variable with a link. -/
theorem OnChain.isBound_eq_false (hv : s.OnChain t v)
    (hend : s.isLinked t = false) : s.isBound v = false := by
  cases hv with
  | here => exact hend
  | next hl _ =>
      rw [isLinked, isBound_eq_false_iff, hl] at hend
      cases hend

/-- From `s` to `s'` the links on the chain of `t` are led to its end,
and nothing else is changed. -/
structure Compresses (s : Store) (t : Ty) (s' : Store) : Prop where
  stem : s'.stem = s.stem
  size : s'.size = s.size
  onChain : ∀ v, s.OnChain t v → s.isBound v = true →
    s'.link? v = some (s.resolve t)
  others : ∀ v, ¬ (s.OnChain t v ∧ s.isBound v = true) →
    s'.link? v = s.link? v

theorem compresses_self (hend : s.isLinked t = false) :
    s.Compresses t s := by
  refine ⟨rfl, rfl, fun v hv hb => ?_, fun _ _ => rfl⟩
  rw [hv.isBound_eq_false hend] at hb
  cases hb

/-- The chain of a variable with a link is that of the link, and the
variable before it. -/
theorem Compresses.setLink (h : s.Compresses t s') (hs : s.Acyclic)
    (hv : s.link? v = some t) :
    s.Compresses (.var v) (s'.setLink v (s.resolve t)) := by
  have hlt : v < s'.size := by
    rw [h.size]
    exact lt_size_of_link? hv
  refine ⟨h.stem, size_setLink.trans h.size, fun w hw hb => ?_,
    fun w hw => ?_⟩
  · rw [link?_setLink hlt, hs.resolve_of_link hv]
    by_cases hwv : w = v
    · rw [if_pos hwv]
    · rw [if_neg hwv]
      cases hw with
      | here => exact absurd rfl hwv
      | next hl hw =>
          cases hv.symm.trans hl
          exact h.onChain w hw hb
  · have hwv : w ≠ v := by
      rintro rfl
      exact hw ⟨.here, Option.isSome_iff_exists.2 ⟨t, hv⟩⟩
    rw [link?_setLink hlt, if_neg hwv]
    exact h.others w fun hon => hw ⟨.next hv hon.1, hon.2⟩

-- ==================================================== one call, two calls

/-- Pruning that comes to the end of the links compresses the chain. -/
theorem compresses_pruneWithin (h : s.Acyclic) : ∀ (fuel : Nat) (t : Ty),
    s.isLinked (s.follow fuel t) = false →
      s.Compresses t (pruneWithin fuel t s).2 := by
  intro fuel
  induction fuel with
  | zero => exact fun t hend => compresses_self hend
  | succ fuel ih =>
      intro t hend
      cases t with
      | var v =>
          cases hv : s.link? v with
          | none =>
              simp only [pruneWithin, hv]
              exact compresses_self (isBound_eq_false_iff.2 hv)
          | some t =>
              rw [follow_of_link hv] at hend
              simp only [pruneWithin, hv]
              rw [(pruneWithin_eq h fuel t hend).1]
              exact (ih t hend).setLink h hv
      | _ => exact compresses_self rfl

theorem Acyclic.compresses_prune (h : s.Acyclic) (t : Ty) :
    s.Compresses t (s.prune t).2 :=
  compresses_pruneWithin h _ t (h.isLinked_resolve t)

/-- To set a link to what it is changes nothing. -/
theorem setLink_of_link (hv : s.link? v = some t) : s.setLink v t = s := by
  have hlt : v < s.links.size := lt_size_of_link? hv
  have hlinks : s.links.setIfInBounds v (some t) = s.links := by
    refine Array.ext_getElem? fun w => ?_
    rw [Array.getElem?_setIfInBounds]
    by_cases hw : v = w
    · subst hw
      rw [if_pos rfl, if_pos hlt]
      exact (Option.join_eq_some_iff.1 hv).symm
    · rw [if_neg hw]
  unfold setLink
  rw [hlinks]

/-- A link that is at its end stays. -/
theorem prune_of_link (hv : s.link? v = some r)
    (hend : s.isLinked r = false) : s.prune (.var v) = (r, s) := by
  obtain ⟨n, hn⟩ := Nat.exists_eq_add_one_of_ne_zero
    (Nat.ne_zero_of_lt (lt_size_of_link? hv))
  unfold prune
  rw [hn, pruneWithin]
  simp only [hv, pruneWithin_of_not_isLinked hend, setLink_of_link hv]

/-- A compressed chain is not changed again. -/
theorem Compresses.prune_snd (h : s.Compresses t s') (hs : s.Acyclic)
    (hsh : s.Shortens s') : (s'.prune t).2 = s' := by
  cases hlinked : s.isLinked t with
  | false =>
      unfold prune
      rw [pruneWithin_of_not_isLinked (hsh.isLinked t ▸ hlinked)]
  | true =>
      cases t with
      | var v =>
          have hend : s'.isLinked (s.resolve (.var v)) = false := by
            rw [hsh.isLinked]
            exact hs.isLinked_resolve _
          rw [prune_of_link (h.onChain v .here hlinked) hend]
      | _ => cases hlinked

-- =============================================== what is read off a store

theorem Acyclic.render?_eq (h : s.Acyclic) (t : Ty) :
    s.render? t = some (s.render t) := by
  unfold render?
  rw [h.endless_eq_false, if_neg Bool.false_ne_true]

theorem Acyclic.snapshot?_eq (h : s.Acyclic) (placeholder : String) :
    s.snapshot? placeholder = some (s.snapshot placeholder) := by
  unfold snapshot?
  rw [isFinite_iff_acyclic.2 h, if_pos rfl]

/-- Every reading gives the same for every type. -/
structure ReadsAs (s s' : Store) : Prop where
  resolve : ∀ t, s'.resolve t = s.resolve t
  render? : ∀ t, s'.render? t = s.render? t
  freeVars? : ∀ t, s'.freeVars? t = s.freeVars? t
  snapshot? : ∀ placeholder, s'.snapshot? placeholder = s.snapshot? placeholder

theorem Alike.readsAs (h : s.Alike s') : s.ReadsAs s' where
  resolve := h.resolve
  render? := fun t => by
    rw [h.acyclic'.render?_eq, h.acyclic.render?_eq, h.render]
  freeVars? := fun t => by
    rw [h.acyclic'.freeVars?_eq, h.acyclic.freeVars?_eq, h.freeVars]
  snapshot? := fun placeholder => by
    rw [h.acyclic'.snapshot?_eq, h.acyclic.snapshot?_eq, h.snapshot]

end Store

/-- In a store without cycles, pruning a type gives the end of its
links, which is no variable with a link. Afterwards every link on the
chain of the type is at that end, every other link is what it was, and
all that can be read off the store is the same: where links end, the
texts of types, their free variables, the snapshot. Pruning once more
gives the same and changes nothing. -/
theorem prune_compresses {s : Store} (h : s.Acyclic) (t : Ty) :
    ∃ s', s.prune? t = some (s.resolve t, s') ∧
      s.isLinked (s.resolve t) = false ∧
      s.Compresses t s' ∧ s.ReadsAs s' ∧
      s'.prune? t = some (s.resolve t, s') := by
  have hsh := h.shortens_prune t
  have hcomp := h.compresses_prune t
  refine ⟨(s.prune t).2, h.prune?_eq t, h.isLinked_resolve t, hcomp,
    (hsh.alike h).readsAs, ?_⟩
  rw [(hsh.acyclic h).prune?_eq, hsh.resolve h, hcomp.prune_snd h hsh]

/-- A chain of two links: the first is led to the end, where the second
is already, and a variable beside the chain keeps what it has. -/
theorem prune_compresses_chained : ∃ s' : Store,
    Store.chained.prune? (.var 3) = some (.listOf (.var 0), s') ∧
      Store.chained.link? 3 = some (.var 1) ∧
      s'.link? 3 = some (.listOf (.var 0)) ∧
      s'.link? 1 = some (.listOf (.var 0)) ∧ s'.link? 0 = none ∧
      s'.prune? (.var 3) = some (.listOf (.var 0), s') := by
  have hacyclic : Store.chained.Acyclic := by decide
  have hend : Store.chained.resolve (.var 3) = .listOf (.var 0) := by decide
  obtain ⟨s', hprune, -, hcomp, -, hagain⟩ :=
    prune_compresses hacyclic (.var 3)
  have hon : Store.chained.OnChain (.var 3) 1 :=
    .next (t := .var 1) (by decide) .here
  rw [hend] at hprune hagain
  refine ⟨s', hprune, by decide, ?_, ?_, ?_, hagain⟩
  · rw [hcomp.onChain 3 .here (by decide), hend]
  · rw [hcomp.onChain 1 hon (by decide), hend]
  · rw [hcomp.others 0 fun h => absurd h.2 (by decide)]
    decide

end InferTrace
