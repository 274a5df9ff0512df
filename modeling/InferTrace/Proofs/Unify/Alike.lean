/-
Solving on stores that are alike.

The solver shortens links as it goes. That makes it faster, and nothing
else: from alike stores it makes the same links and comes to the same
end, and the stores that it leaves are alike again.

What the solver needs to know of a type is where its links end, and
whether a variable is in its tree. Its manner is to shorten the links it
follows to find out (`Manner.shortening`); there is one that follows
them and leaves them as they are (`Manner.leaving`). Any two manners
that give the right answers and shorten links at most (`Faithful`) do
the same from alike stores, step by step (`tandem_unifyWithin`). So the
solver can be compared with itself, on two stores, and with the one that
leaves links alone.

The fuel of a solver depends on its store, which may be of any size. So
the two are compared with different fuel, for the case that the one with
less has enough; from a well-formed store it has.
-/
import InferTrace.Proofs.Store.Alike
import InferTrace.Proofs.Unify.Solution

namespace InferTrace

-- ============================================= searching, links left

/-- A search among variables asks only for those of the type. -/
theorem Ty.anyVar_congr {p q : Nat → Bool} {t : Ty}
    (h : ∀ v ∈ t.vars, p v = q v) : t.anyVar p = t.anyVar q := by
  induction t with
  | int | bool | base m => rfl
  | var v => exact h v (List.mem_singleton.2 rfl)
  | list m t ih => exact ih h
  | arrow m p r ihp ihr =>
      rw [anyVar, anyVar, ihp fun v hv => h v (List.mem_append_left _ hv),
        ihr fun v hv => h v (List.mem_append_right _ hv)]

namespace Store

variable {s : Store} {v : Nat} {t : Ty}

/-- Whether the variable `v` is in what `w` stands for, when links are
followed on at most `fuel` levels. -/
def containsAt (s : Store) (v : Nat) : Nat → Nat → Bool
  | 0, _ => false
  | fuel + 1, w =>
    match s.resolve (.var w) with
    | .var u => decide (u = v)
    | t => t.anyVar (s.containsAt v fuel)

/-- Whether the variable `v` occurs in `t`, links followed and left as
they are. -/
def contains (s : Store) (v : Nat) (t : Ty) : Bool :=
  t.anyVar (s.containsAt v (s.size + 1))

/-- A variable is in the tree of a type if it is in what one of the
type's variables stands for. -/
theorem inTree_eq_anyVar (s : Store) (v : Nat) (t : Ty) :
    s.inTree v t = t.anyVar fun w => s.inTree v (.var w) := by
  induction t with
  | int | bool | base m | var w => rfl
  | list m t ih => exact ih
  | arrow m p r ihp ihr =>
      rw [Ty.anyVar, ← ihp, ← ihr]
      unfold inTree
      rw [← Bool.decide_or]
      exact decide_eq_decide.2 List.mem_append

/-- The search that leaves links as they are finds the variables of the
tree; by induction on the fuel, with the rank below it. -/
theorem Ranked.containsAt_eq {ρ : Nat → Nat} (h : s.Ranked ρ) :
    ∀ (fuel w : Nat), ρ w < fuel →
      s.containsAt v fuel w = s.inTree v (.var w) := by
  intro fuel
  have hs := h.acyclic
  induction fuel with
  | zero =>
      intro w hw
      omega
  | succ fuel ih =>
      intro w hw
      have htree : s.inTree v (s.resolve (.var w)) = s.inTree v (.var w) := by
        unfold inTree
        rw [hs.tree_resolve]
      -- below the end of the links the rank has dropped
      have hbelow : ∀ t, s.link? w = some t →
          ∀ u ∈ (s.resolve (.var w)).vars, s.containsAt v fuel u
            = s.inTree v (.var u) := by
        intro t hl u hu
        have := hs.lt_of_mem_resolve h hl u hu
        exact ih u (by omega)
      rw [containsAt]
      cases hr : s.resolve (.var w) with
      | var u => exact (hs.inTree_of_resolve hr).symm
      | _ =>
          obtain ⟨t, hl⟩ : ∃ t, s.link? w = some t := by
            refine Option.ne_none_iff_exists'.1 fun hl => ?_
            rw [resolve_of_none hl] at hr
            cases hr
          rw [hr] at htree hbelow
          rw [← htree, inTree_eq_anyVar]
          exact Ty.anyVar_congr (hbelow t hl)

/-- Without cycles it finds them all. -/
theorem Acyclic.contains_eq (h : s.Acyclic) (v : Nat) (t : Ty) :
    s.contains v t = s.inTree v t := by
  rw [inTree_eq_anyVar]
  refine Ty.anyVar_congr fun w _ => h.ranked.containsAt_eq _ w ?_
  exact Nat.lt_succ_of_le rank_le_size

end Store

-- ============================================================ manners

namespace Manner

/-- Links are followed and left as they are. -/
def leaving : Manner :=
  { shortening with
    prune := fun t => return (← get).store.resolve t
    occurs := fun v t => return (← get).store.contains v t }

/-- The answers are right, links are shortened at most, and what is
found is noted and refused as the solver does. -/
structure Faithful (m : Manner) : Prop where
  prune : ∀ {s : Solver} (t : Ty), s.store.Acyclic →
    Ends (m.prune t) s
      (fun r s' => r = s.store.resolve t ∧ s.store.Shortens s'.store ∧
        s'.bonds = s.bonds)
      fun _ _ => False
  occurs : ∀ {s : Solver} (v : Nat) (t : Ty), s.store.Acyclic →
    Ends (m.occurs v t) s
      (fun found s' => found = s.store.inTree v t ∧
        s.store.Shortens s'.store ∧ s'.bonds = s.bonds)
      fun _ _ => False
  keep : m.keep = shortening.keep
  refuse : m.refuse = throw

/-- The solver is faithful. -/
theorem faithful_shortening : shortening.Faithful where
  prune t hs := Solve.ends_prune hs t
  occurs v t hs := Solve.ends_occurs hs v t
  keep := rfl
  refuse := rfl

/-- So is the one that leaves links as they are. -/
theorem faithful_leaving : leaving.Faithful where
  prune _ _ := ⟨rfl, .refl _, rfl⟩
  occurs v t hs := ⟨hs.contains_eq v t, .refl _, rfl⟩
  keep := rfl
  refuse := rfl

end Manner

-- ====================================================== alike solvers

/-- The stores are alike, and the links that were made are told in the
same words. -/
structure Solver.Alike (s s' : Solver) : Prop where
  store : s.store.Alike s'.store
  events : ∀ node, s'.bonds.map (·.event node) = s.bonds.map (·.event node)
  notices : s'.bonds.map Bond.notice = s.bonds.map Bond.notice

namespace Solver

variable {s s' s'' : Solver}

theorem Alike.refl (h : s.store.Acyclic) : s.Alike s :=
  ⟨.refl h, fun _ => rfl, rfl⟩

theorem Alike.symm (h : s.Alike s') : s'.Alike s :=
  ⟨h.store.symm, fun node => (h.events node).symm, h.notices.symm⟩

theorem Alike.trans (h : s.Alike s') (h' : s'.Alike s'') : s.Alike s'' :=
  ⟨h.store.trans h'.store, fun node => (h'.events node).trans (h.events node),
    h'.notices.trans h.notices⟩

/-- Solvers that are alike stay so when chains get shorter. -/
theorem Alike.shorten {r r' : Solver} (h : s.Alike s')
    (hr : s.store.Shortens r.store) (hbonds : r.bonds = s.bonds)
    (hr' : s'.store.Shortens r'.store) (hbonds' : r'.bonds = s'.bonds) :
    r.Alike r' := by
  refine ⟨h.store.shorten hr hr', ?_, ?_⟩
  · rw [hbonds, hbonds']
    exact h.events
  · rw [hbonds, hbonds']
    exact h.notices

/-- A link that was made in alike stores is told in the same words. -/
theorem Alike.push {r r' : Store} (h : s.Alike s') (hr : r.Alike r')
    (v : Nat) (t : Ty) (reason : String) :
    Solver.Alike ⟨r, s.bonds.push ⟨v, t, reason, r⟩⟩
      ⟨r', s'.bonds.push ⟨v, t, reason, r'⟩⟩ := by
  refine ⟨hr, fun node => ?_, ?_⟩
  · have hevent : Bond.event ⟨v, t, reason, r'⟩ node
        = Bond.event ⟨v, t, reason, r⟩ node := by
      simp only [Bond.event, hr.name, hr.render, hr.snapshot]
    simp only [Array.map_push, h.events node, hevent]
  · have hnotice : Bond.notice ⟨v, t, reason, r'⟩
        = Bond.notice ⟨v, t, reason, r⟩ := by
      simp only [Bond.notice, hr.name, hr.render]
    simp only [Array.map_push, h.notices, hnotice]

end Solver

-- ======================================================== side by side

namespace Solve

variable {α β : Type} {x y : Solve α} {s s' : Solver} {m m' : Manner}
  {v : Nat} {a b t : Ty} {reason : String}

/-- From `s` and `s'` on, the two computations come to the same end and
to alike solvers, unless the first comes to no end. -/
def Tandem (x y : Solve α) (s s' : Solver) : Prop :=
  (∃ s₁, x s = .error .endless s₁) ∨ SameEnd Solver.Alike (x s) (y s')

/-- Computations in tandem, one after the other, are in tandem. -/
theorem Tandem.bind {f g : α → Solve β} (h : Tandem x y s s')
    (hf : ∀ a s₁ s₁', x s = .ok a s₁ → s₁.Alike s₁' →
      Tandem (f a) (g a) s₁ s₁') :
    Tandem (x >>= f) (y >>= g) s s' := by
  rcases h with ⟨s₁, hx⟩ | h
  · exact Or.inl ⟨s₁, bind_of_error hx⟩
  generalize hx : x s = p at h
  generalize hy : y s' = q at h
  unfold Tandem
  cases h with
  | ok halike =>
      rw [bind_of_ok hx, bind_of_ok hy]
      exact hf _ _ _ hx halike
  | error halike =>
      rw [bind_of_error hx, bind_of_error hy]
      exact Or.inr (.error halike)

theorem tandem_pure (a : α) (h : s.Alike s') :
    Tandem (pure a) (pure a) s s' :=
  Or.inr (.ok h)

theorem tandem_throw (clash : Clash) (h : s.Alike s') :
    Tandem (throw clash : Solve α) (throw clash) s s' :=
  Or.inr (.error h)

/-- Faithful manners prune in tandem. -/
theorem tandem_prune (hm : m.Faithful) (hm' : m'.Faithful)
    (h : s.Alike s') : Tandem (m.prune t) (m'.prune t) s s' := by
  obtain ⟨r, s₁, hrun, rfl, hsh, hbonds⟩ :=
    (hm.prune t h.store.acyclic).exists_ok
  obtain ⟨r', s₁', hrun', rfl, hsh', hbonds'⟩ :=
    (hm'.prune t h.store.acyclic').exists_ok
  rw [h.store.resolve] at hrun'
  unfold Tandem
  rw [hrun, hrun']
  exact Or.inr (.ok (h.shorten hsh hbonds hsh' hbonds'))

/-- And they check in tandem. -/
theorem tandem_occurs (hm : m.Faithful) (hm' : m'.Faithful)
    (h : s.Alike s') : Tandem (m.occurs v t) (m'.occurs v t) s s' := by
  obtain ⟨found, s₁, hrun, rfl, hsh, hbonds⟩ :=
    (hm.occurs v t h.store.acyclic).exists_ok
  obtain ⟨found', s₁', hrun', rfl, hsh', hbonds'⟩ :=
    (hm'.occurs v t h.store.acyclic').exists_ok
  rw [h.store.inTree] at hrun'
  unfold Tandem
  rw [hrun, hrun']
  exact Or.inr (.ok (h.shorten hsh hbonds hsh' hbonds'))

/-- Both make the same link, or refuse to. -/
theorem tandem_bind (hm : m.Faithful) (hm' : m'.Faithful)
    (h : s.Alike s') (hfree : s.store.link? v = none) :
    Tandem (m.bind v t reason) (m'.bind v t reason) s s' := by
  unfold Manner.bind Manner.link
  rw [hm.keep, hm.refuse, hm'.keep, hm'.refuse]
  refine (tandem_occurs hm hm' h).bind fun found s₁ s₁' hrun h₁ => ?_
  obtain ⟨hfound, hsh, -⟩ := (hm.occurs v t h.store.acyclic).of_ok hrun
  cases hin : s.store.inTree v t with
  | true =>
      rw [hfound, hin]
      exact tandem_throw _ h₁
  | false =>
      have hfree₁ : s₁.store.link? v = none := hsh.link?_eq_none_iff.2 hfree
      have hfree₁' : s₁'.store.link? v = none :=
        h₁.store.link?_eq_none_iff.2 hfree₁
      have hocc : v ∉ (s₁.store.tree t).vars := by
        rw [hsh.tree h.store.acyclic]
        exact of_decide_eq_false hin
      have hbind : s₁.store.bind v t = .ok (s₁.store.setLink v t) := by
        unfold Store.bind
        rw [hfree₁]
      have hbind' : s₁'.store.bind v t = .ok (s₁'.store.setLink v t) := by
        unfold Store.bind
        rw [hfree₁']
      have hget : ∀ s : Solver, (get : Solve Solver) s = .ok s s :=
        fun _ => rfl
      rw [hfound, hin]
      unfold Tandem
      simp only [Bool.false_eq_true, if_false]
      rw [bind_of_ok (hget s₁), bind_of_ok (hget s₁'), hbind, hbind']
      exact Or.inr (.ok (h₁.push (h₁.store.setLink hfree₁ hocc) v t reason))

/-- Two faithful solvers do the same from alike stores, if the first
has no more fuel than the second. -/
theorem tandem_unifyWithin (hm : m.Faithful) (hm' : m'.Faithful) :
    ∀ (fuel : Nat) (a b : Ty) (reason : String) (more : Nat)
      (s s' : Solver), fuel ≤ more → s.Alike s' →
        Tandem (Manner.unifyWithin (fun _ => m) fuel a b reason)
          (Manner.unifyWithin (fun _ => m') more a b reason) s s' := by
  intro fuel
  induction fuel with
  | zero => exact fun a b reason more s s' _ _ => Or.inl ⟨s, rfl⟩
  | succ fuel ih =>
      intro a b reason more s s' hmore h
      obtain ⟨more, rfl⟩ := Nat.exists_eq_add_of_le' hmore
      have hfuel : fuel ≤ more + fuel := Nat.le_add_left ..
      rw [← Nat.add_assoc, Manner.unifyWithin, Manner.unifyWithin]
      refine (tandem_prune hm hm' h).bind fun a' s₁ s₁' hrun₁ h₁ => ?_
      refine (tandem_prune hm hm' h₁).bind fun b' s₂ s₂' hrun₂ h₂ => ?_
      obtain ⟨rfl, hsh₁, -⟩ := (hm.prune a h.store.acyclic).of_ok hrun₁
      obtain ⟨rfl, hsh₂, -⟩ := (hm.prune b h₁.store.acyclic).of_ok hrun₂
      -- both ends are variables without a link, or no variables
      have henda : s₂.store.isLinked (s.store.resolve a) = false := by
        rw [hsh₂.isLinked, hsh₁.isLinked]
        exact h.store.acyclic.isLinked_resolve a
      have hendb : s₂.store.isLinked (s₁.store.resolve b) = false := by
        rw [hsh₂.isLinked]
        exact h₁.store.acyclic.isLinked_resolve b
      generalize s.store.resolve a = a at henda ⊢
      generalize s₁.store.resolve b = b at hendb ⊢
      unfold Manner.meet
      by_cases heq : a = b
      · rw [if_pos heq, if_pos heq]
        exact tandem_pure () h₂
      · rw [if_neg heq, if_neg heq]
        split
        · exact tandem_bind hm hm' h₂ (Store.isBound_eq_false_iff.1 henda)
        · exact tandem_bind hm hm' h₂ (Store.isBound_eq_false_iff.1 hendb)
        · refine (ih _ _ _ _ s₂ s₂' hfuel h₂).bind fun _ s₃ s₃' _ h₃ => ?_
          exact ih _ _ _ _ s₃ s₃' hfuel h₃
        · exact ih _ _ _ _ s₂ s₂' hfuel h₂
        · rw [hm.refuse, hm'.refuse]
          exact tandem_throw _ h₂

end Solve

-- ======================================================== whole calls

variable {s s' : Solver} {a b : Ty} {reason : String} {m : Manner}

/-- From a well-formed store there is fuel enough to come to an end, so
another faithful solver that has no less comes to the same. -/
theorem sameEnd_of_fuelFor_le (hm : m.Faithful) (h : s.Alike s')
    (hs : s.store.WellFormed) (ha : a.Within s.store.size)
    (hb : b.Within s.store.size)
    (hfuel : s.store.fuelFor a b ≤ s'.store.fuelFor a b) :
    SameEnd Solver.Alike (unify a b reason s) (m.unify a b reason s') := by
  have htandem := Solve.tandem_unifyWithin Manner.faithful_shortening hm
    _ a b reason _ s s' hfuel h
  rcases htandem with ⟨s₁, hrun⟩ | hsame
  · exact ((ends_unify hs ha hb).of_error hrun).justified.elim
  · exact hsame

/-- The solver does the same from alike stores. -/
theorem sameEnd_unify (h : s.Alike s') (hs : s.store.WellFormed)
    (ha : a.Within s.store.size) (hb : b.Within s.store.size) :
    SameEnd Solver.Alike (unify a b reason s) (unify a b reason s') := by
  have hm := Manner.faithful_shortening
  rcases Nat.le_total (s.store.fuelFor a b) (s'.store.fuelFor a b)
    with hfuel | hfuel
  · exact sameEnd_of_fuelFor_le hm h hs ha hb hfuel
  · rw [← h.store.size] at ha hb
    have hsame : SameEnd Solver.Alike (unify a b reason s') _ :=
      sameEnd_of_fuelFor_le hm h.symm (h.store.wellFormed hs) ha hb hfuel
    exact hsame.symm fun _ _ => Solver.Alike.symm

/-- The solver does what it would do if it left links alone. -/
theorem sameEnd_leaving (h : s.Alike s') (hs : s.store.WellFormed)
    (ha : a.Within s.store.size) (hb : b.Within s.store.size) :
    SameEnd Solver.Alike (unify a b reason s)
      (Manner.leaving.unify a b reason s') := by
  have hs' := h.store.wellFormed hs
  refine (sameEnd_unify h hs ha hb).trans (fun _ _ _ => Solver.Alike.trans) ?_
  rw [← h.store.size] at ha hb
  exact sameEnd_of_fuelFor_le Manner.faithful_leaving
    (.refl h.store.acyclic') hs' ha hb (Nat.le_refl _)

end InferTrace
