/-
Solving on top of another store.

The solver does on top of a store what it does without it: the same
links, between the same variables numbered on, with the same end
(`lifts_unify`). It never comes to a variable of the lower part, since
nothing that it is given leads there.

`Lifts` compares two computations of the solver, the second of which
starts on top. There is one exception. A computation may come to no end
for lack of fuel, and on top there is more of it; so nothing is asked
of that case, and the lemmas need no invariant of the store. Where an
equation is solved from a store without cycles the case does not arise.
-/
import InferTrace.Proofs.Ends
import InferTrace.Proofs.Store.Above
import InferTrace.Ty.Unify

namespace InferTrace

variable {r : Store}

-- ==================================================== what is on top

/-- A link, on top of `r`. -/
def Bond.above (b : Bond) (r : Store) : Bond :=
  { var := r.size + b.var
    type := b.type.shift r.size
    reason := b.reason
    store := b.store.above r }

/-- A solver, on top of `r`. -/
def Solver.above (s : Solver) (r : Store) : Solver :=
  { store := s.store.above r, bonds := s.bonds.map (·.above r) }

/-- A clash with its variables numbered on from `n`. -/
def Clash.shift (n : Nat) : Clash → Clash
  | mismatch a b reason => mismatch (a.shift n) (b.shift n) reason
  | infinite v t => infinite (n + v) (t.shift n)
  | rebound v t => rebound (n + v) (t.shift n)
  | endless => endless

-- ============================================ doing the same on top

namespace Solve

variable {α β γ δ : Type}

/-- On top of `r`, `y` ends as `x` does alone, unless `x` comes to no
end; `view` is what a value of `x` is on top. -/
def Lifts (r : Store) (view : α → β) (x : Solve α) (y : Solve β) : Prop :=
  ∀ s : Solver, Ends x s
    (fun value s' => y (s.above r) = .ok (view value) (s'.above r))
    fun clash s' => clash ≠ .endless →
      y (s.above r) = .error (clash.shift r.size) (s'.above r)

variable {view : α → β} {view' : γ → δ} {x : Solve α} {y : Solve β}

/-- Computations that lift, one after the other, lift. -/
theorem Lifts.bind {f : α → Solve γ} {g : β → Solve δ}
    (h : Lifts r view x y)
    (hf : ∀ value, Lifts r view' (f value) (g (view value))) :
    Lifts r view' (x >>= f) (y >>= g) := by
  intro s
  have hx := h s
  rw [ends_bind]
  unfold Ends at hx ⊢
  cases hrun : x s with
  | ok value s₁ =>
      rw [hrun] at hx
      simp only [bind_of_ok hx]
      exact hf value s₁
  | error clash s₁ =>
      rw [hrun] at hx
      exact fun hclash => bind_of_error (hx hclash)

theorem lifts_pure (value : α) :
    Lifts r view (pure value) (pure (view value)) :=
  fun _ => rfl

theorem lifts_throw (clash : Clash) :
    Lifts r view (throw clash) (throw (clash.shift r.size)) :=
  fun _ _ => rfl

/-- Nothing is asked where fuel has run out. -/
theorem lifts_endless : Lifts r view (throw .endless) y :=
  fun _ h => absurd rfl h

/-- The state above is the state, put above. -/
theorem lifts_get : Lifts r (·.above r) get get :=
  fun _ => rfl

/-- A state may be set before or after it is put above. -/
theorem lifts_set (s : Solver) : Lifts r id (set s) (set (s.above r)) :=
  fun _ => rfl

/-- Pruning lifts. -/
theorem lifts_prune (t : Ty) :
    Lifts r (Ty.shift r.size) (prune t) (prune (t.shift r.size)) := by
  unfold prune
  refine lifts_get.bind fun s => ?_
  cases hprune : s.store.prune? t with
  | none => exact lifts_endless
  | some found =>
      obtain ⟨q, store⟩ := found
      have habove : (s.above r).store.prune? (t.shift r.size) = _ :=
        Store.prune?_above hprune
      rw [habove]
      exact (lifts_set { s with store }).bind fun _ => lifts_pure q

/-- So does the occurs check. -/
theorem lifts_occurs (v : Nat) (t : Ty) :
    Lifts r id (occurs v t) (occurs (r.size + v) (t.shift r.size)) := by
  unfold occurs search
  refine lifts_get.bind fun s => ?_
  dsimp only
  have habove : (s.store.occurs v t).1 ≠ .endless →
      (s.above r).store.occurs (r.size + v) (t.shift r.size) = _ :=
    Store.occurs_above
  cases hsearch : s.store.occurs v t with
  | mk search store =>
  rw [hsearch] at habove
  cases search with
  | endless => exact fun _ h => absurd rfl h
  | found =>
      rw [habove (by simp)]
      exact (lifts_set { s with store }).bind fun _ => lifts_pure true
  | absent =>
      rw [habove (by simp)]
      exact (lifts_set { s with store }).bind fun _ => lifts_pure false

/-- To note a link on top is to note it numbered on. -/
theorem lifts_keep (bond : Bond) :
    Lifts r id (Manner.shortening.keep bond)
      (Manner.shortening.keep (bond.above r)) := by
  intro s
  have hpush : (s.above r).bonds.push (bond.above r)
      = (s.bonds.push bond).map (·.above r) := Array.map_push.symm
  show EStateM.Result.ok () (Solver.mk _ _) = _
  rw [hpush]
  rfl

/-- So does the binding of a variable: its check, its link and its note.
-/
theorem lifts_bind (v : Nat) (t : Ty) (reason : String) :
    Lifts r id (Manner.shortening.bind v t reason)
      (Manner.shortening.bind (r.size + v) (t.shift r.size) reason) := by
  unfold Manner.bind Manner.link
  refine (lifts_occurs v t).bind fun found => ?_
  cases found with
  | true => exact lifts_throw (.infinite v t)
  | false =>
      refine lifts_get.bind fun s => ?_
      have hlink : (s.above r).store.link? (r.size + v) = _ :=
        Store.link?_above_right v
      unfold Store.bind
      rw [hlink]
      cases s.store.link? v with
      | some old => exact lifts_throw (.rebound v old)
      | none =>
          have hset : (s.above r).store.setLink (r.size + v) (t.shift r.size)
              = (s.store.setLink v t).above r := Store.setLink_above v t
          simp only [Option.map_none, hset]
          refine (lifts_set { s with store := s.store.setLink v t }).bind ?_
          exact fun _ => lifts_keep { var := v, type := t, reason, store := _ }

/-- And so does solving, with any fuel that is not less; by induction on
the fuel. -/
theorem lifts_unifyWithin : ∀ (fuel : Nat) (a b : Ty) (reason : String)
    (more : Nat), fuel ≤ more →
      Lifts r id (unifyWithin fuel a b reason)
        (unifyWithin more (a.shift r.size) (b.shift r.size) reason) := by
  intro fuel
  induction fuel with
  | zero => exact fun a b reason more _ => lifts_endless
  | succ fuel ih =>
      intro a b reason more hmore
      obtain ⟨more, rfl⟩ := Nat.exists_eq_add_of_le' hmore
      rw [← Nat.add_assoc, unifyWithin_succ, unifyWithin_succ]
      refine (lifts_prune a).bind fun a => ?_
      refine (lifts_prune b).bind fun b => ?_
      unfold Manner.meet
      have hfuel : fuel ≤ more + fuel := Nat.le_add_left ..
      by_cases heq : a = b
      · rw [if_pos heq, if_pos (Ty.shift_inj.2 heq)]
        exact lifts_pure ()
      · rw [if_neg heq, if_neg (mt Ty.shift_inj.1 heq)]
        cases a with
        | var v => exact lifts_bind v b reason
        | arrow m p q =>
            cases b with
            | var v => exact lifts_bind v (.arrow m p q) reason
            | arrow m' p' q' =>
                refine (ih p p' _ _ hfuel).bind fun _ => ?_
                exact ih q q' _ _ hfuel
            | _ => exact lifts_throw (.mismatch _ _ reason)
        | list m t =>
            cases b with
            | var v => exact lifts_bind v (.list m t) reason
            | list m' t' => exact ih t t' _ _ hfuel
            | _ => exact lifts_throw (.mismatch _ _ reason)
        | int | bool | base =>
            cases b with
            | var v => exact lifts_bind v _ reason
            | _ => exact lifts_throw (.mismatch _ _ reason)

end Solve

-- ================================================= enough fuel on top

/-- A type numbered on has as many nodes. -/
theorem Ty.size_shift (n : Nat) (t : Ty) : (t.shift n).size = t.size := by
  induction t with
  | int | bool | base | var => rfl
  | list m t ih => exact congrArg (· + 1) ih
  | arrow m p q ihp ihq => simp only [Ty.shift, Ty.size, ihp, ihq]

/-- The nodes of both stores add up. -/
theorem Store.nodes_above (s r : Store) :
    (s.above r).nodes = r.nodes + s.nodes := by
  let count n (link : Option Ty) := n + link.elim 0 Ty.size
  have hshift : (fun n link => count n (link.map (Ty.shift r.size)))
      = count := by
    funext n link
    cases link with
    | none => rfl
    | some t => exact congrArg (n + ·) (Ty.size_shift _ t)
  have hsum : ∀ n, s.links.foldl count (n + 0) = n + s.links.foldl count 0 := by
    intro n
    have hadd : ∀ k link, count (n + k) link = n + count k link :=
      fun _ _ => Nat.add_assoc ..
    exact Array.foldl_hom (n + ·) hadd
  have hlinks : (s.above r).links.foldl count 0
      = r.links.foldl count 0 + s.links.foldl count 0 := by
    unfold above
    rw [Array.foldl_append, Array.foldl_map, hshift]
    exact hsum _
  show (s.above r).size + (s.above r).links.foldl count 0
    = r.size + r.links.foldl count 0 + (s.size + s.links.foldl count 0)
  rw [size_above, hlinks]
  omega

/-- Above another store there is no less fuel. -/
theorem Store.fuelFor_le_above (s r : Store) (a b : Ty) :
    s.fuelFor a b ≤ (s.above r).fuelFor (a.shift r.size) (b.shift r.size) := by
  unfold fuelFor
  simp only [nodes_above, Ty.size_shift]
  have hnodes : s.nodes + a.size + b.size
      ≤ r.nodes + s.nodes + a.size + b.size := by omega
  exact Nat.succ_le_succ (Nat.mul_le_mul hnodes hnodes)

/-- The solver does on top of a store what it does without it. -/
theorem lifts_unify (a b : Ty) (reason : String) :
    Solve.Lifts r id (unify a b reason)
      (unify (a.shift r.size) (b.shift r.size) reason) := by
  intro s
  exact Solve.lifts_unifyWithin _ a b reason _
    (s.store.fuelFor_le_above r a b) s

end InferTrace
