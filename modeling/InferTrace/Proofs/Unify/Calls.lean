/-
Unification ends, and needs no bound for that.

The solver carries fuel. Here are its rules without: what a call of
pruning, of the occurs check, of linking and of unification does, in
terms of the calls that it makes (`Prunes`, `Searches`, `Links`,
`Unifies`). Nothing in the rules counts down. A variable on the right is
handled by a call with the types in exchange, and each call starts from
the store that the calls before it have left. A derivation is a finite
tree of calls, with their number as an index; a call that goes on for
ever has none, such as pruning a variable that is linked to itself
(`not_prunes_self`).

Two facts tie the rules to the solver:

- whatever the solver answers, if it is not that its fuel has run out,
  the rules give the same answer (`unifies_of_unifyWithin`). This holds of
  every store, with cycles or without;
- the rules give one answer at most (`Unifies.unique`): where the links
  end decides which rule applies.

In a store without cycles the fuel does not run out (`ends_unify`). So
there the rules have an answer: after finitely many calls unification
has come to an end.
-/
import InferTrace.Proofs.Unify.Symmetry

namespace InferTrace

-- =============================================================== rules

/-- Pruning `t` in the store `s` gives `r` and leaves `s'`, after so many
calls. -/
inductive Prunes : Nat → Ty → Store → Ty → Store → Prop
  | linked {n v : Nat} {t r : Ty} {s s' : Store} : s.link? v = some t →
      Prunes n t s r s' → Prunes (n + 1) (.var v) s r (s'.setLink v r)
  | stays {t : Ty} {s : Store} : s.isLinked t = false → Prunes 1 t s t s

/-- The type has no parts. -/
def Ty.isLeaf : Ty → Bool
  | int | bool | base _ | var _ => true
  | list _ _ | arrow _ _ _ => false

/-- Searching `t` for the variable `v` tells whether it was found. The
result of a function is searched if it is not in the parameter. -/
inductive Searches (v : Nat) : Nat → Ty → Store → Bool → Store → Prop
  | found {n : Nat} {t : Ty} {s s' : Store} : Prunes n t s (.var v) s' →
      Searches v (n + 1) t s true s'
  | absent {n : Nat} {t r : Ty} {s s' : Store} : Prunes n t s r s' →
      r.isLeaf = true → r ≠ .var v → Searches v (n + 1) t s false s'
  | list {n k m : Nat} {t e : Ty} {s s₁ s₂ : Store} {b : Bool} :
      Prunes n t s (.list m e) s₁ → Searches v k e s₁ b s₂ →
        Searches v (n + k + 1) t s b s₂
  | param {n k m : Nat} {t p r : Ty} {s s₁ s₂ : Store} :
      Prunes n t s (.arrow m p r) s₁ → Searches v k p s₁ true s₂ →
        Searches v (n + k + 1) t s true s₂
  | ret {n k l m : Nat} {t p r : Ty} {s s₁ s₂ s₃ : Store} {b : Bool} :
      Prunes n t s (.arrow m p r) s₁ → Searches v k p s₁ false s₂ →
        Searches v l r s₂ b s₃ → Searches v (n + k + l + 1) t s b s₃

/-- Linking the variable `v` to `t`, after the occurs check. -/
inductive Links (v : Nat) (t : Ty) (reason : String) (s : Solver) :
    Nat → EStateM.Result Clash Solver Unit → Prop
  | infinite {n : Nat} {store : Store} :
      Searches v n t s.store true store →
        Links v t reason s (n + 1)
          (.error (.infinite v t) ⟨store, s.bonds⟩)
  | rebound {n : Nat} {store : Store} {old : Ty} :
      Searches v n t s.store false store → store.link? v = some old →
        Links v t reason s (n + 1)
          (.error (.rebound v old) ⟨store, s.bonds⟩)
  | linked {n : Nat} {store : Store} :
      Searches v n t s.store false store → store.link? v = none →
        Links v t reason s (n + 1)
          (.ok () ⟨store.setLink v t,
            s.bonds.push ⟨v, t, reason, store.setLink v t⟩⟩)

/-- Two types are pruned, the second in the store that the first has
left. -/
inductive PrunesBoth (a b : Ty) (s : Store) :
    Nat → Ty → Ty → Store → Prop
  | intro {n k : Nat} {a' b' : Ty} {s₁ s₂ : Store} : Prunes n a s a' s₁ →
      Prunes k b s₁ b' s₂ → PrunesBoth a b s (n + k) a' b' s₂

/-- Unifying two types solves their equation or ends with a clash. -/
inductive Unifies : Nat → Ty → Ty → String → Solver →
    EStateM.Result Clash Solver Unit → Prop
  | same {n : Nat} {a b c : Ty} {reason : String} {s : Solver}
      {store : Store} : PrunesBoth a b s.store n c c store →
        Unifies (n + 1) a b reason s (.ok () ⟨store, s.bonds⟩)
  | link {n k v : Nat} {a b b' : Ty} {reason : String} {s : Solver}
      {store : Store} {res : EStateM.Result Clash Solver Unit} :
      PrunesBoth a b s.store n (.var v) b' store → .var v ≠ b' →
        Links v b' reason ⟨store, s.bonds⟩ k res →
          Unifies (n + k + 1) a b reason s res
  | swap {n k v : Nat} {a b a' : Ty} {reason : String} {s : Solver}
      {store : Store} {res : EStateM.Result Clash Solver Unit} :
      PrunesBoth a b s.store n a' (.var v) store → (∀ w, a' ≠ .var w) →
        Unifies k (.var v) a' reason ⟨store, s.bonds⟩ res →
          Unifies (n + k + 1) a b reason s res
  | list {n k m m' : Nat} {a b c d : Ty} {reason : String} {s : Solver}
      {store : Store} {res : EStateM.Result Clash Solver Unit} :
      PrunesBoth a b s.store n (.list m c) (.list m' d) store →
        Ty.list m c ≠ .list m' d →
        Unifies k c d "list element" ⟨store, s.bonds⟩ res →
          Unifies (n + k + 1) a b reason s res
  | param {n k m m' : Nat} {a b p r p' r' : Ty} {reason : String}
      {s s₁ : Solver} {store : Store} {clash : Clash} :
      PrunesBoth a b s.store n (.arrow m p r) (.arrow m' p' r') store →
        Ty.arrow m p r ≠ .arrow m' p' r' →
        Unifies k p p' "function parameter" ⟨store, s.bonds⟩
            (.error clash s₁) →
          Unifies (n + k + 1) a b reason s (.error clash s₁)
  | ret {n k l m m' : Nat} {a b p r p' r' : Ty} {reason : String}
      {s s₁ : Solver} {store : Store}
      {res : EStateM.Result Clash Solver Unit} :
      PrunesBoth a b s.store n (.arrow m p r) (.arrow m' p' r') store →
        Ty.arrow m p r ≠ .arrow m' p' r' →
        Unifies k p p' "function parameter" ⟨store, s.bonds⟩
            (.ok () s₁) →
          Unifies l r r' "function return" s₁ res →
            Unifies (n + k + l + 1) a b reason s res
  | mismatch {n : Nat} {a b a' b' : Ty} {reason : String} {s : Solver}
      {store : Store} {h k : Head} :
      PrunesBoth a b s.store n a' b' store → a'.head? = some h →
        b'.head? = some k → h ≠ k →
          Unifies (n + 1) a b reason s
            (.error (.mismatch a' b' reason) ⟨store, s.bonds⟩)

-- ========================================================== one answer

section Unique

variable {n n' v : Nat} {a b t r r' : Ty} {s s' s'' : Store}

/-- Pruning is counted, and ends, in one way only. -/
theorem Prunes.unique (h : Prunes n t s r s') (h' : Prunes n' t s r' s'') :
    n' = n ∧ r' = r ∧ s'' = s' := by
  induction h generalizing n' r' s'' with
  | stays hend =>
      cases h' with
      | stays => simp
      | linked hl => simp [Store.isLinked, Store.isBound, hl] at hend
  | linked hl _ ih =>
      cases h' with
      | stays hend => simp [Store.isLinked, Store.isBound, hl] at hend
      | linked hl' h' =>
          rw [hl] at hl'
          cases hl'
          obtain ⟨rfl, rfl, rfl⟩ := ih h'
          simp

/-- Where the links end decides which rule applies. -/
theorem Searches.unique {found found' : Bool}
    (h : Searches v n t s found s') (h' : Searches v n' t s found' s'') :
    n' = n ∧ found' = found ∧ s'' = s' := by
  induction h generalizing n' found' s'' with
  | found hp => cases h' <;> grind [Prunes.unique, Ty.isLeaf]
  | absent hp => cases h' <;> grind [Prunes.unique, Ty.isLeaf]
  | list hp _ ih => cases h' <;> grind [Prunes.unique, Ty.isLeaf]
  | param hp _ ih => cases h' <;> grind [Prunes.unique, Ty.isLeaf]
  | ret hp _ _ ih ih' => cases h' <;> grind [Prunes.unique, Ty.isLeaf]

/-- So does the binding of a variable. -/
theorem Links.unique {reason : String} {s : Solver}
    {res res' : EStateM.Result Clash Solver Unit}
    (h : Links v t reason s n res) (h' : Links v t reason s n' res') :
    n' = n ∧ res' = res := by
  cases h <;> cases h' <;> grind [Searches.unique]

/-- So does the pruning of both sides. -/
theorem PrunesBoth.unique {c c' d d' : Ty}
    (h : PrunesBoth a b s n c d s') (h' : PrunesBoth a b s n' c' d' s'') :
    n' = n ∧ c' = c ∧ d' = d ∧ s'' = s' := by
  cases h with
  | intro ha hb =>
      cases h' with
      | intro ha' hb' =>
          obtain ⟨rfl, rfl, rfl⟩ := ha.unique ha'
          obtain ⟨rfl, rfl, rfl⟩ := hb.unique hb'
          simp

/-- And so does solving; by induction on its account. -/
theorem Unifies.unique {reason : String} {s : Solver}
    {res res' : EStateM.Result Clash Solver Unit}
    (h : Unifies n a b reason s res) (h' : Unifies n' a b reason s res') :
    n' = n ∧ res' = res := by
  -- the ends are the same on both sides, and no two rules fit them
  induction h generalizing n' res' with
  | same hp => cases h' <;> grind [PrunesBoth.unique]
  | link hp hne hl =>
      cases h' <;> grind [PrunesBoth.unique, Links.unique, Ty.head?]
  | swap hp hne _ ih => cases h' <;> grind [PrunesBoth.unique, Ty.head?]
  | list hp hne _ ih => cases h' <;> grind [PrunesBoth.unique, Ty.head?]
  | param hp hne _ ih => cases h' <;> grind [PrunesBoth.unique, Ty.head?]
  | ret hp hne _ _ ih ih' =>
      cases h' <;> grind [PrunesBoth.unique, Ty.head?]
  | mismatch hp hh hk hne =>
      cases h' <;> grind [PrunesBoth.unique, Ty.head?]

end Unique

/-- A variable that is linked to itself is never done with. -/
theorem not_prunes_self {n v : Nat} {r : Ty} {s s' : Store}
    (hv : s.link? v = some (.var v)) : ¬ Prunes n (.var v) s r s' := by
  induction n generalizing s' with
  | zero =>
      intro h
      cases h
  | succ n ih =>
      intro h
      cases h with
      | stays hend => simp [Store.isLinked, Store.isBound, hv] at hend
      | linked hl h =>
          rw [hv] at hl
          cases hl
          exact ih h

-- ================================================ the solver's answers

namespace Store

variable {s s' : Store} {v w : Nat} {t r : Ty}

/-- What has a link keeps one when links are set. -/
theorem isBound_setLink (h : s.isBound w = true) :
    (s.setLink v t).isBound w = true := by
  by_cases hv : v < s.size
  · unfold isBound
    rw [link?_setLink hv]
    by_cases hw : w = v
    · rw [if_pos hw]
      rfl
    · rw [if_neg hw]
      exact h
  · have hsame : s.setLink v t = s := by
      have hv : ¬ v < s.links.size := hv
      simp [setLink, Array.setIfInBounds, hv]
    rw [hsame]
    exact h

/-- Pruning that has come to the end of the links has made the calls of
the rules. -/
theorem prunes_of_pruneWithin : ∀ (fuel : Nat) (t : Ty) {r : Ty}
    {s' : Store}, pruneWithin fuel t s = (r, s') →
      s'.isLinked r = false → ∃ n, Prunes n t s r s' := by
  intro fuel
  induction fuel with
  | zero =>
      intro t r s' hrun hend
      cases hrun
      exact ⟨1, .stays hend⟩
  | succ fuel ih =>
      intro t r s' hrun hend
      cases t with
      | var v =>
          cases hv : s.link? v with
          | none =>
              simp only [pruneWithin, hv] at hrun
              cases hrun
              exact ⟨1, .stays hend⟩
          | some t =>
              simp only [pruneWithin, hv] at hrun
              cases hrun
              have hend' : (pruneWithin fuel t s).2.isLinked
                  (pruneWithin fuel t s).1 = false := by
                cases hr : (pruneWithin fuel t s).1 with
                | var w =>
                    rw [hr] at hend
                    rw [← Bool.not_eq_true]
                    intro hw
                    have := isBound_setLink (v := v) (t := .var w) hw
                    exact absurd (this.symm.trans hend) (by decide)
                | _ => rfl
              obtain ⟨n, hn⟩ := ih t rfl hend'
              exact ⟨n + 1, .linked hv hn⟩
      | _ =>
          cases hrun
          exact ⟨1, .stays rfl⟩

/-- Pruning that ends has an account. -/
theorem prunes_of_prune? (h : s.prune? t = some (r, s')) :
    (∃ n, Prunes n t s r s') ∧ s'.isLinked r = false := by
  unfold prune? at h
  simp only [Option.ite_none_left_eq_some, Option.some.injEq] at h
  obtain ⟨hend, hrun⟩ := h
  obtain ⟨rfl, rfl⟩ := Prod.mk.inj hrun
  rw [Bool.not_eq_true] at hend
  exact ⟨prunes_of_pruneWithin _ t rfl hend, hend⟩

/-- A search may start from the end of the links. -/
theorem searches_of_prunes {n k : Nat} {s₁ s₂ : Store} {found : Bool}
    (hp : Prunes n t s r s₁) (hend : s₁.isLinked r = false)
    (h : Searches v k r s₁ found s₂) : ∃ l, Searches v l t s found s₂ := by
  have hself : Prunes 1 r s₁ r s₁ := .stays hend
  cases h with
  | found hr =>
      obtain ⟨-, rfl, rfl⟩ := hself.unique hr
      exact ⟨_, .found hp⟩
  | absent hr hleaf hne =>
      obtain ⟨-, rfl, rfl⟩ := hself.unique hr
      exact ⟨_, .absent hp hleaf hne⟩
  | list hr he =>
      obtain ⟨-, rfl, rfl⟩ := hself.unique hr
      exact ⟨_, .list hp he⟩
  | param hr hparam =>
      obtain ⟨-, rfl, rfl⟩ := hself.unique hr
      exact ⟨_, .param hp hparam⟩
  | ret hr hparam hret =>
      obtain ⟨-, rfl, rfl⟩ := hself.unique hr
      exact ⟨_, .ret hp hparam hret⟩

/-- What is asked of a search at a variable: if it ends, the rules give
its answer. -/
def Answers (v : Nat) (atVar : Nat → Store → Search × Store) : Prop :=
  ∀ w s found s', atVar w s = (Search.ofBool found, s') →
    ∃ n, Searches v n (.var w) s found s'

/-- A search through a type has an account if each of its variables has.
-/
theorem searches_of_occursVia {atVar : Nat → Store → Search × Store}
    (hvar : Answers v atVar) : ∀ (t : Ty) (found : Bool) {s s' : Store},
      occursVia atVar t s = (Search.ofBool found, s') →
        ∃ n, Searches v n t s found s' := by
  intro t
  induction t with
  | int | bool | base m =>
      intro found s s' h
      cases found with
      | true => cases h
      | false =>
          cases h
          exact ⟨_, .absent (.stays rfl) rfl (by simp)⟩
  | var w => exact fun found s s' h => hvar w s found s' h
  | list m t ih =>
      intro found s s' h
      obtain ⟨n, hn⟩ := ih found h
      exact ⟨_, .list (.stays rfl) hn⟩
  | arrow m p r ihp ihr =>
      intro found s s' h
      rw [occursVia] at h
      rcases hp : occursVia atVar p s with ⟨search, s₁⟩
      cases search with
      | found =>
          rw [hp] at h
          obtain ⟨n, hn⟩ := ihp true hp
          cases found with
          | true =>
              cases h
              exact ⟨_, .param (.stays rfl) hn⟩
          | false => cases h
      | absent =>
          rw [hp] at h
          obtain ⟨n, hn⟩ := ihp false hp
          obtain ⟨k, hk⟩ := ihr found h
          exact ⟨_, .ret (.stays rfl) hn hk⟩
      | endless =>
          rw [hp] at h
          cases found <;> cases h

/-- The search at a variable has one, with any fuel. -/
theorem answers_occursAt (fuel : Nat) : Answers v (occursAt v fuel) := by
  induction fuel with
  | zero =>
      intro w s found s' h
      cases found <;> cases h
  | succ fuel ih =>
      intro w s found s' h
      rw [occursAt] at h
      cases hp : s.prune? (.var w) with
      | none =>
          rw [hp] at h
          cases found <;> cases h
      | some ended =>
          obtain ⟨r, s₁⟩ := ended
          obtain ⟨⟨n, hn⟩, hend⟩ := prunes_of_prune? hp
          rw [hp] at h
          cases r with
          | var u =>
              by_cases huv : u = v
              · subst huv
                simp only [if_true] at h
                cases found with
                | true =>
                    cases h
                    exact ⟨_, .found hn⟩
                | false => cases h
              · simp only [if_neg huv] at h
                cases found with
                | true => cases h
                | false =>
                    cases h
                    exact ⟨_, .absent hn rfl (by simpa using huv)⟩
          | _ =>
              obtain ⟨k, hk⟩ := searches_of_occursVia ih _ found h
              exact searches_of_prunes hn hend hk

/-- An occurs check that ends has made the calls of the rules. -/
theorem searches_of_occurs (found : Bool)
    (h : s.occurs v t = (Search.ofBool found, s')) :
    ∃ n, Searches v n t s found s' :=
  searches_of_occursVia (answers_occursAt _) t found h

end Store

/-- The result is an answer: it is not that the fuel has run out. -/
def Answered (res : EStateM.Result Clash Solver Unit) : Prop :=
  ∀ s, res ≠ .error .endless s

namespace Solve

open Manner (shortening)

variable {a b t : Ty} {v : Nat} {reason : String} {s : Solver}

/-- Pruning makes the calls of the rules, or does not end. -/
theorem prune_cases (t : Ty) (s : Solver) :
    Solve.prune t s = .error .endless s ∨
      ∃ n r store, Prunes n t s.store r store ∧ store.isLinked r = false ∧
        Solve.prune t s = .ok r ⟨store, s.bonds⟩ := by
  have hget : (get : Solve Solver) s = .ok s s := rfl
  unfold Solve.prune
  rw [bind_of_ok hget]
  cases hp : s.store.prune? t with
  | none => exact Or.inl rfl
  | some ended =>
      obtain ⟨r, store⟩ := ended
      obtain ⟨⟨n, hn⟩, hend⟩ := Store.prunes_of_prune? hp
      exact Or.inr ⟨n, r, store, hn, hend, rfl⟩

theorem occurs_cases (v : Nat) (t : Ty) (s : Solver) :
    (∃ s', Solve.occurs v t s = .error .endless s') ∨
      ∃ n found store, Searches v n t s.store found store ∧
        Solve.occurs v t s = .ok found ⟨store, s.bonds⟩ := by
  rw [Solve.occurs, search_eq]
  rcases hrun : s.store.occurs v t with ⟨search, store⟩
  cases search with
  | endless => exact Or.inl ⟨_, rfl⟩
  | found =>
      obtain ⟨n, hn⟩ := Store.searches_of_occurs true hrun
      exact Or.inr ⟨n, true, store, hn, rfl⟩
  | absent =>
      obtain ⟨n, hn⟩ := Store.searches_of_occurs false hrun
      exact Or.inr ⟨n, false, store, hn, rfl⟩

/-- Linking that has ended has made the calls of the rules. -/
theorem links_of_bind (h : Answered (shortening.bind v t reason s)) :
    ∃ n, Links v t reason s n (shortening.bind v t reason s) := by
  have hget : ∀ s, (get : Solve Solver) s = .ok s s := fun _ => rfl
  have hoccurs : shortening.occurs v t s = Solve.occurs v t s := rfl
  unfold Manner.bind Manner.link at h ⊢
  rcases occurs_cases v t s with ⟨s', hrun⟩ | ⟨n, found, store, hn, hrun⟩
  · rw [bind_of_error (hoccurs.trans hrun)] at h
    exact absurd rfl (h s')
  · rw [bind_of_ok (hoccurs.trans hrun)]
    cases found with
    | true => exact ⟨_, .infinite hn⟩
    | false =>
        simp only [Bool.false_eq_true, if_false]
        rw [bind_of_ok (hget _)]
        unfold Store.bind
        cases hl : store.link? v with
        | none => exact ⟨_, .linked hn hl⟩
        | some old => exact ⟨_, .rebound hn hl⟩

/-- With this much fuel, an answer of the solver is the answer of the
rules. -/
def Obeys (fuel : Nat) : Prop :=
  ∀ (a b : Ty) (reason : String) (s : Solver),
    Answered (unifyWithin fuel a b reason s) →
      ∃ n, Unifies n a b reason s (unifyWithin fuel a b reason s)

/-- Functions are unified by their parameters and then, unless these
clash, by their results. -/
theorem unifies_of_arrows {fuel n m m' : Nat} {p r p' r' : Ty}
    {store : Store} (ih : Obeys fuel)
    (hp : PrunesBoth a b s.store n (.arrow m p r) (.arrow m' p' r') store)
    (hne : Ty.arrow m p r ≠ .arrow m' p' r')
    (h : Answered ((do
      unifyWithin fuel p p' "function parameter"
      unifyWithin fuel r r' "function return") ⟨store, s.bonds⟩)) :
    ∃ k, Unifies k a b reason s ((do
      unifyWithin fuel p p' "function parameter"
      unifyWithin fuel r r' "function return") ⟨store, s.bonds⟩) := by
  cases hrun : unifyWithin fuel p p' "function parameter"
      ⟨store, s.bonds⟩ with
  | error clash s₁ =>
      rw [bind_of_error hrun] at h ⊢
      rw [← hrun] at h
      obtain ⟨k, hk⟩ := ih _ _ _ _ h
      rw [hrun] at hk
      exact ⟨_, .param hp hne hk⟩
  | ok _ s₁ =>
      rw [bind_of_ok hrun] at h ⊢
      have hparam : Answered (unifyWithin fuel p p' "function parameter"
          ⟨store, s.bonds⟩) := by
        rw [hrun]
        simp [Answered]
      obtain ⟨k, hk⟩ := ih _ _ _ _ hparam
      obtain ⟨l, hl⟩ := ih _ _ _ _ h
      rw [hrun] at hk
      exact ⟨_, .ret hp hne hk hl⟩

/-- From the ends of the links on, the solver goes by the rules. -/
theorem unifies_of_meet {fuel n : Nat} {a' b' : Ty} {store : Store}
    (ih : Obeys fuel) (hp : PrunesBoth a b s.store n a' b' store)
    (hend : store.isLinked b' = false)
    (h : Answered (shortening.meet (unifyWithin fuel) a' b' reason
      ⟨store, s.bonds⟩)) :
    ∃ k, Unifies k a b reason s
      (shortening.meet (unifyWithin fuel) a' b' reason
        ⟨store, s.bonds⟩) := by
  by_cases heq : a' = b'
  · subst heq
    unfold Manner.meet
    rw [if_pos rfl]
    exact ⟨_, .same hp⟩
  by_cases hva : ∃ v, a' = .var v
  · obtain ⟨v, rfl⟩ := hva
    rw [Manner.meet_var_left heq] at h ⊢
    obtain ⟨k, hk⟩ := links_of_bind h
    exact ⟨_, .link hp heq hk⟩
  rw [not_exists] at hva
  by_cases hvb : ∃ v, b' = .var v
  · obtain ⟨v, rfl⟩ := hvb
    rw [Manner.meet_var_right hva] at h ⊢
    obtain ⟨k, hk⟩ := links_of_bind h
    -- both types are at their ends, and stay there if pruned again
    have hend' : store.isLinked a' = false := by
      cases a' with
      | var w => exact absurd rfl (hva w)
      | _ => rfl
    have hswapped : Unifies _ (.var v) a' reason ⟨store, s.bonds⟩ _ :=
      .link (.intro (.stays hend) (.stays hend')) (Ne.symm heq) hk
    exact ⟨_, .swap hp hva hswapped⟩
  rw [not_exists] at hvb
  unfold Manner.meet at h ⊢
  rw [if_neg heq] at h ⊢
  split at h
  · exact absurd rfl (hva _)
  · exact absurd rfl (hvb _)
  · exact unifies_of_arrows ih hp heq h
  · obtain ⟨k, hk⟩ := ih _ _ _ _ h
    exact ⟨_, .list hp heq hk⟩
  · rename_i harrow hlist
    obtain ⟨c, d, hc, hd, hne⟩ :=
      Ty.exists_head_ne heq hva hvb harrow hlist
    exact ⟨_, .mismatch hp hc hd hne⟩

/-- Whatever the solver answers, in any store, the rules give the same
answer. -/
theorem unifies_of_unifyWithin (fuel : Nat) : Obeys fuel := by
  induction fuel with
  | zero =>
      intro a b reason s h
      exact absurd rfl (h s)
  | succ fuel ih =>
      intro a b reason s h
      rw [unifyWithin_succ] at h ⊢
      rcases prune_cases a s with hrun | ⟨n, a', s₁, ha, -, hrun⟩
      · rw [bind_of_error hrun] at h
        exact absurd rfl (h s)
      rw [bind_of_ok hrun] at h ⊢
      rcases prune_cases b ⟨s₁, s.bonds⟩ with hrun | ⟨k, b', s₂, hb, hend, hrun⟩
      · rw [bind_of_error hrun] at h
        exact absurd rfl (h _)
      rw [bind_of_ok hrun] at h ⊢
      exact unifies_of_meet ih (.intro ha hb) hend h

end Solve

-- ========================================================= termination

/-- The fuel may be more. -/
theorem Store.Ready.mono {D fuel fuel' : Nat} {s : Store} {a b : Ty}
    (h : Store.Ready D fuel s a b) (hle : fuel ≤ fuel') :
    Store.Ready D fuel' s a b := by
  obtain ⟨d, hunder, hlt⟩ := h.reaches
  exact ⟨h.wellFormed, h.shallow, h.left, h.right, d, hunder, by omega⟩

/-- In a store without cycles the solver goes by the rules, with its own
fuel and with any more. -/
theorem exists_unifies {s : Solver} {a b : Ty} {fuel : Nat}
    (hs : s.store.WellFormed) (ha : a.Within s.store.size)
    (hb : b.Within s.store.size) (hfuel : s.store.fuelFor a b ≤ fuel)
    (reason : String) :
    ∃ n, Unifies n a b reason s
      (Solve.unifyWithin fuel a b reason s) := by
  have hready := (Store.ready_fuelFor hs ha hb).mono hfuel
  apply Solve.unifies_of_unifyWithin
  intro s' hrun
  exact ((Solve.ends_unifyWithin fuel a b reason s hready).of_error
    hrun).justified

/-- Unification ends. In a store without cycles, however it was made, the
rules lead after finitely many calls to an answer, and to no other: the
equation is solved or there is a clash to show. It is the answer of the
solver, and more fuel would not change it. -/
theorem unify_terminates {s : Solver} {a b : Ty} (hs : s.store.WellFormed)
    (ha : a.Within s.store.size) (hb : b.Within s.store.size)
    (reason : String) :
    ∃ n res, Unifies n a b reason s res ∧
      (∀ n' res', Unifies n' a b reason s res' → n' = n ∧ res' = res) ∧
      ((∃ s', res = .ok () s') ∨
        ∃ clash s', res = .error clash s' ∧ clash.Justified s'.store) ∧
      unify a b reason s = res ∧
      ∀ fuel, s.store.fuelFor a b ≤ fuel →
        Solve.unifyWithin fuel a b reason s = res := by
  obtain ⟨n, hn⟩ := exists_unifies hs ha hb (Nat.le_refl _) reason
  refine ⟨n, unify a b reason s, hn, fun _ _ => hn.unique, ?_, rfl, ?_⟩
  · have hends : Ends (unify a b reason) s _ _ := ends_unify hs ha hb
    cases hrun : unify a b reason s with
    | ok _ s' => exact Or.inl ⟨s', rfl⟩
    | error clash s' =>
        exact Or.inr ⟨clash, s', rfl, (hends.of_error hrun).justified⟩
  · intro fuel hfuel
    obtain ⟨k, hk⟩ := exists_unifies hs ha hb hfuel reason
    exact (hn.unique hk).2

/-- A function of lists of numbers, with the second variable as
result. -/
def listsFirst : Ty := .fn (.listOf .int) (.var 1)

/-- A function of the last variable, with the third as result. -/
def variablesFirst : Ty := .fn (.var 3) (.var 2)

/-- Parameters and results both come to a variable on the right, so that
the types are exchanged; the results in the store that the parameters
have left. -/
theorem unify_terminates_chained : ∃ (n : Nat) (s' : Solver),
    Unifies n listsFirst variablesFirst "" { store := .chained }
        (.ok () s') ∧
      s'.store.tree (.var 2) = .list .int := by
  obtain ⟨n, res, hn, -, -, hrun, -⟩ := unify_terminates
    (s := { store := .chained }) (a := listsFirst) (b := variablesFirst)
    (by decide) (by decide) (by decide) ""
  obtain ⟨s', hok, htree⟩ : ∃ s' : Solver,
      unify listsFirst variablesFirst "" { store := .chained }
        = .ok () s' ∧ s'.store.tree (.var 2) = .list .int :=
    ⟨_, rfl, rfl⟩
  rw [← hrun, hok] at hn
  exact ⟨n, s', hn, htree⟩

end InferTrace
