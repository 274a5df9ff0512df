/-
Unification solves an equation, in the most general way, or there is no
solution.

Two outcomes of solving `a = b` from a store `s` are told apart:

- `Solved`: the store has grown to one whose solutions are exactly the
  solutions of `s` that make `a` and `b` equal. Nothing else has been
  imposed, and nothing less.
- `Refuted`: the solver has stopped with a clash that it can show, and
  no solution of `s`, the store before the call, makes the two equal.

Each rule of the algorithm is a lemma about these: an equation of lists
is solved as that of their elements is (`Solved.list`), an equation of
arrows by solving the parameters and then, in the store that leaves,
the results (`Solved.arrow`, `Refuted.ret`), and a variable is linked
or does not fit (`Solved.link`, `Refuted.infinite`). The solver's own
recursion then puts the rules together (`Solve.ends_unifyWithin`), with
the invariant that keeps it from running out of fuel (`Store.Ready`).
-/
import InferTrace.Proofs.Ends
import InferTrace.Proofs.Store.Finite
import InferTrace.Proofs.Unify.Depth
import InferTrace.Trace

namespace InferTrace

variable {s s' s₁ : Store} {a b t p r p' r' : Ty} {v m m' : Nat}
  {θ : Nat → Tree} {clash : Clash}

-- ============================================ outermost constructors

/-- The outermost constructor of a type; each base type is one of its
own. -/
inductive Head where
  | int
  | bool
  | base (mark : Nat)
  | list
  | arrow
deriving DecidableEq, Repr

/-- The outermost constructor of a type that is no variable. -/
def Ty.head? : Ty → Option Head
  | int => some .int
  | bool => some .bool
  | base m => some (.base m)
  | var _ => none
  | list _ _ => some .list
  | arrow _ _ _ => some .arrow

/-- The outermost constructor of a tree that is no variable. -/
def Tree.head? : Tree → Option Head
  | int => some .int
  | bool => some .bool
  | base m => some (.base m)
  | var _ => none
  | list _ => some .list
  | arrow _ _ => some .arrow

/-- A head stays in place under a substitution. -/
theorem Ty.head?_inst {h : Head} (ht : t.head? = some h) :
    (t.inst θ).head? = some h := by
  cases t with
  | var v => cases ht
  | _ => exact ht

/-- Types that differ in their outermost constructors are never
equal. -/
theorem Ty.inst_ne_of_head {h k : Head} (ha : a.head? = some h)
    (hb : b.head? = some k) (hne : h ≠ k) : a.inst θ ≠ b.inst θ := by
  intro heq
  have hh := Ty.head?_inst (θ := θ) ha
  rw [heq, Ty.head?_inst hb] at hh
  exact hne (Option.some.inj hh).symm

/-- What is left when no rule applies: types that are no variables and
have different outermost constructors. -/
theorem Ty.exists_head_ne (hne : a ≠ b) (ha : ∀ v, a ≠ .var v)
    (hb : ∀ v, b ≠ .var v)
    (harrow : ∀ m p r m' p' r', a = .arrow m p r → b ≠ .arrow m' p' r')
    (hlist : ∀ m t m' t', a = .list m t → b ≠ .list m' t') :
    ∃ h k, a.head? = some h ∧ b.head? = some k ∧ h ≠ k := by
  have hsome : ∀ {t : Ty}, (∀ v, t ≠ .var v) → ∃ h, t.head? = some h := by
    intro t ht
    cases t with
    | var v => exact absurd rfl (ht v)
    | _ => exact ⟨_, rfl⟩
  obtain ⟨h, hh⟩ := hsome ha
  obtain ⟨k, hk⟩ := hsome hb
  refine ⟨h, k, hh, hk, fun heq => ?_⟩
  rw [← heq, ← hh] at hk
  cases a with
  | var v => exact ha v rfl
  | int =>
      cases b with
      | int => exact hne rfl
      | _ => cases hk
  | bool =>
      cases b with
      | bool => exact hne rfl
      | _ => cases hk
  | base m =>
      cases b with
      | base m' =>
          cases hk
          exact hne rfl
      | _ => cases hk
  | list m t =>
      cases b with
      | list m' t' => exact hlist m t m' t' rfl rfl
      | _ => cases hk
  | arrow m p r =>
      cases b with
      | arrow m' p' r' => exact harrow m p r m' p' r' rfl rfl
      | _ => cases hk

-- ========================================================= outcomes

/-- What a clash shows of the store that it was raised in. -/
def Clash.Justified (s : Store) : Clash → Prop
  | .mismatch l r _ =>
      ∃ h k, l.head? = some h ∧ r.head? = some k ∧ h ≠ k
  | .infinite v t => v < s.size ∧ s.link? v = none ∧
      t.head?.isSome ∧ v ∈ (s.tree t).vars
  | .rebound _ _ => False
  | .endless => False

/-- A clash with something to show is a fault of the node. -/
theorem Clash.Justified.exists_fault {clash : Clash} {s : Store}
    (h : clash.Justified s) (node : Option String) :
    ∃ f : Fault, clash.halt s node = .fault f ∧ f.node = node := by
  cases clash with
  | mismatch | infinite => exact ⟨_, rfl, rfl⟩
  | rebound | endless => exact h.elim

/-- The store has grown to say that `a` and `b` are equal, and no
more. -/
structure Solved (a b : Ty) (s s' : Store) : Prop where
  grows : s.Grows s'
  size : s'.size = s.size
  solvedBy_iff : ∀ θ, s'.SolvedBy θ ↔ s.SolvedBy θ ∧ a.inst θ = b.inst θ

/-- No solution makes `a` and `b` equal, as the clash shows. -/
structure Refuted (a b : Ty) (s : Store) (clash : Clash) (s' : Store) :
    Prop where
  grows : s.Grows s'
  justified : clash.Justified s'
  inst_ne : ∀ θ, s.SolvedBy θ → a.inst θ ≠ b.inst θ

theorem Solved.refl (s : Store) (a : Ty) : Solved a a s s :=
  ⟨.refl s, rfl, fun _ => ⟨fun h => ⟨h, rfl⟩, fun h => h.1⟩⟩

theorem Solved.symm (h : Solved a b s s') : Solved b a s s' := by
  refine ⟨h.grows, h.size, fun θ => ?_⟩
  rw [h.solvedBy_iff, eq_comm]

theorem Refuted.symm (h : Refuted a b s clash s') :
    Refuted b a s clash s' :=
  ⟨h.grows, h.justified, fun θ hθ heq => h.inst_ne θ hθ heq.symm⟩

/-- The ends of the links may stand for the types. -/
theorem Solved.of_resolve (h : Solved (s.resolve a) (s.resolve b) s₁ s')
    (hs : s.Acyclic) (hsh : s.Shortens s₁) : Solved a b s s' := by
  refine ⟨(Store.Step.shorten hsh).grows.trans h.grows,
    h.size.trans hsh.size, fun θ => ?_⟩
  rw [h.solvedBy_iff, hsh.solvedBy_iff hs]
  constructor
  · rintro ⟨hθ, heq⟩
    rw [hθ.inst_resolve hs, hθ.inst_resolve hs] at heq
    exact ⟨hθ, heq⟩
  · rintro ⟨hθ, heq⟩
    rw [hθ.inst_resolve hs, hθ.inst_resolve hs]
    exact ⟨hθ, heq⟩

/-- What is refuted of the ends of two chains is refuted of the types.
-/
theorem Refuted.of_resolve
    (h : Refuted (s.resolve a) (s.resolve b) s₁ clash s')
    (hs : s.Acyclic) (hsh : s.Shortens s₁) : Refuted a b s clash s' := by
  refine ⟨(Store.Step.shorten hsh).grows.trans h.grows, h.justified, ?_⟩
  intro θ hθ heq
  refine h.inst_ne θ ((hsh.solvedBy_iff hs).2 hθ) ?_
  rw [hθ.inst_resolve hs, hθ.inst_resolve hs]
  exact heq

-- ============================================================ rules

/-- Lists are equal as their elements are. -/
theorem Solved.list (h : Solved a b s s') :
    Solved (.list m a) (.list m' b) s s' := by
  refine ⟨h.grows, h.size, fun θ => ?_⟩
  rw [h.solvedBy_iff, Ty.inst, Ty.inst, Tree.list.injEq]

/-- Lists are refuted with their elements. -/
theorem Refuted.list (h : Refuted a b s clash s') :
    Refuted (.list m a) (.list m' b) s clash s' := by
  refine ⟨h.grows, h.justified, fun θ hθ heq => ?_⟩
  exact h.inst_ne θ hθ (Tree.list.inj heq)

/-- Arrows are equal as their parameters and their results are; the
store that the parameters leave says the first. -/
theorem Solved.arrow (hp : Solved p p' s s₁) (hr : Solved r r' s₁ s') :
    Solved (.arrow m p r) (.arrow m' p' r') s s' := by
  refine ⟨hp.grows.trans hr.grows, hr.size.trans hp.size, fun θ => ?_⟩
  rw [hr.solvedBy_iff, hp.solvedBy_iff, Ty.inst, Ty.inst,
    Tree.arrow.injEq, and_assoc]

/-- Functions are refuted with their parameters. -/
theorem Refuted.param (h : Refuted p p' s clash s') :
    Refuted (.arrow m p r) (.arrow m' p' r') s clash s' := by
  refine ⟨h.grows, h.justified, fun θ hθ heq => ?_⟩
  exact h.inst_ne θ hθ (Tree.arrow.inj heq).1

/-- A clash of the results, found once the parameters are equal, counts
for the store before: a solution of that store which makes the arrows
equal would solve the store in between. -/
theorem Refuted.ret (hp : Solved p p' s s₁) (hr : Refuted r r' s₁ clash s') :
    Refuted (.arrow m p r) (.arrow m' p' r') s clash s' := by
  refine ⟨hp.grows.trans hr.grows, hr.justified, fun θ hθ heq => ?_⟩
  obtain ⟨hpp, hrr⟩ := Tree.arrow.inj heq
  exact hr.inst_ne θ ((hp.solvedBy_iff θ).2 ⟨hθ, hpp⟩) hrr

/-- A variable that does not occur in the type is linked to it. -/
theorem Solved.link (hs : s.Acyclic) (hsh : s.Shortens s₁)
    (hv : v < s.size) (hfree : s.link? v = none) (ht : t.Within s.size)
    (hocc : v ∉ (s.tree t).vars) :
    Solved (.var v) t s (s₁.setLink v t) := by
  have hv₁ : v < s₁.size := by
    rw [hsh.size]
    exact hv
  have hfree₁ : s₁.link? v = none := hsh.link?_eq_none_iff.2 hfree
  have hstep : s₁.Step (s₁.setLink v t) := by
    refine .link hv₁ hfree₁ ?_ ?_
    · rw [hsh.size]
      exact ht
    · rw [hsh.tree hs]
      exact hocc
  refine ⟨(Store.Step.shorten hsh).grows.trans hstep.grows,
    Store.size_setLink.trans hsh.size, fun θ => ?_⟩
  rw [Store.solvedBy_setLink_iff hv₁ hfree₁, hsh.solvedBy_iff hs]
  exact Iff.rfl

/-- A variable that occurs strictly inside a type cannot equal it: what
the type stands for would be larger than itself. -/
theorem Refuted.infinite (hs : s.Acyclic) (hsh : s.Shortens s')
    (hv : v < s.size) (hfree : s.link? v = none)
    (hend : s.isLinked t = false) (hne : t ≠ .var v)
    (hocc : v ∈ (s.tree t).vars) :
    Refuted (.var v) t s (.infinite v t) s' := by
  have hhead : t.head?.isSome := by
    cases t with
    | var w =>
        have htree : s.tree (.var w) = .var w :=
          Store.assign_of_none (Store.isBound_eq_false_iff.1 hend)
        rw [htree] at hocc
        rw [List.mem_singleton.1 hocc] at hne
        exact absurd rfl hne
    | _ => rfl
  refine ⟨(Store.Step.shorten hsh).grows, ⟨?_, ?_, hhead, ?_⟩, ?_⟩
  · rw [hsh.size]
    exact hv
  · exact hsh.link?_eq_none_iff.2 hfree
  · rw [hsh.tree hs]
    exact hocc
  · intro θ hθ heq
    have hvar : s.tree t ≠ .var v := by
      cases t with
      | var w => cases hhead
      | _ => exact Tree.noConfusion
    have hlt := Tree.size_lt_subst (θ := θ) hocc hvar
    rw [← hθ.inst_eq hs, ← heq] at hlt
    exact Nat.lt_irrefl _ hlt

-- ======================================================= the solver

namespace Solve

variable {s : Solver} {reason : String}

/-- Pruning ends, with the end of the chain. -/
theorem ends_prune (h : s.store.Acyclic) (t : Ty) :
    Ends (Solve.prune t) s
      (fun r s' => r = s.store.resolve t ∧ s.store.Shortens s'.store ∧
        s'.bonds = s.bonds)
      fun _ _ => False := by
  unfold Solve.prune
  rw [ends_bind, ends_get, h.prune?_eq]
  exact ⟨rfl, h.shortens_prune t, rfl⟩

/-- First the solver comes to the ends of the two types. -/
theorem exists_meet (h : s.store.Acyclic) (fuel : Nat) (a b : Ty)
    (reason : String) :
    ∃ r, s.store.Shortens r ∧
      unifyWithin (fuel + 1) a b reason s =
        Manner.shortening.meet (unifyWithin fuel) (s.store.resolve a)
          (s.store.resolve b) reason ⟨r, s.bonds⟩ := by
  obtain ⟨_, s₁, hrun₁, rfl, hsh₁, hbonds₁⟩ := (ends_prune h a).exists_ok
  obtain ⟨_, s₂, hrun₂, rfl, hsh₂, hbonds₂⟩ :=
    (ends_prune (hsh₁.acyclic h) b).exists_ok
  refine ⟨s₂.store, hsh₁.trans hsh₂ h, ?_⟩
  rw [unifyWithin_succ, bind_of_ok hrun₁, bind_of_ok hrun₂,
    hsh₁.resolve h, ← hbonds₁, ← hbonds₂]

/-- To search is to keep the store that is left, and to give what was
found unless that is nothing at all. -/
theorem search_eq (find : Store → Store.Search × Store) (s : Solver) :
    Solve.search find s = match find s.store with
      | (.found, store) => .ok true { s with store := store }
      | (.absent, store) => .ok false { s with store := store }
      | (.endless, store) => .error .endless { s with store := store } := by
  have hget : (get : Solve Solver) s = .ok s s := rfl
  unfold Solve.search
  rw [bind_of_ok hget]
  rcases find s.store with ⟨search, store⟩
  cases search with
  | found | absent | endless => rfl

/-- The occurs check ends, with the right answer. -/
theorem ends_occurs (h : s.store.Acyclic) (v : Nat) (t : Ty) :
    Ends (Solve.occurs v t) s
      (fun found s' => found = s.store.inTree v t ∧
        s.store.Shortens s'.store ∧ s'.bonds = s.bonds)
      fun _ _ => False := by
  obtain ⟨s', hsh, heq⟩ := h.occurs_eq v t
  unfold Ends Solve.occurs
  rw [search_eq, heq]
  cases s.store.inTree v t with
  | true => exact ⟨rfl, hsh, rfl⟩
  | false => exact ⟨rfl, hsh, rfl⟩

/-- Linking a variable that has no link solves its equation or shows
that the type would be infinite. -/
theorem ends_link {D : Nat} (h : s.store.WellFormed)
    (hshallow : s.store.Shallow D) (hv : v < s.store.size)
    (hfree : s.store.link? v = none) (ht : t.Within s.store.size)
    (hheight : t.height ≤ D) (hend : s.store.isLinked t = false)
    (hne : t ≠ .var v) :
    Ends (Manner.shortening.bind v t reason) s
      (fun _ s' => Solved (.var v) t s.store s'.store ∧ s'.store.Shallow D)
      fun clash s' => Refuted (.var v) t s.store clash s'.store := by
  unfold Manner.bind Manner.link
  rw [ends_bind]
  refine (ends_occurs h.acyclic v t).mono ?_ fun _ _ hf => hf.elim
  rintro found s₁ ⟨hfound, hsh, -⟩
  cases hin : s.store.inTree v t with
  | true =>
      rw [hfound, hin]
      exact Refuted.infinite h.acyclic hsh hv hfree hend hne
        (of_decide_eq_true hin)
  | false =>
      have hbind : s₁.store.bind v t = .ok (s₁.store.setLink v t) := by
        unfold Store.bind
        rw [hsh.link?_eq_none_iff.2 hfree]
      rw [hfound, hin]
      simp only [Bool.false_eq_true, if_false]
      rw [ends_bind, ends_get, hbind]
      refine ⟨Solved.link h.acyclic hsh hv hfree ht (of_decide_eq_false hin), ?_⟩
      refine (hshallow.shorten h.acyclic hsh).setLink ?_ hheight
      rw [hsh.size]
      exact hv

/-- With this much fuel, solving an equation solves or refutes it. -/
def Settles (D fuel : Nat) : Prop :=
  ∀ (a b : Ty) (reason : String) (s : Solver),
    Store.Ready D fuel s.store a b →
      Ends (unifyWithin fuel a b reason) s
        (fun _ s' => Solved a b s.store s'.store ∧ s'.store.Shallow D)
        fun clash s' => Refuted a b s.store clash s'.store

/-- An equation between the ends of links is solved or refuted, if those
of the parts are. -/
theorem Settles.ends_meet {D fuel : Nat} (ih : Settles D fuel) {a b : Ty}
    (h : Store.Ready D (fuel + 1) s.store a b)
    (ha : s.store.isLinked a = false) (hb : s.store.isLinked b = false)
    (reason : String) :
    Ends (Manner.shortening.meet (unifyWithin fuel) a b reason) s
      (fun _ s' => Solved a b s.store s'.store ∧ s'.store.Shallow D)
      fun clash s' => Refuted a b s.store clash s'.store := by
  have hs := h.wellFormed
  unfold Manner.meet
  by_cases heq : a = b
  · rw [if_pos heq, heq, ends_pure]
    exact ⟨.refl _ _, h.shallow⟩
  · rw [if_neg heq]
    split
    · exact ends_link hs h.shallow (Ty.within_var.1 h.left.1)
        (Store.isBound_eq_false_iff.1 ha) h.right.1 h.right.2 hb
        (Ne.symm heq)
    · refine (ends_link hs h.shallow (Ty.within_var.1 h.right.1)
        (Store.isBound_eq_false_iff.1 hb) h.left.1 h.left.2 ha heq).mono
        ?_ ?_
      · exact fun _ _ hd => ⟨hd.1.symm, hd.2⟩
      · exact fun _ _ hr => hr.symm
    · rw [ends_bind]
      refine (ih _ _ _ _ h.param).mono ?_ fun _ _ hr => hr.param
      rintro _ s₁ ⟨hp, hshallow⟩
      refine (ih _ _ _ _ (h.ret.grows hp.grows hp.size hshallow)).mono ?_ ?_
      · exact fun _ _ hd => ⟨hp.arrow hd.1, hd.2⟩
      · exact fun _ _ hr => hr.ret hp
    · refine (ih _ _ _ _ h.elem).mono ?_ ?_
      · exact fun _ _ hd => ⟨hd.1.list, hd.2⟩
      · exact fun _ _ hr => hr.list
    · rename_i hleft hright harrow hlist
      obtain ⟨h, k, hh, hk, hhk⟩ :=
        Ty.exists_head_ne heq hleft hright harrow hlist
      exact ⟨.refl _, ⟨h, k, hh, hk, hhk⟩,
        fun _ _ => Ty.inst_ne_of_head hh hk hhk⟩

/-- Solving an equation solves or refutes it, and does not run out of
fuel. -/
theorem ends_unifyWithin {D : Nat} (fuel : Nat) : Settles D fuel := by
  induction fuel with
  | zero =>
      intro a b reason s h
      exact absurd h.pos (Nat.lt_irrefl 0)
  | succ fuel ih =>
      intro a b reason s h
      have hs := h.wellFormed.acyclic
      -- what holds between the ends of the links holds between the types
      obtain ⟨r, hsh, hrun⟩ := exists_meet hs fuel a b reason
      have hmeet := ih.ends_meet (s := ⟨r, s.bonds⟩) (h.shorten hsh)
        (hsh.isLinked_resolve hs a) (hsh.isLinked_resolve hs b) reason
      refine (hmeet.mono ?_ ?_).of_eq hrun
      · exact fun _ _ hd => ⟨hd.1.of_resolve hs hsh, hd.2⟩
      · exact fun _ _ hr => hr.of_resolve hs hsh

end Solve

/-- Unification solves its equation or refutes it. -/
theorem ends_unify {s : Solver} {reason : String} (h : s.store.WellFormed)
    (ha : a.Within s.store.size) (hb : b.Within s.store.size) :
    Ends (unify a b reason) s (fun _ s' => Solved a b s.store s'.store)
      fun clash s' => Refuted a b s.store clash s'.store := by
  show Ends (Solve.unifyWithin (s.store.fuelFor a b) a b reason) s _ _
  exact (Solve.ends_unifyWithin _ a b reason s
    (Store.ready_fuelFor h ha hb)).mono (fun _ _ hd => hd.1) fun _ _ hr => hr

/-- A tracer takes over what a solver has come to, and a clash halts
inference in the words of the store that it was raised in. -/
theorem Traced.ends_solve {t : Tracer} {x : Solve Unit}
    {node : Option String} {done : Unit → Solver → Prop}
    {halted : Clash → Solver → Prop}
    (h : Ends x { store := t.store } done halted) :
    Ends (Traced.solve x node) t
      (fun _ t' => ∃ s', t' = t.absorb s' node ∧ done () s')
      fun halt t' => ∃ clash s', t' = t.absorb s' node ∧
        halt = clash.halt s'.store node ∧ halted clash s' := by
  unfold Ends Traced.solve
  cases hx : x { store := t.store } with
  | ok _ s' => exact ⟨s', rfl, h.of_ok hx⟩
  | error clash s' => exact ⟨clash, s', rfl, rfl, h.of_error hx⟩

/-- Unification on behalf of a node. -/
theorem Traced.ends_unify {t : Tracer} {reason : String}
    {node : Option String} (h : t.store.WellFormed)
    (ha : a.Within t.store.size) (hb : b.Within t.store.size) :
    Ends (Traced.unify a b reason node) t
      (fun _ t' => Solved a b t.store t'.store)
      fun halt t' => ∃ clash : Clash, halt = clash.halt t'.store node ∧
        Refuted a b t.store clash t'.store := by
  have hends : Ends (InferTrace.unify a b reason) { store := t.store } _ _ :=
    InferTrace.ends_unify h ha hb
  refine (Traced.ends_solve hends).mono ?_ ?_
  · rintro _ _ ⟨s', rfl, hsolved⟩
    exact hsolved
  · rintro _ _ ⟨clash, s', rfl, rfl, hrefuted⟩
    exact ⟨clash, rfl, hrefuted⟩

-- ===================================================== the two sides

/-- A successful unification computes a most general unifier: the
assignments that satisfy the links afterwards are those that satisfied
them before and make the two types equal. In particular the two have
one tree. -/
theorem unify_most_general {t t' : Tracer} {reason : String}
    {node : Option String} (h : t.store.WellFormed)
    (ha : a.Within t.store.size) (hb : b.Within t.store.size)
    (hok : Traced.unify a b reason node t = .ok () t') :
    (∀ θ, t'.store.SolvedBy θ ↔
        t.store.SolvedBy θ ∧ a.inst θ = b.inst θ) ∧
      t'.store.tree a = t'.store.tree b := by
  have hsolved := (Traced.ends_unify h ha hb).of_ok hok
  refine ⟨hsolved.solvedBy_iff, ?_⟩
  have hacyclic := (hsolved.grows.wellFormed h).acyclic
  exact ((hsolved.solvedBy_iff _).1 hacyclic.solvedBy_assign).2

/-- Four variables: the last is linked to the second, and the second is
the list of the first. -/
def Store.chained : Store :=
  { links := #[none, some (.listOf (.var 0)), none, some (.var 1)] }

/-- The parameters bind the first variable at the end of a chain, and
the results are solved after that. -/
theorem unify_most_general_chained : ∃ t' : Tracer,
    Traced.unify (.fn (.var 3) (.var 2)) (.fn (.listOf .int) (.var 1))
        "test" none { store := .chained } = .ok () t' ∧
      (∀ θ, t'.store.SolvedBy θ ↔ Store.chained.SolvedBy θ ∧
        (Ty.fn (.var 3) (.var 2)).inst θ
          = (Ty.fn (.listOf .int) (.var 1)).inst θ) ∧
      t'.store.tree (.fn (.var 3) (.var 2))
        = t'.store.tree (.fn (.listOf .int) (.var 1)) := by
  obtain ⟨t', hok⟩ : ∃ t' : Tracer,
      Traced.unify (.fn (.var 3) (.var 2)) (.fn (.listOf .int) (.var 1))
        "test" none { store := .chained } = .ok () t' := ⟨_, rfl⟩
  exact ⟨t', hok,
    unify_most_general (by decide) (by decide) (by decide) hok⟩

/-- Unification fails only when it must: no assignment satisfies the
links before the call and makes the two types equal. And what it says
is so. A mismatch names two types whose outermost constructors differ;
an infinite type is named with a variable that has no link and occurs
strictly inside. -/
theorem unify_halts_unsolvable {t t' : Tracer} {reason : String}
    {node : Option String} {halt : Halt} (h : t.store.WellFormed)
    (ha : a.Within t.store.size) (hb : b.Within t.store.size)
    (herr : Traced.unify a b reason node t = .error halt t') :
    (¬ ∃ θ, t.store.SolvedBy θ ∧ a.inst θ = b.inst θ) ∧
      ((∃ (left right : Ty) (why : String) (k k' : Head),
          halt = .fault
            { cause := .typeMismatch (t'.store.render left)
                (t'.store.render right) why, node } ∧
          left.head? = some k ∧ right.head? = some k' ∧ k ≠ k') ∨
        ∃ (v : Nat) (type : Ty) (k : Head),
          halt = .fault
            { cause := .infiniteType (t'.store.name v)
                (t'.store.render type), node } ∧
          v < t'.store.size ∧ t'.store.link? v = none ∧
          type.head? = some k ∧ v ∈ (t'.store.tree type).vars) := by
  obtain ⟨clash, rfl, hr⟩ := (Traced.ends_unify h ha hb).of_error herr
  refine ⟨fun ⟨θ, hθ, heq⟩ => hr.inst_ne θ hθ heq, ?_⟩
  have hj := hr.justified
  cases clash with
  | mismatch left right why =>
      obtain ⟨k, k', hk, hk', hne⟩ := hj
      exact Or.inl ⟨left, right, why, k, k', rfl, hk, hk', hne⟩
  | infinite v type =>
      obtain ⟨hv, hfree, hhead, hocc⟩ := hj
      obtain ⟨k, hk⟩ := Option.isSome_iff_exists.1 hhead
      exact Or.inr ⟨v, type, k, rfl, hv, hfree, hk, hocc⟩
  | rebound v type => exact hj.elim
  | endless => exact hj.elim

/-- The results of two arrows clash under a link that the parameters
made. -/
theorem unify_halts_unsolvable_chained : ∃ (halt : Halt) (t' : Tracer),
    Traced.unify (.fn (.var 3) (.var 0)) (.fn (.listOf .int) (.var 1))
        "test" none { store := .chained } = .error halt t' ∧
      ¬ ∃ θ, Store.chained.SolvedBy θ ∧
        (Ty.fn (.var 3) (.var 0)).inst θ
          = (Ty.fn (.listOf .int) (.var 1)).inst θ := by
  obtain ⟨halt, t', herr⟩ : ∃ (halt : Halt) (t' : Tracer),
      Traced.unify (.fn (.var 3) (.var 0)) (.fn (.listOf .int) (.var 1))
        "test" none { store := .chained } = .error halt t' := ⟨_, _, rfl⟩
  exact ⟨halt, t', herr,
    (unify_halts_unsolvable (by decide) (by decide) (by decide) herr).1⟩

end InferTrace
