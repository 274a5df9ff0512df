/-
An equation may be solved from either side.

Solving `a = b` and solving `b = a` go through the same pairs of types in
the same order, each pair the other way round. Where both are variables
they are linked in opposite directions, and from then on the two solvers
work on different stores. `Akin` is what the stores still have in common:

- the same assignments solve them, so they agree on which types are
  equal;
- a type comes to the same end in both, unless it comes to a variable.
  Then it comes to a variable in both, maybe to another one.

That is enough for the two to go on in step. At every pair they take the
same branch: the ends are equal in both or in neither
(`Akin.resolve_eq_iff`), and a variable occurs in a type in both or in
neither (`Akin.mem_vars_iff`). Whatever link they make, the stores stay
akin (`mirrored_link`, `mirrored_join`). So they make equally many links
and come to ends of one kind, also if they fail (`mirrored_unify`).
-/
import InferTrace.Proofs.Trace.Alike
import InferTrace.Proofs.Trace.Steps
import InferTrace.Proofs.Unify.Order

namespace InferTrace

/-- The variables of an instance of a tree are those of what the tree's
variables stand for. -/
theorem Tree.mem_vars_subst {t : Tree} {θ : Nat → Tree} {v w : Nat}
    (hv : v ∈ t.vars) (hw : w ∈ (θ v).vars) : w ∈ (t.subst θ).vars := by
  induction t with
  | int | bool | base m => cases hv
  | var u =>
      rw [List.mem_singleton.1 hv] at hw
      exact hw
  | list t ih => exact ih hv
  | arrow p r ihp ihr =>
      rcases List.mem_append.1 hv with hv | hv
      · exact List.mem_append_left _ (ihp hv)
      · exact List.mem_append_right _ (ihr hv)

-- ======================================================== akin stores

namespace Store

variable {s s' r r' : Store} {a b c t : Ty} {v v' w w' : Nat}

/-- A variable that some type comes to has no link. -/
theorem Acyclic.link?_of_resolve (h : s.Acyclic)
    (ha : s.resolve a = .var v) : s.link? v = none := by
  have hend := h.isLinked_resolve a
  rw [ha] at hend
  exact isBound_eq_false_iff.1 hend

/-- A type that comes to a variable stands for that variable. -/
theorem Acyclic.tree_of_resolve (h : s.Acyclic)
    (ha : s.resolve a = .var v) : s.tree a = .var v := by
  rw [← h.tree_resolve, ha]
  exact assign_of_none (h.link?_of_resolve ha)

/-- Nothing but itself occurs in a variable that some type comes to. -/
theorem Acyclic.mem_vars_end (h : s.Acyclic) (ha : s.resolve a = .var w) :
    v ∈ (s.tree (.var w)).vars ↔ v = w := by
  have htree : s.tree (.var w) = .var w := by
    rw [← ha, h.tree_resolve, h.tree_of_resolve ha]
  rw [htree]
  exact List.mem_singleton

/-- The two stores have the same variables and the same solutions, and a
type comes to one end in both or to a variable in both. -/
structure Akin (s s' : Store) : Prop where
  wellFormed : s.WellFormed
  wellFormed' : s'.WellFormed
  size : s'.size = s.size
  solutions : ∀ θ, s'.SolvedBy θ ↔ s.SolvedBy θ
  ends : ∀ a, s'.resolve a = s.resolve a ∨
    ∃ v v', s.resolve a = .var v ∧ s'.resolve a = .var v'

theorem Akin.refl (h : s.WellFormed) : s.Akin s :=
  ⟨h, h, rfl, fun _ => Iff.rfl, fun _ => Or.inl rfl⟩

theorem Akin.symm (h : s.Akin s') : s'.Akin s := by
  refine ⟨h.wellFormed', h.wellFormed, h.size.symm,
    fun θ => (h.solutions θ).symm, fun a => ?_⟩
  rcases h.ends a with heq | ⟨v, v', hv, hv'⟩
  · exact Or.inl heq.symm
  · exact Or.inr ⟨v', v, hv', hv⟩

/-- Stores stay akin when chains get shorter. -/
theorem Akin.shorten (h : s.Akin s') (hr : s.Shortens r)
    (hr' : s'.Shortens r') : r.Akin r' := by
  have hs := h.wellFormed.acyclic
  have hs' := h.wellFormed'.acyclic
  refine ⟨hr.wellFormed h.wellFormed, hr'.wellFormed h.wellFormed',
    ?_, fun θ => ?_, fun a => ?_⟩
  · rw [hr.size, hr'.size, h.size]
  · rw [hr.solvedBy_iff hs, hr'.solvedBy_iff hs', h.solutions]
  · rw [hr.resolve hs, hr'.resolve hs']
    exact h.ends a

/-- What is equal in one of two stores that are akin is equal in the
other. -/
theorem Akin.tree_eq_iff (h : s.Akin s') (a b : Ty) :
    s.tree a = s.tree b ↔ s'.tree a = s'.tree b :=
  tree_eq_iff_of_solutions h.wellFormed.acyclic h.wellFormed'.acyclic
    h.solutions a b

/-- An end that is a variable is one in the other store, too. -/
theorem Akin.exists_var (h : s.Akin s') (ha : s.resolve a = .var v) :
    ∃ v', s'.resolve a = .var v' := by
  rcases h.ends a with heq | ⟨_, v', -, hv'⟩
  · exact ⟨v, heq.trans ha⟩
  · exact ⟨v', hv'⟩

/-- An end that is no variable is the same in the other store. -/
theorem Akin.resolve_eq (h : s.Akin s') (ha : ∀ v, s.resolve a ≠ .var v) :
    s'.resolve a = s.resolve a := by
  rcases h.ends a with heq | ⟨v, _, hv, -⟩
  · exact heq
  · exact absurd hv (ha v)

/-- What ends in one place in the one does so in the other. -/
theorem Akin.resolve_eq_of_eq (h : s.Akin s')
    (heq : s.resolve a = s.resolve b) : s'.resolve a = s'.resolve b := by
  by_cases hvar : ∃ v, s.resolve a = .var v
  · -- two variables that stand for one tree are one
    obtain ⟨v, ha⟩ := hvar
    have hb : s.resolve b = .var v := heq.symm.trans ha
    obtain ⟨v', ha'⟩ := h.exists_var ha
    obtain ⟨w', hb'⟩ := h.exists_var hb
    have hs := h.wellFormed.acyclic
    have hs' := h.wellFormed'.acyclic
    have htree : s.tree a = s.tree b := by
      rw [hs.tree_of_resolve ha, hs.tree_of_resolve hb]
    rw [h.tree_eq_iff, hs'.tree_of_resolve ha', hs'.tree_of_resolve hb']
      at htree
    rw [ha', hb', Tree.var.inj htree]
  · have ha : ∀ v, s.resolve a ≠ .var v := fun v hv => hvar ⟨v, hv⟩
    have hb : ∀ v, s.resolve b ≠ .var v := fun v hv => ha v (heq.trans hv)
    rw [h.resolve_eq ha, h.resolve_eq hb, heq]

/-- Two types come to one end in both stores or in neither. -/
theorem Akin.resolve_eq_iff (h : s.Akin s') :
    s.resolve a = s.resolve b ↔ s'.resolve a = s'.resolve b :=
  ⟨h.resolve_eq_of_eq, h.symm.resolve_eq_of_eq⟩

/-- A variable in a tree has its counterpart in the other. -/
theorem Akin.mem_vars (h : s.Akin s') (ha : s.resolve a = .var v)
    (ha' : s'.resolve a = .var v') (hv : v ∈ (s.tree t).vars) :
    v' ∈ (s'.tree t).vars := by
  have hs := h.wellFormed.acyclic
  have hs' := h.wellFormed'.acyclic
  -- the other store reads a type as an instance of its tree here
  have hsolved : s.SolvedBy s'.assign := (h.solutions _).1 hs'.solvedBy_assign
  have hread : s'.tree t = (s.tree t).subst s'.assign := hsolved.inst_eq hs t
  have hself : s.tree (.var v) = s.tree a := by
    rw [← ha, hs.tree_resolve]
  rw [h.tree_eq_iff, hs'.tree_of_resolve ha'] at hself
  have hassign : s'.assign v = .var v' := hself
  rw [hread]
  apply Tree.mem_vars_subst hv
  rw [hassign]
  exact List.mem_singleton.2 rfl

/-- The end of one type occurs in another in both stores or in
neither. -/
theorem Akin.mem_vars_iff (h : s.Akin s') (ha : s.resolve a = .var v)
    (ha' : s'.resolve a = .var v') :
    v ∈ (s.tree t).vars ↔ v' ∈ (s'.tree t).vars :=
  ⟨h.mem_vars ha ha', h.symm.mem_vars ha' ha⟩

-- ============================================================= links

/-- The end `v` of `a` is linked to the end `t` of `b`, in a store whose
links have been shortened. -/
structure Joined (a b : Ty) (v : Nat) (t : Ty) (s s₁ : Store) : Prop where
  solved : Solved a b s s₁
  resolve : ∀ c, s₁.resolve c =
    if s.resolve c = .var v then t else s.resolve c

/-- A link that is allowed joins its two sides, and nothing else. -/
theorem joined_setLink (h : s.WellFormed) (hsh : s.Shortens r)
    (ha : a.Within s.size) (hb : b.Within s.size)
    (hv : s.resolve a = .var v) (ht : s.resolve b = t)
    (hocc : v ∉ (s.tree t).vars) : Joined a b v t s (r.setLink v t) := by
  have hs := h.acyclic
  have hlt : v < s.size := by
    rw [← Ty.within_var, ← hv]
    exact h.within_resolve ha
  have hfree : s.link? v = none := hs.link?_of_resolve hv
  have hin : t.Within s.size := by
    rw [← ht]
    exact h.within_resolve hb
  have hend : s.resolve t = t := by
    apply resolve_of_not_isLinked
    rw [← ht]
    exact hs.isLinked_resolve b
  constructor
  · have hlink : Solved (s.resolve a) (s.resolve b) s (r.setLink v t) := by
      rw [hv, ht]
      exact Solved.link hs hsh hlt hfree hin hocc
    exact hlink.of_resolve hs (.refl s)
  · intro c
    have hlt' : v < r.size := by
      rw [hsh.size]
      exact hlt
    have hocc' : v ∉ (r.tree t).vars := by
      rw [hsh.tree hs]
      exact hocc
    have hmoved := (hsh.acyclic hs).resolve_setLink hlt'
      (hsh.link?_eq_none_iff.2 hfree) hocc' c
    rw [hsh.resolve hs, hsh.resolve hs, hend] at hmoved
    exact hmoved

/-- Stores in which one equation has been solved stay akin, if the ends
do. -/
theorem Akin.solved {s₁ s₁' : Store} (h : s.Akin s')
    (hs : Solved a b s s₁) (hs' : Solved a b s' s₁')
    (hends : ∀ c, s₁'.resolve c = s₁.resolve c ∨
      ∃ v v', s₁.resolve c = .var v ∧ s₁'.resolve c = .var v') :
    s₁.Akin s₁' := by
  refine ⟨hs.grows.wellFormed h.wellFormed,
    hs'.grows.wellFormed h.wellFormed', ?_, fun θ => ?_, hends⟩
  · rw [hs.size, hs'.size, h.size]
  · rw [hs.solvedBy_iff, hs'.solvedBy_iff, h.solutions]

/-- Both stores link the end of `a` to a type that is no variable. -/
theorem Akin.link {s₁ s₁' : Store} (h : s.Akin s')
    (ha : s.resolve a = .var v) (ha' : s'.resolve a = .var v')
    (hjoined : Joined a b v t s s₁) (hjoined' : Joined a b v' t s' s₁') :
    s₁.Akin s₁' := by
  apply h.solved hjoined.solved hjoined'.solved
  intro c
  have hiff : s.resolve c = .var v ↔ s'.resolve c = .var v' := by
    rw [← ha, ← ha', h.resolve_eq_iff]
  rw [hjoined.resolve, hjoined'.resolve]
  by_cases hc : s.resolve c = .var v
  · rw [if_pos hc, if_pos (hiff.1 hc)]
    exact Or.inl rfl
  · rw [if_neg hc, if_neg (mt hiff.2 hc)]
    exact h.ends c

/-- Each store links one of the ends of `a` and `b` to the other; the
direction does not matter. -/
theorem Akin.join {s₁ s₁' : Store} (h : s.Akin s')
    (hjoined : Joined a b v (.var w) s s₁)
    (hjoined' : Joined b a w' (.var v') s' s₁') : s₁.Akin s₁' := by
  apply h.solved hjoined.solved hjoined'.solved.symm
  intro c
  rw [hjoined.resolve, hjoined'.resolve]
  by_cases hvar : ∃ u, s.resolve c = .var u
  · -- an end that is moved is a variable before and after
    obtain ⟨u, hu⟩ := hvar
    obtain ⟨u', hu'⟩ := h.exists_var hu
    right
    rw [hu, hu']
    refine ⟨if u = v then w else u, if u' = w' then v' else u', ?_, ?_⟩
    · by_cases huv : u = v <;> simp [huv]
    · by_cases huw : u' = w' <;> simp [huw]
  · have hc : ∀ u, s.resolve c ≠ .var u := fun u hu => hvar ⟨u, hu⟩
    left
    rw [h.resolve_eq hc, if_neg (hc v), if_neg (hc w')]

end Store

-- =========================================================== solvers

open Manner (shortening)

/-- The clashes are of one kind. -/
inductive Clash.SameKind : Clash → Clash → Prop
  | mismatch {a b a' b' : Ty} {reason reason' : String} :
      SameKind (.mismatch a b reason) (.mismatch a' b' reason')
  | infinite {v v' : Nat} {t t' : Ty} :
      SameKind (.infinite v t) (.infinite v' t')
  | endless : SameKind .endless .endless

/-- The stores are akin, and equally many links have been made. -/
structure Solver.Akin (s s' : Solver) : Prop where
  store : s.store.Akin s'.store
  count : s'.bonds.size = s.bonds.size

/-- Both have solved their equation and are akin, or both have failed in
one way after equally many links. -/
inductive Mirrored : EStateM.Result Clash Solver Unit →
    EStateM.Result Clash Solver Unit → Prop
  | ok {s s' : Solver} : s.Akin s' → Mirrored (.ok () s) (.ok () s')
  | error {clash clash' : Clash} {s s' : Solver} : clash.SameKind clash' →
      s'.bonds.size = s.bonds.size →
      Mirrored (.error clash s) (.error clash' s')

/-- Computations that mirror each other, step after step, do so as a
whole. -/
theorem Mirrored.bind {x y : Solve Unit} {f g : Unit → Solve Unit}
    {s s' : Solver} (h : Mirrored (x s) (y s'))
    (hf : ∀ s₁ s₁', x s = .ok () s₁ → s₁.Akin s₁' →
      Mirrored (f () s₁) (g () s₁')) :
    Mirrored ((x >>= f) s) ((y >>= g) s') := by
  generalize hx : x s = p at h
  generalize hy : y s' = q at h
  cases h with
  | ok hakin =>
      rw [bind_of_ok hx, bind_of_ok hy]
      exact hf _ _ hx hakin
  | error hkind hcount =>
      rw [bind_of_error hx, bind_of_error hy]
      exact .error hkind hcount

variable {s s' : Solver} {a b a' b' t t' : Ty} {v v' w w' : Nat}
  {reason reason' : String}

/-- A variable without a link is given one, unless it occurs in the
type. The occurs check may shorten links first. -/
theorem Manner.bind_eq (h : s.store.Acyclic)
    (hfree : s.store.link? v = none) (t : Ty) (reason : String) :
    ∃ r, s.store.Shortens r ∧ shortening.bind v t reason s =
      if v ∈ (s.store.tree t).vars then
        .error (.infinite v t) ⟨r, s.bonds⟩
      else
        .ok () ⟨r.setLink v t,
          s.bonds.push ⟨v, t, reason, r.setLink v t⟩⟩ := by
  obtain ⟨found, s₁, hrun, hfound, hsh, hbonds⟩ :=
    (Solve.ends_occurs h v t).exists_ok
  have hrun' : shortening.occurs v t s = .ok found s₁ := hrun
  refine ⟨s₁.store, hsh, ?_⟩
  unfold Manner.bind Manner.link
  rw [bind_of_ok hrun', hfound, ← hbonds]
  unfold Store.inTree
  by_cases hocc : v ∈ (s.store.tree t).vars
  · rw [if_pos hocc, decide_eq_true hocc]
    rfl
  · have hbind : s₁.store.bind v t = .ok (s₁.store.setLink v t) := by
      unfold Store.bind
      rw [hsh.link?_eq_none_iff.2 hfree]
    rw [if_neg hocc, decide_eq_false hocc]
    simp only [Bool.false_eq_true, if_false]
    rw [bind_of_ok (x := get) rfl, hbind]
    rfl

/-- Two solvers each make a link. They stay in step if both occurs checks
find the variable or neither does, and if the links leave the stores
akin. -/
theorem mirrored_bind (h : s.Akin s') (ha : a.Within s.store.size)
    (hb : b.Within s.store.size) (ha' : a'.Within s.store.size)
    (hb' : b'.Within s.store.size) (hv : s.store.resolve a = .var v)
    (ht : s.store.resolve b = t) (hv' : s'.store.resolve a' = .var v')
    (ht' : s'.store.resolve b' = t')
    (hocc : v ∈ (s.store.tree t).vars ↔ v' ∈ (s'.store.tree t').vars)
    (hakin : ∀ s₁ s₁', Store.Joined a b v t s.store s₁ →
      Store.Joined a' b' v' t' s'.store s₁' → s₁.Akin s₁') :
    Mirrored (shortening.bind v t reason s) (shortening.bind v' t' reason' s') := by
  have hs := h.store.wellFormed
  have hs' := h.store.wellFormed'
  rw [← h.store.size] at ha' hb'
  obtain ⟨r, hsh, hrun⟩ := Manner.bind_eq hs.acyclic
    (hs.acyclic.link?_of_resolve hv) t reason
  obtain ⟨r', hsh', hrun'⟩ := Manner.bind_eq hs'.acyclic
    (hs'.acyclic.link?_of_resolve hv') t' reason'
  rw [hrun, hrun']
  by_cases hin : v ∈ (s.store.tree t).vars
  · rw [if_pos hin, if_pos (hocc.1 hin)]
    exact .error .infinite h.count
  · rw [if_neg hin, if_neg (mt hocc.2 hin)]
    refine .ok ⟨?_, ?_⟩
    · exact hakin _ _ (Store.joined_setLink hs hsh ha hb hv ht hin)
        (Store.joined_setLink hs' hsh' ha' hb' hv' ht' (mt hocc.2 hin))
    · simp only [Array.size_push, h.count]

/-- One type is a variable, the other is none: both solvers link the
variable to the other type. -/
theorem mirrored_link (h : s.Akin s') (ha : a.Within s.store.size)
    (hb : b.Within s.store.size) (hv : s.store.resolve a = .var v)
    (hv' : s'.store.resolve a = .var v') (ht : s.store.resolve b = t)
    (ht' : s'.store.resolve b = t) :
    Mirrored (shortening.bind v t reason s) (shortening.bind v' t reason' s') :=
  mirrored_bind h ha hb ha hb hv ht hv' ht'
    (h.store.mem_vars_iff hv hv') fun _ _ => h.store.link hv hv'

/-- Both types are variables: each solver links its left one to its
right one. -/
theorem mirrored_join (h : s.Akin s') (ha : a.Within s.store.size)
    (hb : b.Within s.store.size) (hv : s.store.resolve a = .var v)
    (hw : s.store.resolve b = .var w) (hv' : s'.store.resolve a = .var v')
    (hw' : s'.store.resolve b = .var w') :
    Mirrored (shortening.bind v (.var w) reason s)
      (shortening.bind w' (.var v') reason' s') := by
  have hiff : v = w ↔ w' = v' := by
    have hends := h.store.resolve_eq_iff (a := a) (b := b)
    rw [hv, hw, hv', hw', Ty.var.injEq, Ty.var.injEq] at hends
    rw [hends, eq_comm]
  refine mirrored_bind h ha hb hb ha hv hw hw' hv' ?_
    fun _ _ => h.store.join
  rw [h.store.wellFormed.acyclic.mem_vars_end hw,
    h.store.wellFormed'.acyclic.mem_vars_end hv', hiff]

-- ==================================================== in lockstep

/-- A variable on the left is bound. -/
theorem Manner.meet_var_left {m : Manner}
    {inner : Ty → Ty → String → Solve Unit} (hne : .var v ≠ t) :
    m.meet inner (.var v) t reason = m.bind v t reason := by
  unfold Manner.meet
  rw [if_neg hne]

/-- So is a variable on the right, if there is none on the left. -/
theorem Manner.meet_var_right {m : Manner}
    {inner : Ty → Ty → String → Solve Unit} (ht : ∀ w, t ≠ .var w) :
    m.meet inner t (.var v) reason = m.bind v t reason := by
  unfold Manner.meet
  rw [if_neg (ht v)]
  cases t with
  | var w => exact absurd rfl (ht w)
  | _ => rfl

/-- With this much fuel, akin solvers do the same for two types and for
the two in exchange. -/
def Solve.Mirrors (fuel : Nat) : Prop :=
  ∀ (a b : Ty) (reason : String) (s s' : Solver), s.Akin s' →
    a.Within s.store.size → b.Within s.store.size →
    Mirrored (Solve.unifyWithin fuel a b reason s)
      (Solve.unifyWithin fuel b a reason s')

/-- Neither type is a variable: both solvers go on to the parts, or find
that there are none to go on to. -/
theorem mirrored_parts {fuel : Nat} (ih : Solve.Mirrors fuel)
    (h : s.Akin s') (ha : a.Within s.store.size)
    (hb : b.Within s.store.size) (hne : a ≠ b) (hva : ∀ v, a ≠ .var v)
    (hvb : ∀ v, b ≠ .var v) :
    Mirrored (shortening.meet (Solve.unifyWithin fuel) a b reason s)
      (shortening.meet (Solve.unifyWithin fuel) b a reason s') := by
  unfold Manner.meet
  rw [if_neg hne, if_neg hne.symm]
  split
  · exact absurd rfl (hva _)
  · exact absurd rfl (hvb _)
  · obtain ⟨hp, hr⟩ := Ty.within_arrow.1 ha
    obtain ⟨hp', hr'⟩ := Ty.within_arrow.1 hb
    refine (ih _ _ _ _ _ h hp hp').bind fun s₁ s₁' hrun h₁ => ?_
    have hmoves := (Solve.moves_unifyWithin fuel _ _ _ s
      h.store.wellFormed hp hp').of_ok hrun
    rw [← hmoves.grows.2] at hr hr'
    exact ih _ _ _ _ _ h₁ hr hr'
  · exact ih _ _ _ _ _ h (Ty.within_list.1 ha) (Ty.within_list.1 hb)
  · rename_i harrow hlist
    split
    · exact absurd rfl (hvb _)
    · exact absurd rfl (hva _)
    · exact absurd rfl (harrow _ _ _ _ _ _ rfl)
    · exact absurd rfl (hlist _ _ _ _ rfl)
    · exact .error .mismatch h.count

/-- Two solvers that have come to the ends of two types, in opposite
order, go on in step. -/
theorem mirrored_meet {fuel : Nat} (ih : Solve.Mirrors fuel)
    (h : s.Akin s') (ha : a.Within s.store.size)
    (hb : b.Within s.store.size) :
    Mirrored
      (shortening.meet (Solve.unifyWithin fuel) (s.store.resolve a)
        (s.store.resolve b) reason s)
      (shortening.meet (Solve.unifyWithin fuel) (s'.store.resolve b)
        (s'.store.resolve a) reason s') := by
  by_cases heq : s.store.resolve a = s.store.resolve b
  · unfold Manner.meet
    rw [if_pos heq, if_pos (h.store.resolve_eq_of_eq heq).symm]
    exact .ok h
  have hne : s'.store.resolve b ≠ s'.store.resolve a := by
    intro heq'
    exact heq (h.store.resolve_eq_iff.2 heq'.symm)
  by_cases hva : ∃ v, s.store.resolve a = .var v
  · obtain ⟨v, hv⟩ := hva
    obtain ⟨v', hv'⟩ := h.store.exists_var hv
    rw [hv] at heq ⊢
    rw [hv'] at hne ⊢
    rw [Manner.meet_var_left heq]
    by_cases hvb : ∃ w, s.store.resolve b = .var w
    · obtain ⟨w, hw⟩ := hvb
      obtain ⟨w', hw'⟩ := h.store.exists_var hw
      rw [hw'] at hne ⊢
      rw [hw, Manner.meet_var_left hne]
      exact mirrored_join h ha hb hv hw hv' hw'
    · have hend : ∀ w, s.store.resolve b ≠ .var w :=
        fun w hw => hvb ⟨w, hw⟩
      have hb' := h.store.resolve_eq hend
      rw [hb', Manner.meet_var_right hend]
      exact mirrored_link h ha hb hv hv' rfl hb'
  · have hend : ∀ v, s.store.resolve a ≠ .var v :=
      fun v hv => hva ⟨v, hv⟩
    have ha' := h.store.resolve_eq hend
    rw [ha'] at hne ⊢
    by_cases hvb : ∃ w, s.store.resolve b = .var w
    · obtain ⟨w, hw⟩ := hvb
      obtain ⟨w', hw'⟩ := h.store.exists_var hw
      rw [hw'] at hne ⊢
      rw [hw, Manner.meet_var_right hend, Manner.meet_var_left hne]
      exact mirrored_link h hb ha hw hw' rfl ha'
    · have hend' : ∀ w, s.store.resolve b ≠ .var w :=
        fun w hw => hvb ⟨w, hw⟩
      have hs := h.store.wellFormed
      rw [h.store.resolve_eq hend']
      exact mirrored_parts ih h (hs.within_resolve ha)
        (hs.within_resolve hb) heq hend hend'

/-- With the sides in exchange, solving mirrors itself; by induction on
the fuel. -/
theorem mirrors_unifyWithin (fuel : Nat) : Solve.Mirrors fuel := by
  induction fuel with
  | zero =>
      intro a b reason s s' h _ _
      exact .error .endless h.count
  | succ fuel ih =>
      intro a b reason s s' h ha hb
      have hs := h.store.wellFormed.acyclic
      have hs' := h.store.wellFormed'.acyclic
      obtain ⟨r, hsh, hrun⟩ := Solve.exists_meet hs fuel a b reason
      obtain ⟨r', hsh', hrun'⟩ :=
        Solve.exists_meet hs' fuel b a reason
      have hr : Solver.Akin ⟨r, s.bonds⟩ ⟨r', s'.bonds⟩ :=
        ⟨h.store.shorten hsh hsh', h.count⟩
      rw [hrun, hrun', ← hsh.resolve hs, ← hsh.resolve hs,
        ← hsh'.resolve hs', ← hsh'.resolve hs']
      rw [← hsh.size] at ha hb
      exact mirrored_meet ih hr ha hb

/-- Solving an equation from either side goes the same way. -/
theorem mirrored_unify (h : s.store.WellFormed) (ha : a.Within s.store.size)
    (hb : b.Within s.store.size) :
    Mirrored (unify a b reason s) (unify b a reason s) := by
  have hfuel : s.store.fuelFor b a = s.store.fuelFor a b := by
    unfold Store.fuelFor
    rw [Nat.add_right_comm]
  show Mirrored (Solve.unifyWithin (s.store.fuelFor a b) a b reason s)
    (Solve.unifyWithin (s.store.fuelFor b a) b a reason s)
  rw [hfuel]
  exact mirrors_unifyWithin _ a b reason s s ⟨.refl h, rfl⟩ ha hb

-- ============================================================ traces

/-- The number of links that have been reported. -/
def Tracer.successes (t : Tracer) : Nat := (t.ofCategory .success).length

/-- Every link of a solver is reported once. -/
theorem Tracer.successes_absorb (t : Tracer) (s : Solver)
    (node : Option String) :
    (t.absorb s node).successes = t.successes + s.bonds.size := by
  have hevents : ∀ bonds : List Bond,
      (bonds.map (·.event node)).filter (fun e => e.category == .success)
        = bonds.map (·.event node) := by
    intro bonds
    rw [List.filter_eq_self]
    intro e he
    obtain ⟨bond, -, rfl⟩ := List.mem_map.1 he
    rfl
  unfold Tracer.successes Tracer.ofCategory Tracer.absorb
  rw [Array.toList_append, Array.toList_map, List.filter_append, hevents,
    List.length_append, List.length_map]
  rfl

/-- Unification is symmetric. Whichever type comes first, the equation is
solved or it is not. If it is, the two stores agree on which types are
equal; if not, the faults are of one kind. Either way equally many links
have been made and reported. -/
theorem unify_symmetric {t : Tracer} {a b : Ty}
    (ht : t.store.WellFormed) (ha : a.Within t.store.size)
    (hb : b.Within t.store.size) (reason : String) (node : Option String) :
    (∃ t₁ t₂, Traced.unify a b reason node t = .ok () t₁ ∧
        Traced.unify b a reason node t = .ok () t₂ ∧
        t₁.successes = t₂.successes ∧
        t₁.store.tree a = t₁.store.tree b ∧
        ∀ p q, t₁.store.tree p = t₁.store.tree q ↔
          t₂.store.tree p = t₂.store.tree q) ∨
      ∃ f₁ f₂ t₁ t₂,
        Traced.unify a b reason node t = .error (.fault f₁) t₁ ∧
        Traced.unify b a reason node t = .error (.fault f₂) t₂ ∧
        f₁.cause.kind = f₂.cause.kind ∧
        t₁.successes = t₂.successes := by
  let s : Solver := { store := t.store }
  have hmirrored : Mirrored (unify a b reason s) (unify b a reason s) :=
    mirrored_unify ht ha hb
  have hends : Ends (unify a b reason) s _ _ := ends_unify ht ha hb
  rw [Traced.unify_eq_settle, Traced.unify_eq_settle]
  generalize hrun : unify a b reason s = p at hmirrored ⊢
  generalize unify b a reason s = q at hmirrored ⊢
  cases hmirrored with
  | @ok s₁ s₂ hakin =>
      left
      refine ⟨_, _, rfl, rfl, ?_, ?_, hakin.store.tree_eq_iff⟩
      · rw [Tracer.successes_absorb, Tracer.successes_absorb, hakin.count]
      · have hsolved := hends.of_ok hrun
        have hassign := hakin.store.wellFormed.acyclic.solvedBy_assign
        exact ((hsolved.solvedBy_iff _).1 hassign).2
  | @error clash clash' s₁ s₂ hkind hcount =>
      right
      have hcounts : (t.absorb s₁ node).successes
          = (t.absorb s₂ node).successes := by
        rw [Tracer.successes_absorb, Tracer.successes_absorb, hcount]
      have hrefuted := hends.of_error hrun
      cases hkind with
      | mismatch => exact ⟨_, _, _, _, rfl, rfl, rfl, hcounts⟩
      | infinite => exact ⟨_, _, _, _, rfl, rfl, rfl, hcounts⟩
      | endless => exact hrefuted.justified.elim

/-- A function of the first variable. -/
def chainedLeft : Ty := .fn (.var 0) (.var 3)

/-- A function of the third variable, with lists of it as results. -/
def chainedRight : Ty := .fn (.var 2) (.listOf (.var 2))

/-- Each side links its own parameter to that of the other; the results
are lists of equal elements then. -/
theorem unify_symmetric_chained : ∃ t₁ t₂ : Tracer,
    Traced.unify chainedLeft chainedRight "" none { store := .chained }
        = .ok () t₁ ∧
      Traced.unify chainedRight chainedLeft "" none { store := .chained }
        = .ok () t₂ ∧
      (t₁.store.link? 0 = some (.var 2) ∧ t₂.store.link? 2 = some (.var 0)) ∧
      t₁.successes = t₂.successes ∧
      ∀ p q, t₁.store.tree p = t₁.store.tree q ↔
        t₂.store.tree p = t₂.store.tree q := by
  obtain ⟨t₁, hrun₁, hlink₁⟩ : ∃ t₁ : Tracer,
      Traced.unify chainedLeft chainedRight "" none { store := .chained }
        = .ok () t₁ ∧ t₁.store.link? 0 = some (.var 2) :=
    ⟨_, rfl, rfl⟩
  obtain ⟨t₂, hrun₂, hlink₂⟩ : ∃ t₂ : Tracer,
      Traced.unify chainedRight chainedLeft "" none { store := .chained }
        = .ok () t₂ ∧ t₂.store.link? 2 = some (.var 0) :=
    ⟨_, rfl, rfl⟩
  have hleft : chainedLeft.Within Store.chained.size := by decide
  have hright : chainedRight.Within Store.chained.size := by decide
  have hsame := unify_symmetric (t := { store := .chained }) (by decide)
    hleft hright "" none
  rw [hrun₁, hrun₂] at hsame
  rcases hsame with ⟨u₁, u₂, hu₁, hu₂, hcount, -, htree⟩ | hfailed
  · cases hu₁
    cases hu₂
    exact ⟨t₁, t₂, hrun₁, hrun₂, ⟨hlink₁, hlink₂⟩, hcount, htree⟩
  · obtain ⟨_, _, _, _, hf, -⟩ := hfailed
    cases hf

end InferTrace
