/-
Limits cut an inference short and never change it.

What a limit does to the walk over an expression is said on scripts: the
script under a lower limit is the one under a higher limit, cut off in
some places by a halt (`follows_script_of_le`). Nothing else depends
on that limit, neither an equation nor a note nor what comes after. What
is left for the work on types at each step is part of how the script is
run: with fewer levels a step is cut short (`Conduct.Curbs`).

So a run of the cut script goes the same way as long as it goes. Either
it does not come to a cut, and then the two runs are the same to the
end; or it stops somewhere, and then the other run goes on from there and
only adds events (`Script.Follows.curbed_runBy`). Which of the two it is does not
depend on the limits alone, since a fault may come before a cut. With
enough levels at every step a run is the free one
(`Script.Ready.exists_runBy`).

An inference that gives a type has entered every node within the limit,
so the expression is no deeper than that (`depth_inferPruned`).
-/
import InferTrace.Proofs.Trace.Follows
import InferTrace.Proofs.Trace.Steps
import InferTrace.Proofs.Unify.Levels

namespace InferTrace

variable {limit limit' k : Nat} {e : Expr} {scope : Scope}
  {script script' : Script} {t t' t'' : Tracer}

-- ======================================================= more events

/-- The later tracer has the events of the earlier one, and then some
that are not of an error. -/
def Tracer.Extends (t t' : Tracer) : Prop :=
  ∃ later : List Event, t'.events.toList = t.events.toList ++ later ∧
    ∀ ev ∈ later, ev.category ≠ .error

namespace Tracer

theorem Extends.refl (t : Tracer) : t.Extends t :=
  ⟨[], (List.append_nil _).symm, by simp⟩

theorem Extends.trans (h : t.Extends t') (h' : t'.Extends t'') :
    t.Extends t'' := by
  obtain ⟨later, heq, hlater⟩ := h
  obtain ⟨later', heq', hlater'⟩ := h'
  refine ⟨later ++ later', ?_, fun ev hev => ?_⟩
  · rw [heq', heq, List.append_assoc]
  · rcases List.mem_append.1 hev with hev | hev
    · exact hlater ev hev
    · exact hlater' ev hev

/-- A note adds its event. -/
theorem extends_note (n : Note Ty) (node : Option String) :
    t.Extends (t.note n node) := by
  refine ⟨[_], Array.toList_push, fun ev hev => ?_⟩
  rw [List.mem_singleton.1 hev]
  exact n.category_ne.2

/-- The tracer that takes over more links has more events. -/
theorem extends_absorb {s s' : Solver} (h : s.Extends s')
    (node : Option String) : (t.absorb s node).Extends (t.absorb s' node) := by
  obtain ⟨bonds, hbonds⟩ := h
  refine ⟨bonds.map (·.event node), ?_, fun ev hev => ?_⟩
  · simp [absorb, ← hbonds]
  · obtain ⟨bond, -, rfl⟩ := List.mem_map.1 hev
    simp [Bond.event]

end Tracer

/-- A computation that adds events at most. -/
abbrev Traced.Tells {α : Type} (x : Traced α) : Prop :=
  Keeps Tracer.Extends x

/-- The first computation is the second, cut short by a limit. -/
abbrev Traced.Curbed {α : Type} (x y : Traced α) (t : Tracer) : Prop :=
  CutShort .tooDeep Tracer.Extends x y t

namespace Traced

theorem tells_fresh : Tells fresh :=
  fun t => Tracer.Extends.refl t

theorem tells_prune (a : Ty) : Tells (prune a) :=
  fun t => Tracer.Extends.refl t

theorem tells_pure {α : Type} (a : α) : Tells (pure a) :=
  fun t => Tracer.Extends.refl t

theorem tells_throw {α : Type} (h : Halt) : Tells (throw h : Traced α) :=
  fun t => Tracer.Extends.refl t

/-- To solve adds the events of the links that are made. -/
theorem tells_solve (x : Solve Unit) (node : Option String) :
    Tells (solve x node) := by
  intro t
  have hstart : t.Extends (t.absorb { store := t.store } node) := by
    refine ⟨[], ?_, by simp⟩
    simp [Tracer.absorb]
  have hall : ∀ s : Solver, t.Extends (t.absorb s node) := by
    intro s
    have hmore : Solver.Extends { store := t.store } s := List.nil_prefix
    exact hstart.trans (Tracer.extends_absorb hmore node)
  unfold Ends solve
  cases x { store := t.store } with
  | ok _ s => exact hall s
  | error clash s => exact hall s

/-- To take over what a solver did is cut short if the solver is. -/
theorem curbed_solve {x y : Solve Unit}
    (h : Solve.Curbed x y { store := t.store }) (node : Option String) :
    Curbed (solve x node) (solve y node) t := by
  rcases h with heq | ⟨s₁, hstop, hends⟩
  · left
    unfold solve
    rw [heq]
  · right
    refine ⟨t.absorb s₁ node, by rw [solve, hstop]; rfl, ?_⟩
    refine (Traced.ends_solve hends).mono ?_ ?_
    · rintro _ _ ⟨s', rfl, hs'⟩
      exact Tracer.extends_absorb hs' node
    · rintro _ _ ⟨clash, s', rfl, -, hs'⟩
      exact Tracer.extends_absorb hs' node

end Traced

-- ========================================================== conducts

namespace Conduct

open Traced

variable {c c' : Conduct} {levels levels' : Nat}

/-- Every step adds events at most. -/
structure Telling (c : Conduct) : Prop where
  note : ∀ n node, Tells (c.note n node)
  unify : ∀ a b reason node, Tells (c.unify a b reason node)

/-- Every step is cut short. -/
structure Curbs (c c' : Conduct) : Prop where
  telling : c'.Telling
  ready : c.ready = true → c'.ready = true
  note : ∀ n node t, Curbed (c.note n node) (c'.note n node) t
  unify : ∀ a b reason node t,
    Curbed (c.unify a b reason node) (c'.unify a b reason node) t

theorem telling_free : free.Telling where
  note n node := fun _ => Tracer.extends_note n node
  unify _ _ _ node := tells_solve _ node

/-- A conduct with room for some levels adds events at most. -/
theorem telling_within (levels : Nat) : (within levels).Telling where
  note n node := (telling_free.note n node).ifRoom .refl
  unify _ _ _ node := tells_solve _ node

/-- A conduct that adds events at most is curbed by itself. -/
theorem Telling.curbs (h : c.Telling) : c.Curbs c :=
  ⟨h, id, fun _ _ _ => Or.inl rfl, fun _ _ _ _ _ => Or.inl rfl⟩

/-- With fewer levels every step is cut short. -/
theorem within_curbs (hle : levels ≤ levels') :
    (within levels).Curbs (within levels') where
  telling := telling_within levels'
  ready h := by
    simp only [within, decide_eq_true_eq] at h ⊢
    omega
  note n node t := by
    refine .ifRoom (telling_free.note n node) .refl fun h => ?_
    simp only [Bool.and_eq_true] at h ⊢
    exact h.imp (Store.canShow_mono hle) (Store.canSnapshot_mono hle)
  unify a b reason node t :=
    curbed_solve (curbed_unifyInside hle a b reason _) node

/-- To start a step adds no event. -/
theorem tells_start {step : Traced Ty} (h : Tells step) :
    Tells (c.start step) :=
  h.ifRoom .refl

/-- A step that is cut short is so from its start. -/
theorem Curbs.start {step step' : Traced Ty} (h : c.Curbs c')
    (htells : Tells step') (hstep : Curbed step step' t) :
    Curbed (c.start step) (c'.start step') t := by
  unfold Conduct.start
  cases hready : c.ready with
  | true =>
      rw [h.ready hready]
      exact hstep
  | false => exact .of_stop rfl (tells_start htells)

end Conduct

-- ============================================================== runs

namespace Script

open Traced

variable {c c' : Nat → Conduct}

/-- To run a script only adds events. -/
theorem tells_runBy (script : Script) : ∀ {c : Nat → Conduct},
    (∀ i, (c i).Telling) → Tells (script.runBy c) := by
  induction script with
  | give a => exact fun _ => Conduct.tells_start (tells_pure a)
  | halt h => exact fun _ => Conduct.tells_start (tells_throw h)
  | note n node rest ih =>
      intro c hc
      apply Conduct.tells_start
      exact ((hc 0).note n node).bind (fun _ _ _ => .trans)
        fun _ => ih fun i => hc (i + 1)
  | fresh rest ih =>
      intro c hc
      apply Conduct.tells_start
      exact tells_fresh.bind (fun _ _ _ => .trans)
        fun v => ih v fun i => hc (i + 1)
  | unify a b reason node rest ih =>
      intro c hc
      apply Conduct.tells_start
      exact ((hc 0).unify a b reason node).bind (fun _ _ _ => .trans)
        fun _ => ih fun i => hc (i + 1)

/-- A cut script is run in the same way, up to a cut or to a step that
is cut short. -/
theorem Follows.curbed_runBy (h : Follows 0 True script script') :
    ∀ {c c' : Nat → Conduct} (t : Tracer), (∀ i, (c i).Curbs (c' i)) →
      Curbed (script.runBy c) (script'.runBy c') t := by
  induction h with
  | @stop script _ =>
      intro c c' t hc
      refine .of_stop ?_ (tells_runBy script fun i => (hc i).telling)
      unfold Script.runBy Conduct.start ifRoom
      cases (c 0).ready with
      | true | false => rfl
  | give a =>
      intro c c' t hc
      rw [Ty.shift_zero]
      exact (hc 0).start (tells_pure _) (Or.inl rfl)
  | halt h =>
      intro c c' t hc
      exact (hc 0).start (tells_throw _) (Or.inl rfl)
  | @note m node rest rest' _ ih =>
      intro c c' t hc
      have hrest := tells_runBy rest' fun i => (hc (i + 1)).telling
      rw [Note.map_shift_zero]
      refine (hc 0).start ?_ ?_
      · exact ((hc 0).telling.note m node).bind (fun _ _ _ => .trans)
          fun _ => hrest
      · exact ((hc 0).note m node t).bind (fun _ _ _ => .trans)
          (fun _ => hrest) fun _ t₁ _ => ih t₁ fun i => hc (i + 1)
  | @fresh rest rest' _ ih =>
      intro c c' t hc
      have hrest := fun v => tells_runBy (rest' v) fun i => (hc (i + 1)).telling
      have hsame : Curbed Traced.fresh Traced.fresh t := Or.inl rfl
      refine (hc 0).start ?_ ?_
      · exact tells_fresh.bind (fun _ _ _ => .trans) hrest
      · refine hsame.bind (fun _ _ _ => .trans) hrest fun v t₁ _ => ?_
        have hv := ih v t₁ fun i => hc (i + 1)
        rw [Nat.zero_add] at hv
        exact hv
  | @unify a b reason node rest rest' _ ih =>
      intro c c' t hc
      have hrest := tells_runBy rest' fun i => (hc (i + 1)).telling
      rw [Ty.shift_zero, Ty.shift_zero]
      refine (hc 0).start ?_ ?_
      · exact ((hc 0).telling.unify a b reason node).bind
          (fun _ _ _ => .trans) fun _ => hrest
      · exact ((hc 0).unify a b reason node t).bind (fun _ _ _ => .trans)
          (fun _ => hrest) fun _ t₁ _ => ih t₁ fun i => hc (i + 1)

end Script

-- ============================================================ enough

namespace Conduct

/-- With a level left, a step is started. -/
theorem start_within {levels : Nat} (h : 0 < levels) (step : Traced Ty) :
    (within levels).start step = step := by
  funext t
  simp [start, ifRoom, within, h]

/-- With enough levels a note is taken. -/
theorem exists_note (n : Note Ty) (node : Option String) (t : Tracer) :
    ∃ enough, ∀ levels, enough ≤ levels →
      (within levels).note n node t = free.note n node t := by
  obtain ⟨k, hk⟩ := t.store.exists_canShow n.types
  obtain ⟨k', hk'⟩ := t.store.exists_canSnapshot
  refine ⟨max k k', fun levels hle => ?_⟩
  have hshow : t.store.canShow levels n.types :=
    Store.canShow_mono (by omega) hk
  have hsnapshot : t.store.canSnapshot levels :=
    Store.canSnapshot_mono (by omega) hk'
  simp [within, ifRoom, hshow, hsnapshot]

end Conduct

/-- With enough levels at every step a script that is ready is run as
without a limit. -/
theorem Script.Ready.exists_runBy : ∀ {script : Script} {t : Tracer},
    script.Ready t.store → ∃ enough, ∀ room : Nat → Nat,
      (∀ i, enough ≤ room i) →
        script.runBy (fun i => .within (room i)) t = script.run t := by
  intro script
  induction script with
  | give a =>
      intro t _
      refine ⟨1, fun room hroom => ?_⟩
      rw [runBy, Conduct.start_within (hroom 0)]
      rfl
  | halt h =>
      intro t _
      refine ⟨1, fun room hroom => ?_⟩
      rw [runBy, Conduct.start_within (hroom 0)]
      rfl
  | note n node rest ih =>
      intro t hready
      obtain ⟨k, hk⟩ := Conduct.exists_note n node t
      obtain ⟨k', hk'⟩ := ih (t := t.note n node) hready.note
      refine ⟨max k k' + 1, fun room hroom => ?_⟩
      have h₀ := hroom 0
      rw [runBy, Conduct.start_within (by omega), run_note]
      have hnote : (Conduct.within (room 0)).note n node t
          = .ok () (t.note n node) := hk _ (by omega)
      rw [bind_of_ok hnote]
      exact hk' _ fun i => by have := hroom (i + 1); omega
  | fresh rest ih =>
      intro t hready
      obtain ⟨k, hk⟩ :=
        ih _ (t := { t with store := t.store.fresh.2 }) hready.fresh
      refine ⟨k + 1, fun room hroom => ?_⟩
      have h₀ := hroom 0
      rw [runBy, Conduct.start_within (by omega)]
      exact hk _ fun i => by have := hroom (i + 1); omega
  | unify a b reason node rest ih =>
      intro t hready
      obtain ⟨k, hk⟩ := exists_unifyInside (s := { store := t.store })
        hready.wellFormed hready.fits.1 hready.fits.2.1 reason
      have hsame : ∀ levels, k ≤ levels →
          (Conduct.within levels).unify a b reason node t
            = Traced.unify a b reason node t := by
        intro levels hle
        show Traced.solve _ node t = Traced.solve _ node t
        unfold Traced.solve
        rw [hk levels hle]
      cases hunify : Traced.unify a b reason node t with
      | error halt t₁ =>
          refine ⟨k + 1, fun room hroom => ?_⟩
          have h₀ := hroom 0
          rw [runBy, Conduct.start_within (by omega), run_unify,
            bind_of_error hunify,
            bind_of_error ((hsame _ (by omega)).trans hunify)]
      | ok _ t₁ =>
          have hsolved : Solved a b t.store t₁.store :=
            hready.ends_unify.of_ok hunify
          obtain ⟨k', hk'⟩ := ih (hready.solved hsolved)
          refine ⟨max k k' + 1, fun room hroom => ?_⟩
          have h₀ := hroom 0
          rw [runBy, Conduct.start_within (by omega), run_unify,
            bind_of_ok hunify, bind_of_ok ((hsame _ (by omega)).trans hunify)]
          exact hk' _ fun i => by have := hroom (i + 1); omega

-- ========================================================= inference

/-- Under a lower limit on its walk an inference is cut short. -/
theorem curbed_inferPruned (hle : limit ≤ limit') (scope : Scope)
    (e : Expr) (t : Tracer) :
    Traced.Curbed (inferPruned limit scope e) (inferPruned limit' scope e)
      t := by
  have hfollows := follows_script_of_le hle scope e (k := 0)
  exact (hfollows.curbed_runBy t fun _ => Conduct.telling_free.curbs).bind
    (fun _ _ _ => .trans) Traced.tells_prune fun _ _ _ => Or.inl rfl

/-- A limit that is not below the depth of the expression is never
hit. -/
theorem inferPruned_ne_tooDeep (ht : t.store.WellFormed)
    (hscope : scope.Within t.store.size) (hdepth : e.depth ≤ limit) :
    Ends (inferPruned limit scope e) t (fun _ _ => True)
      fun halt _ => halt ≠ .tooDeep := by
  have hspares : Spares limit e (· ≠ .tooDeep) :=
    ⟨fun hlt => absurd hdepth (Nat.not_le_of_lt hlt),
      fun _ => Halt.noConfusion⟩
  rw [inferPruned, ends_bind]
  exact (ends_analyze_of_faults ht hscope hspares fun _ => Halt.noConfusion).mono
    (fun _ _ _ => trivial) fun _ _ h => h

/-- Only an expression that is no deeper than the limit is given a
type. -/
theorem depth_inferPruned (ht : t.store.WellFormed)
    (hscope : scope.Within t.store.size) :
    Ends (inferPruned limit scope e) t (fun _ _ => e.depth ≤ limit)
      fun _ _ => True := by
  have hspares : Spares limit e fun _ => True :=
    ⟨fun _ => trivial, fun _ => trivial⟩
  rw [inferPruned, ends_bind]
  exact (ends_analyze_of_faults ht hscope hspares fun _ => trivial).mono
    (fun _ _ h => h.1) fun _ _ h => h

/-- No limit is the same as one that the expression keeps to. -/
theorem inferPruned_of_depth_le (ht : t.store.WellFormed)
    (hscope : scope.Within t.store.size) (hdepth : e.depth ≤ limit) :
    inferPruned e.depth scope e t = inferPruned limit scope e t := by
  rcases curbed_inferPruned hdepth scope e t with heq | ⟨t₁, hstop, -⟩
  · exact heq
  · have hends := inferPruned_ne_tooDeep ht hscope (Nat.le_refl e.depth)
    exact absurd rfl (hends.of_error hstop)

-- ====================================================== under limits

namespace Limits

/-- Each limit is at most the other. -/
structure Below (limits limits' : Limits) : Prop where
  parsing : limits.parsing ≤ limits'.parsing
  walking : limits.walking ≤ limits'.walking
  room : ∀ i, limits.room i ≤ limits'.room i
  showing : limits.showing ≤ limits'.showing
  closing : limits.closing ≤ limits'.closing

instance : LE Limits := ⟨Below⟩

/-- The higher of any two limits. -/
instance : Max Limits where
  max a b :=
    { parsing := max a.parsing b.parsing
      walking := max a.walking b.walking
      room := fun i => max (a.room i) (b.room i)
      showing := max a.showing b.showing
      closing := max a.closing b.closing }

theorem le_max_left (a b : Limits) : a ≤ max a b :=
  ⟨Nat.le_max_left .., Nat.le_max_left .., fun _ => Nat.le_max_left ..,
    Nat.le_max_left .., Nat.le_max_left ..⟩

theorem le_max_right (a b : Limits) : b ≤ max a b :=
  ⟨Nat.le_max_right .., Nat.le_max_right .., fun _ => Nat.le_max_right ..,
    Nat.le_max_right .., Nat.le_max_right ..⟩

end Limits

section

open Traced

variable {limits limits' : Limits}

/-- What is done with the type that was inferred adds no events. -/
theorem tells_shown (showing : Nat) (type : Ty) :
    Tells (do
      let type ← ifRoom (fun t => t.store.chain type < showing) .tooDeep
        (Traced.prune type)
      ifRoom (fun t => t.store.canShow showing [type]) .tooDeep
        (return type)) :=
  ((tells_prune type).ifRoom .refl).bind (fun _ _ _ => .trans)
    fun type => (tells_pure type).ifRoom .refl

/-- Under limits, too, an inference adds events at most. -/
theorem tells_inferWithin (limits : Limits) (scope : Scope) (e : Expr) :
    Tells (inferWithin limits scope e) :=
  (Script.tells_runBy _ fun _ => Conduct.telling_within _).bind
    (fun _ _ _ => .trans) (tells_shown limits.showing)

/-- Under lower limits an inference is cut short. -/
theorem curbed_inferWithin (hle : limits ≤ limits') (scope : Scope)
    (e : Expr) (t : Tracer) :
    Curbed (inferWithin limits scope e) (inferWithin limits' scope e) t := by
  have hfollows := follows_script_of_le hle.walking scope e (k := 0)
  have hrun := hfollows.curbed_runBy t
    fun i => Conduct.within_curbs (hle.room i)
  refine hrun.bind (fun _ _ _ => .trans) (tells_shown limits'.showing)
    fun type t₁ _ => ?_
  have hprune : Curbed
      (ifRoom (fun t => t.store.chain type < limits.showing) .tooDeep
        (Traced.prune type))
      (ifRoom (fun t => t.store.chain type < limits'.showing) .tooDeep
        (Traced.prune type)) t₁ := by
    refine .ifRoom (tells_prune type) .refl fun h => ?_
    have := hle.showing
    simp only [decide_eq_true_eq] at h ⊢
    omega
  refine hprune.bind (fun _ _ _ => .trans)
    (fun type => (tells_pure type).ifRoom .refl) fun type t₂ _ => ?_
  exact .ifRoom (tells_pure type) .refl (Store.canShow_mono hle.showing)

/-- With enough levels an inference is the free one. -/
theorem exists_inferWithin (ht : t.store.WellFormed)
    (hscope : scope.Within t.store.size) (limit : Nat) (e : Expr) :
    ∃ enough, ∀ limits : Limits, limits.walking = limit →
      (∀ i, enough ≤ limits.room i) → enough ≤ limits.showing →
        inferWithin limits scope e t = inferPruned limit scope e t := by
  have hready : (e.script limit scope 0 .give).Ready t.store :=
    ready_script ht hscope
  obtain ⟨k, hk⟩ := hready.exists_runBy
  cases hrun : (e.script limit scope 0 .give).run t with
  | error halt t₁ =>
      refine ⟨k, fun limits hwalking hroom _ => ?_⟩
      have hwithin := (hk limits.room hroom).trans hrun
      rw [← hwalking] at hwithin
      exact (bind_of_error hwithin).trans (bind_of_error hrun).symm
  | ok type t₁ =>
      obtain ⟨k', hk'⟩ :=
        (t₁.store.prune type).2.exists_canShow [(t₁.store.prune type).1]
      refine ⟨max k (max k' (t₁.store.chain type + 1)),
        fun limits hwalking hroom hshowing => ?_⟩
      have hwithin := (hk limits.room fun i => by
        have := hroom i
        omega).trans hrun
      have hchain : t₁.store.chain type < limits.showing := by omega
      have hshow : (t₁.store.prune type).2.canShow limits.showing
          [(t₁.store.prune type).1] := Store.canShow_mono (by omega) hk'
      rw [← hwalking] at hwithin
      refine (bind_of_ok hwithin).trans (Eq.trans ?_ (bind_of_ok hrun).symm)
      have hprune : ifRoom
          (fun t : Tracer => t.store.chain type < limits.showing) .tooDeep
          (Traced.prune type) t₁ = .ok (t₁.store.prune type).1
            { t₁ with store := (t₁.store.prune type).2 } := by
        simp only [ifRoom, hchain, decide_true, if_true]
        rfl
      refine (bind_of_ok hprune).trans ?_
      simp only [ifRoom, hshow, if_true]
      rfl

/-- Whatever the limits on types, an inference is one that is limited in
depth alone, cut short. -/
theorem curbed_of_walking (ht : t.store.WellFormed)
    (hscope : scope.Within t.store.size) (hle : limits.walking ≤ limit)
    (e : Expr) :
    Curbed (inferWithin limits scope e) (inferPruned limit scope e) t := by
  obtain ⟨enough, henough⟩ := exists_inferWithin ht hscope limit e
  let ample : Limits := max limits
    { limits with walking := limit, room := fun _ => enough, showing := enough }
  have hcurbed : Curbed (inferWithin limits scope e)
      (inferWithin ample scope e) t :=
    curbed_inferWithin (limits.le_max_left _) scope e t
  exact hcurbed.trans_eq (henough ample (Nat.max_eq_right hle)
    (fun _ => Nat.le_max_right ..) (Nat.le_max_right ..))

/-- Whatever the limits, an inference is the free one, cut short. -/
theorem curbed_free (ht : t.store.WellFormed)
    (hscope : scope.Within t.store.size) (limits : Limits) (e : Expr) :
    Curbed (inferWithin limits scope e) (inferPruned e.depth scope e) t :=
  (curbed_of_walking ht hscope (Nat.le_max_left _ e.depth) e).trans_eq
    (inferPruned_of_depth_le ht hscope (Nat.le_max_right ..)).symm

/-- Only an expression that is no deeper than the walk may go is given a
type. -/
theorem depth_inferWithin (ht : t.store.WellFormed)
    (hscope : scope.Within t.store.size) (limits : Limits) (e : Expr) :
    Ends (inferWithin limits scope e) t
      (fun _ _ => e.depth ≤ limits.walking) fun _ _ => True := by
  have hcurbed := curbed_of_walking ht hscope (Nat.le_refl limits.walking) e
  unfold Ends
  rcases hcurbed with heq | ⟨t₁, hstop, -⟩
  · rw [heq]
    exact depth_inferPruned ht hscope
  · rw [hstop]
    trivial

end

end InferTrace
