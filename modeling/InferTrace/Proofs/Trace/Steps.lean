/-
What inference does to its tracer, step by step.

There are four things: a variable is made, links are shortened, an
event is noted, and a variable is linked, which is told by an event of
its own in the same step. Nothing else happens, on any way through
solving or inference and whatever their end (`Script.Ready.evolves_run`).
What is true of the store after every step follows from what the store
does, and what is true of the trace can be proved for one step.

Solving keeps its links aside until it ends. Its own steps become those
of the tracer when the tracer takes over what was done
(`Solver.Moves.absorb`).
-/
import InferTrace.Proofs.Trace.Script

namespace InferTrace

-- ========================================================== solving

namespace Solver

variable {s s' s'' : Solver}

/-- One thing that solving does. -/
inductive Step (s : Solver) : Solver → Prop
  /-- Lead links straight to where they led. -/
  | shorten {store : Store} : s.store.Shortens store →
      Step s { s with store := store }
  /-- Link a variable to a type that does not have it. -/
  | link (b : Bond) : b.var < s.store.size →
      s.store.link? b.var = none → b.type.Within s.store.size →
        b.var ∉ (s.store.tree b.type).vars →
          b.store = s.store.setLink b.var b.type →
            Step s { store := b.store, bonds := s.bonds.push b }

/-- The solver came to be `s'` by steps of solving. -/
def Moves : Solver → Solver → Prop := Relation.ReflTransGen Step

theorem Moves.refl (s : Solver) : s.Moves s :=
  Relation.ReflTransGen.refl

theorem Moves.trans (h : s.Moves s') (h' : s'.Moves s'') : s.Moves s'' :=
  Relation.ReflTransGen.trans h h'

theorem Step.moves (h : s.Step s') : s.Moves s' :=
  Relation.ReflTransGen.single h

/-- Chains that get shorter are one move. -/
theorem moves_of_shortens (h : s.store.Shortens s'.store)
    (hbonds : s'.bonds = s.bonds) : s.Moves s' := by
  have hstep := Step.shorten (s := s) h
  rw [← hbonds] at hstep
  exact hstep.moves

/-- A step of the solver grows the store, and makes no variable. -/
theorem Step.grows (h : s.Step s') :
    s.store.Grows s'.store ∧ s'.store.size = s.store.size := by
  cases h with
  | shorten hsh => exact ⟨(Store.Step.shorten hsh).grows, hsh.size⟩
  | link b hv hfree ha hocc hstore =>
      rw [hstore]
      exact ⟨(Store.Step.link hv hfree ha hocc).grows, Store.size_setLink⟩

/-- So do all moves together. -/
theorem Moves.grows (h : s.Moves s') :
    s.store.Grows s'.store ∧ s'.store.size = s.store.size := by
  induction h with
  | refl => exact ⟨.refl _, rfl⟩
  | tail _ hstep ih =>
      exact ⟨ih.1.trans hstep.grows.1, hstep.grows.2.trans ih.2⟩

end Solver

namespace Solve

variable {s : Solver} {a b : Ty} {v : Nat} {reason : String}

/-- A variable without a link is linked in one step, unless it is left
alone. -/
theorem moves_bind (h : s.store.WellFormed) (hv : v < s.store.size)
    (hfree : s.store.link? v = none) (ha : a.Within s.store.size) :
    Ends (Manner.shortening.bind v a reason) s (fun _ s' => s.Moves s')
      fun _ s' => s.Moves s' := by
  unfold Manner.bind Manner.link
  rw [ends_bind]
  refine (ends_occurs h.acyclic v a).mono ?_ fun _ _ hf => hf.elim
  rintro found s₁ ⟨hfound, hsh, hbonds⟩
  have hmoves := Solver.moves_of_shortens hsh hbonds
  have hfree₁ := hsh.link?_eq_none_iff.2 hfree
  cases hin : s.store.inTree v a with
  | true =>
      rw [hfound, hin]
      exact hmoves
  | false =>
      have hbind : s₁.store.bind v a = .ok (s₁.store.setLink v a) := by
        unfold Store.bind
        rw [hfree₁]
      rw [hfound, hin]
      simp only [Bool.false_eq_true, if_false]
      rw [ends_bind, ends_get, hbind]
      let bond : Bond :=
        { var := v, type := a, reason, store := s₁.store.setLink v a }
      refine hmoves.trans (Solver.Step.link bond ?_ hfree₁ ?_ ?_ rfl).moves
      · rw [hsh.size]
        exact hv
      · rw [hsh.size]
        exact ha
      · rw [hsh.tree h.acyclic]
        exact of_decide_eq_false hin

/-- With this much fuel, solving takes steps of the solver. -/
def Moving (fuel : Nat) : Prop :=
  ∀ (a b : Ty) (reason : String) (s : Solver), s.store.WellFormed →
    a.Within s.store.size → b.Within s.store.size →
      Ends (unifyWithin fuel a b reason) s (fun _ s' => s.Moves s')
        fun _ s' => s.Moves s'

/-- Between the ends of links it does, if between their parts it does. -/
theorem Moving.ends_meet {fuel : Nat} (ih : Moving fuel) {a b : Ty}
    (h : s.store.WellFormed) (ha : a.Within s.store.size)
    (hb : b.Within s.store.size) (henda : s.store.isLinked a = false)
    (hendb : s.store.isLinked b = false) (reason : String) :
    Ends (Manner.shortening.meet (unifyWithin fuel) a b reason) s
      (fun _ s' => s.Moves s') fun _ s' => s.Moves s' := by
  unfold Manner.meet
  by_cases heq : a = b
  · rw [if_pos heq]
    exact .refl s
  · rw [if_neg heq]
    split
    · exact moves_bind h (Ty.within_var.1 ha)
        (Store.isBound_eq_false_iff.1 henda) hb
    · exact moves_bind h (Ty.within_var.1 hb)
        (Store.isBound_eq_false_iff.1 hendb) ha
    · obtain ⟨hp, hr⟩ := Ty.within_arrow.1 ha
      obtain ⟨hp', hr'⟩ := Ty.within_arrow.1 hb
      rw [ends_bind]
      refine (ih _ _ _ s h hp hp').mono ?_ fun _ _ hm => hm
      intro _ s₁ hm
      obtain ⟨hgrows, hsize⟩ := hm.grows
      rw [← hsize] at hr hr'
      exact (ih _ _ _ s₁ (hgrows.wellFormed h) hr hr').mono
        (fun _ _ => hm.trans) fun _ _ => hm.trans
    · exact ih _ _ _ s h (Ty.within_list.1 ha) (Ty.within_list.1 hb)
    · exact .refl s

/-- Solving takes its steps, whatever comes of it. -/
theorem moves_unifyWithin (fuel : Nat) : Moving fuel := by
  induction fuel with
  | zero => exact fun a b reason s _ _ _ => .refl s
  | succ fuel ih =>
      intro a b reason s h ha hb
      have hs := h.acyclic
      -- to come to the ends of the links is a move of its own
      obtain ⟨r, hsh, hrun⟩ := exists_meet hs fuel a b reason
      have hmoves : s.Moves ⟨r, s.bonds⟩ := Solver.moves_of_shortens hsh rfl
      have hmeet := ih.ends_meet (s := ⟨r, s.bonds⟩) (hsh.wellFormed h)
        (hsh.size ▸ h.within_resolve ha) (hsh.size ▸ h.within_resolve hb)
        (hsh.isLinked_resolve hs a) (hsh.isLinked_resolve hs b) reason
      exact (hmeet.mono (fun _ _ => hmoves.trans)
        fun _ _ => hmoves.trans).of_eq hrun

end Solve

-- ========================================================== tracing

namespace Tracer

variable {t t' t'' : Tracer}

/-- One thing that inference does. -/
inductive Step (t : Tracer) : Tracer → Prop
  /-- Make a variable. -/
  | fresh : Step t { t with store := t.store.fresh.2 }
  /-- Lead links straight to where they led. -/
  | shorten {store : Store} : t.store.Shortens store →
      Step t { t with store := store }
  /-- Note what is being done; neither a link nor a failure. -/
  | note {category : Category} {message : String} {node : Option String} :
      category ≠ .success → category ≠ .error →
        Step t (t.record category message node)
  /-- Link a variable to a type that does not have it, and tell. -/
  | link (b : Bond) (node : Option String) : b.var < t.store.size →
      t.store.link? b.var = none → b.type.Within t.store.size →
        b.var ∉ (t.store.tree b.type).vars →
          b.store = t.store.setLink b.var b.type →
            Step t
              { store := b.store
                events := t.events.push (b.event node)
                notices := t.notices.push b.notice }

/-- The tracer came to be `t'` by steps of inference. -/
def Evolves : Tracer → Tracer → Prop := Relation.ReflTransGen Step

theorem Evolves.refl (t : Tracer) : t.Evolves t :=
  Relation.ReflTransGen.refl

theorem Evolves.trans (h : t.Evolves t') (h' : t'.Evolves t'') :
    t.Evolves t'' :=
  Relation.ReflTransGen.trans h h'

/-- A step is a history of its own. -/
theorem Step.evolves (h : t.Step t') : t.Evolves t' :=
  Relation.ReflTransGen.single h

/-- A step of the tracer grows the store. -/
theorem Step.grows (h : t.Step t') : t.store.Grows t'.store := by
  cases h with
  | fresh => exact Store.Step.fresh.grows
  | shorten hsh => exact (Store.Step.shorten hsh).grows
  | note => exact .refl _
  | link b node hv hfree ha hocc hstore =>
      rw [hstore]
      exact (Store.Step.link hv hfree ha hocc).grows

/-- A history grows the store. -/
theorem Evolves.grows (h : t.Evolves t') : t.store.Grows t'.store := by
  induction h with
  | refl => exact .refl _
  | tail _ hstep ih => exact ih.trans hstep.grows

end Tracer

/-- A step of the solver is one of the tracer that takes it over. -/
theorem Solver.Step.absorb {s s' : Solver} (h : s.Step s') (t : Tracer)
    (node : Option String) : (t.absorb s node).Step (t.absorb s' node) := by
  cases h with
  | shorten hsh => exact .shorten hsh
  | link b hv hfree ha hocc hstore =>
      have hlink := Tracer.Step.link (t := t.absorb s node) b node
        hv hfree ha hocc hstore
      unfold Tracer.absorb at hlink ⊢
      rw [Array.map_push, Array.map_push, Array.append_push, Array.append_push]
      exact hlink

/-- What the solver does, step by step, is a history of the tracer. -/
theorem Solver.Moves.absorb {s s' : Solver} (h : s.Moves s') (t : Tracer)
    (node : Option String) :
    (t.absorb s node).Evolves (t.absorb s' node) := by
  induction h with
  | refl => exact .refl _
  | tail _ hstep ih => exact ih.trans (hstep.absorb t node).evolves

/-- A solver that has done nothing leaves the tracer as it is. -/
theorem Tracer.absorb_start (t : Tracer) (node : Option String) :
    t.absorb { store := t.store } node = t := by
  unfold Tracer.absorb
  simp

-- ===================================================== all of a walk

variable {t : Tracer} {a b : Ty} {limit k : Nat} {e : Expr} {scope : Scope}

/-- Unification on behalf of a node takes such steps, whatever comes of
it. -/
theorem Traced.evolves_unify {reason : String} {node : Option String}
    (ht : t.store.WellFormed) (ha : a.Within t.store.size)
    (hb : b.Within t.store.size) :
    Ends (Traced.unify a b reason node) t (fun _ t' => t.Evolves t')
      fun _ t' => t.Evolves t' := by
  have hmoves : Ends (InferTrace.unify a b reason) { store := t.store } _ _ :=
    Solve.moves_unifyWithin (t.store.fuelFor a b) a b reason
      { store := t.store } ht ha hb
  have hevolves : ∀ {s' : Solver}, Solver.Moves { store := t.store } s' →
      t.Evolves (t.absorb s' node) := by
    intro s' h
    have habsorb := h.absorb t node
    rw [t.absorb_start node] at habsorb
    exact habsorb
  refine (Traced.ends_solve hmoves).mono ?_ ?_
  · rintro _ _ ⟨s', rfl, h⟩
    exact hevolves h
  · rintro _ _ ⟨clash, s', rfl, -, h⟩
    exact hevolves h

/-- What is noted is neither a link nor a failure. -/
theorem Note.category_ne {α : Type} (n : Note α) :
    n.category ≠ .success ∧ n.category ≠ .error := by
  cases n with
  | enter | demand | scope => simp [Note.category]

/-- Inference takes no other steps, whatever its end. -/
theorem Script.Ready.evolves_run {script : Script} {t : Tracer}
    (h : script.Ready t.store) :
    Ends script.run t (fun _ t' => t.Evolves t') fun _ t' => t.Evolves t' := by
  induction script generalizing t with
  | give a => exact .refl t
  | halt halt => exact .refl t
  | note n node rest ih =>
      have hstep : t.Evolves (t.note n node) :=
        (Tracer.Step.note n.category_ne.1 n.category_ne.2).evolves
      have hrest := ih (t := t.note n node) h.note
      exact hrest.mono (fun _ _ => hstep.trans) fun _ _ => hstep.trans
  | fresh rest ih =>
      have hstep := (Tracer.Step.fresh (t := t)).evolves
      have hrest := ih t.store.size
        (t := { t with store := t.store.fresh.2 }) h.fresh
      exact hrest.mono (fun _ _ => hstep.trans) fun _ _ => hstep.trans
  | unify a b reason node rest ih =>
      rw [Script.run_unify, ends_bind]
      refine ((Traced.evolves_unify h.wellFormed h.fits.1 h.fits.2.1).and
        h.ends_unify).mono ?_ fun _ _ h => h.1
      rintro _ t₁ ⟨h₁, hsolved⟩
      exact (ih (h.solved hsolved)).mono (fun _ _ => h₁.trans)
        fun _ _ => h₁.trans

/-- Inference is a history of such steps, however it ends. -/
theorem evolves_analyze (ht : t.store.WellFormed)
    (hscope : scope.Within t.store.size) :
    Ends (analyze limit scope k e) t (fun _ t' => t.Evolves t')
      fun _ t' => t.Evolves t' :=
  (ready_script ht hscope).evolves_run

end InferTrace
