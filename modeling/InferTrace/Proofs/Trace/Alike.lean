/-
Shortened links are never seen.

What is asked of a store and its trace is a list of queries: a new
variable, the end of a type's links, an occurs check, the free variables
or the text of a type, a snapshot, an equation, the type of an
expression. Each has a reply or halts, and either way the next one goes
on from what is left.

Asked of two tracers whose stores are alike, a list of queries has the
same replies and halts, one by one, and the tracers stay alike: the same
events and notices, and stores that differ in the length of their links
at most (`askAll_alike`). For an inference that is shown on its script,
one kind of step after another (`Script.sameEnd_run`).
-/
import InferTrace.Proofs.History
import InferTrace.Proofs.Trace.Script
import InferTrace.Proofs.Unify.Alike

namespace InferTrace

variable {t u : Tracer} {a b : Ty} {reason : String} {node : Option String}

-- ====================================================== alike tracers

/-- The stores are alike, and all that has been told is the same. -/
structure Tracer.Alike (t u : Tracer) : Prop where
  store : t.store.Alike u.store
  events : u.events = t.events
  notices : u.notices = t.notices

theorem Tracer.Alike.record (h : t.Alike u) (category : Category)
    (message : String) :
    (t.record category message node).Alike
      (u.record category message node) := by
  refine ⟨h.store, ?_, h.notices⟩
  simp only [Tracer.record, h.events, h.store.snapshot]

theorem Tracer.Alike.absorb {s s' : Solver} (h : t.Alike u)
    (hs : s.Alike s') : (t.absorb s node).Alike (u.absorb s' node) := by
  refine ⟨hs.store, ?_, ?_⟩
  · simp only [Tracer.absorb, h.events, hs.events]
  · simp only [Tracer.absorb, h.notices, hs.notices]

/-- A clash is told in the same words. -/
theorem Clash.halt_alike {s s' : Store} (h : s.Alike s') (clash : Clash) :
    clash.halt s' node = clash.halt s node := by
  cases clash with
  | endless => rfl
  | mismatch | infinite | rebound =>
      simp only [Clash.halt, h.render, h.name]

-- ============================================================ solving

/-- What a tracer makes of what a solver did for a node. -/
def Tracer.settle (t : Tracer) (node : Option String) :
    EStateM.Result Clash Solver Unit → EStateM.Result Halt Tracer Unit
  | .ok () s => .ok () (t.absorb s node)
  | .error clash s => .error (clash.halt s.store node) (t.absorb s node)

/-- What solvers that end alike leave behind is settled alike. -/
theorem Tracer.Alike.settle {p q : EStateM.Result Clash Solver Unit}
    (h : t.Alike u) (hpq : SameEnd Solver.Alike p q) :
    SameEnd Tracer.Alike (t.settle node p) (u.settle node q) := by
  cases hpq with
  | ok hs => exact .ok (h.absorb hs)
  | @error clash s s' hs =>
      show SameEnd Tracer.Alike
        (.error (clash.halt s.store node) (t.absorb s node))
        (.error (clash.halt s'.store node) (u.absorb s' node))
      rw [clash.halt_alike hs.store]
      exact .error (h.absorb hs)

/-- Make two types equal on behalf of a node, in a manner of one's
own. -/
def Manner.unifyTraced (m : Manner) (a b : Ty) (reason : String)
    (node : Option String) : Traced Unit := fun t =>
  t.settle node (m.unify a b reason { store := t.store })

/-- Solving is a run of the solver, settled. -/
theorem Traced.unify_eq_settle : Traced.unify a b reason node t
    = t.settle node (InferTrace.unify a b reason { store := t.store }) := by
  unfold Traced.unify Traced.solve
  cases InferTrace.unify a b reason { store := t.store } with
  | ok | error => rfl

theorem Tracer.Alike.solver (h : t.Alike u) :
    Solver.Alike { store := t.store } { store := u.store } :=
  ⟨h.store, fun _ => rfl, rfl⟩

/-- Solving ends alike on stores that are alike. -/
theorem Traced.sameEnd_unify (h : t.Alike u) (ht : t.store.WellFormed)
    (ha : a.Within t.store.size) (hb : b.Within t.store.size) :
    SameEnd Tracer.Alike (Traced.unify a b reason node t)
      (Traced.unify a b reason node u) := by
  rw [Traced.unify_eq_settle, Traced.unify_eq_settle]
  exact h.settle (InferTrace.sameEnd_unify h.solver ht ha hb)

-- ============================================================ scripts

/-- A script is run in the same way by alike tracers. -/
theorem Script.sameEnd_run : ∀ (script : Script) {t u : Tracer},
    script.Ready t.store → t.Alike u →
      SameEnd Tracer.Alike (script.run t) (script.run u) := by
  intro script
  induction script with
  | give a => exact fun _ h => .ok h
  | halt halt => exact fun _ h => .error h
  | note n node rest ih =>
      intro t u hready h
      have hmessage : n.message u.store.render = n.message t.store.render := by
        cases n with
        | enter | demand => rfl
        | scope => simp only [Note.message, h.store.render]
      -- the same text, and by `Alike.record` the same snapshot
      have hnote : (t.note n node).Alike (u.note n node) := by
        unfold Tracer.note
        rw [hmessage]
        exact h.record _ _
      exact ih (t := t.note n node) hready.note hnote
  | fresh rest ih =>
      intro t u hready h
      show SameEnd Tracer.Alike
        ((rest t.store.size).run { t with store := t.store.fresh.2 })
        ((rest u.store.size).run { u with store := u.store.fresh.2 })
      rw [h.store.size]
      exact ih _ hready.fresh ⟨h.store.fresh, h.events, h.notices⟩
  | unify a b reason node rest ih =>
      intro t u hready h
      obtain ⟨ha, hb, -⟩ := hready.fits
      refine (Traced.sameEnd_unify h hready.wellFormed ha hb).bind
        fun _ t₁ u₁ hrun h₁ => ?_
      exact ih (hready.solved (hready.ends_unify.of_ok hrun)) h₁

/-- Inference does the same from alike tracers. -/
theorem sameEnd_analyze {limit k : Nat} {scope : Scope} {e : Expr}
    (h : t.Alike u) (ht : t.store.WellFormed)
    (hscope : scope.Within t.store.size) :
    SameEnd Tracer.Alike (analyze limit scope k e t)
      (analyze limit scope k e u) := by
  exact Script.sameEnd_run _ (ready_script ht hscope) h

-- ============================================================ queries

/-- What may be asked of a store and its trace. -/
inductive Query where
  | fresh
  | prune (a : Ty)
  | occurs (v : Nat) (a : Ty)
  | freeVars (a : Ty)
  | render (a : Ty)
  | snapshot (placeholder : String)
  | unify (a b : Ty) (reason : String) (node : Option String)
  | infer (limit : Nat) (request : Request)
deriving DecidableEq, Repr

/-- What is given in reply. -/
inductive Reply where
  | type (a : Ty)
  | found (found : Bool)
  | vars (vars : List Nat)
  | text (text : String)
  | lines (lines : Snapshot)
  | solved
deriving DecidableEq, Repr

namespace Query

/-- The types that are handed in have variables below `n` only. -/
def Within (n : Nat) : Query → Prop
  | fresh | snapshot _ => True
  | prune a | freeVars a | render a => a.Within n
  | occurs v a => v < n ∧ a.Within n
  | unify a b _ _ => a.Within n ∧ b.Within n
  | infer _ r => r.scope.Within n

instance (n : Nat) : DecidablePred (Query.Within n)
  | fresh | snapshot _ => inferInstanceAs (Decidable True)
  | prune a | freeVars a | render a =>
    inferInstanceAs (Decidable (a.Within n))
  | occurs _ _ | unify _ _ _ _ => inferInstanceAs (Decidable (_ ∧ _))
  | infer _ r => inferInstanceAs (Decidable (r.scope.Within n))

/-- Ask it. -/
def ask : Query → Traced Reply
  | fresh => return .type (.var (← Traced.fresh))
  | prune a => return .type (← Workbench.prune a)
  | occurs v a => return .found (← Workbench.occurs v a)
  | freeVars a => return .vars (← Workbench.freeVars a)
  | render a => return .text (← Workbench.render a)
  | snapshot placeholder => return .lines (← Workbench.snapshot placeholder)
  | unify a b reason node => do
    Workbench.unify a b reason node
    return .solved
  | infer limit r => return .type (← r.action limit)

/-- The reply or the halt, and the tracer that is left. -/
def perform (q : Query) (t : Tracer) : Except Halt Reply × Tracer :=
  match q.ask t with
  | .ok reply t => (.ok reply, t)
  | .error halt t => (.error halt, t)

end Query

/-- Ask one query after another, and keep each reply or halt with the
tracer that it left. -/
def askAll : List Query → Tracer → List (Except Halt Reply × Tracer)
  | [], _ => []
  | q :: rest, t => q.perform t :: askAll rest (q.perform t).2

/-- Each query, when its turn comes, hands in types of variables that
are there. -/
def Askable : List Query → Tracer → Prop
  | [], _ => True
  | q :: rest, t => q.Within t.store.size ∧ Askable rest (q.perform t).2

-- ==================================================== one query more

/-- So does pruning. -/
theorem Traced.sameEnd_prune (h : t.Alike u) (a : Ty) :
    SameEnd Tracer.Alike (Traced.prune a t) (Traced.prune a u) := by
  have hs := h.store.acyclic
  have hs' := h.store.acyclic'
  show SameEnd Tracer.Alike
    (.ok (t.store.prune a).1 { t with store := (t.store.prune a).2 })
    (.ok (u.store.prune a).1 { u with store := (u.store.prune a).2 })
  rw [hs.prune_fst, hs'.prune_fst, h.store.resolve]
  exact .ok ⟨h.store.shorten (hs.shortens_prune a) (hs'.shortens_prune a),
    h.events, h.notices⟩

/-- So does the occurs check. -/
theorem sameEnd_occurs (h : t.Alike u) (v : Nat) (a : Ty) :
    SameEnd Tracer.Alike (Workbench.occurs v a t)
      (Workbench.occurs v a u) := by
  obtain ⟨s, hsh, heq⟩ := Workbench.occurs_eq h.store.acyclic v a
  obtain ⟨s', hsh', heq'⟩ := Workbench.occurs_eq h.store.acyclic' v a
  rw [heq, heq', h.store.inTree]
  exact .ok ⟨h.store.shorten hsh hsh', h.events, h.notices⟩

/-- And so does whatever is requested. -/
theorem sameEnd_action {limit : Nat} {r : Request} (h : t.Alike u)
    (ht : t.store.WellFormed) (hscope : r.scope.Within t.store.size) :
    SameEnd Tracer.Alike (r.action limit t) (r.action limit u) := by
  unfold Request.action
  by_cases hpruned : r.pruned = true
  · rw [if_pos hpruned]
    exact (sameEnd_analyze h ht hscope).bind fun a _ _ _ h₁ =>
      Traced.sameEnd_prune h₁ a
  · rw [if_neg hpruned]
    exact sameEnd_analyze h ht hscope

namespace Query

/-- Alike tracers give the same reply, or halt in the same way. -/
theorem sameEnd_ask {q : Query} (h : t.Alike u) (ht : t.store.WellFormed)
    (hq : q.Within t.store.size) :
    SameEnd Tracer.Alike (q.ask t) (q.ask u) := by
  have hs := h.store.acyclic
  have hs' := h.store.acyclic'
  cases q with
  | fresh =>
      show SameEnd Tracer.Alike
        (.ok (Reply.type (.var t.store.size))
          { t with store := t.store.fresh.2 })
        (.ok (Reply.type (.var u.store.size))
          { u with store := u.store.fresh.2 })
      rw [h.store.size]
      exact .ok ⟨h.store.fresh, h.events, h.notices⟩
  | prune a =>
      have hprune := Traced.sameEnd_prune h a
      rw [← Workbench.prune_eq hs, ← Workbench.prune_eq hs'] at hprune
      exact hprune.bind fun _ _ _ _ h₁ => .ok h₁
  | occurs v a =>
      exact (sameEnd_occurs h v a).bind fun _ _ _ _ h₁ => .ok h₁
  | freeVars a =>
      rw [ask, bind_of_ok (Workbench.freeVars_eq hs a),
        bind_of_ok (Workbench.freeVars_eq hs' a), h.store.freeVars]
      exact .ok h
  | render a =>
      rw [ask, bind_of_ok (Workbench.render_eq hs a),
        bind_of_ok (Workbench.render_eq hs' a), h.store.render]
      exact .ok h
  | snapshot placeholder =>
      rw [ask, bind_of_ok (Workbench.snapshot_eq hs placeholder),
        bind_of_ok (Workbench.snapshot_eq hs' placeholder),
        h.store.snapshot]
      exact .ok h
  | unify a b reason node =>
      refine SameEnd.bind ?_ fun _ _ _ _ h₁ => .ok h₁
      rw [Workbench.unify_eq hs, Workbench.unify_eq hs']
      exact Traced.sameEnd_unify h ht hq.1 hq.2
  | infer limit r =>
      exact (sameEnd_action h ht hq).bind fun _ _ _ _ h₁ => .ok h₁

/-- No query makes a circle. -/
theorem builds_ask {q : Query} (ht : t.store.WellFormed)
    (hq : q.Within t.store.size) : Builds q.ask t fun _ _ => True := by
  have hs := ht.acyclic
  have hdone : ∀ {x : Traced Reply} {reply : Reply}, x t = .ok reply t →
      Builds x t fun _ _ => True := by
    intro x reply hx
    unfold Builds Ends
    rw [hx]
    exact ⟨.refl _, trivial⟩
  cases q with
  | fresh =>
      exact builds_fresh.bind ht fun _ _ _ _ _ => ⟨.refl _, trivial⟩
  | prune a =>
      exact (builds_pruneGuarded ht hq).bind ht fun _ _ _ _ _ =>
        ⟨.refl _, trivial⟩
  | occurs v a =>
      exact (builds_occurs ht v a).bind ht fun _ _ _ _ _ =>
        ⟨.refl _, trivial⟩
  | freeVars a => exact hdone (bind_of_ok (Workbench.freeVars_eq hs a))
  | render a => exact hdone (bind_of_ok (Workbench.render_eq hs a))
  | snapshot placeholder =>
      exact hdone (bind_of_ok (Workbench.snapshot_eq hs placeholder))
  | unify a b reason node =>
      exact (builds_unifyGuarded ht hq.1 hq.2).bind ht fun _ _ _ _ _ =>
        ⟨.refl _, trivial⟩
  | infer limit r =>
      exact (builds_action ht hq).bind ht fun _ _ _ _ _ =>
        ⟨.refl _, trivial⟩

/-- One query: the same reply or halt, in alike tracers, and a store
that is ready for the next. -/
theorem perform_alike {q : Query} (h : t.Alike u) (ht : t.store.WellFormed)
    (hq : q.Within t.store.size) :
    (q.perform t).1 = (q.perform u).1 ∧
      (q.perform t).2.Alike (q.perform u).2 ∧
      (q.perform t).2.store.WellFormed := by
  have hsame := sameEnd_ask h ht hq
  have hbuilds := builds_ask ht hq
  unfold Builds Ends at hbuilds
  unfold perform
  generalize q.ask t = x at hsame hbuilds
  generalize q.ask u = y at hsame
  cases hsame with
  | ok h₁ => exact ⟨rfl, h₁, hbuilds.1.wellFormed ht⟩
  | error h₁ => exact ⟨rfl, h₁, Store.Grows.wellFormed hbuilds ht⟩

end Query

-- ============================================== all that can be asked

/-- Shortened links are never seen. Of two tracers whose stores have the
same variables with the same ends, whatever is asked has the same
replies, halts and events, one query after another, and the two stay
alike. In particular the solver does what it would do if it only
followed links. -/
theorem askAll_alike {queries : List Query} (h : t.Alike u)
    (ht : t.store.WellFormed) (hqueries : Askable queries t) :
    List.Forall₂ (fun p q => p.1 = q.1 ∧ Tracer.Alike p.2 q.2)
        (askAll queries t) (askAll queries u) ∧
      ∀ a b reason node, a.Within t.store.size → b.Within t.store.size →
        SameEnd Tracer.Alike (Traced.unify a b reason node t)
          (Manner.leaving.unifyTraced a b reason node u) := by
  constructor
  · induction queries generalizing t u with
    | nil => exact .nil
    | cons q rest ih =>
        obtain ⟨hq, hrest⟩ := hqueries
        obtain ⟨hreply, hleft, hwell⟩ := Query.perform_alike h ht hq
        exact .cons ⟨hreply, hleft⟩ (ih hleft hwell hrest)
  · intro a b reason node ha hb
    rw [Traced.unify_eq_settle]
    exact h.settle (sameEnd_leaving h.solver ht ha hb)

/-- An equation that holds, one that halts, and an inference that goes
on from there. -/
def chainedQueries : List Query :=
  [.occurs 0 (.var 3),
   .unify (.var 3) (.listOf .int) "first" none,
   .unify (.var 2) (.listOf (.var 2)) "second" none,
   .infer 5 { expr := .lambda "x" (.cons (.var "x") (.var "y"))
              scope := [("y", .var 3)] },
   .snapshot "?"]

/-- A chain of two links, and the same store with the chain shortened
to one. -/
theorem askAll_alike_chained :
    Store.chained.link? 3 = some (.var 1) ∧
      (Store.chained.prune (.var 3)).2.link? 3 = some (.listOf (.var 0)) ∧
      List.Forall₂ (fun p q => p.1 = q.1 ∧ Tracer.Alike p.2 q.2)
        (askAll chainedQueries { store := .chained })
        (askAll chainedQueries
          { store := (Store.chained.prune (.var 3)).2 }) := by
  have hchained : Store.chained.WellFormed := by decide
  have hshort := hchained.acyclic.shortens_prune (.var 3)
  have halike : Tracer.Alike { store := .chained }
      { store := (Store.chained.prune (.var 3)).2 } :=
    ⟨hshort.alike hchained.acyclic, rfl, rfl⟩
  have hqueries : Askable chainedQueries { store := .chained } :=
    ⟨by decide, by decide, by decide, by decide, trivial, trivial⟩
  exact ⟨rfl, rfl, (askAll_alike halike hchained hqueries).1⟩

end InferTrace
