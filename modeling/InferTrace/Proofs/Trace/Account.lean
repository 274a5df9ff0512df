/-
What an inference does, told without names.

The texts of events, notices and errors mention type variables by name,
and a name depends on how many variables there were before. An account
mentions variables by number instead, counted from the first that the
inference makes itself: what each event is about (`Deed`), the links at
that moment (`Entry`), and the type or the failure in the end. It holds
nothing of what was there before.

Put on top of a tracer (`Account.above`) it becomes what a run from that
tracer leaves: its variables are numbered on and named by the tracer's
store, and each of its snapshots comes after the one of that store. An
account for two tracers is thus the same run in both, up to a renaming
of variables that does not look into texts.
-/
import InferTrace.Proofs.Trace.Follows
import InferTrace.Proofs.Trace.Steps
import InferTrace.Proofs.Unify.Above

namespace InferTrace

-- ============================================================ events

/-- What an event tells. -/
inductive Deed where
  /-- Something is noted. -/
  | note (n : Note Tree)
  /-- A variable is linked. -/
  | link (v : Nat) (type : Tree) (reason : String)
deriving DecidableEq, Repr

namespace Deed

/-- The category of the event. -/
def category : Deed → Category
  | note n => n.category
  | link _ _ _ => .success

/-- The message of the event, under a naming of variables. -/
def message (name : Nat → String) : Deed → String
  | note n => n.message (Tree.render name)
  | link v type reason => linkText (name v) (type.render name) reason

/-- The notice that goes with the event: links are noticed. -/
def notice? (name : Nat → String) : Deed → Option Notice
  | link v type reason => some (.bound (name v) (type.render name) reason)
  | _ => none

end Deed

/-- What an event tells, the variables at that moment, and the node. -/
structure Entry where
  deed : Deed
  store : Store
  node : Option String
deriving DecidableEq, Repr

/-- The event, on top of the store `r`. -/
def Entry.event (r : Store) (x : Entry) : Event :=
  { message := x.deed.message r.nameAbove
    category := x.deed.category
    snapshot := r.snapshot ++ x.store.lines r.nameAbove
    node := x.node }

-- ========================================================== failures

/-- Why inference halts. -/
inductive Failure where
  | tooDeep
  | tooLong
  | undefined (x : String) (node : Option String)
  | unknown (kind : String) (node : Option String)
  | mismatch (left right : Tree) (reason : String) (node : Option String)
  | infinite (v : Nat) (type : Tree) (node : Option String)
deriving DecidableEq, Repr

/-- The halt, under a naming of variables. -/
def Failure.halt (name : Nat → String) : Failure → Halt
  | tooDeep => .tooDeep
  | tooLong => .tooLong
  | undefined x node => .fault { cause := .undefinedVariable x, node }
  | unknown kind node => .fault { cause := .unknownExpression kind, node }
  | mismatch left right reason node =>
    .fault
      { cause := .typeMismatch (left.render name) (right.render name) reason
        node }
  | infinite v type node =>
    .fault { cause := .infiniteType (name v) (type.render name), node }

-- ========================================================== accounts

/-- The variables and the events of an inference, so far. -/
structure Sketch where
  store : Store := {}
  entries : List Entry := []
deriving DecidableEq, Repr

namespace Sketch

/-- The tracer, after what the sketch tells. -/
def above (S : Sketch) (t : Tracer) : Tracer :=
  { store := S.store.above t.store
    events := t.events ++ (S.entries.map (·.event t.store)).toArray
    notices := t.notices ++
      (S.entries.filterMap (·.deed.notice? t.store.nameAbove)).toArray }

/-- The sketch with one more event, of a note. -/
def note (S : Sketch) (n : Note Tree) (node : Option String) : Sketch :=
  { S with entries := S.entries ++ [{ deed := .note n, store := S.store, node }] }

/-- Events come at the end, and the store grows. -/
structure Grows (S S' : Sketch) : Prop where
  entries : S.entries <+: S'.entries
  store : S.store.Grows S'.store

variable {S S' S'' : Sketch} {t : Tracer}

theorem Grows.refl (S : Sketch) : S.Grows S :=
  ⟨List.prefix_rfl, .refl _⟩

theorem Grows.trans (h : S.Grows S') (h' : S'.Grows S'') : S.Grows S'' :=
  ⟨h.entries.trans h'.entries, h.store.trans h'.store⟩

theorem grows_note (S : Sketch) (n : Note Tree) (node : Option String) :
    S.Grows (S.note n node) :=
  ⟨List.prefix_append .., .refl _⟩

/-- Nothing told, nothing changed. -/
theorem above_empty (t : Tracer) : ({} : Sketch).above t = t := by
  unfold above Store.above
  simp

/-- A note about types that are numbered on is told in the names of the
tracer. -/
theorem note_above (ht : t.store.WellFormed) (hS : S.store.WellFormed)
    (n : Note Ty) (node : Option String) :
    (S.above t).note (n.map (Ty.shift t.store.size)) node
      = (S.note (n.map S.store.tree) node).above t := by
  have hmessage : (n.map (Ty.shift t.store.size)).message (S.above t).store.render
      = (n.map S.store.tree).message (Tree.render t.store.nameAbove) := by
    cases n with
    | enter | demand => rfl
    | scope x a =>
        have hrender : (S.above t).store.render (a.shift t.store.size) = _ :=
          Store.render_above ht hS.acyclic a
        simp only [Note.map, Note.message, hrender]
  have hcategory : (n.map (Ty.shift t.store.size)).category
      = (n.map S.store.tree).category := by
    cases n <;> rfl
  have hsnapshot := Store.snapshot_above ht hS.acyclic
  unfold Tracer.note
  rw [hmessage, hcategory]
  unfold Tracer.record above note
  simp [hsnapshot, Entry.event, Deed.category, Deed.message, Deed.notice?]

end Sketch

/-- An inference to its end. -/
structure Account extends Sketch where
  answer : Except Failure Ty
deriving Repr

/-- What a run from the tracer comes to. -/
def Account.above (account : Account) (t : Tracer) :
    EStateM.Result Halt Tracer Ty :=
  match account.answer with
  | .ok type => .ok (type.shift t.store.size) (account.toSketch.above t)
  | .error failure =>
    .error (failure.halt t.store.nameAbove) (account.toSketch.above t)

-- =========================================================== solving

/-- The entry of a link. -/
def Bond.entry (b : Bond) (node : Option String) : Entry :=
  { deed := .link b.var (b.store.tree b.type) b.reason
    store := b.store
    node }

/-- Why a clash that can be shown makes inference halt. -/
def Clash.failure (store : Store) (node : Option String) : Clash → Failure
  | mismatch a b reason =>
    .mismatch (store.tree a) (store.tree b) reason node
  | infinite v t => .infinite v (store.tree t) node
  | rebound _ _ | endless => .tooDeep

variable {r : Store} {node : Option String}

theorem Bond.event_above {b : Bond} (hr : r.WellFormed)
    (hb : b.store.WellFormed) :
    (b.above r).event node = (b.entry node).event r := by
  have hrender := Store.render_above hr hb.acyclic b.type
  have hsnapshot := Store.snapshot_above hr hb.acyclic
  unfold Bond.event Bond.entry Entry.event Bond.above
  simp only [hrender, hsnapshot]
  rfl

theorem Bond.notice_above {b : Bond} (node : Option String)
    (hr : r.WellFormed) (hb : b.store.WellFormed) :
    some (b.above r).notice = (b.entry node).deed.notice? r.nameAbove := by
  have hrender := Store.render_above hr hb.acyclic b.type
  unfold Bond.notice Bond.entry Bond.above
  simp only [hrender]
  rfl

theorem Clash.halt_above {clash : Clash} {s : Store} (hr : r.WellFormed)
    (hs : s.WellFormed) (hclash : clash.Justified s) :
    (clash.shift r.size).halt (s.above r) node
      = (clash.failure s node).halt r.nameAbove := by
  have hrender := Store.render_above hr hs.acyclic
  cases clash with
  | mismatch a b reason =>
      simp only [Clash.shift, Clash.halt, hrender]
      rfl
  | infinite v t =>
      simp only [Clash.shift, Clash.halt, hrender]
      rfl
  | rebound v t => exact hclash.elim
  | endless => exact hclash.elim

namespace Solver

variable {s s' : Solver}

/-- Each link that is kept was made in a well-formed store. -/
theorem Moves.wellFormed_bonds (h : s.Moves s') (hs : s.store.WellFormed)
    (hbonds : ∀ b ∈ s.bonds, b.store.WellFormed) :
    ∀ b ∈ s'.bonds, b.store.WellFormed := by
  induction h with
  | refl => exact hbonds
  | tail hmoves hstep ih =>
      have hs₁ := hstep.grows.1.wellFormed
        ((Moves.grows hmoves).1.wellFormed hs)
      cases hstep with
      | shorten hsh => exact ih
      | link b =>
          intro b' hb'
          rcases Array.mem_push.1 hb' with hb' | rfl
          · exact ih b' hb'
          · exact hs₁

end Solver

namespace Sketch

variable {S : Sketch} {t : Tracer} {s : Solver}

/-- The sketch after what a solver did for a node. -/
def absorb (S : Sketch) (s : Solver) (node : Option String) : Sketch :=
  { store := s.store
    entries := S.entries ++ s.bonds.toList.map (·.entry node) }

theorem absorb_above (ht : t.store.WellFormed)
    (hbonds : ∀ b ∈ s.bonds, b.store.WellFormed) :
    (S.above t).absorb (s.above t.store) node = (S.absorb s node).above t := by
  have hevents : (s.bonds.map (·.above t.store)).map (·.event node)
      = ((s.bonds.toList.map (·.entry node)).map
          (·.event t.store)).toArray := by
    apply Array.toList_inj.1
    simp only [Array.toList_map, List.map_map]
    refine List.map_congr_left fun b hb => ?_
    exact Bond.event_above ht (hbonds b (Array.mem_toList_iff.1 hb))
  have hnotices : (s.bonds.map (·.above t.store)).map Bond.notice
      = ((s.bonds.toList.map (·.entry node)).filterMap
          (·.deed.notice? t.store.nameAbove)).toArray := by
    apply Array.toList_inj.1
    simp only [Array.toList_map, List.map_map, List.filterMap_map]
    rw [← List.filterMap_eq_map]
    refine List.filterMap_congr fun b hb => ?_
    exact Bond.notice_above node ht (hbonds b (Array.mem_toList_iff.1 hb))
  unfold Tracer.absorb Solver.above above absorb
  rw [hevents, hnotices]
  simp only [List.map_append, List.filterMap_append, List.append_toArray,
    Array.append_assoc]

end Sketch

end InferTrace
