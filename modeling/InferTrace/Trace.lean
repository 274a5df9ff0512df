/-
The trace of an inference: every decision as an event, with a snapshot of all type variables
at that moment, so that a viewer can step through a run without running it again.

A `Tracer` is the store together with the events so far. Computations that trace are `Traced`;
one that halts keeps its store and its events. Unification is traced by one event for each
link that the solver made, also by a call that fails in the end.
-/
import InferTrace.Diagnostic
import InferTrace.Notice
import InferTrace.Ty.Nesting

namespace InferTrace

-- ============================================================ events

/-- What an event is about. -/
inductive Category where
  | info
  | success
  | warn
  | error
  | ast
deriving DecidableEq, Repr, Inhabited

namespace Category

/-- The name of a category. -/
def text : Category → String
  | info => "info"
  | success => "success"
  | warn => "warn"
  | error => "error"
  | ast => "ast"

/-- Every category. -/
def all : List Category := [info, success, warn, error, ast]

/-- The category of a name. -/
def ofText? (name : String) : Option Category := all.find? fun c => c.text == name

end Category

/-- A variable's name and its type or placeholder, for each variable. -/
abbrev Snapshot := List (String × String)

/-- One decision, the node it concerns, and the variables at that moment. -/
structure Event where
  message : String
  category : Category
  snapshot : Snapshot := []
  node : Option String := none
deriving DecidableEq, Repr, Inhabited

/-- A snapshot as a JSON array. -/
def Snapshot.toJson (s : Snapshot) : Json :=
  .arr (s.map fun (name, value) => .obj [("name", .str name), ("value", .str value)])

/-- An event as a JSON object. -/
def Event.toJson (e : Event) : Json :=
  .obj [("message", .str e.message), ("category", .str e.category.text),
    ("type_snapshot", Snapshot.toJson e.snapshot),
    ("related_node_id", Json.ofOption (fun n : String => .str n) e.node)]

-- =========================================================== tracers

/-- The store, the events so far, and the notices given. -/
structure Tracer where
  store : Store := {}
  events : Array Event := #[]
  notices : Array Notice := #[]
deriving Inhabited

namespace Tracer

/-- Add an event with the snapshot of the store. -/
def record (t : Tracer) (category : Category) (message : String) (node : Option String) :
    Tracer :=
  { t with events := t.events.push { message, category, snapshot := t.store.snapshot, node } }

/-- The events of one category, in order. -/
def ofCategory (t : Tracer) (category : Category) : List Event :=
  t.events.toList.filter fun e => e.category == category

/-- The event at a place; a negative place counts from the end. -/
def event? (t : Tracer) (index : Int) : Option Event :=
  let place := if index < 0 then index + t.events.size else index
  if place < 0 then none else t.events[place.toNat]?

/-- The events as a JSON array. -/
def toJson (t : Tracer) : Json := .arr (t.events.toList.map Event.toJson)

end Tracer

/-- The text of a link, given those of the variable and its type. -/
def linkText (var type reason : String) : String :=
  "unify: " ++ var ++ " := " ++ type ++ " (" ++ reason ++ ")"

/-- The event of a link. -/
def Bond.event (b : Bond) (node : Option String) : Event :=
  { message := linkText (b.store.name b.var) (b.store.render b.type) b.reason
    category := .success, snapshot := b.store.snapshot, node }

/-- The notice of a link. -/
def Bond.notice (b : Bond) : Notice :=
  .bound (b.store.name b.var) (b.store.render b.type) b.reason

/-- Why unification at a node halts, in the words of the store it halted in. -/
def Clash.halt (store : Store) (node : Option String) : Clash → Halt
  | .mismatch a b reason =>
    .fault { cause := .typeMismatch (store.render a) (store.render b) reason, node }
  | .infinite v t => .fault { cause := .infiniteType (store.name v) (store.render t), node }
  | .rebound v t => .rebound { name := store.name v, type := store.render t }
  | .endless => .tooDeep

/-- Take over what a solver did for a node. -/
def Tracer.absorb (t : Tracer) (s : Solver) (node : Option String) : Tracer :=
  { store := s.store
    events := t.events ++ s.bonds.map (·.event node)
    notices := t.notices ++ s.bonds.map Bond.notice }

-- ===================================================== traced actions

/-- A computation that records what it does. -/
abbrev Traced := EStateM Halt Tracer

namespace Traced

/-- Add an event about a node. -/
def record (category : Category) (message : String) (node : Option String) : Traced Unit :=
  modify fun t => t.record category message node

/-- A new type variable. -/
def fresh : Traced Nat :=
  modifyGet fun t =>
    let (v, store) := t.store.fresh
    (v, { t with store := store })

/-- Let a solver work on the store, on behalf of a node. -/
def solve (x : Solve Unit) (node : Option String) : Traced Unit := fun t =>
  match x { store := t.store } with
  | .ok () s => .ok () (t.absorb s node)
  | .error clash s => .error (clash.halt s.store node) (t.absorb s node)

/-- Make two types equal, on behalf of a node. -/
def unify (a b : Ty) (reason : String) (node : Option String) : Traced Unit :=
  solve (InferTrace.unify a b reason) node

/-- Follow and shorten the links of a type. -/
def prune (a : Ty) : Traced Ty :=
  modifyGet fun t =>
    let (a, store) := t.store.prune a
    (a, { t with store := store })

end Traced

end InferTrace
