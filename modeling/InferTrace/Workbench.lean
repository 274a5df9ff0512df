/-
Working on a store by hand.

Inference links a variable only after the occurs check, so in its stores every type has an
end. A link set by hand may close a circle. The actions here are those of inference for any
store: what has no end cannot be shown, and the action that would show it halts, nested too
deeply.

- Text, free variables and snapshots are shown whole or not at all.
- `occurs` and `prune` halt where their search goes round in a circle; `occurs` keeps the links
  it has shortened until then.
- `unify` needs no text if the types are equal already. If they differ, the text of the
  mismatch may have no end. And a link that it makes is recorded with a snapshot: in a store
  with a circle the link stays and the event is lost.
-/
import InferTrace.Trace

namespace InferTrace

namespace Workbench

/-- What there is to show, or none if it has no end. -/
def shown {α : Type} : Option α → Traced α
  | some a => pure a
  | none => throw .tooDeep

/-- The text of a type. -/
def render (a : Ty) : Traced String := do
  shown ((← get).store.render? a)

/-- The free variables of a type. -/
def freeVars (a : Ty) : Traced (List Nat) := do
  shown ((← get).store.freeVars? a)

/-- Every variable by name, with its type or `placeholder`. -/
def snapshot (placeholder : String) : Traced Snapshot := do
  shown ((← get).store.snapshot? placeholder)

/-- Follow and shorten the links of a type. -/
def prune (a : Ty) : Traced Ty := do
  let t ← get
  let (a, store) ← shown (t.store.prune? a)
  set { t with store := store }
  return a

/-- Whether a variable occurs in a type, links shortened on the way. -/
def occurs (v : Nat) (a : Ty) : Traced Bool := do
  let t ← get
  let (search, store) := t.store.occurs v a
  set { t with store := store }
  match search with
  | .found => return true
  | .absent => return false
  | .endless => throw .tooDeep

/-- Link a variable that has no link, whatever it is linked to. The message for one that has a
link shows the link. -/
def bind (v : Nat) (a : Ty) : Traced Unit := do
  let t ← get
  match t.store.bind v a with
  | .ok store => set { t with store := store }
  | .error old => throw (.rebound { name := t.store.name v, type := ← render old })

/-- Add an event with a snapshot. -/
def record (category : Category) (message : String) (node : Option String) : Traced Unit := do
  let _ ← snapshot "?"
  Traced.record category message node

/-- Make two types equal in a store with a circle. Solving ends with the first link. -/
def unifyCircular (a b : Ty) (reason : String) (node : Option String) : Traced Unit := fun t =>
  let result := InferTrace.unify a b reason { store := t.store }
  let solver := match result with
    | .ok () s | .error _ s => s
  match solver.bonds[0]?, result with
  | some bond, _ =>
    .error .tooDeep { t with store := bond.store, notices := t.notices.push bond.notice }
  | none, .ok () s => .ok () { t with store := s.store }
  | none, .error clash s =>
    let halt := if clash.types.any s.store.endless then .tooDeep else clash.halt s.store node
    .error halt { t with store := s.store }

/-- Make two types equal, on behalf of a node. -/
def unify (a b : Ty) (reason : String) (node : Option String) : Traced Unit := do
  if (← get).store.isFinite then Traced.unify a b reason node
  else unifyCircular a b reason node

end Workbench

end InferTrace
