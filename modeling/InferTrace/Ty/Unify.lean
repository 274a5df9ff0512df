/-
Unification: make two types equal by linking variables.

The solver works on a store in place and keeps a record of each link it makes. A failing call
leaves the links it has made so far. Equations are solved outside in: two arrows by their
parameters and then, in the store that leaves, by their results.

A variable is linked only after the occurs check, so no link ever closes a cycle.

`unifyWithin` has fuel for the nesting of the types. On its way down it stands at a pair of
nodes, each of them a variable or a part of a type at hand; `Store.fuelFor` is more than there
are such pairs. In a store without cycles no pair comes twice on one way, so the fuel is never
used up; in one with cycles, a way that uses it up comes to the same pair again and has no end.
-/
import InferTrace.Ty.Store

namespace InferTrace

-- ============================================================ solver

/-- A link that was made: the variable, its type, why, and the store just after. -/
structure Bond where
  var : Nat
  type : Ty
  reason : String
  store : Store
deriving DecidableEq, Repr

/-- The store and the links made so far. -/
structure Solver where
  store : Store
  bonds : Array Bond := #[]
deriving DecidableEq, Repr

/-- Why two types cannot be made equal. -/
inductive Clash where
  /-- Two types whose outermost constructors differ. -/
  | mismatch (left right : Ty) (reason : String)
  /-- The variable occurs inside the type it should equal. -/
  | infinite (var : Nat) (type : Ty)
  /-- The variable to be linked has a link already. -/
  | rebound (var : Nat) (type : Ty)
  /-- The types have no end: the store's links run in a cycle. -/
  | endless
deriving DecidableEq, Repr

/-- The types that a clash is told with. -/
def Clash.types : Clash → List Ty
  | mismatch left right _ => [left, right]
  | infinite _ t | rebound _ t => [t]
  | endless => []

/-- A step of solving. -/
abbrev Solve := EStateM Clash Solver

namespace Solve

/-- Follow and shorten the links of a type. -/
def prune (t : Ty) : Solve Ty := do
  let s ← get
  match s.store.prune? t with
  | none => throw .endless
  | some (t, store) =>
    set { s with store := store }
    return t

/-- Search the store, and go on with what was found. -/
def search (find : Store → Store.Search × Store) : Solve Bool := do
  let s ← get
  let (search, store) := find s.store
  set { s with store := store }
  match search with
  | .found => return true
  | .absent => return false
  | .endless => throw .endless

/-- Search a type for a variable, shortening links. -/
def occurs (v : Nat) (t : Ty) : Solve Bool := search fun s => s.occurs v t

end Solve

-- ============================================================= steps

/-- How the parts of a step are done: following links, searching for a variable, taking note of
a link that was made, and giving up. -/
structure Manner where
  prune : Ty → Solve Ty
  occurs : Nat → Ty → Solve Bool
  keep : Bond → Solve Unit
  refuse : Clash → Solve Unit

namespace Manner

/-- Link the variable `v` to `t`. -/
def link (m : Manner) (v : Nat) (t : Ty) (reason : String) : Solve Unit := do
  let s ← get
  match s.store.bind v t with
  | .error old => m.refuse (.rebound v old)
  | .ok store =>
    set { s with store := store }
    m.keep { var := v, type := t, reason, store }

/-- Link the variable `v` to `t`, unless it occurs there. -/
def bind (m : Manner) (v : Nat) (t : Ty) (reason : String) : Solve Unit := do
  if ← m.occurs v t then m.refuse (.infinite v t) else m.link v t reason

/-- Solve the equation of two types whose links have been followed; `inner` solves those of
their parts. -/
def meet (m : Manner) (inner : Ty → Ty → String → Solve Unit) (a b : Ty) (reason : String) :
    Solve Unit :=
  if a = b then return
  else match a, b with
    | .var v, t | t, .var v => m.bind v t reason
    | .arrow _ p r, .arrow _ p' r' => do
      inner p p' "function parameter"
      inner r r' "function return"
    | .list _ t, .list _ t' => inner t t' "list element"
    | a, b => m.refuse (.mismatch a b reason)

/-- Solve the equation of two types in at most so many levels, each in its own manner. -/
def unifyWithin (m : Nat → Manner) : Nat → Ty → Ty → String → Solve Unit
  | 0, _, _, _ => throw .endless
  | level + 1, a, b, reason => do
    let a ← (m level).prune a
    let b ← (m level).prune b
    (m level).meet (unifyWithin m level) a b reason

/-- Links are shortened wherever they are followed, and each link that is made is noted. -/
def shortening : Manner where
  prune := Solve.prune
  occurs := Solve.occurs
  keep bond := modify fun s => { s with bonds := s.bonds.push bond }
  refuse := throw

end Manner

/-- Solve the equation of two types. -/
def Solve.unifyWithin (fuel : Nat) (a b : Ty) (reason : String) : Solve Unit :=
  Manner.unifyWithin (fun _ => .shortening) fuel a b reason

theorem Solve.unifyWithin_succ (fuel : Nat) (a b : Ty) (reason : String) :
    Solve.unifyWithin (fuel + 1) a b reason = (do
      let a ← Solve.prune a
      let b ← Solve.prune b
      Manner.shortening.meet (Solve.unifyWithin fuel) a b reason) := rfl

namespace Store

/-- The number of nodes: the variables and the constructors in their links. -/
def nodes (s : Store) : Nat :=
  s.size + s.links.foldl (fun n link => n + link.elim 0 Ty.size) 0

/-- Enough fuel for the equation of two types: a step for every pair of nodes, and one more. -/
def fuelFor (s : Store) (a b : Ty) : Nat :=
  let nodes := s.nodes + a.size + b.size
  nodes * nodes + 1

end Store

/-- Make two types equal, in one manner. -/
def Manner.unify (m : Manner) (a b : Ty) (reason : String) : Solve Unit := fun s =>
  Manner.unifyWithin (fun _ => m) (s.store.fuelFor a b) a b reason s

/-- Make two types equal. -/
def unify (a b : Ty) (reason : String) : Solve Unit := Manner.shortening.unify a b reason

end InferTrace
