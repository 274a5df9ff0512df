/-
The store of type variables.

Variables are numbered from zero in the order of their making and named by a stem and their
number. A variable may be linked to a type, once; a link to another variable is followed until
a type or a variable without a link is reached.

- `resolve` follows links and changes nothing;
- `prune` follows links and shortens every link it followed to the place it reached;
- `occurs` searches a type for a variable, pruning on the way;
- `endless` says that following the links of a type never comes to an end;
- `assign` is what the store says about each variable, with all links followed; `tree` reads a
  type by it.

In a store whose links have no cycle a chain of links meets no variable twice, so following
as many links as there are variables is following all of them; that number is the fuel of
each function here. Links set by hand may run in a circle; then the fuel runs out on some
path, and the path meets a variable twice. `prune?`, `occurs`, `render?`, `freeVars?` and
`snapshot?` tell that case apart.
-/
import InferTrace.Text.Quoted
import InferTrace.Ty.Basic

namespace InferTrace

/-- Type variables and their links. -/
structure Store where
  stem : String := "T"
  links : Array (Option Ty) := #[]
deriving DecidableEq, Repr, Inhabited

namespace Store

/-- The number of variables. -/
def size (s : Store) : Nat := s.links.size

/-- The name of a variable. -/
def name (s : Store) (v : Nat) : String := s.stem ++ toString v

/-- What a variable is linked to. -/
def link? (s : Store) (v : Nat) : Option Ty := (s.links[v]?).join

/-- The variable has a link. -/
def isBound (s : Store) (v : Nat) : Bool := (s.link? v).isSome

/-- A new variable, without a link. -/
def fresh (s : Store) : Nat × Store := (s.size, { s with links := s.links.push none })

/-- Link a variable to a type, whatever it was linked to before. -/
def setLink (s : Store) (v : Nat) (t : Ty) : Store :=
  { s with links := s.links.setIfInBounds v (some t) }

/-- Link a variable that has no link; the link it has is the error. -/
def bind (s : Store) (v : Nat) (t : Ty) : Except Ty Store :=
  match s.link? v with
  | some old => .error old
  | none => .ok (s.setLink v t)

/-- A variable by its name, and whether it has a link. -/
def describe (s : Store) (v : Nat) : String :=
  "TypeVariable(" ++ Text.quoted (s.name v) ++ ", bound="
    ++ (if s.isBound v then "True" else "False") ++ ")"

-- ==================================================== following links

/-- Follow at most `fuel` links. -/
def follow (s : Store) : Nat → Ty → Ty
  | 0, t => t
  | fuel + 1, .var v =>
    match s.link? v with
    | some t => s.follow fuel t
    | none => .var v
  | _ + 1, t => t

/-- The type at the end of the links: not a variable with a link. -/
def resolve (s : Store) (t : Ty) : Ty := s.follow s.size t

/-- Follow at most `fuel` links, and link every variable on the way to the end. -/
def pruneWithin : Nat → Ty → Store → Ty × Store
  | 0, t, s => (t, s)
  | fuel + 1, .var v, s =>
    match s.link? v with
    | some t =>
      let (r, s) := pruneWithin fuel t s
      (r, s.setLink v r)
    | none => (.var v, s)
  | _ + 1, t, s => (t, s)

/-- The type at the end of the links, with the links on the way shortened. -/
def prune (s : Store) (t : Ty) : Ty × Store := pruneWithin s.size t s

/-- The type is a variable with a link. -/
def isLinked (s : Store) : Ty → Bool
  | .var v => s.isBound v
  | _ => false

/-- As `prune`, but none if the links from variable to variable run in a circle. -/
def prune? (s : Store) (t : Ty) : Option (Ty × Store) :=
  let (r, shortened) := s.prune t
  if shortened.isLinked r then none else some (r, shortened)

-- ==================================================== reading a type

/-- What a variable stands for when at most `fuel` links are followed on any path. -/
def assignWithin (s : Store) : Nat → Nat → Tree
  | 0, v => .var v
  | fuel + 1, v =>
    match s.link? v with
    | some t => t.inst (s.assignWithin fuel)
    | none => .var v

/-- What a variable stands for. -/
def assign (s : Store) (v : Nat) : Tree := s.assignWithin s.size v

/-- The tree of a type, with all links followed. -/
def tree (s : Store) (t : Ty) : Tree := t.inst s.assign

/-- The text of a type, with all links followed. -/
def render (s : Store) (t : Ty) : String := (s.tree t).render s.name

/-- Every variable by name, with its type or, if it has no link, `placeholder`. -/
def snapshot (s : Store) (placeholder : String := "?") : List (String × String) :=
  (List.range s.size).map fun v =>
    (s.name v, if s.isBound v then s.render (.var v) else placeholder)

-- ==================================================== free variables

/-- Add the variables of a type to those `found`, where `atVar` says what a variable adds. -/
def collect (atVar : Nat → List Nat → List Nat) : Ty → List Nat → List Nat
  | .int, found | .bool, found | .base _, found => found
  | .var v, found => atVar v found
  | .list _ t, found => collect atVar t found
  | .arrow _ p r, found => collect atVar r (collect atVar p found)

/-- Add what a variable stands for: itself if it has no link and is not there yet. -/
def collectVar (s : Store) : Nat → Nat → List Nat → List Nat
  | 0, _, found => found
  | fuel + 1, v, found =>
    match s.link? v with
    | some t => collect (s.collectVar fuel) t found
    | none => if v ∈ found then found else found ++ [v]

/-- The variables without a link that a type reaches, in the order of their first
occurrence. -/
def freeVars (s : Store) (t : Ty) : List Nat := collect (s.collectVar (s.size + 1)) t []

-- ======================================================= occurs check

/-- How a search for a variable ends; one that goes round in a circle is endless. -/
inductive Search where
  | found
  | absent
  | endless
deriving DecidableEq, Repr

/-- Search a type, where `atVar` searches a variable. The parts are searched from left to right
as long as the variable is absent. -/
def occursVia (atVar : Nat → Store → Search × Store) : Ty → Store → Search × Store
  | .int, s | .bool, s | .base _, s => (.absent, s)
  | .var w, s => atVar w s
  | .list _ t, s => occursVia atVar t s
  | .arrow _ p r, s =>
    match occursVia atVar p s with
    | (.absent, s) => occursVia atVar r s
    | ended => ended

/-- Search what the variable `w` stands for. -/
def occursAt (v : Nat) : Nat → Nat → Store → Search × Store
  | 0, _, s => (.endless, s)
  | fuel + 1, w, s =>
    match s.prune? (.var w) with
    | none => (.endless, s)
    | some (.var u, s) => (if u = v then .found else .absent, s)
    | some (t, s) => occursVia (occursAt v fuel) t s

/-- Whether the variable `v` occurs in `t`, links followed and shortened. -/
def occurs (s : Store) (v : Nat) (t : Ty) : Search × Store :=
  occursVia (occursAt v (s.size + 1)) t s

-- ====================================================== endless types

/-- What the variable `v` stands for goes on after `fuel` links on some path. -/
def endlessWithin (s : Store) : Nat → Nat → Bool
  | 0, v => s.isBound v
  | fuel + 1, v =>
    match s.link? v with
    | some t => t.anyVar (s.endlessWithin fuel)
    | none => false

/-- Following the links of a type never comes to an end: there is no tree of it. -/
def endless (s : Store) (t : Ty) : Bool := t.anyVar (s.endlessWithin s.size)

/-- Every variable stands for a finite tree. -/
def isFinite (s : Store) : Bool := (List.range s.size).all fun v => !s.endless (.var v)

/-- The text of a type that has an end. -/
def render? (s : Store) (t : Ty) : Option String :=
  if s.endless t then none else some (s.render t)

/-- The free variables of a type that has an end. -/
def freeVars? (s : Store) (t : Ty) : Option (List Nat) :=
  if s.endless t then none else some (s.freeVars t)

/-- The snapshot of a store in which every type has an end. -/
def snapshot? (s : Store) (placeholder : String := "?") : Option (List (String × String)) :=
  if s.isFinite then some (s.snapshot placeholder) else none

end Store

end InferTrace
