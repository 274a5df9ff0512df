/-
Work on types under a limit on calls within calls.

To follow a link, to search a part of a type, to solve an equation of parts and to show a part
is a call from within the call for the whole. Here each of these is counted, and done only as
far as there are levels left:

- links are shortened after they have all been followed, so a chain that is too long is left as
  it was;
- a search keeps the links it has shortened until it has to stop;
- a link is made before it is noted, so one that cannot be shown stays, without a record;
- a clash is told with its types, and cannot be told if they cannot be shown.

Whatever there is no level left for ends as an endless equation does.
-/
import InferTrace.Ty.Unify

namespace InferTrace

-- ============================================================ showing

/-- How deeply the calls nest that show a type, where `atVar` is the depth at a variable. -/
def Ty.nesting (atVar : Nat → Nat) : Ty → Nat
  | int | bool | base _ => 1
  | var v => atVar v
  | list _ t => t.nesting atVar + 1
  | arrow _ p r => max (p.nesting atVar) (r.nesting atVar) + 1

namespace Store

/-- The depth at a variable when at most `fuel` links are followed on any path. -/
def nestingWithin (s : Store) : Nat → Nat → Nat
  | 0, _ => 1
  | fuel + 1, v =>
    match s.link? v with
    | some t => t.nesting (s.nestingWithin fuel) + 1
    | none => 1

/-- How deeply the calls nest that show a type: one call for each constructor and each link on
the way. -/
def nesting (s : Store) (t : Ty) : Nat := t.nesting (s.nestingWithin s.size)

/-- The types can be shown in so many levels. -/
def canShow (s : Store) (levels : Nat) (types : List Ty) : Bool :=
  types.all fun t => s.nesting t ≤ levels

/-- A snapshot can be taken in so many levels: every variable with a link is shown from the end
of its links on. -/
def canSnapshot (s : Store) (levels : Nat) : Bool :=
  (List.range s.size).all fun v => !s.isBound v || s.canShow levels [s.resolve (.var v)]

-- ================================================ following, searching

/-- The number of links from a type on, at most `fuel`. -/
def chainWithin (s : Store) : Nat → Ty → Nat
  | 0, _ => 0
  | fuel + 1, .var v =>
    match s.link? v with
    | some t => s.chainWithin fuel t + 1
    | none => 0
  | _ + 1, _ => 0

/-- The number of links from a type on. -/
def chain (s : Store) (t : Ty) : Nat := s.chainWithin s.size t

/-- Search a type for the variable `v` in so many levels, links followed and shortened. -/
def occursWithin (v : Nat) : Nat → Ty → Store → Search × Store
  | 0, _, s => (.endless, s)
  | levels + 1, t, s =>
    if s.chain t < levels then
      match s.prune t with
      | (.var w, s) => (if w = v then .found else .absent, s)
      | (.list _ t, s) => occursWithin v levels t s
      | (.arrow _ p r, s) =>
        match occursWithin v levels p s with
        | (.absent, s) => occursWithin v levels r s
        | ended => ended
      | (_, s) => (.absent, s)
    else (.endless, s)

end Store

-- ============================================================ solving

/-- Do something if there is room for it; stop otherwise. -/
def ifRoom {ε σ α : Type} (room : σ → Bool) (stop : ε) (x : EStateM ε σ α) : EStateM ε σ α :=
  fun s => if room s then x s else .error stop s

/-- Everything is done as far as so many levels allow. -/
def Manner.within (levels : Nat) : Manner where
  prune t := ifRoom (fun s => s.store.chain t < levels) .endless (Solve.prune t)
  occurs v t := Solve.search (Store.occursWithin v levels t)
  keep bond :=
    ifRoom (fun s => s.store.canShow levels [bond.type] && s.store.canSnapshot levels) .endless
      (Manner.shortening.keep bond)
  refuse clash := ifRoom (fun s => s.store.canShow levels clash.types) .endless (throw clash)

/-- Make two types equal in so many levels. -/
def unifyInside (levels : Nat) (a b : Ty) (reason : String) : Solve Unit :=
  Manner.unifyWithin Manner.within levels a b reason

end InferTrace
