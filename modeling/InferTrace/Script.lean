/-
Inference as a script.

The walk over an expression never looks at the store. It asks for new variables and is told
their numbers, hands equations to the solver, and says what to note; the rest is decided by the
expression and by the types at hand. So what it does can be written down beforehand, as a tree
that branches on the numbers of new variables only.

A `Conduct` is a way to do the steps of a script. `free` does them all; `within` does one as far
as the levels of nested calls allow that are left at this step.
-/
import InferTrace.Trace

namespace InferTrace

-- ============================================================= notes

/-- What there is to note, apart from links. The types in it are of the kind `α`. -/
inductive Note (α : Type) where
  /-- A node is entered. -/
  | enter (label : String)
  /-- A rule makes a demand. -/
  | demand (text : String)
  /-- A name comes into scope, with its type. -/
  | scope (x : String) (type : α)
deriving DecidableEq, Repr

namespace Note

variable {α : Type}

/-- The category of a note. -/
def category : Note α → Category
  | enter _ => .ast
  | demand _ => .info
  | scope _ _ => .warn

/-- The text of a note, given the texts of types. -/
def message (render : α → String) : Note α → String
  | enter label => "AST: analyzing " ++ label
  | demand text => text
  | scope x type => "scope: " ++ x ++ " : " ++ render type

/-- The types that a note shows. -/
def types : Note α → List α
  | enter _ | demand _ => []
  | scope _ type => [type]

end Note

/-- Add the event of a note about a node, in the words of the store. -/
def Tracer.note (t : Tracer) (n : Note Ty) (node : Option String) : Tracer :=
  t.record n.category (n.message t.store.render) node

-- ========================================================== conducts

/-- How a step of a script is done: whether it is set about at all, how a note is taken of a
node, and how two types are made equal on behalf of a node. -/
structure Conduct where
  ready : Bool
  note : Note Ty → Option String → Traced Unit
  unify : Ty → Ty → String → Option String → Traced Unit

namespace Conduct

/-- Every step is done. -/
def free : Conduct where
  ready := true
  note n node := modify fun t => t.note n node
  unify := Traced.unify

/-- A step is done as far as so many levels allow. -/
def within (levels : Nat) : Conduct where
  ready := 0 < levels
  note n node :=
    ifRoom (fun t => t.store.canShow levels n.types && t.store.canSnapshot levels) .tooDeep
      (free.note n node)
  unify a b reason node := Traced.solve (unifyInside levels a b reason) node

/-- Set about a step. -/
def start (c : Conduct) (step : Traced Ty) : Traced Ty := ifRoom (fun _ => c.ready) .tooDeep step

end Conduct

-- =========================================================== scripts

/-- What inference is going to do, step by step. -/
inductive Script where
  /-- Give a type. -/
  | give (a : Ty)
  /-- Stop. -/
  | halt (halt : Halt)
  /-- Note something about a node, and go on. -/
  | note (n : Note Ty) (node : Option String) (rest : Script)
  /-- Make a variable, and go on with its number. -/
  | fresh (rest : Nat → Script)
  /-- Make two types equal on behalf of a node, and go on. -/
  | unify (a b : Ty) (reason : String) (node : Option String) (rest : Script)

namespace Script

/-- Do what the script says, each step in a conduct of its own. -/
def runBy : Script → (Nat → Conduct) → Traced Ty
  | give a, c => (c 0).start (return a)
  | halt h, c => (c 0).start (throw h)
  | note n node rest, c => (c 0).start do
    (c 0).note n node
    rest.runBy fun i => c (i + 1)
  | fresh rest, c => (c 0).start do
    let v ← Traced.fresh
    (rest v).runBy fun i => c (i + 1)
  | unify a b reason node rest, c => (c 0).start do
    (c 0).unify a b reason node
    rest.runBy fun i => c (i + 1)

/-- Do what the script says. -/
def run (script : Script) : Traced Ty := script.runBy fun _ => .free

theorem run_note (n : Note Ty) (node : Option String) (rest : Script) :
    (note n node rest).run = (do Conduct.free.note n node; rest.run) := rfl

theorem run_fresh (rest : Nat → Script) :
    (fresh rest).run = (do let v ← Traced.fresh; (rest v).run) := rfl

theorem run_unify (a b : Ty) (reason : String) (node : Option String) (rest : Script) :
    (unify a b reason node rest).run = (do Traced.unify a b reason node; rest.run) := rfl

end Script

end InferTrace
