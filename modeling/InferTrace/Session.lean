/-
Sessions: inferences one after another over one store and one trace. A request that fails
leaves its links and events to those after it.
-/
import InferTrace.Analysis

namespace InferTrace

/-- An expression to infer, the scope it stands in, and whether the links at the root of its
type are followed. -/
structure Request where
  expr : Expr
  scope : Scope := []
  pruned : Bool := true
deriving DecidableEq, Repr, Inhabited

/-- The action of a request. -/
def Request.action (limit : Nat) (r : Request) : Traced Ty :=
  if r.pruned then inferPruned limit r.scope r.expr else inferExpr limit r.scope r.expr

/-- The answer to a request, and the tracer after it, whatever the answer. -/
def Request.perform (limit : Nat) (r : Request) (t : Tracer) : Except Halt Ty × Tracer :=
  match r.action limit t with
  | .ok type t => (.ok type, t)
  | .error halt t => (.error halt, t)

/-- The answers to a list of requests, and the tracer after all of them. -/
def performAll (limit : Nat) : List Request → Tracer → List (Except Halt Ty) × Tracer
  | [], t => ([], t)
  | r :: rest, t =>
    let (answer, t) := r.perform limit t
    let (answers, t) := performAll limit rest t
    (answer :: answers, t)

end InferTrace
