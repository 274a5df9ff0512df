/-
The JSON form of an expression: each node an object with its name, kind, label, what the kind
carries, and the parts. Nodes may go by other names than the usual ones.
-/
import InferTrace.Expr.Basic
import InferTrace.Json.Value

namespace InferTrace.Expr

/-- A node as an object, around its parts. -/
def nodeJson (name : String) (e : Expr) (payload : List (String × Json)) (parts : List Json) :
    Json :=
  .obj ([("id", .str name), ("kind", .str e.kind), ("label", .str e.label)]
    ++ payload ++ [("children", .arr parts)])

/-- The JSON form of an expression whose root stands at place `k`, given the names of places. -/
def toJsonAt (name : Nat → String) (k : Nat) : Expr → Json
  | hole => nodeJson (name k) hole [] []
  | int n => nodeJson (name k) (int n) [("value", .int n)] []
  | bool b => nodeJson (name k) (bool b) [("value", .bool b)] []
  | var x => nodeJson (name k) (var x) [("name", .str x)] []
  | nil => nodeJson (name k) nil [] []
  | binary op l r =>
    nodeJson (name k) (binary op l r) [("op", .str op)]
      [l.toJsonAt name (k + 1), r.toJsonAt name (k + 1 + l.size)]
  | ite c t e =>
    nodeJson (name k) (ite c t e) []
      [c.toJsonAt name (k + 1), t.toJsonAt name (k + 1 + c.size),
        e.toJsonAt name (k + 1 + c.size + t.size)]
  | lambda x b =>
    nodeJson (name k) (lambda x b) [("param", .str x)] [b.toJsonAt name (k + 1)]
  | letIn x v b =>
    nodeJson (name k) (letIn x v b) [("name", .str x)]
      [v.toJsonAt name (k + 1), b.toJsonAt name (k + 1 + v.size)]
  | app f a =>
    nodeJson (name k) (app f a) []
      [f.toJsonAt name (k + 1), a.toJsonAt name (k + 1 + f.size)]
  | cons h t =>
    nodeJson (name k) (cons h t) []
      [h.toJsonAt name (k + 1), t.toJsonAt name (k + 1 + h.size)]

/-- The JSON form of a whole expression. -/
def toJson (e : Expr) (name : Nat → String := nodeName) : Json := e.toJsonAt name 0

end InferTrace.Expr
