/-
Expressions of the small language: literals, variables, binary operators, conditionals,
one-parameter functions, `let`, application and list construction.

A node is named by its place in the tree: the `k`-th node in pre-order is `n<k>`. Every
function that speaks about nodes takes the place of the root it is given, so a subtree's
nodes carry the names they have in the whole tree.

`hole` is a node of no known kind: it can be built and shown, and no rule of inference
applies to it.
-/
import InferTrace.Number.Digits

namespace InferTrace

/-- An expression. -/
inductive Expr where
  | hole
  | int (value : Int)
  | bool (value : Bool)
  | var (name : String)
  | nil
  | binary (op : String) (left right : Expr)
  | ite (cond yes no : Expr)
  | lambda (param : String) (body : Expr)
  | letIn (name : String) (value body : Expr)
  | app (func arg : Expr)
  | cons (head tail : Expr)
deriving DecidableEq, Repr, Inhabited

/-- The name of the node at place `k`. -/
def nodeName (k : Nat) : String := "n" ++ toString k

namespace Expr

/-- The kind of a node. -/
def kind : Expr → String
  | hole => "Expr"
  | int _ => "IntLit"
  | bool _ => "BoolLit"
  | var _ => "Var"
  | nil => "EmptyList"
  | binary _ _ _ => "BinOp"
  | ite _ _ _ => "If"
  | lambda _ _ => "Fun"
  | letIn _ _ _ => "Let"
  | app _ _ => "App"
  | cons _ _ => "Cons"

/-- A node in a few characters, whatever it carries. -/
def label : Expr → String
  | hole => "Expr"
  | int n => "Int(" ++ toString n ++ ")"
  | bool b => if b then "Bool(true)" else "Bool(false)"
  | var x => "Var(" ++ x ++ ")"
  | nil => "[]"
  | binary op _ _ => "Op(" ++ op ++ ")"
  | ite _ _ _ => "If"
  | lambda x _ => "Fun(" ++ x ++ ")"
  | letIn x _ _ => "Let(" ++ x ++ ")"
  | app _ _ => "App"
  | cons _ _ => "List"

/-- A node that can be written: any but a number with too many digits. -/
def isShort : Expr → Bool
  | int n => Number.isShort n
  | _ => true

/-- A node in a few characters, if it can be written. -/
def label? (e : Expr) : Option String := if e.isShort then some e.label else none

/-- The parts of a node, from left to right. -/
def children : Expr → List Expr
  | hole | int _ | bool _ | var _ | nil => []
  | binary _ l r => [l, r]
  | ite c t e => [c, t, e]
  | lambda _ b => [b]
  | letIn _ v b => [v, b]
  | app f a => [f, a]
  | cons h t => [h, t]

/-- The number of nodes. -/
def size : Expr → Nat
  | hole | int _ | bool _ | var _ | nil => 1
  | binary _ l r => 1 + l.size + r.size
  | ite c t e => 1 + c.size + t.size + e.size
  | lambda _ b => 1 + b.size
  | letIn _ v b => 1 + v.size + b.size
  | app f a => 1 + f.size + a.size
  | cons h t => 1 + h.size + t.size

/-- The number of levels; a leaf has one. -/
def depth : Expr → Nat
  | hole | int _ | bool _ | var _ | nil => 1
  | binary _ l r => 1 + max l.depth r.depth
  | ite c t e => 1 + max c.depth (max t.depth e.depth)
  | lambda _ b => 1 + b.depth
  | letIn _ v b => 1 + max v.depth b.depth
  | app f a => 1 + max f.depth a.depth
  | cons h t => 1 + max h.depth t.depth

/-- All nodes in pre-order. -/
def walk : Expr → List Expr
  | hole => [hole]
  | int n => [int n]
  | bool b => [bool b]
  | var x => [var x]
  | nil => [nil]
  | binary op l r => binary op l r :: (l.walk ++ r.walk)
  | ite c t e => ite c t e :: (c.walk ++ (t.walk ++ e.walk))
  | lambda x b => lambda x b :: b.walk
  | letIn x v b => letIn x v b :: (v.walk ++ b.walk)
  | app f a => app f a :: (f.walk ++ a.walk)
  | cons h t => cons h t :: (h.walk ++ t.walk)

/-- The walk visits a node and then the walks of its parts. -/
theorem walk_eq (e : Expr) : e.walk = e :: e.children.flatMap walk := by
  cases e <;> simp [walk, children]

theorem length_walk (e : Expr) : e.walk.length = e.size := by
  induction e <;> simp_all [walk, size] <;> omega

end Expr

end InferTrace
