/-
Types, in the two forms that inference uses.

A `Ty` is a type as it is held while inference runs: its variables may be linked to other
types elsewhere, so that what it stands for depends on a store. A `Tree` is a type by itself:
what is left of a `Ty` once every link has been followed, or what a variable is taken to be.
`Ty.inst` reads a `Ty` as a tree under an assignment of trees to variables.

A composite type carries a mark: the occurrence of the constructor it came from. Two types
that are equal, marks included, are one and the same node, which unification need not enter;
types of distinct occurrences are compared part by part. Types that inference makes for itself
all have mark zero. A base type is a constant that is known by its mark alone.
-/

namespace InferTrace

-- ============================================================== types

/-- A type with variables that a store may link. -/
inductive Ty where
  | int
  | bool
  | base (mark : Nat)
  | var (index : Nat)
  | list (mark : Nat) (elem : Ty)
  | arrow (mark : Nat) (param ret : Ty)
deriving DecidableEq, Repr, Inhabited

/-- A type as a finite tree. -/
inductive Tree where
  | int
  | bool
  | base (mark : Nat)
  | var (index : Nat)
  | list (elem : Tree)
  | arrow (param ret : Tree)
deriving DecidableEq, Repr, Inhabited

namespace Ty

/-- The type of lists of `elem`. -/
def listOf (elem : Ty) : Ty := .list 0 elem

/-- The type of functions from `param` to `ret`. -/
def fn (param ret : Ty) : Ty := .arrow 0 param ret

/-- A type under an assignment of trees to its variables. -/
def inst (assign : Nat → Tree) : Ty → Tree
  | int => .int
  | bool => .bool
  | base m => .base m
  | var v => assign v
  | list _ t => .list (t.inst assign)
  | arrow _ p r => .arrow (p.inst assign) (r.inst assign)

/-- The shape of a type: its variables stand for themselves. -/
def shape (t : Ty) : Tree := t.inst .var

/-- The number of constructors in a type. -/
def size : Ty → Nat
  | int | bool | base _ | var _ => 1
  | list _ t => t.size + 1
  | arrow _ p r => p.size + r.size + 1

/-- Some variable of the type has the property. -/
def anyVar (p : Nat → Bool) : Ty → Bool
  | int | bool | base _ => false
  | var v => p v
  | list _ t => t.anyVar p
  | arrow _ q r => q.anyVar p || r.anyVar p

end Ty

-- ============================================================== trees

namespace Tree

/-- The tree is a function type. -/
def isArrow : Tree → Bool
  | arrow _ _ => true
  | _ => false

/-- The text of a type. Arrows nest to the right, so a parameter that is itself an arrow
stands in parentheses. -/
def render (name : Nat → String) : Tree → String
  | int => "Int"
  | bool => "Bool"
  | base _ => "Unknown"
  | var v => name v
  | list t => "[" ++ t.render name ++ "]"
  | arrow p r =>
    (if p.isArrow then "(" ++ p.render name ++ ")" else p.render name) ++ " -> " ++ r.render name

/-- The variables of a tree from left to right, as often as they occur. -/
def vars : Tree → List Nat
  | int | bool | base _ => []
  | var v => [v]
  | list t => t.vars
  | arrow p r => p.vars ++ r.vars

end Tree

end InferTrace
