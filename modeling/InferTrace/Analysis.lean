/-
Inference: walk an expression, generate equations between types, and solve each at once.

    n, true, []            Int, Bool, [a]                   a fresh
    x                      its type in scope
    h :: t                 [type of h], the type of t being equal to it
    l op r                 arithmetic: Int, both sides Int; any other: Bool, both sides equal
    if c then t else e     the type of t, that of e being equal to it, c being Bool
    fun x -> b             a -> type of b with x : a        a fresh
    f e                    a, the type of f being (type of e) -> a    a fresh
    let x = v in b         type of b with x : type of v

A `let` is monomorphic: its name has the one type of its value at every use. Each node is
announced by an event before its parts are visited, from left to right.

`Expr.script` is what the walk does, with what comes after as a parameter. `limit` bounds the
depth of the walk; a node beyond it halts the walk without an event. So does a literal with too
many digits to be announced.
-/
import InferTrace.Expr.Basic
import InferTrace.Script
import InferTrace.Ty.Scope

namespace InferTrace

/-- The operators on integers. Every other operator compares. -/
def arithmeticOps : List String := ["+", "-", "*", "/"]

namespace Script

/-- Announce the node at place `k`, unless it is beyond the limit or cannot be written. -/
def entered (limit k : Nat) (e : Expr) (rest : Script) : Script :=
  if limit = 0 then .halt .tooDeep
  else match e.label? with
    | none => .halt .tooLong
    | some label => .note (.enter label) (some (nodeName k)) rest

/-- There are three ways to enter a node: not at all, beyond the limit or with a literal that
cannot be written, and otherwise with its announcement. -/
theorem entered_cases {P : Script → Prop} {limit k : Nat} {e : Expr} {rest : Script}
    (deep : limit = 0 → P (.halt .tooDeep)) (long : e.label? = none → P (.halt .tooLong))
    (note : ∀ label, 0 < limit → e.label? = some label →
      P (.note (.enter label) (some (nodeName k)) rest)) : P (entered limit k e rest) := by
  unfold entered
  split
  · next hlimit => exact deep hlimit
  · next hlimit =>
    split
    · next hlabel => exact long hlabel
    · next label hlabel => exact note label (Nat.pos_of_ne_zero hlimit) hlabel

/-- Constrain the operands of `op` and go on with the type of its result. -/
def operands (op : String) (left right : Ty) (node : Option String) (rest : Ty → Script) :
    Script :=
  if op ∈ arithmeticOps then
    .note (.demand ("constraint: '" ++ op ++ "' requires Int operands")) node <|
    .unify left .int ("left operand of '" ++ op ++ "'") node <|
    .unify right .int ("right operand of '" ++ op ++ "'") node <|
    rest .int
  else
    .note (.demand ("constraint: '" ++ op ++ "' requires operands of the same type")) node <|
    .unify left right ("operands of '" ++ op ++ "'") node <|
    rest .bool

end Script

open Script in
/-- The script of an expression whose root stands at place `k`; `rest` goes on with its type. -/
def Expr.script (limit : Nat) (scope : Scope) (k : Nat) : Expr → (Ty → Script) → Script
  | .hole, _ =>
    entered limit k .hole <|
    .halt (.fault { cause := .unknownExpression Expr.hole.kind, node := some (nodeName k) })
  | .int n, rest => entered limit k (.int n) (rest .int)
  | .bool b, rest => entered limit k (.bool b) (rest .bool)
  | .var x, rest =>
    entered limit k (.var x) <|
    match scope.lookup x with
    | some a => rest a
    | none => .halt (.fault { cause := .undefinedVariable x, node := some (nodeName k) })
  | .nil, rest =>
    entered limit k .nil <|
    .fresh fun v => rest (.listOf (.var v))
  | .cons h t, rest =>
    entered limit k (.cons h t) <|
    h.script (limit - 1) scope (k + 1) fun head =>
    t.script (limit - 1) scope (k + 1 + h.size) fun tail =>
    .unify tail (.listOf head) "list must be homogeneous" (some (nodeName k)) <|
    rest (.listOf head)
  | .binary op l r, rest =>
    entered limit k (.binary op l r) <|
    l.script (limit - 1) scope (k + 1) fun left =>
    r.script (limit - 1) scope (k + 1 + l.size) fun right =>
    operands op left right (some (nodeName k)) rest
  | .ite c t e, rest =>
    entered limit k (.ite c t e) <|
    c.script (limit - 1) scope (k + 1) fun cond =>
    .unify cond .bool "if condition" (some (nodeName k)) <|
    t.script (limit - 1) scope (k + 1 + c.size) fun yes =>
    e.script (limit - 1) scope (k + 1 + c.size + t.size) fun no =>
    .unify yes no "then/else branches" (some (nodeName k)) <|
    rest yes
  | .lambda x b, rest =>
    entered limit k (.lambda x b) <|
    .fresh fun v =>
    .note (.scope x (.var v)) (some (nodeName k)) <|
    b.script (limit - 1) (scope.extend x (.var v)) (k + 1) fun body =>
    rest (.fn (.var v) body)
  | .app f a, rest =>
    entered limit k (.app f a) <|
    f.script (limit - 1) scope (k + 1) fun func =>
    a.script (limit - 1) scope (k + 1 + f.size) fun arg =>
    .fresh fun v =>
    .unify func (.fn arg (.var v)) "function application" (some (nodeName k)) <|
    rest (.var v)
  | .letIn x v b, rest =>
    entered limit k (.letIn x v b) <|
    v.script (limit - 1) scope (k + 1) fun value =>
    .note (.scope x value) (some (nodeName k)) <|
    b.script (limit - 1) (scope.extend x value) (k + 1 + v.size) rest

/-- The type of an expression whose root stands at place `k`. -/
def analyze (limit : Nat) (scope : Scope) (k : Nat) (e : Expr) : Traced Ty :=
  (e.script limit scope k .give).run

/-- The type of a whole expression. -/
def inferExpr (limit : Nat) (scope : Scope) (e : Expr) : Traced Ty := analyze limit scope 0 e

/-- The type of a whole expression, with the links at its root followed. -/
def inferPruned (limit : Nat) (scope : Scope) (e : Expr) : Traced Ty := do
  Traced.prune (← inferExpr limit scope e)

-- ======================================================== under limits

/-- How far the calls of a run may nest. What is left for work on types depends on where in a
run it is done. -/
structure Limits where
  /-- The levels of the parser. -/
  parsing : Nat
  /-- The depth of the walk over an expression. -/
  walking : Nat
  /-- The levels that are left at each step of the walk. -/
  room : Nat → Nat
  /-- The levels for the type that was inferred. -/
  showing : Nat
  /-- The levels for the variables when the run is closed. -/
  closing : Nat

/-- The type of a whole expression, with the links at its root followed, if the limits allow
that and allow to show it. -/
def inferWithin (limits : Limits) (scope : Scope) (e : Expr) : Traced Ty := do
  let type ← (e.script limits.walking scope 0 .give).runBy fun i => .within (limits.room i)
  let type ← ifRoom (fun t => t.store.chain type < limits.showing) .tooDeep (Traced.prune type)
  ifRoom (fun t => t.store.canShow limits.showing [type]) .tooDeep (return type)

end InferTrace
