/-
Two scripts of one expression.

What the walk over an expression does depends on little besides the
expression. Numbered on from another variable, it asks the same
equations of the variables numbered on. Under a lower limit it stops
where it finds no level left, and does the same up to there.

`Script.Follows` compares scripts in both ways at once: the second has
its variables numbered on from `n`, and where a `cut` is allowed the
first may stop before the second does. The walks over an expression are
compared here (`follows_script`); what follows for their runs depends on
which of the two differences there is.
-/
import InferTrace.Proofs.Store.Above
import InferTrace.Proofs.Trace.Script

namespace InferTrace

variable {n limit limit' k : Nat} {cut : Prop} {e : Expr}

/-- The note with each type replaced. -/
def Note.map {α β : Type} (f : α → β) : Note α → Note β
  | enter label => enter label
  | demand text => demand text
  | scope x type => scope x (f type)

/-- The scope with the variables of its types numbered on from `n`. -/
def Scope.shift (n : Nat) (scope : Scope) : Scope :=
  scope.map fun (x, t) => (x, t.shift n)

theorem Scope.lookup_shift (n : Nat) (scope : Scope) (x : String) :
    (scope.shift n).lookup x = (scope.lookup x).map (Ty.shift n) :=
  lookup_map (Ty.shift n) scope x

-- ============================================== nothing to number on

theorem Ty.shift_zero (a : Ty) : a.shift 0 = a := by
  induction a with
  | int | bool | base => rfl
  | var v => exact congrArg Ty.var (Nat.zero_add v)
  | list m a ih => rw [Ty.shift, ih]
  | arrow m p r ihp ihr => rw [Ty.shift, ihp, ihr]

theorem Note.map_shift_zero (m : Note Ty) : m.map (Ty.shift 0) = m := by
  cases m with
  | enter | demand => rfl
  | scope x a => rw [Note.map, Ty.shift_zero]

theorem Scope.shift_zero (scope : Scope) : scope.shift 0 = scope := by
  unfold Scope.shift
  simp [Ty.shift_zero]

-- ============================================================ scripts

namespace Script

/-- The second script is the first, with variables numbered on from `n`;
if there may be a cut, the first may have stopped before. -/
inductive Follows (n : Nat) (cut : Prop) : Script → Script → Prop
  | stop {script : Script} : cut → Follows n cut (.halt .tooDeep) script
  | give (a : Ty) : Follows n cut (.give a) (.give (a.shift n))
  | halt (h : Halt) : Follows n cut (.halt h) (.halt h)
  | note (m : Note Ty) {node : Option String} {rest rest' : Script} :
      Follows n cut rest rest' →
        Follows n cut (.note m node rest)
          (.note (m.map (Ty.shift n)) node rest')
  | fresh {rest rest' : Nat → Script} :
      (∀ v, Follows n cut (rest v) (rest' (n + v))) →
        Follows n cut (.fresh rest) (.fresh rest')
  | unify (a b : Ty) {reason : String} {node : Option String}
      {rest rest' : Script} : Follows n cut rest rest' →
        Follows n cut (.unify a b reason node rest)
          (.unify (a.shift n) (b.shift n) reason node rest')

/-- One limit is the other, or below it where a cut is allowed. -/
def Lowers (cut : Prop) (limit limit' : Nat) : Prop :=
  limit = limit' ∨ limit ≤ limit' ∧ cut

theorem Lowers.pred (h : Lowers cut limit limit') :
    Lowers cut (limit - 1) (limit' - 1) :=
  h.imp (congrArg (· - 1)) fun h => ⟨Nat.sub_le_sub_right h.1 1, h.2⟩

theorem follows_entered {rest rest' : Script}
    (hlimit : Lowers cut limit limit') (h : Follows n cut rest rest') :
    Follows n cut (entered limit k e rest) (entered limit' k e rest') := by
  have hnote : 0 < limit → 0 < limit' →
      Follows n cut (entered limit k e rest) (entered limit' k e rest') := by
    intro hpos hpos'
    unfold entered
    rw [if_neg (by omega), if_neg (by omega)]
    cases e.label? with
    | none => exact .halt _
    | some label => exact .note (.enter label) h
  by_cases hzero : limit = 0
  · rw [entered, if_pos hzero]
    rcases hlimit with rfl | ⟨-, hcut⟩
    · rw [entered, if_pos hzero]
      exact .halt _
    · exact .stop hcut
  · rcases hlimit with rfl | ⟨hle, -⟩
    · exact hnote (by omega) (by omega)
    · exact hnote (by omega) (by omega)

theorem follows_operands {op : String} {left right : Ty}
    {node : Option String} {rest rest' : Ty → Script}
    (h : ∀ a, Follows n cut (rest a) (rest' (a.shift n))) :
    Follows n cut (operands op left right node rest)
      (operands op (left.shift n) (right.shift n) node rest') := by
  unfold operands
  by_cases hop : op ∈ arithmeticOps
  · rw [if_pos hop, if_pos hop]
    exact .note (.demand _) (.unify _ .int (.unify _ .int (h .int)))
  · rw [if_neg hop, if_neg hop]
    exact .note (.demand _) (.unify _ _ (h .bool))

end Script

open Script in
/-- The walk over an expression is the same wherever its variables start,
and up to a cut under any limit. -/
theorem follows_script (n : Nat) (cut : Prop) : ∀ (e : Expr)
    (limit limit' : Nat) (scope : Scope) (k : Nat)
    (rest rest' : Ty → Script), Lowers cut limit limit' →
      (∀ a, Follows n cut (rest a) (rest' (a.shift n))) →
        Follows n cut (e.script limit scope k rest)
          (e.script limit' (scope.shift n) k rest') := by
  intro e
  induction e with
  | hole =>
      intro limit limit' scope k rest rest' hle h
      exact follows_entered hle (.halt _)
  | int i =>
      intro limit limit' scope k rest rest' hle h
      exact follows_entered hle (h .int)
  | bool b =>
      intro limit limit' scope k rest rest' hle h
      exact follows_entered hle (h .bool)
  | var x =>
      intro limit limit' scope k rest rest' hle h
      rw [Expr.script, Expr.script, Scope.lookup_shift]
      apply follows_entered hle
      cases scope.lookup x with
      | some a => exact h a
      | none => exact .halt _
  | nil =>
      intro limit limit' scope k rest rest' hle h
      exact follows_entered hle (.fresh fun v => h (.listOf (.var v)))
  | cons hd tl ihh iht =>
      intro limit limit' scope k rest rest' hle h
      apply follows_entered hle
      apply ihh _ _ _ _ _ _ hle.pred
      intro head
      apply iht _ _ _ _ _ _ hle.pred
      intro tail
      exact .unify tail (.listOf head) (h (.listOf head))
  | binary op l r ihl ihr =>
      intro limit limit' scope k rest rest' hle h
      apply follows_entered hle
      apply ihl _ _ _ _ _ _ hle.pred
      intro left
      apply ihr _ _ _ _ _ _ hle.pred
      exact fun right => follows_operands h
  | ite c y e ihc ihy ihe =>
      intro limit limit' scope k rest rest' hle h
      apply follows_entered hle
      apply ihc _ _ _ _ _ _ hle.pred
      intro cond
      apply Follows.unify cond .bool
      apply ihy _ _ _ _ _ _ hle.pred
      intro yes
      apply ihe _ _ _ _ _ _ hle.pred
      exact fun no => .unify yes no (h yes)
  | lambda x body ih =>
      intro limit limit' scope k rest rest' hle h
      apply follows_entered hle
      refine .fresh fun v => .note (.scope x (.var v)) ?_
      apply ih _ _ (scope.extend x (.var v)) _ _ _ hle.pred
      exact fun a => h (.fn (.var v) a)
  | letIn x v body ihv ihb =>
      intro limit limit' scope k rest rest' hle h
      apply follows_entered hle
      apply ihv _ _ _ _ _ _ hle.pred
      intro value
      apply Follows.note (.scope x value)
      exact ihb _ _ (scope.extend x value) _ _ _ hle.pred h
  | app f arg ihf iha =>
      intro limit limit' scope k rest rest' hle h
      apply follows_entered hle
      apply ihf _ _ _ _ _ _ hle.pred
      intro func
      apply iha _ _ _ _ _ _ hle.pred
      intro a
      exact .fresh fun v => .unify func (.fn a (.var v)) (h (.var v))

/-- Under a lower limit the walk is cut off, and nothing more. -/
theorem follows_script_of_le (hle : limit ≤ limit') (scope : Scope)
    (e : Expr) :
    Script.Follows 0 True (e.script limit scope k .give)
      (e.script limit' scope k .give) := by
  have h := follows_script 0 True e limit limit' scope k .give .give
    (Or.inr ⟨hle, trivial⟩) .give
  rw [Scope.shift_zero] at h
  exact h

end InferTrace
