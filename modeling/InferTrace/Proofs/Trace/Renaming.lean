/-
The names of parameters and of `let` do not matter.

Two expressions are the same up to bound names (`Expr.Alpha`) if they
have the same shape and each variable of the one is bound where the
variable at its place in the other is: by binders at the same place, or
by none, and then it is the same name. `Paired` says so of two names,
given the pairs of binders around them; an inner pair hides the outer
ones on both sides.

For inference that is all there is to a name. Its script is the same but
for the names in announcements and in what comes into scope
(`renamed_script`), and these are only noted. So two runs from one
tracer come to the same end with the same store, and their events differ
in the texts of announcements and scopes at most (`analyze_alpha`).
-/
import InferTrace.Proofs.Trace.Script

namespace InferTrace

variable {pairs : List (String × String)} {x y : String}
  {scope scope' : Scope}

-- ========================================================= bound names

/-- Two names mean the same under these pairs of binders, the innermost
first. -/
def Paired : List (String × String) → String → String → Prop
  | [], x, y => x = y
  | (p, q) :: pairs, x, y =>
    x = p ∧ y = q ∨ x ≠ p ∧ y ≠ q ∧ Paired pairs x y

instance decidablePaired : ∀ (pairs : List (String × String))
    (x y : String), Decidable (Paired pairs x y)
  | [], x, y => inferInstanceAs (Decidable (x = y))
  | (_, _) :: pairs, x, y =>
    have := decidablePaired pairs x y
    inferInstanceAs (Decidable (_ ∨ _))

-- in `fun x -> fun y -> x`, to rename `x` to `y` would capture it
example : ¬ Paired [("y", "y"), ("x", "y")] "x" "y" := by decide

/-- The expressions differ in bound names only, where the binders around
them are paired as given. -/
inductive Expr.Alpha : List (String × String) → Expr → Expr → Prop
  | hole {pairs : List (String × String)} : Alpha pairs .hole .hole
  | int {pairs : List (String × String)} (n : Int) :
      Alpha pairs (.int n) (.int n)
  | bool {pairs : List (String × String)} (b : Bool) :
      Alpha pairs (.bool b) (.bool b)
  | nil {pairs : List (String × String)} : Alpha pairs .nil .nil
  | var {pairs : List (String × String)} {x y : String} :
      Paired pairs x y → Alpha pairs (.var x) (.var y)
  | cons {pairs : List (String × String)} {h h' t t' : Expr} :
      Alpha pairs h h' → Alpha pairs t t' →
        Alpha pairs (.cons h t) (.cons h' t')
  | binary {pairs : List (String × String)} (op : String)
      {l l' r r' : Expr} : Alpha pairs l l' → Alpha pairs r r' →
        Alpha pairs (.binary op l r) (.binary op l' r')
  | ite {pairs : List (String × String)} {c c' t t' e e' : Expr} :
      Alpha pairs c c' → Alpha pairs t t' → Alpha pairs e e' →
        Alpha pairs (.ite c t e) (.ite c' t' e')
  | lambda {pairs : List (String × String)} {x y : String} {b b' : Expr} :
      Alpha ((x, y) :: pairs) b b' →
        Alpha pairs (.lambda x b) (.lambda y b')
  | app {pairs : List (String × String)} {f f' a a' : Expr} :
      Alpha pairs f f' → Alpha pairs a a' →
        Alpha pairs (.app f a) (.app f' a')
  | letIn {pairs : List (String × String)} {x y : String}
      {v v' b b' : Expr} : Alpha pairs v v' →
        Alpha ((x, y) :: pairs) b b' →
          Alpha pairs (.letIn x v b) (.letIn y v' b')

/-- Nodes have the same places. -/
theorem Expr.Alpha.size_eq {e e' : Expr} (h : Alpha pairs e e') :
    e'.size = e.size := by
  induction h with
  | hole | int | bool | nil | var => rfl
  | lambda _ ih => rw [size, size, ih]
  | cons _ _ ih ih' | binary _ _ _ ih ih' | app _ _ ih ih'
  | letIn _ _ ih ih' => rw [size, size, ih, ih']
  | ite _ _ _ ihc iht ihe => rw [size, size, ihc, iht, ihe]

/-- Names that mean the same have the same type in two scopes, and those
in neither are the same. -/
def Scope.Match (pairs : List (String × String)) (scope scope' : Scope) :
    Prop :=
  ∀ x y, Paired pairs x y →
    scope'.lookup y = scope.lookup x ∧ (scope.lookup x = none → x = y)

theorem Scope.match_self (scope : Scope) : Scope.Match [] scope scope := by
  intro x y hxy
  have heq : x = y := hxy
  exact ⟨by rw [heq], fun _ => heq⟩

theorem Scope.lookup_extend (scope : Scope) (x p : String) (a : Ty) :
    (scope.extend p a).lookup x
      = if x = p then some a else scope.lookup x := by
  show List.lookup x ((p, a) :: scope) = _
  rw [List.lookup_cons]
  by_cases hx : x = p
  · simp [hx]
  · have hne : (x == p) = false := beq_eq_false_iff_ne.2 hx
    rw [if_neg hx, hne]
    rfl

/-- The same goes for scopes with one more pair of binders. -/
theorem Scope.Match.extend (h : Scope.Match pairs scope scope')
    (p q : String) (a : Ty) :
    Scope.Match ((p, q) :: pairs) (scope.extend p a)
      (scope'.extend q a) := by
  intro x y hxy
  rw [Scope.lookup_extend, Scope.lookup_extend]
  rcases hxy with ⟨hx, hy⟩ | ⟨hx, hy, hxy⟩
  · rw [if_pos hx, if_pos hy]
    exact ⟨rfl, by simp⟩
  · rw [if_neg hx, if_neg hy]
    exact h x y hxy

-- ============================================================ scripts

/-- The notes differ in names only. -/
inductive Note.Renamed : Note Ty → Note Ty → Prop
  | enter (label label' : String) : Renamed (.enter label) (.enter label')
  | demand (text : String) : Renamed (.demand text) (.demand text)
  | scope (x y : String) (a : Ty) : Renamed (.scope x a) (.scope y a)

/-- The scripts differ in the names that they note, and in nothing
else. -/
inductive Script.Renamed : Script → Script → Prop
  | give (a : Ty) : Renamed (.give a) (.give a)
  | halt (h : Halt) : Renamed (.halt h) (.halt h)
  | note {n n' : Note Ty} {node : Option String} {rest rest' : Script} :
      n.Renamed n' → Renamed rest rest' →
        Renamed (.note n node rest) (.note n' node rest')
  | fresh {rest rest' : Nat → Script} :
      (∀ v, Renamed (rest v) (rest' v)) →
        Renamed (.fresh rest) (.fresh rest')
  | unify {a b : Ty} {reason : String} {node : Option String}
      {rest rest' : Script} : Renamed rest rest' →
        Renamed (.unify a b reason node rest) (.unify a b reason node rest')

namespace Script

/-- Both nodes are announced, or neither. -/
theorem renamed_entered {limit k : Nat} {e e' : Expr} {rest rest' : Script}
    (he : e'.isShort = e.isShort) (h : Renamed rest rest') :
    Renamed (entered limit k e rest) (entered limit k e' rest') := by
  unfold entered Expr.label?
  rw [he]
  by_cases hlimit : limit = 0
  · rw [if_pos hlimit, if_pos hlimit]
    exact .halt _
  · rw [if_neg hlimit, if_neg hlimit]
    cases e.isShort with
    | true => exact .note (.enter _ _) h
    | false => exact .halt _

theorem renamed_operands {op : String} {left right : Ty}
    {node : Option String} {rest rest' : Ty → Script}
    (h : ∀ a, Renamed (rest a) (rest' a)) :
    Renamed (operands op left right node rest)
      (operands op left right node rest') := by
  unfold operands
  by_cases hop : op ∈ arithmeticOps
  · rw [if_pos hop, if_pos hop]
    exact .note (.demand _) (.unify (.unify (h _)))
  · rw [if_neg hop, if_neg hop]
    exact .note (.demand _) (.unify (h _))

end Script

/-- Expressions that differ in bound names only have scripts that differ
in noted names only. -/
theorem renamed_script {e e' : Expr} (h : Expr.Alpha pairs e e') :
    ∀ (limit : Nat) (scope scope' : Scope) (k : Nat)
      (rest rest' : Ty → Script), Scope.Match pairs scope scope' →
        (∀ a, Script.Renamed (rest a) (rest' a)) →
          Script.Renamed (e.script limit scope k rest)
            (e'.script limit scope' k rest') := by
  induction h with
  | hole =>
      intro limit scope scope' k rest rest' _ _
      rw [Expr.script, Expr.script]
      exact Script.renamed_entered rfl (.halt _)
  | int n =>
      intro limit scope scope' k rest rest' _ hrest
      rw [Expr.script, Expr.script]
      exact Script.renamed_entered rfl (hrest _)
  | bool b =>
      intro limit scope scope' k rest rest' _ hrest
      rw [Expr.script, Expr.script]
      exact Script.renamed_entered rfl (hrest _)
  | nil =>
      intro limit scope scope' k rest rest' _ hrest
      rw [Expr.script, Expr.script]
      exact Script.renamed_entered rfl (.fresh fun v => hrest _)
  | @var pairs x y hxy =>
      intro limit scope scope' k rest rest' hscope hrest
      obtain ⟨hlookup, hfree⟩ := hscope x y hxy
      rw [Expr.script, Expr.script, hlookup]
      refine Script.renamed_entered rfl ?_
      cases hx : scope.lookup x with
      | some a => exact hrest a
      | none =>
          -- bound by nothing, it has the same name in the fault
          rw [hfree hx]
          exact .halt _
  | cons hh ht ihh iht =>
      intro limit scope scope' k rest rest' hscope hrest
      rw [Expr.script, Expr.script, hh.size_eq]
      refine Script.renamed_entered rfl ?_
      refine ihh _ _ _ _ _ _ hscope fun head => ?_
      refine iht _ _ _ _ _ _ hscope fun tail => ?_
      exact .unify (hrest _)
  | binary op hl hr ihl ihr =>
      intro limit scope scope' k rest rest' hscope hrest
      rw [Expr.script, Expr.script, hl.size_eq]
      refine Script.renamed_entered rfl ?_
      refine ihl _ _ _ _ _ _ hscope fun left => ?_
      refine ihr _ _ _ _ _ _ hscope fun right => ?_
      exact Script.renamed_operands hrest
  | ite hc ht he ihc iht ihe =>
      intro limit scope scope' k rest rest' hscope hrest
      rw [Expr.script, Expr.script, hc.size_eq, ht.size_eq]
      refine Script.renamed_entered rfl ?_
      refine ihc _ _ _ _ _ _ hscope fun cond => .unify ?_
      refine iht _ _ _ _ _ _ hscope fun yes => ?_
      refine ihe _ _ _ _ _ _ hscope fun no => ?_
      exact .unify (hrest _)
  | lambda hb ih =>
      intro limit scope scope' k rest rest' hscope hrest
      rw [Expr.script, Expr.script]
      refine Script.renamed_entered rfl ?_
      refine .fresh fun v => .note (.scope _ _ _) ?_
      refine ih _ _ _ _ _ _ (hscope.extend _ _ _) fun body => ?_
      exact hrest _
  | app hf ha ihf iha =>
      intro limit scope scope' k rest rest' hscope hrest
      rw [Expr.script, Expr.script, hf.size_eq]
      refine Script.renamed_entered rfl ?_
      refine ihf _ _ _ _ _ _ hscope fun func => ?_
      refine iha _ _ _ _ _ _ hscope fun arg => .fresh fun v => ?_
      exact .unify (hrest _)
  | letIn hv hb ihv ihb =>
      intro limit scope scope' k rest rest' hscope hrest
      rw [Expr.script, Expr.script, hv.size_eq]
      refine Script.renamed_entered rfl ?_
      refine ihv _ _ _ _ _ _ hscope fun value => .note (.scope _ _ _) ?_
      exact ihb _ _ _ _ _ _ (hscope.extend _ _ _) hrest

-- =============================================================== runs

/-- The events tell of the same thing at the same node, and in the same
words if it is a link or a demand. -/
structure Event.Agrees (x y : Event) : Prop where
  category : y.category = x.category
  node : y.node = x.node
  snapshot : y.snapshot = x.snapshot
  message : x.category = .success ∨ x.category = .info →
    y.message = x.message

/-- The tracers have the same store and notices, and events that agree
one by one. -/
structure Tracer.Agrees (t u : Tracer) : Prop where
  store : u.store = t.store
  events : List.Forall₂ Event.Agrees t.events.toList u.events.toList
  notices : u.notices = t.notices

theorem Event.Agrees.refl (x : Event) : x.Agrees x :=
  ⟨rfl, rfl, rfl, fun _ => rfl⟩

namespace Tracer

variable {t u : Tracer} {node : Option String}

theorem Agrees.refl (t : Tracer) : t.Agrees t :=
  ⟨rfl, List.forall₂_same.2 fun x _ => .refl x, rfl⟩

theorem Agrees.note {n n' : Note Ty} (h : t.Agrees u)
    (hn : n.Renamed n') : (t.note n node).Agrees (u.note n' node) := by
  refine ⟨h.store, ?_, h.notices⟩
  unfold Tracer.note Tracer.record
  rw [Array.toList_push, Array.toList_push, h.store]
  refine List.rel_append h.events (.cons ?_ .nil)
  cases hn with
  | enter | scope => exact ⟨rfl, rfl, rfl, by simp [Note.category]⟩
  | demand text => exact .refl _

theorem Agrees.absorb (h : t.Agrees u) (s : Solver) :
    (t.absorb s node).Agrees (u.absorb s node) := by
  refine ⟨rfl, ?_, ?_⟩
  · unfold Tracer.absorb
    rw [Array.toList_append, Array.toList_append]
    exact List.rel_append h.events (List.forall₂_same.2 fun x _ => .refl x)
  · unfold Tracer.absorb
    rw [h.notices]

theorem Agrees.sameEnd_unify {a b : Ty} {reason : String}
    (h : t.Agrees u) :
    SameEnd Tracer.Agrees (Traced.unify a b reason node t)
      (Traced.unify a b reason node u) := by
  unfold Traced.unify Traced.solve
  rw [h.store]
  cases InferTrace.unify a b reason { store := t.store } with
  | ok _ s => exact .ok (h.absorb s)
  | error clash s => exact .error (h.absorb s)

end Tracer

theorem Script.Renamed.sameEnd_run {script script' : Script}
    (h : Script.Renamed script script') :
    ∀ {t u : Tracer}, t.Agrees u →
      SameEnd Tracer.Agrees (script.run t) (script'.run u) := by
  induction h with
  | give a => exact fun h => .ok h
  | halt halt => exact fun h => .error h
  | note hn _ ih => exact fun h => ih (h.note hn)
  | @fresh rest rest' _ ih =>
      intro t u h
      show SameEnd Tracer.Agrees
        ((rest t.store.size).run { t with store := t.store.fresh.2 })
        ((rest' u.store.size).run { u with store := u.store.fresh.2 })
      rw [h.store]
      exact ih _ ⟨rfl, h.events, h.notices⟩
  | unify _ ih => exact fun h => h.sameEnd_unify.bind fun _ _ _ _ h₁ => ih h₁

/-- The choice of bound names is not seen. Of two expressions that
differ in nothing else, from the same tracer and in the same scope, both
have the same type or halt in the same way; the links are the same, and
events differ in the texts of announcements and scopes at most. -/
theorem analyze_alpha {e e' : Expr} (h : Expr.Alpha [] e e') (limit : Nat)
    (scope : Scope) (k : Nat) (t : Tracer) :
    SameEnd Tracer.Agrees (analyze limit scope k e t)
      (analyze limit scope k e' t) := by
  refine Script.Renamed.sameEnd_run ?_ (.refl t)
  exact renamed_script h limit scope scope k _ _ scope.match_self fun a =>
    .give a

/-- `fun x -> let x = x :: y in x`, and the same with two names for the
two `x`. -/
theorem analyze_alpha_shadowed :
    Expr.Alpha []
        (.lambda "x" (.letIn "x" (.cons (.var "x") (.var "y")) (.var "x")))
        (.lambda "a" (.letIn "b" (.cons (.var "a") (.var "y")) (.var "b"))) ∧
      SameEnd Tracer.Agrees
        (analyze 9 [("y", .listOf (.var 0))] 0
          (.lambda "x" (.letIn "x" (.cons (.var "x") (.var "y")) (.var "x")))
          { store := { links := #[none] } })
        (analyze 9 [("y", .listOf (.var 0))] 0
          (.lambda "a" (.letIn "b" (.cons (.var "a") (.var "y")) (.var "b")))
          { store := { links := #[none] } }) := by
  have halpha : Expr.Alpha []
      (.lambda "x" (.letIn "x" (.cons (.var "x") (.var "y")) (.var "x")))
      (.lambda "a" (.letIn "b" (.cons (.var "a") (.var "y")) (.var "b"))) := by
    refine .lambda (.letIn (.cons (.var ?_) (.var ?_)) (.var ?_))
    · decide
    · decide
    · decide
  exact ⟨halpha, analyze_alpha halpha _ _ _ _⟩

end InferTrace
