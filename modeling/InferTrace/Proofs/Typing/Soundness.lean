/-
Inference is sound, over whole sessions.

A type that inference gives is right only in the light of links that
are made later: the type of a `then` branch is given as it was found,
and what the branch must equal is said by the store. So the statement
carried through the walk is about all solutions: whatever solves the
store that the walk has come to, gives the expression the type that was
found (`builds_script`). Since a store only grows, a solution of a
later store is a solution of all before it, and nothing that comes
later, failing or not, takes a typing back.

`Builds` is the form in which each part of the walk is described: the
store grows, whether the part gives a value or halts, and if it gives
one, it is as it should be. A script says what comes after it, so what
is known where an expression has been walked is handed to what comes
after.
-/
import InferTrace.Proofs.Typing.Rules
import InferTrace.Proofs.Unify.Solution
import InferTrace.Session

namespace InferTrace

variable {α β : Type} {t t' : Tracer} {a b : Ty} {scope : Scope}
  {limit k : Nat} {e : Expr} {θ : Nat → Tree}

-- ============================================ steps that only build

/-- From `t` on, the computation grows the store, whatever its end, and
gives a value that is as `Q` says. -/
def Builds (x : Traced α) (t : Tracer) (Q : α → Tracer → Prop) : Prop :=
  Ends x t (fun a t' => t.store.Grows t'.store ∧ Q a t')
    fun _ t' => t.store.Grows t'.store

/-- What follows starts from a well-formed store that has grown. -/
theorem Builds.bind {x : Traced α} {f : α → Traced β}
    {P : α → Tracer → Prop} {Q : β → Tracer → Prop} (h : Builds x t P)
    (ht : t.store.WellFormed)
    (hf : ∀ a t', t.store.Grows t'.store → t'.store.WellFormed → P a t' →
      Builds (f a) t' Q) :
    Builds (x >>= f) t Q := by
  unfold Builds
  rw [ends_bind]
  refine Ends.mono h ?_ fun _ _ hg => hg
  rintro a t' ⟨hg, hP⟩
  refine Ends.mono (hf a t' hg (hg.wellFormed ht) hP) ?_ ?_
  · exact fun _ _ hQ => ⟨hg.trans hQ.1, hQ.2⟩
  · exact fun _ _ hg' => hg.trans hg'

theorem builds_pure {x : α} {Q : α → Tracer → Prop} (h : Q x t) :
    Builds (pure x) t Q :=
  ⟨.refl _, h⟩

theorem builds_throw {halt : Halt} {Q : α → Tracer → Prop} :
    Builds (throw halt) t Q :=
  Store.Grows.refl _

theorem builds_note {n : Note Ty} {node : Option String} :
    Builds (Conduct.free.note n node) t fun _ _ => True :=
  ⟨.refl _, trivial⟩

/-- After the announcement of a node the store is as it was. -/
theorem builds_entered {rest : Script} {Q : Ty → Tracer → Prop}
    (ht : t.store.WellFormed)
    (h : ∀ t', t.store.Grows t'.store → t'.store.WellFormed →
      Builds rest.run t' Q) :
    Builds (Script.entered limit k e rest).run t Q := by
  refine Script.entered_cases (P := fun s => Builds s.run t Q) ?_ ?_ ?_
  · exact fun _ => builds_throw
  · exact fun _ => builds_throw
  · intro label _ _
    rw [Script.run_note]
    exact builds_note.bind ht fun _ t₁ g₁ ht₁ _ => h t₁ g₁ ht₁

/-- A fresh variable is one of the store. -/
theorem builds_fresh :
    Builds Traced.fresh t fun v t' => v < t'.store.size := by
  refine ⟨Store.Step.fresh.grows, ?_⟩
  show t.store.size < t.store.fresh.2.size
  rw [Store.size_fresh]
  exact Nat.lt_succ_self _

/-- Where solving ends, each solution of the store makes both sides
equal. -/
theorem builds_unify {reason : String} {node : Option String}
    (ht : t.store.WellFormed) (ha : a.Within t.store.size)
    (hb : b.Within t.store.size) :
    Builds (Traced.unify a b reason node) t fun _ t' =>
      ∀ θ, t'.store.SolvedBy θ → a.inst θ = b.inst θ := by
  refine (Traced.ends_unify ht ha hb).mono ?_ ?_
  · exact fun _ _ hd => ⟨hd.grows, fun θ hθ => ((hd.solvedBy_iff θ).1 hθ).2⟩
  · rintro _ _ ⟨_, _, hr⟩
    exact hr.grows

/-- A type that is pruned is the same under each solution of the store.
-/
theorem builds_prune (ht : t.store.WellFormed) (ha : a.Within t.store.size) :
    Builds (Traced.prune a) t fun r t' => r.Within t'.store.size ∧
      ∀ θ, t'.store.SolvedBy θ → r.inst θ = a.inst θ := by
  have hs := ht.acyclic
  have hsh := hs.shortens_prune a
  refine ⟨(Store.Step.shorten hsh).grows, ?_, fun θ hθ => ?_⟩
  · show (t.store.prune a).1.Within (t.store.prune a).2.size
    rw [hs.prune_fst, hsh.size]
    exact ht.within_resolve ha
  · show (t.store.prune a).1.inst θ = a.inst θ
    rw [hs.prune_fst]
    exact ((hsh.solvedBy_iff hs).1 hθ).inst_resolve hs a

-- ================================================ the walk is sound

/-- What the walk says of a type it has found: it is within the store,
and every solution of the store gives it to the expression. -/
def Typed (scope : Scope) (e : Expr) (a : Ty) (t : Tracer) : Prop :=
  a.Within t.store.size ∧
    ∀ θ, t.store.SolvedBy θ → HasType (scope.inst θ) e (a.inst θ)

/-- A typing outlives the growth of the store. -/
theorem Typed.grows (h : Typed scope e a t) (ht : t.store.WellFormed)
    (hg : t.store.Grows t'.store) : Typed scope e a t' :=
  ⟨h.1.mono hg.size_le, fun θ hθ => h.2 θ (hg.solvedBy ht hθ)⟩

/-- The operands are constrained as the rules say. -/
theorem builds_operands {op : String} {l r : Expr} {node : Option String}
    {rest : Ty → Script} {Q : Ty → Tracer → Prop} (ht : t.store.WellFormed)
    (hl : Typed scope l a t) (hr : Typed scope r b t)
    (h : ∀ c t', t.store.Grows t'.store → t'.store.WellFormed →
      Typed scope (.binary op l r) c t' → Builds (rest c).run t' Q) :
    Builds (Script.operands op a b node rest).run t Q := by
  unfold Script.operands
  by_cases hop : op ∈ arithmeticOps
  · rw [if_pos hop, Script.run_note]
    refine builds_note.bind ht fun _ t₁ g₁ ht₁ _ => ?_
    rw [Script.run_unify]
    refine (builds_unify ht₁ (hl.grows ht g₁).1 Ty.within_int).bind ht₁
      fun _ t₂ g₂ ht₂ hleft => ?_
    rw [Script.run_unify]
    refine (builds_unify ht₂ (hr.grows ht (g₁.trans g₂)).1
      Ty.within_int).bind ht₂ fun _ t₃ g₃ ht₃ hright => ?_
    have g₀₃ := g₁.trans (g₂.trans g₃)
    refine h _ t₃ g₀₃ ht₃ ⟨Ty.within_int, fun θ hθ => ?_⟩
    have hl' := (hl.grows ht g₀₃).2 θ hθ
    have hr' := (hr.grows ht g₀₃).2 θ hθ
    rw [hleft θ (g₃.solvedBy ht₂ hθ)] at hl'
    rw [hright θ hθ] at hr'
    exact .arithmetic hop hl' hr'
  · rw [if_neg hop, Script.run_note]
    refine builds_note.bind ht fun _ t₁ g₁ ht₁ _ => ?_
    rw [Script.run_unify]
    refine (builds_unify ht₁ (hl.grows ht g₁).1 (hr.grows ht g₁).1).bind
      ht₁ fun _ t₂ g₂ ht₂ heq => ?_
    have g₀₂ := g₁.trans g₂
    refine h _ t₂ g₀₂ ht₂ ⟨Ty.within_bool, fun θ hθ => ?_⟩
    have hl' := (hl.grows ht g₀₂).2 θ hθ
    rw [heq θ hθ] at hl'
    exact .comparison hop hl' ((hr.grows ht g₀₂).2 θ hθ)

/-- The walk over an expression builds, whatever comes after it: that is
handed a type that every solution of the store gives to the expression.
-/
def WalkBuilds (e : Expr) : Prop :=
  ∀ (limit : Nat) (scope : Scope) (k : Nat) (rest : Ty → Script)
    (t : Tracer) (Q : Ty → Tracer → Prop),
      t.store.WellFormed → scope.Within t.store.size →
      (∀ a t', t.store.Grows t'.store → t'.store.WellFormed →
        Typed scope e a t' → Builds (rest a).run t' Q) →
        Builds (e.script limit scope k rest).run t Q

/-- The tail is made equal to the list of the head. -/
theorem WalkBuilds.cons {h l : Expr} (ihh : WalkBuilds h)
    (ihl : WalkBuilds l) : WalkBuilds (.cons h l) := by
  intro limit scope k rest t Q ht hscope hrest
  rw [Expr.script]
  refine builds_entered ht fun t₁ g₁ ht₁ => ?_
  refine ihh _ _ _ _ t₁ Q ht₁ (hscope.mono g₁.size_le)
    fun head t₂ g₂ ht₂ hhead => ?_
  have g₀₂ := g₁.trans g₂
  refine ihl _ _ _ _ t₂ Q ht₂ (hscope.mono g₀₂.size_le)
    fun tail t₃ g₃ ht₃ htail => ?_
  have hlist : (Ty.listOf head).Within t₃.store.size :=
    (hhead.grows ht₂ g₃).1
  rw [Script.run_unify]
  refine (builds_unify ht₃ htail.1 hlist).bind ht₃
    fun _ t₄ g₄ ht₄ heq => ?_
  have hhead₄ := hhead.grows ht₂ (g₃.trans g₄)
  refine hrest _ t₄ (g₀₂.trans (g₃.trans g₄)) ht₄ ⟨hhead₄.1, ?_⟩
  refine fun θ hθ => .cons (hhead₄.2 θ hθ) ?_
  have htail₄ := (htail.grows ht₃ g₄).2 θ hθ
  rw [heq θ hθ] at htail₄
  exact htail₄

/-- The operands are walked, and then constrained. -/
theorem WalkBuilds.binary (op : String) {l r : Expr} (ihl : WalkBuilds l)
    (ihr : WalkBuilds r) : WalkBuilds (.binary op l r) := by
  intro limit scope k rest t Q ht hscope hrest
  rw [Expr.script]
  refine builds_entered ht fun t₁ g₁ ht₁ => ?_
  refine ihl _ _ _ _ t₁ Q ht₁ (hscope.mono g₁.size_le)
    fun left t₂ g₂ ht₂ hleft => ?_
  have g₀₂ := g₁.trans g₂
  refine ihr _ _ _ _ t₂ Q ht₂ (hscope.mono g₀₂.size_le)
    fun right t₃ g₃ ht₃ hright => ?_
  refine builds_operands ht₃ (hleft.grows ht₂ g₃) hright
    fun a t₄ g₄ ht₄ ha => ?_
  exact hrest a t₄ (g₀₂.trans (g₃.trans g₄)) ht₄ ha

/-- The condition is made equal to a truth value before the branches are
walked, and these are made equal after. -/
theorem WalkBuilds.ite {c y n : Expr} (ihc : WalkBuilds c)
    (ihy : WalkBuilds y) (ihn : WalkBuilds n) : WalkBuilds (.ite c y n) := by
  intro limit scope k rest t Q ht hscope hrest
  rw [Expr.script]
  refine builds_entered ht fun t₁ g₁ ht₁ => ?_
  refine ihc _ _ _ _ t₁ Q ht₁ (hscope.mono g₁.size_le)
    fun cond t₂ g₂ ht₂ hcond => ?_
  rw [Script.run_unify]
  refine (builds_unify ht₂ hcond.1 Ty.within_bool).bind ht₂
    fun _ t₃ g₃ ht₃ hbool => ?_
  have g₀₃ := g₁.trans (g₂.trans g₃)
  refine ihy _ _ _ _ t₃ Q ht₃ (hscope.mono g₀₃.size_le)
    fun yes t₄ g₄ ht₄ hyes => ?_
  have g₀₄ := g₀₃.trans g₄
  refine ihn _ _ _ _ t₄ Q ht₄ (hscope.mono g₀₄.size_le)
    fun no t₅ g₅ ht₅ hno => ?_
  rw [Script.run_unify]
  refine (builds_unify ht₅ (hyes.grows ht₄ g₅).1 hno.1).bind ht₅
    fun _ t₆ g₆ ht₆ heq => ?_
  have g₃₆ := g₄.trans (g₅.trans g₆)
  have hyes₆ := hyes.grows ht₄ (g₅.trans g₆)
  refine hrest yes t₆ (g₀₃.trans g₃₆) ht₆ ⟨hyes₆.1, fun θ hθ => ?_⟩
  refine .ite ?_ (hyes₆.2 θ hθ) ?_
  · have hcond₆ := (hcond.grows ht₂ (g₃.trans g₃₆)).2 θ hθ
    rw [hbool θ (g₃₆.solvedBy ht₃ hθ)] at hcond₆
    exact hcond₆
  · have hno₆ := (hno.grows ht₅ g₆).2 θ hθ
    rw [← heq θ hθ] at hno₆
    exact hno₆

/-- The body is walked with a fresh variable in scope. -/
theorem WalkBuilds.lambda (x : String) {body : Expr} (ih : WalkBuilds body) :
    WalkBuilds (.lambda x body) := by
  intro limit scope k rest t Q ht hscope hrest
  rw [Expr.script]
  refine builds_entered ht fun t₁ g₁ ht₁ => ?_
  rw [Script.run_fresh]
  refine builds_fresh.bind ht₁ fun v t₂ g₂ ht₂ hv => ?_
  rw [Script.run_note]
  refine builds_note.bind ht₂ fun _ t₃ g₃ ht₃ _ => ?_
  have g₀₃ := g₁.trans (g₂.trans g₃)
  have hparam : (Ty.var v).Within t₃.store.size :=
    (Ty.within_var.2 hv).mono g₃.size_le
  refine ih _ _ _ _ t₃ Q ht₃ ((hscope.mono g₀₃.size_le).extend hparam)
    fun a t₄ g₄ ht₄ hbody => ?_
  refine hrest _ t₄ (g₀₃.trans g₄) ht₄
    ⟨Ty.within_arrow.2 ⟨hparam.mono g₄.size_le, hbody.1⟩, ?_⟩
  exact fun θ hθ => .lambda (hbody.2 θ hθ)

/-- The body is walked with the type of the value in scope. -/
theorem WalkBuilds.letIn (x : String) {v body : Expr} (ihv : WalkBuilds v)
    (ihb : WalkBuilds body) : WalkBuilds (.letIn x v body) := by
  intro limit scope k rest t Q ht hscope hrest
  rw [Expr.script]
  refine builds_entered ht fun t₁ g₁ ht₁ => ?_
  refine ihv _ _ _ _ t₁ Q ht₁ (hscope.mono g₁.size_le)
    fun value t₂ g₂ ht₂ hvalue => ?_
  rw [Script.run_note]
  refine builds_note.bind ht₂ fun _ t₃ g₃ ht₃ _ => ?_
  have hvalue₃ := hvalue.grows ht₂ g₃
  have g₀₃ := g₁.trans (g₂.trans g₃)
  refine ihb _ _ _ _ t₃ Q ht₃
    ((hscope.mono g₀₃.size_le).extend hvalue₃.1)
    fun a t₄ g₄ ht₄ hbody => ?_
  refine hrest a t₄ (g₀₃.trans g₄) ht₄ ⟨hbody.1, fun θ hθ => ?_⟩
  exact .letIn ((hvalue₃.grows ht₃ g₄).2 θ hθ) (hbody.2 θ hθ)

/-- The function is made equal to one from the argument to a fresh
variable. -/
theorem WalkBuilds.app {f arg : Expr} (ihf : WalkBuilds f)
    (iha : WalkBuilds arg) : WalkBuilds (.app f arg) := by
  intro limit scope k rest t Q ht hscope hrest
  rw [Expr.script]
  refine builds_entered ht fun t₁ g₁ ht₁ => ?_
  refine ihf _ _ _ _ t₁ Q ht₁ (hscope.mono g₁.size_le)
    fun func t₂ g₂ ht₂ hfunc => ?_
  have g₀₂ := g₁.trans g₂
  refine iha _ _ _ _ t₂ Q ht₂ (hscope.mono g₀₂.size_le)
    fun a t₃ g₃ ht₃ harg => ?_
  rw [Script.run_fresh]
  refine builds_fresh.bind ht₃ fun v t₄ g₄ ht₄ hv => ?_
  have hfn : (Ty.fn a (.var v)).Within t₄.store.size :=
    Ty.within_arrow.2 ⟨(harg.grows ht₃ g₄).1, Ty.within_var.2 hv⟩
  rw [Script.run_unify]
  refine (builds_unify ht₄ (hfunc.grows ht₂ (g₃.trans g₄)).1 hfn).bind ht₄
    fun _ t₅ g₅ ht₅ heq => ?_
  have g₂₅ := g₃.trans (g₄.trans g₅)
  refine hrest _ t₅ (g₀₂.trans g₂₅) ht₅
    ⟨(Ty.within_var.2 hv).mono g₅.size_le, fun θ hθ => ?_⟩
  have hfunc₅ := (hfunc.grows ht₂ g₂₅).2 θ hθ
  rw [heq θ hθ] at hfunc₅
  exact .app hfunc₅ ((harg.grows ht₃ (g₄.trans g₅)).2 θ hθ)

/-- The walk builds, by induction on the expression. -/
theorem builds_script (e : Expr) : WalkBuilds e := by
  induction e with
  | hole =>
      intro limit scope k rest t Q ht hscope hrest
      rw [Expr.script]
      exact builds_entered ht fun _ _ _ => builds_throw
  | int n =>
      intro limit scope k rest t Q ht hscope hrest
      rw [Expr.script]
      refine builds_entered ht fun t₁ g₁ ht₁ => hrest _ t₁ g₁ ht₁ ?_
      exact ⟨Ty.within_int, fun _ _ => .int⟩
  | bool b =>
      intro limit scope k rest t Q ht hscope hrest
      rw [Expr.script]
      refine builds_entered ht fun t₁ g₁ ht₁ => hrest _ t₁ g₁ ht₁ ?_
      exact ⟨Ty.within_bool, fun _ _ => .bool⟩
  | var x =>
      intro limit scope k rest t Q ht hscope hrest
      rw [Expr.script]
      refine builds_entered ht fun t₁ g₁ ht₁ => ?_
      cases hx : scope.lookup x with
      | none => exact builds_throw
      | some a =>
          refine hrest a t₁ g₁ ht₁ ⟨(hscope.lookup hx).mono g₁.size_le, ?_⟩
          intro θ _
          refine .var ?_
          rw [Scope.lookup_inst, hx]
          rfl
  | nil =>
      intro limit scope k rest t Q ht hscope hrest
      rw [Expr.script]
      refine builds_entered ht fun t₁ g₁ ht₁ => ?_
      rw [Script.run_fresh]
      refine builds_fresh.bind ht₁ fun v t₂ g₂ ht₂ hv => ?_
      refine hrest _ t₂ (g₁.trans g₂) ht₂ ?_
      exact ⟨Ty.within_var.2 hv, fun _ _ => .nil⟩
  | cons h l ihh ihl => exact .cons ihh ihl
  | binary op l r ihl ihr => exact .binary op ihl ihr
  | ite c y n ihc ihy ihn => exact .ite ihc ihy ihn
  | lambda x body ih => exact .lambda x ih
  | letIn x v body ihv ihb => exact .letIn x ihv ihb
  | app f arg ihf iha => exact .app ihf iha

/-- The walk on its own finds such a type. -/
theorem builds_analyze (e : Expr) (limit : Nat) (scope : Scope) (k : Nat)
    (t : Tracer) (ht : t.store.WellFormed)
    (hscope : scope.Within t.store.size) :
    Builds (analyze limit scope k e) t (Typed scope e) :=
  builds_script e limit scope k .give t _ ht hscope
    fun _ _ _ _ ha => builds_pure ha

-- ========================================================= sessions

/-- A request is answered by a type that every solution gives to its
expression, with the links at the root followed or not. -/
theorem builds_action {r : Request} (ht : t.store.WellFormed)
    (hscope : r.scope.Within t.store.size) :
    Builds (r.action limit) t (Typed r.scope r.expr) := by
  unfold Request.action
  by_cases hpruned : r.pruned = true
  · rw [if_pos hpruned, inferPruned, inferExpr]
    refine (builds_analyze _ _ _ _ t ht hscope).bind ht
      fun a t₁ g₁ ht₁ ha => ?_
    refine Ends.mono (builds_prune ht₁ ha.1) ?_ fun _ _ hg => hg
    rintro a' t₂ ⟨g₂, hwithin, heq⟩
    refine ⟨g₂, hwithin, fun θ hθ => ?_⟩
    rw [heq θ hθ]
    exact (ha.grows ht₁ g₂).2 θ hθ
  · rw [if_neg hpruned, inferExpr]
    exact builds_analyze _ _ _ _ t ht hscope

/-- Each request, when its turn comes, has a scope of variables that
are there. -/
def Admissible (limit : Nat) : List Request → Tracer → Prop
  | [], _ => True
  | r :: rest, t => r.scope.Within t.store.size ∧
      Admissible limit rest (r.perform limit t).2

/-- A request that is performed makes the store grow, and its answer is
a type of its expression. -/
theorem grows_perform (limit : Nat) {r : Request} (ht : t.store.WellFormed)
    (hscope : r.scope.Within t.store.size) :
    t.store.Grows (r.perform limit t).2.store ∧
      ∀ a, (r.perform limit t).1 = .ok a →
        Typed r.scope r.expr a (r.perform limit t).2 := by
  have h : Builds (r.action limit) t (Typed r.scope r.expr) :=
    builds_action ht hscope
  unfold Builds Ends at h
  unfold Request.perform
  cases hx : r.action limit t with
  | ok a t' =>
      rw [hx] at h
      refine ⟨h.1, fun a' ha' => ?_⟩
      rw [← Except.ok.inj ha']
      exact h.2
  | error halt t' =>
      rw [hx] at h
      exact ⟨h, fun _ ha' => nomatch ha'⟩

/-- So do all of them, one after the other. -/
theorem grows_performAll {requests : List Request}
    (ht : t.store.WellFormed) (hadm : Admissible limit requests t) :
    t.store.Grows (performAll limit requests t).2.store := by
  induction requests generalizing t with
  | nil => exact .refl _
  | cons r rest ih =>
      have hg := (grows_perform limit ht hadm.1).1
      exact hg.trans (ih (hg.wellFormed ht) hadm.2)

/-- Soundness over whole sessions: whatever requests came before and
after, and whichever of them failed, each type that was given is a type
of its expression by the rules, with scope and type read in the store
at the end. -/
theorem performAll_sound {requests : List Request}
    (ht : t.store.WellFormed) (hadm : Admissible limit requests t) :
    ∀ (r : Request) (a : Ty),
      (r, .ok a) ∈ requests.zip (performAll limit requests t).1 →
        HasType (r.scope.inst (performAll limit requests t).2.store.assign)
          r.expr ((performAll limit requests t).2.store.tree a) := by
  induction requests generalizing t with
  | nil => exact fun _ _ hmem => nomatch hmem
  | cons r rest ih =>
      intro r' a hmem
      obtain ⟨hg, htyped⟩ := grows_perform limit ht hadm.1
      have ht₁ := hg.wellFormed ht
      rcases List.mem_cons.1 hmem with heq | hmem
      · obtain ⟨rfl, ha⟩ := Prod.mk.inj heq
        have hrest := grows_performAll ht₁ hadm.2
        have hend := (hrest.wellFormed ht₁).acyclic.solvedBy_assign
        exact (htyped a ha.symm).2 _ (hrest.solvedBy ht₁ hend)
      · exact ih ht₁ hadm.2 r' a hmem

/-- The identity is given a type with a variable in it; then a request
fails, after it has linked that variable. -/
def halfwaySession : List Request :=
  [{ expr := .lambda "x" (.var "x"), pruned := false },
   { expr := .binary "+" (.var "y") (.bool true), scope := [("y", .var 0)] }]

/-- The first answer is read with the link that the failure left. -/
theorem performAll_sound_halfway :
    (performAll 10 halfwaySession {}).1[0]?
        = some (.ok (.fn (.var 0) (.var 0))) ∧
      (performAll 10 halfwaySession {}).2.store.tree (.fn (.var 0) (.var 0))
        = .arrow .int .int ∧
      HasType
        (Scope.inst (performAll 10 halfwaySession {}).2.store.assign [])
        (.lambda "x" (.var "x"))
        ((performAll 10 halfwaySession {}).2.store.tree
          (.fn (.var 0) (.var 0))) := by
  have hadm : Admissible 10 halfwaySession {} :=
    ⟨by decide, by decide, trivial⟩
  refine ⟨rfl, rfl, ?_⟩
  refine performAll_sound (by decide) hadm
    { expr := .lambda "x" (.var "x"), pruned := false } _ ?_
  exact .head _

end InferTrace
