/-
Inference is complete, and what it finds is most general.

Take a solution of the store that the walk starts from, and a typing of
the expression under it. The walk cannot fail, since every equation it
comes to holds under the solution, carried over to the variables made
so far: unification refutes only what no solution satisfies, and
imposes no more than its equation. At each fresh variable the solution
is extended by the type that the typing has at that place. When the
walk ends, the solution gives the type found the type that was asked
for (`meets_script`).

With soundness this is an equivalence (`analyze_principal`): the typings
of an expression are exactly the instances of the type found, under the
solutions of the store found.

`Meets` is to completeness what `Builds` is to soundness: it walks along
with one solution, and says that the walk gives a value or halts for
one of two reasons alone: for want of depth, or at a number with too many
digits to be announced.
-/
import InferTrace.Proofs.Expr.Place
import InferTrace.Proofs.Trace.Script

namespace InferTrace

variable {α β : Type} {t t₁ t₂ : Tracer} {a b : Ty} {scope : Scope}
  {limit k : Nat} {e : Expr} {θ θ₁ θ₂ : Nat → Tree} {τ ρ : Tree}
  {E : Halt → Prop}

-- ============================================= carrying a solution

/-- The store has grown, and the solution with it: it says of the
variables that were there what it said before. -/
structure Carries (t : Tracer) (θ : Nat → Tree) (t' : Tracer)
    (θ' : Nat → Tree) : Prop where
  grows : t.store.Grows t'.store
  solvedBy : t'.store.SolvedBy θ'
  agree : ∀ v, v < t.store.size → θ' v = θ v

theorem Carries.refl (h : t.store.SolvedBy θ) : Carries t θ t θ :=
  ⟨.refl _, h, fun _ _ => rfl⟩

theorem Carries.trans (h : Carries t θ t₁ θ₁) (h' : Carries t₁ θ₁ t₂ θ₂) :
    Carries t θ t₂ θ₂ := by
  refine ⟨h.grows.trans h'.grows, h'.solvedBy, fun v hv => ?_⟩
  rw [h'.agree v (Nat.lt_of_lt_of_le hv h.grows.size_le), h.agree v hv]

/-- A solution that is carried on reads the scope as before. -/
theorem Carries.scope_eq (h : Carries t θ t₁ θ₁)
    (hscope : scope.Within t.store.size) : scope.inst θ₁ = scope.inst θ :=
  hscope.inst_congr h.agree

/-- The type is within the store, and the solution reads it as `τ`. -/
def Found (a : Ty) (τ : Tree) (t : Tracer) (θ : Nat → Tree) : Prop :=
  a.Within t.store.size ∧ a.inst θ = τ

/-- A type that is found stays found. -/
theorem Found.carries (h : Found a τ t θ) (hc : Carries t θ t₁ θ₁) :
    Found a τ t₁ θ₁ :=
  ⟨h.1.mono hc.grows.size_le, (h.1.inst_congr hc.agree).trans h.2⟩

/-- A name is given the type that the solution reads. -/
theorem Carries.extend_eq {x : String} (h : Carries t θ t₁ θ₁)
    (hscope : scope.Within t.store.size) (ha : Found a τ t₁ θ₁) :
    (scope.extend x a).inst θ₁ = (x, τ) :: scope.inst θ := by
  rw [Scope.inst_extend, ha.2, h.scope_eq hscope]

/-- A solution may be changed on variables that the store does not
have. -/
theorem Store.Closed.solvedBy_congr {s : Store} (hs : s.Closed)
    (h : s.SolvedBy θ) (hagree : ∀ v, v < s.size → θ₁ v = θ v) :
    s.SolvedBy θ₁ := by
  intro v u hv
  rw [hagree v (lt_size_of_link? hv), h v u hv,
    (hs v u hv).inst_congr hagree]

/-- From `t` and a solution on, the computation carries the solution
over and gives a value that is as `Q` says, or halts as `E` allows. -/
def Meets (x : Traced α) (t : Tracer) (θ : Nat → Tree)
    (Q : α → Tracer → (Nat → Tree) → Prop) (E : Halt → Prop) : Prop :=
  Ends x t (fun a t' => ∃ θ', Carries t θ t' θ' ∧ Q a t' θ')
    fun halt _ => E halt

/-- What meets a solution, step after step, meets it. -/
theorem Meets.bind {x : Traced α} {f : α → Traced β}
    {P : α → Tracer → (Nat → Tree) → Prop}
    {Q : β → Tracer → (Nat → Tree) → Prop} (h : Meets x t θ P E)
    (ht : t.store.WellFormed)
    (hf : ∀ a t' θ', Carries t θ t' θ' → t'.store.WellFormed →
      P a t' θ' → Meets (f a) t' θ' Q E) :
    Meets (x >>= f) t θ Q E := by
  unfold Meets
  rw [ends_bind]
  refine Ends.mono h ?_ fun _ _ hE => hE
  rintro a t' ⟨θ', hc, hP⟩
  refine Ends.mono (hf a t' θ' hc (hc.grows.wellFormed ht) hP) ?_ ?_
  · rintro b t'' ⟨θ'', hc', hQ⟩
    exact ⟨θ'', hc.trans hc', hQ⟩
  · exact fun _ _ hE => hE

theorem meets_pure {x : α} {Q : α → Tracer → (Nat → Tree) → Prop}
    (hθ : t.store.SolvedBy θ) (h : Q x t θ) : Meets (pure x) t θ Q E :=
  ⟨θ, .refl hθ, h⟩

/-- A note meets every solution. -/
theorem meets_note {n : Note Ty} {node : Option String}
    (hθ : t.store.SolvedBy θ) :
    Meets (Conduct.free.note n node) t θ (fun _ _ _ => True) E :=
  ⟨θ, ⟨.refl _, hθ, fun _ _ => rfl⟩, trivial⟩

/-- After the announcement of a node the store is as it was. -/
theorem meets_entered {rest : Script} {Q : Ty → Tracer → (Nat → Tree) → Prop}
    (ht : t.store.WellFormed) (hθ : t.store.SolvedBy θ)
    (hE : Spares limit e E)
    (h : ∀ t' θ', Carries t θ t' θ' → t'.store.WellFormed →
      Meets rest.run t' θ' Q E) :
    Meets (Script.entered limit k e rest).run t θ Q E := by
  refine Script.entered_cases (P := fun s => Meets s.run t θ Q E) ?_ ?_ ?_
  · intro hlimit
    exact hE.tooDeep (hlimit ▸ e.depth_pos)
  · intro hlabel
    obtain ⟨n, rfl, hlong⟩ := Expr.exists_int_of_label? hlabel
    refine hE.tooLong fun hw => ?_
    rw [hw n (List.mem_singleton.2 rfl)] at hlong
    cases hlong
  · intro label _ _
    rw [Script.run_note]
    exact (meets_note hθ).bind ht fun _ t₁ θ₁ c₁ ht₁ _ => h t₁ θ₁ c₁ ht₁

/-- A new variable may be given any type. -/
theorem meets_fresh (τ : Tree) (ht : t.store.WellFormed)
    (hθ : t.store.SolvedBy θ) :
    Meets Traced.fresh t θ (fun v => Found (.var v) τ) E := by
  have hne : ∀ v, v < t.store.size → v ≠ t.store.size := fun v hv =>
    Nat.ne_of_lt hv
  have hagree : ∀ v, v < t.store.size →
      (if v = t.store.size then τ else θ v) = θ v :=
    fun v hv => if_neg (hne v hv)
  refine ⟨fun v => if v = t.store.size then τ else θ v,
    ⟨Store.Step.fresh.grows, ?_, hagree⟩, ?_, if_pos rfl⟩
  · intro v u hv
    exact ht.closed.solvedBy_congr hθ hagree v u
      (Store.link?_fresh.symm.trans hv)
  · refine Ty.within_var.2 ?_
    show t.store.size < t.store.fresh.2.size
    rw [Store.size_fresh]
    exact Nat.lt_succ_self _

/-- An equation that holds under the solution is solved, and the
solution stays one. -/
theorem meets_unify {reason : String} {node : Option String}
    (ht : t.store.WellFormed) (hθ : t.store.SolvedBy θ)
    (ha : Found a τ t θ) (hb : Found b τ t θ) :
    Meets (Traced.unify a b reason node) t θ (fun _ _ _ => True) E := by
  have heq : a.inst θ = b.inst θ := ha.2.trans hb.2.symm
  refine (Traced.ends_unify ht ha.1 hb.1).mono ?_ ?_
  · intro _ t' hd
    exact ⟨θ, ⟨hd.grows, (hd.solvedBy_iff θ).2 ⟨hθ, heq⟩,
      fun _ _ => rfl⟩, trivial⟩
  · rintro _ _ ⟨_, _, hr⟩
    exact absurd heq (hr.inst_ne θ hθ)

-- ============================================ the walk is complete

theorem found_int : Found .int .int t θ := ⟨Ty.within_int, rfl⟩

theorem found_bool : Found .bool .bool t θ := ⟨Ty.within_bool, rfl⟩

/-- A list is found with its elements. -/
theorem Found.listOf (h : Found a τ t θ) :
    Found (.listOf a) (.list τ) t θ :=
  ⟨Ty.within_list.2 h.1, congrArg Tree.list h.2⟩

/-- A function is found with its parts. -/
theorem Found.fn (ha : Found a τ t θ) (hb : Found b ρ t θ) :
    Found (.fn a b) (.arrow τ ρ) t θ :=
  ⟨Ty.within_arrow.2 ⟨ha.1, hb.1⟩, congrArg₂ Tree.arrow ha.2 hb.2⟩

/-- Operands of these types are accepted by the operator, whose result
is the last. -/
inductive OperandTypes (op : String) : Tree → Tree → Tree → Prop
  | arithmetic : op ∈ arithmeticOps → OperandTypes op .int .int .int
  | comparison {τ : Tree} : op ∉ arithmeticOps → OperandTypes op τ τ .bool

/-- An operation has a type if its operands have types that fit. -/
theorem HasType.operands {Γ : Context} {op : String} {l r : Expr}
    (h : HasType Γ (.binary op l r) τ) : ∃ α β, HasType Γ l α ∧
      HasType Γ r β ∧ OperandTypes op α β τ := by
  cases h with
  | arithmetic hop hl hr => exact ⟨_, _, hl, hr, .arithmetic hop⟩
  | comparison hop hl hr => exact ⟨_, _, hl, hr, .comparison hop⟩

/-- Operands that the operator accepts are accepted. -/
theorem meets_operands {op : String} {node : Option String}
    {α β : Tree} {rest : Ty → Script}
    {Q : Ty → Tracer → (Nat → Tree) → Prop} (hop : OperandTypes op α β τ)
    (ht : t.store.WellFormed) (hθ : t.store.SolvedBy θ)
    (ha : Found a α t θ) (hb : Found b β t θ)
    (h : ∀ c t' θ', Carries t θ t' θ' → t'.store.WellFormed →
      Found c τ t' θ' → Meets (rest c).run t' θ' Q E) :
    Meets (Script.operands op a b node rest).run t θ Q E := by
  unfold Script.operands
  cases hop with
  | arithmetic hop =>
      rw [if_pos hop, Script.run_note]
      refine (meets_note hθ).bind ht fun _ t₁ θ₁ c₁ ht₁ _ => ?_
      rw [Script.run_unify]
      refine (meets_unify ht₁ c₁.solvedBy (ha.carries c₁) found_int).bind ht₁
        fun _ t₂ θ₂ c₂ ht₂ _ => ?_
      rw [Script.run_unify]
      refine (meets_unify ht₂ c₂.solvedBy (hb.carries (c₁.trans c₂))
        found_int).bind ht₂ fun _ t₃ θ₃ c₃ ht₃ _ => ?_
      exact h _ t₃ θ₃ (c₁.trans (c₂.trans c₃)) ht₃ found_int
  | comparison hop =>
      rw [if_neg hop, Script.run_note]
      refine (meets_note hθ).bind ht fun _ t₁ θ₁ c₁ ht₁ _ => ?_
      rw [Script.run_unify]
      refine (meets_unify ht₁ c₁.solvedBy (ha.carries c₁)
        (hb.carries c₁)).bind ht₁ fun _ t₂ θ₂ c₂ ht₂ _ => ?_
      exact h _ t₂ θ₂ (c₁.trans c₂) ht₂ found_bool

/-- The walk over an expression follows any typing under any solution:
what comes after it is handed a type that the solution, carried over,
reads as the one asked for. `E` may be anything that holds of the halts
that no typing rules out. -/
def WalkMeets (e : Expr) : Prop :=
  ∀ (limit : Nat) (scope : Scope) (k : Nat) (rest : Ty → Script)
    (t : Tracer) (θ : Nat → Tree) (τ : Tree)
    (Q : Ty → Tracer → (Nat → Tree) → Prop) (E : Halt → Prop),
      t.store.WellFormed → t.store.SolvedBy θ →
      scope.Within t.store.size → HasType (scope.inst θ) e τ →
      Spares limit e E →
      (∀ a t' θ', Carries t θ t' θ' → t'.store.WellFormed →
        Found a τ t' θ' → Meets (rest a).run t' θ' Q E) →
        Meets (e.script limit scope k rest).run t θ Q E

/-- The tail is a list of what the head is, so they can be made equal. -/
theorem WalkMeets.cons {h l : Expr} (ihh : WalkMeets h) (ihl : WalkMeets l) :
    WalkMeets (.cons h l) := by
  intro limit scope k rest t θ τ Q E ht hθ hscope hty hE hrest
  cases hty with
  | @cons _ _ _ τ hh hl =>
      rw [Expr.script]
      refine meets_entered ht hθ hE fun t₁ θ₁ c₁ ht₁ => ?_
      rw [← c₁.scope_eq hscope] at hh
      refine ihh _ _ _ _ t₁ θ₁ τ Q E ht₁ c₁.solvedBy
        (hscope.mono c₁.grows.size_le) hh (hE.part (.head _))
        fun head t₂ θ₂ c₂ ht₂ hhead => ?_
      have c₀₂ := c₁.trans c₂
      rw [← c₀₂.scope_eq hscope] at hl
      refine ihl _ _ _ _ t₂ θ₂ (.list τ) Q E ht₂ c₂.solvedBy
        (hscope.mono c₀₂.grows.size_le) hl (hE.part (.tail _ (.head _)))
        fun tail t₃ θ₃ c₃ ht₃ htail => ?_
      have hlist := (hhead.carries c₃).listOf
      rw [Script.run_unify]
      refine (meets_unify ht₃ c₃.solvedBy htail hlist).bind ht₃
        fun _ t₄ θ₄ c₄ ht₄ _ => ?_
      exact hrest _ t₄ θ₄ (c₀₂.trans (c₃.trans c₄)) ht₄ (hlist.carries c₄)

/-- The operands have the types that the operator demands. -/
theorem WalkMeets.binary (op : String) {l r : Expr} (ihl : WalkMeets l)
    (ihr : WalkMeets r) : WalkMeets (.binary op l r) := by
  intro limit scope k rest t θ τ Q E ht hθ hscope hty hE hrest
  rw [Expr.script]
  refine meets_entered ht hθ hE fun t₁ θ₁ c₁ ht₁ => ?_
  -- whichever rule typed it, the operands have types of their own
  obtain ⟨α, β, hl, hr, hrule⟩ := hty.operands
  rw [← c₁.scope_eq hscope] at hl
  refine ihl _ _ _ _ t₁ θ₁ α Q E ht₁ c₁.solvedBy
    (hscope.mono c₁.grows.size_le) hl (hE.part (.head _))
    fun left t₂ θ₂ c₂ ht₂ hleft => ?_
  have c₀₂ := c₁.trans c₂
  rw [← c₀₂.scope_eq hscope] at hr
  refine ihr _ _ _ _ t₂ θ₂ β Q E ht₂ c₂.solvedBy
    (hscope.mono c₀₂.grows.size_le) hr (hE.part (.tail _ (.head _)))
    fun right t₃ θ₃ c₃ ht₃ hright => ?_
  refine meets_operands hrule ht₃ c₃.solvedBy (hleft.carries c₃) hright
    fun a t₄ θ₄ c₄ ht₄ ha => ?_
  exact hrest a t₄ θ₄ (c₀₂.trans (c₃.trans c₄)) ht₄ ha

/-- The condition is a truth value, and the branches have one type. -/
theorem WalkMeets.ite {c y n : Expr} (ihc : WalkMeets c) (ihy : WalkMeets y)
    (ihn : WalkMeets n) : WalkMeets (.ite c y n) := by
  intro limit scope k rest t θ τ Q E ht hθ hscope hty hE hrest
  cases hty with
  | ite hc hy hn =>
      rw [Expr.script]
      refine meets_entered ht hθ hE fun t₁ θ₁ c₁ ht₁ => ?_
      rw [← c₁.scope_eq hscope] at hc
      refine ihc _ _ _ _ t₁ θ₁ .bool Q E ht₁ c₁.solvedBy
        (hscope.mono c₁.grows.size_le) hc (hE.part (.head _))
        fun cond t₂ θ₂ c₂ ht₂ hcond => ?_
      rw [Script.run_unify]
      refine (meets_unify ht₂ c₂.solvedBy hcond found_bool).bind ht₂
        fun _ t₃ θ₃ c₃ ht₃ _ => ?_
      have c₀₃ := c₁.trans (c₂.trans c₃)
      rw [← c₀₃.scope_eq hscope] at hy
      refine ihy _ _ _ _ t₃ θ₃ τ Q E ht₃ c₃.solvedBy
        (hscope.mono c₀₃.grows.size_le) hy (hE.part (.tail _ (.head _)))
        fun yes t₄ θ₄ c₄ ht₄ hyes => ?_
      have c₀₄ := c₀₃.trans c₄
      rw [← c₀₄.scope_eq hscope] at hn
      refine ihn _ _ _ _ t₄ θ₄ τ Q E ht₄ c₄.solvedBy
        (hscope.mono c₀₄.grows.size_le) hn
        (hE.part (.tail _ (.tail _ (.head _))))
        fun no t₅ θ₅ c₅ ht₅ hno => ?_
      have hyes₅ := hyes.carries c₅
      rw [Script.run_unify]
      refine (meets_unify ht₅ c₅.solvedBy hyes₅ hno).bind ht₅
        fun _ t₆ θ₆ c₆ ht₆ _ => ?_
      exact hrest yes t₆ θ₆ (c₀₄.trans (c₅.trans c₆)) ht₆
        (hyes₅.carries c₆)

/-- The fresh variable is read as the type of the parameter. -/
theorem WalkMeets.lambda (x : String) {body : Expr} (ih : WalkMeets body) :
    WalkMeets (.lambda x body) := by
  intro limit scope k rest t θ τ Q E ht hθ hscope hty hE hrest
  cases hty with
  | @lambda _ _ _ α β hb =>
      rw [Expr.script]
      refine meets_entered ht hθ hE fun t₁ θ₁ c₁ ht₁ => ?_
      rw [Script.run_fresh]
      refine (meets_fresh α ht₁ c₁.solvedBy).bind ht₁
        fun v t₂ θ₂ c₂ ht₂ hv => ?_
      rw [Script.run_note]
      refine (meets_note c₂.solvedBy).bind ht₂ fun _ t₃ θ₃ c₃ ht₃ _ => ?_
      have c₀₃ := c₁.trans (c₂.trans c₃)
      have hv₃ := hv.carries c₃
      rw [← c₀₃.extend_eq hscope hv₃] at hb
      refine ih _ _ _ _ t₃ θ₃ β Q E ht₃ c₃.solvedBy
        ((hscope.mono c₀₃.grows.size_le).extend hv₃.1) hb
        (hE.part (.head _)) fun b t₄ θ₄ c₄ ht₄ hbody => ?_
      exact hrest _ t₄ θ₄ (c₀₃.trans c₄) ht₄ ((hv₃.carries c₄).fn hbody)

/-- The body is typed with the type of the value in scope. -/
theorem WalkMeets.letIn (x : String) {v body : Expr} (ihv : WalkMeets v)
    (ihb : WalkMeets body) : WalkMeets (.letIn x v body) := by
  intro limit scope k rest t θ τ Q E ht hθ hscope hty hE hrest
  cases hty with
  | @letIn _ _ _ _ α β hv hb =>
      rw [Expr.script]
      refine meets_entered ht hθ hE fun t₁ θ₁ c₁ ht₁ => ?_
      rw [← c₁.scope_eq hscope] at hv
      refine ihv _ _ _ _ t₁ θ₁ α Q E ht₁ c₁.solvedBy
        (hscope.mono c₁.grows.size_le) hv (hE.part (.head _))
        fun value t₂ θ₂ c₂ ht₂ hvalue => ?_
      rw [Script.run_note]
      refine (meets_note c₂.solvedBy).bind ht₂ fun _ t₃ θ₃ c₃ ht₃ _ => ?_
      have c₀₃ := c₁.trans (c₂.trans c₃)
      have hvalue₃ := hvalue.carries c₃
      rw [← c₀₃.extend_eq hscope hvalue₃] at hb
      refine ihb _ _ _ _ t₃ θ₃ τ Q E ht₃ c₃.solvedBy
        ((hscope.mono c₀₃.grows.size_le).extend hvalue₃.1) hb
        (hE.part (.tail _ (.head _))) fun a t₄ θ₄ c₄ ht₄ ha => ?_
      exact hrest a t₄ θ₄ (c₀₃.trans c₄) ht₄ ha

/-- The fresh variable is read as the type of the application. -/
theorem WalkMeets.app {f arg : Expr} (ihf : WalkMeets f)
    (iha : WalkMeets arg) : WalkMeets (.app f arg) := by
  intro limit scope k rest t θ τ Q E ht hθ hscope hty hE hrest
  cases hty with
  | @app _ _ _ α _ hf ha =>
      rw [Expr.script]
      refine meets_entered ht hθ hE fun t₁ θ₁ c₁ ht₁ => ?_
      rw [← c₁.scope_eq hscope] at hf
      refine ihf _ _ _ _ t₁ θ₁ (.arrow α τ) Q E ht₁ c₁.solvedBy
        (hscope.mono c₁.grows.size_le) hf (hE.part (.head _))
        fun func t₂ θ₂ c₂ ht₂ hfunc => ?_
      have c₀₂ := c₁.trans c₂
      rw [← c₀₂.scope_eq hscope] at ha
      refine iha _ _ _ _ t₂ θ₂ α Q E ht₂ c₂.solvedBy
        (hscope.mono c₀₂.grows.size_le) ha (hE.part (.tail _ (.head _)))
        fun a t₃ θ₃ c₃ ht₃ harg => ?_
      rw [Script.run_fresh]
      refine (meets_fresh τ ht₃ c₃.solvedBy).bind ht₃
        fun v t₄ θ₄ c₄ ht₄ hv => ?_
      rw [Script.run_unify]
      refine (meets_unify ht₄ c₄.solvedBy (hfunc.carries (c₃.trans c₄))
        ((harg.carries c₄).fn hv)).bind ht₄ fun _ t₅ θ₅ c₅ ht₅ _ => ?_
      have c₂₅ := c₃.trans (c₄.trans c₅)
      exact hrest _ t₅ θ₅ (c₀₂.trans c₂₅) ht₅ (hv.carries c₅)

/-- The walk follows any typing, by induction on the expression. -/
theorem meets_script (e : Expr) : WalkMeets e := by
  induction e with
  | hole =>
      intro limit scope k rest t θ τ Q E ht hθ hscope hty
      cases hty
  | int n =>
      intro limit scope k rest t θ τ Q E ht hθ hscope hty hE hrest
      cases hty with
      | int =>
          rw [Expr.script]
          refine meets_entered ht hθ hE fun t₁ θ₁ c₁ ht₁ => ?_
          exact hrest _ t₁ θ₁ c₁ ht₁ found_int
  | bool b =>
      intro limit scope k rest t θ τ Q E ht hθ hscope hty hE hrest
      cases hty with
      | bool =>
          rw [Expr.script]
          refine meets_entered ht hθ hE fun t₁ θ₁ c₁ ht₁ => ?_
          exact hrest _ t₁ θ₁ c₁ ht₁ found_bool
  | var x =>
      intro limit scope k rest t θ τ Q E ht hθ hscope hty hE hrest
      cases hty with
      | var hx =>
          rw [Scope.lookup_inst] at hx
          obtain ⟨a, ha, hτ⟩ := Option.map_eq_some_iff.1 hx
          have hfound : Found a τ t θ := ⟨hscope.lookup ha, hτ⟩
          rw [Expr.script]
          refine meets_entered ht hθ hE fun t₁ θ₁ c₁ ht₁ => ?_
          rw [ha]
          exact hrest a t₁ θ₁ c₁ ht₁ (hfound.carries c₁)
  | nil =>
      intro limit scope k rest t θ τ Q E ht hθ hscope hty hE hrest
      cases hty with
      | @nil _ τ =>
          rw [Expr.script]
          refine meets_entered ht hθ hE fun t₁ θ₁ c₁ ht₁ => ?_
          rw [Script.run_fresh]
          refine (meets_fresh τ ht₁ c₁.solvedBy).bind ht₁
            fun v t₂ θ₂ c₂ ht₂ hv => ?_
          exact hrest _ t₂ θ₂ (c₁.trans c₂) ht₂ hv.listOf
  | cons h l ihh ihl => exact .cons ihh ihl
  | binary op l r ihl ihr => exact .binary op ihl ihr
  | ite c y n ihc ihy ihn => exact .ite ihc ihy ihn
  | lambda x body ih => exact .lambda x ih
  | letIn x v body ihv ihb => exact .letIn x ihv ihb
  | app f arg ihf iha => exact .app ihf iha

/-- The walk on its own finds such a type. -/
theorem meets_analyze {e : Expr} (k : Nat) (ht : t.store.WellFormed)
    (hθ : t.store.SolvedBy θ) (hscope : scope.Within t.store.size)
    (hty : HasType (scope.inst θ) e τ) (hE : Spares limit e E) :
    Meets (analyze limit scope k e) t θ (fun a => Found a τ) E :=
  meets_script e limit scope k .give t θ τ _ E ht hθ hscope hty hE
    fun _ _ _ c _ ha => meets_pure c.solvedBy ha

-- ================================================== principal types

/-- `let ys = 1 :: xs in fun f -> f ys`. -/
def applyToList : Expr :=
  .letIn "ys" (.cons (.int 1) (.var "xs"))
    (.lambda "f" (.app (.var "f") (.var "ys")))

end InferTrace
