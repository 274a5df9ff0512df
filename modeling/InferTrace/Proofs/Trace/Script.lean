/-
Scripts that can be run.

A statement about every run of inference is one about scripts: it has
five cases, one for each kind of step, instead of one for each kind of
expression. Here is what such a statement relies on.

`Script.Fits` is what the solver relies on: the types in a script
mention variables that have been made when their turn comes. A script
that fits can be run from a store without cycles, and after each step so
can what is left of it (`Script.Ready`).

`Script.Yields` is what can be read off a script without a store: what
it gives and what it halts with, apart from equations that cannot be
solved. The script of an expression comes to its end only if all nodes
are within the limit and can be announced (`yields_script`), and so does
its run (`ends_analyze`).
-/
import InferTrace.Proofs.Expr.Place
import InferTrace.Proofs.Typing.Soundness

namespace InferTrace

variable {limit k n : Nat} {e : Expr} {scope : Scope}

-- ================================================ what is announced

/-- A node that is announced is announced by its label. -/
theorem Expr.eq_label {label : String} (h : e.label? = some label) :
    label = e.label := by
  unfold Expr.label? at h
  split at h
  · exact (Option.some.inj h).symm
  · cases h

/-- Only a number can be too long to be announced. -/
theorem Expr.exists_int_of_label? (h : e.label? = none) :
    ∃ n, e = .int n ∧ Number.isShort n = false := by
  unfold Expr.label? at h
  split at h
  · cases h
  · next hshort =>
    cases e with
    | int n => exact ⟨n, rfl, Bool.eq_false_iff.2 hshort⟩
    | _ => exact absurd rfl hshort

/-- Every number in the expression can be announced. -/
def Expr.Writable (e : Expr) : Prop :=
  ∀ n, .int n ∈ e.walk → Number.isShort n = true

/-- A node of a part is a node of the whole. -/
theorem Expr.mem_walk_of_mem_children {c d : Expr} (hd : d ∈ e.children)
    (hc : c ∈ d.walk) : c ∈ e.walk := by
  rw [e.walk_eq]
  exact List.mem_cons_of_mem _ (List.mem_flatMap.2 ⟨d, hd, hc⟩)

/-- It is enough that the root can be announced, and every part. -/
theorem Expr.writable_of_children (h : e.isShort = true)
    (hparts : ∀ d ∈ e.children, d.Writable) : e.Writable := by
  intro n hn
  rw [e.walk_eq] at hn
  rcases List.mem_cons.1 hn with rfl | hn
  · exact h
  · obtain ⟨d, hd, hn⟩ := List.mem_flatMap.1 hn
    exact hparts d hd n hn

-- =========================================== types that are in place

namespace Script

/-- With `n` variables made, every type of the script is in place. -/
def Fits : Nat → Script → Prop
  | n, give a => a.Within n
  | _, halt _ => True
  | n, note _ _ rest => rest.Fits n
  | n, fresh rest => (rest n).Fits (n + 1)
  | n, unify a b _ _ rest => a.Within n ∧ b.Within n ∧ rest.Fits n

theorem fits_entered {rest : Script} (h : rest.Fits n) :
    (entered limit k e rest).Fits n := by
  apply entered_cases
  · simp [Fits]
  · simp [Fits]
  · exact fun _ _ _ => h

theorem fits_operands {op : String} {left right : Ty}
    {node : Option String} {rest : Ty → Script} (hl : left.Within n)
    (hr : right.Within n) (h : ∀ a, a.Within n → (rest a).Fits n) :
    (operands op left right node rest).Fits n := by
  unfold operands
  by_cases hop : op ∈ arithmeticOps
  · rw [if_pos hop]
    exact ⟨hl, Ty.within_int, hr, Ty.within_int, h _ Ty.within_int⟩
  · rw [if_neg hop]
    exact ⟨hl, hr, h _ Ty.within_bool⟩

end Script

/-- The script of an expression fits if its scope is in place and what
comes after fits, however many variables have been made by then. -/
theorem fits_script : ∀ (e : Expr) (limit : Nat) (scope : Scope) (k n : Nat)
    (rest : Ty → Script), scope.Within n →
      (∀ m a, n ≤ m → a.Within m → (rest a).Fits m) →
        (e.script limit scope k rest).Fits n := by
  intro e
  induction e with
  | hole =>
      intro limit scope k n rest hscope hrest
      rw [Expr.script]
      apply Script.fits_entered
      simp [Script.Fits]
  | int i =>
      intro limit scope k n rest hscope hrest
      rw [Expr.script]
      apply Script.fits_entered
      exact hrest n _ (Nat.le_refl n) Ty.within_int
  | bool b =>
      intro limit scope k n rest hscope hrest
      rw [Expr.script]
      apply Script.fits_entered
      exact hrest n _ (Nat.le_refl n) Ty.within_bool
  | var x =>
      intro limit scope k n rest hscope hrest
      rw [Expr.script]
      apply Script.fits_entered
      cases hx : scope.lookup x with
      | none => simp [Script.Fits]
      | some a => exact hrest n a (Nat.le_refl n) (hscope.lookup hx)
  | nil =>
      intro limit scope k n rest hscope hrest
      rw [Expr.script]
      apply Script.fits_entered
      exact hrest (n + 1) _ (Nat.le_succ n)
        (Ty.within_var.2 (Nat.lt_succ_self n))
  | cons h l ihh ihl =>
      intro limit scope k n rest hscope hrest
      rw [Expr.script]
      apply Script.fits_entered
      refine ihh _ _ _ n _ hscope fun m head hm hhead => ?_
      refine ihl _ _ _ m _ (hscope.mono hm) fun m' tail hm' htail => ?_
      have hlist : (Ty.listOf head).Within m' := hhead.mono hm'
      exact ⟨htail, hlist, hrest m' _ (Nat.le_trans hm hm') hlist⟩
  | binary op l r ihl ihr =>
      intro limit scope k n rest hscope hrest
      rw [Expr.script]
      apply Script.fits_entered
      refine ihl _ _ _ n _ hscope fun m left hm hleft => ?_
      refine ihr _ _ _ m _ (hscope.mono hm) fun m' right hm' hright => ?_
      exact Script.fits_operands (hleft.mono hm') hright fun a ha =>
        hrest m' a (Nat.le_trans hm hm') ha
  | ite c y e ihc ihy ihe =>
      intro limit scope k n rest hscope hrest
      rw [Expr.script]
      apply Script.fits_entered
      refine ihc _ _ _ n _ hscope fun m₁ cond h₁ hcond => ?_
      refine ⟨hcond, Ty.within_bool, ?_⟩
      refine ihy _ _ _ m₁ _ (hscope.mono h₁) fun m₂ yes h₂ hyes => ?_
      have h₀₂ := Nat.le_trans h₁ h₂
      refine ihe _ _ _ m₂ _ (hscope.mono h₀₂) fun m₃ no h₃ hno => ?_
      exact ⟨hyes.mono h₃, hno,
        hrest m₃ yes (Nat.le_trans h₀₂ h₃) (hyes.mono h₃)⟩
  | lambda x body ih =>
      intro limit scope k n rest hscope hrest
      rw [Expr.script]
      apply Script.fits_entered
      have hparam : (Ty.var n).Within (n + 1) :=
        Ty.within_var.2 (Nat.lt_succ_self n)
      refine ih _ _ _ (n + 1) _
        ((hscope.mono (Nat.le_succ n)).extend hparam) fun m a hm ha => ?_
      exact hrest m _ (Nat.le_of_succ_le hm)
        (Ty.within_arrow.2 ⟨hparam.mono hm, ha⟩)
  | letIn x v body ihv ihb =>
      intro limit scope k n rest hscope hrest
      rw [Expr.script]
      apply Script.fits_entered
      refine ihv _ _ _ n _ hscope fun m value hm hvalue => ?_
      refine ihb _ _ _ m _ ((hscope.mono hm).extend hvalue) ?_
      exact fun m' a hm' ha => hrest m' a (Nat.le_trans hm hm') ha
  | app f arg ihf iha =>
      intro limit scope k n rest hscope hrest
      rw [Expr.script]
      apply Script.fits_entered
      refine ihf _ _ _ n _ hscope fun m func hm hfunc => ?_
      refine iha _ _ _ m _ (hscope.mono hm) fun m' a hm' ha => ?_
      have hresult : (Ty.var m').Within (m' + 1) :=
        Ty.within_var.2 (Nat.lt_succ_self m')
      have hm'' := Nat.le_succ_of_le hm'
      refine ⟨hfunc.mono hm'', ?_, ?_⟩
      · exact Ty.within_arrow.2 ⟨ha.mono (Nat.le_succ m'), hresult⟩
      · exact hrest (m' + 1) _ (Nat.le_trans hm hm'') hresult

-- =================================================== ready for a run

namespace Script

variable {s s' : Store} {a b : Ty} {reason : String} {node : Option String}

/-- The script can be run from the store: its types are in place, and
the links have no cycle. -/
structure Ready (script : Script) (s : Store) : Prop where
  fits : script.Fits s.size
  wellFormed : s.WellFormed

/-- A script that is ready stays so, whatever its first step. -/
theorem Ready.note {n : Note Ty} {rest : Script}
    (h : (Script.note n node rest).Ready s) : rest.Ready s :=
  ⟨h.fits, h.wellFormed⟩

theorem Ready.fresh {rest : Nat → Script} (h : (Script.fresh rest).Ready s) :
    (rest s.size).Ready s.fresh.2 := by
  refine ⟨?_, Store.Step.fresh.wellFormed h.wellFormed⟩
  rw [Store.size_fresh]
  exact h.fits

theorem Ready.solved {rest : Script}
    (h : (Script.unify a b reason node rest).Ready s)
    (hsolved : Solved a b s s') : rest.Ready s' := by
  refine ⟨?_, hsolved.grows.wellFormed h.wellFormed⟩
  rw [hsolved.size]
  exact h.fits.2.2

/-- What solving an equation comes to when its turn has come. -/
theorem Ready.ends_unify {rest : Script} {t : Tracer}
    (h : (Script.unify a b reason node rest).Ready t.store) :
    Ends (Traced.unify a b reason node) t
      (fun _ t' => Solved a b t.store t'.store)
      fun halt t' => ∃ clash : Clash, halt = clash.halt t'.store node ∧
        Refuted a b t.store clash t'.store :=
  Traced.ends_unify h.wellFormed h.fits.1 h.fits.2.1

end Script

-- ========================================= what a script comes to

/-- What the script gives is as `P` says, and what it halts with as `E`
says, whatever the numbers of new variables. -/
def Script.Yields (P : Ty → Prop) (E : Halt → Prop) : Script → Prop
  | give a => P a
  | halt h => E h
  | note _ _ rest => rest.Yields P E
  | fresh rest => ∀ v, (rest v).Yields P E
  | unify _ _ _ _ rest => rest.Yields P E

/-- The halts for want of depth, and at a number with too many digits,
are as `E` says. -/
structure Spares (limit : Nat) (e : Expr) (E : Halt → Prop) : Prop where
  tooDeep : limit < e.depth → E .tooDeep
  tooLong : ¬ e.Writable → E .tooLong

/-- The halts of a walk by itself are as `E` says. -/
structure Excuses (limit : Nat) (e : Expr) (E : Halt → Prop) : Prop
    extends Spares limit e E where
  unknown : .hole ∈ e.walk → ∀ node, E (.fault
    { cause := .unknownExpression Expr.hole.kind, node })
  undefined : ∀ x node, E (.fault { cause := .undefinedVariable x, node })

section

variable {d : Expr} {P : Ty → Prop} {E : Halt → Prop}

theorem Spares.part (h : Spares limit e E) (hd : d ∈ e.children) :
    Spares (limit - 1) d E := by
  constructor
  · intro hlt
    have := Expr.depth_lt_of_mem hd
    exact h.tooDeep (by omega)
  · intro hlong
    refine h.tooLong fun hw => hlong fun n hn => ?_
    exact hw n (Expr.mem_walk_of_mem_children hd hn)

theorem Excuses.part (h : Excuses limit e E) (hd : d ∈ e.children) :
    Excuses (limit - 1) d E :=
  ⟨h.toSpares.part hd,
    fun hin => h.unknown (Expr.mem_walk_of_mem_children hd hin), h.undefined⟩

theorem Script.yields_entered {rest : Script} (hE : Spares limit e E)
    (h : 0 < limit → e.isShort = true → rest.Yields P E) :
    (entered limit k e rest).Yields P E := by
  apply entered_cases
  · intro hlimit
    exact hE.tooDeep (hlimit ▸ e.depth_pos)
  · intro hlabel
    obtain ⟨n, rfl, hlong⟩ := Expr.exists_int_of_label? hlabel
    refine hE.tooLong fun hw => ?_
    rw [hw n (List.mem_singleton.2 rfl)] at hlong
    cases hlong
  · intro label hlimit hlabel
    refine h hlimit ?_
    unfold Expr.label? at hlabel
    split at hlabel
    · assumption
    · cases hlabel

theorem Script.yields_operands {op : String} {left right : Ty}
    {node : Option String} {rest : Ty → Script}
    (h : ∀ a, (rest a).Yields P E) :
    (operands op left right node rest).Yields P E := by
  unfold operands
  by_cases hop : op ∈ arithmeticOps
  · rw [if_pos hop]
    exact h _
  · rw [if_neg hop]
    exact h _

end

/-- What comes after an expression is come to only if the expression is
within the limit and can be announced. -/
theorem yields_script : ∀ (e : Expr) (limit : Nat) (scope : Scope) (k : Nat)
    (rest : Ty → Script) (P : Ty → Prop) (E : Halt → Prop),
      Excuses limit e E →
      (∀ a, e.depth ≤ limit → e.Writable → (rest a).Yields P E) →
        (e.script limit scope k rest).Yields P E := by
  intro e
  induction e with
  | hole =>
      intro limit scope k rest P E hE hrest
      rw [Expr.script]
      refine Script.yields_entered hE.toSpares fun _ _ => ?_
      exact hE.unknown (List.mem_singleton.2 rfl) _
  | int | bool =>
      intro limit scope k rest P E hE hrest
      rw [Expr.script]
      refine Script.yields_entered hE.toSpares fun hpos hshort => ?_
      exact hrest _ hpos (Expr.writable_of_children hshort (by simp [Expr.children]))
  | var x =>
      intro limit scope k rest P E hE hrest
      rw [Expr.script]
      refine Script.yields_entered hE.toSpares fun hpos hshort => ?_
      cases scope.lookup x with
      | some a =>
          exact hrest a hpos
            (Expr.writable_of_children hshort (by simp [Expr.children]))
      | none => exact hE.undefined x _
  | nil =>
      intro limit scope k rest P E hE hrest
      rw [Expr.script]
      refine Script.yields_entered hE.toSpares fun hpos hshort v => ?_
      exact hrest _ hpos
        (Expr.writable_of_children hshort (by simp [Expr.children]))
  | cons h l ihh ihl =>
      intro limit scope k rest P E hE hrest
      rw [Expr.script]
      refine Script.yields_entered hE.toSpares fun hpos hshort => ?_
      refine ihh _ _ _ _ P E (hE.part (.head _)) fun head hd hw => ?_
      refine ihl _ _ _ _ P E (hE.part (.tail _ (.head _)))
        fun tail hd' hw' => ?_
      refine hrest _ (by rw [Expr.depth]; omega) ?_
      exact Expr.writable_of_children hshort (by simp [Expr.children, hw, hw'])
  | binary op l r ihl ihr =>
      intro limit scope k rest P E hE hrest
      rw [Expr.script]
      refine Script.yields_entered hE.toSpares fun hpos hshort => ?_
      refine ihl _ _ _ _ P E (hE.part (.head _)) fun left hd hw => ?_
      refine ihr _ _ _ _ P E (hE.part (.tail _ (.head _)))
        fun right hd' hw' => ?_
      refine Script.yields_operands fun a =>
        hrest a (by rw [Expr.depth]; omega) ?_
      exact Expr.writable_of_children hshort (by simp [Expr.children, hw, hw'])
  | ite c y n ihc ihy ihn =>
      intro limit scope k rest P E hE hrest
      rw [Expr.script]
      refine Script.yields_entered hE.toSpares fun hpos hshort => ?_
      refine ihc _ _ _ _ P E (hE.part (.head _)) fun cond hd hw => ?_
      refine ihy _ _ _ _ P E (hE.part (.tail _ (.head _)))
        fun yes hd' hw' => ?_
      refine ihn _ _ _ _ P E (hE.part (.tail _ (.tail _ (.head _))))
        fun no hd'' hw'' => ?_
      refine hrest _ (by rw [Expr.depth]; omega) ?_
      exact Expr.writable_of_children hshort
        (by simp [Expr.children, hw, hw', hw''])
  | lambda x body ih =>
      intro limit scope k rest P E hE hrest
      rw [Expr.script]
      refine Script.yields_entered hE.toSpares fun hpos hshort v => ?_
      refine ih _ _ _ _ P E (hE.part (.head _)) fun a hd hw => ?_
      refine hrest _ (by rw [Expr.depth]; omega) ?_
      exact Expr.writable_of_children hshort (by simp [Expr.children, hw])
  | letIn x v body ihv ihb =>
      intro limit scope k rest P E hE hrest
      rw [Expr.script]
      refine Script.yields_entered hE.toSpares fun hpos hshort => ?_
      refine ihv _ _ _ _ P E (hE.part (.head _)) fun value hd hw => ?_
      refine ihb _ _ _ _ P E (hE.part (.tail _ (.head _)))
        fun a hd' hw' => ?_
      refine hrest _ (by rw [Expr.depth]; omega) ?_
      exact Expr.writable_of_children hshort (by simp [Expr.children, hw, hw'])
  | app f arg ihf iha =>
      intro limit scope k rest P E hE hrest
      rw [Expr.script]
      refine Script.yields_entered hE.toSpares fun hpos hshort => ?_
      refine ihf _ _ _ _ P E (hE.part (.head _)) fun func hd hw => ?_
      refine iha _ _ _ _ P E (hE.part (.tail _ (.head _)))
        fun a hd' hw' v => ?_
      refine hrest _ (by rw [Expr.depth]; omega) ?_
      exact Expr.writable_of_children hshort (by simp [Expr.children, hw, hw'])

/-- To run a script is to come to one of its ends, or to an equation that
cannot be solved. -/
theorem Script.Ready.yields_run {P : Ty → Prop} {E : Halt → Prop}
    (hclash : ∀ (clash : Clash) (s : Store) (node : Option String),
      clash.Justified s → E (clash.halt s node)) :
    ∀ {script : Script} {t : Tracer}, script.Ready t.store →
      script.Yields P E →
        Ends script.run t (fun a _ => P a) fun halt _ => E halt := by
  intro script
  induction script with
  | give a => exact fun _ h => h
  | halt h => exact fun _ h => h
  | note n node rest ih =>
      intro t hready h
      exact ih (t := t.note n node) hready.note h
  | fresh rest ih =>
      intro t hready h
      exact ih _ (t := { t with store := t.store.fresh.2 }) hready.fresh (h _)
  | unify a b reason node rest ih =>
      intro t hready h
      rw [Script.run_unify, ends_bind]
      refine hready.ends_unify.mono ?_ ?_
      · exact fun _ t₁ hsolved => ih (hready.solved hsolved) h
      · rintro halt t₁ ⟨clash, rfl, hrefuted⟩
        exact hclash clash _ node hrefuted.justified

/-- An inference in a scope that is in place can be run. -/
theorem ready_script {s : Store} (hs : s.WellFormed)
    (hscope : scope.Within s.size) :
    (e.script limit scope k .give).Ready s :=
  ⟨fits_script e limit scope k _ _ hscope fun _ _ _ ha => ha, hs⟩

/-- An inference gives a type only if the expression is within the limit
and can be announced. It halts as `E` says if the walk does, and with it
every equation that cannot be solved. -/
theorem ends_analyze {t : Tracer} {E : Halt → Prop}
    (ht : t.store.WellFormed) (hscope : scope.Within t.store.size)
    (hE : Excuses limit e E)
    (hclash : ∀ (clash : Clash) (s : Store) (node : Option String),
      clash.Justified s → E (clash.halt s node)) :
    Ends (analyze limit scope k e) t
      (fun _ _ => e.depth ≤ limit ∧ e.Writable) fun halt _ => E halt := by
  have hyields := yields_script e limit scope k .give
    (fun _ => e.depth ≤ limit ∧ e.Writable) E hE fun _ hd hw => ⟨hd, hw⟩
  exact (ready_script ht hscope).yields_run hclash hyields

/-- If every fault is as `E` says, it is enough to know about the limit
and about the digits of numbers. -/
theorem ends_analyze_of_faults {t : Tracer} {E : Halt → Prop}
    (ht : t.store.WellFormed) (hscope : scope.Within t.store.size)
    (hE : Spares limit e E) (hfault : ∀ f, E (.fault f)) :
    Ends (analyze limit scope k e) t
      (fun _ _ => e.depth ≤ limit ∧ e.Writable) fun halt _ => E halt := by
  refine ends_analyze ht hscope ⟨hE, ?_, ?_⟩ ?_
  · exact fun _ _ => hfault _
  · exact fun _ _ => hfault _
  · intro clash s node hclash
    obtain ⟨f, hf, -⟩ := hclash.exists_fault node
    exact hf ▸ hfault f

end InferTrace
