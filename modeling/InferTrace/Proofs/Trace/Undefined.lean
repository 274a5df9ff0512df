/-
An undefined variable stops inference, and the first one is reported.

The walk takes a scope along, which grows at each binder. In every part
that it comes to, the scope lacks exactly the names that the scope at the
root lacks and that no binder around the part has (`Expr.Lacks`); this
goes from a node to its parts (`Expr.Lacks.part`). So the variable that
the walk stops at is undefined in the whole expression, and whatever it
has passed is not.

Whether an inference comes that far is another matter, since an equation
without a solution may stop it before. `Script.Heeds` says of a script
what holds wherever it may end: up to there nothing undefined has been
passed, and if the fault is that of an undefined variable, it stands at
the last node announced. The script of an expression does so
(`heeds_script`), and to run it is to end so (`Script.Heeds.ends_run`).
Nothing is asked of the store.
-/
import InferTrace.Proofs.Expr.Free
import InferTrace.Proofs.Trace.Renaming
import InferTrace.Proofs.Trace.Visits

namespace InferTrace

variable {P : Nat → String → Prop} {d c b : Expr} {after : List Expr}
  {scope scope' : Scope} {limit k i j q : Nat} {x : String} {t : Tracer}

-- ====================================================== parts in scope

/-- A scope with one more name lacks what the scope lacks, but for the
name. -/
theorem Scope.lookup_extend_eq_none_iff {p : String} {a : Ty} :
    (scope.extend p a).lookup x = none ↔ scope.lookup x = none ∧ p ≠ x := by
  rw [Scope.lookup_extend]
  by_cases hx : x = p
  · simp [hx]
  · have hne : p ≠ x := fun h => hx h.symm
    simp [hx, hne]

/-- Of the part `d`, at place `i`, `P` holds where the scope leaves a
variable undefined, and nowhere else. -/
def Expr.Lacks (P : Nat → String → Prop) (d : Expr) (scope : Scope)
    (i : Nat) : Prop :=
  ∀ m x, m < d.size → (P (i + m) x ↔ d.Undefined scope m x)

/-- `P` holds nowhere before the place. -/
def ClearTo (P : Nat → String → Prop) (i : Nat) : Prop :=
  ∀ j x, P j x → i ≤ j

namespace Expr.Lacks

/-- The walk goes on to a part with the scope that is meant for it. -/
theorem part (before : List Expr) (h : d.Lacks P scope i)
    (hparts : d.children = before ++ c :: after)
    (hscope : ∀ x, scope'.lookup x = none ↔
      scope.lookup x = none ∧ d.binder? before.length ≠ some x)
    (hj : j = i + (1 + (before.flatMap walk).length)) :
    c.Lacks P scope' j := by
  intro m x hm
  have hlt : 1 + (before.flatMap walk).length + m < d.size := by
    have hle := (At.root.part hparts).size_le
    omega
  rw [hj, Nat.add_assoc, h _ x hlt]
  exact undefined_part_iff hparts hscope hm

/-- A part where nothing is bound has the scope of the node. -/
theorem same (before : List Expr) (h : d.Lacks P scope i)
    (hparts : d.children = before ++ c :: after)
    (hnone : d.binder? before.length = none)
    (hj : j = i + (1 + (before.flatMap walk).length)) :
    c.Lacks P scope j := by
  refine h.part before hparts (fun x => ?_) hj
  simp [hnone]

theorem first (h : d.Lacks P scope i) (hd : d.children = c :: after)
    (hnone : d.binder? 0 = none) : c.Lacks P scope (i + 1) :=
  h.same [] hd hnone rfl

theorem second (h : d.Lacks P scope i) (hd : d.children = b :: c :: after)
    (hnone : d.binder? 1 = none) : c.Lacks P scope (i + 1 + b.size) := by
  refine h.same [b] hd hnone ?_
  simp [length_walk, Nat.add_assoc]

theorem third {a : Expr} (h : d.Lacks P scope i)
    (hd : d.children = a :: b :: c :: after) (hnone : d.binder? 2 = none) :
    c.Lacks P scope (i + 1 + a.size + b.size) := by
  refine h.same [a, b] hd hnone ?_
  simp [length_walk, Nat.add_assoc]

/-- The body of a function lacks what the function lacks, with its
parameter in scope. -/
theorem lambda (h : (Expr.lambda x b).Lacks P scope i) (a : Ty) :
    b.Lacks P (scope.extend x a) (i + 1) := by
  refine h.part [] rfl (fun y => ?_) rfl
  simp [Scope.lookup_extend_eq_none_iff, binder?]

/-- So does the body of a `let`, with its name in scope. -/
theorem letIn (h : (Expr.letIn x c b).Lacks P scope i) (a : Ty) :
    b.Lacks P (scope.extend x a) (i + 1 + c.size) := by
  refine h.part [c] rfl (fun y => ?_) ?_
  · simp [Scope.lookup_extend_eq_none_iff, binder?]
  · simp [length_walk, Nat.add_assoc]

/-- A node that is no undefined variable may be passed. -/
theorem clearTo_succ (h : d.Lacks P scope i) (hclear : ClearTo P i)
    (hd : ∀ x, d = .var x → scope.lookup x ≠ none) : ClearTo P (i + 1) := by
  intro j x hj
  have hle := hclear j x hj
  rcases Nat.eq_or_lt_of_le hle with heq | hlt
  · rw [← heq] at hj
    obtain ⟨hvar, hmissing⟩ := undefined_root_iff.1
      ((h 0 x d.size_pos).1 hj)
    exact absurd hmissing (hd x hvar)
  · exact hlt

end Expr.Lacks

-- ============================================================ scripts

/-- What may stop an inference that has announced `i` nodes: the fault of
an undefined variable at the last of them, the first for which `P` holds;
or something else, before any such variable is passed. -/
inductive Heeded (P : Nat → String → Prop) (k : Nat) : Nat → Halt → Prop
  | undefined {j : Nat} {x : String} : P j x → ClearTo P j →
      Heeded P k (j + 1) (.fault { cause := .undefinedVariable x
                                   node := some (nodeName (k + j)) })
  | other {i : Nat} {halt : Halt} : ClearTo P i →
      (∀ f x, halt = .fault f → f.cause ≠ .undefinedVariable x) →
      Heeded P k i halt

/-- The script announces nodes by their places, from `i` on, and ends as
it should wherever it may end. -/
def Script.Heeds (P : Nat → String → Prop) (k : Nat) : Nat → Script → Prop
  | _, give _ => ∀ j x, ¬ P j x
  | i, halt h => Heeded P k i h
  | i, note (.enter _) node rest =>
    node = some (nodeName (k + i)) ∧ rest.Heeds P k (i + 1)
  | i, note _ _ rest => rest.Heeds P k i
  | i, fresh rest => ∀ v, (rest v).Heeds P k i
  | i, unify _ _ _ _ rest => ClearTo P i ∧ rest.Heeds P k i

namespace Script

/-- To enter a node that is clear is to go on. -/
theorem heeds_entered {rest : Script} (hclear : ClearTo P i)
    (hq : q = k + i) (hrest : rest.Heeds P k (i + 1)) :
    (entered limit q d rest).Heeds P k i := by
  apply entered_cases
  · exact fun _ => .other hclear (by simp)
  · exact fun _ => .other hclear (by simp)
  · exact fun _ _ _ => ⟨by rw [hq], hrest⟩

/-- The operands of an operation are clear already. -/
theorem heeds_operands {op : String} {left right : Ty}
    {node : Option String} {rest : Ty → Script} (hclear : ClearTo P i)
    (hrest : ∀ a, (rest a).Heeds P k i) :
    (operands op left right node rest).Heeds P k i := by
  unfold operands
  by_cases hop : op ∈ arithmeticOps
  · rw [if_pos hop]
    exact ⟨hclear, hclear, hrest _⟩
  · rw [if_neg hop]
    exact ⟨hclear, hrest _⟩

end Script

/-- The script of a part passes nothing undefined, or stops at it. -/
theorem heeds_script : ∀ (d : Expr) (limit : Nat) (scope : Scope)
    (i q : Nat) (rest : Ty → Script), d.Lacks P scope i → ClearTo P i →
      q = k + i →
      (∀ a n, n = i + d.size → ClearTo P n → (rest a).Heeds P k n) →
        (d.script limit scope q rest).Heeds P k i := by
  intro d
  -- as in the tour, a place is given by an equation
  induction d with
  | hole =>
      intro limit scope i q rest h hclear hq hrest
      have hnext := h.clearTo_succ hclear (by simp)
      rw [Expr.script]
      refine Script.heeds_entered hclear hq (.other hnext fun f x hf => ?_)
      cases hf
      simp
  | int n =>
      intro limit scope i q rest h hclear hq hrest
      have hnext := h.clearTo_succ hclear (by simp)
      rw [Expr.script]
      exact Script.heeds_entered hclear hq (hrest _ _ rfl hnext)
  | bool b =>
      intro limit scope i q rest h hclear hq hrest
      have hnext := h.clearTo_succ hclear (by simp)
      rw [Expr.script]
      exact Script.heeds_entered hclear hq (hrest _ _ rfl hnext)
  | var x =>
      intro limit scope i q rest h hclear hq hrest
      rw [Expr.script]
      apply Script.heeds_entered hclear hq
      cases hx : scope.lookup x with
      | some a =>
          have hnext := h.clearTo_succ hclear (by simp [hx])
          exact hrest _ _ rfl hnext
      | none =>
          have hmissing := (h 0 x (Expr.size_pos _)).2
            (Expr.undefined_root_iff.2 ⟨rfl, hx⟩)
          rw [hq]
          exact .undefined hmissing hclear
  | nil =>
      intro limit scope i q rest h hclear hq hrest
      have hnext := h.clearTo_succ hclear (by simp)
      rw [Expr.script]
      exact Script.heeds_entered hclear hq fun v => hrest _ _ rfl hnext
  | cons x l ihx ihl =>
      intro limit scope i q rest h hclear hq hrest
      have hsize : (Expr.cons x l).size = 1 + x.size + l.size := rfl
      have hnext := h.clearTo_succ hclear (by simp)
      rw [Expr.script]
      apply Script.heeds_entered hclear hq
      refine ihx _ _ _ _ _ (h.first rfl rfl) hnext (by omega)
        fun head n hn hclear' => ?_
      subst hn
      refine ihl _ _ _ _ _ (h.second rfl rfl) hclear' (by omega)
        fun tail n hn hclear'' => ?_
      exact ⟨hclear'', hrest _ _ (by omega) hclear''⟩
  | binary op l r ihl ihr =>
      intro limit scope i q rest h hclear hq hrest
      have hsize : (Expr.binary op l r).size = 1 + l.size + r.size := rfl
      have hnext := h.clearTo_succ hclear (by simp)
      rw [Expr.script]
      apply Script.heeds_entered hclear hq
      refine ihl _ _ _ _ _ (h.first rfl rfl) hnext (by omega)
        fun left n hn hclear' => ?_
      subst hn
      refine ihr _ _ _ _ _ (h.second rfl rfl) hclear' (by omega)
        fun right n hn hclear'' => ?_
      exact Script.heeds_operands hclear'' fun a =>
        hrest a _ (by omega) hclear''
  | ite p y z ihp ihy ihz =>
      intro limit scope i q rest h hclear hq hrest
      have hsize : (Expr.ite p y z).size = 1 + p.size + y.size + z.size := rfl
      have hnext := h.clearTo_succ hclear (by simp)
      rw [Expr.script]
      apply Script.heeds_entered hclear hq
      refine ihp _ _ _ _ _ (h.first rfl rfl) hnext (by omega)
        fun cond n hn hcond => ⟨hcond, ?_⟩
      subst hn
      refine ihy _ _ _ _ _ (h.second rfl rfl) hcond (by omega)
        fun yes n hn hyes => ?_
      subst hn
      refine ihz _ _ _ _ _ (h.third rfl rfl) hyes (by omega)
        fun no n hn hno => ?_
      exact ⟨hno, hrest _ _ (by omega) hno⟩
  | lambda x b ih =>
      intro limit scope i q rest h hclear hq hrest
      have hsize : (Expr.lambda x b).size = 1 + b.size := rfl
      have hnext := h.clearTo_succ hclear (by simp)
      rw [Expr.script]
      refine Script.heeds_entered hclear hq fun v => ?_
      refine ih _ _ _ _ _ (h.lambda (.var v)) hnext (by omega)
        fun body n hn hclear' => ?_
      exact hrest _ _ (by omega) hclear'
  | app f a ihf iha =>
      intro limit scope i q rest h hclear hq hrest
      have hsize : (Expr.app f a).size = 1 + f.size + a.size := rfl
      have hnext := h.clearTo_succ hclear (by simp)
      rw [Expr.script]
      apply Script.heeds_entered hclear hq
      refine ihf _ _ _ _ _ (h.first rfl rfl) hnext (by omega)
        fun func n hn hclear' => ?_
      subst hn
      refine iha _ _ _ _ _ (h.second rfl rfl) hclear' (by omega)
        fun arg n hn hclear'' v => ?_
      exact ⟨hclear'', hrest _ _ (by omega) hclear''⟩
  | letIn x v b ihv ihb =>
      intro limit scope i q rest h hclear hq hrest
      have hsize : (Expr.letIn x v b).size = 1 + v.size + b.size := rfl
      have hnext := h.clearTo_succ hclear (by simp)
      rw [Expr.script]
      apply Script.heeds_entered hclear hq
      -- the value is walked in the scope of the whole
      refine ihv _ _ _ _ _ (h.first rfl rfl) hnext (by omega)
        fun value n hn hclear' => ?_
      subst hn
      refine ihb _ _ _ _ _ (h.letIn value) hclear' (by omega)
        fun body n hn hclear'' => ?_
      exact hrest _ _ (by omega) hclear''

-- =============================================================== runs

/-- The nodes announced in a trace. -/
def Tracer.visited (t : Tracer) : List (Option String) :=
  t.visits.map Prod.fst

/-- The names of the first `n` nodes, with the root at place `k`. -/
def nodeNames (k n : Nat) : List (Option String) :=
  (List.range n).map fun i => some (nodeName (k + i))

theorem nodeNames_succ (k n : Nat) :
    nodeNames k (n + 1) = nodeNames k n ++ [some (nodeName (k + n))] := by
  unfold nodeNames
  rw [List.range_succ, List.map_append]
  rfl

/-- No clash of two types is an undefined variable. -/
theorem Clash.halt_ne_undefined (clash : Clash) (s : Store)
    (node : Option String) (f : Fault) (x : String)
    (h : clash.halt s node = .fault f) : f.cause ≠ .undefinedVariable x := by
  intro hcause
  cases clash with
  | mismatch a b reason =>
      cases h
      cases hcause
  | infinite v a =>
      cases h
      cases hcause
  | rebound v a => cases h
  | endless => cases h

/-- An equation announces nothing, and fails for its own reasons. -/
theorem Traced.heeds_unify {a b : Ty} {reason : String}
    {node : Option String} (k : Nat) (hclear : ClearTo P i) :
    Ends (Traced.unify a b reason node) t
      (fun _ t' => t'.visited = t.visited)
      fun halt t' => t'.visited = t.visited ∧ Heeded P k i halt := by
  unfold Ends Traced.unify Traced.solve
  cases InferTrace.unify a b reason { store := t.store } with
  | ok u s => exact congrArg (List.map Prod.fst) (t.visits_absorb s node)
  | error clash s =>
      refine ⟨congrArg (List.map Prod.fst) (t.visits_absorb s node), ?_⟩
      exact .other hclear (clash.halt_ne_undefined s.store node)

/-- To run a script that heeds what is undefined is to end as it says. -/
theorem Script.Heeds.ends_run {base : List (Option String)} :
    ∀ {script : Script} {i : Nat} {t : Tracer}, script.Heeds P k i →
      t.visited = base ++ nodeNames k i →
        Ends script.run t (fun _ _ => ∀ j x, ¬ P j x)
          fun halt t' => ∃ n, t'.visited = base ++ nodeNames k n ∧
            Heeded P k n halt := by
  intro script
  induction script with
  | give a => exact fun h _ => h
  | halt halt => exact fun h hvisited => ⟨_, hvisited, h⟩
  | note n node rest ih =>
      intro i t h hvisited
      cases n with
      | enter label =>
          obtain ⟨hnode, hrest⟩ := h
          refine ih hrest ?_
          rw [nodeNames_succ, ← List.append_assoc, ← hvisited, ← hnode]
          have hvisits := congrArg (List.map Prod.fst)
            (t.visits_record_ast ("AST: analyzing " ++ label) node)
          rw [List.map_append] at hvisits
          exact hvisits
      | demand text =>
          refine ih h (Eq.trans ?_ hvisited)
          apply congrArg (List.map Prod.fst)
          exact t.visits_record_of_ne (by simp [Note.category]) _ _
      | scope x a =>
          refine ih h (Eq.trans ?_ hvisited)
          apply congrArg (List.map Prod.fst)
          exact t.visits_record_of_ne (by simp [Note.category]) _ _
  | fresh rest ih =>
      intro i t h hvisited
      exact ih _ (t := { t with store := t.store.fresh.2 }) (h _) hvisited
  | unify a b reason node rest ih =>
      intro i t h hvisited
      obtain ⟨hclear, hrest⟩ := h
      rw [Script.run_unify, ends_bind]
      refine (Traced.heeds_unify k hclear).mono ?_ ?_
      · intro _ t₁ hsame
        exact ih hrest (hsame.trans hvisited)
      · intro halt t₁ hhalt
        exact ⟨i, hhalt.1.trans hvisited, hhalt.2⟩

/-- Scopes are lexical. Inference finds a type only if no free variable
of the expression is undefined in the scope. If it reports an undefined
variable, the report has the name and the node of the first one that is,
in the order of the walk. And whenever there is one, inference stops
before the node is announced, or right after, with that report; nodes
behind it are not visited. -/
theorem analyze_undefined (limit : Nat) (scope : Scope) (k : Nat) (e : Expr)
    (t : Tracer) :
    Ends (analyze limit scope k e) t
      (fun _ _ => ∀ i x, ¬ e.Undefined scope i x)
      fun halt t' =>
        (∀ f x, halt = .fault f → f.cause = .undefinedVariable x →
          ∃ i, e.FirstUndefined scope i x ∧
            f.node = some (nodeName (k + i))) ∧
        ∀ i x, e.FirstUndefined scope i x →
          ∃ n, t'.visited = t.visited ++ nodeNames k n ∧
            (n ≤ i ∨ n = i + 1 ∧
              halt = .fault { cause := .undefinedVariable x
                              node := some (nodeName (k + i)) }) := by
  have hheeds : (e.script limit scope k .give).Heeds
      (e.Undefined scope) k 0 := by
    refine heeds_script e limit scope 0 k _ (fun m x _ => ?_)
      (fun _ _ _ => Nat.zero_le _) rfl fun _ n hn hclear j x hj => ?_
    · rw [Nat.zero_add]
    · have hle := hclear j x hj
      have hlt := hj.lt_size
      omega
  refine (hheeds.ends_run (List.append_nil _).symm).mono (fun _ _ h => h) ?_
  intro halt t' hhalt
  obtain ⟨n, hvisited, hheeded⟩ := hhalt
  cases hheeded with
  | @undefined j y hy hclear =>
      refine ⟨fun f x hf hcause => ?_, fun i x hfirst => ⟨_, hvisited, ?_⟩⟩
      · cases hf
        cases hcause
        exact ⟨j, ⟨hy, hclear⟩, rfl⟩
      · right
        have hle := hfirst.first j y hy
        have hge := hclear i x hfirst.undefined
        obtain rfl : i = j := by omega
        rw [hfirst.undefined.name_unique hy]
        exact ⟨rfl, rfl⟩
  | other hclear hne =>
      refine ⟨fun f x hf hcause => absurd hcause (hne f x hf), ?_⟩
      intro i x hfirst
      exact ⟨n, hvisited, Or.inl (hclear i x hfirst.undefined)⟩

/-- `let x = x in x`: the name is not in scope in its own value, though it
is in the body. -/
theorem analyze_undefined_value : ∃ (f : Fault) (t' : Tracer),
    analyze 9 [] 0 (.letIn "x" (.var "x") (.var "x")) {}
        = .error (.fault f) t' ∧
      f.cause = .undefinedVariable "x" ∧ f.node = some (nodeName 1) ∧
      ∃ i, (Expr.letIn "x" (.var "x") (.var "x")).FirstUndefined [] i "x" ∧
        f.node = some (nodeName (0 + i)) := by
  obtain ⟨f, t', hrun, hcause, hnode⟩ : ∃ (f : Fault) (t' : Tracer),
      analyze 9 [] 0 (.letIn "x" (.var "x") (.var "x")) {}
          = .error (.fault f) t' ∧
        f.cause = .undefinedVariable "x" ∧ f.node = some (nodeName 1) :=
    ⟨_, _, rfl, rfl, rfl⟩
  have hends := analyze_undefined 9 [] 0
    (.letIn "x" (.var "x") (.var "x")) {}
  exact ⟨f, t', hrun, hcause, hnode,
    (hends.of_error hrun).1 f "x" rfl hcause⟩

end InferTrace
