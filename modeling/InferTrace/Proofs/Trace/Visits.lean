/-
The trace follows the walk.

Inference announces each node that it enters. So the trace shows the
order in which nodes are visited, and it is that of the walk: all of it
if a type is found, and the first nodes of it otherwise. Then the fault
is that of the last node announced or of one that encloses it; or else
the next node would be a number with too many digits to be announced.

The order is in the script of an expression, whatever the store.
`Script.Tours` says of a script that it announces the nodes of an
expression from a given place on, one after the other, and that each
equation on the way is made for a node that encloses the last one
announced. The script of an expression does (`tours_script`), and to run
a script with this property is to leave these events
(`Script.Tours.ends_run`).
-/
import InferTrace.Proofs.Expr.Place
import InferTrace.Proofs.Trace.Script

namespace InferTrace

variable {e d c : Expr} {bound limit k i j q : Nat} {t : Tracer}

-- ============================================================ visits

/-- What announces the nodes of an expression with its root at place
`k`, in the order of the walk: their names, and their labels in a
message. -/
def Expr.visits (k : Nat) (e : Expr) : List (Option String × String) :=
  (e.walk.zipIdx k).map fun p =>
    (some (nodeName p.2), "AST: analyzing " ++ p.1.label)

/-- The announcements in a trace. -/
def Tracer.visits (t : Tracer) : List (Option String × String) :=
  (t.ofCategory .ast).map fun x => (x.node, x.message)

/-- Each node is visited once. -/
theorem Expr.length_visits (k : Nat) (e : Expr) :
    (e.visits k).length = e.size := by
  unfold Expr.visits
  rw [List.length_map, List.length_zipIdx, Expr.length_walk]

/-- The node at a place is announced in its turn. -/
theorem Expr.At.take_visits (h : e.At i d) (k : Nat) :
    (e.visits k).take (i + 1) = (e.visits k).take i
      ++ [(some (nodeName (k + i)), "AST: analyzing " ++ d.label)] := by
  have hget : (e.visits k)[i]?
      = some (some (nodeName (k + i)), "AST: analyzing " ++ d.label) := by
    unfold Expr.visits
    rw [List.getElem?_map, List.getElem?_zipIdx, h.getElem?_walk]
    rfl
  rw [List.take_add_one, hget]
  rfl

namespace Tracer

/-- An event of a node is a visit. -/
theorem visits_record_ast (t : Tracer) (message : String)
    (node : Option String) :
    (t.record .ast message node).visits = t.visits ++ [(node, message)] := by
  unfold visits ofCategory record
  simp

/-- No other event is. -/
theorem visits_record_of_ne {category : Category} (h : category ≠ .ast)
    (t : Tracer) (message : String) (node : Option String) :
    (t.record category message node).visits = t.visits := by
  unfold visits ofCategory record
  simp [h]

/-- Links are no announcements. -/
theorem visits_absorb (t : Tracer) (s : Solver) (node : Option String) :
    (t.absorb s node).visits = t.visits := by
  unfold visits ofCategory absorb
  have hnone : (s.bonds.map (·.event node)).toList.filter
      (fun x => x.category == .ast) = [] := by
    simp [Bond.event]
  rw [Array.toList_append, List.filter_append, hnone, List.append_nil]

end Tracer

/-- Solving visits no node. -/
theorem Traced.visits_unify {a b : Ty} {reason : String}
    {node : Option String} :
    Ends (Traced.unify a b reason node) t
      (fun _ t' => t'.visits = t.visits)
      fun _ t' => t'.visits = t.visits := by
  unfold Ends Traced.unify Traced.solve
  cases InferTrace.unify a b reason { store := t.store } with
  | ok u s => exact t.visits_absorb s node
  | error clash s => exact t.visits_absorb s node

-- ============================================================= tours

/-- Why a tour under a bound on depth may stop after the first `n`
nodes. -/
inductive Expr.Stops (e : Expr) (bound k : Nat) : Nat → Halt → Prop
  /-- The expression is too deep. At least its root has been visited. -/
  | tooDeep {n : Nat} : 0 < n → n ≤ e.size → bound < e.depth →
      Stops e bound k n .tooDeep
  /-- The next node is a number with too many digits. -/
  | tooLong {n : Nat} {m : Int} : e.At n (.int m) →
      Number.isShort m = false → Stops e bound k n .tooLong
  /-- There is a fault of a node that encloses the last one visited. -/
  | fault {n i : Nat} {f : Fault} : 0 < n → n ≤ e.size →
      f.node = some (nodeName (k + i)) → e.Encloses i (n - 1) →
        Stops e bound k n (.fault f)

/-- The script announces the nodes of `e` from place `i` on. -/
def Script.Tours (e : Expr) (bound k : Nat) : Nat → Script → Prop
  | i, give _ => i = e.size
  | i, halt h => e.Stops bound k i h
  | i, note (.enter label) node rest =>
    (∃ d, e.At i d ∧ label = d.label ∧ node = some (nodeName (k + i))) ∧
      rest.Tours e bound k (i + 1)
  | i, note _ _ rest => rest.Tours e bound k i
  | i, fresh rest => ∀ v, (rest v).Tours e bound k i
  | i, unify _ _ _ node rest =>
    (∀ f : Fault, f.node = node → e.Stops bound k i (.fault f)) ∧
      rest.Tours e bound k i

/-- A fault of a node may come until its parts have all been visited. -/
theorem Expr.At.stops (h : e.At i d) (hq : q = k + i) (hlt : i < j)
    (hle : j ≤ i + d.size) :
    ∀ f : Fault, f.node = some (nodeName q) →
      e.Stops bound k j (.fault f) := by
  intro f hf
  rw [hq] at hf
  refine .fault (by omega) (Nat.le_trans hle h.size_le) hf ?_
  exact h.encloses (by omega) (by omega)

/-- The turn of `d`, at place `i`, has come with a limit that is less
than `bound` by the levels above it. -/
structure Expr.Turn (e : Expr) (bound limit i : Nat) (d : Expr) : Prop where
  place : e.At i d
  pos : limit = 0 → 0 < i
  depth : bound + d.depth ≤ limit + e.depth

namespace Expr.Turn

variable {b : Expr} {after : List Expr}

/-- A part has its turn one level down. -/
theorem down (h : e.Turn bound limit i d)
    (hc : c ∈ d.children) (hplace : e.At (i + 1 + j) c) :
    e.Turn bound (limit - 1) (i + 1 + j) c := by
  have hdepth := h.depth
  have hlt := depth_lt_of_mem hc
  exact ⟨hplace, fun _ => by omega, by omega⟩

theorem first (h : e.Turn bound limit i d)
    (hd : d.children = c :: after) :
    e.Turn bound (limit - 1) (i + 1) c :=
  h.down (j := 0) (by simp [hd]) (h.place.first hd)

theorem second (h : e.Turn bound limit i d)
    (hd : d.children = b :: c :: after) :
    e.Turn bound (limit - 1) (i + 1 + b.size) c :=
  h.down (by simp [hd]) (h.place.second hd)

theorem third {a : Expr} (h : e.Turn bound limit i d)
    (hd : d.children = a :: b :: c :: after) :
    e.Turn bound (limit - 1) (i + 1 + (a.size + b.size)) c := by
  have hplace := h.place.third hd
  rw [Nat.add_assoc] at hplace
  exact h.down (by simp [hd]) hplace

end Expr.Turn

namespace Script

/-- To enter a node is to visit it, and then to go on from the next. -/
theorem tours_entered {rest : Script} (h : e.Turn bound limit i d)
    (hq : q = k + i)
    (hrest : rest.Tours e bound k (i + 1)) :
    (entered limit q d rest).Tours e bound k i := by
  apply entered_cases
  · intro hlimit
    have hdepth := h.depth
    have hpos := d.depth_pos
    have hle := h.place.size_le
    exact .tooDeep (h.pos hlimit) (by omega) (by omega)
  · intro hlabel
    obtain ⟨m, rfl, hlong⟩ := Expr.exists_int_of_label? hlabel
    exact .tooLong h.place hlong
  · intro label _ hlabel
    exact ⟨⟨d, h.place, Expr.eq_label hlabel, by rw [hq]⟩, hrest⟩

/-- The operands of an operation are visited already. -/
theorem tours_operands {op : String} {left right : Ty}
    {node : Option String} {rest : Ty → Script}
    (hnode : ∀ f : Fault, f.node = node → e.Stops bound k i (.fault f))
    (hrest : ∀ a, (rest a).Tours e bound k i) :
    (operands op left right node rest).Tours e bound k i := by
  unfold operands
  by_cases hop : op ∈ arithmeticOps
  · rw [if_pos hop]
    exact ⟨hnode, hnode, hrest _⟩
  · rw [if_neg hop]
    exact ⟨hnode, hrest _⟩

end Script

/-- The script of a part announces its nodes from its place on, and
leaves off where the next part begins. -/
theorem tours_script : ∀ (d : Expr) (limit : Nat) (scope : Scope)
    (i q : Nat) (rest : Ty → Script), e.Turn bound limit i d → q = k + i →
      (∀ a n, n = i + d.size → (rest a).Tours e bound k n) →
        (d.script limit scope q rest).Tours e bound k i := by
  intro d
  -- a place comes up as different sums, so it is given by an equation
  induction d with
  | hole =>
      intro limit scope i q rest h hq hrest
      rw [Expr.script]
      refine Script.tours_entered h hq ?_
      exact h.place.stops hq (Nat.lt_succ_self i) (Nat.le_refl _) _ rfl
  | int n =>
      intro limit scope i q rest h hq hrest
      rw [Expr.script]
      exact Script.tours_entered h hq (hrest _ _ rfl)
  | bool b =>
      intro limit scope i q rest h hq hrest
      rw [Expr.script]
      exact Script.tours_entered h hq (hrest _ _ rfl)
  | var x =>
      intro limit scope i q rest h hq hrest
      rw [Expr.script]
      refine Script.tours_entered h hq ?_
      cases scope.lookup x with
      | some a => exact hrest _ _ rfl
      | none =>
          exact h.place.stops hq (Nat.lt_succ_self i) (Nat.le_refl _) _ rfl
  | nil =>
      intro limit scope i q rest h hq hrest
      rw [Expr.script]
      exact Script.tours_entered h hq fun v => hrest _ _ rfl
  | cons x l ihx ihl =>
      intro limit scope i q rest h hq hrest
      have hsize : (Expr.cons x l).size = 1 + x.size + l.size := rfl
      rw [Expr.script]
      refine Script.tours_entered h hq ?_
      refine ihx _ _ _ _ _ (h.first rfl) (by omega)
        fun head n hn => ?_
      subst hn
      refine ihl _ _ _ _ _ (h.second rfl) (by omega)
        fun tail n hn => ?_
      refine ⟨h.place.stops hq (by omega) (by omega), ?_⟩
      exact hrest _ _ (by omega)
  | binary op l r ihl ihr =>
      intro limit scope i q rest h hq hrest
      have hsize : (Expr.binary op l r).size = 1 + l.size + r.size := rfl
      rw [Expr.script]
      refine Script.tours_entered h hq ?_
      refine ihl _ _ _ _ _ (h.first rfl) (by omega)
        fun left n hn => ?_
      subst hn
      refine ihr _ _ _ _ _ (h.second rfl) (by omega)
        fun right n hn => ?_
      refine Script.tours_operands ?_ fun a => hrest a _ (by omega)
      exact h.place.stops hq (by omega) (by omega)
  | ite p y z ihp ihy ihz =>
      intro limit scope i q rest h hq hrest
      have hsize : (Expr.ite p y z).size = 1 + p.size + y.size + z.size := rfl
      rw [Expr.script]
      refine Script.tours_entered h hq ?_
      refine ihp _ _ _ _ _ (h.first rfl) (by omega)
        fun cond n hn => ?_
      refine ⟨h.place.stops hq (by omega) (by omega), ?_⟩
      subst hn
      refine ihy _ _ _ _ _ (h.second rfl) (by omega)
        fun yes n hn => ?_
      have hn' : n = i + 1 + (p.size + y.size) := by omega
      subst hn'
      refine ihz _ _ _ _ _ (h.third rfl) (by omega)
        fun no n hn => ?_
      refine ⟨h.place.stops hq (by omega) (by omega), ?_⟩
      exact hrest _ _ (by omega)
  | lambda x b ih =>
      intro limit scope i q rest h hq hrest
      have hsize : (Expr.lambda x b).size = 1 + b.size := rfl
      rw [Expr.script]
      refine Script.tours_entered h hq fun v => ?_
      refine ih _ _ _ _ _ (h.first rfl) (by omega) fun body n hn => ?_
      exact hrest _ _ (by omega)
  | app f a ihf iha =>
      intro limit scope i q rest h hq hrest
      have hsize : (Expr.app f a).size = 1 + f.size + a.size := rfl
      rw [Expr.script]
      refine Script.tours_entered h hq ?_
      refine ihf _ _ _ _ _ (h.first rfl) (by omega)
        fun func n hn => ?_
      subst hn
      refine iha _ _ _ _ _ (h.second rfl) (by omega)
        fun arg n hn v => ?_
      refine ⟨h.place.stops hq (by omega) (by omega), ?_⟩
      exact hrest _ _ (by omega)
  | letIn x v b ihv ihb =>
      intro limit scope i q rest h hq hrest
      have hsize : (Expr.letIn x v b).size = 1 + v.size + b.size := rfl
      rw [Expr.script]
      refine Script.tours_entered h hq ?_
      refine ihv _ _ _ _ _ (h.first rfl) (by omega)
        fun value n hn => ?_
      subst hn
      refine ihb _ _ _ _ _ (h.second rfl) (by omega)
        fun body n hn => ?_
      exact hrest _ _ (by omega)

-- ============================================================== runs

/-- To run a script that announces the nodes of `e` from place `i` on
is to leave these announcements. -/
theorem Script.Tours.ends_run {base : List (Option String × String)} :
    ∀ {script : Script} {i : Nat} {t : Tracer},
      script.Tours e bound k i → script.Ready t.store →
        t.visits = base ++ (e.visits k).take i →
          Ends script.run t (fun _ t' => t'.visits = base ++ e.visits k)
            fun halt t' => ∃ n, e.Stops bound k n halt ∧
              t'.visits = base ++ (e.visits k).take n := by
  intro script
  induction script with
  | give a =>
      intro i t htours _ hvisits
      rw [Script.Tours, ← e.length_visits k] at htours
      rw [htours, List.take_length] at hvisits
      exact hvisits
  | halt h => exact fun htours _ hvisits => ⟨_, htours, hvisits⟩
  | note n node rest ih =>
      intro i t htours hready hvisits
      cases n with
      | enter label =>
          obtain ⟨⟨d, hplace, rfl, rfl⟩, hrest⟩ := htours
          refine ih hrest hready.note ?_
          rw [hplace.take_visits, ← List.append_assoc, ← hvisits]
          exact t.visits_record_ast _ _
      | demand text =>
          refine ih htours hready.note (Eq.trans ?_ hvisits)
          exact t.visits_record_of_ne (by simp [Note.category]) _ _
      | scope x a =>
          refine ih htours hready.note (Eq.trans ?_ hvisits)
          exact t.visits_record_of_ne (by simp [Note.category]) _ _
  | fresh rest ih =>
      intro i t htours hready hvisits
      exact ih _ (t := { t with store := t.store.fresh.2 }) (htours _)
        hready.fresh hvisits
  | unify a b reason node rest ih =>
      intro i t htours hready hvisits
      obtain ⟨hstops, hrest⟩ := htours
      rw [Script.run_unify, ends_bind]
      refine (hready.ends_unify.and Traced.visits_unify).mono ?_ ?_
      · rintro _ t₁ ⟨hsolved, hsame⟩
        exact ih hrest (hready.solved hsolved) (hsame.trans hvisits)
      · rintro _ t₁ ⟨⟨clash, rfl, hrefuted⟩, hsame⟩
        obtain ⟨f, hf, hnode⟩ := hrefuted.justified.exists_fault node
        rw [hf]
        exact ⟨i, hstops f hnode, hsame.trans hvisits⟩

/-- The script of a whole expression announces all its nodes. -/
theorem tours_root (scope : Scope) (k : Nat) (hlimit : 0 < limit) :
    (e.script limit scope k .give).Tours e limit k 0 := by
  have hturn : e.Turn limit limit 0 e :=
    ⟨.root, fun h => absurd h (Nat.ne_of_gt hlimit), Nat.le_refl _⟩
  refine tours_script e limit scope 0 k _ hturn rfl fun _ n hn => ?_
  rw [Script.Tours, hn, Nat.zero_add]

end InferTrace
