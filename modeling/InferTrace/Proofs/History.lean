/-
What a store can come to.

A store starts empty, and then is asked for one thing after another: a
new variable, the end of a type's links, whether a variable occurs in a
type, the equation of two types, the type of an expression. The types
that are handed in mention variables that have been made; whatever else
they are, and whether a question is answered or halts midway, the store
that is left is the start of the next question.

`Reached` collects the stores that come up in this way, each with the
types that have been given as answers. One question grows the store and
answers within it (`builds_operation`); so every store that is reached
is well formed (`Reached.wellFormed`).

# Full resolution

`Resolves` reads a type by its links, as a relation: a derivation is a
finite tree, and where links run in a circle there is none. In a store
without cycles there is exactly one for each type, and its tree is the
one that the store computes (`Acyclic.resolves_iff`).
-/
import InferTrace.Proofs.Store.Finite
import InferTrace.Proofs.Typing.Soundness
import InferTrace.Workbench

namespace InferTrace

variable {t t' : Tracer} {limit : Nat}

-- ================================================== full resolution

namespace Store

variable {s : Store} {a : Ty} {τ : Tree}

/-- With every link followed, the type is the tree. -/
inductive Resolves (s : Store) : Ty → Tree → Prop
  | int : Resolves s .int .int
  | bool : Resolves s .bool .bool
  | base {m : Nat} : Resolves s (.base m) (.base m)
  | free {v : Nat} : s.link? v = none → Resolves s (.var v) (.var v)
  | linked {v : Nat} {a : Ty} {τ : Tree} : s.link? v = some a →
      Resolves s a τ → Resolves s (.var v) τ
  | list {m : Nat} {a : Ty} {τ : Tree} : Resolves s a τ →
      Resolves s (.list m a) (.list τ)
  | arrow {m : Nat} {p r : Ty} {π ρ : Tree} : Resolves s p π →
      Resolves s r ρ → Resolves s (.arrow m p r) (.arrow π ρ)

/-- A type resolves if its variables do. -/
theorem resolves_tree
    (h : ∀ v ∈ a.vars, s.Resolves (.var v) (s.assign v)) :
    s.Resolves a (s.tree a) := by
  induction a with
  | int => exact .int
  | bool => exact .bool
  | base m => exact .base
  | var v => exact h v (List.mem_singleton.2 rfl)
  | list m a ih => exact .list (ih h)
  | arrow m p r ihp ihr =>
      refine .arrow (ihp fun v hv => h v ?_) (ihr fun v hv => h v ?_)
      · exact List.mem_append_left _ hv
      · exact List.mem_append_right _ hv

/-- A variable resolves to what it is assigned. -/
theorem Acyclic.resolves_assign (h : s.Acyclic) (v : Nat) :
    s.Resolves (.var v) (s.assign v) := by
  -- along links, from the variables without one upwards
  induction v using h.induction with
  | _ v ih =>
  cases hv : s.link? v with
  | none =>
      rw [assign_of_none hv]
      exact .free hv
  | some a =>
      rw [h.assign_of_link hv]
      exact .linked hv (resolves_tree fun w hw => ih w ⟨a, hv, hw⟩)

/-- In a store without cycles each type resolves, to one tree. -/
theorem Acyclic.resolves_iff (h : s.Acyclic) :
    s.Resolves a τ ↔ τ = s.tree a := by
  constructor
  · intro ha
    induction ha with
    | int | bool | base => rfl
    | free hv => exact (assign_of_none hv).symm
    | linked hv _ ih => exact ih.trans (h.assign_of_link hv).symm
    | list _ ih => exact congrArg Tree.list ih
    | arrow _ _ ihp ihr => exact congrArg₂ Tree.arrow ihp ihr
  · rintro rfl
    exact resolves_tree fun v _ => h.resolves_assign v

end Store

-- ======================================================== questions

/-- What a store may be asked for. -/
inductive Operation where
  | fresh
  | prune (a : Ty)
  | resolve (a : Ty)
  | occurs (v : Nat) (a : Ty)
  | unify (a b : Ty) (reason : String) (node : Option String)
  | infer (request : Request)
deriving DecidableEq, Repr

namespace Operation

/-- The types that are handed in have variables below `n` only. -/
def Within (n : Nat) : Operation → Prop
  | fresh => True
  | prune a | resolve a => a.Within n
  | occurs v a => v < n ∧ a.Within n
  | unify a b _ _ => a.Within n ∧ b.Within n
  | infer r => r.scope.Within n

/-- Ask for it. The answer is a type, if it is about types. -/
def action (limit : Nat) : Operation → Traced (Option Ty)
  | fresh => return some (.var (← Traced.fresh))
  | prune a => return some (← Workbench.prune a)
  | resolve a => return some ((← get).store.resolve a)
  | occurs v a => do
    let _ ← Workbench.occurs v a
    return none
  | unify a b reason node => do
    Workbench.unify a b reason node
    return none
  | infer r => return some (← r.action limit)

end Operation

-- =============================================== one question more

variable {a b : Ty}

namespace Workbench

/-! Where there is no circle, the guard of an action lets it pass. -/

/-- On an acyclic store, to prune with care is to prune. -/
theorem prune_eq (ht : t.store.Acyclic) (a : Ty) :
    Workbench.prune a t = Traced.prune a t := by
  show (Workbench.shown (t.store.prune? a) >>= _) t
    = .ok (t.store.prune a).1 { t with store := (t.store.prune a).2 }
  rw [ht.prune?_eq, ht.prune_fst]
  rfl

/-- To solve with care is to solve. -/
theorem unify_eq {reason : String} {node : Option String}
    (ht : t.store.Acyclic) :
    Workbench.unify a b reason node t = Traced.unify a b reason node t := by
  have hget : (get : Traced Tracer) t = .ok t t := rfl
  unfold Workbench.unify
  rw [bind_of_ok hget, if_pos (Store.isFinite_iff_acyclic.2 ht)]

/-- The free variables are found. -/
theorem freeVars_eq (ht : t.store.Acyclic) (a : Ty) :
    Workbench.freeVars a t = .ok (t.store.freeVars a) t := by
  show Workbench.shown (t.store.freeVars? a) t = _
  unfold Store.freeVars?
  rw [ht.endless_eq_false]
  rfl

/-- The text of a type is found. -/
theorem render_eq (ht : t.store.Acyclic) (a : Ty) :
    Workbench.render a t = .ok (t.store.render a) t := by
  show Workbench.shown (t.store.render? a) t = _
  unfold Store.render?
  rw [ht.endless_eq_false]
  rfl

/-- A snapshot is taken. -/
theorem snapshot_eq (ht : t.store.Acyclic) (placeholder : String) :
    Workbench.snapshot placeholder t
      = .ok (t.store.snapshot placeholder) t := by
  show Workbench.shown (t.store.snapshot? placeholder) t = _
  unfold Store.snapshot?
  rw [if_pos (Store.isFinite_iff_acyclic.2 ht)]
  rfl

/-- The occurs check is answered, and shortens chains on its way. -/
theorem occurs_eq (ht : t.store.Acyclic) (v : Nat) (a : Ty) :
    ∃ s, t.store.Shortens s ∧ Workbench.occurs v a t
      = .ok (t.store.inTree v a) { t with store := s } := by
  obtain ⟨s, hsh, heq⟩ := ht.occurs_eq v a
  have hget : (get : Traced Tracer) t = .ok t t := rfl
  refine ⟨s, hsh, ?_⟩
  unfold Workbench.occurs
  rw [bind_of_ok hget, heq]
  cases t.store.inTree v a with
  | false => rfl
  | true => rfl

end Workbench

/-- Without a circle, pruning never halts. -/
theorem builds_pruneGuarded (ht : t.store.WellFormed)
    (ha : a.Within t.store.size) :
    Builds (Workbench.prune a) t fun r t' => r.Within t'.store.size := by
  have hs := ht.acyclic
  have hsh := hs.shortens_prune a
  unfold Builds Workbench.prune
  rw [ends_bind, ends_get, ends_bind, hs.prune?_eq]
  refine ⟨(Store.Step.shorten hsh).grows, ?_⟩
  show (t.store.resolve a).Within (t.store.prune a).2.size
  rw [hsh.size]
  exact ht.within_resolve ha

/-- The occurs check builds on the store. -/
theorem builds_occurs (ht : t.store.WellFormed) (v : Nat) (a : Ty) :
    Builds (Workbench.occurs v a) t fun _ _ => True := by
  obtain ⟨s', hsh, heq⟩ := Workbench.occurs_eq ht.acyclic v a
  unfold Builds Ends
  rw [heq]
  exact ⟨(Store.Step.shorten hsh).grows, trivial⟩

/-- So does solving. -/
theorem builds_unifyGuarded {reason : String} {node : Option String}
    (ht : t.store.WellFormed) (ha : a.Within t.store.size)
    (hb : b.Within t.store.size) :
    Builds (Workbench.unify a b reason node) t fun _ _ => True := by
  unfold Builds Ends
  rw [Workbench.unify_eq ht.acyclic]
  exact Ends.mono (builds_unify ht ha hb) (fun _ _ hd => ⟨hd.1, trivial⟩)
    fun _ _ hg => hg

/-- Whatever it is asked, the store grows, and the answer is within
it. -/
theorem builds_operation {op : Operation} (ht : t.store.WellFormed)
    (hop : op.Within t.store.size) :
    Builds (op.action limit) t fun answer t' =>
      ∀ r ∈ answer, r.Within t'.store.size := by
  cases op with
  | fresh =>
      refine builds_fresh.bind ht fun v t₁ _ _ hv => builds_pure ?_
      rintro _ ⟨⟩
      exact Ty.within_var.2 hv
  | prune a =>
      refine (builds_pruneGuarded ht hop).bind ht fun r t₁ _ _ hr =>
        builds_pure ?_
      rintro _ ⟨⟩
      exact hr
  | resolve a =>
      refine ⟨.refl _, ?_⟩
      rintro _ ⟨⟩
      exact ht.within_resolve hop
  | occurs v a =>
      exact (builds_occurs ht v a).bind ht fun _ _ _ _ _ => builds_pure nofun
  | unify a b reason node =>
      exact (builds_unifyGuarded ht hop.1 hop.2).bind ht fun _ _ _ _ _ =>
        builds_pure nofun
  | infer r =>
      refine (builds_action ht hop).bind ht fun a t₁ _ _ ha => builds_pure ?_
      rintro _ ⟨⟩
      exact ha.1

-- ======================================================== histories

/-- The tracer comes up after some questions to an empty store, and
these types have been given as answers. A question that halts leaves
what it has done. -/
inductive Reached : Tracer → List Ty → Prop
  | empty {t : Tracer} : t.store.links = #[] → Reached t []
  | answered (op : Operation) (limit : Nat) {t t' : Tracer}
      {types : List Ty} {answer : Option Ty} :
      Reached t types → op.Within t.store.size →
        op.action limit t = .ok answer t' →
          Reached t' (answer.toList ++ types)
  | halted (op : Operation) (limit : Nat) {t t' : Tracer}
      {types : List Ty} {halt : Halt} :
      Reached t types → op.Within t.store.size →
        op.action limit t = .error halt t' → Reached t' types

/-- A store without variables is well formed. -/
theorem wellFormed_of_empty {s : Store} (h : s.links = #[]) :
    s.WellFormed := by
  have hnone : ∀ v, s.link? v = none := by
    intro v
    unfold Store.link?
    rw [h]
    rfl
  refine ⟨fun v a hv => ?_, fun v hv => ?_⟩
  · rw [hnone] at hv
    cases hv
  · obtain ⟨w, ⟨a, hw, -⟩, -⟩ := Relation.TransGen.head'_iff.1 hv
    rw [hnone] at hw
    cases hw

/-- Well-formedness, and that answers stay within the store, go
through every history. -/
theorem Reached.wellFormed {types : List Ty} (h : Reached t types) :
    t.store.WellFormed ∧ ∀ a ∈ types, a.Within t.store.size := by
  induction h with
  | empty hempty => exact ⟨wellFormed_of_empty hempty, nofun⟩
  | answered op limit _ hop hrun ih =>
      obtain ⟨hg, hanswer⟩ := (builds_operation ih.1 hop).of_ok hrun
      refine ⟨hg.wellFormed ih.1, fun a ha => ?_⟩
      rcases List.mem_append.1 ha with ha | ha
      · exact hanswer a (Option.mem_toList.1 ha)
      · exact (ih.2 a ha).mono hg.size_le
  | halted op limit _ hop hrun ih =>
      have hg := (builds_operation ih.1 hop).of_error hrun
      exact ⟨hg.wellFormed ih.1, fun a ha => (ih.2 a ha).mono hg.size_le⟩

/-- In every store that is reached, links and answers mention only
variables that have been made, the graph of the links has no cycle, and
every type has exactly one full resolution, a finite tree. -/
theorem reached_acyclic {types : List Ty} (h : Reached t types) :
    (∀ v a, t.store.link? v = some a → a.Within t.store.size) ∧
      (∀ a ∈ types, a.Within t.store.size) ∧
      t.store.Acyclic ∧
      ∀ a τ, t.store.Resolves a τ ↔ τ = t.store.tree a := by
  obtain ⟨hstore, htypes⟩ := h.wellFormed
  exact ⟨hstore.closed, htypes, hstore.acyclic,
    fun _ _ => hstore.acyclic.resolves_iff⟩

/-- The equation of `T0 -> [T0]` and `Int -> Bool` links `T0` before it
fails; the link stays, and what was answered before is read by it. -/
theorem reached_acyclic_halfway : ∃ t : Tracer,
    Reached t [.var 0] ∧ t.store.Acyclic ∧
      t.store.Resolves (.var 0) .int := by
  have hempty : Reached {} [] := .empty rfl
  have hfresh := Reached.answered .fresh 1 hempty trivial rfl
  have hhalted := Reached.halted
    (.unify (.fn (.var 0) (.listOf (.var 0))) (.fn .int .bool) "" none) 1
    hfresh ⟨by decide, by decide⟩ rfl
  have hacyclic := reached_acyclic hhalted
  exact ⟨_, hhalted, hacyclic.2.2.1, (hacyclic.2.2.2 _ _).2 rfl⟩

end InferTrace
