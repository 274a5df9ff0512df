/-
Binders and free occurrences, by their places.

A function binds its parameter in its body. A `let` binds its name in its
body, and not in its value (`binder?`). What stands at a place is bound by
a node around it if the node binds the name in the part that has the
place (`BoundAt`); an occurrence of a variable is free if no node does
(`Free`).

This looks at all nodes around a place at once. A walk from the root
looks at one node at a time, and the two agree: a name is bound in a part
of a node by the node itself, or inside the part (`boundAt_part_iff`). So
the occurrences that a scope leaves undefined are, in a part, those that
the scope leaves undefined which has the binder of the part as well
(`undefined_part_iff`).
-/
import InferTrace.Proofs.Expr.Place
import InferTrace.Ty.Scope

namespace InferTrace

namespace Expr

variable {e c d c' : Expr} {before before' after after' : List Expr}
  {i j m m' : Nat} {x : String} {scope scope' : Scope}

-- ==================================================== places of parts

theorem size_pos (e : Expr) : 0 < e.size := by
  rw [size_eq]
  omega

theorem At.lt_size (h : e.At i d) : i < e.size := by
  have hle := h.size_le
  have hpos := d.size_pos
  omega

/-- A node is the root or is in one of the parts of the root. -/
theorem At.root_or_part (h : e.At i d) :
    i = 0 ∧ d = e ∨ ∃ before c after m, e.children = before ++ c :: after ∧
      c.At m d ∧ i = 1 + (before.flatMap walk).length + m := by
  induction h with
  | root => exact Or.inl ⟨rfl, rfl⟩
  | @part i d c before after _ hd ih =>
      right
      rcases ih with ⟨hi, hroot⟩ | ⟨before', c', after', m, hparts, hm, hi⟩
      · rw [hroot] at hd
        refine ⟨before, c, after, 0, hd, .root, ?_⟩
        omega
      · refine ⟨before', c', after', _, hparts, hm.part hd, ?_⟩
        omega

/-- A place is in one part only. -/
theorem part_unique : ∀ {before before' : List Expr} {m m' : Nat},
    before ++ c :: after = before' ++ c' :: after' →
      (before.flatMap walk).length + m = (before'.flatMap walk).length + m' →
        m < c.size → m' < c'.size → before = before' ∧ c = c' ∧ m = m' := by
  intro before
  induction before with
  | nil =>
      intro before' m m' hparts hplace hm hm'
      cases before' with
      | nil =>
          simp only [List.nil_append, List.cons.injEq] at hparts
          simp only [List.flatMap_nil, List.length_nil] at hplace
          exact ⟨rfl, hparts.1, by omega⟩
      | cons b rest =>
          -- the place would be behind all of the first part
          simp only [List.nil_append, List.cons_append,
            List.cons.injEq] at hparts
          simp only [List.flatMap_nil, List.flatMap_cons, List.length_append,
            length_walk, List.length_nil] at hplace
          rw [← hparts.1] at hplace
          omega
  | cons b rest ih =>
      intro before' m m' hparts hplace hm hm'
      cases before' with
      | nil =>
          simp only [List.nil_append, List.cons_append,
            List.cons.injEq] at hparts
          simp only [List.flatMap_nil, List.flatMap_cons, List.length_append,
            length_walk, List.length_nil] at hplace
          rw [hparts.1] at hplace
          omega
      | cons b' rest' =>
          simp only [List.cons_append, List.cons.injEq] at hparts
          simp only [List.flatMap_cons, List.length_append, length_walk,
            hparts.1] at hplace
          obtain ⟨hrest, hc, hm⟩ := ih hparts.2 (by omega) hm hm'
          exact ⟨by rw [hparts.1, hrest], hc, hm⟩

/-- What stands in a part of a node stands there in the node. -/
theorem at_part_iff (hparts : e.children = before ++ c :: after)
    (hm : m < c.size) :
    e.At (1 + (before.flatMap walk).length + m) d ↔ c.At m d := by
  constructor
  · intro h
    rcases h.root_or_part with
      ⟨hroot, -⟩ | ⟨before', c', after', m', hparts', hm', hplace⟩
    · omega
    · obtain ⟨-, rfl, rfl⟩ := part_unique (hparts.symm.trans hparts')
        (by omega) hm hm'.lt_size
      exact hm'
  · intro h
    have hat := (At.root.part hparts).trans h
    rw [Nat.zero_add] at hat
    exact hat

-- ============================================================ binders

/-- The name that a node binds in a part of it, by the number of parts
before that one. -/
def binder? : Expr → Nat → Option String
  | lambda x _, 0 => some x
  | letIn x _ _, 1 => some x
  | _, _ => none

/-- Around the place is a node that binds the name there. -/
def BoundAt (e : Expr) (x : String) (i : Nat) : Prop :=
  ∃ j d before c after m, e.At j d ∧ d.children = before ++ c :: after ∧
    d.binder? before.length = some x ∧ m < c.size ∧
      i = j + (1 + (before.flatMap walk).length + m)

/-- At the place is a variable that no node around it binds. -/
structure Free (e : Expr) (i : Nat) (x : String) : Prop where
  place : e.At i (.var x)
  unbound : ¬ e.BoundAt x i

/-- In a part, a name is bound by the node or inside the part. -/
theorem boundAt_part_iff (hparts : e.children = before ++ c :: after)
    (hm : m < c.size) :
    e.BoundAt x (1 + (before.flatMap walk).length + m) ↔
      e.binder? before.length = some x ∨ c.BoundAt x m := by
  constructor
  · intro h
    obtain ⟨j, d, before', c', after', m', hd, hparts', hbinder, hm',
      hplace⟩ := h
    rcases hd.root_or_part with
      ⟨hj, hroot⟩ | ⟨before₁, c₁, after₁, m₁, hparts₁, hm₁, hj⟩
    · left
      rw [hroot] at hparts' hbinder
      obtain ⟨hbefore, -, -⟩ := part_unique (hparts.symm.trans hparts')
        (by omega) hm hm'
      rw [hbefore]
      exact hbinder
    · right
      -- the binder is inside the part that has the place
      have hlt : m₁ + (1 + (before'.flatMap walk).length + m') < c₁.size := by
        have hle := (hm₁.part hparts').size_le
        omega
      obtain ⟨-, hc, hm₁'⟩ := part_unique (hparts.symm.trans hparts₁)
        (by omega) hm hlt
      rw [← hc] at hm₁
      exact ⟨m₁, d, before', c', after', m', hm₁, hparts', hbinder, hm', hm₁'⟩
  · intro h
    rcases h with hbinder | ⟨j, d, before', c', after', m', hd, hparts',
      hbinder, hm', hplace⟩
    · exact ⟨0, e, before, c, after, m, .root, hparts, hbinder, hm, by omega⟩
    · have hat := (at_part_iff hparts hd.lt_size).2 hd
      exact ⟨_, d, before', c', after', m', hat, hparts', hbinder, hm',
        by omega⟩

-- ==================================================== what is undefined

/-- A variable is free at the place, and the scope has no type for it. -/
structure Undefined (e : Expr) (scope : Scope) (i : Nat) (x : String) :
    Prop where
  free : e.Free i x
  missing : scope.lookup x = none

/-- At no place before this one is anything undefined. -/
structure FirstUndefined (e : Expr) (scope : Scope) (i : Nat) (x : String) :
    Prop where
  undefined : e.Undefined scope i x
  first : ∀ j y, e.Undefined scope j y → i ≤ j

theorem Undefined.lt_size (h : e.Undefined scope i x) : i < e.size :=
  h.free.place.lt_size

/-- There is one variable at a place. -/
theorem Undefined.name_unique {y : String} (h : e.Undefined scope i x)
    (h' : e.Undefined scope i y) : x = y := by
  have hx := h.free.place.getElem?_walk
  rw [h'.free.place.getElem?_walk] at hx
  cases hx
  rfl

/-- The root of an expression is undefined only if it is a variable that
the scope does not have. -/
theorem undefined_root_iff :
    e.Undefined scope 0 x ↔ e = .var x ∧ scope.lookup x = none := by
  constructor
  · intro h
    rcases h.free.place.root_or_part with ⟨-, hroot⟩ | ⟨_, _, _, _, -, -, hi⟩
    · exact ⟨hroot.symm, h.missing⟩
    · omega
  · intro h
    obtain ⟨rfl, hx⟩ := h
    refine ⟨⟨.root, ?_⟩, hx⟩
    intro hbound
    obtain ⟨j, d, before, c, after, m, -, -, -, -, hplace⟩ := hbound
    omega

/-- What is undefined in a part of a node is what is undefined there in
the node, if the scope for the part has the name that the node binds. -/
theorem undefined_part_iff (hparts : e.children = before ++ c :: after)
    (hscope : ∀ x, scope'.lookup x = none ↔
      scope.lookup x = none ∧ e.binder? before.length ≠ some x)
    (hm : m < c.size) :
    e.Undefined scope (1 + (before.flatMap walk).length + m) x ↔
      c.Undefined scope' m x := by
  constructor
  · intro h
    have hbound := mt (boundAt_part_iff hparts hm).2 h.free.unbound
    rw [not_or] at hbound
    exact ⟨⟨(at_part_iff hparts hm).1 h.free.place, hbound.2⟩,
      (hscope x).2 ⟨h.missing, hbound.1⟩⟩
  · intro h
    obtain ⟨hmissing, hbinder⟩ := (hscope x).1 h.missing
    refine ⟨⟨(at_part_iff hparts hm).2 h.free.place, ?_⟩, hmissing⟩
    intro hbound
    rcases (boundAt_part_iff hparts hm).1 hbound with hnode | hinside
    · exact hbinder hnode
    · exact h.free.unbound hinside

end Expr

end InferTrace
