/-
Places in an expression.

Nodes are numbered in pre-order. `At` says which part of an expression
has its root at which place, from the parts of a node alone: the first
part of a node comes right after it, and every other part after all the
nodes of those before. That it is the walk which visits the nodes in
this order is a consequence (`At.getElem?_walk`).

A node encloses its own place and those of its parts, of their parts and
so on (`Encloses`); they are as many as it has nodes, and follow each
other (`At.encloses`).
-/
import InferTrace.Expr.Basic

namespace InferTrace

namespace Expr

variable {e d c : Expr} {before after : List Expr} {i j m : Nat}

/-- The part `d` of `e` has its root at place `i`, the root of `e` being
at place zero. -/
inductive At (e : Expr) : Nat → Expr → Prop
  | root : At e 0 e
  | part {i : Nat} {d c : Expr} {before after : List Expr} : At e i d →
      d.children = before ++ c :: after →
        At e (i + 1 + (before.flatMap walk).length) c

/-- The node at place `j` is the one at place `i`, or is inside it. -/
def Encloses (e : Expr) (i j : Nat) : Prop :=
  ∃ d, e.At i d ∧ ∃ m c, d.At m c ∧ j = i + m

-- =================================================== down the tree

theorem At.first (h : e.At i d) (hd : d.children = c :: after) :
    e.At (i + 1) c := by
  have hnone : d.children = [] ++ c :: after := hd
  exact h.part hnone

theorem At.second {b : Expr} (h : e.At i d)
    (hd : d.children = b :: c :: after) : e.At (i + 1 + b.size) c := by
  have hone : d.children = [b] ++ c :: after := hd
  have hpart := h.part hone
  simp only [List.flatMap_singleton, length_walk] at hpart
  exact hpart

theorem At.third {a b : Expr} (h : e.At i d)
    (hd : d.children = a :: b :: c :: after) :
    e.At (i + 1 + a.size + b.size) c := by
  have htwo : d.children = [a, b] ++ c :: after := hd
  have hpart := h.part htwo
  simp only [List.flatMap_cons, List.flatMap_nil, List.append_nil,
    List.length_append, length_walk, ← Nat.add_assoc] at hpart
  exact hpart

/-- A part of a part is a part. -/
theorem At.trans (h : e.At i d) (h' : d.At m c) : e.At (i + m) c := by
  induction h' with
  | root => exact h
  | part _ hd ih =>
      have hpart := ih.part hd
      simp only [Nat.add_assoc] at hpart ⊢
      exact hpart

theorem depth_pos (e : Expr) : 0 < e.depth := by
  cases e <;> simp only [depth] <;> omega

theorem depth_lt_of_mem (h : c ∈ e.children) : c.depth < e.depth := by
  cases e with
  | hole | int | bool | var | nil => simp [children] at h
  | lambda x b =>
      simp only [children, List.mem_singleton] at h
      rw [h, depth]
      omega
  | binary _ l r | letIn _ l r | app l r | cons l r =>
      simp only [children, List.mem_cons, List.not_mem_nil, or_false] at h
      rw [depth]
      rcases h with rfl | rfl
      · omega
      · omega
  | ite p q r =>
      simp only [children, List.mem_cons, List.not_mem_nil, or_false] at h
      rw [depth]
      rcases h with rfl | rfl | rfl
      · omega
      · omega
      · omega

-- ======================================================== the walk

/-- The walk of a part is a stretch of the whole walk, from its place
on. -/
theorem At.walk_eq (h : e.At i d) :
    ∃ front back, e.walk = front ++ d.walk ++ back ∧ front.length = i := by
  induction h with
  | root => exact ⟨[], [], by simp⟩
  | @part i d c before after _ hd ih =>
      obtain ⟨front, back, hwalk, hlength⟩ := ih
      refine ⟨front ++ d :: before.flatMap walk,
        after.flatMap walk ++ back, ?_, ?_⟩
      · rw [hwalk, d.walk_eq, hd]
        simp
      · simp only [List.length_append, List.length_cons, hlength]
        omega

theorem At.getElem?_walk (h : e.At i d) : e.walk[i]? = some d := by
  obtain ⟨front, back, hwalk, rfl⟩ := h.walk_eq
  rw [hwalk, d.walk_eq]
  simp

theorem At.size_le (h : e.At i d) : i + d.size ≤ e.size := by
  obtain ⟨front, back, hwalk, rfl⟩ := h.walk_eq
  rw [← length_walk e, hwalk, List.length_append, List.length_append,
    length_walk]
  omega

theorem size_eq (e : Expr) :
    e.size = 1 + (e.children.flatMap walk).length := by
  rw [← length_walk, walk_eq, List.length_cons, Nat.add_comm]

/-- A place among the nodes of some parts is in one of them. -/
theorem exists_split {parts : List Expr} :
    ∀ {m : Nat}, m < (parts.flatMap walk).length →
      ∃ before c after n, parts = before ++ c :: after ∧
        m = (before.flatMap walk).length + n ∧ n < c.size := by
  induction parts with
  | nil =>
      intro m hm
      simp at hm
  | cons p rest ih =>
      intro m hm
      rcases Nat.lt_or_ge m p.size with hp | hp
      · exact ⟨[], p, rest, m, rfl, (Nat.zero_add m).symm, hp⟩
      · rw [List.flatMap_cons, List.length_append, length_walk] at hm
        obtain ⟨before, c, after, n, rfl, hn, hc⟩ :=
          ih (show m - p.size < _ by omega)
        refine ⟨p :: before, c, after, n, rfl, ?_, hc⟩
        rw [List.flatMap_cons, List.length_append, length_walk]
        omega

/-- There is a node at every place. -/
theorem exists_at : ∀ {e : Expr} {m : Nat}, m < e.size → ∃ c, e.At m c := by
  intro e
  -- the part that has the place is smaller
  induction hsize : e.size using Nat.strongRecOn generalizing e with
  | ind size ih =>
  intro m hm
  cases m with
  | zero => exact ⟨e, .root⟩
  | succ m =>
      have heq := e.size_eq
      obtain ⟨before, c, after, n, hsplit, hn, hc⟩ :=
        exists_split (show m < (e.children.flatMap walk).length by omega)
      have hle : c.size ≤ (e.children.flatMap walk).length := by
        rw [hsplit, List.flatMap_append, List.flatMap_cons,
          List.length_append, List.length_append, length_walk]
        omega
      obtain ⟨x, hx⟩ := ih c.size (by omega) rfl hc
      have hat := (At.root.part hsplit).trans hx
      refine ⟨x, ?_⟩
      rw [show m + 1 = 0 + 1 + (before.flatMap walk).length + n by omega]
      exact hat

/-- A node encloses the places from its own on, as many as it has
nodes. -/
theorem At.encloses (h : e.At i d) (hle : i ≤ j) (hlt : j < i + d.size) :
    e.Encloses i j := by
  obtain ⟨m, rfl⟩ := Nat.exists_eq_add_of_le hle
  obtain ⟨c, hc⟩ := exists_at (Nat.lt_of_add_lt_add_left hlt)
  exact ⟨d, h, m, c, hc, rfl⟩

end Expr

end InferTrace
