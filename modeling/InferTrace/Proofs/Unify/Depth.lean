/-
How deep unification can go.

Solving an equation goes down two trees at once, by one level for each
unit of fuel. While it does, the store grows, and with it the trees
that it goes down: the level it stands at says nothing about the types
it was called with as they were then. But it stands, at any moment, `d`
levels below the root of a tree of the store of that moment: growth
takes a tree to an instance of it, and what stands below a root stays
there (`Under.grows`).

And no tree of any of these stores is deep. The types of the links are
parts of types that were there at the beginning, so their height is
bounded by one `D` all along; a way down a tree meets each variable at
most once; so it has at most `(variables + 1) * D` levels
(`Under.le`). The fuel that `unify` computes is more than that
(`fuelFor_gt`).

`Ready` puts this together: what has to hold of a store and an equation
for the fuel to suffice, from the call (`ready_fuelFor`) down to every
equation that solving comes to.
-/
import InferTrace.Proofs.Store.Growth
import InferTrace.Ty.Unify

namespace InferTrace

-- ================================================= height and depth

/-- The number of constructors above the lowest one. -/
def Ty.height : Ty → Nat
  | int | bool | base _ | var _ => 0
  | list _ t => t.height + 1
  | arrow _ p r => max p.height r.height + 1

/-- The number of levels below the root. -/
def Tree.depth : Tree → Nat
  | int | bool | base _ | var _ => 0
  | list t => t.depth + 1
  | arrow p r => max p.depth r.depth + 1

theorem Ty.height_lt_size (t : Ty) : t.height < t.size := by
  induction t with
  | int | bool | base m | var v => exact Nat.zero_lt_one
  | list m t ih => exact Nat.succ_lt_succ ih
  | arrow m p r ihp ihr =>
      simp only [height, size]
      omega

/-- A reading is at most as deep as the type is high, and what its
variables stand for is deep. -/
theorem Ty.depth_inst_le {t : Ty} {θ : Nat → Tree} {n : Nat}
    (h : ∀ v ∈ t.vars, (θ v).depth ≤ n) :
    (t.inst θ).depth ≤ t.height + n := by
  induction t with
  | int | bool | base m => exact Nat.zero_le _
  | var v =>
      have := h v (List.mem_singleton.2 rfl)
      simp only [inst, height]
      omega
  | list m t ih =>
      have := ih h
      simp only [inst, Tree.depth, height]
      omega
  | arrow m p r ihp ihr =>
      have := ihp fun v hv => h v (List.mem_append_left _ hv)
      have := ihr fun v hv => h v (List.mem_append_right _ hv)
      simp only [inst, Tree.depth, height]
      omega

/-- A tree that stands so many levels below the root of another. -/
inductive Tree.Below (root : Tree) : Nat → Tree → Prop
  | root : Below root 0 root
  | elem {d : Nat} {t : Tree} : Below root d (.list t) → Below root (d + 1) t
  | param {d : Nat} {p r : Tree} :
      Below root d (.arrow p r) → Below root (d + 1) p
  | ret {d : Nat} {p r : Tree} :
      Below root d (.arrow p r) → Below root (d + 1) r

/-- What lies deep below the root adds to its depth. -/
theorem Tree.Below.depth_le {root t : Tree} {d : Nat}
    (h : root.Below d t) : d + t.depth ≤ root.depth := by
  induction h with
  | root => exact Nat.le_of_eq (Nat.zero_add _)
  | elem _ ih | param _ ih | ret _ ih =>
      simp only [Tree.depth] at ih
      omega

/-- An instance of a tree has below it the instances of what the tree
has below. -/
theorem Tree.Below.subst {root t : Tree} {d : Nat} (θ : Nat → Tree)
    (h : root.Below d t) : (root.subst θ).Below d (t.subst θ) := by
  induction h with
  | root => exact .root
  | elem _ ih => exact .elem ih
  | param _ ih => exact .param ih
  | ret _ ih => exact .ret ih

namespace Store

variable {s s' : Store} {v D d : Nat} {t : Ty}

-- ================================================== shallow stores

/-- No link is higher than `D`. -/
def Shallow (D : Nat) (s : Store) : Prop :=
  ∀ v t, s.link? v = some t → t.height ≤ D

/-- To follow links keeps below the height of all links. -/
theorem Shallow.height_resolve (h : s.Shallow D) (hs : s.Acyclic)
    (ht : t.height ≤ D) : (s.resolve t).height ≤ D :=
  hs.resolve_induction (P := fun t => t.height ≤ D)
    (fun v t hv _ => h v t hv) ht

/-- Shorter chains keep to it, too. -/
theorem Shallow.shorten (h : s.Shallow D) (hs : s.Acyclic)
    (hsh : s.Shortens s') : s'.Shallow D := by
  intro v t' hv
  obtain ⟨t, ht, rfl | rfl⟩ := hsh.exists_link hv
  · exact h v _ ht
  · exact h.height_resolve hs (Nat.zero_le _)

/-- And so does a link to a type that keeps to it. -/
theorem Shallow.setLink (h : s.Shallow D) (hv : v < s.size)
    (ht : t.height ≤ D) : (s.setLink v t).Shallow D := by
  intro w u hw
  rcases eq_or_link?_of_setLink hv hw with ⟨rfl, rfl⟩ | hw
  · exact ht
  · exact h w u hw

/-- The tree of a variable has at most `D` levels for every link on the
way down. -/
theorem Shallow.depth_assign (h : s.Shallow D) (hs : s.Acyclic) (v : Nat) :
    (s.assign v).depth ≤ s.rank v * D := by
  induction v using hs.induction with
  | step v ih =>
      cases hv : s.link? v with
      | none =>
          rw [assign_of_none hv]
          exact Nat.zero_le _
      | some t =>
          obtain ⟨n, hn⟩ : ∃ n, s.rank v = n + 1 :=
            Nat.exists_eq_succ_of_ne_zero (Nat.ne_of_gt (hs.ranked.pos hv))
          have hbelow : ∀ w ∈ t.vars, (s.assign w).depth ≤ n * D := by
            intro w hw
            have hlt := hs.ranked.lt hv hw
            exact Nat.le_trans (ih w ⟨t, hv, hw⟩)
              (Nat.mul_le_mul_right D (by omega))
          have hle := h v t hv
          have hdepth : (s.tree t).depth ≤ t.height + n * D :=
            Ty.depth_inst_le hbelow
          rw [hs.assign_of_link hv, hn, Nat.succ_mul]
          omega

/-- The depth of a tree is bounded by the height of the links and the
number of variables. -/
theorem Shallow.depth_tree (h : s.Shallow D) (hs : s.Acyclic)
    (ht : t.height ≤ D) : (s.tree t).depth ≤ (s.size + 1) * D := by
  have hvars : ∀ v ∈ t.vars, (s.assign v).depth ≤ s.size * D := by
    intro v _
    exact Nat.le_trans (h.depth_assign hs v)
      (Nat.mul_le_mul_right D rank_le_size)
  have hdepth : (s.tree t).depth ≤ t.height + s.size * D :=
    Ty.depth_inst_le hvars
  rw [Nat.succ_mul]
  omega

-- =============================================== levels of a tree

/-- The tree of `t` stands `d` levels below that of a type that is no
higher than `D`. -/
def Under (s : Store) (D d : Nat) (t : Ty) : Prop :=
  ∃ root : Ty, root.height ≤ D ∧ (s.tree root).Below d (s.tree t)

theorem under_zero (ht : t.height ≤ D) : s.Under D 0 t := ⟨t, ht, .root⟩

/-- The store may grow: the tree stays where it is. -/
theorem Under.grows (h : s.Under D d t) (hs : s.WellFormed)
    (hg : s.Grows s') : s'.Under D d t := by
  obtain ⟨root, hroot, hbelow⟩ := h
  refine ⟨root, hroot, ?_⟩
  rw [hg.tree_eq hs root, hg.tree_eq hs t]
  exact hbelow.subst _

/-- What lies under a type does so behind its links. -/
theorem Under.resolve (h : s.Under D d t) (hs : s.Acyclic) :
    s.Under D d (s.resolve t) := by
  obtain ⟨root, hroot, hbelow⟩ := h
  rw [← hs.tree_resolve t] at hbelow
  exact ⟨root, hroot, hbelow⟩

/-- The element of a list lies one deeper. -/
theorem Under.elem {m : Nat} (h : s.Under D d (.list m t)) :
    s.Under D (d + 1) t := by
  obtain ⟨root, hroot, hbelow⟩ := h
  exact ⟨root, hroot, .elem hbelow⟩

/-- So does the left of an arrow. -/
theorem Under.param {m : Nat} {p r : Ty} (h : s.Under D d (.arrow m p r)) :
    s.Under D (d + 1) p := by
  obtain ⟨root, hroot, hbelow⟩ := h
  exact ⟨root, hroot, .param hbelow⟩

/-- And the right. -/
theorem Under.ret {m : Nat} {p r : Ty} (h : s.Under D d (.arrow m p r)) :
    s.Under D (d + 1) r := by
  obtain ⟨root, hroot, hbelow⟩ := h
  exact ⟨root, hroot, .ret hbelow⟩

/-- No tree of a shallow store goes down further. -/
theorem Under.le (h : s.Under D d t) (hs : s.Acyclic)
    (hshallow : s.Shallow D) : d ≤ (s.size + 1) * D := by
  obtain ⟨root, hroot, hbelow⟩ := h
  have := hbelow.depth_le
  have := hshallow.depth_tree hs hroot
  omega

-- ================================================ the fuel of unify

/-- A sum is at least each of its summands. -/
private theorem le_foldl_add {α : Type} (f : α → Nat) :
    ∀ (l : List α) (n : Nat), n ≤ l.foldl (fun n x => n + f x) n ∧
      ∀ x ∈ l, f x ≤ l.foldl (fun n x => n + f x) n := by
  intro l
  induction l with
  | nil => exact fun n => ⟨Nat.le_refl _, fun x hx => nomatch hx⟩
  | cons a l ih =>
      intro n
      obtain ⟨hle, hmem⟩ := ih (n + f a)
      rw [List.foldl_cons]
      refine ⟨by omega, fun x hx => ?_⟩
      rcases List.mem_cons.1 hx with rfl | hx
      · omega
      · exact hmem x hx

/-- Each link has at most as many constructors as the store has
nodes. -/
theorem size_le_nodes (hv : s.link? v = some t) : t.size ≤ s.nodes := by
  have hmem : some t ∈ s.links.toList := by
    unfold link? at hv
    rw [Array.mem_toList_iff]
    exact Array.mem_of_getElem? (Option.join_eq_some_iff.1 hv)
  have hsum := (le_foldl_add (fun link : Option Ty => link.elim 0 Ty.size)
    s.links.toList 0).2 _ hmem
  unfold nodes
  rw [← Array.foldl_toList]
  exact Nat.le_trans hsum (Nat.le_add_left _ _)

/-- What is at hand at the call bounds the height of every link. -/
theorem shallow_nodes (n : Nat) : s.Shallow (s.nodes + n) := by
  intro v t hv
  have := t.height_lt_size
  have := size_le_nodes hv
  omega

/-- The fuel is more than the levels there are. -/
theorem fuelFor_gt (a b : Ty) :
    (s.size + 1) * (s.nodes + (a.size + b.size)) < s.fuelFor a b := by
  have ha := a.height_lt_size
  have hsize : s.size + 1 ≤ s.nodes + (a.size + b.size) := by
    unfold nodes
    omega
  have hmul := Nat.mul_le_mul_right (s.nodes + (a.size + b.size)) hsize
  simp only [fuelFor, Nat.add_assoc s.nodes]
  omega

-- ============================================ ready for an equation

/-- A store and an equation at some level of the descent: all types at
hand are no higher than `D`, and the fuel reaches below the deepest
level there is. -/
structure Ready (D fuel : Nat) (s : Store) (a b : Ty) : Prop where
  wellFormed : s.WellFormed
  shallow : s.Shallow D
  left : a.Within s.size ∧ a.height ≤ D
  right : b.Within s.size ∧ b.height ≤ D
  reaches : ∃ d, s.Under D d a ∧ (s.size + 1) * D < d + fuel

variable {fuel m m' : Nat} {a b p r p' r' : Ty}

/-- There is fuel left. -/
theorem Ready.pos (h : Ready D fuel s a b) : 0 < fuel := by
  obtain ⟨d, hd, hlt⟩ := h.reaches
  have := hd.le h.wellFormed.acyclic h.shallow
  omega

/-- The call of `unify` is ready. -/
theorem ready_fuelFor (h : s.WellFormed) (ha : a.Within s.size)
    (hb : b.Within s.size) :
    Ready (s.nodes + (a.size + b.size)) (s.fuelFor a b) s a b := by
  have hla := a.height_lt_size
  have hlb := b.height_lt_size
  have hle : a.height ≤ s.nodes + (a.size + b.size) := by omega
  refine ⟨h, shallow_nodes _, ⟨ha, hle⟩, ⟨hb, by omega⟩, 0, under_zero hle, ?_⟩
  rw [Nat.zero_add]
  exact fuelFor_gt a b

/-- Following links at the roots changes nothing. -/
theorem Ready.shorten (h : Ready D fuel s a b) (hsh : s.Shortens s') :
    Ready D fuel s' (s.resolve a) (s.resolve b) := by
  have hs := h.wellFormed
  obtain ⟨d, hd, hlt⟩ := h.reaches
  have hd' : s'.Under D d a := hd.grows hs (Step.shorten hsh).grows
  refine ⟨hsh.wellFormed hs, h.shallow.shorten hs.acyclic hsh, ?_, ?_, d, ?_, ?_⟩
  · rw [hsh.size]
    exact ⟨hs.within_resolve h.left.1,
      h.shallow.height_resolve hs.acyclic h.left.2⟩
  · rw [hsh.size]
    exact ⟨hs.within_resolve h.right.1,
      h.shallow.height_resolve hs.acyclic h.right.2⟩
  · rw [← hsh.resolve hs.acyclic]
    exact hd'.resolve (hsh.acyclic hs.acyclic)
  · rw [hsh.size]
    exact hlt

/-- The store may have grown by links to types no higher than `D`. -/
theorem Ready.grows (h : Ready D fuel s a b) (hg : s.Grows s')
    (hsize : s'.size = s.size) (hshallow : s'.Shallow D) :
    Ready D fuel s' a b := by
  obtain ⟨d, hd, hlt⟩ := h.reaches
  refine ⟨hg.wellFormed h.wellFormed, hshallow, ?_, ?_, d,
    hd.grows h.wellFormed hg, ?_⟩
  · rw [hsize]
    exact h.left
  · rw [hsize]
    exact h.right
  · rw [hsize]
    exact hlt

/-- One level down, to parts that are within the types and no
higher. -/
theorem Ready.down {a' b' : Ty} (h : Ready D (fuel + 1) s a b)
    (hunder : ∀ {d}, s.Under D d a → s.Under D (d + 1) a')
    (ha : a'.Within s.size ∧ a'.height ≤ a.height)
    (hb : b'.Within s.size ∧ b'.height ≤ b.height) :
    Ready D fuel s a' b' := by
  obtain ⟨d, hd, hlt⟩ := h.reaches
  exact ⟨h.wellFormed, h.shallow, ⟨ha.1, Nat.le_trans ha.2 h.left.2⟩,
    ⟨hb.1, Nat.le_trans hb.2 h.right.2⟩, d + 1, hunder hd, by omega⟩

/-- A call on the elements of lists has fuel enough, if the call on the
lists has. -/
theorem Ready.elem (h : Ready D (fuel + 1) s (.list m a) (.list m' b)) :
    Ready D fuel s a b :=
  h.down Under.elem ⟨h.left.1, Nat.le_succ _⟩ ⟨h.right.1, Nat.le_succ _⟩

/-- So has the call on the left of arrows. -/
theorem Ready.param
    (h : Ready D (fuel + 1) s (.arrow m p r) (.arrow m' p' r')) :
    Ready D fuel s p p' := by
  refine h.down Under.param ⟨(Ty.within_arrow.1 h.left.1).1, ?_⟩
    ⟨(Ty.within_arrow.1 h.right.1).1, ?_⟩
  · exact Nat.le_succ_of_le (Nat.le_max_left ..)
  · exact Nat.le_succ_of_le (Nat.le_max_left ..)

/-- And the one on the right. -/
theorem Ready.ret
    (h : Ready D (fuel + 1) s (.arrow m p r) (.arrow m' p' r')) :
    Ready D fuel s r r' := by
  refine h.down Under.ret ⟨(Ty.within_arrow.1 h.left.1).2, ?_⟩
    ⟨(Ty.within_arrow.1 h.right.1).2, ?_⟩
  · exact Nat.le_succ_of_le (Nat.le_max_right ..)
  · exact Nat.le_succ_of_le (Nat.le_max_right ..)

end Store

end InferTrace
