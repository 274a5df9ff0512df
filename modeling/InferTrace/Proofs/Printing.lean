/-
A printed type tells which type it is.

The text of a type is written by following links (`Prints`): a variable
with a link is written as its link is, and whether a parameter stands in
parentheses depends on where its links end. In a store without cycles
that is the text of the tree (`Acyclic.prints_iff`), so types with one
tree have one text, however their links are chained.

The other way round, the text of a tree can be read in one way only, and
that is true of a text with something behind it as well: the letters
that belong to the type are known, and so is the rest (`Splits`). That is
what an induction needs. What may stand behind a type is limited. After a
name no digit may come, or `T1` would be the beginning of `T10`; and
after a type that is not in parentheses no arrow may come, or it would be
the parameter of another (`SplitsEnclosed`, `Splits`).

All base types have the same text. So trees with the same text are equal
up to that (`unmarked`), and equal if there is no base type in them.
-/
import InferTrace.Proofs.History
import InferTrace.Proofs.Trace.Replay
import InferTrace.Proofs.Trace.Script

namespace InferTrace

-- ====================================================== following links

namespace Store

variable {s : Store} {a : Ty} {x : String}

/-- With every link followed, the text of the type is `x`. -/
inductive Prints (s : Store) : Ty → String → Prop
  | int : Prints s .int "Int"
  | bool : Prints s .bool "Bool"
  | base {m : Nat} : Prints s (.base m) "Unknown"
  | free {v : Nat} : s.link? v = none → Prints s (.var v) (s.name v)
  | linked {v : Nat} {a : Ty} {x : String} : s.link? v = some a →
      Prints s a x → Prints s (.var v) x
  | list {m : Nat} {a : Ty} {x : String} : Prints s a x →
      Prints s (.list m a) ("[" ++ x ++ "]")
  | arrow {m : Nat} {p r : Ty} {x y : String} : Prints s p x →
      Prints s r y → Prints s (.arrow m p r)
        ((if (s.resolve p).head? = some .arrow then "(" ++ x ++ ")" else x)
          ++ " -> " ++ y)

/-- The tree of a type is an arrow exactly if its links end in one. -/
theorem Acyclic.isArrow_tree (h : s.Acyclic) (a : Ty) :
    (s.tree a).isArrow = true ↔ (s.resolve a).head? = some .arrow := by
  have hend := h.isLinked_resolve a
  rw [← h.tree_resolve a]
  generalize s.resolve a = r at hend ⊢
  cases r with
  | var v =>
      have htree : s.tree (.var v) = .var v :=
        assign_of_none (isBound_eq_false_iff.1 hend)
      simp [htree, Tree.isArrow, Ty.head?]
  | _ => simp [tree, Ty.inst, Tree.isArrow, Ty.head?]

/-- The text of an arrow; what comes before it is in parentheses if it
ends in an arrow itself. -/
theorem Acyclic.render_arrow (h : s.Acyclic) (m : Nat) (p r : Ty) :
    s.render (.arrow m p r)
      = (if (s.resolve p).head? = some .arrow
          then "(" ++ s.render p ++ ")" else s.render p)
        ++ " -> " ++ s.render r := by
  have harrow := h.isArrow_tree p
  by_cases hp : (s.resolve p).head? = some .arrow
  · rw [if_pos hp]
    show (if (s.tree p).isArrow then _ else _) ++ " -> " ++ _ = _
    rw [if_pos (harrow.2 hp)]
    rfl
  · rw [if_neg hp]
    show (if (s.tree p).isArrow then _ else _) ++ " -> " ++ _ = _
    rw [if_neg (mt harrow.1 hp)]
    rfl

/-- A type can be printed if its variables can. -/
theorem Acyclic.prints_render (h : s.Acyclic)
    (hvars : ∀ v ∈ a.vars, s.Prints (.var v) (s.render (.var v))) :
    s.Prints a (s.render a) := by
  induction a with
  | int => exact .int
  | bool => exact .bool
  | base m => exact .base
  | var v => exact hvars v (List.mem_singleton.2 rfl)
  | list m a ih => exact .list (ih hvars)
  | arrow m p r ihp ihr =>
      rw [h.render_arrow]
      apply Prints.arrow
      · exact ihp fun v hv => hvars v (List.mem_append_left _ hv)
      · exact ihr fun v hv => hvars v (List.mem_append_right _ hv)

/-- A variable with a link is shown as what it is linked to. -/
theorem Acyclic.render_of_link (h : s.Acyclic) {v : Nat}
    (hv : s.link? v = some a) : s.render (.var v) = s.render a := by
  unfold render
  rw [show s.tree (.var v) = s.tree a from h.assign_of_link hv]

/-- A variable without a link is shown by its name. -/
theorem render_of_none {v : Nat} (h : s.link? v = none) :
    s.render (.var v) = s.name v := by
  unfold render tree
  rw [Ty.inst, assign_of_none h]
  rfl

/-- The text of a variable is printed along its links; by induction on
the rank. -/
theorem Acyclic.prints_var (h : s.Acyclic) (v : Nat) :
    s.Prints (.var v) (s.render (.var v)) := by
  -- along links, from the variables without one upwards
  induction v using h.induction with
  | _ v ih =>
  cases hv : s.link? v with
  | none =>
      rw [render_of_none hv]
      exact .free hv
  | some a =>
      rw [h.render_of_link hv]
      exact .linked hv (h.prints_render fun w hw => ih w ⟨a, hv, hw⟩)

/-- In a store without cycles each type is printed, in one way. -/
theorem Acyclic.prints_iff (h : s.Acyclic) :
    s.Prints a x ↔ x = s.render a := by
  constructor
  · intro hx
    induction hx with
    | int | bool | base => rfl
    | free hv => exact (render_of_none hv).symm
    | linked hv _ ih => exact ih.trans (h.render_of_link hv).symm
    | list _ ih =>
        rw [ih]
        rfl
    | arrow _ _ ihp ihr => rw [h.render_arrow, ihp, ihr]
  · intro hx
    rw [hx]
    exact h.prints_render fun v _ => h.prints_var v

end Store

-- ============================================================== letters

namespace Tree

/-- The letters of a tree whose variables are named `T` and their
number. -/
def letters : Tree → List Char
  | int => ['I', 'n', 't']
  | bool => ['B', 'o', 'o', 'l']
  | base _ => ['U', 'n', 'k', 'n', 'o', 'w', 'n']
  | var v => 'T' :: Nat.toDigits 10 v
  | list t => '[' :: (t.letters ++ [']'])
  | arrow p r =>
    (if p.isArrow then '(' :: (p.letters ++ [')']) else p.letters)
      ++ ' ' :: '-' :: '>' :: ' ' :: r.letters

/-- The letters of a tree where it is a parameter. -/
def enclosed (τ : Tree) : List Char :=
  if τ.isArrow then '(' :: (τ.letters ++ [')']) else τ.letters

/-- The letters of an arrow, part by part. -/
theorem letters_arrow (π ρ : Tree) : (arrow π ρ).letters
    = π.enclosed ++ ' ' :: '-' :: '>' :: ' ' :: ρ.letters := rfl

/-- Only an arrow is enclosed. -/
theorem enclosed_of_not_isArrow {τ : Tree} (h : τ.isArrow = false) :
    τ.enclosed = τ.letters := by
  unfold enclosed
  rw [h]
  rfl

/-- With the usual names, the text of a tree is its letters. -/
theorem toList_render {s : Store} (hstem : s.stem = "T") (τ : Tree) :
    (τ.render s.name).toList = τ.letters := by
  induction τ with
  | int | bool | base m => simp [render, letters]
  | var v =>
      rw [render, Store.name, hstem, String.toList_append,
        Store.toList_toString]
      rfl
  | list τ ih => simp [render, letters, ih]
  | arrow π ρ ihp ihr =>
      rw [render, letters, String.toList_append, String.toList_append, ihr]
      by_cases harrow : π.isArrow
      · simp [harrow, ihp]
      · simp [harrow, ihp]

/-- The tree with all its base types made one. -/
def unmarked : Tree → Tree
  | base _ => .base 0
  | list t => .list t.unmarked
  | arrow p r => .arrow p.unmarked r.unmarked
  | t => t

/-- There is no base type in the tree. -/
def Plain : Tree → Prop
  | base _ => False
  | list t => t.Plain
  | arrow p r => p.Plain ∧ r.Plain
  | _ => True

theorem isArrow_unmarked (τ : Tree) : τ.unmarked.isArrow = τ.isArrow := by
  cases τ <;> rfl

/-- Letters do not tell marks. -/
theorem letters_unmarked (τ : Tree) : τ.unmarked.letters = τ.letters := by
  induction τ with
  | int | bool | base m | var v => rfl
  | list τ ih => rw [unmarked, letters, letters, ih]
  | arrow π ρ ihp ihr =>
      rw [unmarked, letters, letters, ihp, ihr, isArrow_unmarked]

/-- A tree without base types has no marks to lose. -/
theorem Plain.eq_of_unmarked {σ τ : Tree} (h : σ.Plain)
    (heq : σ.unmarked = τ.unmarked) : σ = τ := by
  induction σ generalizing τ with
  | base m => exact h.elim
  | int | bool | var v =>
      cases τ with
      | base m => cases heq
      | _ => simp_all [unmarked]
  | list σ ih =>
      cases τ with
      | list τ => rw [ih h (list.inj heq)]
      | _ => cases heq
  | arrow π ρ ihp ihr =>
      cases τ with
      | arrow π' ρ' =>
          obtain ⟨hp, hr⟩ := arrow.inj heq
          rw [ihp h.1 hp, ihr h.2 hr]
      | _ => cases heq

-- ============================================================= one way

/-- What comes first is neither a digit nor the blank before an arrow. -/
def Closing (x : List Char) : Prop :=
  ∀ c ∈ x.head?, c.isDigit = false ∧ c ≠ ' '

theorem Closing.noDigit {x : List Char} (h : Closing x) : NoDigit x :=
  fun c hc => (h c hc).1

/-- The letters of the tree can be told from what comes behind them. -/
def Splits (σ : Tree) : Prop :=
  ∀ (τ : Tree) (x y : List Char), Closing x → Closing y →
    σ.letters ++ x = τ.letters ++ y → σ.unmarked = τ.unmarked ∧ x = y

/-- The same where the tree is a parameter: an arrow may come behind. -/
def SplitsEnclosed (σ : Tree) : Prop :=
  ∀ (τ : Tree) (x y : List Char), NoDigit x → NoDigit y →
    σ.enclosed ++ x = τ.enclosed ++ y → σ.unmarked = τ.unmarked ∧ x = y

variable {σ π ρ : Tree}

/-- An arrow is put in parentheses, and nothing else begins with one. -/
theorem enclosed_of_paren {τ : Tree} {x y : List Char}
    (h : '(' :: x = τ.enclosed ++ y) :
    τ.isArrow = true ∧ x = τ.letters ++ ')' :: y := by
  cases τ with
  | arrow π ρ => simpa [enclosed, isArrow] using h
  | _ => simp [enclosed, isArrow, letters] at h

/-- A tree that is no arrow stands without parentheses as a parameter,
so what may come behind it there may come behind it anywhere. -/
theorem SplitsEnclosed.splits (h : σ.SplitsEnclosed)
    (hσ : σ.isArrow = false) : σ.Splits := by
  intro τ x y hx hy heq
  rw [← enclosed_of_not_isArrow hσ] at heq
  cases hτ : τ.isArrow with
  | false =>
      rw [← enclosed_of_not_isArrow hτ] at heq
      exact h τ x y hx.noDigit hy.noDigit heq
  | true =>
      -- then `σ` is the parameter of `τ`, and an arrow comes behind it
      cases τ with
      | arrow π ρ =>
          rw [letters_arrow, List.append_assoc] at heq
          obtain ⟨-, hrest⟩ := h π _ _ hx.noDigit (by simp [NoDigit]) heq
          rw [hrest] at hx
          simp [Closing] at hx
      | _ => cases hτ

/-- An arrow in parentheses splits off where the arrow does. -/
theorem Splits.enclosed (h : σ.Splits) (hσ : σ.isArrow = true) :
    σ.SplitsEnclosed := by
  intro τ x y _ _ heq
  rw [show σ.enclosed = '(' :: (σ.letters ++ [')']) from if_pos hσ,
    List.cons_append, List.append_assoc] at heq
  obtain ⟨-, hletters⟩ := enclosed_of_paren heq
  obtain ⟨htree, hrest⟩ :=
    h τ _ _ (by simp [Closing]) (by simp [Closing]) hletters
  exact ⟨htree, (List.cons.inj hrest).2⟩

/-- The name of a variable ends with its digits. -/
theorem splitsEnclosed_var (v : Nat) : (var v).SplitsEnclosed := by
  intro τ x y hx hy heq
  cases τ with
  | var w =>
      obtain ⟨hvw, hxy⟩ := toDigits_append_inj hx hy (List.cons.inj heq).2
      exact ⟨congrArg var hvw, hxy⟩
  | _ => simp [Tree.enclosed, isArrow, letters] at heq

/-- A list ends at its bracket. -/
theorem Splits.list (h : σ.Splits) : (list σ).SplitsEnclosed := by
  intro τ x y _ _ heq
  cases τ with
  | list τ =>
      have hletters : σ.letters ++ ']' :: x = τ.letters ++ ']' :: y := by
        simpa [Tree.enclosed, isArrow, letters] using heq
      obtain ⟨htree, hrest⟩ :=
        h τ _ _ (by simp [Closing]) (by simp [Closing]) hletters
      exact ⟨congrArg Tree.list htree, (List.cons.inj hrest).2⟩
  | _ => simp [Tree.enclosed, isArrow, letters] at heq

/-- An arrow splits at its sign, and then behind what is to the right.
-/
theorem SplitsEnclosed.arrow (hp : π.SplitsEnclosed) (hr : ρ.Splits) :
    (arrow π ρ).Splits := by
  intro τ x y hx hy heq
  rw [letters_arrow, List.append_assoc] at heq
  cases hτ : τ.isArrow with
  | false =>
      -- then `τ` is the parameter `π`, and an arrow comes behind it
      rw [← enclosed_of_not_isArrow hτ] at heq
      obtain ⟨-, hrest⟩ := hp τ _ _ (by simp [NoDigit]) hy.noDigit heq
      rw [← hrest] at hy
      simp [Closing] at hy
  | true =>
      cases τ with
      | arrow π' ρ' =>
          rw [letters_arrow, List.append_assoc] at heq
          obtain ⟨hparam, hrest⟩ :=
            hp π' _ _ (by simp [NoDigit]) (by simp [NoDigit]) heq
          obtain ⟨hresult, hxy⟩ := hr ρ' x y hx hy (by simpa using hrest)
          exact ⟨congrArg₂ Tree.arrow hparam hresult, hxy⟩
      | _ => cases hτ

/-- Both by induction: a list and a parameter in parentheses lead from
the one to the other, and a parameter without them back. -/
theorem splits (σ : Tree) : σ.SplitsEnclosed ∧ σ.Splits := by
  have hleaf : ∀ {σ : Tree}, σ.isArrow = false → σ.SplitsEnclosed →
      σ.SplitsEnclosed ∧ σ.Splits := fun hσ h => ⟨h, h.splits hσ⟩
  induction σ with
  | int | bool | base m =>
      apply hleaf rfl
      intro τ x y _ _ heq
      cases τ <;> simp_all [enclosed, isArrow, letters, unmarked]
  | var v => exact hleaf rfl (splitsEnclosed_var v)
  | list σ ih => exact hleaf rfl ih.2.list
  | arrow π ρ ihp ihr =>
      have harrow := ihp.1.arrow ihr.2
      exact ⟨harrow.enclosed rfl, harrow⟩

/-- Trees with the same letters are the same up to marks. -/
theorem letters_eq_iff {τ : Tree} :
    σ.letters = τ.letters ↔ σ.unmarked = τ.unmarked := by
  constructor
  · intro h
    have hnil : Closing [] := by simp [Closing]
    exact ((splits σ).2 τ [] [] hnil hnil (by rw [h])).1
  · intro h
    rw [← letters_unmarked, h, letters_unmarked]

end Tree

-- =========================================================== the result

/-- In stores without cycles whose variables are named `T` and their
number, the text of a type is what following the links prints. Two types
have the same text exactly if their trees differ in nothing but which
base types stand in them; and, if there is none in the first, exactly if
both resolve to the same tree. The stores need not be the same. -/
theorem render_eq_render_iff {s s' : Store} (h : s.Acyclic)
    (h' : s'.Acyclic) (hstem : s.stem = "T") (hstem' : s'.stem = "T")
    (a b : Ty) :
    (∀ x, s.Prints a x ↔ x = s.render a) ∧
      (s.render a = s'.render b ↔
        (s.tree a).unmarked = (s'.tree b).unmarked) ∧
      ((s.tree a).Plain →
        (s.render a = s'.render b ↔
          ∃ τ, s.Resolves a τ ∧ s'.Resolves b τ)) := by
  have htext : s.render a = s'.render b ↔
      (s.tree a).unmarked = (s'.tree b).unmarked := by
    rw [← Tree.letters_eq_iff, ← Tree.toList_render hstem,
      ← Tree.toList_render hstem', String.toList_inj]
    rfl
  refine ⟨fun x => h.prints_iff, htext, fun hplain => ?_⟩
  simp only [h.resolves_iff, h'.resolves_iff, exists_eq_left]
  constructor
  · intro hab
    exact hplain.eq_of_unmarked (htext.1 hab)
  · intro hab
    exact htext.2 (congrArg Tree.unmarked hab)

/-- A parameter at the end of a chain of two links, and the same type
with the chain cut short. It is not taken for the type that differs from
it in where the parentheses stand. -/
theorem render_eq_render_iff_chained :
    Store.chained.Prints (.fn (.fn (.var 3) .int) (.var 2))
        "([T0] -> Int) -> T2" ∧
      Store.chained.render (.fn (.fn (.var 3) .int) (.var 2))
        = (Store.chained.prune (.var 3)).2.render
            (.fn (.fn (.listOf (.var 0)) .int) (.var 2)) ∧
      Store.chained.render (.fn (.fn (.var 3) .int) (.var 2))
        ≠ Store.chained.render (.fn (.var 3) (.fn .int (.var 2))) := by
  have h : Store.chained.WellFormed := by decide
  have h' : (Store.chained.prune (.var 3)).2.WellFormed := by decide
  have htree : Store.chained.tree (.fn (.fn (.var 3) .int) (.var 2))
      = .arrow (.arrow (.list (.var 0)) .int) (.var 2) := by decide
  have hplain : (Store.chained.tree
      (.fn (.fn (.var 3) .int) (.var 2))).Plain := by
    rw [htree]
    simp [Tree.Plain]
  obtain ⟨hprints, -, hsame⟩ := render_eq_render_iff h.acyclic h'.acyclic
    rfl rfl (.fn (.fn (.var 3) .int) (.var 2))
    (.fn (.fn (.listOf (.var 0)) .int) (.var 2))
  obtain ⟨-, hother, -⟩ := render_eq_render_iff h.acyclic h.acyclic rfl rfl
    (.fn (.fn (.var 3) .int) (.var 2)) (.fn (.var 3) (.fn .int (.var 2)))
  refine ⟨(hprints _).2 (by decide), (hsame hplain).2 ?_, mt hother.1 ?_⟩
  · refine ⟨_, h.acyclic.resolves_iff.2 rfl, ?_⟩
    exact h'.acyclic.resolves_iff.2 (by decide)
  · decide

end InferTrace
