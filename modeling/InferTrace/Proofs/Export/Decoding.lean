/-
An outcome is read back from its JSON text.

Each part of an outcome has a decoder beside its encoder: it looks the
fields up by name, and so does not depend on their order, and takes a
field that was left out for the value that is left out. That gives the
part back (`ofJson?_toJson`), with one exception. A report leaves an
empty node name out, as it does with no name at all, so the node of an
error has to have a name (`Outcome.Exportable`). Nor may the points of a
text make surrogate pairs, which would be read as one character each.

The names of nodes are no part of an expression. They are read beside it
and come in the order of the walk, so that the expression tells which
node each of them is of.

From the text the JSON value is read first. Everything that is written
is plain: it has no doubles, and no object has a key twice. So no text
stands for two values, and what is read does not depend on the layout
(`Outcome.decode_render`).
-/
import InferTrace.Outcome
import InferTrace.Proofs.Expr.Place
import InferTrace.Proofs.Json.RoundTrip

namespace InferTrace

open Text (Points)

variable {α β : Type}

-- ============================================================= parts

namespace Json

/-- The text that a value is. -/
def text? : Json → Option Points
  | .str p => some p
  | _ => none

/-- The string that a value is. -/
def str? (j : Json) : Option String := j.text?.bind Points.string?

/-- A string is read back. -/
@[simp]
theorem str?_str (s : String) : str? (.str s) = some s :=
  Points.string?_ofString s

/-- The whole number that a value is. -/
def int? : Json → Option Int
  | .int n => some n
  | _ => none

/-- The truth value that a value is. -/
def bool? : Json → Option Bool
  | .bool b => some b
  | _ => none

/-- The items of an array, each read by `f`. -/
def items? (f : Json → Option α) : Json → Option (List α)
  | .arr items => items.mapM f
  | _ => none

/-- The fields of an object. -/
def fields? : Json → Option (List (String × Json))
  | .obj fields => some fields
  | _ => none

/-- The field of an object, read by `f`. -/
def field? (key : String) (f : Json → Option α) (j : Json) : Option α :=
  (j.get? key).bind f

/-- A field that may be left out. -/
def optional? (key : String) (f : Json → Option α) (j : Json) :
    Option (Option α) :=
  match j.get? key with
  | none => some none
  | some v => (f v).map some

/-- A value that may be null. -/
def nullable? (f : Json → Option α) : Json → Option (Option α)
  | .null => some none
  | j => (f j).map some

/-- An array is read back if its items are. -/
theorem items?_map {f : Json → Option α} {g : α → Json} {items : List α}
    (h : ∀ x ∈ items, f (g x) = some x) :
    items? f (.arr (items.map g)) = some items := by
  show (items.map g).mapM f = some items
  induction items with
  | nil => rfl
  | cons x items ih =>
      rw [List.map_cons, List.mapM_cons, h x List.mem_cons_self,
        ih fun y hy => h y (List.mem_cons_of_mem _ hy)]
      rfl

/-- What may be null is read back, if no other value is written as null.
-/
theorem nullable?_ofOption {f : Json → Option β} {g : α → Json} {r : α → β}
    {x : Option α} (hnull : ∀ a, g a ≠ .null)
    (h : ∀ a, x = some a → f (g a) = some (r a)) :
    nullable? f (ofOption g x) = some (x.map r) := by
  cases x with
  | none => rfl
  | some a =>
      rw [ofOption, nullable?, h a rfl]
      · rfl
      · exact hnull a

/-- A string that may be null is read back. -/
theorem nullable?_ofOption_str (x : Option String) :
    nullable? str? (ofOption (fun s : String => .str s) x) = some x := by
  have hread : nullable? str? (ofOption (fun s : String => .str s) x)
      = some (x.map id) :=
    nullable?_ofOption (by simp) fun s _ => str?_str s
  rw [hread, Option.map_id, id]

end Json

open Json

-- =========================================================== decoders

namespace Location

def ofJson? (j : Json) : Option Location := do
  return { file := ← j.field? "file" text?
           line := ← j.field? "line" int?
           column := ← j.field? "column" int? }

/-- A place is read back. -/
theorem ofJson?_toJson (l : Location) : ofJson? l.toJson = some l := rfl

end Location

namespace Diagnostic

def ofJson? (j : Json) : Option Diagnostic := do
  return { kind := ← (j.field? "kind" str?).bind Kind.ofText?
           message := ← j.field? "message" str?
           location := ← j.optional? "location" Location.ofJson?
           node := ← j.optional? "node_id" str?
           details := ← (j.optional? "details" fields?).map (·.getD []) }

/-- A report is read back, if its node is not without a name: such a one
is left out. -/
theorem ofJson?_toJson {d : Diagnostic} (h : d.node ≠ some "") :
    ofJson? d.toJson = some d := by
  obtain ⟨kind, message, location, node, details⟩ := d
  have hkind := kind.ofText?_text
  have hnode : ∀ n, node = some n → n ≠ "" := by
    rintro n rfl rfl
    exact h rfl
  cases location <;> cases node <;> cases details <;>
    simp_all [ofJson?, toJson, field?, optional?, get?, List.lookup_cons,
      fields?, Location.ofJson?_toJson]

end Diagnostic

/-- A category is read back from its name. -/
theorem Category.ofText?_text (c : Category) : ofText? c.text = some c := by
  cases c <;> decide

namespace Snapshot

def ofJson? : Json → Option Snapshot :=
  items? fun j => do
    return (← j.field? "name" str?, ← j.field? "value" str?)

/-- A snapshot is read back. -/
theorem ofJson?_toJson (s : Snapshot) : ofJson? (toJson s) = some s :=
  items?_map fun entry _ => by
    simp [field?, get?, List.lookup_cons]

end Snapshot

namespace Event

def ofJson? (j : Json) : Option Event := do
  return { message := ← j.field? "message" str?
           category := ← (j.field? "category" str?).bind Category.ofText?
           snapshot := ← j.field? "type_snapshot" Snapshot.ofJson?
           node := ← j.field? "related_node_id" (nullable? str?) }

/-- An event is read back. -/
theorem ofJson?_toJson (ev : Event) : ofJson? ev.toJson = some ev := by
  simp [ofJson?, toJson, field?, get?, List.lookup_cons,
    ev.category.ofText?_text, Snapshot.ofJson?_toJson, nullable?_ofOption_str]

end Event

namespace Expr

/-- The expression of a kind, given what the node carries and its
parts. -/
def ofParts? (kind : String) (node : Json) : List Expr → Option Expr
  | [] =>
    match kind with
    | "Expr" => some hole
    | "IntLit" => (node.field? "value" int?).map int
    | "BoolLit" => (node.field? "value" bool?).map bool
    | "Var" => (node.field? "name" str?).map var
    | "EmptyList" => some nil
    | _ => none
  | [a] =>
    match kind with
    | "Fun" => (node.field? "param" str?).map (lambda · a)
    | _ => none
  | [a, b] =>
    match kind with
    | "BinOp" => (node.field? "op" str?).map (binary · a b)
    | "Let" => (node.field? "name" str?).map (letIn · a b)
    | "App" => some (app a b)
    | "Cons" => some (cons a b)
    | _ => none
  | [a, b, c] => if kind = "If" then some (ite a b c) else none
  | _ => none

mutual

/-- The expression and the names of its nodes, in the order of the
walk. -/
def ofJson? : Json → Option (Expr × List String)
  | .obj fields => do
    let parts ← partsOf? fields
    let name ← (Json.obj fields).field? "id" str?
    let kind ← (Json.obj fields).field? "kind" str?
    let e ← ofParts? kind (.obj fields) (parts.map Prod.fst)
    return (e, name :: (parts.map Prod.snd).flatten)
  | _ => none

/-- The parts of a node, among its fields. -/
def partsOf? : List (String × Json) → Option (List (Expr × List String))
  | [] => none
  | (key, v) :: fields =>
    if key = "children" then partsIn? v else partsOf? fields

/-- The parts of a node, as an array. -/
def partsIn? : Json → Option (List (Expr × List String))
  | .arr items => partsAmong? items
  | _ => none

/-- The items of that array. -/
def partsAmong? : List Json → Option (List (Expr × List String))
  | [] => some []
  | j :: items => do return (← ofJson? j) :: (← partsAmong? items)

end

/-- What a node carries beside its parts. -/
def payload : Expr → List (String × Json)
  | hole | nil | ite _ _ _ | app _ _ | cons _ _ => []
  | int n => [("value", .int n)]
  | bool b => [("value", .bool b)]
  | var x | letIn x _ _ => [("name", .str x)]
  | binary op _ _ => [("op", .str op)]
  | lambda x _ => [("param", .str x)]

/-- The JSON forms of expressions that stand one after another, from
place `k` on. -/
def rowJson (name : Nat → String) : Nat → List Expr → List Json
  | _, [] => []
  | k, e :: es => e.toJsonAt name k :: rowJson name (k + e.size) es

variable {name : Nat → String} {k : Nat} {e : Expr}

/-- A node is written as its payload and the row of its parts. -/
theorem toJsonAt_eq (name : Nat → String) (k : Nat) (e : Expr) :
    e.toJsonAt name k
      = nodeJson (name k) e e.payload (rowJson name (k + 1) e.children) := by
  cases e <;> rfl

/-- What holds of a node if it holds of its parts holds of all
expressions. -/
theorem induction_children {P : Expr → Prop}
    (h : ∀ e, (∀ c ∈ e.children, P c) → P e) (e : Expr) : P e := by
  induction e <;> apply h <;> simp_all [children]

/-- An expression is put together from its kind, its payload and its
parts. -/
theorem ofParts?_children (x : String) (parts : List Json) (e : Expr) :
    ofParts? e.kind (nodeJson x e e.payload parts) e.children = some e := by
  cases e <;>
    simp [ofParts?, kind, payload, nodeJson, children, field?, get?,
      List.lookup_cons, int?, bool?]

/-- The names of the nodes of an expression whose root stands at place
`k`, in the order of the walk. -/
def namesAt (name : Nat → String) (k : Nat) (e : Expr) : List String :=
  (List.range' k e.size).map name

/-- The parts of a node are found behind what it carries. -/
theorem partsOf?_append (payload : List (String × Json)) {parts : List Json}
    (h : "children" ∉ payload.map Prod.fst) :
    partsOf? (payload ++ [("children", .arr parts)]) = partsAmong? parts := by
  induction payload with
  | nil => simp [partsOf?, partsIn?]
  | cons f payload ih =>
      rw [List.map_cons, List.mem_cons, not_or] at h
      rw [List.cons_append, partsOf?, if_neg (Ne.symm h.1), ih h.2]

/-- A row of parts is read back if each part is, with the names of all
nodes in order. -/
theorem partsAmong?_rowJson {es : List Expr}
    (h : ∀ e ∈ es, ∀ k,
      ofJson? (e.toJsonAt name k) = some (e, e.namesAt name k)) :
    ∀ k, ∃ parts, partsAmong? (rowJson name k es) = some parts ∧
      parts.map Prod.fst = es ∧
      (parts.map Prod.snd).flatten
        = (List.range' k (es.flatMap walk).length).map name := by
  induction es with
  | nil => exact fun k => ⟨[], rfl, rfl, rfl⟩
  | cons e es ih =>
      intro k
      obtain ⟨parts, hparts, hfst, hsnd⟩ :=
        ih (fun d hd => h d (List.mem_cons_of_mem _ hd)) (k + e.size)
      refine ⟨(e, e.namesAt name k) :: parts, ?_, ?_, ?_⟩
      · rw [rowJson, partsAmong?, h e List.mem_cons_self, hparts]
        rfl
      · rw [List.map_cons, hfst]
      · rw [List.map_cons, List.flatten_cons, hsnd, namesAt,
          ← List.map_append, List.flatMap_cons, List.length_append, length_walk,
          ← List.range'_append_1]

/-- An expression and the names of its nodes are read from its JSON
form. -/
theorem ofJson?_toJsonAt (name : Nat → String) (e : Expr) : ∀ k : Nat,
    ofJson? (e.toJsonAt name k) = some (e, e.namesAt name k) := by
  induction e using induction_children with
  | h e ih =>
    intro k
    obtain ⟨parts, hparts, hfst, hsnd⟩ := partsAmong?_rowJson ih (k + 1)
    have hread : partsOf? (("id", .str (name k)) :: ("kind", .str e.kind) ::
        ("label", .str e.label) ::
          (e.payload ++ [("children", .arr (rowJson name (k + 1) e.children))]))
        = some parts := by
      rw [← hparts]
      refine partsOf?_append (_ :: _ :: _ :: e.payload) ?_
      cases e <;> simp [payload]
    have he := ofParts?_children (name k) (rowJson name (k + 1) e.children) e
    rw [toJsonAt_eq]
    unfold nodeJson at he ⊢
    simp only [List.cons_append, List.nil_append] at he ⊢
    rw [ofJson?, hread]
    have hnames : e.namesAt name k
        = name k :: (parts.map Prod.snd).flatten := by
      rw [namesAt, size_eq, Nat.add_comm, List.range'_succ, List.map_cons, hsnd]
    simp [field?, get?, List.lookup_cons, hfst, he, hnames]

/-- The payload of a node is plain. -/
theorem plain_payload (e : Expr) : ∀ f ∈ e.payload, f.2.Plain := by
  cases e <;> simp [payload, Plain.int, Plain.bool, Plain.str]

/-- A row is plain if its parts are. -/
theorem plain_rowJson {es : List Expr}
    (h : ∀ e ∈ es, ∀ k, (e.toJsonAt name k).Plain) :
    ∀ k, ∀ j ∈ rowJson name k es, j.Plain := by
  induction es with
  | nil => simp [rowJson]
  | cons e es ih =>
      intro k j hj
      rcases List.mem_cons.1 hj with rfl | hj
      · exact h e List.mem_cons_self k
      · exact ih (fun d hd => h d (List.mem_cons_of_mem _ hd)) _ j hj

/-- Every expression is written as plain JSON, by induction on it. -/
theorem plain_toJsonAt (name : Nat → String) (e : Expr) :
    ∀ k : Nat, (e.toJsonAt name k).Plain := by
  induction e using induction_children with
  | h e ih =>
    intro k
    rw [toJsonAt_eq, nodeJson]
    apply Plain.obj
    · cases e <;> simp [payload]
    · have hrow := Plain.arr (plain_rowJson ih (k + 1))
      have hpayload := e.plain_payload
      intro f hf
      simp only [List.cons_append, List.nil_append, List.mem_cons,
        List.mem_append, List.not_mem_nil, or_false] at hf
      rcases hf with rfl | rfl | rfl | hf | rfl
      · exact .str _
      · exact .str _
      · exact .str _
      · exact hpayload f hf
      · exact hrow

end Expr

-- =========================================================== outcomes

/-- A place is plain if no points of its file make a pair. -/
theorem Location.plain_toJson {l : Location} (h : l.file.Unpaired) :
    l.toJson.Plain := by
  apply Plain.obj
  · simp
  · simp [Plain.int, Plain.text h]

/-- A report is plain if its place and its details are. -/
theorem Diagnostic.plain_toJson {d : Diagnostic}
    (hfile : ∀ l, d.location = some l → l.file.Unpaired)
    (h : (Json.obj d.details).Plain) : d.toJson.Plain := by
  -- each of three parts may be left out
  have hparts : ∀ {location node details : List (String × Json)},
      (location = [] ∨ ∃ l : Location, l.toJson.Plain ∧
        location = [("location", l.toJson)]) →
      (node = [] ∨ ∃ n : String, node = [("node_id", .str n)]) →
      (details = [] ∨ details = [("details", .obj d.details)]) →
      (Json.obj ([("kind", .str d.kind.text), ("message", .str d.message)]
        ++ location ++ node ++ details)).Plain := by
    rintro _ _ _ (rfl | ⟨l, hl, rfl⟩) (rfl | ⟨n, rfl⟩) (rfl | rfl) <;>
      refine .obj (by simp) ?_ <;> simp_all [Plain.str]
  apply hparts
  · cases hl : d.location with
    | none => exact Or.inl rfl
    | some l => exact Or.inr ⟨l, Location.plain_toJson (hfile l hl), rfl⟩
  · cases d.node with
    | none => exact Or.inl rfl
    | some n =>
        by_cases hn : n = ""
        · exact Or.inl (if_pos hn)
        · exact Or.inr ⟨n, if_neg hn⟩
  · cases d.details with
    | nil => exact Or.inl rfl
    | cons f fields => exact Or.inr rfl

/-- A snapshot is plain. -/
theorem Snapshot.plain_toJson (s : Snapshot) : (toJson s).Plain := by
  apply Plain.arr
  intro j hj
  obtain ⟨entry, -, rfl⟩ := List.mem_map.1 hj
  apply Plain.obj
  · simp
  · simp [Plain.str]

/-- What may be null is plain if it is plain where it is not. -/
theorem plain_ofOption {f : α → Json} {x : Option α}
    (h : ∀ a, x = some a → (f a).Plain) : (Json.ofOption f x).Plain := by
  cases x with
  | none => exact .null
  | some a => exact h a rfl

/-- An event is plain. -/
theorem Event.plain_toJson (ev : Event) : ev.toJson.Plain := by
  apply Plain.obj
  · simp
  · have hnode : (Json.ofOption (fun n : String => .str n) ev.node).Plain :=
      plain_ofOption fun _ _ => .str _
    simp [Plain.str, Snapshot.plain_toJson, hnode]

namespace Outcome

/-- An outcome that can be read back: no points of its texts make a
pair, and in its error, if there is one, the details have names of their
own and nothing but JSON can hold, and the node is not without a name. -/
structure Exportable (o : Outcome) : Prop where
  source : o.source.Unpaired
  file : ∀ d l, o.error = some d → d.location = some l → l.file.Unpaired
  node : ∀ d, o.error = some d → d.node ≠ some ""
  details : ∀ d, o.error = some d → (Json.obj d.details).Plain

/-- The names of the nodes of the expression, in the order of the
walk. -/
def nodeNames (o : Outcome) (name : Nat → String) : List String :=
  (o.ast.map (Expr.namesAt name 0)).getD []

/-- An outcome and the names of its nodes. -/
def ofJson? (j : Json) : Option (Outcome × List String) := do
  let ast ← j.field? "ast" (nullable? Expr.ofJson?)
  let o : Outcome :=
    { source := ← j.field? "source" text?
      ast := ast.map Prod.fst
      type := ← j.field? "type" (nullable? str?)
      error := ← j.field? "error" (nullable? Diagnostic.ofJson?)
      trace := ← j.field? "trace" (items? Event.ofJson?)
      typeVars := ← j.field? "type_variables" Snapshot.ofJson? }
  return (o, (ast.map Prod.snd).getD [])

/-- The outcome that a text stands for, and the names of its nodes. -/
def decode (text : String) : Option (Outcome × List String) :=
  (Json.decode text).bind ofJson?

variable {o : Outcome}

/-- An outcome that can be exported is read back, with the names of the
nodes. -/
theorem ofJson?_toJson (h : o.Exportable) (name : Nat → String) :
    ofJson? (o.toJson name) = some (o, o.nodeNames name) := by
  have hast : nullable? Expr.ofJson?
      (Json.ofOption (fun e : Expr => e.toJson name) o.ast)
      = some (o.ast.map fun e => (e, e.namesAt name 0)) := by
    refine nullable?_ofOption (fun e => ?_) fun e _ => e.ofJson?_toJsonAt name 0
    simp [Expr.toJson, Expr.toJsonAt_eq, Expr.nodeJson]
  have herror : nullable? Diagnostic.ofJson?
      (Json.ofOption Diagnostic.toJson o.error) = some (o.error.map id) := by
    refine nullable?_ofOption (fun d => ?_) fun d hd => ?_
    · simp [Diagnostic.toJson]
    · exact Diagnostic.ofJson?_toJson (h.node d hd)
  have htrace : items? Event.ofJson? (.arr (o.trace.map Event.toJson))
      = some o.trace :=
    items?_map fun ev _ => ev.ofJson?_toJson
  simp [ofJson?, toJson, field?, get?, List.lookup_cons, text?, hast, herror,
    htrace, nullable?_ofOption_str, Snapshot.ofJson?_toJson, nodeNames,
    Function.comp_def]

/-- And it is plain. -/
theorem plain_toJson (h : o.Exportable) (name : Nat → String) :
    (o.toJson name).Plain := by
  apply Plain.obj
  · simp
  · have htype : (Json.ofOption (fun t : String => .str t) o.type).Plain :=
      plain_ofOption fun _ _ => .str _
    have herror : (Json.ofOption Diagnostic.toJson o.error).Plain :=
      plain_ofOption fun d hd =>
        Diagnostic.plain_toJson (h.file d · hd) (h.details d hd)
    have hast : (Json.ofOption (fun e : Expr => e.toJson name) o.ast).Plain :=
      plain_ofOption fun e _ => e.plain_toJsonAt name 0
    have htrace : (Json.arr (o.trace.map Event.toJson)).Plain := by
      apply Plain.arr
      intro j hj
      obtain ⟨ev, -, rfl⟩ := List.mem_map.1 hj
      exact ev.plain_toJson
    simp [Plain.text h.source, Plain.bool, htype, herror, hast, htrace,
      Snapshot.plain_toJson]

/-- What was written is read back, in every layout. -/
theorem decode_render (h : o.Exportable) (name : Nat → String)
    (indent : Option Nat) {b : String}
    (hb : ∀ c ∈ b.toList, isSpace c = true) :
    decode ((o.toJson name).render indent ++ b)
      = some (o, o.nodeNames name) := by
  rw [decode, (plain_toJson h name).decode_render indent hb]
  exact ofJson?_toJson h name

end Outcome

end InferTrace
