/-
The value of a YAML document.

A mapping takes over the entries of the mappings under its key `<<`; of two entries with one key
the last value stays. Lists, sets and mappings are no keys.

A document is gone through level by level: the scalars that stand directly in a list or mapping
are read together, before the lists and mappings beside them are entered. The first fault on
that way is the fault of the document. Without one, every node has a value.

A mapping takes entries over when it is entered, after the mappings that it takes them from have
done the same. The key `<<` is cut from a mapping before its value is looked at, so mappings that
take over from each other come to an end. The key `=`, under which a mapping has a default, is a
string from the time its mapping is entered, also where it is recalled.
-/
import InferTrace.Config.SetOrder
import InferTrace.Yaml.Atom
import InferTrace.Yaml.Node

namespace InferTrace.Yaml

open Config (ReadFault Value)

-- =============================================================== nodes

mutual

/-- The lists and mappings of a node, by number. -/
def Node.collections : Node → List (Nat × Node)
  | .scalar _ _ _ | .recalled _ => []
  | .list id tag items => (id, .list id tag items) :: itemCollections items
  | .mapping id tag entries => (id, .mapping id tag entries) :: entryCollections entries

/-- The lists and mappings inside a list. -/
def itemCollections : List Node → List (Nat × Node)
  | [] => []
  | n :: rest => n.collections ++ itemCollections rest

/-- The lists and mappings inside a mapping. -/
def entryCollections : List (Node × Node) → List (Nat × Node)
  | [] => []
  | (k, v) :: rest => k.collections ++ v.collections ++ entryCollections rest

end

/-- The number of a node. -/
def Node.id : Node → Nat
  | .scalar id _ _ | .list id _ _ | .mapping id _ _ | .recalled id => id

/-- The tag of a node. -/
def Node.tag : Node → Tag
  | .scalar _ tag _ | .list _ tag _ | .mapping _ tag _ => tag
  | .recalled _ => .null

/-- The node with another tag. -/
def Node.withTag (tag : Tag) : Node → Node
  | .scalar id _ text => .scalar id tag text
  | .list id _ items => .list id tag items
  | .mapping id _ entries => .mapping id tag entries
  | .recalled id => .recalled id

/-- The node is a scalar. -/
def Node.isScalar : Node → Bool
  | .scalar _ _ _ => true
  | _ => false

/-- The entries of a mapping; other nodes have none. -/
def Node.entries : Node → List (Node × Node)
  | .mapping _ _ entries => entries
  | _ => []

/-- The tag is that of a list, a set or a mapping. -/
def Tag.isCollection : Tag → Bool
  | seq | map | set | omap | pairs => true
  | _ => false

/-- A document: its node, and all lists and mappings by number. With the time it gets the entries
of the mappings that were changed by merging, the keys that became strings, and the values of
the lists and mappings that were read as scalars. -/
structure Document where
  root : Node
  collections : List (Nat × Node)
  merged : List (Nat × List (Node × Node)) := []
  strings : List Nat := []
  atoms : List (Nat × Value) := []

namespace Document

/-- The document of a node. -/
def ofNode (root : Node) : Document := { root, collections := root.collections }

/-- A node as it is now: one that is recalled is found by its number. -/
def resolve (d : Document) (n : Node) : Node :=
  let n := match n with
    | .recalled id => (d.collections.lookup id).getD n
    | n => n
  let n := if n.tag = .value ∧ n.id ∈ d.strings then n.withTag .str else n
  match n with
  | .mapping id tag entries => .mapping id tag ((d.merged.lookup id).getD entries)
  | n => n

/-- The entries of a mapping as they are now. -/
def entriesOf (d : Document) (id : Nat) : List (Node × Node) := (d.resolve (.recalled id)).entries

/-- Replace the entries of a mapping. -/
def setEntries (d : Document) (id : Nat) (entries : List (Node × Node)) : Document :=
  { d with merged := (id, entries) :: d.merged }

-- ============================================================= merging

/-- The value of the first key `<<`, and the entries without it. -/
def cutMerge (d : Document) : List (Node × Node) → Option (Node × List (Node × Node))
  | [] => none
  | (k, v) :: rest =>
    if (d.resolve k).tag = .merge then some (v, rest)
    else (d.cutMerge rest).map fun (source, rest) => (source, (k, v) :: rest)

/-- Make strings of the keys of defaults. -/
def nameDefaults (d : Document) (entries : List (Node × Node)) : Document :=
  let keys := (entries.map fun (k, _) => d.resolve k).filter fun k => k.tag = .value
  { d with strings := keys.map Node.id ++ d.strings }

end Document

/-- Going through a document. -/
abbrev Visit := StateT Document (Except ReadFault)

namespace Visit

/-- Let a mapping take over what `collect` finds for it. The result is all that it has then. -/
def mergeWith (collect : Nat → Visit (List (Node × Node))) (n : Node) :
    Visit (List (Node × Node)) := do
  match (← get).resolve n with
  | .mapping id _ _ =>
    let taken ← collect id
    let d ← get
    let entries := taken ++ d.entriesOf id
    set ((d.setEntries id entries).nameDefaults entries)
    return entries
  | _ => throw .malformed

/-- Cut the keys `<<` from a mapping one by one, and collect the entries of the mappings under
them. Of a list of mappings the first wins, so it comes last. There are at most `fuel` such keys
in the document. -/
def collect : Nat → Nat → Visit (List (Node × Node))
  | 0, _ => return []
  | fuel + 1, id => do
    let d ← get
    match d.cutMerge (d.entriesOf id) with
    | none => return []
    | some (source, rest) =>
      set (d.setEntries id rest)
      let sources := match d.resolve source with
        | .list _ _ items => items
        | n => [n]
      let taken ← sources.mapM (mergeWith (collect fuel))
      return taken.reverse.flatten ++ (← collect fuel id)

/-- Let a mapping take over the entries of the mappings under its keys `<<`. -/
def merge (n : Node) : Visit (List (Node × Node)) := do
  let fuel := (← get).collections.foldl (fun total (_, n) => total + n.entries.length) 0
  mergeWith (collect fuel) n

end Visit

-- ============================================================== faults

namespace Document

/-- The text of a node that is to be read as a scalar. A mapping gives that of its default. -/
def text (d : Document) : Nat → Node → Except ReadFault Text.Points
  | _, .scalar _ _ text => .ok text
  | 0, _ => .error .tooDeep
  | fuel + 1, n =>
    match n.entries.find? fun (k, _) => (d.resolve k).tag = .value with
    | some (_, v) => d.text fuel (d.resolve v)
    | none => .error .malformed

/-- The text of a node that is to be read as a scalar. -/
def textOf (d : Document) (n : Node) : Except ReadFault Text.Points :=
  d.text (d.collections.length + 1) n

/-- The value of a node with the tag of a scalar. It is settled when it is read first. -/
def atom (d : Document) (n : Node) : Except ReadFault Value :=
  match d.atoms.lookup n.id with
  | some value => .ok value
  | none => do
    let text ← d.textOf n
    if n.tag = .timestamp ∧ !n.isScalar then throw (.scalar .timeInMapping)
    else Yaml.atom n.tag text

/-- Keep the value of a node that was read as a scalar. A scalar has the same value always. -/
def keep (d : Document) (n : Node) (value : Value) : Document :=
  if n.isScalar then d else { d with atoms := (n.id, value) :: d.atoms }

/-- The key and the value of a pair, which is a mapping with one entry. -/
def pair? (d : Document) (n : Node) : Option (Node × Node) :=
  match d.resolve n with
  | .mapping _ _ [entry] => some entry
  | _ => none

end Document

namespace Visit

/-- Read a node as far as its surroundings need it. What is left to be entered is the result. -/
def meet (n : Node) : Visit (List Node) := do
  let d ← get
  let n := d.resolve n
  if n.tag.isCollection then return [n]
  else
    set (d.keep n (← d.atom n))
    return []

/-- Read the key and the value of an entry as far as the mapping needs them. -/
def meetEntry (entry : Node × Node) : Visit (List Node) := do
  let key ← meet entry.1
  if key.isEmpty then meet entry.2 else throw .malformed

/-- Read the key and the value of a pair. -/
def meetPair (n : Node) : Visit (List Node) := do
  match (← get).pair? n with
  | some (k, v) => return (← meet k) ++ (← meet v)
  | none => throw .malformed

/-- Enter a list, a set or a mapping: read what stands in it. The node has to be what its tag
says. -/
def enter (n : Node) : Visit (List Node) := do
  match n with
  | .list _ .seq items => return (← items.mapM meet).flatten
  | .list _ .omap items | .list _ .pairs items => return (← items.mapM meetPair).flatten
  | .mapping _ .map _ | .mapping _ .set _ => return (← (← merge n).mapM meetEntry).flatten
  | _ => throw .malformed

/-- Enter the nodes of a level that were not entered before. The result is the next level, and
the numbers of all that were entered. -/
def enterLevel : List Nat → List Node → Visit (List Node × List Nat)
  | entered, [] => return ([], entered)
  | entered, n :: rest => do
    if entered.contains n.id then enterLevel entered rest
    else
      let found ← enter n
      let (next, entered) ← enterLevel (n.id :: entered) rest
      return (found ++ next, entered)

/-- Enter level after level. Every level but the last enters a node for the first time. -/
def enterLevels : Nat → List Nat → List Node → Visit Unit
  | 0, _, _ | _, _, [] => return
  | fuel + 1, entered, level => do
    let (next, entered) ← enterLevel entered level
    enterLevels fuel entered next

/-- Go through the whole document. -/
def check : Visit Unit := do
  let d ← get
  enterLevels (d.collections.length + 1) [] (← meet d.root)

end Visit

-- ============================================================== values

/-- The value of a node, and whether some of it is left out because it stands inside itself.
What is not a number equals nothing but itself, unless it is called by its name; it has the number
of its node. -/
structure Shown where
  value : Value
  cut : Bool := false
  own : Option Nat := none

/-- Two values are one key. -/
def Shown.sameKey (a b : Shown) : Bool := a.value.key? = b.value.key? && a.own = b.own

/-- Values by number. Only those of which nothing is left out are kept, for they are the same
wherever the node stands. -/
abbrev Shows := StateM (List (Nat × Value))

namespace Document

/-- The value of a pair of nodes. -/
def showEntry (inner : Node → Shows Shown) (entry : Node × Node) : Shows (Shown × Shown) := do
  return (← inner entry.1, ← inner entry.2)

/-- Some of these entries are left out. -/
def anyCut (entries : List (Shown × Shown)) : Bool := entries.any fun (k, v) => k.cut || v.cut

/-- Put an entry: a key that is already there keeps its place and takes the new value. -/
def putShown (key value : Shown) : List (Shown × Shown) → List (Shown × Shown)
  | [] => [(key, value)]
  | (k, v) :: rest =>
    if k.sameKey key then (k, value) :: rest else (k, v) :: putShown key value rest

/-- The entries of a mapping, of which the last with a key counts. -/
def gather (entries : List (Shown × Shown)) : List (Value × Value) :=
  (entries.foldl (fun m (k, v) => putShown k v m) []).map fun (k, v) => (k.value, v.value)

/-- The value of a node with the tag of a scalar. -/
def showAtom (d : Document) (n : Node) : Shown :=
  let value := (d.atom n).toOption.getD .null
  match value with
  | .float .nan =>
    let named := (d.textOf n).toOption.any namesNan
    { value, own := if named then none else some n.id }
  | value => { value }

/-- The value of a node, given the values of those inside it, in a document without faults. -/
def showWith (d : Document) (inner : Node → Shows Shown) (n : Node) : Shows Shown := do
  match n with
  | .list _ .seq items =>
    let items ← items.mapM inner
    return { value := .list (items.map Shown.value), cut := items.any Shown.cut }
  | .list _ .omap items | .list _ .pairs items =>
    let entries ← (items.filterMap d.pair?).mapM (showEntry inner)
    return { value := .pairs (entries.map fun (k, v) => (k.value, v.value)), cut := anyCut entries }
  | .mapping _ .map entries =>
    let entries ← entries.mapM (showEntry inner)
    return { value := .mapping (gather entries), cut := anyCut entries }
  | .mapping _ .set entries =>
    let entries ← entries.mapM (showEntry inner)
    return { value := .set (Config.setOrder ((gather entries).map Prod.fst)) }
  | n => return d.showAtom n

/-- The value of a node, where `path` has the numbers of the lists and mappings around it. -/
def showWithin (d : Document) : Nat → List Nat → Node → Shows Shown
  | 0, _, _ => return { value := .null }
  | fuel + 1, path, n => do
    let n := d.resolve n
    if !n.tag.isCollection then return d.showAtom n
    else if path.contains n.id then return { value := .again (n.tag = .map), cut := true }
    else
      match (← get).lookup n.id with
      | some value => return { value }
      | none =>
        let shown ← d.showWith (d.showWithin fuel (n.id :: path)) n
        if !shown.cut then modify ((n.id, shown.value) :: ·)
        return shown

/-- The value of a document without faults. The values of a mapping start a path of their own,
for they are shown by themselves. -/
def value (d : Document) : Value :=
  ((d.showWith (d.showWithin (d.collections.length + 2) []) (d.resolve d.root)).run []).1.value

end Document

/-- The value of a text, nested at most `limit` deep; a text without a document is null. -/
def parse (limit : Nat) (text : String) : Except ReadFault Value := do
  match ← Node.parse limit text with
  | some node =>
    let ((), d) ← Visit.check.run (Document.ofNode node)
    return d.value
  | none => return .null

end InferTrace.Yaml
