/-
Nodes of a YAML document: scalars, lists and mappings with their tags, before their values are
settled.

A text holds one document at most. An empty place where a node could stand is an empty plain
scalar. A node with a name can be recalled by it later on, even by the nodes inside it; every
name is given once. Nodes are numbered; where a list or mapping is recalled, its number stands.
-/
import InferTrace.Yaml.Tag

namespace InferTrace.Yaml

open Config (ReadFault)

/-- A node. A list or mapping that stands elsewhere too is `recalled` by its number. -/
inductive Node where
  | scalar (id : Nat) (tag : Tag) (text : Text.Points)
  | list (id : Nat) (tag : Tag) (items : List Node)
  | mapping (id : Nat) (tag : Tag) (entries : List (Node × Node))
  | recalled (id : Nat)
deriving Repr, Inhabited

/-- The node as it stands where it is recalled. -/
def Node.recall : Node → Node
  | .list id _ _ | .mapping id _ _ => .recalled id
  | n => n

/-- Tokens still to be read, the nodes that have names, what the marks of tags stand for, and
how many nodes there are. -/
structure Feed where
  tokens : List Token
  named : List (String × Node) := []
  handles : List (String × String) := []
  made : Nat := 0

/-- Building nodes from tokens. -/
abbrev Build := StateT Feed (Except ReadFault)

namespace Build

/-- The next token. -/
def peek : Build (Option Token) := do
  match (← get).tokens.head? with
  | some (.faulty fault) => throw (.scalar fault)
  | token => return token

/-- Go past a token. -/
def drop : Build Unit := modify fun f => { f with tokens := f.tokens.drop 1 }

/-- The next token is one of `tokens`. -/
def at? (tokens : List Token) : Build Bool := do
  match ← peek with
  | some t => return tokens.contains t
  | none => return false

/-- Go past the next token if it is `token`. -/
def accept (token : Token) : Build Bool := do
  if ← at? [token] then
    drop
    return true
  else return false

/-- The text is no document. -/
def fail {α : Type} : Build α := throw .malformed

/-- Go past `token`, which has to come next. -/
def expect (token : Token) : Build Unit := do
  if ← accept token then return else fail

end Build

/-- The number of a new node. -/
def Build.number : Build Nat :=
  modifyGet fun f => (f.made, { f with made := f.made + 1 })

/-- An empty place. -/
def Build.empty : Build Node := do return .scalar (← number) .null {}

-- ========================================================= collections

/-- A node, unless one of `ends` comes next and the place is empty. -/
def nodeUnless (ends : List Token) (node : Build Node) : Build Node := do
  if ← Build.at? ends then Build.empty else node

/-- The items of a block, each after its hyphen. -/
def blockItems (node : Build Node) (ends : List Token) : Nat → Build (List Node)
  | 0 => Build.fail
  | fuel + 1 => do
    if ← Build.accept .item then
      let first ← nodeUnless ends node
      return first :: (← blockItems node ends fuel)
    else return []

/-- The entries of a block, each after the mark of its key. A value may be missing. -/
def blockEntries (node : Build Node) : Nat → Build (List (Node × Node))
  | 0 => Build.fail
  | fuel + 1 => do
    let ends := [.key, .value, .blockEnd]
    if ← Build.accept .key then
      let key ← nodeUnless ends node
      let value ← if ← Build.accept .value then nodeUnless ends node else Build.empty
      return (key, value) :: (← blockEntries node fuel)
    else return []

/-- The key and the value of an entry in a flow, after the mark of its key. -/
def flowEntry (node : Build Node) (close : Token) : Build (Node × Node) := do
  let key ← nodeUnless [.value, .comma, close] node
  let value ← if ← Build.accept .value then nodeUnless [.comma, close] node else Build.empty
  return (key, value)

/-- The items of a flow, up to its closing bracket. The last may be followed by a comma. -/
def flowItems {α : Type} (item : Build α) (close : Token) : Nat → Build (List α)
  | 0 => Build.fail
  | fuel + 1 => do
    if ← Build.accept close then return []
    else
      let first ← item
      if ← Build.accept close then return [first]
      else
        Build.expect .comma
        return first :: (← flowItems item close fuel)

/-- An item of a list in a flow: a node, or one entry of a mapping. -/
def listItem (node : Build Node) : Build Node := do
  if ← Build.accept .key then
    let id ← Build.number
    return .mapping id .map [← flowEntry node .closeList]
  else node

/-- An entry of a mapping in a flow; a node alone is a key without a value. -/
def mappingItem (node : Build Node) : Build (Node × Node) := do
  if ← Build.accept .key then flowEntry node .closeMapping
  else return (← node, ← Build.empty)

-- =============================================================== nodes

/-- What the marks of tags stand for where no directive says otherwise. -/
def standardHandles : List (String × String) := [("!", "!"), ("!!", Tag.standard)]

/-- The full name of a tag. -/
def fullName (mark : Option String) (name : String) : Build String := do
  match mark with
  | none => return name
  | some mark =>
    match ((← get).handles ++ standardHandles).lookup mark with
    | some target => return target ++ name
    | none => Build.fail

/-- The name before a node. -/
def nameBefore : Build (Option String) := do
  match ← Build.peek with
  | some (.anchor name) =>
    Build.drop
    return some name
  | _ => return none

/-- The tag before a node: its mark and its name. -/
def tagBefore : Build (Option (Option String × String)) := do
  match ← Build.peek with
  | some (.tag mark name) =>
    Build.drop
    return some (mark, name)
  | _ => return none

/-- The name and the tag before a node, in either order, and the tag by its full name. -/
def properties : Build (Option String × Option String) := do
  let first ← nameBefore
  let tag ← tagBefore
  let name ← if first.isNone && tag.isSome then nameBefore else pure first
  match tag with
  | some (mark, tag) => return (name, some (← fullName mark tag))
  | none => return (name, none)

/-- The tag of a scalar. A bare exclamation mark lets even a quoted scalar be what it looks
like. -/
def scalarTag (written : Option String) (text : Text.Points) (plain : Bool) : Tag :=
  match written with
  | none => if plain then .ofPlain text else .str
  | some name => if name = "!" then .ofPlain text else .ofName name

/-- The tag of a list or mapping. -/
def collectionTag (written : Option String) (own : Tag) : Tag :=
  match written with
  | none => own
  | some name => if name = "!" then own else .ofName name

/-- Where a node stands: in a flow, in a block, or as an entry of a block mapping, whose list
may be indented no further than the mapping itself. -/
inductive Setting where
  | flow
  | block
  | entry
deriving DecidableEq

/-- The content of a node, given how to read the nodes inside it. Content may be missing after a
name or a tag. -/
def content (node : Setting → Build Node) (setting : Setting) (id : Nat) (named : Bool)
    (tag : Option String) : Build Node := do
  let fuel := (← get).tokens.length + 1
  let missing : Build Node :=
    if named || tag.isSome then return .scalar id (scalarTag tag {} true) {} else Build.fail
  let list (items : List Node) : Node := .list id (collectionTag tag .seq) items
  let mapping (entries : List (Node × Node)) : Node :=
    .mapping id (collectionTag tag .map) entries
  match ← Build.peek with
  | some (.scalar text plain) =>
    Build.drop
    return .scalar id (scalarTag tag text plain) text
  | some .openList =>
    Build.drop
    return list (← flowItems (listItem (node .flow)) .closeList fuel)
  | some .openMapping =>
    Build.drop
    return mapping (← flowItems (mappingItem (node .flow)) .closeMapping fuel)
  | some .item =>
    if setting = .entry then
      return list (← blockItems (node .block) [.item, .key, .value, .blockEnd] fuel)
    else missing
  | some .blockSequence =>
    if setting = .flow then missing
    else
      Build.drop
      let items ← blockItems (node .block) [.item, .blockEnd] fuel
      Build.expect .blockEnd
      return list items
  | some .blockMapping =>
    if setting = .flow then missing
    else
      Build.drop
      let entries ← blockEntries (node .entry) fuel
      Build.expect .blockEnd
      return mapping entries
  | _ => missing

/-- Give a node its name, which no other node may have. That is known only when the node begins. -/
def withName (name : String) (id : Nat) (node : Build Node) : Build Node := do
  let _ ← Build.peek
  if (((← get).named.lookup name).isSome) then Build.fail
  else
    modify fun f => { f with named := (name, .recalled id) :: f.named }
    let n ← node
    modify fun f => { f with named := (name, n.recall) :: f.named }
    return n

/-- A node, nested at most `limit` deep. -/
def readNode : Nat → Setting → Build Node
  | 0, _ => throw .tooDeep
  | limit + 1, setting => do
    match ← Build.peek with
    | some (.reference name) =>
      Build.drop
      match (← get).named.lookup name with
      | some n => return n
      | none => Build.fail
    | _ =>
      let (name, tag) ← properties
      let id ← Build.number
      let node := content (readNode limit) setting id name.isSome tag
      match name with
      | none => node
      | some name => withName name id node

-- =========================================================== documents

/-- Go past the marks that end a document. -/
def skipEnds : Nat → Build Unit
  | 0 => return
  | fuel + 1 => do
    if ← Build.accept .documentEnd then skipEnds fuel

/-- Go past directives; says whether there were any. The version of the format is 1, given at
most once, as is what each mark stands for. -/
def readDirectives : Nat → Bool → Build Bool
  | 0, _ => return false
  | fuel + 1, versioned => do
    match ← Build.peek with
    | some (.version major) =>
      if versioned || major != 1 then Build.fail
      else
        Build.drop
        let _ ← readDirectives fuel true
        return true
    | some (.handle mark target) =>
      if (((← get).handles.lookup mark).isSome) then Build.fail
      else
        Build.drop
        modify fun f => { f with handles := (mark, target) :: f.handles }
        let _ ← readDirectives fuel versioned
        return true
    | some .directive =>
      Build.drop
      let _ ← readDirectives fuel versioned
      return true
    | _ => return false

/-- No document goes on here: the text ends, or a mark or a directive of another one follows. -/
def betweenDocuments : Build Bool := do
  match ← Build.peek with
  | none | some .documentStart | some .documentEnd => return true
  | some (.version _) | some (.handle _ _) | some .directive => return true
  | some _ => return false

/-- Read as much of a second document as shows that it is one. -/
def refuseMore (fuel : Nat) : Build (Option Node) := do
  modify fun f => { f with handles := [] }
  let _ ← readDirectives fuel false
  let _ ← Build.peek
  Build.fail

/-- The one document of a text, nested at most `limit` deep; none if the text is empty. -/
def document (limit : Nat) : Build (Option Node) := do
  let fuel := (← get).tokens.length
  let directed ← readDirectives fuel false
  let marked ← Build.accept .documentStart
  if directed && !marked then Build.fail
  else
    let ended := (← Build.peek).isNone
    if ended && !marked then return none
    else
      let node ← if marked && (← betweenDocuments) then Build.empty else readNode limit .block
      skipEnds fuel
      if (← Build.peek).isNone then return some node else refuseMore fuel

/-- The document of a text. -/
def Node.parse (limit : Nat) (text : String) : Except ReadFault (Option Node) :=
  ((document limit).run { tokens := Token.scan text }).map Prod.fst

end InferTrace.Yaml
