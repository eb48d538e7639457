import TypeSchema.Yaml.Node
import TypeSchema.Yaml.Token

/-!
# Nodes from tokens

Readers take tokens from the front of those that are left. A node may carry an anchor, to which
aliases behind it refer; an alias inside the collection that carries its anchor is foreign.
-/

namespace TypeSchema.Yaml

/-- The tokens that are left, and what has been said about names. -/
structure Source where
  tokens : List Token
  fault? : Option Fault
  /-- Handles of tags and what they stand for. -/
  handles : List (String × String) := []
  anchors : List (String × Node) := []
  /-- The collections around what is read next, each with its anchor. -/
  around : List (Option String) := []

abbrev Reader := StateT Source (Except Fault)

namespace Reader

def peek? : Reader (Option Token) := do
  let s ← get
  match s.tokens, s.fault? with
  | t :: _, _ => return some t
  | [], some fault => throw fault
  | [], none => return none

def drop : Reader Unit := modify fun s => { s with tokens := s.tokens.drop 1 }

def take (t : Token) : Reader Bool := do
  if (← peek?) = some t then
    drop
    return true
  else return false

def malformed {α : Type} : Reader α := throw .malformed

def require (t : Token) : Reader Unit := do
  if !(← take t) then malformed

/-! ### Names -/

structure Properties where
  anchor? : Option String := none
  tag? : Option TagName := none

def properties : Reader Properties := do
  match ← peek? with
  | some (.anchor name) =>
    drop
    match ← peek? with
    | some (.tag tag) => drop; return ⟨some name, some tag⟩
    | _ => return ⟨some name, none⟩
  | some (.tag tag) =>
    drop
    match ← peek? with
    | some (.anchor name) => drop; return ⟨some name, some tag⟩
    | _ => return ⟨none, some tag⟩
  | _ => return {}

/-- The tag that a name stands for; none for the tag that leaves the choice to the text. -/
def resolve (name : TagName) : Reader (Option Tag) := do
  match name.handle? with
  | none => return if name.suffix = "!" then none else some .unknown
  | some handle =>
    if (Table.get? handle (← get).handles).isSome || handle = "!" then return some .unknown
    else if handle = "!!" then return some (Tag.ofName name.suffix)
    else malformed

def empty : Node := .scalar .null ""

/-- Gives a name to a node. An anchor can be set only once. -/
def setAnchor (anchor? : Option String) (n : Node) : Reader Unit := do
  match anchor? with
  | none => return
  | some name =>
    if (Table.get? name (← get).anchors).isSome then malformed
    modify fun s => { s with anchors := (name, n) :: s.anchors }

/-- The most collections around a node. Each takes two frames of the stack, and this many of them fit
under any command. -/
def maxDepth : Nat := 256

/-- Reads what is inside a collection. -/
def inside {α : Type} (anchor? : Option String) (read : Reader α) : Reader α := do
  let around := (← get).around
  if maxDepth ≤ around.length then throw .foreign
  modify fun s => { s with around := anchor? :: around }
  let a ← read
  modify fun s => { s with around }
  return a

/-- Reads a collection, whose anchor is set before what is inside is read. -/
def collection {α : Type} (anchor? : Option String) (make : α → Node) (read : Reader α) : Reader Node := do
  setAnchor anchor? empty
  let n := make (← inside anchor? read)
  if let some name := anchor? then
    modify fun s => { s with anchors := (name, n) :: s.anchors }
  return n

/-! ### Nodes -/

/-- A scalar under the tag that it carries, or else under that of its looks. -/
def scalarNode (tagged : Bool) (tag? : Option Tag) (text : String) (plain : Bool) : Node :=
  match tag? with
  | some tag => .scalar tag text
  | none => .scalar (if plain || tagged then Tag.ofPlain text else .text) text

/-- The next token is one of these, or there is none. -/
def atAny (ts : List Token) : Reader Bool := do
  match ← peek? with
  | none => return true
  | some t => return ts.contains t

mutual

/-- A node; block collections are read if `block` is set, and lists that are not indented if `flat`
is. -/
def node (block flat : Bool) : Nat → Reader Node
  | 0 => malformed
  | fuel + 1 => do
    if let some (.alias name) ← peek? then
      drop
      let s ← get
      if s.around.contains (some name) then throw .foreign
      match Table.get? name s.anchors with
      | some n => return n
      | none => malformed
    else
      let p ← properties
      let tagged := p.tag?.isSome
      let tag? ← match p.tag? with
        | none => pure none
        | some name => resolve name
      let listTag := tag?.getD .list
      let mapTag := tag?.getD .map
      match ← peek? with
      | some .blockEntry =>
        if flat then collection p.anchor? (.list listTag) (flatItems fuel)
        else bare p tagged tag?
      | some (.scalar text plain) =>
        drop
        let n := scalarNode tagged tag? text plain
        setAnchor p.anchor? n
        return n
      | some .flowListStart =>
        drop
        collection p.anchor? (.list listTag) (flowItems true fuel)
      | some .flowMapStart =>
        drop
        collection p.anchor? (.ofEntries mapTag) (flowEntries true fuel)
      | some .blockListStart =>
        if block then
          drop
          collection p.anchor? (.list listTag) (blockItems fuel)
        else bare p tagged tag?
      | some .blockMapStart =>
        if block then
          drop
          collection p.anchor? (.ofEntries mapTag) (blockEntries fuel)
        else bare p tagged tag?
      | _ => bare p tagged tag?
where
  /-- An anchor or a tag with nothing behind it. -/
  bare (p : Properties) (tagged : Bool) (tag? : Option Tag) : Reader Node := do
    if !tagged && p.anchor?.isNone then malformed
    let n := scalarNode true tag? "" true
    setAnchor p.anchor? n
    return n

/-- A node, or an empty one if one of these tokens comes next. -/
def nodeUnless (ts : List Token) (block flat : Bool) : Nat → Reader Node
  | 0 => malformed
  | fuel + 1 => do if ← atAny ts then return empty else node block flat fuel

def blockItems : Nat → Reader (List Node)
  | 0 => malformed
  | fuel + 1 => do
    if ← take .blockEntry then
      let item ← nodeUnless [.blockEntry, .blockEnd] true false fuel
      return item :: (← blockItems fuel)
    else
      require .blockEnd
      return []

/-- The items of a list that stands at the column of its key. -/
def flatItems : Nat → Reader (List Node)
  | 0 => malformed
  | fuel + 1 => do
    if ← take .blockEntry then
      let item ← nodeUnless [.blockEntry, .key, .value, .blockEnd] true false fuel
      return item :: (← flatItems fuel)
    else return []

def blockEntries : Nat → Reader (List (Node × Node))
  | 0 => malformed
  | fuel + 1 => do
    if ← take .key then
      let key ← nodeUnless [.key, .value, .blockEnd] true true fuel
      let value ←
        if ← take .value then nodeUnless [.key, .value, .blockEnd] true true fuel
        else pure empty
      return (key, value) :: (← blockEntries fuel)
    else
      require .blockEnd
      return []

def flowItems (first : Bool) : Nat → Reader (List Node)
  | 0 => malformed
  | fuel + 1 => do
    if ← take .flowListEnd then return []
    if !first then require .flowEntry
    if ← take .flowListEnd then return []
    if ← take .key then
      let item ← inside none (flowPair fuel)
      return item :: (← flowItems false fuel)
    else
      let item ← node false false fuel
      return item :: (← flowItems false fuel)

/-- A map of one entry without braces. -/
def flowPair : Nat → Reader Node
  | 0 => malformed
  | fuel + 1 => do
    let key ← nodeUnless [.value, .flowEntry, .flowListEnd] false false fuel
    let value ← flowValue .flowListEnd fuel
    return .ofEntries .map [(key, value)]

def flowValue (ending : Token) : Nat → Reader Node
  | 0 => malformed
  | fuel + 1 => do
    if ← take .value then nodeUnless [.flowEntry, ending] false false fuel else return empty

def flowEntries (first : Bool) : Nat → Reader (List (Node × Node))
  | 0 => malformed
  | fuel + 1 => do
    if ← take .flowMapEnd then return []
    if !first then require .flowEntry
    if ← take .flowMapEnd then return []
    if ← take .key then
      let key ← nodeUnless [.value, .flowEntry, .flowMapEnd] false false fuel
      let value ← flowValue .flowMapEnd fuel
      return (key, value) :: (← flowEntries false fuel)
    else
      let key ← node false false fuel
      return (key, empty) :: (← flowEntries false fuel)

end

/-! ### Documents -/

/-- The directives before a document: one version and one rule for each handle. -/
def directives : Nat → Bool → Reader Unit
  | 0, _ => malformed
  | fuel + 1, versioned => do
    match ← peek? with
    | some (.directive d) =>
      drop
      match d with
      | .version major =>
        if versioned || major ≠ 1 then malformed
        directives fuel true
      | .handle name expansion =>
        if (Table.get? name (← get).handles).isSome then malformed
        modify fun s => { s with handles := (name, expansion) :: s.handles }
        directives fuel versioned
      | .reserved => directives fuel versioned
    | _ => return

def documentEnd : Nat → Reader Unit
  | 0 => malformed
  | fuel + 1 => do
    if ← take .documentEnd then documentEnd fuel
    else if (← peek?).isSome then malformed

/-- The node of a text, which holds at most one document. -/
def document (fuel : Nat) : Reader Node := do
  match ← peek? with
  | none => return empty
  | some (.directive _) | some .documentStart =>
    directives fuel false
    require .documentStart
    let n ← match ← peek? with
      | none | some (.directive _) | some .documentStart | some .documentEnd => pure empty
      | _ => node true false fuel
    documentEnd fuel
    return n
  | _ =>
    let n ← node true false fuel
    documentEnd fuel
    return n

end Reader

/-- The node that tokens make up; each token takes at most three steps of the fuel. -/
def Node.ofTokens (tokens : List Token) (fault? : Option Fault) : Except Fault Node :=
  (Reader.document (4 * tokens.length + 4)).run' { tokens, fault? }

end TypeSchema.Yaml
