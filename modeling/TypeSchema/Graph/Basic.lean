import TypeSchema.Flags
import TypeSchema.Text.Digits

/-!
# Type graphs

A graph is the dump of a type checker: nodes with flag words that refer to each other by id, and the
declarations of a file, each naming the node of its type.
-/

namespace TypeSchema

structure Symbol where
  name : String
  flags : Nat
deriving DecidableEq, Repr

/-- An integer literal of any size, kept as sign and digits. -/
structure BigInt where
  negative : Bool
  digits : String
deriving DecidableEq, Repr

namespace BigInt

def text (n : BigInt) : String := (if n.negative then "-" else "") ++ n.digits ++ "n"

end BigInt

inductive Literal where
  | bigInt (n : BigInt)
  | int (n : Int)
  | real (x : Real64)
  | text (s : String)
deriving DecidableEq, Repr

structure Member where
  name : String
  type : Int
  optional : Bool
  flags : Nat
  modifiers : List String
  /-- What a get accessor returns; `type` is then the property as it is set. -/
  accessorType : Option Int
deriving DecidableEq, Repr

structure Node where
  id : Int
  flags : Nat
  objectFlags : Nat
  symbol : Option Symbol
  value : Option Literal
  intrinsicName : Option String
  types : List Int
  /-- The arguments of a reference, the elements of a tuple. -/
  typeArguments : List Int
  target : Option Int
  members : List Member
  stringIndex : Option Int
  display : Option String
deriving DecidableEq, Repr

inductive DeclarationKind where
  | interface
  | typeAlias
  | enum
  | classType
  | function
  | variable
  | module
deriving DecidableEq, Repr

namespace DeclarationKind

def all : List DeclarationKind :=
  [.interface, .typeAlias, .enum, .classType, .function, .variable, .module]

def text : DeclarationKind → String
  | .interface => "interface"
  | .typeAlias => "type_alias"
  | .enum => "enum"
  | .classType => "class"
  | .function => "function"
  | .variable => "variable"
  | .module => "module"

end DeclarationKind

structure Declaration where
  name : String
  kind : DeclarationKind
  type : Int
deriving DecidableEq, Repr

structure Graph where
  nodes : List Node
  declarations : List Declaration
deriving DecidableEq, Repr

namespace Node

/-- The ids that a node refers to: constituents, arguments, member types, accessor types, target and
index. -/
def references (n : Node) : List Int :=
  n.types ++ n.typeArguments ++ n.members.map (·.type) ++ n.members.filterMap (·.accessorType) ++
    n.target.toList ++ n.stringIndex.toList

end Node

namespace Graph

def ids (g : Graph) : List Int := g.nodes.map (·.id)

/-- How many declarations there are of each kind, kinds in order of first appearance. -/
def kindCounts (g : Graph) : Table DeclarationKind Nat :=
  g.declarations.foldl
    (fun counts d => counts.put d.kind ((Table.get? d.kind counts).getD 0 + 1)) []

def summary (g : Graph) : String :=
  let counts := g.kindCounts.map fun (kind, n) => "'" ++ kind.text ++ "': " ++ toString n
  "\x7b'nodes': " ++ toString g.nodes.length ++ ", 'declarations': \x7b" ++
    ", ".intercalate counts ++ "\x7d\x7d"

/-! ### Closed graphs -/

/-- Ids are distinct, and every reference of a node or a declaration is the id of a node. -/
structure Closed (g : Graph) : Prop where
  nodup : g.ids.Nodup
  references : ∀ n ∈ g.nodes, ∀ id ∈ n.references, id ∈ g.ids
  declarations : ∀ d ∈ g.declarations, d.type ∈ g.ids

inductive OpenEnd where
  | duplicateId (id : Int)
  | unknownNodes (id : Int) (missing : List Int)
  | unknownType (declaration : String) (type : Int)
deriving DecidableEq, Repr

namespace OpenEnd

def message : OpenEnd → String
  | .duplicateId id => "duplicate node id " ++ toString id
  | .unknownNodes id missing =>
    "node " ++ toString id ++ " references unknown nodes [" ++
      ", ".intercalate (missing.map toString) ++ "]"
  | .unknownType declaration type =>
    "declaration " ++ declaration ++ " references unknown node " ++ toString type

/-- The integers that the message shows. -/
def integers : OpenEnd → List Int
  | .duplicateId id => [id]
  | .unknownNodes id missing => id :: missing
  | .unknownType _ type => [type]

/-- What is reported: the message, unless an integer in it has too many digits to be written. -/
def report (e : OpenEnd) : String :=
  if e.integers.any Text.isLong then Text.longInteger else e.message

end OpenEnd

/-- The first id that stands also before. -/
def duplicateId? : List Int → List Int → Option Int
  | _, [] => none
  | seen, id :: rest => if id ∈ seen then some id else duplicateId? (id :: seen) rest

/-- The first fault: a repeated id, else a node with unknown references, all of them in their order,
else a declaration of an unknown type. -/
def openEnd? (g : Graph) : Option OpenEnd :=
  let missing (n : Node) : List Int := n.references.filter (· ∉ g.ids)
  match duplicateId? [] g.ids with
  | some id => some (.duplicateId id)
  | none =>
    match g.nodes.find? fun n => !(missing n).isEmpty with
    | some n => some (.unknownNodes n.id (missing n))
    | none =>
      (g.declarations.find? (·.type ∉ g.ids)).map fun d => .unknownType d.name d.type

end Graph

end TypeSchema
