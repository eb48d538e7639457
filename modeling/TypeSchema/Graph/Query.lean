import TypeSchema.Graph.Basic

/-!
# Queries

What the rest of the library asks of a graph. Every query goes from a node to nodes of the same
graph in the order of the stored ids; in a closed graph none of them misses a node.
-/

namespace TypeSchema

namespace Graph

def node? (g : Graph) (id : Int) : Option Node := g.nodes.find? (·.id = id)

/-- The constituents of a union or an intersection, the members of an enum. -/
def constituents (g : Graph) (n : Node) : List Node := n.types.filterMap g.node?

def typeArguments (g : Graph) (n : Node) : List Node := n.typeArguments.filterMap g.node?

/-- The object flags of the target, or of the node itself when it has none. -/
def targetObjectFlags (g : Graph) (n : Node) : Nat :=
  ((n.target.bind g.node?).getD n).objectFlags

def stringIndexType? (g : Graph) (n : Node) : Option Node := n.stringIndex.bind g.node?

end Graph

namespace Node

/-- The text of a type: what the dump says, else its intrinsic name, the name of its symbol, the
names of its flags, or its id. -/
def displayText (n : Node) : String :=
  let nonEmpty (s? : Option String) := s?.filter (· ≠ "")
  match nonEmpty n.display, nonEmpty n.intrinsicName, n.symbol with
  | some s, _, _ => s
  | none, some s, _ => s
  | none, none, some symbol => symbol.name
  | none, none, none =>
    match FlagClass.type.namesOf n.flags with
    | [] => "#" ++ toString n.id
    | names => "|".intercalate names

end Node

/-- A member as the graph resolves it: optionality is folded into the flags. Where a run comes to fold it
into a word that cannot be spelled out, `Strict.checkFlags` breaks the run. -/
structure Property where
  name : String
  type : Node
  flags : Nat
  modifiers : List String
  accessorType : Option Node
deriving DecidableEq, Repr

namespace Graph

def property? (g : Graph) (m : Member) : Option Property :=
  (g.node? m.type).map fun type =>
    { name := m.name
      type
      flags := if m.optional then m.flags ||| SymbolFlag.optional else m.flags
      modifiers := m.modifiers
      accessorType := m.accessorType.bind g.node? }

def properties (g : Graph) (n : Node) : List Property := n.members.filterMap g.property?

end Graph

/-- A declaration together with the node of its type. The kind may be any text. -/
structure Subject where
  name : String
  kind : String
  node : Node
deriving DecidableEq, Repr

namespace Subject

/-- The kinds that describe a data structure. -/
def transpilableKinds : List String := ["class", "enum", "interface", "type_alias"]

def isTranspilable (s : Subject) : Bool := transpilableKinds.contains s.kind

end Subject

namespace Graph

def subjects (g : Graph) : List Subject :=
  g.declarations.filterMap fun d =>
    (g.node? d.type).map fun node => ⟨d.name, d.kind.text, node⟩

end Graph

end TypeSchema
