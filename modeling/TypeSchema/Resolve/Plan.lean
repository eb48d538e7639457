import TypeSchema.Failure
import TypeSchema.Real.Layout
import TypeSchema.Schema
import TypeSchema.Settings.Basic

/-!
# Plans

A plan says how the schema of one node is made from the schemas of other nodes: `Plan.edges` are the
nodes it follows, in order and with the labels of their steps, and `Plan.assemble` takes their
schemas. Everything that can be wrong with the node itself shows while its plan is made, before any
other node is looked into.
-/

namespace TypeSchema

structure Edge where
  label : Option String
  target : Node
deriving DecidableEq, Repr

/-- A visible member with the type that counts for it. -/
structure Slot where
  name : String
  optional : Bool
  type : Node
deriving DecidableEq, Repr

inductive Plan where
  | leaf (schema : Schema)
  /-- A union of one defined constituent is that constituent. -/
  | forward (node : Node)
  | anyOf (fixed : List Schema) (options : List Node)
  | allOf (parts : List Node)
  | array (item : Option Node)
  | tuple (items : List Node)
  | indexable (value : Node)
  | object (slots : List Slot) (index : Option Node)
  /-- An intersection of objects: the slots of all parts, then their indexes. -/
  | merged (slots : List Slot) (indexes : List Node)
deriving Repr

namespace Plan

def itemLabel : String := "[]"

def positionLabel (i : Nat) : String := "[" ++ toString i ++ "]"

def indexLabel : String := "[string]"

def slotEdges (slots : List Slot) : List Edge := slots.map fun s => ⟨some s.name, s.type⟩

def edges : Plan → List Edge
  | .leaf _ => []
  | .forward node => [⟨none, node⟩]
  | .anyOf _ options => options.map (⟨none, ·⟩)
  | .allOf parts => parts.map (⟨none, ·⟩)
  | .array item => item.toList.map (⟨some itemLabel, ·⟩)
  | .tuple items => items.zipIdx.map fun (node, i) => ⟨some (positionLabel i), node⟩
  | .indexable value => [⟨some indexLabel, value⟩]
  | .object slots index => slotEdges slots ++ index.toList.map (⟨some indexLabel, ·⟩)
  | .merged slots indexes => slotEdges slots ++ indexes.map (⟨some indexLabel, ·⟩)

def slotEntries {α : Type} (slots : List Slot) (schemas : List α) : List (Entry α) :=
  List.zipWith (fun s schema => ⟨s.name, s.optional, schema⟩) slots schemas

/-- The schema of the node from the schemas of `edges`, in their order. -/
def assemble : Plan → List Schema → Schema
  | .leaf schema, _ => schema
  | .forward _, schemas => schemas.headD .any
  | .anyOf fixed _, schemas => .anyOf (fixed ++ schemas)
  | .allOf _, schemas => .allOf schemas
  | .array _, schemas => .array (schemas.headD .any)
  | .tuple _, schemas => .tuple schemas
  | .indexable _, schemas => .indexable (schemas.headD .any)
  | .object slots _, schemas =>
    .ofEntries (slotEntries slots schemas) (schemas.drop slots.length).head?
  | .merged slots _, schemas =>
    let index := match schemas.drop slots.length with
      | [] => none
      | indexes => some (Schema.conjoin indexes)
    .ofEntries (Entry.merge Schema.conjoin (slotEntries slots schemas)) index

end Plan

/-! ### Members -/

namespace Property

/-- A get accessor counts with what it returns. -/
def effectiveType (p : Property) : Node :=
  if p.isGetAccessor then p.accessorType.getD p.type else p.type

def isPrivate (p : Property) : Bool := p.hasModifier "private" || p.hasModifier "protected"

end Property

namespace Graph

/-- A function, or a union whose defined constituents are all functions. -/
def isCallable (g : Graph) (n : Node) : Bool :=
  n.isFunctionLike ||
    (n.isUnion &&
      let defined := (g.constituents n).filter Node.isDefined
      !defined.isEmpty && defined.all Node.isFunctionLike)

/-- Members that no schema shows: prototypes, methods and other functions, and private ones if the
settings say so. -/
def isHidden (g : Graph) (settings : ResolverSettings) (p : Property) : Bool :=
  p.isPrototype || p.isMethod || (settings.skipPrivate && p.isPrivate) ||
    g.isCallable p.effectiveType

def slots (g : Graph) (settings : ResolverSettings) (n : Node) : List Slot :=
  ((g.properties n).filter fun p => !g.isHidden settings p).map fun p =>
    ⟨p.name, p.isOptional, p.effectiveType⟩

end Graph

/-! ### Literals -/

namespace Node

/-- The value of a literal. A boolean literal has its value from its name. -/
def literalValue (n : Node) : Except Cause LiteralValue :=
  match n.value with
  | some (.int i) => .ok (.int i)
  | some (.real x) => .ok (.real x)
  | some (.text s) => .ok (.text s)
  | some (.bigInt _) => .error (.unclassified (.literalNotScalar n.displayText))
  | none =>
    if n.isLiteralTrue then .ok (.bool true)
    else if n.isLiteralFalse then .ok (.bool false)
    else .error (.unclassified (.literalWithoutValue n.displayText))

def valueText (n : Node) : String :=
  match n.value with
  | none => "None"
  | some (.bigInt i) => i.text
  | some (.int i) => toString i
  | some (.real x) => RealLayout.plain.render x
  | some (.text s) => s

end Node

/-! ### The plan of a node -/

namespace Graph

def enumPlan (g : Graph) (n : Node) : Except Cause Plan :=
  let members := g.constituents n
  match members.find? (!·.isLiteral) with
  | some member => .error (.unclassified (.memberNotLiteral member.displayText))
  | none => (members.mapM Node.literalValue).map fun values => .leaf (.enum values)

/-- Undefined constituents do not count. Literals are gathered in one enum, `true` with `false` is
boolean, and all others are options of their own. -/
def unionPlan (g : Graph) (n : Node) : Except Cause Plan :=
  let types := (g.constituents n).filter Node.isDefined
  match types with
  | [] => .ok (.leaf (.typed "undefined"))
  | [node] => .ok (.forward node)
  | _ =>
    if Node.isBooleanPair types then .ok (.leaf (.typed "boolean"))
    else
      let literals := types.filter Node.isLiteral
      let others := types.filter (!·.isLiteral)
      let boolean := literals.any Node.isLiteralTrue && literals.any Node.isLiteralFalse
      let valued :=
        if boolean then literals.filter fun t => !t.isLiteralTrue && !t.isLiteralFalse
        else literals
      (valued.mapM Node.literalValue).map fun values =>
        if others.isEmpty && !boolean then .leaf (.enum values)
        else
          .anyOf ((if boolean then [.typed "boolean"] else []) ++
            (if valued.isEmpty then [] else [.enum values])) others

def shapeOf (g : Graph) (n : Node) : Except Cause Shape :=
  match g.shape? n with
  | some shape => .ok shape
  | none => .error (.unclassified (.unhandled n.displayText))

/-- All parts are objects or indexables. Parts are looked at up to the first that is neither. -/
def areMergeable (g : Graph) : List Node → Except Cause Bool
  | [] => .ok true
  | part :: rest => do
    let shape ← g.shapeOf part
    if shape = .object || shape = .indexable then g.areMergeable rest else .ok false

def intersectionPlan (g : Graph) (settings : ResolverSettings) (n : Node) : Except Cause Plan := do
  let parts := g.constituents n
  let mergeable ← g.areMergeable parts
  if !parts.isEmpty && mergeable then
    return .merged (parts.flatMap (g.slots settings)) (parts.filterMap g.stringIndexType?)
  return .allOf parts

def objectPlan (g : Graph) (settings : ResolverSettings) (n : Node) : Plan :=
  .object (g.slots settings n) (g.stringIndexType? n)

def planOf (g : Graph) (settings : ResolverSettings) (n : Node) : Shape → Except Cause Plan
  | .enum => g.enumPlan n
  | .literal => n.literalValue.map fun value => .leaf (.enum [value])
  | .bigIntLiteral => .error (.unsupportedPrimitive ("bigint literal " ++ n.valueText))
  | .primitive =>
    match n.primitive? with
    | none => .error (.unclassified (.notPrimitive n.displayText))
    | some p =>
      match Schema.ofPrimitive? p with
      | some schema => .ok (.leaf schema)
      | none => .error (.unsupportedPrimitive p.text)
  | .generic => .ok (.leaf (.generic n.displayText))
  | .union => g.unionPlan n
  | .intersection => g.intersectionPlan settings n
  | .array => .ok (.array (g.typeArguments n).head?)
  | .tuple => .ok (.tuple (g.typeArguments n))
  | .function => .error (.unclassified (.function n.displayText))
  | .date => .ok (if settings.datesAsStrings then .leaf .date else g.objectPlan settings n)
  | .indexable =>
    match g.stringIndexType? n with
    | some value => .ok (.indexable value)
    | none => .error (.unclassified (.described "indexable type without an index signature"))
  | .object => .ok (g.objectPlan settings n)

def plan (g : Graph) (settings : ResolverSettings) (n : Node) : Except Cause Plan := do
  g.planOf settings n (← g.shapeOf n)

end Graph

end TypeSchema
