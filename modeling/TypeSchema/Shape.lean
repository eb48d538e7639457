import TypeSchema.Graph.Query

/-!
# Shapes

Every predicate here looks at a node's own flags, symbol and value, and at the object flags of its
target; none walks into constituents. `Graph.shape?` folds them into one shape.
-/

namespace TypeSchema

inductive Shape where
  | enum
  | literal
  | bigIntLiteral
  | primitive
  | generic
  | union
  | intersection
  | array
  | tuple
  | function
  | date
  | indexable
  | object
deriving DecidableEq, Repr

namespace Shape

def all : List Shape :=
  [.enum, .literal, .bigIntLiteral, .primitive, .generic, .union, .intersection, .array, .tuple,
   .function, .date, .indexable, .object]

def text : Shape → String
  | .enum => "enum"
  | .literal => "literal"
  | .bigIntLiteral => "bigint_literal"
  | .primitive => "primitive"
  | .generic => "generic"
  | .union => "union"
  | .intersection => "intersection"
  | .array => "array"
  | .tuple => "tuple"
  | .function => "function"
  | .date => "date"
  | .indexable => "indexable"
  | .object => "object"

end Shape

inductive Primitive where
  | any
  | string
  | number
  | bigInt
  | boolean
  | void
  | undefined
  | null
  | never
deriving DecidableEq, Repr

namespace Primitive

/-- In the order in which flags name a primitive: the first flag present counts. -/
def all : List Primitive :=
  [.any, .string, .number, .bigInt, .boolean, .void, .undefined, .null, .never]

def text : Primitive → String
  | .any => "any"
  | .string => "string"
  | .number => "number"
  | .bigInt => "bigint"
  | .boolean => "boolean"
  | .void => "void"
  | .undefined => "undefined"
  | .null => "null"
  | .never => "never"

def flag : Primitive → Nat
  | .any => TypeFlag.any
  | .string => TypeFlag.string
  | .number => TypeFlag.number
  | .bigInt => TypeFlag.bigInt
  | .boolean => TypeFlag.boolean
  | .void => TypeFlag.void
  | .undefined => TypeFlag.undefined
  | .null => TypeFlag.null
  | .never => TypeFlag.never

def ofText? (s : String) : Option Primitive := all.find? (·.text = s)

end Primitive

/-! ### Predicates on nodes -/

namespace Node

/-- A literal type; big integers have a predicate of their own. -/
def isLiteral (n : Node) : Bool :=
  hasFlag n.flags (TypeFlag.stringLiteral ||| TypeFlag.numberLiteral ||| TypeFlag.booleanLiteral)

def isBigIntLiteral (n : Node) : Bool := hasFlag n.flags TypeFlag.bigIntLiteral

def primitive? (n : Node) : Option Primitive := Primitive.all.find? fun p => hasFlag n.flags p.flag

def isPrimitive (n : Node) : Bool := n.primitive?.isSome

def isUndefined (n : Node) : Bool := hasFlag n.flags TypeFlag.undefined

def isDefined (n : Node) : Bool := !n.isUndefined

/-- Boolean literals carry no value, only an intrinsic name. -/
def isLiteralTrue (n : Node) : Bool := n.value.isNone && n.intrinsicName == some "true"

def isLiteralFalse (n : Node) : Bool := n.value.isNone && n.intrinsicName == some "false"

def isObject (n : Node) : Bool := hasFlag n.flags TypeFlag.object

def isReference (n : Node) : Bool := n.isObject && hasFlag n.objectFlags ObjectFlag.reference

def arrayNames : List String := ["Array", "ReadonlyArray"]

/-- Arrays have no flag of their own; the name of the symbol tells them. -/
def isArray (n : Node) : Bool :=
  n.isReference && n.symbol.any fun symbol => arrayNames.contains symbol.name

def isEnum (n : Node) : Bool :=
  hasFlag n.flags TypeFlag.enumLiteral && hasFlag n.flags TypeFlag.union

def isUnion (n : Node) : Bool := hasFlag n.flags TypeFlag.union

def isIntersection (n : Node) : Bool := hasFlag n.flags TypeFlag.intersection

def isGeneric (n : Node) : Bool := hasFlag n.flags TypeFlag.typeParameter

def isFunctionLike (n : Node) : Bool :=
  n.isObject && n.symbol.any fun symbol =>
    hasFlag symbol.flags (SymbolFlag.function ||| SymbolFlag.method)

def isIndexable (n : Node) : Bool := n.isObject && n.stringIndex.isSome && n.members.isEmpty

def isBooleanPair : List Node → Bool
  | [a, b] =>
    a.isLiteral && b.isLiteral &&
      ((a.isLiteralTrue && b.isLiteralFalse) || (b.isLiteralTrue && a.isLiteralFalse))
  | _ => false

end Node

/-- Dates are told by name alone. -/
def isDateName (name : String) : Bool := name == "Date"

namespace Graph

def isTuple (g : Graph) (n : Node) : Bool :=
  n.isReference && !n.isArray && hasFlag (g.targetObjectFlags n) ObjectFlag.tuple

/-- The one shape of a node, or none when no predicate holds. A boolean is also the union of its two
values, so primitives are tried before unions. -/
def shape? (g : Graph) (n : Node) : Option Shape :=
  if n.isEnum then some .enum
  else if n.isLiteral then some .literal
  else if n.isBigIntLiteral then some .bigIntLiteral
  else if n.isPrimitive then some .primitive
  else if n.isGeneric then some .generic
  else if n.isUnion then some .union
  else if n.isIntersection then some .intersection
  else if n.isObject then
    if n.isArray then some .array
    else if g.isTuple n then some .tuple
    else if n.isFunctionLike then some .function
    else if isDateName n.displayText then some .date
    else if n.isIndexable then some .indexable
    else some .object
  else none

end Graph

/-! ### Predicates on members -/

namespace Property

def isOptional (p : Property) : Bool := hasFlag p.flags SymbolFlag.optional

def isPrototype (p : Property) : Bool := hasFlag p.flags SymbolFlag.prototype

def isGetAccessor (p : Property) : Bool := hasFlag p.flags SymbolFlag.getAccessor

def isMethod (p : Property) : Bool := hasFlag p.flags (SymbolFlag.method ||| SymbolFlag.function)

def hasModifier (p : Property) (modifier : String) : Bool := p.modifiers.contains modifier

end Property

end TypeSchema
