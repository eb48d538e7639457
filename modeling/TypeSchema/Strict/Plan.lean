import TypeSchema.Strict.Query

/-!
# Strict plans

Plans as they are made, with every query and every text that this takes.
-/

namespace TypeSchema

/-- Why a node has no plan. -/
inductive Obstacle where
  | fault (cause : Cause)
  /-- A fault that is told without its place. -/
  | stray (cause : Cause)
  | breach (breach : Breach)
deriving DecidableEq, Repr

namespace Strict

def ask {α : Type} (x : Except Breach α) : Except Obstacle α := x.mapError .breach

/-- A fault of the node, in whose words its text stands. -/
def refuse {α : Type} (n : Node) (problem : String → Problem) : Except Obstacle α := do
  ask (checkText n)
  throw (.fault (.unclassified (problem n.displayText)))

/-- The value of a literal in an enum, where its text is asked for as well. -/
def literalValue (n : Node) : Except Obstacle LiteralValue := do
  ask (checkText n)
  n.literalValue.mapError .fault

def enumPlan (g : Graph) (n : Node) : Except Obstacle Plan := do
  let members ← ask (constituents g n)
  match members.find? (!·.isLiteral) with
  | some member => refuse member .memberNotLiteral
  | none => return .leaf (.enum (← members.mapM literalValue))

/-- The plan of a union of several types. -/
def optionsPlan (types : List Node) : Except Obstacle Plan :=
  if Node.isBooleanPair types then .ok (.leaf (.typed "boolean"))
  else do
    let literals := types.filter Node.isLiteral
    let others := types.filter (!·.isLiteral)
    let boolean := literals.any Node.isLiteralTrue && literals.any Node.isLiteralFalse
    let valued :=
      if boolean then literals.filter fun t => !t.isLiteralTrue && !t.isLiteralFalse
      else literals
    let values ← valued.mapM literalValue
    return if others.isEmpty && !boolean then .leaf (.enum values)
      else
        .anyOf ((if boolean then [.typed "boolean"] else []) ++
          (if valued.isEmpty then [] else [.enum values])) others

def unionPlan (g : Graph) (n : Node) : Except Obstacle Plan := do
  match (← ask (constituents g n)).filter Node.isDefined with
  | [] => return .leaf (.typed "undefined")
  | [node] => return .forward node
  | types => optionsPlan types

def shapeOf (g : Graph) (n : Node) : Except Obstacle Shape := do
  match ← ask (shape? g n) with
  | some shape => return shape
  | none => refuse n .unhandled

def areMergeable (g : Graph) : List Node → Except Obstacle Bool
  | [] => .ok true
  | part :: rest => do
    let shape ← shapeOf g part
    if shape = .object || shape = .indexable then areMergeable g rest else .ok false

def intersectionPlan (g : Graph) (settings : ResolverSettings) (n : Node) : Except Obstacle Plan := do
  let parts ← ask (constituents g n)
  let mergeable ← areMergeable g parts
  if !parts.isEmpty && mergeable then
    let slots ← ask (parts.mapM (slots g settings))
    let indexes ← ask (parts.mapM (stringIndexType? g))
    return .merged slots.flatten (indexes.filterMap id)
  return .allOf parts

def objectPlan (g : Graph) (settings : ResolverSettings) (n : Node) : Except Obstacle Plan := do
  let slots ← ask (slots g settings n)
  return .object slots (← ask (stringIndexType? g n))

def planOf (g : Graph) (settings : ResolverSettings) (n : Node) : Shape → Except Obstacle Plan
  | .enum => enumPlan g n
  | .literal => return .leaf (.enum [← literalValue n])
  | .bigIntLiteral => do
    ask (checkValue n)
    throw (.fault (.unsupportedPrimitive ("bigint literal " ++ n.valueText)))
  | .primitive =>
    match n.primitive? with
    | none => do
      ask (checkText n)
      throw (.stray (.unclassified (.notPrimitive n.displayText)))
    | some p =>
      match Schema.ofPrimitive? p with
      | some schema => return .leaf schema
      | none => throw (.fault (.unsupportedPrimitive p.text))
  | .generic => do
    ask (checkText n)
    return .leaf (.generic n.displayText)
  | .union => unionPlan g n
  | .intersection => intersectionPlan g settings n
  | .array => return .array (← ask (typeArguments g n)).head?
  | .tuple => return .tuple (← ask (typeArguments g n))
  | .function => refuse n .function
  | .date => if settings.datesAsStrings then return .leaf .date else objectPlan g settings n
  | .indexable => do
    match ← ask (stringIndexType? g n) with
    | some value => return .indexable value
    | none => throw (.fault (.unclassified (.described "indexable type without an index signature")))
  | .object => objectPlan g settings n

def plan (g : Graph) (settings : ResolverSettings) (n : Node) : Except Obstacle Plan := do
  planOf g settings n (← shapeOf g n)

end Strict

end TypeSchema
