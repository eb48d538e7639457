import TypeSchema.Fragment

/-!
# Schemas

The fragments that resolution produces, as a type of their own: `Schema.render` writes them through
the builders of `TypeSchema.Fragment`.
-/

namespace TypeSchema

inductive LiteralValue where
  | bool (b : Bool)
  | int (n : Int)
  | real (x : Real64)
  | text (s : String)
deriving DecidableEq, Repr

namespace LiteralValue

def toValue : LiteralValue → Value
  | .bool b => .bool b
  | .int n => .int n
  | .real x => .real x
  | .text s => .text s

end LiteralValue

inductive Schema where
  | any
  /-- One of the primitive types that JSON Schema names. -/
  | typed (name : String)
  | never
  | enum (values : List LiteralValue)
  | array (item : Schema)
  | tuple (items : List Schema)
  | object (properties : List (String × Schema)) (required : List String) (index : Option Schema)
  | indexable (value : Schema)
  | generic (name : String)
  | anyOf (options : List Schema)
  | allOf (parts : List Schema)
  | date
  | reference (name : String)
  | circular (name : String)
deriving Repr

namespace Schema

/-- Big integers have no schema. -/
def ofPrimitive? : Primitive → Option Schema
  | .any => some any
  | .void | .undefined => some (typed "undefined")
  | .null => some (typed "null")
  | .never => some never
  | .string => some (typed "string")
  | .number => some (typed "number")
  | .boolean => some (typed "boolean")
  | .bigInt => none

/-- A closed object of these properties in this order. -/
def ofEntries (entries : List (Entry Schema)) (index : Option Schema) : Schema :=
  .object (Entry.properties entries) (Entry.required entries) index

/-- One schema stands for itself, several must hold together. -/
def conjoin : List Schema → Schema
  | [schema] => schema
  | schemas => .allOf schemas

mutual

def render : Schema → Value
  | .any => Fragment.any
  | .typed name => Fragment.typed name
  | .never => Fragment.never
  | .enum values => Fragment.enum (values.map LiteralValue.toValue)
  | .array item => Fragment.array item.render
  | .tuple items => Fragment.tuple (renderAll items)
  | .object properties required index =>
    Fragment.object (renderProperties properties) required (renderIndex index)
  | .indexable value => Fragment.indexable value.render
  | .generic name => Fragment.generic name
  | .anyOf options => Fragment.anyOf (renderAll options)
  | .allOf parts => Fragment.allOf (renderAll parts)
  | .date => Fragment.date
  | .reference name => Fragment.reference name
  | .circular name => Fragment.circular name

def renderAll : List Schema → List Value
  | [] => []
  | schema :: rest => schema.render :: renderAll rest

def renderProperties : List (String × Schema) → List (String × Value)
  | [] => []
  | (name, schema) :: rest => (name, schema.render) :: renderProperties rest

def renderIndex : Option Schema → Option Value
  | none => none
  | some schema => some schema.render

end

theorem renderAll_eq_map (schemas : List Schema) : renderAll schemas = schemas.map render := by
  induction schemas with
  | nil => rfl
  | cons schema rest ih => simp [renderAll, ih]

theorem renderProperties_eq_map (properties : List (String × Schema)) :
    renderProperties properties = properties.map fun p => (p.1, p.2.render) := by
  induction properties with
  | nil => rfl
  | cons p rest ih => simp [renderProperties, ih]

theorem renderIndex_eq_map (index : Option Schema) : renderIndex index = index.map render := by
  cases index <;> rfl

end Schema

end TypeSchema
