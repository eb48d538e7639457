import TypeSchema.Shape
import TypeSchema.Value

/-!
# Schema fragments as values

One builder for each form of fragment, from parts that are built already. The builders fix the keys
and their order.
-/

namespace TypeSchema

structure Entry (α : Type) where
  name : String
  optional : Bool
  schema : α
deriving Repr

namespace Entry

variable {α : Type}

/-- Of equal names the last schema counts. -/
def properties (entries : List (Entry α)) : Table String α :=
  Table.ofEntries (entries.map fun e => (e.name, e.schema))

/-- Every occurrence of a name that is not optional. -/
def required (entries : List (Entry α)) : List String :=
  (entries.filter (!·.optional)).map (·.name)

/-- Entries of the same name become one, at the place of the first: it is optional if all of them
are, and its schema is the conjunction of theirs. -/
def merge (conjoin : List α → α) (entries : List (Entry α)) : List (Entry α) :=
  (entries.map (·.name)).eraseDups.map fun name =>
    let found := entries.filter (·.name = name)
    ⟨name, found.all (·.optional), conjoin (found.map (·.schema))⟩

end Entry

namespace Fragment

def draft07 : String := "http://json-schema.org/draft-07/schema#"

def any : Value := .fields []

def typed (name : String) : Value := .fields [("type", .text name)]

/-- No value is both a string and a number. -/
def never : Value :=
  .fields [("description", .text "This is a never type"),
    ("allOf", .list [typed "string", typed "number"])]

/-- Big integers have no fragment. -/
def primitive? : Primitive → Option Value
  | .any => some any
  | .void | .undefined => some (typed "undefined")
  | .null => some (typed "null")
  | .never => some never
  | .string => some (typed "string")
  | .number => some (typed "number")
  | .boolean => some (typed "boolean")
  | .bigInt => none

def array (item : Value) : Value := .fields [("type", .text "array"), ("items", item)]

def tuple (items : List Value) : Value := array (.list items)

def enum (values : List Value) : Value := .fields [("enum", .list values)]

/-- A string index constrains every key. -/
def patternProperties (index : Value) : String × Value :=
  ("patternProperties", .fields [(".*", index)])

/-- A closed object; `required` is left out when empty. -/
def object (properties : List (String × Value)) (required : List String) (index : Option Value) :
    Value :=
  .fields <|
    [("additionalProperties", .bool false), ("properties", .fields properties)] ++
    (if required.isEmpty then [] else [("required", .texts required)]) ++
    [("type", .text "object")] ++ (index.map patternProperties).toList

def ofEntries (entries : List (Entry Value)) (index : Option Value) : Value :=
  object (Entry.properties entries) (Entry.required entries) index

def indexable (value : Value) : Value :=
  .fields [("additionalProperties", .bool false), patternProperties value,
    ("properties", .fields []), ("type", .text "object")]

def generic (name : String) : Value :=
  .fields [("description", .text ("Generic type parameter " ++ name))]

def anyOf (options : List Value) : Value := .fields [("anyOf", .list options)]

def allOf (parts : List Value) : Value := .fields [("allOf", .list parts)]

def date : Value := .fields [("type", .text "string"), ("format", .text "date-time")]

def reference (name : String) : Value := .fields [("$ref", .text ("#/definitions/" ++ name))]

/-- What stands for a type inside itself when it cannot be referred to. -/
def circular (name : String) : Value :=
  .fields [("description", .text ("Circular reference to " ++ name))]

/-- A bundle: all definitions in one document, so that references find their targets. -/
def bundle (schemaUri : String) (definitions : List (String × Value)) : Value :=
  .fields [("$schema", .text schemaUri), ("definitions", .fields definitions)]

/-- A fragment as a document of its own. Only objects can declare their draft, and one that declares
a draft itself keeps it. -/
def document (schemaUri : String) : Value → Value
  | .map entries =>
    .map (Table.ofEntries ((.text "$schema", .text schemaUri) :: entries))
  | other => other

end Fragment

end TypeSchema
