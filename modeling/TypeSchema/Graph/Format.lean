import TypeSchema.Graph.Reader
import TypeSchema.Schema

/-!
# The format of graph documents

The JSON Schema of the documents that `Graph.read` accepts, up to the rule that they are closed.
-/

namespace TypeSchema.Graph.Format

def titleOf (name : String) : String := String.ofList (go true name.toList)
where
  go : Bool → List Char → List Char
    | _, [] => []
    | _, '_' :: rest => ' ' :: go true rest
    | start, c :: rest => (if start then c.toUpper else c) :: go false rest

def title (name : String) : String × Value := ("title", .text (titleOf name))

def definition (model : String) : Value := .fields [("$ref", .text ("#/$defs/" ++ model))]

/-- A field of one type; `more` stands before its title. -/
def single (name type : String) (more : List (String × Value)) : String × Value :=
  (name, .fields (more ++ [title name, ("type", .text type)]))

def listOf (name : String) (item : Value) : String × Value := single name "array" [("items", item)]

def orNull (choices : List Value) : List (String × Value) :=
  [("anyOf", .list (choices ++ [Fragment.typed "null"])), ("default", .null)]

def choice (name : String) (choices : List Value) : String × Value :=
  (name, .fields (orNull choices ++ [title name]))

def model (name : String) (description? : Option String) (properties : List (String × Value))
    (required : List String) : List (String × Value) :=
  (description?.map fun s => ("description", Value.text s)).toList ++
    [("properties", .fields properties), ("required", .texts required), ("title", .text name),
     ("type", .text "object")]

def integer : Value := Fragment.typed "integer"

def text : Value := Fragment.typed "string"

def bigInt : String × Value :=
  ("BigIntValue", .fields <| model "BigIntValue" none
    [single "negative" "boolean" [("default", .bool false)],
     single "base10_value" "string" [("pattern", .text "^\\d+$")]]
    ["base10_value"])

def declaration : String × Value :=
  ("DeclarationSpec", .fields <| model "DeclarationSpec" none
    [single "name" "string" [],
     single "kind" "string" [("enum", .texts (DeclarationKind.all.map DeclarationKind.text))],
     single "type" "integer" []]
    ["name", "kind", "type"])

def member : String × Value :=
  ("MemberSpec", .fields <| model "MemberSpec" (some "Property-like member of an object node.")
    [single "name" "string" [], single "type" "integer" [],
     single "optional" "boolean" [("default", .bool false)],
     single "flags" "integer" [("default", .int SymbolFlag.property)],
     listOf "modifiers" text, choice "accessor_type" [integer]]
    ["name", "type"])

def symbol : String × Value :=
  ("SymbolSpec", .fields <| model "SymbolSpec" (some "Name binding attached to a type node.")
    [single "name" "string" [], single "flags" "integer" [("default", .int 0)]]
    ["name"])

def node : String × Value :=
  ("TypeNodeSpec", .fields <| model "TypeNodeSpec"
    (some "One node of the type graph, as dumped by a type checker.")
    [single "id" "integer" [], single "flags" "integer" [],
     single "object_flags" "integer" [("default", .int 0)],
     ("symbol", .fields (orNull [definition "SymbolSpec"])),
     choice "value" [definition "BigIntValue", integer, Fragment.typed "number", text],
     choice "intrinsic_name" [text], listOf "types" integer, listOf "type_arguments" integer,
     choice "target" [integer], listOf "members" (definition "MemberSpec"),
     choice "string_index" [integer], choice "display" [text]]
    ["id", "flags"])

/-- The whole schema, definitions in order of their names. -/
def schema : Value :=
  .fields <| ("$defs", .fields [bigInt, declaration, member, symbol, node]) ::
    model Graph.modelName
      (some "Top-level serialized graph: nodes plus the file's declarations.")
      [listOf "nodes" (definition "TypeNodeSpec"),
       listOf "declarations" (definition "DeclarationSpec")]
      ["nodes"]

end TypeSchema.Graph.Format
