import TypeSchema.Graph.Basic
import TypeSchema.Reading

/-!
# Reading graphs

The fields of every part of a graph, in the order in which their issues are listed, and the rule
that a graph is closed, which is checked once nothing else is wrong.
-/

namespace TypeSchema

open Reading

namespace Symbol

def read : Value → Reading Symbol :=
  record "SymbolSpec" fun v =>
    Symbol.mk <$> field "name" text v <*> fieldOr "flags" 0 (flagWord .symbol) v

end Symbol

namespace BigInt

def read : Value → Reading BigInt :=
  record "BigIntValue" fun v =>
    BigInt.mk <$> fieldOr "negative" false boolean v <*> field "base10_value" digitText v

end BigInt

namespace Literal

/-- Integers, reals and texts stay what they are, and a boolean is its integer. An object is a big
integer. When none fits, the issues of every choice are listed. -/
def read (v : Value) : Reading Literal :=
  let noChoice (list : List Issue) : Reading Literal :=
    .issues (list.map (fun i => { i with location := .field "BigIntValue" :: i.location }) ++
      [⟨.notInteger, [.field "int"]⟩, ⟨.notNumber, [.field "float"]⟩, ⟨.notText, [.field "str"]⟩])
  match v with
  | .scalar (.int n) => .ok (.int n)
  | .scalar (.bool b) => .ok (.int (if b then 1 else 0))
  | .scalar (.real x) => .ok (.real x)
  | .scalar (.text s) => .ok (.text s)
  | v =>
    match BigInt.read v with
    | .ok n => .ok (.bigInt n)
    | .issues list => noChoice list
    | .halt cause => .halt cause

end Literal

namespace Member

def read : Value → Reading Member :=
  record "MemberSpec" fun v =>
    Member.mk <$> field "name" text v <*> field "type" integer v <*>
      fieldOr "optional" false boolean v <*>
      fieldOr "flags" SymbolFlag.property (flagWord .symbol) v <*>
      fieldOr "modifiers" [] (list text) v <*>
      fieldOr "accessor_type" none (nullable integer) v

end Member

namespace Node

def read : Value → Reading Node :=
  record "TypeNodeSpec" fun v =>
    Node.mk <$> field "id" integer v <*> field "flags" (flagWord .type) v <*>
      fieldOr "object_flags" 0 (flagWord .object) v <*>
      fieldOr "symbol" none (nullable Symbol.read) v <*>
      fieldOr "value" none (nullable Literal.read) v <*>
      fieldOr "intrinsic_name" none (nullable text) v <*>
      fieldOr "types" [] (list integer) v <*>
      fieldOr "type_arguments" [] (list integer) v <*>
      fieldOr "target" none (nullable integer) v <*>
      fieldOr "members" [] (list Member.read) v <*>
      fieldOr "string_index" none (nullable integer) v <*>
      fieldOr "display" none (nullable text) v

end Node

namespace Declaration

def read : Value → Reading Declaration :=
  record "DeclarationSpec" fun v =>
    Declaration.mk <$> field "name" text v <*>
      field "kind" (oneOf (DeclarationKind.all.map fun k => (k.text, k))) v <*>
      field "type" integer v

end Declaration

namespace Graph

def modelName : String := "TypeGraphDocument"

def readFields (v : Value) : Reading Graph :=
  Graph.mk <$> field "nodes" (list Node.read) v <*>
    fieldOr "declarations" [] (list Declaration.read) v

/-- A graph whose fields are all right is accepted when it is closed. -/
def checkClosed (g : Graph) : Reading Graph :=
  match g.openEnd? with
  | none => .ok g
  | some e => fault (.rule e.report)

def read (entries : List (Scalar × Value)) : Reading Graph :=
  document (fun v => (readFields v).check checkClosed) entries

end Graph

end TypeSchema
