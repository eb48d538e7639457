import TypeSchema.Graph.Basic

/-!
# Graphs as values

A graph is written in full, or spare: without the fields that have their default value, at every
level.
-/

namespace TypeSchema

inductive Detail where
  | full
  | spare
deriving DecidableEq, Repr

namespace Detail

/-- A record of the given fields, each with a note whether it has its default value. -/
def record (detail : Detail) (entries : List (String × Value × Bool)) : Value :=
  .fields <| entries.filterMap fun (name, value, isDefault) =>
    if detail = .spare && isDefault then none else some (name, value)

end Detail

def Value.orNull {α : Type} (write : α → Value) : Option α → Value
  | none => .null
  | some a => write a

open Value (orNull)

namespace Symbol

def toValue (detail : Detail) (s : Symbol) : Value :=
  detail.record [("name", .text s.name, false), ("flags", .int s.flags, s.flags = 0)]

end Symbol

namespace BigInt

def toValue (detail : Detail) (n : BigInt) : Value :=
  detail.record
    [("negative", .bool n.negative, !n.negative), ("base10_value", .text n.digits, false)]

end BigInt

namespace Literal

def toValue (detail : Detail) : Literal → Value
  | .bigInt n => n.toValue detail
  | .int n => .int n
  | .real x => .real x
  | .text s => .text s

end Literal

namespace Member

def toValue (detail : Detail) (m : Member) : Value :=
  detail.record
    [("name", .text m.name, false), ("type", .int m.type, false),
     ("optional", .bool m.optional, !m.optional),
     ("flags", .int m.flags, m.flags = SymbolFlag.property),
     ("modifiers", .texts m.modifiers, m.modifiers.isEmpty),
     ("accessor_type", orNull .int m.accessorType, m.accessorType.isNone)]

end Member

namespace Node

def toValue (detail : Detail) (n : Node) : Value :=
  detail.record
    [("id", .int n.id, false), ("flags", .int n.flags, false),
     ("object_flags", .int n.objectFlags, n.objectFlags = 0),
     ("symbol", orNull (Symbol.toValue detail) n.symbol, n.symbol.isNone),
     ("value", orNull (Literal.toValue detail) n.value, n.value.isNone),
     ("intrinsic_name", orNull .text n.intrinsicName, n.intrinsicName.isNone),
     ("types", .ints n.types, n.types.isEmpty),
     ("type_arguments", .ints n.typeArguments, n.typeArguments.isEmpty),
     ("target", orNull .int n.target, n.target.isNone),
     ("members", .list (n.members.map (Member.toValue detail)), n.members.isEmpty),
     ("string_index", orNull .int n.stringIndex, n.stringIndex.isNone),
     ("display", orNull .text n.display, n.display.isNone)]

end Node

namespace Declaration

def toValue (d : Declaration) : Value :=
  .fields [("name", .text d.name), ("kind", .text d.kind.text), ("type", .int d.type)]

end Declaration

namespace Graph

def toValue (detail : Detail) (g : Graph) : Value :=
  detail.record
    [("nodes", .list (g.nodes.map (Node.toValue detail)), false),
     ("declarations", .list (g.declarations.map Declaration.toValue), g.declarations.isEmpty)]

end Graph

end TypeSchema
