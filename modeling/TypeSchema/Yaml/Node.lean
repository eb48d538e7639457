import TypeSchema.Yaml.Scalar

/-!
# Nodes

A YAML text denotes a tree of nodes, each with a tag. Their values are made level by level: first
the scalars beside a collection, then what is inside it. So of two faults the one at the higher
level is met first, and of two on one level the one further to the left.
-/

namespace TypeSchema.Yaml

inductive Node where
  | scalar (tag : Tag) (text : String)
  | list (tag : Tag) (items : List Node)
  | map (tag : Tag) (entries : List (Node × Node))
  /-- A map into which something other than maps is merged. -/
  | badMerge
deriving Repr

namespace Node

def isMergeKey : Node → Bool
  | .scalar .merge _ => true
  | _ => false

/-! ### Merging -/

/-- The entries to be merged from a map, or from a list of maps of which the first counts most. -/
def source? : Node → Option (List (Node × Node))
  | .map _ entries => some entries
  | .list _ items => items.foldrM (fun item entries =>
      match item with
      | .map _ first => some (entries ++ first)
      | _ => none) []
  | _ => none

/-- The mark of a stand-in is an ordinary key in a map. -/
def ordinaryKey : Node → Node
  | .scalar .standIn text => .scalar .text text
  | key => key

/-- A map of entries: those that are merged come before its own, which replace them. -/
def ofEntries (tag : Tag) (entries : List (Node × Node)) : Node :=
  let (merges, own) := entries.partition fun entry => entry.1.isMergeKey
  match merges.mapM fun entry => source? entry.2 with
  | some merged => .map tag (merged.flatten ++ own.map fun (key, value) => (key.ordinaryKey, value))
  | none => .badMerge

/-! ### Values -/

/-- A value, or the first fault in it with the level at which it is met. -/
abbrev Leveled (α : Type) := Except (Nat × Fault) α

namespace Leveled

def malformed {α : Type} : Leveled α := .error (0, .malformed)

def ofExcept {α : Type} (r : Except Fault α) : Leveled α := r.mapError fun fault => (0, fault)

def inside {α : Type} (r : Leveled α) : Leveled α :=
  r.mapError fun (level, fault) => (level + 1, fault)

def both {α β : Type} : Leveled α → Leveled β → Leveled (α × β)
  | .ok a, .ok b => .ok (a, b)
  | .ok _, .error e => .error e
  | .error e, .ok _ => .error e
  | .error e, .error e' => .error (if e'.1 < e.1 then e' else e)

end Leveled

def key : Node → Leveled Scalar
  | .scalar tag text => .ofExcept (tag.scalar text)
  | _ => .malformed

/-- The whole number that a number or a truth value is equal to. -/
def whole? : Scalar → Option Int
  | .bool b => some b.toNat
  | .int n => some n
  | .real x => x.toInt?
  | .null | .text _ | .date .. => none

/-- Numbers and truth values that are equal are one key. -/
def isSameKey (s t : Scalar) : Bool :=
  s = t || ((whole? s).isSome && whole? s = whole? t)

def putEntry (key : Scalar) (value : Value) : Table Scalar Value → Table Scalar Value
  | [] => [(key, value)]
  | entry :: rest =>
    if isSameKey entry.1 key then (entry.1, value) :: rest else entry :: putEntry key value rest

/-- The entries, of which a later one replaces the value of an earlier one of the same key. -/
def tableOf (entries : List (Scalar × Value)) : Table Scalar Value :=
  entries.foldl (fun table entry => putEntry entry.1 entry.2 table) []

mutual

def leveled : Node → Leveled Value
  | .scalar tag text =>
    if tag.isCollection then Leveled.malformed.inside
    else (Leveled.ofExcept (tag.scalar text)).map .scalar
  | .list .list items => (leveledItems items).inside.map .list
  | .map .map entries => (leveledEntries entries).inside.map fun es => .map (tableOf es)
  | .list .foreign _ | .map .foreign _ => .error (0, .foreign)
  | .list tag _ | .map tag _ =>
    if tag.isCollection then Leveled.malformed.inside else .malformed
  | .badMerge => Leveled.malformed.inside

def leveledItems : List Node → Leveled (List Value)
  | [] => .ok []
  | item :: rest => (Leveled.both (leveled item) (leveledItems rest)).map fun (v, vs) => v :: vs

def leveledEntries : List (Node × Node) → Leveled (List (Scalar × Value))
  | [] => .ok []
  | (k, item) :: rest =>
    let entry := Leveled.both k.key (leveled item)
    (entry.both (leveledEntries rest)).map fun (e, es) => e :: es

end

/-- The value of a node, or the first fault met on the way to it. -/
def value (n : Node) : Except Fault Value := (leveled n).mapError (·.2)

end Node

end TypeSchema.Yaml
