import TypeSchema.Text.Blank
import TypeSchema.Text.Digits
import TypeSchema.Value

/-!
# Flag words

A flag word is a natural number read as a set of bits. Each of the three classes of flags names its
lowest bits; higher bits are kept as they are. Words are read from integers of either sign, from
names, and from names joined by a bar.
-/

namespace TypeSchema

inductive FlagClass where
  | type
  | object
  | symbol
deriving DecidableEq, Repr

namespace FlagClass

/-- The names of the bits, lowest bit first. -/
def names : FlagClass → List String
  | .type =>
    ["Any", "Unknown", "String", "Number", "Boolean", "Enum", "BigInt", "StringLiteral",
     "NumberLiteral", "BooleanLiteral", "EnumLiteral", "BigIntLiteral", "ESSymbol",
     "UniqueESSymbol", "Void", "Undefined", "Null", "Never", "TypeParameter", "Object",
     "Union", "Intersection"]
  | .object => ["Class", "Interface", "Reference", "Tuple", "Anonymous", "Mapped"]
  | .symbol =>
    ["FunctionScopedVariable", "BlockScopedVariable", "Property", "EnumMember", "Function",
     "Class", "Interface", "ConstEnum", "RegularEnum", "ValueModule", "NamespaceModule",
     "TypeLiteral", "ObjectLiteral", "Method", "Constructor", "GetAccessor", "SetAccessor",
     "Signature", "TypeParameter", "TypeAlias", "ExportValue", "Alias", "Prototype",
     "ExportStar", "Optional", "Transient"]

def label : FlagClass → String
  | .type => "TypeFlags"
  | .object => "ObjectFlags"
  | .symbol => "SymbolFlags"

def width (c : FlagClass) : Nat := c.names.length

def members (c : FlagClass) : List (String × Nat) :=
  c.names.zipIdx.map fun (name, i) => (name, 1 <<< i)

/-- The word of one name; `NONE` names the empty word. -/
def ofName? (c : FlagClass) (name : String) : Option Nat :=
  if name = "NONE" then some 0 else (c.names.findIdx? (· = name)).map (1 <<< ·)

def namesOf (c : FlagClass) (word : Nat) : List String :=
  (c.names.zipIdx.filter fun (_, i) => word.testBit i).map (·.1)

/-- The word of an integer. A negative integer counts back from the end of the named bits or, below
their range, from the least power of two above its magnitude. -/
def ofInt (c : FlagClass) : Int → Nat
  | .ofNat n => n
  | .negSucc n =>
    let magnitude := n + 1
    let span := 1 <<< c.width
    if magnitude ≤ span then span - magnitude else max span (1 <<< (magnitude.log2 + 1)) - magnitude

end FlagClass

/-! ### Bits that matter -/

namespace TypeFlag

def any : Nat := 1 <<< 0
def string : Nat := 1 <<< 2
def number : Nat := 1 <<< 3
def boolean : Nat := 1 <<< 4
def bigInt : Nat := 1 <<< 6
def stringLiteral : Nat := 1 <<< 7
def numberLiteral : Nat := 1 <<< 8
def booleanLiteral : Nat := 1 <<< 9
def enumLiteral : Nat := 1 <<< 10
def bigIntLiteral : Nat := 1 <<< 11
def void : Nat := 1 <<< 14
def undefined : Nat := 1 <<< 15
def null : Nat := 1 <<< 16
def never : Nat := 1 <<< 17
def typeParameter : Nat := 1 <<< 18
def object : Nat := 1 <<< 19
def union : Nat := 1 <<< 20
def intersection : Nat := 1 <<< 21

end TypeFlag

namespace ObjectFlag

def reference : Nat := 1 <<< 2
def tuple : Nat := 1 <<< 3

end ObjectFlag

namespace SymbolFlag

def property : Nat := 1 <<< 2
def function : Nat := 1 <<< 4
def method : Nat := 1 <<< 13
def getAccessor : Nat := 1 <<< 15
def prototype : Nat := 1 <<< 22
def optional : Nat := 1 <<< 24

end SymbolFlag

def hasFlag (word mask : Nat) : Bool := word &&& mask != 0

/-! ### Reading words -/

/-- Why a value is no flag word. An unknown name and a long rest are ordinary faults of the value; the
other two stop the reading of the whole document. -/
inductive FlagFault where
  | unknownName (c : FlagClass) (name : String)
  /-- The bits without names are a number of too many digits, and some bit has a name. -/
  | longRest
  /-- The value holds no names at all; `kind` is its kind. -/
  | notNames (kind : String)
  /-- An item among the names is no text; `kind` is its kind. -/
  | nameNotText (kind : String)
deriving DecidableEq, Repr

namespace FlagFault

def message : FlagFault → String
  | .unknownName c name => "Unknown " ++ c.label ++ " member '" ++ name ++ "'"
  | .longRest => Text.longInteger
  | .notNames kind => "'" ++ kind ++ "' object is not iterable"
  | .nameNotText kind => "'" ++ kind ++ "' object has no attribute 'strip'"

end FlagFault

def Scalar.kindName : Scalar → String
  | .null => "NoneType"
  | .bool _ => "bool"
  | .int _ => "int"
  | .real _ => "float"
  | .text _ => "str"
  | .date _ timed => if timed then "datetime.datetime" else "datetime.date"

def Value.kindName : Value → String
  | .scalar s => s.kindName
  | .list _ => "list"
  | .map _ => "dict"

namespace FlagClass

/-- Adds one written name to a word; surrounding blanks and empty names do not count. -/
def addName (c : FlagClass) (word : Nat) (written : String) : Except FlagFault Nat :=
  let name := String.ofList (Text.trim Text.isBlank written.toList)
  if name = "" then .ok word
  else match c.ofName? name with
    | some bit => .ok (word ||| bit)
    | none => .error (.unknownName c name)

def ofNames (c : FlagClass) (written : List String) : Except FlagFault Nat :=
  written.foldlM c.addName 0

def splitBars : List Char → List Char → List String
  | piece, [] => [String.ofList piece.reverse]
  | piece, '|' :: rest => String.ofList piece.reverse :: splitBars [] rest
  | piece, c :: rest => splitBars (c :: piece) rest

def addItem (c : FlagClass) (word : Nat) : Value → Except FlagFault Nat
  | .scalar (.text written) => c.addName word written
  | other => .error (.nameNotText other.kindName)

/-- The bits of a word that have no names. -/
def restOf (c : FlagClass) (word : Nat) : Nat := word >>> c.width <<< c.width

/-- A word of named and other bits is spelled out as it is made: the names, and the rest as a number. -/
def isSpelled (c : FlagClass) (word : Nat) : Bool :=
  c.restOf word == 0 || c.restOf word == word || !Text.isLong (c.restOf word)

def ofInteger (c : FlagClass) (n : Int) : Except FlagFault Nat :=
  if c.isSpelled (c.ofInt n) then .ok (c.ofInt n) else .error .longRest

/-- The flag word that a value stands for: nothing is the empty word, a text holds names between
bars, a list holds one name an item, and a map has its keys for names. -/
def read (c : FlagClass) : Value → Except FlagFault Nat
  | .scalar .null => .ok 0
  | .scalar (.bool b) => c.ofInteger (if b then 1 else 0)
  | .scalar (.int n) => c.ofInteger n
  | .scalar (.text written) => c.ofNames (splitBars [] written.toList)
  | .scalar other => .error (.notNames other.kindName)
  | .list items => items.foldlM c.addItem 0
  | .map entries => (entries.map fun entry => Value.scalar entry.1).foldlM c.addItem 0

end FlagClass

end TypeSchema
