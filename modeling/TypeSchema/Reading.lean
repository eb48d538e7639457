import TypeSchema.Flags
import TypeSchema.Json.Reader
import TypeSchema.Text.DecimalDigit

/-!
# Reading values into types

Reading a value gives what it stands for, or every issue found, each with its location, or a halt:
something in the value that no location can account for. Parts are read in order; issues are listed
in that order, and the first halt ends the reading.
-/

namespace TypeSchema

/-! ### Issues -/

inductive Step where
  | field (name : String)
  | item (i : Nat)
deriving DecidableEq, Repr

inductive Fault where
  | missing
  | notRecord (model : String)
  | notList
  | notText
  | pattern (regex : String)
  | notInteger
  | unreadableInteger
  | hugeInteger
  | fractionalInteger
  | notFinite
  | notNumber
  | notBoolean
  | unreadableBoolean
  | notAllowed (allowed : List String)
  | notGreater (bound : Int)
  | rule (words : String)
deriving DecidableEq, Repr

namespace Fault

def code : Fault → String
  | .missing => "missing"
  | .notRecord _ => "model_type"
  | .notList => "list_type"
  | .notText => "string_type"
  | .pattern _ => "string_pattern_mismatch"
  | .notInteger => "int_type"
  | .unreadableInteger => "int_parsing"
  | .hugeInteger => "int_parsing_size"
  | .fractionalInteger => "int_from_float"
  | .notFinite => "finite_number"
  | .notNumber => "float_type"
  | .notBoolean => "bool_type"
  | .unreadableBoolean => "bool_parsing"
  | .notAllowed _ => "literal_error"
  | .notGreater _ => "greater_than"
  | .rule _ => "value_error"

/-- The allowed texts in quotes, the last joined by "or". -/
def alternatives : List String → String
  | [] => ""
  | [s] => "'" ++ s ++ "'"
  | [s, t] => "'" ++ s ++ "' or '" ++ t ++ "'"
  | s :: rest => "'" ++ s ++ "', " ++ alternatives rest

def message : Fault → String
  | .missing => "Field required"
  | .notRecord model => "Input should be a valid dictionary or instance of " ++ model
  | .notList => "Input should be a valid list"
  | .notText => "Input should be a valid string"
  | .pattern regex => "String should match pattern '" ++ regex ++ "'"
  | .notInteger => "Input should be a valid integer"
  | .unreadableInteger => "Input should be a valid integer, unable to parse string as an integer"
  | .hugeInteger => "Unable to parse input string as an integer, exceeded maximum size"
  | .fractionalInteger =>
    "Input should be a valid integer, got a number with a fractional part"
  | .notFinite => "Input should be a finite number"
  | .notNumber => "Input should be a valid number"
  | .notBoolean => "Input should be a valid boolean"
  | .unreadableBoolean => "Input should be a valid boolean, unable to interpret input"
  | .notAllowed allowed => "Input should be " ++ alternatives allowed
  | .notGreater bound => "Input should be greater than " ++ toString bound
  | .rule words => "Value error, " ++ words

end Fault

structure Issue where
  fault : Fault
  location : List Step
deriving DecidableEq, Repr

/-- What ends a reading at once. -/
inductive Halt where
  /-- A flag word is written in a way that holds no names. -/
  | flags (fault : FlagFault)
  /-- A record has a field whose name is no text. -/
  | fieldNameNotText
deriving DecidableEq, Repr

namespace Halt

def message : Halt → String
  | .flags fault => fault.message
  | .fieldNameNotText => "keywords must be strings"

end Halt

/-! ### Readings -/

inductive Reading (α : Type) where
  | ok (a : α)
  | issues (list : List Issue)
  | halt (cause : Halt)
deriving Repr

namespace Reading

variable {α β : Type}

def fault (f : Fault) : Reading α := .issues [⟨f, []⟩]

def map (f : α → β) : Reading α → Reading β
  | .ok a => .ok (f a)
  | .issues list => .issues list
  | .halt cause => .halt cause

/-- Both parts are read; the issues of the first come first. -/
def both : Reading α → Reading β → Reading (α × β)
  | .halt cause, _ => .halt cause
  | _, .halt cause => .halt cause
  | .ok a, .ok b => .ok (a, b)
  | .ok _, .issues list => .issues list
  | .issues list, .ok _ => .issues list
  | .issues list, .issues list' => .issues (list ++ list')

instance : Functor Reading where
  map := Reading.map

instance : Applicative Reading where
  pure := .ok
  seq f a := (both f (a ())).map fun (f, a) => f a

/-- A further check, made only of what was read without issues. -/
def check (r : Reading α) (f : α → Reading β) : Reading β :=
  match r with
  | .ok a => f a
  | .issues list => .issues list
  | .halt cause => .halt cause

/-- The reading of a part, its issues located below the whole. -/
def below (step : Step) : Reading α → Reading α
  | .issues list => .issues (list.map fun i => { i with location := step :: i.location })
  | other => other

/-! ### Scalars -/

/-- The digits with underscores between them taken out, or none if an underscore stands elsewhere or
some other character is among them. -/
def plainDigits? : List Char → Option (List Char)
  | [] => none
  | [d] => if d.isDigit then some [d] else none
  | d :: '_' :: rest => if d.isDigit then (plainDigits? rest).map (d :: ·) else none
  | d :: rest => if d.isDigit then (plainDigits? rest).map (d :: ·) else none

/-- The integer written by a text: blanks around it, a sign and a fraction of zeros are allowed. A
minus sign counts as a digit, and zeros in front do not. -/
def integerOfText (s : String) : Reading Int :=
  let cs := Text.trim Text.isWhiteSpace s.toList
  let (negative, cs) := match cs with
    | '-' :: rest => (true, rest)
    | '+' :: rest => (false, rest)
    | rest => (false, rest)
  let (whole, fraction) := cs.span (· ≠ '.')
  let zeros := match fraction with
    | [] => true
    | _ :: zeros => !zeros.isEmpty && zeros.all (· = '0')
  match plainDigits? whole with
  | none => fault .unreadableInteger
  | some ds =>
    if !zeros then fault .unreadableInteger
    else if Text.maxDigits < (ds.dropWhile (· = '0')).length + negative.toNat then fault .hugeInteger
    else
      let n : Int := Text.digitsValue ds
      .ok (if negative then -n else n)

/-- The least magnitude that words of 64 bits with a sign do not hold. -/
def wordLimit : Int := 0x8000000000000000

def integer : Value → Reading Int
  | .scalar (.int n) => .ok n
  | .scalar (.bool b) => .ok (if b then 1 else 0)
  | .scalar (.real x) =>
    match x.toInt? with
    | some n => if -wordLimit < n && n < wordLimit then .ok n else fault .hugeInteger
    | none => fault (if x.isFinite then .fractionalInteger else .notFinite)
  | .scalar (.text s) => integerOfText s
  | _ => fault .notInteger

def trueWords : List String := ["1", "on", "t", "true", "y", "yes"]

def falseWords : List String := ["0", "off", "f", "false", "n", "no"]

/-- Zero and one are truth values; numbers beyond words of 64 bits are not even looked at. -/
def booleanOfInt (n : Int) : Reading Bool :=
  if n = 0 then .ok false
  else if n = 1 then .ok true
  else if -wordLimit ≤ n && n < wordLimit then fault .unreadableBoolean
  else fault .notBoolean

def boolean : Value → Reading Bool
  | .scalar (.bool b) => .ok b
  | .scalar (.int n) => booleanOfInt n
  | .scalar (.real x) =>
    match x.toInt? with
    | some n => if -wordLimit < n then booleanOfInt n else fault .notBoolean
    | none => fault .notBoolean
  | .scalar (.text s) =>
    let word := String.ofList (s.toList.map Char.toLower)
    if trueWords.contains word then .ok true
    else if falseWords.contains word then .ok false
    else fault .unreadableBoolean
  | _ => fault .notBoolean

def text : Value → Reading String
  | .scalar (.text s) => .ok s
  | _ => fault .notText

/-- A text of decimal digits of any script, at least one. -/
def digitText : Value → Reading String
  | .scalar (.text s) =>
    if !s.isEmpty && s.toList.all Text.isDecimalDigit then .ok s else fault (.pattern "^\\d+$")
  | _ => fault .notText

def oneOf (things : List (String × α)) : Value → Reading α
  | .scalar (.text s) =>
    match things.find? (·.1 = s) with
    | some (_, thing) => .ok thing
    | none => fault (.notAllowed (things.map (·.1)))
  | _ => fault (.notAllowed (things.map (·.1)))

/-- A flag word. An unknown name and a long rest are issues, all else that is wrong halts. -/
def flagWord (c : FlagClass) (v : Value) : Reading Nat :=
  match c.read v with
  | .ok word => .ok word
  | .error (.unknownName c name) => fault (.rule (FlagFault.unknownName c name).message)
  | .error .longRest => fault (.rule FlagFault.longRest.message)
  | .error other => .halt (.flags other)

/-! ### Lists and records -/

def itemsFrom (read : Value → Reading α) : Nat → List Value → Reading (List α)
  | _, [] => .ok []
  | i, item :: rest =>
    (both ((read item).below (.item i)) (itemsFrom read (i + 1) rest)).map fun (a, as) => a :: as

def list (read : Value → Reading α) : Value → Reading (List α)
  | .list items => itemsFrom read 0 items
  | _ => fault .notList

def nullable (read : Value → Reading α) : Value → Reading (Option α)
  | .scalar .null => .ok none
  | v => (read v).map some

/-- The fields of a record; `model` names what is expected. -/
def record (model : String) (read : Value → Reading α) : Value → Reading α
  | .map entries => read (.map entries)
  | _ => fault (.notRecord model)

def field (name : String) (read : Value → Reading α) (v : Value) : Reading α :=
  (match v.field? name with
    | some part => read part
    | none => fault .missing).below (.field name)

def fieldOr (name : String) (default : α) (read : Value → Reading α) (v : Value) : Reading α :=
  match v.field? name with
  | some part => (read part).below (.field name)
  | none => .ok default

/-- The fields of a whole document, all of whose names must be texts. -/
def document (read : Value → Reading α) (entries : List (Scalar × Value)) : Reading α :=
  let named := entries.all fun entry => match entry.1 with
    | .text _ => true
    | _ => false
  if named then read (.map entries) else .halt .fieldNameNotText

end Reading

end TypeSchema
