import TypeSchema.Text.Blank
import TypeSchema.Value
import TypeSchema.Yaml.Tag

/-!
# Scalars with tags

What a text stands for under a tag. Plain text whose tag is that of its looks has a value unless it
is a number too long to be read, a base mark without digits, or a date that no calendar has; other
texts may be put under a tag that does not suit them.
-/

namespace TypeSchema.Yaml

open Text (digitsValue)

def dropMarks (cs : List Char) : List Char := cs.filter (· ≠ '_')

def splitSign : List Char → Bool × List Char
  | '-' :: rest => (true, rest)
  | '+' :: rest => (false, rest)
  | rest => (false, rest)

/-! ### Integers -/

def digitValue (c : Char) : Nat := (Json.hexValue? c).getD 36

def baseValue (base : Nat) (ds : List Char) : Nat :=
  ds.foldl (fun n d => base * n + digitValue d) 0

def baseMark : Nat → Char
  | 2 => 'b'
  | 8 => 'o'
  | _ => 'x'

def dropBaseMark (base : Nat) : List Char → List Char
  | '0' :: c :: rest => if base ≠ 10 && c.toLower = baseMark base then rest else '0' :: c :: rest
  | rest => rest

/-- An integer of some base: blanks around it, a sign and the mark of the base are allowed. -/
def integerIn (base : Nat) (cs : List Char) : Except Fault Int :=
  let (negative, ds) := splitSign (Text.trim Text.isBlank cs)
  let ds := dropBaseMark base ds
  if ds.isEmpty || ds.any fun d => base ≤ digitValue d then
    .error (.notInteger base (String.ofList cs))
  else if base = 10 && Text.maxDigits < ds.length then .error (.longInteger ds.length)
  else
    let n : Int := baseValue base ds
    .ok (if negative then -n else n)

/-- The integer of places in base 60, the greatest first. -/
def sixtieths (places : List Int) : Int := places.foldl (fun n place => 60 * n + place) 0

/-- The integer that a text stands for, by the mark of its base. -/
def integerOf (written : String) : Except Fault Int := do
  let cs := dropMarks written.toList
  let (negative, ds) := splitSign cs
  if ds.isEmpty then throw .emptyNumber
  let n ← match ds with
    | ['0'] => pure 0
    | '0' :: 'b' :: rest => integerIn 2 rest
    | '0' :: 'x' :: rest => integerIn 16 rest
    | '0' :: _ => integerIn 8 ds
    | _ =>
      if ds.contains ':' then sixtieths <$> (splitColons [] ds).mapM (integerIn 10)
      else integerIn 10 ds
  return if negative then -n else n

/-! ### Reals -/

def exponent? : List Char → Option Int
  | [] => some 0
  | 'e' :: rest =>
    let (negative, ds) := splitSign rest
    if ds.isEmpty || !ds.all Char.isDigit then none
    else
      let n : Int := digitsValue ds
      some (if negative then -n else n)
  | _ => none

/-- A decimal of digits, with a point or without one. -/
def decimal? (cs : List Char) : Option Real64 :=
  let (whole, rest) := cs.span Char.isDigit
  let (fraction, rest) := match rest with
    | '.' :: rest => rest.span Char.isDigit
    | rest => ([], rest)
  if whole.isEmpty && fraction.isEmpty then none
  else (exponent? rest).map fun e => Real64.ofDecimal (digitsValue (whole ++ fraction))
    (e - fraction.length)

/-- A real in lower case: blanks around it and a sign are allowed. -/
def realIn (cs : List Char) : Except Fault Real64 :=
  let (negative, ds) := splitSign (Text.trim Text.isBlank cs)
  let word := String.ofList ds
  let read :=
    if word = "inf" || word = "infinity" then some Real64.infinity
    else if word = "nan" then some Real64.nan
    else decimal? ds
  match read with
  | some x => .ok (if negative then x.neg else x)
  | none => .error (.notReal (String.ofList cs))

/-- The sum of places in base 60, the least first, rounded at each step. -/
def sumSixtieths : List Real64 → Nat → Float → Except Fault Float
  | [], _, sum => .ok sum
  | place :: rest, base, sum =>
    let weight := Real64.ofDecimal base 0
    if weight.isFinite then sumSixtieths rest (60 * base) (sum + place.toFloat * weight.toFloat)
    else .error .hugeReal

def realOf (written : String) : Except Fault Real64 := do
  let cs := (dropMarks written.toList).map Char.toLower
  if cs.isEmpty then throw .emptyNumber
  let (negative, ds) := splitSign cs
  let word := String.ofList ds
  let x ←
    if word = ".inf" then pure Real64.infinity
    else if word = ".nan" then pure Real64.nan
    else if ds.contains ':' then
      let places ← (splitColons [] ds).mapM realIn
      Real64.ofFloat <$> sumSixtieths places.reverse 1 0.0
    else realIn ds
  return if negative then x.neg else x

/-! ### Other scalars -/

def truthValueOf (written : String) : Except Fault Bool :=
  let word := String.ofList (written.toList.map Char.toLower)
  if ["yes", "true", "on"].contains word then .ok true
  else if ["no", "false", "off"].contains word then .ok false
  else .error (.notTruthValue word)

/-- A date as it is written; a line feed at its end does not count. -/
def dateOf (written : String) : Except Fault Scalar :=
  let cs := written.toList
  let cs := if cs.getLast? = some '\n' then cs.dropLast else cs
  match Date.read? cs with
  | none => .error .notDate
  | some d =>
    match d.fault? with
    | some fault => .error (.badDate fault)
    | none => .ok (.date written d.clock?.isSome)

namespace Tag

def scalar (tag : Tag) (written : String) : Except Fault Scalar :=
  match tag with
  | .null => .ok .null
  | .bool => Scalar.bool <$> truthValueOf written
  | .int => Scalar.int <$> integerOf written
  | .real => Scalar.real <$> realOf written
  | .date => dateOf written
  | .text => .ok (.text written)
  | .foreign => .error .foreign
  | _ => .error .malformed

end Tag

end TypeSchema.Yaml
