import TypeSchema.Json.Reader
import TypeSchema.Yaml.Date

/-!
# Tags

The tag of a scalar or collection tells what it is. Plain text without a tag has the tag of what it
looks like: a truth value, a number, nothing, a date, a mark, or the text itself. Integers may be
binary, octal, hexadecimal or in base 60, with underscores among the digits; reals need a point.
-/

namespace TypeSchema.Yaml

inductive Tag where
  | null
  | bool
  | int
  | real
  | date
  | text
  | list
  | map
  /-- Bytes, a set, or a list of pairs. -/
  | foreign
  /-- The mark of a key whose value is merged into the map. -/
  | merge
  /-- The mark of a key whose value stands for the map. -/
  | standIn
  | unknown
deriving DecidableEq, Repr

namespace Tag

def ofName : String → Tag
  | "null" => .null
  | "bool" => .bool
  | "int" => .int
  | "float" => .real
  | "timestamp" => .date
  | "str" => .text
  | "seq" => .list
  | "map" => .map
  | "binary" | "set" | "pairs" | "omap" => .foreign
  | "merge" => .merge
  | "value" => .standIn
  | _ => .unknown

/-- Tags of collections, which are filled only after all that stands beside them. -/
def isCollection : Tag → Bool
  | .list | .map => true
  | _ => false

end Tag

/-! ### Words -/

def nullWords : List String := ["", "~", "null", "Null", "NULL"]

def trueWords : List String := ["yes", "Yes", "YES", "true", "True", "TRUE", "on", "On", "ON"]

def falseWords : List String := ["no", "No", "NO", "false", "False", "FALSE", "off", "Off", "OFF"]

/-! ### Numbers -/

def isDigitMark (c : Char) : Bool := c.isDigit || c = '_'

def dropSign : List Char → List Char
  | '-' :: rest => rest
  | '+' :: rest => rest
  | rest => rest

def splitColons : List Char → List Char → List (List Char)
  | piece, [] => [piece.reverse]
  | piece, ':' :: rest => piece.reverse :: splitColons [] rest
  | piece, c :: rest => splitColons (c :: piece) rest

def isSixtieth : List Char → Bool
  | [d] => d.isDigit
  | [a, b] => '0' ≤ a && a ≤ '5' && b.isDigit
  | _ => false

def isNatural (cs : List Char) : Bool :=
  match cs with
  | ['0'] => true
  | '0' :: 'b' :: ds => !ds.isEmpty && ds.all fun d => d = '0' || d = '1' || d = '_'
  | '0' :: 'x' :: ds => !ds.isEmpty && ds.all fun d => (Json.hexValue? d).isSome || d = '_'
  | '0' :: ds => ds.all fun d => ('0' ≤ d && d ≤ '7') || d = '_'
  | d :: _ =>
    match splitColons [] cs with
    | first :: rest => d.isDigit && first.all isDigitMark && rest.all isSixtieth
    | [] => false
  | [] => false

def isInteger (cs : List Char) : Bool := isNatural (dropSign cs)

/-- The exponent of a real: a letter, a sign and digits, or nothing at all. -/
def isExponent : List Char → Bool
  | [] => true
  | e :: sign :: ds =>
    (e = 'e' || e = 'E') && (sign = '-' || sign = '+') && !ds.isEmpty && ds.all Char.isDigit
  | _ => false

/-- Whole digits, a point, more digits and an exponent; the first of the digits is no underscore. -/
def isPointed (cs : List Char) : Bool :=
  let (whole, rest) := cs.span isDigitMark
  match rest with
  | '.' :: rest =>
    let (fraction, rest) := rest.span isDigitMark
    (whole ++ fraction).head?.any Char.isDigit && isExponent rest
  | _ => false

/-- Digits in base 60, the last piece with a point. -/
def isPointedSixtieths (cs : List Char) : Bool :=
  match splitColons [] cs with
  | first :: rest =>
    match rest.reverse with
    | last :: middle =>
      let (whole, fraction) := last.span (· ≠ '.')
      first.head?.any Char.isDigit && first.all isDigitMark &&
        (whole :: middle).all isSixtieth && !fraction.isEmpty && (fraction.drop 1).all isDigitMark
    | [] => false
  | [] => false

def infinityWords : List String := [".inf", ".Inf", ".INF"]

def nanWords : List String := [".nan", ".NaN", ".NAN"]

def isReal (cs : List Char) : Bool :=
  let unsigned := dropSign cs
  infinityWords.contains (String.ofList unsigned) || nanWords.contains (String.ofList cs) ||
    match unsigned with
    | '.' :: _ => isPointed cs
    | _ => isPointed unsigned || isPointedSixtieths unsigned

/-! ### Plain text -/

namespace Tag

/-- The tag of plain text. A line feed at its end does not count, unless it is all there is. -/
def ofPlain (written : String) : Tag :=
  let cs := written.toList
  let cs := if 1 < cs.length && cs.getLast? = some '\n' then cs.dropLast else cs
  let word := String.ofList cs
  if nullWords.contains word then .null
  else if trueWords.contains word || falseWords.contains word then .bool
  else if word = "<<" then .merge
  else if word = "=" then .standIn
  else if isReal cs then .real
  else if isInteger cs then .int
  else if Date.isPlain cs then .date
  else .text

end Tag

def isPlainText (s : String) : Bool := Tag.ofPlain s = .text

end TypeSchema.Yaml
