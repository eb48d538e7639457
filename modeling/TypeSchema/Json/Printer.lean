import TypeSchema.Real.Layout
import TypeSchema.Value

/-!
# Writing JSON

Texts are written in ASCII. A style says how many spaces a level is indented, where none means a
text without any blanks, and whether the solidus is escaped.
-/

namespace TypeSchema.Json

structure Style where
  indent : Nat
  escapeSolidus : Bool

namespace Style

def compact : Style := ⟨0, false⟩

/-- One item a line, two spaces a level. -/
def indented : Style := ⟨2, false⟩

def saved : Style := ⟨2, true⟩

end Style

def hexDigit (n : Nat) : Char := if n < 10 then Char.ofNat (48 + n) else Char.ofNat (87 + n)

def unitEscape (n : Nat) : List Char :=
  ['\\', 'u', hexDigit (n / 4096 % 16), hexDigit (n / 256 % 16), hexDigit (n / 16 % 16),
   hexDigit (n % 16)]

def escape (style : Style) (c : Char) : List Char :=
  match c with
  | '"' => ['\\', '"']
  | '\\' => ['\\', '\\']
  | '\x08' => ['\\', 'b']
  | '\x0c' => ['\\', 'f']
  | '\n' => ['\\', 'n']
  | '\r' => ['\\', 'r']
  | '\t' => ['\\', 't']
  | '/' => if style.escapeSolidus then ['\\', '/'] else ['/']
  | c =>
    let n := c.toNat
    if n < 0x20 then unitEscape n
    else if n < 0x80 then [c]
    else if n < 0x10000 then unitEscape n
    else unitEscape (0xD800 + (n - 0x10000) / 0x400) ++ unitEscape (0xDC00 + (n - 0x10000) % 0x400)

def quote (style : Style) (s : String) : List Char :=
  '"' :: s.toList.flatMap (escape style) ++ ['"']

def printScalar (style : Style) : Scalar → List Char
  | .null => "null".toList
  | .bool b => (if b then "true" else "false").toList
  | .int n => (toString n).toList
  | .real x => (RealLayout.json.render x).toList
  | .text s => quote style s
  | .date written _ => quote style written

/-- Keys are always quoted. -/
def printKey (style : Style) : Scalar → List Char
  | .text s => quote style s
  | .date written _ => quote style written
  | key => '"' :: printScalar style key ++ ['"']

def newLine (style : Style) (level : Nat) : List Char :=
  if style.indent = 0 then [] else '\n' :: List.replicate (style.indent * level) ' '

mutual

def print (style : Style) (level : Nat) : Value → List Char
  | .scalar s => printScalar style s
  | .list [] => ['[', ']']
  | .list (item :: rest) =>
    '[' :: newLine style (level + 1) ++ print style (level + 1) item ++
      printItems style (level + 1) rest ++ newLine style level ++ [']']
  | .map [] => ['{', '}']
  | .map (entry :: rest) =>
    '{' :: newLine style (level + 1) ++ printEntry style (level + 1) entry ++
      printEntries style (level + 1) rest ++ newLine style level ++ ['}']

def printItems (style : Style) (level : Nat) : List Value → List Char
  | [] => []
  | item :: rest =>
    ',' :: newLine style level ++ print style level item ++ printItems style level rest

def printEntry (style : Style) (level : Nat) : Scalar × Value → List Char
  | (key, value) =>
    printKey style key ++ (if style.indent = 0 then [':'] else [':', ' ']) ++
      print style level value

def printEntries (style : Style) (level : Nat) : List (Scalar × Value) → List Char
  | [] => []
  | entry :: rest =>
    ',' :: newLine style level ++ printEntry style level entry ++ printEntries style level rest

end

def render (style : Style) (value : Value) : String := String.ofList (print style 0 value)

end TypeSchema.Json
