import TypeSchema.Text.Digits
import TypeSchema.Value

/-!
# Reading JSON

A reader takes the characters that are left and returns what it read together with the rest, or the
first fault. Of equal keys in an object the last value counts. Numbers without fraction and exponent
are integers, all others are reals. A text with a surrogate that has no partner is foreign: it is no
sequence of characters, and so no text here.
-/

namespace TypeSchema.Json

open Text (digitsValue)

inductive Fault where
  /-- The text is no JSON, or lists and objects are nested too deep. -/
  | malformed
  | longInteger (digits : Nat)
  /-- The text is JSON, as far as it was read, but its value is none of `Value`. -/
  | foreign
deriving DecidableEq, Repr

namespace Fault

def message : Fault → String
  | .malformed => "malformed JSON"
  | .longInteger digits => Text.tooManyDigits digits
  | .foreign => "a text with an unpaired surrogate"

end Fault

def malformed {α : Type} : Except Fault α := .error .malformed

def isBlank (c : Char) : Bool := c = ' ' || c = '\t' || c = '\n' || c = '\r'

def skipBlank (cs : List Char) : List Char := cs.dropWhile isBlank

/-! ### Numbers -/

def readFraction : List Char → Except Fault (Option (List Char) × List Char)
  | '.' :: rest =>
    let (ds, rest) := rest.span Char.isDigit
    if ds.isEmpty then malformed else .ok (some ds, rest)
  | rest => .ok (none, rest)

def readExponent : List Char → Except Fault (Option Int × List Char)
  | c :: rest =>
    if c = 'e' || c = 'E' then
      let (negative, rest) := match rest with
        | '-' :: rest => (true, rest)
        | '+' :: rest => (false, rest)
        | rest => (false, rest)
      let (ds, rest) := rest.span Char.isDigit
      let n : Int := digitsValue ds
      if ds.isEmpty then malformed else .ok (some (if negative then -n else n), rest)
    else .ok (none, c :: rest)
  | [] => .ok (none, [])

def readNumber (cs : List Char) : Except Fault (Scalar × List Char) := do
  let (negative, cs) := match cs with
    | '-' :: rest => (true, rest)
    | rest => (false, rest)
  let (whole, cs) := cs.span Char.isDigit
  if whole.isEmpty || (whole.length > 1 && whole.head? = some '0') then malformed
  let (fraction?, cs) ← readFraction cs
  let (exponent?, cs) ← readExponent cs
  match fraction?, exponent? with
  | none, none =>
    if Text.maxDigits < whole.length then throw (.longInteger whole.length)
    let n : Int := digitsValue whole
    return (.int (if negative then -n else n), cs)
  | _, _ =>
    let fraction := fraction?.getD []
    let x := Real64.ofDecimal (digitsValue (whole ++ fraction)) (exponent?.getD 0 - fraction.length)
    return (.real (if negative then x.neg else x), cs)

/-! ### Texts -/

def hexValue? (c : Char) : Option Nat :=
  if c.isDigit then some (c.toNat - 48)
  else if 'a' ≤ c && c ≤ 'f' then some (c.toNat - 87)
  else if 'A' ≤ c && c ≤ 'F' then some (c.toNat - 55)
  else none

def hexNumber? (ds : List Char) : Option Nat :=
  ds.foldlM (fun n d => (hexValue? d).map (16 * n + ·)) 0

def unescape? : Char → Option Char
  | '"' => some '"'
  | '\\' => some '\\'
  | '/' => some '/'
  | 'b' => some '\x08'
  | 'f' => some '\x0c'
  | 'n' => some '\n'
  | 'r' => some '\r'
  | 't' => some '\t'
  | _ => none

/-- The codes of a quoted text up to its closing quote: code points, and 16-bit units where the text
has `\u` escapes. Control characters may stand for themselves, NUL apart. The codes read so far are
in reverse order. -/
def readCodes : List Nat → List Char → Option (List Nat × List Char)
  | codes, '"' :: rest => some (codes.reverse, rest)
  | codes, '\\' :: 'u' :: a :: b :: c :: d :: rest => do
    readCodes ((← hexNumber? [a, b, c, d]) :: codes) rest
  | codes, '\\' :: c :: rest => do readCodes ((← unescape? c).toNat :: codes) rest
  | codes, c :: rest => if c = '\x00' then none else readCodes (c.toNat :: codes) rest
  | _, [] => none

def isSurrogate (code : Nat) : Bool := 0xD800 ≤ code && code < 0xE000

/-- Pairs of surrogate units become one character; none of them may be without its partner. -/
def joinUnits? : List Nat → Option (List Char)
  | high :: low :: rest =>
    if 0xD800 ≤ high && high < 0xDC00 && 0xDC00 ≤ low && low < 0xE000 then
      (joinUnits? rest).map (Char.ofNat (0x10000 + (high - 0xD800) * 0x400 + (low - 0xDC00)) :: ·)
    else if isSurrogate high then none
    else (joinUnits? (low :: rest)).map (Char.ofNat high :: ·)
  | [code] => if isSurrogate code then none else some [Char.ofNat code]
  | [] => some []

/-- A text, its opening quote already taken. -/
def readText (cs : List Char) : Except Fault (String × List Char) :=
  match readCodes [] cs with
  | some (codes, rest) =>
    match joinUnits? codes with
    | some cs => .ok (String.ofList cs, rest)
    | none => .error .foreign
  | none => malformed

/-! ### Values -/

/-- The most lists and objects around a value. -/
def maxDepth : Nat := 1024

mutual

/-- A value inside `depth` lists and objects. -/
def readValue (depth : Nat) : Nat → List Char → Except Fault (Value × List Char)
  | 0, _ => malformed
  | fuel + 1, cs =>
    match skipBlank cs with
    | '[' :: rest =>
      if maxDepth ≤ depth then malformed
      else
        match skipBlank rest with
        | ']' :: rest => .ok (.list [], rest)
        | rest => readItems (depth + 1) fuel [] rest
    | '{' :: rest =>
      if maxDepth ≤ depth then malformed
      else
        match skipBlank rest with
        | '}' :: rest => .ok (.map [], rest)
        | rest => readEntries (depth + 1) fuel [] rest
    | '"' :: rest => (readText rest).map fun (s, rest) => (.text s, rest)
    | 't' :: 'r' :: 'u' :: 'e' :: rest => .ok (.bool true, rest)
    | 'f' :: 'a' :: 'l' :: 's' :: 'e' :: rest => .ok (.bool false, rest)
    | 'n' :: 'u' :: 'l' :: 'l' :: rest => .ok (.null, rest)
    | rest => (readNumber rest).map fun (n, rest) => (.scalar n, rest)

/-- The items of a list from some item on; those before it are in reverse order. -/
def readItems (depth : Nat) : Nat → List Value → List Char → Except Fault (Value × List Char)
  | 0, _, _ => malformed
  | fuel + 1, items, cs => do
    let (item, rest) ← readValue depth fuel cs
    match skipBlank rest with
    | ',' :: rest => readItems depth fuel (item :: items) rest
    | ']' :: rest => .ok (.list (item :: items).reverse, rest)
    | _ => malformed

/-- The entries of an object from some entry on. -/
def readEntries (depth : Nat) : Nat → Table Scalar Value → List Char → Except Fault (Value × List Char)
  | 0, _, _ => malformed
  | fuel + 1, entries, cs =>
    match skipBlank cs with
    | '"' :: rest => do
      let (key, rest) ← readText rest
      match skipBlank rest with
      | ':' :: rest =>
        let (value, rest) ← readValue depth fuel rest
        let entries := entries.put (.text key) value
        match skipBlank rest with
        | ',' :: rest => readEntries depth fuel entries rest
        | '}' :: rest => .ok (.map entries, rest)
        | _ => malformed
      | _ => malformed
    | _ => malformed

end

/-- The value that the characters of a text write, each of which takes at most two steps of the fuel. -/
def readAll (cs : List Char) : Except Fault Value := do
  let (value, rest) ← readValue 0 (2 * cs.length + 2) cs
  if (skipBlank rest).isEmpty then return value else throw .malformed

/-- The value of a JSON text. -/
def parse (text : String) : Except Fault Value := readAll text.toList

end TypeSchema.Json
