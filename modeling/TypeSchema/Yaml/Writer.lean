import TypeSchema.Json.Printer
import TypeSchema.Yaml.Cursor
import TypeSchema.Yaml.Tag

/-!
# Writing YAML

Block style, lists not indented under their key, two spaces a level. A text is plain if it reads
back as itself and may stand plain, in single quotes if all its characters are printable ASCII, and
in double quotes otherwise. Lines of a text are folded at spaces beyond column 80.
-/

namespace TypeSchema.Yaml

/-- Ends a word for the indicators: a blank, a break, or NUL. -/
def isSeparator (c : Char) : Bool := c = '\x00' || c = ' ' || c = '\t' || c = '\r' || isBreak c

/-- Characters that only double quotes can show. -/
def isSpecial (c : Char) : Bool := !(c = '\n' || ('\x20' ≤ c && c ≤ '\x7e'))

/-! ### Styles -/

inductive Quoting where
  | plain
  | single
  | double
deriving DecidableEq, Repr

/-- An indicator that opens the text and keeps it from being plain. -/
def opensIndicator : List Char → Bool
  | [] => false
  | c :: rest =>
    let alone := rest.head?.all isSeparator
    "#,[]\x7b\x7d&*!|>'\"%@`".toList.contains c || ((c = '?' || c = ':' || c = '-') && alone)

/-- A colon before a separator, or a number sign behind one, behind a first character. -/
def holdsIndicator : Char → List Char → Bool
  | _, [] => false
  | before, c :: rest =>
    (c = ':' && rest.head?.all isSeparator) || (c = '#' && isSeparator before) ||
      holdsIndicator c rest

def startsDocument (cs : List Char) : Bool :=
  ['-', '-', '-'].isPrefixOf cs || ['.', '.', '.'].isPrefixOf cs

/-- The first of two neighbours has the first property and the second the second. -/
def hasPair (p q : Char → Bool) : List Char → Bool
  | a :: b :: rest => (p a && q b) || hasPair p q (b :: rest)
  | _ => false

def isSpaceChar (c : Char) : Bool := c = ' '

/-- The text has the characters of a plain scalar, whatever it would read back as. -/
def mayBePlain (cs : List Char) : Bool :=
  match cs with
  | [] => true
  | first :: rest =>
    let edge (c : Char) : Bool := isSpaceChar c || isBreak c
    !edge first && !(cs.getLast?.any edge) && !cs.any isBreak && !cs.any isSpecial &&
      !startsDocument cs && !opensIndicator cs && !holdsIndicator first rest

def quoting (s : String) : Quoting :=
  let cs := s.toList
  if isPlainText s && mayBePlain cs then .plain
  else if cs.any isSpecial || hasPair isSpaceChar isBreak cs || hasPair isBreak isSpaceChar cs then
    .double
  else .single

/-! ### Texts -/

/-- Characters written so far, in reverse order, and the column behind them. -/
structure Line where
  reversed : List Char
  column : Nat

namespace Line

def write (l : Line) (cs : List Char) : Line := ⟨cs.reverse ++ l.reversed, l.column + cs.length⟩

def fold (l : Line) (indent : Nat) : Line :=
  ⟨List.replicate indent ' ' ++ '\n' :: l.reversed, indent⟩

def width : Nat := 80

end Line

/-- Runs of spaces, runs of breaks and words, as they stand in the text. -/
def chunks : List Char → List (List Char)
  | [] => []
  | c :: rest =>
    match chunks rest with
    | (d :: ds) :: more =>
      if (isSpaceChar c && isSpaceChar d) || (isBreak c && isBreak d) ||
          (!isSpaceChar c && !isBreak c && !isSpaceChar d && !isBreak d) then
        (c :: d :: ds) :: more
      else [c] :: (d :: ds) :: more
    | other => [c] :: other

/-- A word of a single-quoted text, in which a quote is written twice. -/
def doubleQuotes (cs : List Char) : List Char :=
  cs.flatMap fun c => if c = '\'' then ['\'', '\''] else [c]

/-- Writes a plain or single-quoted text by chunks. A single space beyond the width becomes a line
break; in quotes that holds only inside the text. A line break is written twice. -/
def writeChunks (quoted : Bool) (indent : Nat) : Bool → List (List Char) → Line → Line
  | _, [], l => l
  | first, chunk :: rest, l =>
    let l :=
      if chunk.any isBreak then
        (Line.mk (chunk.reverse ++ '\n' :: l.reversed) 0).write (List.replicate indent ' ')
      else if chunk = [' '] && l.column > Line.width && (!quoted || (!first && !rest.isEmpty)) then
        l.fold indent
      else l.write (if quoted then doubleQuotes chunk else chunk)
    writeChunks quoted indent false rest l

def hexDigitUpper (n : Nat) : Char := if n < 10 then Char.ofNat (48 + n) else Char.ofNat (55 + n)

def hexDigits : Nat → Nat → List Char
  | 0, _ => []
  | width + 1, n => hexDigits width (n / 16) ++ [hexDigitUpper (n % 16)]

def escapeLetter? : Char → Option Char
  | '\x00' => some '0'
  | '\x07' => some 'a'
  | '\x08' => some 'b'
  | '\t' => some 't'
  | '\n' => some 'n'
  | '\x0b' => some 'v'
  | '\x0c' => some 'f'
  | '\r' => some 'r'
  | '\x1b' => some 'e'
  | '"' => some '"'
  | '\\' => some '\\'
  | '\u0085' => some 'N'
  | '\u00a0' => some '_'
  | '\u2028' => some 'L'
  | '\u2029' => some 'P'
  | _ => none

/-- The escape of a character that double quotes do not show as it is. -/
def escape? (c : Char) : Option (List Char) :=
  if c ≠ '"' && c ≠ '\\' && '\x20' ≤ c && c ≤ '\x7e' then none
  else match escapeLetter? c with
    | some letter => some ['\\', letter]
    | none =>
      let n := c.toNat
      some <|
        if n ≤ 0xFF then '\\' :: 'x' :: hexDigits 2 n
        else if n ≤ 0xFFFF then '\\' :: 'u' :: hexDigits 4 n
        else '\\' :: 'U' :: hexDigits 8 n

/-- Writes the characters of a double-quoted text; `pending` holds, in reverse order, those that are
not yet in the line. Inside the text a line beyond the width ends, with a backslash, before a space
or where nothing is pending; a space that begins the next line is escaped. -/
def writeDouble (indent : Nat) : Bool → List Char → List Char → Line → Line
  | _, pending, [], l => l.write pending.reverse
  | first, pending, c :: rest, l =>
    let inside := !first && !rest.isEmpty
    let breakLine (l : Line) (next : Option Char) : Line :=
      let l := (l.write ['\\']).fold indent
      if next = some ' ' then l.write ['\\'] else l
    match escape? c with
    | some cs =>
      let l := (l.write pending.reverse).write cs
      writeDouble indent false [] rest
        (if inside && l.column > Line.width + 1 then breakLine l rest.head? else l)
    | none =>
      if inside && (c = ' ' || pending.isEmpty) && l.column + pending.length > Line.width then
        writeDouble indent false [c] rest (breakLine (l.write pending.reverse) (some c))
      else writeDouble indent false (c :: pending) rest l

def writeText (indent : Nat) (s : String) (l : Line) : Line :=
  match quoting s with
  | .plain => writeChunks false indent true (chunks s.toList) l
  | .single => (writeChunks true indent true (chunks s.toList) (l.write ['\''])).write ['\'']
  | .double => (writeDouble indent true [] s.toList (l.write ['"'])).write ['"']

/-! ### Values -/

def writeScalar (indent : Nat) (s : Scalar) (l : Line) : Line :=
  match s with
  | .null => l.write "null".toList
  | .bool b => l.write (if b then "true" else "false").toList
  | .int n => l.write (toString n).toList
  | .real x => l.write (RealLayout.yaml.render x).toList
  | .text s => writeText indent s l
  | .date written _ => l.write written.toList

mutual

/-- Writes the value of a key or an item whose collection is indented by `indent`. -/
def writePart (indent : Nat) (inList : Bool) : Value → Line → Line
  | .scalar s, l => writeScalar (indent + 2) s (l.write [' '])
  | .list [], l => l.write " []".toList
  | .map [], l => l.write [' ', '\x7b', '\x7d']
  | .list (item :: rest), l =>
    if inList then writeItems (indent + 2) (item :: rest) true (l.write [' '])
    else writeItems indent (item :: rest) false l
  | .map (entry :: rest), l =>
    if inList then writeEntries (indent + 2) (entry :: rest) true (l.write [' '])
    else writeEntries (indent + 2) (entry :: rest) false l

/-- Writes items, each on a line of its own; the first stays on the line when `inline`. -/
def writeItems (indent : Nat) : List Value → Bool → Line → Line
  | [], _, l => l
  | item :: rest, inline, l =>
    let l := if inline then l else l.fold indent
    writeItems indent rest false (writePart indent true item (l.write ['-']))

def writeEntries (indent : Nat) : List (Scalar × Value) → Bool → Line → Line
  | [], _, l => l
  | entry :: rest, inline, l =>
    let l := if inline then l else l.fold indent
    writeEntries indent rest false (writeEntry indent entry l)

def writeEntry (indent : Nat) : Scalar × Value → Line → Line
  | (key, value), l => writePart indent false value ((writeScalar indent key l).write [':'])

end

def render (value : Value) : String :=
  let l : Line := ⟨[], 0⟩
  let l := match value with
    | .list (item :: rest) => writeItems 0 (item :: rest) true l
    | .map (entry :: rest) => writeEntries 0 (entry :: rest) true l
    | .list [] => l.write "[]".toList
    | .map [] => l.write ['\x7b', '\x7d']
    | .scalar s => writeScalar 0 s l
  String.ofList ('\n' :: l.reversed).reverse

end TypeSchema.Yaml
