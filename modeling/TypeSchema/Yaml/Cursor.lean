/-!
# Places in a YAML text

The classes of characters that part words and lines, and cursors, which know the column and line of
the character they stand at.
-/

namespace TypeSchema.Yaml

/-! ### Characters -/

def isBreak (c : Char) : Bool := c = '\n' || c = '\u0085' || c = '\u2028' || c = '\u2029'

def isBlank (c : Char) : Bool := c = ' ' || c = '\t'

/-- The text ends here or goes on with a blank or a break. -/
def endsWord : List Char → Bool
  | [] => true
  | c :: _ => isBlank c || isBreak c

/-- The text ends here or goes on with a space or a break. -/
def endsField : List Char → Bool
  | [] => true
  | c :: _ => c = ' ' || isBreak c

def endsLine : List Char → Bool
  | [] => true
  | c :: _ => isBreak c

/-- A line break as it is read, and what follows. Separators of lines and paragraphs stand for
themselves, every other break for a line feed. -/
def lineBreak? : List Char → Option (Char × List Char)
  | [] => none
  | c :: rest => if isBreak c then some (if c = '\u0085' then '\n' else c, rest) else none

/-- A marker of three characters on its own. -/
def startsMarker (mark : Char) : List Char → Bool
  | a :: b :: c :: rest => a = mark && b = mark && c = mark && endsWord rest
  | _ => false

/-- Marks the start or the end of a document. -/
def startsAnyMarker (cs : List Char) : Bool := startsMarker '-' cs || startsMarker '.' cs

/-- What stands for breaks between words: a single line feed is folded to a space, and a line feed
before further breaks is dropped. -/
def foldBreaks (first : Char) (further : List Char) : List Char :=
  if first ≠ '\n' then first :: further else if further.isEmpty then [' '] else further

/-! ### Cursors -/

/-- What is left of the text, and where that starts. -/
structure Cursor where
  rest : List Char
  left : Nat
  line : Nat := 0
  column : Nat := 0

namespace Cursor

def ofText (cs : List Char) : Cursor := { rest := cs, left := cs.length }

def atEnd (c : Cursor) : Bool := c.rest.isEmpty

/-- The cursor after one character. A byte order mark takes no column. -/
def next (c : Cursor) : Cursor :=
  match c.rest with
  | [] => c
  | d :: rest =>
    if isBreak d then ⟨rest, c.left - 1, c.line + 1, 0⟩
    else ⟨rest, c.left - 1, c.line, if d = '\ufeff' then c.column else c.column + 1⟩

def forward : Nat → Cursor → Cursor
  | 0, c => c
  | n + 1, c => forward n c.next

/-- The cursor at an end part of what is left. -/
def upTo (c : Cursor) (rest : List Char) : Cursor := c.forward (c.left - rest.length)

def span (c : Cursor) (p : Char → Bool) : List Char × Cursor :=
  let taken := c.rest.takeWhile p
  (taken, c.forward taken.length)

def skip (c : Cursor) (p : Char → Bool) : Cursor := (c.span p).2

def skipSpaces (c : Cursor) : Cursor := c.skip (· = ' ')

def skipComment (c : Cursor) : Cursor :=
  if c.rest.head? = some '#' then c.skip fun d => !isBreak d else c

/-- The next character that is neither a space nor in a comment, and whether a line ended before
it. -/
def toToken : Nat → Bool → Cursor → Bool × Cursor
  | 0, broke, c => (broke, c)
  | fuel + 1, broke, c =>
    let c := c.skipSpaces.skipComment
    if c.atEnd || !endsLine c.rest then (broke, c) else toToken fuel true c.next

end Cursor

end TypeSchema.Yaml
