import TypeSchema.Yaml.Block
import TypeSchema.Yaml.Plain
import TypeSchema.Yaml.Quoted
import TypeSchema.Yaml.Token

/-!
# The tokens of a text

Tokens are found from left to right. That a scalar or a flow collection is a key shows only at the
colon behind it, so its place is remembered, and the token of a key is put there afterwards. Such a
colon stands on the same line, at most 1024 characters behind the start of the key.
-/

namespace TypeSchema.Yaml

/-- Where a key may have started. -/
structure PossibleKey where
  place : Nat
  /-- Nothing but a key can stand here. -/
  required : Bool
  left : Nat
  line : Nat
  column : Nat
deriving Repr

structure Scan where
  cursor : Cursor
  /-- The tokens so far, the last one first. -/
  tokens : List Token := []
  count : Nat := 0
  /-- The columns of the open block collections, innermost first. -/
  columns : List Nat := []
  keyAllowed : Bool := true
  /-- The possible key at the level of the innermost flow collection. -/
  key? : Option PossibleKey := none
  /-- The possible keys at the levels around it, innermost first. -/
  outer : List (Option PossibleKey) := []

namespace Scan

def maxKeyLength : Nat := 1024

def inFlow (s : Scan) : Bool := !s.outer.isEmpty

/-- The least column of what is inside the innermost block collection. -/
def least (s : Scan) : Nat := s.columns.head?.elim 0 (· + 1)

def push (s : Scan) (t : Token) : Scan := { s with tokens := t :: s.tokens, count := s.count + 1 }

/-- Puts a token behind the first `place` tokens. -/
def insert (s : Scan) (t : Token) (place : Nat) : Scan :=
  { s with tokens := s.tokens.insertIdx (s.count - place) t, count := s.count + 1 }

def take (s : Scan) (t : Token) (length : Nat) : Scan :=
  { s.push t with cursor := s.cursor.forward length }

/-! ### Keys -/

/-- Forgets a possible key that is too far behind. -/
def withoutStale (s : Scan) (key? : Option PossibleKey) : Except Fault (Option PossibleKey) :=
  match key? with
  | none => .ok none
  | some key =>
    if key.line ≠ s.cursor.line || maxKeyLength < key.left - s.cursor.left then
      if key.required then .error .malformed else .ok none
    else .ok (some key)

def dropStale (s : Scan) : Except Fault Scan := do
  let key? ← s.withoutStale s.key?
  let outer ← s.outer.mapM s.withoutStale
  return { s with key?, outer }

def dropKey (s : Scan) : Except Fault Scan :=
  if s.key?.any (·.required) then .error .malformed else .ok { s with key? := none }

def saveKey (s : Scan) : Except Fault Scan :=
  if !s.keyAllowed then .ok s
  else do
    let s ← s.dropKey
    let c := s.cursor
    let required := !s.inFlow && s.columns.head? = some c.column
    return { s with key? := some ⟨s.count, required, c.left, c.line, c.column⟩ }

/-! ### Block collections -/

def closeWhile (p : Nat → Bool) (s : Scan) : Scan :=
  if s.inFlow then s
  else
    let closed := (s.columns.takeWhile p).length
    { s with
      columns := s.columns.drop closed
      tokens := List.replicate closed .blockEnd ++ s.tokens
      count := s.count + closed }

def closeAll (s : Scan) : Scan := s.closeWhile fun _ => true

/-- Opens a block collection behind the first `place` tokens, unless one is open at its column. -/
def openBlock (s : Scan) (start : Token) (column place : Nat) : Scan :=
  if s.least ≤ column then { s.insert start place with columns := column :: s.columns } else s

/-! ### Indicators -/

/-- An indicator of a block entry or key that opens its collection. -/
def blockIndicator (s : Scan) (start indicator : Token) : Except Fault Scan := do
  let s ←
    if s.inFlow then pure s
    else if !s.keyAllowed then throw .malformed
    else pure (s.openBlock start s.cursor.column s.count)
  let s ← s.dropKey
  return s.take indicator 1

def blockEntry (s : Scan) : Except Fault Scan := do
  let s ← s.blockIndicator .blockListStart .blockEntry
  return { s with keyAllowed := true }

def keyMark (s : Scan) : Except Fault Scan := do
  let s ← s.blockIndicator .blockMapStart .key
  return { s with keyAllowed := !s.inFlow }

/-- The colon of a value. A possible key before it is one. -/
def valueMark (s : Scan) : Except Fault Scan :=
  match s.key? with
  | some key =>
    let s := { s.insert .key key.place with key? := none, keyAllowed := false }
    let s := if s.inFlow then s else s.openBlock .blockMapStart key.column key.place
    .ok (s.take .value 1)
  | none => do
    let s ← s.blockIndicator .blockMapStart .value
    return { s with keyAllowed := !s.inFlow }

def flowStart (s : Scan) (start : Token) : Except Fault Scan := do
  let s ← s.saveKey
  return { s.take start 1 with key? := none, outer := s.key? :: s.outer, keyAllowed := true }

def flowEnd (s : Scan) (ending : Token) : Except Fault Scan := do
  let s ← s.dropKey
  match s.outer with
  | [] => throw .malformed
  | key? :: outer => return { s.take ending 1 with key?, outer, keyAllowed := false }

def flowEntry (s : Scan) : Except Fault Scan := do
  let s ← s.dropKey
  return { s.take .flowEntry 1 with keyAllowed := true }

def marker (s : Scan) (mark : Token) : Except Fault Scan := do
  let s ← s.closeAll.dropKey
  return { s.take mark 3 with keyAllowed := false }

def directive (s : Scan) : Except Fault Scan := do
  let s ← s.closeAll.dropKey
  let (d, rest) ← readDirective (s.cursor.rest.drop 1)
  return { s.push (.directive d) with cursor := s.cursor.upTo rest, keyAllowed := false }

/-! ### Names and scalars -/

/-- A token with which a key may start. -/
def startKey (s : Scan) (t : Token) (behind : Cursor) : Except Fault Scan := do
  let s ← s.saveKey
  return { s.push t with cursor := behind, keyAllowed := false }

def named (s : Scan) (token : String → Token) : Except Fault Scan := do
  let name ← readAnchor (s.cursor.rest.drop 1)
  s.startKey (token name) (s.cursor.forward (name.length + 1))

def tag (s : Scan) : Except Fault Scan := do
  let (name, rest) ← readTag s.cursor.rest
  s.startKey (.tag name) (s.cursor.upTo rest)

def quotedScalar (s : Scan) (quote : Char) : Except Fault Scan := do
  let s ← s.saveKey
  let (text, behind) ← readQuoted quote s.cursor
  return { s.push (.scalar text false) with cursor := behind, keyAllowed := false }

def blockScalar (s : Scan) (folded : Bool) : Except Fault Scan := do
  let s ← s.dropKey
  let (text, behind) ← readBlock folded s.least s.cursor
  return { s.push (.scalar text false) with cursor := behind, keyAllowed := true }

def plainScalar (s : Scan) : Except Fault Scan := do
  let s ← s.saveKey
  let p := readPlain s.inFlow s.least s.cursor
  return { s.push (.scalar p.text true) with cursor := p.behind, keyAllowed := p.broke }

/-! ### Texts -/

def token (s : Scan) : Except Fault Scan :=
  let cs := s.cursor.rest
  let atLineStart := s.cursor.column = 0
  match cs with
  | [] => .ok s
  | c :: rest =>
    if atLineStart && c = '%' then s.directive
    else if atLineStart && startsMarker '-' cs then s.marker .documentStart
    else if atLineStart && startsMarker '.' cs then s.marker .documentEnd
    else if c = '[' then s.flowStart .flowListStart
    else if c = '\x7b' then s.flowStart .flowMapStart
    else if c = ']' then s.flowEnd .flowListEnd
    else if c = '\x7d' then s.flowEnd .flowMapEnd
    else if c = ',' then s.flowEntry
    else if c = '-' && endsWord rest then s.blockEntry
    else if c = '?' && (s.inFlow || endsWord rest) then s.keyMark
    else if c = ':' && (s.inFlow || endsWord rest) then s.valueMark
    else if c = '*' then s.named .alias
    else if c = '&' then s.named .anchor
    else if c = '!' then s.tag
    else if c = '|' && !s.inFlow then s.blockScalar false
    else if c = '>' && !s.inFlow then s.blockScalar true
    else if c = '\'' || c = '"' then s.quotedScalar c
    else if startsPlain s.inFlow cs then s.plainScalar
    else .error .malformed

/-- Goes on to the next token, whose column closes block collections. -/
def toToken (s : Scan) : Except Fault Scan := do
  let (broke, cursor) := s.cursor.toToken (s.cursor.left + 1) false
  let s ← { s with cursor, keyAllowed := s.keyAllowed || (broke && !s.inFlow) }.dropStale
  return s.closeWhile fun column => cursor.column < column

def finish (s : Scan) : Except Fault Scan := s.closeAll.dropKey

/-- The tokens before any that may yet turn out to be a key. -/
def settled (s : Scan) : List Token :=
  let places := (s.key? :: s.outer).filterMap fun key? => key?.map (·.place)
  (s.tokens.drop (s.count - places.foldl min s.count)).reverse

/-- The tokens up to the end of the text or to the first fault, and that fault. -/
def run : Nat → Scan → List Token × Option Fault
  | 0, s => (s.settled, some .malformed)
  | fuel + 1, s =>
    match s.toToken with
    | .error fault => (s.settled, some fault)
    | .ok s =>
      if s.cursor.atEnd then
        match s.finish with
        | .error fault => (s.settled, some fault)
        | .ok s => (s.tokens.reverse, none)
      else
        match s.token with
        | .error fault => (s.settled, some fault)
        | .ok s => run fuel s

end Scan

/-- The tokens of a text, and the fault that ends them. A byte order mark may stand before them. -/
def tokens (cs : List Char) : List Token × Option Fault :=
  let start := Cursor.ofText cs
  Scan.run (start.left + 1) { cursor := if cs.head? = some '\ufeff' then start.next else start }

end TypeSchema.Yaml
