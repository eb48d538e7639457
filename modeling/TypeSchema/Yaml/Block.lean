import TypeSchema.Yaml.Cursor
import TypeSchema.Yaml.Fault

/-!
# Block scalars

Text on lines of its own below an indicator: `|` keeps its breaks and `>` folds them. The column of
its lines is that of the first one that is not empty, unless the header tells it. The header also
tells whether the breaks at the end are dropped, clipped to one, or kept.
-/

namespace TypeSchema.Yaml

/-- What becomes of the breaks at the end. -/
inductive Chomping where
  | strip
  | clip
  | keep
deriving DecidableEq, Repr

structure BlockHeader where
  chomping : Chomping := .clip
  /-- Columns beyond those of the collection around it. -/
  increment? : Option Nat := none

namespace BlockHeader

def chomping? : Char → Option Chomping
  | '-' => some .strip
  | '+' => some .keep
  | _ => none

def isIncrement (c : Char) : Bool := c.isDigit && c ≠ '0'

/-- The header behind its indicator, and the number of its characters; the two parts may stand in
any order. -/
def read (cs : List Char) : BlockHeader × Nat :=
  let increment (c : Char) : Nat := c.toNat - 48
  match cs with
  | [] => ({}, 0)
  | a :: rest =>
    match chomping? a with
    | some chomping =>
      match rest with
      | b :: _ => if isIncrement b then (⟨chomping, some (increment b)⟩, 2) else (⟨chomping, none⟩, 1)
      | [] => (⟨chomping, none⟩, 1)
    | none =>
      if isIncrement a then
        match rest.head?.bind chomping? with
        | some chomping => (⟨chomping, some (increment a)⟩, 2)
        | none => (⟨.clip, some (increment a)⟩, 1)
      else ({}, 0)

end BlockHeader

/-- Empty lines at the start: their breaks, the greatest column reached, and the cursor behind
them. -/
def leadingBreaks : Nat → List Char → Nat → Cursor → List Char × Nat × Cursor
  | 0, read, widest, c => (read.reverse, widest, c)
  | fuel + 1, read, widest, c =>
    let c := c.skipSpaces
    let widest := max widest c.column
    match lineBreak? c.rest with
    | some (d, _) => leadingBreaks fuel (d :: read) widest c.next
    | none => (read.reverse, widest, c)

def skipIndent (indent : Nat) (c : Cursor) : Cursor :=
  c.forward ((c.rest.takeWhile (· = ' ')).length.min (indent - c.column))

/-- Empty lines between others: their breaks, and the cursor behind them. -/
def innerBreaks (indent : Nat) : Nat → List Char → Cursor → List Char × Cursor
  | 0, read, c => (read.reverse, c)
  | fuel + 1, read, c =>
    let c := skipIndent indent c
    match lineBreak? c.rest with
    | some (d, _) => innerBreaks indent fuel (d :: read) c.next
    | none => (read.reverse, c)

/-- The lines of a block scalar from some line on: `breaks` are those before it and `read` holds, in
reverse order, all before them. -/
def blockLines (folded : Bool) (chomping : Chomping) (indent : Nat) :
    Nat → List Char → List Char → Cursor → String × Cursor
  | 0, read, _, c => (String.ofList read.reverse, c)
  | fuel + 1, read, breaks, c =>
    let finish (read : List Char) (last breaks : List Char) (c : Cursor) : String × Cursor :=
      let ending := match chomping with
        | .strip => []
        | .clip => last
        | .keep => last ++ breaks
      (String.ofList (ending.reverse ++ read).reverse, c)
    if c.column ≠ indent || c.atEnd then finish read [] breaks c
    else
      let (line, behind) := c.span fun d => !isBreak d
      let read := line.reverse ++ breaks.reverse ++ read
      let last := (lineBreak? behind.rest).elim [] fun (d, _) => [d]
      let (further, c') := innerBreaks indent (behind.left + 1) [] behind.next
      if c'.column ≠ indent || c'.atEnd then finish read last further c'
      else
        let starts (cs : List Char) : Bool := !(cs.head?.any isBlank)
        let joint :=
          if folded && last = ['\n'] && starts line && starts c'.rest then
            if further.isEmpty then [' '] else []
          else last
        blockLines folded chomping indent fuel (joint.reverse ++ read) further c'

/-- The text of the block scalar at the cursor, and the cursor behind it; its lines start at column
`least` or after it. -/
def readBlock (folded : Bool) (least : Nat) (c : Cursor) : Except Fault (String × Cursor) :=
  let (header, taken) := BlockHeader.read c.next.rest
  let c := c.next.forward taken
  if !endsField c.rest then .error .malformed
  else
    let c := c.skipSpaces.skipComment
    if !endsLine c.rest then .error .malformed
    else
      let c := c.next
      let least := max 1 least
      let fuel := c.left + 1
      let (indent, breaks, c) := match header.increment? with
        | some n =>
          let indent := least + n - 1
          (indent, innerBreaks indent fuel [] c)
        | none =>
          let (breaks, widest, c) := leadingBreaks fuel [] 0 c
          (max least widest, breaks, c)
      .ok (blockLines folded header.chomping indent fuel [] breaks c)

end TypeSchema.Yaml
