import TypeSchema.Yaml.Cursor

/-!
# Plain scalars

Text without quotes: words with single blanks or folded breaks between them. It ends before a
comment, before a colon that ends a word, at the marker of a document, and where a line starts too
far to the left; in a flow collection also at the characters that the collection is written with.
-/

namespace TypeSchema.Yaml

def isFlowIndicator (c : Char) : Bool := c = ',' || c = '[' || c = ']' || c = '\x7b' || c = '\x7d'

def startsPlain (flow : Bool) : List Char → Bool
  | [] => false
  | c :: rest =>
    if c = '-' then !endsWord rest
    else if c = '?' || c = ':' then !flow && !endsWord rest
    else !isBlank c && !isBreak c && !isFlowIndicator c && !"#&*!|>'\"%@`".toList.contains c

def plainWord (flow : Bool) : List Char → List Char
  | [] => []
  | c :: rest =>
    let colon := c = ':' && (endsWord rest || (flow && rest.head?.any isFlowIndicator))
    if isBlank c || isBreak c || colon || (flow && (isFlowIndicator c || c = '?')) then []
    else c :: plainWord flow rest

/-- What stands between two words of a plain scalar. -/
structure Gap where
  /-- The characters that it stands for; none when the scalar cannot go on. -/
  text : List Char
  broke : Bool
  behind : Cursor

namespace Gap

/-- The breaks before the next word, behind the first one; none where a document is marked. -/
def breaks : Nat → List Char → Cursor → Option (List Char) × Cursor
  | 0, read, c => (some read.reverse, c)
  | fuel + 1, read, c =>
    if c.column = 0 && startsAnyMarker c.rest then (none, c)
    else
      let c := c.skipSpaces
      match lineBreak? c.rest with
      | some (d, _) => breaks fuel (d :: read) c.next
      | none => (some read.reverse, c)

def read (c : Cursor) : Gap :=
  let (spaces, c) := c.span (· = ' ')
  match lineBreak? c.rest with
  | none => ⟨spaces, false, c⟩
  | some (first, _) =>
    let (further?, behind) := breaks (c.left + 1) [] c.next
    ⟨further?.elim [] (foldBreaks first), true, behind⟩

end Gap

/-- A plain scalar that has been read: its text, the cursor behind it and the gap that follows, and
whether a line ended in that gap. -/
structure PlainText where
  text : String
  behind : Cursor
  broke : Bool

/-- The words of a plain scalar behind those already read, which are in reverse order. Where the
scalar spans lines of a block, they start at column `least` or after it. -/
def plainWords (flow : Bool) (least : Nat) : Nat → List Char → Cursor → PlainText
  | 0, read, c => ⟨String.ofList read.reverse, c, false⟩
  | fuel + 1, read, c =>
    let gap := Gap.read c
    let word := plainWord flow gap.behind.rest
    if gap.text.isEmpty || word.isEmpty || word.head? = some '#' ||
        (!flow && gap.behind.column < least) then
      ⟨String.ofList read.reverse, gap.behind, gap.broke⟩
    else
      plainWords flow least fuel (word.reverse ++ gap.text.reverse ++ read)
        (gap.behind.forward word.length)

def readPlain (flow : Bool) (least : Nat) (c : Cursor) : PlainText :=
  let word := plainWord flow c.rest
  plainWords flow least c.left word.reverse (c.forward word.length)

end TypeSchema.Yaml
