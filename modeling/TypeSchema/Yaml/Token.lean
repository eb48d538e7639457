import TypeSchema.Json.Reader
import TypeSchema.Yaml.Cursor
import TypeSchema.Yaml.Fault

/-!
# Tokens

What a YAML text is made of: indicators, markers, names, and scalars. Block collections have tokens
for their start and end, although no characters of the text stand for them.
-/

namespace TypeSchema.Yaml

/-- A tag as it is written: a handle, if there is one, and what follows it. -/
structure TagName where
  handle? : Option String
  suffix : String
deriving DecidableEq, Repr

inductive Directive where
  | version (major : Nat)
  | handle (name expansion : String)
  | reserved
deriving DecidableEq, Repr

inductive Token where
  | directive (d : Directive)
  | documentStart
  | documentEnd
  | blockListStart
  | blockMapStart
  | blockEnd
  | flowListStart
  | flowListEnd
  | flowMapStart
  | flowMapEnd
  | blockEntry
  | flowEntry
  | key
  | value
  | alias (name : String)
  | anchor (name : String)
  | tag (name : TagName)
  | scalar (text : String) (plain : Bool)
deriving DecidableEq, Repr

/-! ### Names -/

/-- A character of the names of anchors, handles and directives. -/
def isNameChar (c : Char) : Bool := c.isAlphanum || c = '-' || c = '_'

def readAnchor (cs : List Char) : Except Fault String :=
  let (name, rest) := cs.span isNameChar
  let ends := endsWord rest || "?:,]\x7d%@`".toList.contains (rest.headD ' ')
  if name.isEmpty || !ends then .error .malformed else .ok (String.ofList name)

/-- The handle of a tag: a name between exclamation marks, or one such mark before a space. -/
def readHandle : List Char → Except Fault (String × List Char)
  | '!' :: ' ' :: rest => .ok ("!", ' ' :: rest)
  | '!' :: cs =>
    match cs.span isNameChar with
    | (name, '!' :: rest) => .ok (String.ofList ('!' :: name ++ ['!']), rest)
    | _ => .error .malformed
  | _ => .error .malformed

def isUriChar (c : Char) : Bool :=
  c.isAlphanum || "-;/?:@&=+$,_.!~*'()[]".toList.contains c

def percentBytes : List Char → Except Fault (List UInt8 × List Char)
  | '%' :: a :: b :: rest =>
    match Json.hexNumber? [a, b] with
    | none => .error .malformed
    | some n => do
      let (bytes, rest) ← percentBytes rest
      return (n.toUInt8 :: bytes, rest)
  | '%' :: _ => .error .malformed
  | rest => .ok ([], rest)

def uriChars : Nat → List Char → Except Fault (List Char × List Char)
  | 0, cs => .ok ([], cs)
  | fuel + 1, cs =>
    match cs with
    | [] => .ok ([], [])
    | c :: rest =>
      if c = '%' then do
        let (bytes, rest) ← percentBytes cs
        match String.fromUTF8? ⟨bytes.toArray⟩ with
        | none => throw .malformed
        | some text =>
          let (more, rest) ← uriChars fuel rest
          return (text.toList ++ more, rest)
      else if isUriChar c then do
        let (more, rest) ← uriChars fuel rest
        return (c :: more, rest)
      else .ok ([], cs)

def readUri (cs : List Char) : Except Fault (String × List Char) := do
  let (uri, rest) ← uriChars cs.length cs
  if rest.length = cs.length then throw .malformed
  return (String.ofList uri, rest)

/-- A tag with its exclamation mark: one of a handle, one in angle brackets, or the mark alone. -/
def readTag (cs : List Char) : Except Fault (TagName × List Char) := do
  let (name, rest) ← match cs.drop 1 with
    | '<' :: inside => do
      match ← readUri inside with
      | (uri, '>' :: rest) => pure ((⟨none, uri⟩ : TagName), rest)
      | _ => throw .malformed
    | rest =>
      if endsWord rest then pure (⟨none, "!"⟩, rest)
      else do
        let field := rest.takeWhile fun c => !(c = ' ' || isBreak c)
        let (handle, rest) ← if field.contains '!' then readHandle cs else pure ("!", rest)
        let (suffix, rest) ← readUri rest
        pure (⟨some handle, suffix⟩, rest)
  if endsField rest then return (name, rest) else throw .malformed

/-! ### Directives -/

/-- The major and minor number of a version, of which only the major one counts. -/
def readVersion (cs : List Char) : Except Fault (Directive × List Char) :=
  let (major, rest) := cs.span Char.isDigit
  match rest with
  | '.' :: rest =>
    let (minor, rest) := rest.span Char.isDigit
    if major.isEmpty || minor.isEmpty || !endsField rest then .error .malformed
    else if Text.maxDigits < major.length then .error (.longInteger major.length)
    else if Text.maxDigits < minor.length then .error (.longInteger minor.length)
    else .ok (.version (Text.digitsValue major), rest)
  | _ => .error .malformed

def readHandleRule (cs : List Char) : Except Fault (Directive × List Char) := do
  let (handle, rest) ← readHandle cs
  if rest.head? ≠ some ' ' then throw .malformed
  let (expansion, rest) ← readUri (rest.dropWhile (· = ' '))
  if endsField rest then return (.handle handle expansion, rest) else throw .malformed

/-- A directive behind its percent sign, up to the end of its line. -/
def readDirective (cs : List Char) : Except Fault (Directive × List Char) := do
  let (name, rest) := cs.span isNameChar
  if name.isEmpty || !endsField rest then throw .malformed
  let content := rest.dropWhile (· = ' ')
  let (d, rest) ←
    if name = "YAML".toList then readVersion content
    else if name = "TAG".toList then readHandleRule content
    else pure (.reserved, rest.dropWhile fun c => !isBreak c)
  let rest := rest.dropWhile (· = ' ')
  let rest := if rest.head? = some '#' then rest.dropWhile fun c => !isBreak c else rest
  if endsLine rest then return (d, rest) else throw .malformed

end TypeSchema.Yaml
