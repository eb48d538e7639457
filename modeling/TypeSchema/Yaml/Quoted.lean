import TypeSchema.Json.Reader
import TypeSchema.Yaml.Cursor
import TypeSchema.Yaml.Fault

/-!
# Quoted scalars

Text in single or double quotes. Breaks inside it are folded together with the blanks around them.
In single quotes a quote is written twice; in double quotes a backslash begins an escape.
-/

namespace TypeSchema.Yaml

/-- The line breaks up to the next character that is no blank, and the cursor behind them; no line
may be the marker of a document. -/
def furtherBreaks : Nat → List Char → Cursor → Except Fault (List Char × Cursor)
  | 0, read, c => .ok (read.reverse, c)
  | fuel + 1, read, c =>
    if startsAnyMarker c.rest then .error .malformed
    else
      let c := c.skip isBlank
      match lineBreak? c.rest with
      | some (d, _) => furtherBreaks fuel (d :: read) c.next
      | none => .ok (read.reverse, c)

def unescape? : Char → Option Char
  | '0' => some '\x00'
  | 'a' => some '\x07'
  | 'b' => some '\x08'
  | 't' => some '\t'
  | '\t' => some '\t'
  | 'n' => some '\n'
  | 'v' => some '\x0b'
  | 'f' => some '\x0c'
  | 'r' => some '\r'
  | 'e' => some '\x1b'
  | ' ' => some ' '
  | '"' => some '"'
  | '\\' => some '\\'
  | '/' => some '/'
  | 'N' => some '\u0085'
  | '_' => some '\u00a0'
  | 'L' => some '\u2028'
  | 'P' => some '\u2029'
  | _ => none

def escapeWidth? : Char → Option Nat
  | 'x' => some 2
  | 'u' => some 4
  | 'U' => some 8
  | _ => none

def escapedCharacter (ds : List Char) (width : Nat) : Except Fault Char :=
  match Json.hexNumber? ds with
  | none => .error .malformed
  | some code =>
    if ds.length < width then .error .malformed
    else if 0x80000000 ≤ code then .error .hugeCharacter
    else if 0x10FFFF < code then .error .noCharacter
    else if Json.isSurrogate code then .error .foreign
    else .ok (Char.ofNat code)

/-- The characters that an escape behind its backslash stands for, and the cursor behind it. A line
break stands for the empty lines behind it. -/
def readEscape (c : Cursor) : Except Fault (List Char × Cursor) :=
  match c.rest with
  | [] => .error .malformed
  | d :: rest =>
    match unescape? d, escapeWidth? d with
    | some e, _ => .ok ([e], c.next)
    | none, some width => do
      return ([← escapedCharacter (rest.take width) width], c.forward (width + 1))
    | none, none =>
      if isBreak d then furtherBreaks (c.left + 1) [] c.next
      else .error .malformed

/-- The characters of a quoted scalar up to its closing quote, in reverse order and before those that
were read, and the cursor behind it. -/
def quotedCharacters (quote : Char) : Nat → List Char → Cursor → Except Fault (List Char × Cursor)
  | 0, _, _ => .error .malformed
  | fuel + 1, read, c =>
    match c.rest with
    | [] => .error .malformed
    | d :: rest =>
      if isBlank d || isBreak d then do
        let (blanks, behind) := c.span isBlank
        let (gap, behind) ← match lineBreak? behind.rest with
          | none => pure (blanks, behind)
          | some (first, _) => do
            let (further, behind) ← furtherBreaks (behind.left + 1) [] behind.next
            pure (foldBreaks first further, behind)
        quotedCharacters quote fuel (gap.reverse ++ read) behind
      else if d = quote then
        if quote = '\'' && rest.head? = some '\'' then
          quotedCharacters quote fuel (d :: read) (c.forward 2)
        else .ok (read, c.next)
      else if quote = '"' && d = '\\' then do
        let (more, behind) ← readEscape c.next
        quotedCharacters quote fuel (more.reverse ++ read) behind
      else quotedCharacters quote fuel (d :: read) c.next

def readQuoted (quote : Char) (c : Cursor) : Except Fault (String × Cursor) := do
  let (read, behind) ← quotedCharacters quote (c.left + 1) [] c.next
  return (String.ofList read.reverse, behind)

end TypeSchema.Yaml
