/-!
# The console

What a command shows: lines and tables, in a markup where words in brackets are styles.
-/

namespace TypeSchema

inductive ConsoleItem where
  | line (text : String)
  | table (title : String) (columns : List String) (rows : List (List String))
deriving Repr

namespace Markup

/-- A style in brackets, behind the opening one: the rest of it, and what follows. -/
def tag? : List Char → Option (List Char × List Char)
  | [] => none
  | c :: rest =>
    if ('a' ≤ c && c ≤ 'z') || c = '#' || c = '/' || c = '@' then
      let (body, rest) := rest.span fun c => c ≠ '[' && c ≠ ']'
      match rest with
      | ']' :: rest => some (c :: body ++ [']'], rest)
      | _ => none
    else none

/-- Escapes every style behind `slashes` backslashes that were just met. -/
def escapeStyles : Nat → Nat → List Char → List Char
  | 0, slashes, cs => List.replicate slashes '\\' ++ cs
  | _, slashes, [] => List.replicate slashes '\\'
  | fuel + 1, slashes, '\\' :: rest => escapeStyles fuel (slashes + 1) rest
  | fuel + 1, slashes, '[' :: rest =>
    match tag? rest with
    | some (tag, rest) =>
      List.replicate (2 * slashes + 1) '\\' ++ '[' :: tag ++ escapeStyles fuel 0 rest
    | none => List.replicate slashes '\\' ++ '[' :: escapeStyles fuel 0 rest
  | fuel + 1, slashes, c :: rest =>
    List.replicate slashes '\\' ++ c :: escapeStyles fuel 0 rest

/-- The text with every style escaped, and no single backslash at its end that could escape what
follows. -/
def escape (s : String) : String :=
  let cs := s.toList
  let escaped := escapeStyles cs.length 0 cs
  let slashes := (escaped.reverse.takeWhile (· = '\\')).length
  String.ofList (if slashes = 1 then escaped ++ ['\\'] else escaped)

/-- What a text shows from behind `slashes` backslashes on: styles do not show unless they are
escaped. -/
def shownFrom : Nat → Nat → List Char → List Char
  | 0, slashes, cs => List.replicate slashes '\\' ++ cs
  | _, slashes, [] => List.replicate slashes '\\'
  | fuel + 1, slashes, '\\' :: rest => shownFrom fuel (slashes + 1) rest
  | fuel + 1, slashes, '[' :: rest =>
    match tag? rest with
    | some (tag, rest) =>
      List.replicate (slashes / 2) '\\' ++ (if slashes % 2 = 1 then '[' :: tag else []) ++
        shownFrom fuel 0 rest
    | none => List.replicate slashes '\\' ++ '[' :: shownFrom fuel 0 rest
  | fuel + 1, slashes, c :: rest => List.replicate slashes '\\' ++ c :: shownFrom fuel 0 rest

def shown (s : String) : String := String.ofList (shownFrom s.length 0 s.toList)

def red (s : String) : String := "[red]" ++ escape s ++ "[/]"

def green (s : String) : String := "[green]" ++ s ++ "[/]"

end Markup

namespace ConsoleItem

/-- Cells side by side, each as wide as its column. -/
def rowLine (widths : List Nat) (cells : List String) : String :=
  "  ".intercalate
    (List.zipWith (fun width cell => cell.pushn ' ' (width - cell.length)) widths cells)

def lines : ConsoleItem → List String
  | .line text => [Markup.shown text]
  | .table title columns rows =>
    let rows := columns :: rows.map (·.map Markup.shown)
    let widths := rows.foldl
      (fun widths row => List.zipWith (fun width cell => max width cell.length) widths row)
      (columns.map fun _ => 0)
    title :: rows.map (rowLine widths)

end ConsoleItem

end TypeSchema
