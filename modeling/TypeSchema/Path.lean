/-!
# Paths

A path is a root, which is empty for a relative path, and the names below it. Empty names and names
of a single point do not count.
-/

namespace TypeSchema

structure Path where
  root : String
  parts : List String
deriving DecidableEq, Repr

namespace Path

def splitSlashes : List Char → List Char → List String
  | piece, [] => [String.ofList piece.reverse]
  | piece, '/' :: rest => String.ofList piece.reverse :: splitSlashes [] rest
  | piece, c :: rest => splitSlashes (c :: piece) rest

def ofText (s : String) : Path :=
  let cs := s.toList
  let slashes := (cs.takeWhile (· = '/')).length
  let root := if slashes = 0 then "" else if slashes = 2 then "//" else "/"
  ⟨root, (splitSlashes [] cs).filter fun part => part ≠ "" && part ≠ "."⟩

def text (p : Path) : String :=
  if p.root = "" && p.parts.isEmpty then "." else p.root ++ "/".intercalate p.parts

/-- The path below another; a path with a root stands for itself. -/
def under (base p : Path) : Path :=
  if p.root = "" then ⟨base.root, base.parts ++ p.parts⟩ else p

def parent (p : Path) : Path := ⟨p.root, p.parts.dropLast⟩

/-- The directories that lead to a path, outermost first. -/
def above (p : Path) : List Path :=
  (List.range (p.parts.length - 1)).map fun n => ⟨p.root, p.parts.take (n + 1)⟩

/-- The end of the last name from its last point on, if the point neither starts nor ends it. -/
def suffix (p : Path) : String :=
  match p.parts.getLast? with
  | none => ""
  | some name =>
    let cs := name.toList
    let reversedTail := cs.reverse.takeWhile (· ≠ '.')
    let stem := cs.length - reversedTail.length
    -- `stem` counts the characters up to the last point, which it includes
    if stem ≤ 1 || reversedTail.isEmpty then "" else String.ofList ('.' :: reversedTail.reverse)

def isYaml (p : Path) : Bool := p.suffix = ".yaml" || p.suffix = ".yml"

end Path

end TypeSchema
