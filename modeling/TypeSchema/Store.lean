import TypeSchema.Path
import TypeSchema.Table
import TypeSchema.Text.Quoted

/-!
# Stores

A store holds the directories and files that a run can see. Names are looked up from the left, each
in a directory that must be there; a parent step leaves the directory it stands in.

There are no links in a store, and its names are told apart by their characters. A name is a text, so it
has no surrogates: those stand for octets that are no UTF-8, and two names could be the same octets with
them.
-/

namespace TypeSchema

inductive FileFault where
  | missing (path : String)
  | exists (path : String)
  | notDirectory (path : String)
  | isDirectory (path : String)
  | nameTooLong (path : String)
  | nullCharacter
deriving DecidableEq, Repr

namespace FileFault

def message : FileFault → String
  | .missing path => "[Errno 2] No such file or directory: " ++ Text.quoted path
  | .exists path => "[Errno 17] File exists: " ++ Text.quoted path
  | .notDirectory path => "[Errno 20] Not a directory: " ++ Text.quoted path
  | .isDirectory path => "[Errno 21] Is a directory: " ++ Text.quoted path
  | .nameTooLong path => "[Errno 36] File name too long: " ++ Text.quoted path
  | .nullCharacter => "embedded null byte"

end FileFault

structure Store where
  /-- Directories other than the working directory and those it lies in. -/
  directories : List Path := []
  files : Table Path String := []
deriving Repr

namespace Store

def isFile (s : Store) (p : Path) : Bool := (Table.get? p s.files).isSome

/-- Roots, the working directory, and what lies above it are always there. -/
def isDirectory (s : Store) (p : Path) : Bool :=
  s.directories.contains p || p.parts.all (· = "..")

/-- The longest name in UTF-8 bytes. -/
def maxNameSize : Nat := 255

/-- The longest text of a path in UTF-8 bytes. -/
def maxPathSize : Nat := 4095

/-- One step from a place: up to the parent, or down to a name. -/
def stepTo (here : Path) (name : String) : Path :=
  if name = ".." then
    match here.parts.getLast? with
    | none => if here.root = "" then ⟨"", [".."]⟩ else here
    | some ".." => ⟨here.root, here.parts ++ [".."]⟩
    | some _ => ⟨here.root, here.parts.dropLast⟩
  else ⟨here.root, here.parts ++ [name]⟩

/-- Follows names from a place, of which all but the last must be directories. -/
def walk (s : Store) (shown : String) : Path → List String → Except FileFault Path
  | here, [] => .ok here
  | here, name :: rest =>
    if s.isFile here then .error (.notDirectory shown)
    else if !s.isDirectory here then .error (.missing shown)
    else if name.utf8ByteSize > maxNameSize then .error (.nameTooLong shown)
    else s.walk shown (stepTo here name) rest

/-- Where a path leads, without parent steps that could be taken back. -/
def locate (s : Store) (p : Path) : Except FileFault Path :=
  if p.text.toList.contains '\x00' then .error .nullCharacter
  else if p.text.utf8ByteSize > maxPathSize then .error (.nameTooLong p.text)
  else s.walk p.text ⟨p.root, []⟩ p.parts

/-- Whether a file or directory is there. A name that is too long cannot be looked for. -/
def exists? (s : Store) (p : Path) : Except FileFault Bool :=
  match s.locate p with
  | .ok place => .ok (s.isFile place || s.isDirectory place)
  | .error (.nameTooLong path) => .error (.nameTooLong path)
  | .error _ => .ok false

def read (s : Store) (p : Path) : Except FileFault String := do
  let place ← s.locate p
  match Table.get? place s.files with
  | some text => return text
  | none => throw (if s.isDirectory place then .isDirectory p.text else .missing p.text)

def write (s : Store) (p : Path) (text : String) : Except FileFault Store := do
  let place ← s.locate p
  if s.isDirectory place then throw (.isDirectory p.text)
  return { s with files := Table.put place text s.files }

def makeDirectory (s : Store) (p : Path) : Except FileFault Store := do
  let place ← s.locate p
  if s.isFile place || s.isDirectory place then throw (.exists p.text)
  return { s with directories := place :: s.directories }

def leadsToDirectory (s : Store) (p : Path) : Bool :=
  match s.locate p with
  | .ok place => s.isDirectory place
  | .error _ => false

def ensureDirectory (s : Store) (p : Path) : Except FileFault Store :=
  match s.makeDirectory p with
  | .ok s' => .ok s'
  | .error fault => if s.leadsToDirectory p then .ok s else .error fault

/-- Makes a directory, and those it lies in where one of them is missing; at most `n` of its names
are still to be made. -/
def makeNames (s : Store) (p : Path) : Nat → Except FileFault Store
  | 0 => s.ensureDirectory p
  | n + 1 =>
    match s.ensureDirectory p with
    | .error (.missing _) => do (← s.makeNames p.parent n).ensureDirectory p
    | other => other

def makeDirectories (s : Store) (p : Path) : Except FileFault Store := s.makeNames p p.parts.length

def ofFiles (files : List (String × String)) : Store :=
  files.foldl
    (fun s file =>
      let p := Path.ofText file.1
      { directories := p.above ++ s.directories, files := Table.put p file.2 s.files }) {}

end Store

end TypeSchema
