import TypeSchema.Graph.Reader
import TypeSchema.Graph.Writer
import TypeSchema.Json.Printer
import TypeSchema.Settings.Reader
import TypeSchema.Settings.Writer
import TypeSchema.Store
import TypeSchema.Text.Lines
import TypeSchema.Yaml.Reader
import TypeSchema.Yaml.Writer

/-!
# Documents in files

Graphs and settings are kept in files, in YAML or in JSON as the suffix of the file says.
-/

namespace TypeSchema

inductive DocumentKind where
  | graph
  | settings
deriving DecidableEq, Repr

namespace DocumentKind

def noun : DocumentKind → String
  | .graph => "type graph"
  | .settings => "config"

def modelName : DocumentKind → String
  | .graph => Graph.modelName
  | .settings => Settings.modelName

end DocumentKind

inductive LoadFault where
  | file (fault : FileFault)
  | badJson (fault : Json.Fault)
  | badYaml (fault : Yaml.Fault)
  | notMapping (kind : DocumentKind) (path : String)
  | invalid (kind : DocumentKind) (path : String) (issues : List Issue)
  | halted (cause : Halt)
deriving Repr

namespace LoadFault

def message : LoadFault → String
  | .file fault => fault.message
  | .badJson fault => fault.message
  | .badYaml fault => fault.message
  | .notMapping kind path => "Invalid " ++ kind.noun ++ " " ++ path ++ ": expected a mapping"
  | .invalid kind path _ => "Invalid " ++ kind.noun ++ " " ++ path
  | .halted cause => cause.message

/-- The document itself is at fault, not its file or its syntax. -/
def isOfDocument : LoadFault → Bool
  | .notMapping .. | .invalid .. => true
  | .file _ | .badJson _ | .badYaml _ | .halted _ => false

/-- The text is no JSON, or it is YAML of which a scalar has no value of its kind. -/
def isOfText : LoadFault → Bool
  | .badJson _ => true
  | .badYaml fault => fault.isOfValue
  | .file _ | .notMapping .. | .invalid .. | .halted _ => false

/-- The text was not read to its end: it is malformed, or what it denotes is none of `Value`. -/
def isUnread : LoadFault → Bool
  | .badJson fault => fault = .malformed || fault = .foreign
  | .badYaml fault => fault = .malformed || fault = .foreign
  | .file _ | .notMapping .. | .invalid .. | .halted _ => false

end LoadFault

namespace Document

def parse (p : Path) (text : String) : Except LoadFault Value :=
  if p.isYaml then (Yaml.parse text).mapError .badYaml
  else (Json.parse text).mapError .badJson

def render (p : Path) (value : Value) : String :=
  if p.isYaml then Yaml.render value else Json.render .saved value

/-- Values that count as nothing: null, false, zero, and empty texts and collections. -/
def isEmptyValue : Value → Bool
  | .scalar .null => true
  | .scalar (.bool b) => !b
  | .scalar (.int n) => n = 0
  | .scalar (.real x) => x.toInt? = some 0
  | .scalar (.text s) => s.isEmpty
  | .scalar (.date ..) => false
  | .list items => items.isEmpty
  | .map entries => entries.isEmpty

/-- Reads the entries of a document, whose faults are told with its path. -/
def accept {α : Type} (kind : DocumentKind) (p : Path)
    (read : List (Scalar × Value) → Reading α) : Value → Except LoadFault α
  | .map entries =>
    match read entries with
    | .ok a => .ok a
    | .issues list => .error (.invalid kind p.text list)
    | .halt cause => .error (.halted cause)
  | _ => .error (.notMapping kind p.text)

/-- The text of a file, its lines ended by line feeds. -/
def readFile (s : Store) (p : Path) : Except LoadFault String :=
  match s.read p with
  | .ok text => .ok (String.ofList (Text.unifyBreaks text.toList))
  | .error fault => .error (.file fault)

end Document

namespace Graph

def ofValue (p : Path) (value : Value) : Except LoadFault Graph :=
  Document.accept .graph p Graph.read value

def load (s : Store) (p : Path) : Except LoadFault Graph := do
  Graph.ofValue p (← Document.parse p (← Document.readFile s p))

def saved (p : Path) (g : Graph) : String := Document.render p (g.toValue .spare)

def save (s : Store) (p : Path) (g : Graph) : Except FileFault Store := s.write p (g.saved p)

end Graph

namespace Settings

def ofValue (p : Path) (value : Value) : Except LoadFault Settings :=
  Document.accept .settings p Settings.read value

/-- In a YAML file a value that counts as nothing stands for the default settings. -/
def load (s : Store) (p : Path) : Except LoadFault Settings := do
  let value ← Document.parse p (← Document.readFile s p)
  Settings.ofValue p (if p.isYaml && Document.isEmptyValue value then .map [] else value)

def saved (p : Path) (settings : Settings) : String := Document.render p settings.toValue

def save (s : Store) (p : Path) (settings : Settings) : Except FileFault Store :=
  s.write p (settings.saved p)

end Settings

end TypeSchema
