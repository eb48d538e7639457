import TypeSchema.Command.Arguments
import TypeSchema.Command.Console
import TypeSchema.Convert
import TypeSchema.Graph.Format

/-!
# Running commands

A command runs on a store and leaves a report: its exit code, what it shows, and the store after it.
Documents that cannot be accepted are bad arguments; all other faults end the command as they are.
-/

namespace TypeSchema

def Command.versionText : String := "0.1.0"

structure Report where
  exit : Nat := 0
  console : List ConsoleItem := []
  out : String := ""
  err : List String := []
  store : Store
  log : List Event := []

inductive CommandFault where
  | badArgument (words : String)
  | badDocument (fault : LoadFault)
  | badSettings (issues : List Issue)
  | load (fault : LoadFault)
  | file (fault : FileFault)
  | broken (breach : Breach)
deriving Repr

namespace CommandFault

/-- A document that is refused is a bad argument; other faults of loading stand for themselves. -/
def ofLoad (fault : LoadFault) : CommandFault :=
  if fault.isOfDocument then .badDocument fault else .load fault

def message : CommandFault → String
  | .badArgument words => words
  | .badDocument fault => fault.message
  | .badSettings issues => ", ".intercalate (issues.map (·.fault.message))
  | .load fault => fault.message
  | .file fault => fault.message
  | .broken breach => breach.message

end CommandFault

namespace Command

/-- Nothing in a command catches a breach. -/
def unbroken {α : Type} (x : Except Breach α) : Except CommandFault α := x.mapError .broken

def loadGraph (s : Store) (graph : String) : Except CommandFault Graph :=
  match Graph.load s (Path.ofText graph) with
  | .ok g => .ok g
  | .error fault => .error (.ofLoad fault)

/-- Settings whose text is at fault are refused like settings with faults. -/
def loadSettings (s : Store) : Option String → Except CommandFault Settings
  | none => .ok {}
  | some path =>
    match Settings.load s (Path.ofText path) with
    | .ok settings => .ok settings
    | .error fault => .error (if fault.isOfText then .badDocument fault else .ofLoad fault)

def overrideBundle (settings : Settings) : Option Bool → Except CommandFault Settings
  | none => .ok settings
  | some bundle =>
    let changed : Settings := { settings with output := { settings.output with bundle } }
    match changed.checkRefs with
    | .ok changed => .ok changed
    | .issues list => .error (.badSettings list)
    | .halt cause => .error (.load (.halted cause))

def statusText (o : Outcome) : String :=
  match o.failure? with
  | none => Markup.green "ok"
  | some failure => Markup.red failure.message

def runConvert (s : Store) (graph out : String) (settings : Settings) :
    Except CommandFault Report := do
  let directory := Path.ofText out
  let shown := (Path.ofText graph).text
  match convertFile shown directory settings s with
  | .error (.load fault) => throw (.ofLoad fault)
  | .error (.broken breach) => throw (.broken breach)
  | .error (.write fault) => throw (.file fault)
  | .ok converted =>
    let rows := converted.outcomes.map fun o => [o.name, o.kind, statusText o]
    let count := toString converted.written.paths.length
    return {
      exit := if converted.outcomes.all (·.isOk) then 0 else 1
      console :=
        [.table ("Schemas (" ++ shown ++ ")") ["Declaration", "Kind", "Status"] rows,
         .line ("[bold green]Files written:[/] " ++ count ++ " -> " ++ directory.text)]
      store := converted.written.store
      log := converted.log }

/-- The row of a node: its id, its text and its shape. -/
def classifyRow (g : Graph) (n : Node) : Except Breach (List String) := do
  let kind ← match Strict.shapeOf g n with
    | .ok shape => pure shape.text
    | .error (.fault cause) | .error (.stray cause) =>
      pure (Markup.red (Failure.message ⟨cause, .nowhere⟩))
    | .error (.breach breach) => throw breach
  Strict.checkInteger n.id
  Strict.checkText n
  return [toString n.id, Markup.escape n.displayText, kind]

def runClassify (s : Store) (graph : String) : Except CommandFault Report := do
  let g ← loadGraph s graph
  let rows ← unbroken (g.nodes.mapM (classifyRow g))
  let title := "Type nodes (" ++ (Path.ofText graph).text ++ ")"
  return { console := [.table title ["ID", "Type", "Kind"] rows], store := s }

/-- Shows the schema of the first declaration of a name that describes data. -/
def runInspect (s : Store) (graph name : String) (settings : Option String) :
    Except CommandFault Report := do
  let settings ← loadSettings s settings
  let g ← loadGraph s graph
  let (outcomes, log) ← unbroken (Strict.convertNamed g settings.resolver name)
  match outcomes with
  | [] =>
    throw (.badArgument ("Declaration " ++ name ++ " not found in " ++ (Path.ofText graph).text))
  | outcome :: _ =>
    match outcome.result with
    | .ok schema =>
      return { out := Json.render .indented schema.render ++ "\n", store := s, log }
    | .error failure =>
      return {
        exit := 1, console := [.line (Markup.red failure.message)], store := s, log }

def runExport (s : Store) (out : String) (pretty : Bool) : Except CommandFault Report :=
  let p := Path.ofText out
  match s.write p (Json.render (if pretty then .indented else .compact) Graph.Format.schema) with
  | .error fault => .error (.file fault)
  | .ok s => .ok { out := "Wrote type graph schema to " ++ p.text ++ "\n", store := s }

def issueCount (list : List Issue) : String :=
  toString list.length ++ " validation error" ++ (if list.length = 1 then "" else "s") ++ " for " ++
    Graph.modelName

/-- The lines that tell of a graph that is no valid document. -/
def refusalLines (graph : String) (fault : LoadFault) : List String :=
  ("FAIL " ++ (Path.ofText graph).text ++ ": " ++ fault.message) ::
    (match fault with
      | .invalid _ _ list => [issueCount list]
      | _ => [])

/-- The line that tells of a valid graph. -/
def validLine (graph : String) (g : Graph) : String :=
  "ok   " ++ (Path.ofText graph).text ++ ": " ++ toString g.nodes.length ++ " nodes, " ++
    toString g.declarations.length ++ " declarations\n"

/-- Checks one graph. That it is no valid document is told and goes into the exit code. -/
def checkGraph (report : Report) (graph : String) : Except CommandFault Report :=
  match Graph.load report.store (Path.ofText graph) with
  | .ok g => .ok { report with out := report.out ++ validLine graph g }
  | .error fault =>
    if fault.isOfDocument then
      .ok { report with exit := 1, err := report.err ++ refusalLines graph fault }
    else .error (.load fault)

/-- Checks graph after graph; one that is no valid document does not stop the others. -/
def runValidate (graphs : List String) (report : Report) : Except CommandFault Report :=
  graphs.foldlM checkGraph report

/-- Every file that must exist is looked for before anything else. -/
def checkInputs (s : Store) : List String → Except CommandFault Unit
  | [] => .ok ()
  | path :: rest =>
    match s.exists? (Path.ofText path) with
    | .ok true => checkInputs s rest
    | .ok false => .error (.badArgument ("path " ++ Text.quoted path ++ " does not exist."))
    | .error fault => .error (.file fault)

def run (s : Store) (c : Command) : Except CommandFault Report := do
  checkInputs s c.inputs
  match c with
  | .version => return { out := versionText ++ "\n", store := s }
  | .convert graph out settings bundle _ =>
    runConvert s graph out (← overrideBundle (← loadSettings s settings) bundle)
  | .classify graph => runClassify s graph
  | .inspect graph name settings => runInspect s graph name settings
  | .exportFormat out pretty => runExport s out pretty
  | .validate graphs => runValidate graphs { store := s }

end Command

end TypeSchema
