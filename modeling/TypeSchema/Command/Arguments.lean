import TypeSchema.Settings.Basic
import TypeSchema.Table

/-!
# Commands and their arguments

Options may stand anywhere among the arguments, with their value behind them or after an equals
sign, up to a double dash. Options of one letter may share a dash.
-/

namespace TypeSchema

inductive Command where
  | version
  | convert (graph out : String) (settings : Option String) (bundle : Option Bool) (verbose : Bool)
  | classify (graph : String)
  | inspect (graph name : String) (settings : Option String)
  | exportFormat (out : String) (pretty : Bool)
  | validate (graphs : List String)
deriving DecidableEq, Repr

namespace Command

/-- The files that must exist, in the order in which they are looked for. -/
def inputs : Command → List String
  | .version | .exportFormat .. => []
  | .convert graph _ settings _ _ => settings.toList ++ [graph]
  | .classify graph => [graph]
  | .inspect graph _ settings => settings.toList ++ [graph]
  | .validate graphs => graphs

def output? : Command → Option String
  | .convert _ out .. => some out
  | .exportFormat out _ => some out
  | .version | .classify _ | .inspect .. | .validate _ => none

def isVerbose : Command → Bool
  | .convert _ _ _ _ verbose => verbose
  | _ => false

def usage : List String :=
  ["version",
   "convert GRAPH [--out DIRECTORY] [--config SETTINGS] [--bundle | --no-bundle] [--verbose]",
   "classify GRAPH",
   "inspect GRAPH NAME [--config SETTINGS]",
   "export OUT [--pretty | --no-pretty]",
   "validate GRAPH..."]

/-- The arguments of a command told apart: options with their values, and the others. -/
structure Arguments where
  values : List (String × String)
  switches : List String
  others : List String

def splitOption (arg : String) : String × Option String :=
  let (name, rest) := arg.toList.span (· ≠ '=')
  (String.ofList name, match rest with
    | [] => none
    | _ :: value => some (String.ofList value))

structure Options where
  valued : List String := []
  switches : List String := []
  /-- Letters that stand for switches. -/
  letters : List (Char × String) := []

namespace Arguments

def addValue (name value : String) (a : Arguments) : Arguments :=
  { a with values := (name, value) :: a.values }

def addSwitches (names : List String) (a : Arguments) : Arguments :=
  { a with switches := names ++ a.switches }

def addOther (arg : String) (a : Arguments) : Arguments := { a with others := arg :: a.others }

end Arguments

/-- The switches of the letters behind a single dash. -/
def lettered? (options : Options) (arg : String) : Option (List String) :=
  if arg.startsWith "--" then none
  else (arg.toList.drop 1).mapM fun c => Table.get? c options.letters

def sort (options : Options) : List String → Option Arguments
  | [] => some ⟨[], [], []⟩
  | arg :: rest =>
    if arg = "--" then some ⟨[], [], rest⟩
    else if !arg.startsWith "-" || arg = "-" then (sort options rest).map (·.addOther arg)
    else
      let (name, value?) := splitOption arg
      if options.valued.contains name then
        match value?, rest with
        | some value, rest => (sort options rest).map (·.addValue name value)
        | none, value :: rest => (sort options rest).map (·.addValue name value)
        | none, [] => none
      else if options.switches.contains name then
        if value?.isSome then none else (sort options rest).map (·.addSwitches [name])
      else do
        let names ← lettered? options arg
        (sort options rest).map (·.addSwitches names)

namespace Arguments

def value? (a : Arguments) (name : String) : Option String :=
  (a.values.reverse.find? (·.1 = name)).map (·.2)

/-- What the last of two opposite switches says. -/
def flag? (a : Arguments) (on off : String) : Option Bool :=
  (a.switches.reverse.find? fun s => s = on || s = off).map (· = on)

end Arguments

def convertOptions : Options where
  valued := ["--out", "--config"]
  switches := ["--bundle", "--no-bundle", "--verbose"]
  letters := [('v', "--verbose")]

def inspectOptions : Options where
  valued := ["--config"]

def exportOptions : Options where
  switches := ["--pretty", "--no-pretty"]

/-- The command of a name with its arguments, or none when they are used wrongly. -/
def named? (name : String) (args : List String) : Option Command :=
  match name with
  | "version" => do
    let a ← sort {} args
    if a.others.isEmpty then some .version else none
  | "convert" => do
    let a ← sort convertOptions args
    match a.others with
    | [graph] =>
      some (.convert graph ((a.value? "--out").getD "schemas") (a.value? "--config")
        (a.flag? "--bundle" "--no-bundle") (a.switches.contains "--verbose"))
    | _ => none
  | "classify" => do
    let a ← sort {} args
    match a.others with
    | [graph] => some (.classify graph)
    | _ => none
  | "inspect" => do
    let a ← sort inspectOptions args
    match a.others with
    | [graph, name] => some (.inspect graph name (a.value? "--config"))
    | _ => none
  | "export" => do
    let a ← sort exportOptions args
    match a.others with
    | [out] => some (.exportFormat out ((a.flag? "--pretty" "--no-pretty").getD true))
    | _ => none
  | "validate" => do
    let a ← sort {} args
    if a.others.isEmpty then none else some (.validate a.others)
  | _ => none

/-- The command that arguments stand for; a double dash may stand before its name. -/
def ofArguments? : List String → Option Command
  | "--" :: name :: args => named? name args
  | name :: args => named? name args
  | [] => none

end Command

end TypeSchema
