import TypeSchema.Json.Printer
import TypeSchema.Log
import TypeSchema.Resolve.Pass
import TypeSchema.Settings.Basic
import TypeSchema.Store

/-!
# Writing schemas

The schemas of a pass are gathered by name, where the first declaration of a name wins, and written
as one file a name or as one bundle.
-/

namespace TypeSchema

/-- A declaration with its schema, if there is one. -/
structure Product (α : Type) where
  name : String
  kind : String
  schema? : Option α
deriving Repr

namespace Product

variable {α β : Type}

def map (f : α → β) (p : Product α) : Product β := ⟨p.name, p.kind, p.schema?.map f⟩

def gatherInto : Table String α → List (Product α) → Table String α × List Event
  | table, [] => (table, [])
  | table, p :: rest =>
    match p.schema? with
    | none => gatherInto table rest
    | some schema =>
      if p.name ∈ table.keys then
        let (table, log) := gatherInto table rest
        (table, .duplicate p.name p.kind :: log)
      else gatherInto (table ++ [(p.name, schema)]) rest

/-- The schemas by name in order of first arrival, and the log of those left out. -/
def gather (products : List (Product α)) : Table String α × List Event := gatherInto [] products

end Product

namespace Outcome

def product (o : Outcome) : Product Schema := ⟨o.name, o.kind, o.schema?⟩

def written (o : Outcome) : Product Value := o.product.map Schema.render

end Outcome

/-- The files of one writing, in order, and the store after it. -/
structure Written where
  paths : List Path
  store : Store
  log : List Event

namespace Output

def style (settings : OutputSettings) : Json.Style :=
  if settings.pretty then .indented else .compact

def bundleName : String := "schemas.json"

def fileName (name : String) : String := name ++ ".json"

def writeFiles (directory : Path) (settings : OutputSettings) :
    Table String Value → Store → Except FileFault (List Path × Store)
  | [], s => .ok ([], s)
  | (name, schema) :: rest, s => do
    let p := directory.under (Path.ofText (fileName name))
    let s ← s.write p (Json.render (style settings) (Fragment.document settings.schemaUri schema))
    let (paths, s) ← writeFiles directory settings rest s
    return (p :: paths, s)

/-- Writes the schemas of a pass into a directory, which is made if need be. -/
def write (directory : Path) (settings : OutputSettings) (products : List (Product Value))
    (s : Store) : Except FileFault Written := do
  let s ← s.makeDirectories directory
  let (schemas, log) := Product.gather products
  if settings.bundle then
    let p := directory.under (Path.ofText bundleName)
    let s ← s.write p (Json.render (style settings) (Fragment.bundle settings.schemaUri schemas))
    return ⟨[p], s, log ++ [.bundleWritten schemas.length p.text]⟩
  else
    let (paths, s) ← writeFiles directory settings schemas s
    return ⟨paths, s, log ++ [.filesWritten paths.length directory.text]⟩

end Output

end TypeSchema
