import TypeSchema.Document
import TypeSchema.Output
import TypeSchema.Strict.Pass

/-!
# Converting a file

From the file of a graph to the files of its schemas.
-/

namespace TypeSchema

inductive ConvertFault where
  | load (fault : LoadFault)
  | broken (breach : Breach)
  | write (fault : FileFault)
deriving Repr

structure Converted where
  outcomes : List Outcome
  written : Written

namespace Converted

def log (c : Converted) : List Event := c.written.log

end Converted

/-- Loads a graph, resolves its declarations and writes their schemas. The path is shown in the log
as it was given. -/
def convertFile (shown : String) (directory : Path) (settings : Settings) (s : Store) :
    Except ConvertFault Converted :=
  match Graph.load s (Path.ofText shown) with
  | .error fault => .error (.load fault)
  | .ok g =>
    match Strict.convert g settings.resolver with
    | .error breach => .error (.broken breach)
    | .ok (outcomes, log) =>
      match Output.write directory settings.output (outcomes.map Outcome.written) s with
      | .error fault => .error (.write fault)
      | .ok written =>
        let log := .loaded shown g.summary :: log ++ written.log
        .ok ⟨outcomes, { written with log }⟩

end TypeSchema
