import TypeSchema.Command.Run

/-!
# The program

Loads what a command can see into a store, runs the command, and carries out what it did.
-/

namespace TypeSchema.Program

def exists? (path : String) : IO Bool :=
  try
    discard (IO.FS.realPath path)
    return true
  catch _ => return false

/-- The files that a command reads and the directories it writes to, as far as they are there. -/
def loadStore (c : Command) : IO Store := do
  let mut files := []
  for path in c.inputs do
    try files := (path, ← IO.FS.readFile path) :: files
    catch _ => pure ()
  let store := Store.ofFiles files
  let mut directories := store.directories
  if let some out := c.output? then
    let p := Path.ofText out
    for directory in p.above ++ [p] do
      if ← exists? directory.text then directories := directory :: directories
  return { store with directories }

/-- Makes the directories and files that a run left in its store. -/
def saveStore (before after : Store) : IO Unit := do
  for directory in after.directories do
    if !before.directories.contains directory then IO.FS.createDirAll directory.text
  for (p, text) in after.files do
    if Table.get? p before.files ≠ some text then IO.FS.writeFile p.text text

def isShown (verbose : Bool) (event : Event) : Bool := verbose || event.level = .warning

def showReport (c : Command) (report : Report) : IO Unit := do
  for event in report.log do
    if isShown c.isVerbose event then IO.eprintln event.message
  for item in report.console do
    for line in item.lines do IO.println line
  IO.print report.out
  for line in report.err do IO.eprintln line

/-- Wrong arguments end with 2, other faults with 1. -/
def exitCode : CommandFault → UInt32
  | .badArgument _ | .badDocument _ | .badSettings _ => 2
  | .load _ | .file _ | .broken _ => 1

def run (c : Command) : IO UInt32 := do
  let before ← loadStore c
  match c.run before with
  | .error fault =>
    IO.eprintln fault.message
    return exitCode fault
  | .ok report =>
    saveStore before report.store
    showReport c report
    return report.exit.toUInt32

end TypeSchema.Program

open TypeSchema in
def main (args : List String) : IO UInt32 :=
  match Command.ofArguments? args with
  | some c => Program.run c
  | none => do
    for line in Command.usage do IO.eprintln line
    return 2
