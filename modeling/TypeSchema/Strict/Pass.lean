import TypeSchema.Resolve.Machine
import TypeSchema.Resolve.Pass
import TypeSchema.Strict.Plan

/-!
# Strict passes

Passes as they run, on one machine. A failure is caught where a declaration ends; nothing catches
a breach, so it ends the pass.
-/

namespace TypeSchema

/-- What a resolution ends with when it has no schema. -/
inductive Stop where
  | failed (failure : Failure)
  | broken (breach : Breach)
deriving DecidableEq, Repr

namespace Obstacle

def stop (place : Place) : Obstacle → Stop
  | .fault cause => .failed ⟨cause, place⟩
  | .stray cause => .failed ⟨cause, .nowhere⟩
  | .breach b => .broken b

end Obstacle

namespace Strict

/-! ### Ways out -/

/-- The node loses its stage, which it must have, whatever it is given up for. -/
def giveUp {α : Type} (id : Int) (stop : Stop) (m : Machine) : Except Stop α × Machine :=
  match m.stage? id with
  | some _ => (.error stop, m.abandon id)
  | none => (.error (.broken (.noStage id)), { m with depth := m.depth - 1 })

/-- Takes back the step of an edge, if there is one to take back. -/
def back? : Option String → Machine → Option Machine
  | none, m => some m
  | some label, m => if m.path.isEmpty then none else some (m.pop (some label))

/-- The text of the node is asked for only where it has no name. -/
def cut (settings : ResolverSettings) (n : Node) (m : Machine) : Except Stop Schema × Machine :=
  let name? := m.name? n.id
  match if name?.all (·.isEmpty) then checkText n else .ok () with
  | .error breach => (.error (.broken breach), m)
  | .ok () => (.ok (Resolve.cutSchema settings n name?), (m.cut settings n).2)

def tooDeep {α : Type} (settings : ResolverSettings) (m : Machine) : Except Stop α × Machine :=
  match checkInteger settings.maxDepth with
  | .error breach => (.error (.broken breach), m)
  | .ok () => (.error (.failed ⟨.depthExceeded settings.maxDepth, m.place⟩), m)

/-! ### Resolution -/

def along (visit : Node → Machine → Except Stop Schema × Machine) :
    List Edge → Machine → Except Stop (List Schema) × Machine
  | [], m => (.ok [], m)
  | e :: es, m =>
    let (result, m) := visit e.target (m.push e.label)
    match back? e.label m with
    | none => (.error (.broken .noStep), m)
    | some m =>
      match result with
      | .error stop => (.error stop, m)
      | .ok schema =>
        let (result, m) := along visit es m
        (result.map (schema :: ·), m)

/-- Resolves a node, where the call stack has room for so many resolutions inside one another. Without
room the node is entered and given up. -/
def resolve (g : Graph) (settings : ResolverSettings) (room : Nat) (n : Node) (m : Machine) :
    Except Stop Schema × Machine :=
  match m.stage? n.id with
  | some .resolved =>
    match m.cached? n.id with
    | some schema => (.ok schema, m)
    | none => (.error (.broken (.noSchema n.id)), m)
  | some .resolving => cut settings n m
  | none =>
    if settings.maxDepth ≤ m.depth then tooDeep settings m
    else
      match room with
      | 0 =>
        let entered := m.enter n.id
        giveUp n.id (.failed ⟨.depthExceeded entered.depth, entered.place⟩) entered
      | room + 1 =>
        match plan g settings n with
        | .error obstacle => giveUp n.id (obstacle.stop m.place) (m.enter n.id)
        | .ok plan =>
          match along (resolve g settings room) plan.edges (m.enter n.id) with
          | (.error stop, m) => giveUp n.id stop m
          | (.ok schemas, m) => (.ok (plan.assemble schemas), m.finish n.id (plan.assemble schemas))

/-- Resolves a node where nothing has been resolved before. -/
def node (g : Graph) (settings : ResolverSettings) (n : Node) : Except Stop Schema × Machine :=
  resolve g settings settings.stackRoom n {}

/-! ### Declarations -/

def subject (g : Graph) (settings : ResolverSettings) (s : Subject) (m : Machine) :
    Except Stop Schema × Machine :=
  let top := { m.declare s with declaration := some s.name, path := [], depth := 0 }
  let (result, m) := resolve g settings settings.stackRoom s.node top
  (result, { m with declaration := none })

def report (event : Event) (m : Machine) : Machine := { m with log := m.log ++ [event] }

/-- The outcome of one declaration, if it describes data. -/
def step (g : Graph) (settings : ResolverSettings) (s : Subject) (m : Machine) :
    Except Breach (Option Outcome × Machine) :=
  if s.isTranspilable then
    match subject g settings s m with
    | (.ok schema, m) => .ok (some ⟨s.name, s.kind, .ok schema⟩, m)
    | (.error (.failed failure), m) =>
      .ok (some ⟨s.name, s.kind, .error failure⟩, report (.failed s.name failure) m)
    | (.error (.broken breach), _) => .error breach
  else .ok (none, report (.skipped s.kind s.name) m)

def steps (g : Graph) (settings : ResolverSettings) :
    List Subject → Machine → Except Breach (List Outcome × Machine)
  | [], m => .ok ([], m)
  | s :: rest, m => do
    let (outcome?, m) ← step g settings s m
    let (outcomes, m) ← steps g settings rest m
    return (outcome?.toList ++ outcomes, m)

/-- The outcomes of a pass, and what it reports. -/
def pass (g : Graph) (settings : ResolverSettings) (subjects : List Subject) :
    Except Breach (List Outcome × List Event) := do
  let named := (subjects.filter Subject.isTranspilable).foldl (fun m s => m.declare s) {}
  let (outcomes, m) ← steps g settings subjects named
  return (outcomes, m.log)

def convert (g : Graph) (settings : ResolverSettings) :
    Except Breach (List Outcome × List Event) := do
  pass g settings (← subjects g)

/-- A pass over the declarations of one name alone. -/
def convertNamed (g : Graph) (settings : ResolverSettings) (name : String) :
    Except Breach (List Outcome × List Event) := do
  pass g settings ((← subjects g).filter fun s => s.name = name && s.isTranspilable)

end Strict

end TypeSchema
