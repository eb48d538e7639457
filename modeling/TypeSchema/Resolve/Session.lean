import TypeSchema.Log
import TypeSchema.Resolve.Plan

/-!
# Sessions

A session is the state that resolutions share: the mark of every node that is resolved or being
resolved, the names of declared nodes, and the log. `resolve` follows the plan of a node. A node
that is met again while it is being resolved lies on a cycle, which is cut there; a node that fails
loses its mark, so that nothing half resolved stays behind. How far a resolution goes down is bounded
by the levels of the settings: by the ceiling on depth, and by the room on the call stack.

All integers can be written here. A strict pass is the same, but ends where an integer is too long to be
written.
-/

namespace TypeSchema

inductive Mark where
  | resolving
  | resolved (schema : Schema)
deriving Repr

structure Session where
  marks : Table Int Mark := []
  names : Table Int String := []
  log : List Event := []
deriving Repr

namespace Session

def mark? (s : Session) (id : Int) : Option Mark := Table.get? id s.marks

def name? (s : Session) (id : Int) : Option String := Table.get? id s.names

def setMark (id : Int) (mark : Mark) (s : Session) : Session :=
  { s with marks := s.marks.put id mark }

def unmark (id : Int) (s : Session) : Session :=
  { s with marks := s.marks.filter fun entry => entry.1 ≠ id }

def report (event : Event) (s : Session) : Session := { s with log := s.log ++ [event] }

/-- Names a node, unless it has a name already. -/
def declare (subject : Subject) (s : Session) : Session :=
  match s.name? subject.node.id with
  | some _ => s
  | none => { s with names := s.names.put subject.node.id subject.name }

def declareAll (subjects : List Subject) (s : Session) : Session :=
  subjects.foldl (fun s subject => s.declare subject) s

end Session

/-- A step of a session that may fail; the session goes on from where it failed. -/
abbrev Run : Type → Type := EStateM Failure Session

namespace Resolve

/-- The name under which a cycle through the node is cut: its declared name, or its display text if
it has no name or an empty one. -/
def cutName (n : Node) : Option String → String
  | none | some "" => n.displayText
  | some name => name

/-- What stands for a node inside itself. Only declared nodes can be referred to. -/
def cutSchema (settings : ResolverSettings) (n : Node) (name? : Option String) : Schema :=
  match settings.cycles, name? with
  | .ref, some name => .reference name
  | _, _ => .circular (cutName n name?)

def cut (settings : ResolverSettings) (place : Place) (n : Node) : Run Schema := do
  let name? := (← get).name? n.id
  modify (·.report (.cycleCut place (cutName n name?)))
  return cutSchema settings n name?

/-- Answers from the marks where there is one, and otherwise enters the node. -/
def visit (settings : ResolverSettings) (place : Place) (n : Node) (enter : Run Schema) :
    Run Schema := do
  match (← get).mark? n.id with
  | some (.resolved schema) => return schema
  | some .resolving => cut settings place n
  | none => enter

/-- Runs the body with the node marked as being resolved and keeps its schema; without schema the
mark goes. -/
def marking (n : Node) (body : Run Schema) : Run Schema := do
  modify (·.setMark n.id .resolving)
  let schema ← tryCatch body fun failure => do
    modify (·.unmark n.id)
    throw failure
  modify (·.setMark n.id (.resolved schema))
  return schema

def planAt (g : Graph) (settings : ResolverSettings) (place : Place) (n : Node) : Run Plan :=
  match g.plan settings n with
  | .ok plan => return plan
  | .error cause => throw ⟨cause, place⟩

/-- Resolves a node with so many levels left. A node for which there is none fails: the ceiling keeps it
out, or it is let in and given up at once because the stack is full, which leaves no mark. -/
def resolve (g : Graph) (settings : ResolverSettings) : Nat → Place → Node → Run Schema
  | 0, place, n => visit settings place n (throw ⟨.depthExceeded settings.limit, place⟩)
  | levels + 1, place, n =>
    visit settings place n <| marking n do
      let plan ← planAt g settings place n
      let schemas ← plan.edges.mapM fun e =>
        resolve g settings levels (place.under e.label) e.target
      return plan.assemble schemas

def node (g : Graph) (settings : ResolverSettings) (n : Node) : Run Schema :=
  resolve g settings settings.levels .nowhere n

/-- Resolves the type of a declaration, which is named first. -/
def subject (g : Graph) (settings : ResolverSettings) (s : Subject) : Run Schema := do
  modify (·.declare s)
  resolve g settings settings.levels (.top s.name) s.node

/-- The shape of a node, located outside of any declaration. -/
def shape (g : Graph) (n : Node) : Except Failure Shape :=
  match g.shapeOf n with
  | .ok shape => .ok shape
  | .error cause => .error ⟨cause, .nowhere⟩

end Resolve

end TypeSchema
