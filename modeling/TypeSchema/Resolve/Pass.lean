import TypeSchema.Resolve.Session

/-!
# Passes

A pass resolves every declaration that describes data, in one session. All of them are named before
the first is resolved, and one that fails does not stop the others.
-/

namespace TypeSchema

structure Outcome where
  name : String
  kind : String
  result : Except Failure Schema

namespace Outcome

def schema? (o : Outcome) : Option Schema := o.result.toOption

def failure? (o : Outcome) : Option Failure :=
  match o.result with
  | .ok _ => none
  | .error failure => some failure

def isOk (o : Outcome) : Bool := o.failure?.isNone

end Outcome

namespace Resolve

/-- Resolves one declaration of a pass: the outcome, if it describes data, and the session after. -/
def step (g : Graph) (settings : ResolverSettings) (s : Subject) (session : Session) :
    Option Outcome × Session :=
  if s.isTranspilable then
    match (subject g settings s).run session with
    | .ok schema session => (some ⟨s.name, s.kind, .ok schema⟩, session)
    | .error failure session =>
      (some ⟨s.name, s.kind, .error failure⟩, session.report (.failed s.name failure))
  else (none, session.report (.skipped s.kind s.name))

def steps (g : Graph) (settings : ResolverSettings) :
    List Subject → Session → List Outcome × Session
  | [], session => ([], session)
  | s :: rest, session =>
    let (outcome?, session) := step g settings s session
    let (outcomes, session) := steps g settings rest session
    (outcome?.toList ++ outcomes, session)

def pass (g : Graph) (settings : ResolverSettings) (subjects : List Subject) :
    List Outcome × Session :=
  steps g settings subjects (Session.declareAll (subjects.filter Subject.isTranspilable) {})

end Resolve

namespace Graph

def convert (g : Graph) (settings : ResolverSettings) : List Outcome × Session :=
  Resolve.pass g settings g.subjects

end Graph

end TypeSchema
