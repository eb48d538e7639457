import TypeSchema.Fragment

/-!
# Settings

What a pass of resolution and the writing of its schemas can be told.
-/

namespace TypeSchema

inductive CyclePolicy where
  | placeholder
  | ref
deriving DecidableEq, Repr

namespace CyclePolicy

def all : List CyclePolicy := [.placeholder, .ref]

def text : CyclePolicy → String
  | .placeholder => "placeholder"
  | .ref => "ref"

end CyclePolicy

structure ResolverSettings where
  cycles : CyclePolicy := .placeholder
  maxDepth : Nat := 128
  datesAsStrings : Bool := true
  skipPrivate : Bool := true
  /-- How many nodes can be in resolution at once before the call stack is full. This is up to the host,
  and no document sets it; it is counted in nodes, not in frames, of which some nodes take more. -/
  stackRoom : Nat := 240
deriving DecidableEq, Repr

namespace ResolverSettings

/-- How many nodes can be in resolution at once: as many as the ceiling lets in, or as the stack holds. -/
def levels (s : ResolverSettings) : Nat := min s.maxDepth s.stackRoom

/-- What is told of a resolution that finds no level left: the ceiling that keeps its node out or, where
the stack is full first, the number of nodes in resolution with the one that was let in. -/
def limit (s : ResolverSettings) : Nat :=
  if s.maxDepth ≤ s.stackRoom then s.maxDepth else s.stackRoom + 1

end ResolverSettings

structure OutputSettings where
  bundle : Bool := false
  pretty : Bool := true
  schemaUri : String := Fragment.draft07
deriving DecidableEq, Repr

structure Settings where
  resolver : ResolverSettings := {}
  output : OutputSettings := {}
deriving DecidableEq, Repr

namespace Settings

/-- References are of use only in a bundle, which holds what they refer to. -/
def RefsBundled (s : Settings) : Prop := s.resolver.cycles = .ref → s.output.bundle = true

instance (s : Settings) : Decidable s.RefsBundled := inferInstanceAs (Decidable (_ → _))

end Settings

end TypeSchema
