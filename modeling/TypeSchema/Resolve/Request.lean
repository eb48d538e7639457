import TypeSchema.Resolve.Session

/-!
# Requests

What a session can be asked for: requests are answered one after the other, and each goes on from
where the one before it, also one that failed, left the session.
-/

namespace TypeSchema

inductive Request where
  /-- The schema of a node, outside of any declaration. -/
  | node (n : Node)
  | shape (n : Node)
  | declare (subjects : List Subject)
  | subject (s : Subject)
deriving Repr

inductive Reply where
  | schema (schema : Schema)
  | shape (shape : Shape)
  | declared
deriving Repr

namespace Request

/-- The node that is to be resolved or classified. -/
def target? : Request → Option Node
  | .node n | .shape n => some n
  | .declare _ => none
  | .subject s => some s.node

/-- The request asks for a node of the graph. -/
def Within (g : Graph) (q : Request) : Prop := ∀ n ∈ q.target?, n ∈ g.nodes

end Request

namespace Session

def replying (x : Run Schema) (s : Session) : Except Failure Reply × Session :=
  match x.run s with
  | .ok schema s => (.ok (.schema schema), s)
  | .error f s => (.error f, s)

def answer (g : Graph) (settings : ResolverSettings) (s : Session) :
    Request → Except Failure Reply × Session
  | .node n => replying (Resolve.node g settings n) s
  | .shape n => ((Resolve.shape g n).map .shape, s)
  | .declare subjects => (.ok .declared, s.declareAll subjects)
  | .subject subject => replying (Resolve.subject g settings subject) s

def after (g : Graph) (settings : ResolverSettings) (requests : List Request) (s : Session) : Session :=
  requests.foldl (fun s q => (s.answer g settings q).2) s

end Session

end TypeSchema
