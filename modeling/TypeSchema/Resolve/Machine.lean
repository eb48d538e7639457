import TypeSchema.Resolve.Request

/-!
# The machine of a session

The same resolutions, with everything that they change in one state: besides what a session keeps,
where the resolution stands, which is the current declaration, the path of steps below it, and the
depth. Nothing is handed down; each of these is changed on the way in and put back on every way out.
A node for which there is no more room on the call stack has been entered when it fails, other than one
that the ceiling keeps out. As in a session, all integers can be written.
-/

namespace TypeSchema

inductive Stage where
  | resolving
  | resolved
deriving DecidableEq, Repr

structure Machine where
  stages : Table Int Stage := []
  cache : Table Int Schema := []
  names : Table Int String := []
  declaration : Option String := none
  path : List String := []
  depth : Nat := 0
  log : List Event := []
deriving Repr

/-- A failure on its way out, with the machine as it was when the failure arose. -/
structure Raised where
  failure : Failure
  origin : Machine
deriving Repr

namespace Machine

def stage? (m : Machine) (id : Int) : Option Stage := Table.get? id m.stages

def cached? (m : Machine) (id : Int) : Option Schema := Table.get? id m.cache

def name? (m : Machine) (id : Int) : Option String := Table.get? id m.names

def place (m : Machine) : Place := ⟨m.declaration, m.path⟩

def resolvedIds (m : Machine) : List Int :=
  (m.stages.filter fun entry => entry.2 = .resolved).map (·.1)

def resolvingIds (m : Machine) : List Int :=
  (m.stages.filter fun entry => entry.2 = .resolving).map (·.1)

def raise {α : Type} (m : Machine) (cause : Cause) : Except Raised α × Machine :=
  (.error ⟨⟨cause, m.place⟩, m⟩, m)

/-! ### Ways in and out -/

def enter (id : Int) (m : Machine) : Machine :=
  { m with stages := m.stages.put id .resolving, depth := m.depth + 1 }

def finish (id : Int) (schema : Schema) (m : Machine) : Machine :=
  { m with
    stages := m.stages.put id .resolved
    cache := m.cache.put id schema
    depth := m.depth - 1 }

def abandon (id : Int) (m : Machine) : Machine :=
  { m with stages := m.stages.filter (fun entry => entry.1 ≠ id), depth := m.depth - 1 }

def push (label : Option String) (m : Machine) : Machine :=
  { m with path := m.path ++ label.toList }

def pop : Option String → Machine → Machine
  | none, m => m
  | some _, m => { m with path := m.path.dropLast }

/-- The call stack is full with the node just entered. The failure counts it among the nodes that are
being resolved, and it is given up. -/
def exhaust {α : Type} (id : Int) (m : Machine) : Except Raised α × Machine :=
  let entered := m.enter id
  let (result, m) := entered.raise (.depthExceeded entered.depth)
  (result, m.abandon id)

def cut (settings : ResolverSettings) (n : Node) (m : Machine) : Except Raised Schema × Machine :=
  let name? := m.name? n.id
  (.ok (Resolve.cutSchema settings n name?),
    { m with log := m.log ++ [.cycleCut m.place (Resolve.cutName n name?)] })

/-! ### Resolution -/

/-- Resolves what the edges lead to, one after the other, up to the first that fails. -/
def along (visit : Node → Machine → Option (Except Raised Schema × Machine)) :
    List Edge → Machine → Option (Except Raised (List Schema) × Machine)
  | [], m => some (.ok [], m)
  | e :: es, m => do
    let (result, m) ← visit e.target (m.push e.label)
    let m := m.pop e.label
    match result with
    | .error raised => some (.error raised, m)
    | .ok schema =>
      let (result, m) ← along visit es m
      some (result.map (schema :: ·), m)

/-- Resolves a node. The number of nested calls is what the recursion is on, and there is no answer where
it ends; what ends a resolution is the ceiling on the depth, or the stack where it is full before. -/
def resolve (g : Graph) (settings : ResolverSettings) (calls : Nat) (n : Node) (m : Machine) :
    Option (Except Raised Schema × Machine) :=
  match m.stage? n.id, m.cached? n.id with
  | some .resolved, some schema => some (.ok schema, m)
  | some .resolved, none => some (m.raise (.unresolved "no schema is kept"))
  | some .resolving, _ => some (m.cut settings n)
  | none, _ =>
    if settings.maxDepth ≤ m.depth then some (m.raise (.depthExceeded settings.maxDepth))
    else if settings.stackRoom ≤ m.depth then some (m.exhaust n.id)
    else
      match calls with
      | 0 => none
      | calls + 1 =>
        match g.plan settings n with
        | .error cause =>
          let (result, m) := (m.enter n.id).raise cause
          some (result, m.abandon n.id)
        | .ok plan => do
          let (result, m) ← along (resolve g settings calls) plan.edges (m.enter n.id)
          match result with
          | .ok schemas => some (.ok (plan.assemble schemas), m.finish n.id (plan.assemble schemas))
          | .error raised => some (.error raised, m.abandon n.id)

/-! ### Requests -/

def declare (subject : Subject) (m : Machine) : Machine :=
  match m.name? subject.node.id with
  | some _ => m
  | none => { m with names := m.names.put subject.node.id subject.name }

def answer (g : Graph) (settings : ResolverSettings) (m : Machine) :
    Request → Option (Except Raised Reply × Machine)
  | .node n => do
    let (result, m) ← resolve g settings settings.levels n m
    some (result.map .schema, m)
  | .shape n =>
    match g.shapeOf n with
    | .ok shape => some (.ok (.shape shape), m)
    | .error cause => some (m.raise cause)
  | .declare subjects => some (.ok .declared, subjects.foldl (fun m subject => m.declare subject) m)
  | .subject subject => do
    let top := { m.declare subject with declaration := some subject.name, path := [], depth := 0 }
    let (result, m) ← resolve g settings settings.levels subject.node top
    some (result.map .schema, { m with declaration := none })

/-- The machine that the requests leave, if all of them are answered. -/
def after (g : Graph) (settings : ResolverSettings) (requests : List Request) (m : Machine) :
    Option Machine :=
  requests.foldlM (fun m q => (m.answer g settings q).map (·.2)) m

end Machine

end TypeSchema
