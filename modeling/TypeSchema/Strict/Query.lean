import TypeSchema.Resolve.Plan
import TypeSchema.Text.Digits

/-!
# Strict queries

Queries and predicates as they run: an id that no node has breaks the run, and so does an integer
that has too many digits to be written, in a text or in a flag word that is spelled out. In a closed
graph only the latter can happen.
-/

namespace TypeSchema

/-- What breaks a run, whatever is being resolved. -/
inductive Breach where
  | noNode (id : Int)
  /-- A node is given up that is not being resolved. -/
  | noStage (id : Int)
  /-- A node is resolved, but no schema is kept for it. -/
  | noSchema (id : Int)
  /-- A step is taken back where no step was made. -/
  | noStep
  | longInteger (i : Int)
deriving DecidableEq, Repr

namespace Breach

def message : Breach → String
  | .noNode id | .noStage id | .noSchema id => toString id
  | .noStep => "pop from empty list"
  | .longInteger _ => Text.longInteger

end Breach

namespace Strict

/-! ### Texts -/

def checkInteger (i : Int) : Except Breach Unit :=
  if Text.isLong i then .error (.longInteger i) else .ok ()

/-- The node has no text of its own, so that its id stands for it. -/
def isShownById (n : Node) : Bool :=
  n.display.all (·.isEmpty) && n.intrinsicName.all (·.isEmpty) && n.symbol.isNone &&
    (FlagClass.type.namesOf n.flags).isEmpty

/-- The text of the node can be written. -/
def checkText (n : Node) : Except Breach Unit :=
  if isShownById n then checkInteger n.id else .ok ()

/-- The value of the node can be written. -/
def checkValue (n : Node) : Except Breach Unit :=
  match n.value with
  | some (.int i) => checkInteger i
  | _ => .ok ()

/-- The flag word of the member can be made. A word is spelled out when optionality is folded into it. -/
def checkFlags (m : Member) : Except Breach Unit :=
  let word := m.flags ||| SymbolFlag.optional
  if m.optional && !FlagClass.symbol.isSpelled word then
    .error (.longInteger (FlagClass.symbol.restOf word))
  else .ok ()

/-! ### Queries -/

def lookup (g : Graph) (id : Int) : Except Breach Node :=
  match g.node? id with
  | some n => .ok n
  | none => .error (.noNode id)

def lookup? (g : Graph) : Option Int → Except Breach (Option Node)
  | none => .ok none
  | some id => some <$> lookup g id

def constituents (g : Graph) (n : Node) : Except Breach (List Node) := n.types.mapM (lookup g)

def typeArguments (g : Graph) (n : Node) : Except Breach (List Node) :=
  n.typeArguments.mapM (lookup g)

def stringIndexType? (g : Graph) (n : Node) : Except Breach (Option Node) := lookup? g n.stringIndex

def targetObjectFlags (g : Graph) (n : Node) : Except Breach Nat := do
  return ((← lookup? g n.target).getD n).objectFlags

def property (g : Graph) (m : Member) : Except Breach Property := do
  checkFlags m
  let accessorType ← lookup? g m.accessorType
  let type ← lookup g m.type
  return {
    name := m.name
    type
    flags := if m.optional then m.flags ||| SymbolFlag.optional else m.flags
    modifiers := m.modifiers
    accessorType }

def properties (g : Graph) (n : Node) : Except Breach (List Property) := n.members.mapM (property g)

def subjects (g : Graph) : Except Breach (List Subject) :=
  g.declarations.mapM fun d => (⟨d.name, d.kind.text, ·⟩) <$> lookup g d.type

/-! ### Predicates -/

def isTuple (g : Graph) (n : Node) : Except Breach Bool :=
  if n.isReference && !n.isArray then
    (hasFlag · ObjectFlag.tuple) <$> targetObjectFlags g n
  else .ok false

/-- Members are looked at only where there is an index. -/
def isIndexable (g : Graph) (n : Node) : Except Breach Bool :=
  if n.isObject then do
    match ← stringIndexType? g n with
    | none => return false
    | some _ => return (← properties g n).isEmpty
  else .ok false

/-- The shape of an object. -/
def objectShape (g : Graph) (n : Node) : Except Breach Shape :=
  if n.isArray then .ok .array
  else do
    let tuple ← isTuple g n
    if tuple then .ok .tuple
    else if n.isFunctionLike then .ok .function
    else do
      checkText n
      if isDateName n.displayText then .ok .date
      else do
        let indexable ← isIndexable g n
        return if indexable then .indexable else .object

def shape? (g : Graph) (n : Node) : Except Breach (Option Shape) :=
  if n.isEnum then .ok (some .enum)
  else if n.isLiteral then .ok (some .literal)
  else if n.isBigIntLiteral then .ok (some .bigIntLiteral)
  else if n.isPrimitive then .ok (some .primitive)
  else if n.isGeneric then .ok (some .generic)
  else if n.isUnion then .ok (some .union)
  else if n.isIntersection then .ok (some .intersection)
  else if n.isObject then some <$> objectShape g n
  else .ok none

def isCallable (g : Graph) (n : Node) : Except Breach Bool :=
  if n.isFunctionLike then .ok true
  else if n.isUnion then do
    let defined := (← constituents g n).filter Node.isDefined
    return !defined.isEmpty && defined.all Node.isFunctionLike
  else .ok false

def isHidden (g : Graph) (settings : ResolverSettings) (p : Property) : Except Breach Bool :=
  if p.isPrototype || p.isMethod || (settings.skipPrivate && p.isPrivate) then .ok true
  else isCallable g p.effectiveType

def visible (g : Graph) (settings : ResolverSettings) :
    List Property → Except Breach (List Property)
  | [] => .ok []
  | p :: rest => do
    let hidden ← isHidden g settings p
    let rest ← visible g settings rest
    return if hidden then rest else p :: rest

def slots (g : Graph) (settings : ResolverSettings) (n : Node) : Except Breach (List Slot) := do
  let shown ← visible g settings (← properties g n)
  return shown.map fun p => ⟨p.name, p.isOptional, p.effectiveType⟩

end Strict

end TypeSchema
