import TypeSchema.Proofs.Lockstep

/-!
# Counterparts

A node of another graph is the counterpart of a node if it is told by the same flags, values and
texts, and if the queries find the counterparts of what they find for the node. Its plan is then the
same plan over counterparts, but that an object may have become an indexable:
`Strict.plan_counterpart`.
-/

namespace TypeSchema

def Property.mapNodes (f : Node → Node) (p : Property) : Property :=
  { p with type := f p.type, accessorType := p.accessorType.map f }

def Slot.mapNode (f : Node → Node) (s : Slot) : Slot := { s with type := f s.type }

namespace Plan

def mapNodes (f : Node → Node) : Plan → Plan
  | .leaf schema => .leaf schema
  | .forward node => .forward (f node)
  | .anyOf fixed options => .anyOf fixed (options.map f)
  | .allOf parts => .allOf (parts.map f)
  | .array item => .array (item.map f)
  | .tuple items => .tuple (items.map f)
  | .indexable value => .indexable (f value)
  | .object slots index => .object (slots.map (Slot.mapNode f)) (index.map f)
  | .merged slots indexes => .merged (slots.map (Slot.mapNode f)) (indexes.map f)

theorem edges_mapNodes (f : Node → Node) (p : Plan) :
    (p.mapNodes f).edges = p.edges.map (Edge.mapNode f) := by
  cases p with
  | leaf | forward | indexable => rfl
  | anyOf | allOf => simp [mapNodes, edges, Edge.mapNode]
  | array item => cases item <;> rfl
  | tuple items =>
    simp only [mapNodes, edges, List.zipIdx_map, List.map_map]
    rfl
  | object slots index =>
    simp only [mapNodes, edges, slotEdges, List.map_append, List.map_map]
    cases index <;> rfl
  | merged slots indexes =>
    simp only [mapNodes, edges, slotEdges, List.map_append, List.map_map]
    rfl

end Plan

theorem Property.effectiveType_mapNodes (f : Node → Node) (p : Property) :
    (p.mapNodes f).effectiveType = f p.effectiveType := by
  have haccessor : (p.accessorType.map f).getD (f p.type) = f (p.accessorType.getD p.type) := by
    cases p.accessorType <;> rfl
  show (if p.isGetAccessor then (p.accessorType.map f).getD (f p.type) else f p.type) = _
  rw [haccessor, effectiveType]
  split <;> rfl

/-- The member with other ids for its types. -/
def Member.rename (ρ : Int → Int) (m : Member) : Member :=
  { m with type := ρ m.type, accessorType := m.accessorType.map ρ }

/-- Nothing tells the nodes apart but their ids, and what they are made of. -/
structure Node.Resembles (n n' : Node) : Prop where
  flags : n'.flags = n.flags
  objectFlags : n'.objectFlags = n.objectFlags
  symbol : n'.symbol = n.symbol
  value : n'.value = n.value
  intrinsicName : n'.intrinsicName = n.intrinsicName
  display : n'.display = n.display

namespace Graph

/-- Every node of `g` has a copy in `g'`, under another id, that refers to copies. What members the
copies have is left open. -/
structure Copies (ρ : Int → Int) (g g' : Graph) (f : Node → Node) : Prop where
  node? : ∀ id ∈ g.ids, g'.node? (ρ id) = (g.node? id).map f
  resembles : ∀ n : Node, n.Resembles (f n)
  types : ∀ n, (f n).types = n.types.map ρ
  typeArguments : ∀ n, (f n).typeArguments = n.typeArguments.map ρ
  target : ∀ n, (f n).target = n.target.map ρ
  stringIndex : ∀ n, (f n).stringIndex = n.stringIndex.map ρ

/-- The copies have the same texts, the same breaks in the flag words of their members, the shown members
and, but for an object that has become an
indexable, the shapes of the nodes. -/
structure Counterparts (ρ : Int → Int) (g g' : Graph) (settings : ResolverSettings) (f : Node → Node) : Prop
    extends Copies ρ g g' f where
  closed : g'.Closed
  text : ∀ n ∈ g.nodes, (f n).displayText = n.displayText
  checkText : ∀ n ∈ g.nodes, Strict.checkText (f n) = Strict.checkText n
  checkMembers : ∀ n ∈ g.nodes, Strict.checkMembers (f n) = Strict.checkMembers n
  slots : ∀ n ∈ g.nodes, g'.slots settings (f n) = (g.slots settings n).map (Slot.mapNode f)
  shape? : ∀ n ∈ g.nodes, g'.shape? (f n) = g.shape? n ∨
    g.shape? n = some .object ∧ g'.shape? (f n) = some .indexable

end Graph

/-! ### Nodes that resemble each other -/

namespace Node.Resembles

variable {n n' : Node}

theorem isObject_eq (h : n.Resembles n') : n'.isObject = n.isObject := by rw [isObject, isObject, h.flags]

theorem isReference_eq (h : n.Resembles n') : n'.isReference = n.isReference := by
  rw [isReference, isReference, h.isObject_eq, h.objectFlags]

theorem isArray_eq (h : n.Resembles n') : n'.isArray = n.isArray := by
  rw [isArray, isArray, h.isReference_eq, h.symbol]

theorem isFunctionLike_eq (h : n.Resembles n') : n'.isFunctionLike = n.isFunctionLike := by
  rw [isFunctionLike, isFunctionLike, h.isObject_eq, h.symbol]

theorem isLiteral_eq (h : n.Resembles n') : n'.isLiteral = n.isLiteral := by rw [isLiteral, isLiteral, h.flags]

theorem isDefined_eq (h : n.Resembles n') : n'.isDefined = n.isDefined := by
  rw [isDefined, isDefined, isUndefined, isUndefined, h.flags]

theorem isUnion_eq (h : n.Resembles n') : n'.isUnion = n.isUnion := by rw [isUnion, isUnion, h.flags]

theorem primitive?_eq (h : n.Resembles n') : n'.primitive? = n.primitive? := by
  rw [primitive?, primitive?, h.flags]

theorem isLiteralTrue_eq (h : n.Resembles n') : n'.isLiteralTrue = n.isLiteralTrue := by
  rw [isLiteralTrue, isLiteralTrue, h.value, h.intrinsicName]

theorem isLiteralFalse_eq (h : n.Resembles n') : n'.isLiteralFalse = n.isLiteralFalse := by
  rw [isLiteralFalse, isLiteralFalse, h.value, h.intrinsicName]

end Node.Resembles

/-! ### What the queries find -/

namespace Graph.Copies

variable {ρ : Int → Int} {g g' : Graph} {f : Node → Node} {n : Node}

section

variable (h : Copies ρ g g' f)
include h

theorem filter_isLiteral (ns : List Node) : (ns.map f).filter Node.isLiteral = (ns.filter Node.isLiteral).map f := by
  simp only [List.filter_map, Function.comp_def, (h.resembles _).isLiteral_eq]

theorem filter_isDefined (ns : List Node) : (ns.map f).filter Node.isDefined = (ns.filter Node.isDefined).map f := by
  simp only [List.filter_map, Function.comp_def, (h.resembles _).isDefined_eq]

theorem filterMap_node? {ids : List Int} (hids : ∀ id ∈ ids, id ∈ g.ids) :
    (ids.map ρ).filterMap g'.node? = (ids.filterMap g.node?).map f := by
  rw [List.filterMap_map, List.map_filterMap]
  exact List.filterMap_congr fun id hid => h.node? id (hids id hid)

theorem bind_node? {id? : Option Int} (hid : ∀ id ∈ id?, id ∈ g.ids) :
    (id?.map ρ).bind g'.node? = (id?.bind g.node?).map f := by
  cases id? with
  | none => rfl
  | some id => exact h.node? id (hid id rfl)

end

section Closed

variable (h : Copies ρ g g' f) (hg : g.Closed) (hn : n ∈ g.nodes)
include h hg hn

theorem node?_id : g'.node? (ρ n.id) = some (f n) := by
  rw [h.node? _ (id_mem_ids hn), hg.node?_eq hn]
  rfl

theorem mem_nodes : f n ∈ g'.nodes := mem_nodes_of_node? (h.node?_id hg hn)

theorem id_eq : (f n).id = ρ n.id := by
  simpa using List.find?_some (h.node?_id hg hn)

theorem constituents_eq : g'.constituents (f n) = (g.constituents n).map f := by
  rw [constituents, h.types]
  exact h.filterMap_node? fun id hid => hg.references n hn id (by simp [Node.references, hid])

theorem typeArguments_eq : g'.typeArguments (f n) = (g.typeArguments n).map f := by
  rw [Graph.typeArguments, h.typeArguments]
  exact h.filterMap_node? fun id hid => hg.references n hn id (by simp [Node.references, hid])

theorem stringIndexType?_eq : g'.stringIndexType? (f n) = (g.stringIndexType? n).map f := by
  rw [stringIndexType?, h.stringIndex]
  exact h.bind_node? fun id hid => hg.references n hn id (by simp_all [Node.references])

theorem isTuple_eq : g'.isTuple (f n) = g.isTuple n := by
  have htarget : ((f n).target.bind g'.node?).map (·.objectFlags) =
      (n.target.bind g.node?).map (·.objectFlags) := by
    rw [h.target, h.bind_node? fun id hid => hg.references n hn id (by simp_all [Node.references]),
      Option.map_map]
    exact congrArg (Option.map · _) (funext fun m => (h.resembles m).objectFlags)
  have hflags : g'.targetObjectFlags (f n) = g.targetObjectFlags n := by
    rw [targetObjectFlags, targetObjectFlags]
    generalize (f n).target.bind g'.node? = target' at htarget ⊢
    generalize n.target.bind g.node? = target at htarget ⊢
    cases target <;> cases target'
    · exact (h.resembles n).objectFlags
    · cases htarget
    · cases htarget
    · exact Option.some.inj htarget
  rw [isTuple, isTuple, hflags, (h.resembles n).isReference_eq, (h.resembles n).isArray_eq]

theorem isCallable_eq : g'.isCallable (f n) = g.isCallable n := by
  rw [isCallable, isCallable, h.constituents_eq hg hn, h.filter_isDefined, (h.resembles n).isFunctionLike_eq,
    (h.resembles n).isUnion_eq]
  simp only [List.isEmpty_map, List.all_map, Function.comp_def, (h.resembles _).isFunctionLike_eq]

theorem property?_eq {m : Member} (hm : m ∈ n.members) :
    g'.property? (m.rename ρ) = (g.property? m).map (Property.mapNodes f) := by
  have htype : m.type ∈ g.ids := by
    refine hg.references n hn _ ?_
    simp only [Node.references, List.mem_append, List.mem_map]
    exact .inl (.inl (.inl (.inr ⟨m, hm, rfl⟩)))
  have haccessor : (m.accessorType.map ρ).bind g'.node? = (m.accessorType.bind g.node?).map f := by
    refine h.bind_node? fun id hid => hg.references n hn id ?_
    simp only [Node.references, List.mem_append, List.mem_filterMap]
    exact .inl (.inl (.inr ⟨m, hm, hid⟩))
  show (g'.node? (ρ m.type)).map _ = ((g.node? m.type).map _).map _
  rw [h.node? _ htype, Option.map_map, Option.map_map]
  refine congrArg (Option.map · _) (funext fun type => ?_)
  exact congrArg (Property.mk m.name (f type) _ m.modifiers) haccessor

end Closed

theorem isHidden_eq (h : Copies ρ g g' f) (hg : g.Closed) {p : Property} (hp : p.effectiveType ∈ g.nodes)
    (settings : ResolverSettings) : g'.isHidden settings (p.mapNodes f) = g.isHidden settings p := by
  rw [isHidden, Property.effectiveType_mapNodes, h.isCallable_eq hg hp]
  rfl

/-- The copy has the members of the node, or some of them that include all that are shown. -/
theorem slots_eq (h : Copies ρ g g' f) (hg : g.Closed) (hn : n ∈ g.nodes) {settings : ResolverSettings}
    {kept : List Member} (hmembers : (f n).members = kept.map (Member.rename ρ)) (hkept : kept ⊆ n.members)
    (hshown : (kept.filterMap g.property?).filter (fun p => !g.isHidden settings p) =
      (g.properties n).filter fun p => !g.isHidden settings p) :
    g'.slots settings (f n) = (g.slots settings n).map (Slot.mapNode f) := by
  have hproperties : g'.properties (f n) = (kept.filterMap g.property?).map (Property.mapNodes f) := by
    rw [properties, hmembers, List.filterMap_map, List.map_filterMap]
    exact List.filterMap_congr fun m hm => h.property?_eq hg hn (hkept hm)
  have hnodes : ∀ p ∈ kept.filterMap g.property?, p.effectiveType ∈ g.nodes := by
    intro p hp
    obtain ⟨m, hm, hp⟩ := List.mem_filterMap.1 hp
    exact mem_nodes_of_mem_properties (n := n) (List.mem_filterMap.2 ⟨m, hkept hm, hp⟩)
  have hfilter : (kept.filterMap g.property?).filter
      ((fun p => !g'.isHidden settings p) ∘ Property.mapNodes f) =
        (kept.filterMap g.property?).filter fun p => !g.isHidden settings p :=
    List.filter_congr fun p hp => congrArg not (h.isHidden_eq hg (hnodes p hp) settings)
  rw [slots, hproperties, List.filter_map, hfilter, hshown, slots, List.map_map, List.map_map]
  refine List.map_congr_left fun p _ => ?_
  show Slot.mk p.name p.isOptional (p.mapNodes f).effectiveType = _
  rw [Property.effectiveType_mapNodes]
  rfl

end Graph.Copies

/-! ### Plans of counterparts -/

namespace Strict

open TypeSchema.Graph (Counterparts)

variable {ρ : Int → Int} {g g' : Graph} {settings : ResolverSettings} {f : Node → Node} {n : Node} {ns : List Node}

theorem map_refuse {α β : Type} (n : Node) (problem : String → Problem) (k : α → β) :
    (refuse n problem : Except Obstacle α).map k = refuse n problem := by
  unfold refuse
  cases checkText n <;> rfl

section Counterparts

variable (h : Counterparts ρ g g' settings f)
include h

theorem isBooleanPair_counterpart (types : List Node) :
    Node.isBooleanPair (types.map f) = Node.isBooleanPair types := by
  match types with
  | [] | [_] | _ :: _ :: _ :: _ => rfl
  | [a, b] =>
    simp only [List.map_cons, List.map_nil, Node.isBooleanPair, (h.resembles _).isLiteral_eq,
      (h.resembles _).isLiteralTrue_eq, (h.resembles _).isLiteralFalse_eq]

theorem refuse_counterpart {α : Type} (hn : n ∈ g.nodes) (problem : String → Problem) :
    (refuse (f n) problem : Except Obstacle α) = refuse n problem := by
  rw [refuse, refuse, h.checkText n hn, h.text n hn]

theorem literalValue_counterpart (hn : n ∈ g.nodes) : literalValue (f n) = literalValue n := by
  have hvalue : (f n).literalValue = n.literalValue := by
    rw [Node.literalValue, Node.literalValue, (h.resembles n).value, h.text n hn,
      (h.resembles n).isLiteralTrue_eq, (h.resembles n).isLiteralFalse_eq]
  rw [literalValue, literalValue, h.checkText n hn, hvalue]

theorem mapM_literalValue_counterpart (hns : ∀ n ∈ ns, n ∈ g.nodes) :
    (ns.map f).mapM literalValue = ns.mapM literalValue := by
  induction ns with
  | nil => rfl
  | cons n rest ih =>
    obtain ⟨hn, hrest⟩ := List.forall_mem_cons.1 hns
    rw [List.map_cons, List.mapM_cons, List.mapM_cons, ih hrest, literalValue_counterpart h hn]

theorem optionsPlan_counterpart (hns : ∀ n ∈ ns, n ∈ g.nodes) :
    optionsPlan (ns.map f) = (optionsPlan ns).map (Plan.mapNodes f) := by
  have hothers : (ns.map f).filter (!·.isLiteral) = (ns.filter (!·.isLiteral)).map f := by
    simp only [List.filter_map, Function.comp_def, (h.resembles _).isLiteral_eq]
  have hshown : ∀ n ∈ ns.filter Node.isLiteral, n ∈ g.nodes := fun n hn => hns n (List.mem_filter.1 hn).1
  rw [optionsPlan, optionsPlan, isBooleanPair_counterpart h, h.filter_isLiteral, hothers]
  split
  · rfl
  generalize ns.filter Node.isLiteral = literals at hshown ⊢
  generalize ns.filter (!·.isLiteral) = others
  simp only [List.any_map, List.filter_map, Function.comp_def, (h.resembles _).isLiteralTrue_eq,
    (h.resembles _).isLiteralFalse_eq]
  generalize (literals.any Node.isLiteralTrue && literals.any Node.isLiteralFalse) = boolean
  have hvalued : ∀ n ∈ (if boolean = true then literals.filter fun t => !t.isLiteralTrue && !t.isLiteralFalse
      else literals), n ∈ g.nodes := by
    intro n hn
    split at hn
    · exact hshown n (List.mem_filter.1 hn).1
    · exact hshown n hn
  rw [← apply_ite (List.map f), mapM_literalValue_counterpart h hvalued, List.isEmpty_map, List.isEmpty_map]
  generalize (if boolean = true then literals.filter _ else literals) = valued
  cases valued.mapM literalValue with
  | error obstacle => rfl
  | ok values =>
    show Except.ok (if _ then _ else _) = Except.ok (Plan.mapNodes _ (if _ then _ else _))
    rw [apply_ite (Plan.mapNodes f)]
    rfl

theorem checkShape_counterpart (hn : n ∈ g.nodes) : checkShape g' (f n) = checkShape g n := by
  have hindex : checkIndex (f n) = checkIndex n := by
    rw [checkIndex, checkIndex, h.stringIndex, h.checkMembers n hn, Option.isSome_map]
  have hfor (shape? : Option Shape) : checkFor (f n) shape? = checkFor n shape? := by
    unfold checkFor
    split
    · exact hindex
    · exact hindex
    · rfl
  rw [checkShape, checkShape, hfor]
  rcases h.shape? n hn with hs | ⟨hs, hs'⟩
  · rw [hs]
  · rw [hs, hs']
    rfl

theorem forM_checkMembers_counterpart (hns : ∀ n ∈ ns, n ∈ g.nodes) :
    forM (ns.map f) checkMembers = forM ns checkMembers := by
  induction ns with
  | nil => rfl
  | cons n rest ih =>
    obtain ⟨hn, hrest⟩ := List.forall_mem_cons.1 hns
    rw [List.map_cons, List.forM_cons, List.forM_cons, h.checkMembers n hn, ih hrest]

omit h in
theorem shape?_of_shapeOf (hg : g.Closed) (hn : n ∈ g.nodes) {shape : Shape} (hs : shapeOf g n = .ok shape) :
    checkShape g n = .ok () ∧ g.shape? n = some shape := by
  rw [shapeOf, shape?_eq hg hn, ask_check_bind] at hs
  rcases hcheck : checkShape g n with breach | ⟨⟩
  · rw [hcheck] at hs
    cases hs
  rw [hcheck] at hs
  rcases hshape : g.shape? n with _ | shape'
  · rw [hshape] at hs
    change refuse n .unhandled = _ at hs
    unfold refuse at hs
    cases hc : checkText n <;> rw [hc] at hs <;> cases hs
  · rw [hshape] at hs
    cases hs
    exact ⟨rfl, rfl⟩

section Closed

variable (hg : g.Closed)
include hg

theorem shapeOf_counterpart (hn : n ∈ g.nodes) :
    shapeOf g' (f n) = shapeOf g n ∨ shapeOf g n = .ok .object ∧ shapeOf g' (f n) = .ok .indexable := by
  rw [shapeOf, shapeOf, shape?_eq hg hn, shape?_eq h.closed (h.mem_nodes hg hn), ask_check_bind, ask_check_bind,
    checkShape_counterpart h hn]
  cases checkShape g n with
  | error breach => exact .inl rfl
  | ok =>
    rcases h.shape? n hn with hs | ⟨hs, hs'⟩
    · rw [hs]
      refine .inl ?_
      cases g.shape? n with
      | some shape => rfl
      | none => exact refuse_counterpart h hn .unhandled
    · rw [hs, hs']
      exact .inr ⟨rfl, rfl⟩

theorem areMergeable_counterpart (hns : ∀ n ∈ ns, n ∈ g.nodes) :
    areMergeable g' (ns.map f) = areMergeable g ns := by
  induction ns with
  | nil => rfl
  | cons n rest ih =>
    obtain ⟨hn, hrest⟩ := List.forall_mem_cons.1 hns
    rw [List.map_cons, areMergeable, areMergeable, ih hrest]
    rcases shapeOf_counterpart h hg hn with hs | ⟨hs, hs'⟩
    · rw [hs]
    · rw [hs, hs']
      rfl

variable (hn : n ∈ g.nodes)
include hn

theorem constituents_counterpart : constituents g' (f n) = .ok ((g.constituents n).map f) := by
  rw [constituents_eq h.closed (h.mem_nodes hg hn), h.constituents_eq hg hn]

theorem typeArguments_counterpart : typeArguments g' (f n) = .ok ((g.typeArguments n).map f) := by
  rw [typeArguments_eq h.closed (h.mem_nodes hg hn), h.typeArguments_eq hg hn]

theorem stringIndexType?_counterpart : stringIndexType? g' (f n) = .ok ((g.stringIndexType? n).map f) := by
  rw [stringIndexType?_eq h.closed (h.mem_nodes hg hn), h.stringIndexType?_eq hg hn]

theorem slots_counterpart :
    slots g' settings (f n) = (checkMembers n >>= fun _ => .ok ((g.slots settings n).map (Slot.mapNode f))) := by
  rw [slots_eq h.closed (h.mem_nodes hg hn), h.checkMembers n hn, h.slots n hn]

theorem enumPlan_counterpart : enumPlan g' (f n) = (enumPlan g n).map (Plan.mapNodes f) := by
  have hmembers : ∀ m ∈ g.constituents n, m ∈ g.nodes := fun _ => Graph.mem_nodes_of_mem_constituents
  have hfind : ((g.constituents n).map f).find? (!·.isLiteral) =
      ((g.constituents n).find? (!·.isLiteral)).map f := by
    simp only [List.find?_map, Function.comp_def, (h.resembles _).isLiteral_eq]
  rw [enumPlan, enumPlan, constituents_counterpart h hg hn, constituents_eq hg hn, ask_ok_bind, ask_ok_bind, hfind,
    mapM_literalValue_counterpart h hmembers]
  cases hmember : (g.constituents n).find? (!·.isLiteral) with
  | some member =>
    have hmem := hmembers member (List.mem_of_find?_eq_some hmember)
    exact (refuse_counterpart h hmem _).trans (map_refuse member .memberNotLiteral _).symm
  | none => cases (g.constituents n).mapM literalValue <;> rfl

theorem unionPlan_counterpart : unionPlan g' (f n) = (unionPlan g n).map (Plan.mapNodes f) := by
  have htypes : ∀ m ∈ (g.constituents n).filter Node.isDefined, m ∈ g.nodes :=
    fun m hm => Graph.mem_nodes_of_mem_constituents (List.mem_filter.1 hm).1
  rw [unionPlan, unionPlan, constituents_counterpart h hg hn, constituents_eq hg hn, ask_ok_bind, ask_ok_bind,
    h.filter_isDefined]
  rcases hc : (g.constituents n).filter Node.isDefined with _ | ⟨a, _ | ⟨b, rest⟩⟩
  · rfl
  · rfl
  rw [hc] at htypes
  exact optionsPlan_counterpart h htypes

theorem objectPlan_counterpart :
    objectPlan g' settings (f n) = (objectPlan g settings n).map (Plan.mapNodes f) := by
  rw [objectPlan, objectPlan, slots_counterpart h hg hn, stringIndexType?_counterpart h hg hn, slots_eq hg hn,
    stringIndexType?_eq hg hn]
  cases checkMembers n <;> rfl

theorem intersectionPlan_counterpart :
    intersectionPlan g' settings (f n) = (intersectionPlan g settings n).map (Plan.mapNodes f) := by
  have hparts : ∀ m ∈ g.constituents n, m ∈ g.nodes := fun _ => Graph.mem_nodes_of_mem_constituents
  have hparts' : ∀ m ∈ (g.constituents n).map f, m ∈ g'.nodes := by
    intro m hm
    obtain ⟨part, hpart, rfl⟩ := List.mem_map.1 hm
    exact h.mem_nodes hg (hparts part hpart)
  have hslots : ((g.constituents n).map f).map (g'.slots settings) =
      (g.constituents n).map fun m => (g.slots settings m).map (Slot.mapNode f) := by
    rw [List.map_map]
    exact List.map_congr_left fun m hm => h.slots m (hparts m hm)
  have hindexes : ((g.constituents n).map f).map g'.stringIndexType? =
      (g.constituents n).map fun m => (g.stringIndexType? m).map f := by
    rw [List.map_map]
    exact List.map_congr_left fun m hm => h.stringIndexType?_eq hg (hparts m hm)
  rw [intersectionPlan, intersectionPlan, constituents_counterpart h hg hn, constituents_eq hg hn, ask_ok_bind,
    ask_ok_bind, areMergeable_counterpart h hg hparts, List.isEmpty_map]
  cases areMergeable g (g.constituents n) with
  | error obstacle => rfl
  | ok mergeable =>
    show (if (!(g.constituents n).isEmpty && mergeable) = true then _ else _) =
      Except.map _ (if (!(g.constituents n).isEmpty && mergeable) = true then _ else _)
    rw [mapM_slots_eq h.closed hparts', mapM_slots_eq hg hparts, mapM_stringIndexType?_eq h.closed hparts',
      mapM_stringIndexType?_eq hg hparts, hslots, hindexes, forM_checkMembers_counterpart h hparts]
    split
    · cases forM (g.constituents n) checkMembers with
      | error => rfl
      | ok =>
        show Except.ok (Plan.merged _ _) = Except.ok (Plan.merged _ _)
        rw [List.map_flatten, List.map_map, List.filterMap_map, List.filterMap_map, List.map_filterMap]
        rfl
    · rfl

theorem planOf_counterpart (shape : Shape) :
    planOf g' settings (f n) shape = (planOf g settings n shape).map (Plan.mapNodes f) := by
  cases shape with
  | enum => exact enumPlan_counterpart h hg hn
  | literal =>
    rw [planOf, planOf, literalValue_counterpart h hn]
    cases literalValue n <;> rfl
  | bigIntLiteral =>
    have hvalue : checkValue (f n) = checkValue n := by rw [checkValue, checkValue, (h.resembles n).value]
    have htext : (f n).valueText = n.valueText := by
      rw [Node.valueText, Node.valueText, (h.resembles n).value]
    rw [planOf, planOf, hvalue, htext]
    cases checkValue n <;> rfl
  | primitive =>
    rw [planOf, planOf, (h.resembles n).primitive?_eq, h.checkText n hn, h.text n hn]
    cases n.primitive? with
    | none => cases checkText n <;> rfl
    | some p => cases hp : Schema.ofPrimitive? p <;> simp only [hp] <;> rfl
  | generic =>
    rw [planOf, planOf, h.checkText n hn, h.text n hn]
    cases checkText n <;> rfl
  | union => exact unionPlan_counterpart h hg hn
  | intersection => exact intersectionPlan_counterpart h hg hn
  | array =>
    rw [planOf, planOf, typeArguments_eq hg hn, typeArguments_counterpart h hg hn]
    show Except.ok (Plan.array _) = Except.ok (Plan.array _)
    rw [List.head?_map]
  | tuple =>
    rw [planOf, planOf, typeArguments_eq hg hn, typeArguments_counterpart h hg hn]
    rfl
  | function => exact (refuse_counterpart h hn _).trans (map_refuse n .function _).symm
  | date =>
    rw [planOf, planOf]
    split
    · rfl
    · exact objectPlan_counterpart h hg hn
  | indexable =>
    rw [planOf, planOf, stringIndexType?_counterpart h hg hn, stringIndexType?_eq hg hn, ask_ok_bind, ask_ok_bind]
    cases g.stringIndexType? n <;> rfl
  | object => exact objectPlan_counterpart h hg hn

/-- The plan is that of the node over counterparts, or the shape has changed. -/
theorem plan_counterpart :
    plan g' settings (f n) = (plan g settings n).map (Plan.mapNodes f) ∨
      shapeOf g n = .ok .object ∧ shapeOf g' (f n) = .ok .indexable := by
  refine (shapeOf_counterpart h hg hn).imp_left fun hs => ?_
  rw [plan, plan, hs]
  cases shapeOf g n with
  | error obstacle => rfl
  | ok shape => exact planOf_counterpart h hg hn shape

end Closed

end Counterparts

end Strict

end TypeSchema
