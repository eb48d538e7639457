import Mathlib.Tactic.Set
import TypeSchema.Proofs.Followed

/-!
# The rule of every shape

`Graph.Builds` says for each shape which fragment a node gets from the fragments of its children,
in terms of the fragment builders. `obeys_of_plan` shows that plans build by these rules, and
`Builds.children_eq` that the children are the nodes that are followed.
-/

namespace TypeSchema

namespace Fragment

def conjoin : List Value → Value
  | [fragment] => fragment
  | fragments => allOf fragments

/-- The object that several objects are merged into: entries of one name become one, and the string
indexes must hold together. -/
def merged (entries : List (Entry Value)) (indexes : List Value) : Value :=
  ofEntries (Entry.merge conjoin entries) (if indexes.isEmpty then none else some (conjoin indexes))

end Fragment

namespace Graph

def hasBoolean (g : Graph) (n : Node) : Bool :=
  ((g.definedConstituents n).filter Node.isLiteral).any Node.isLiteralTrue &&
    ((g.definedConstituents n).filter Node.isLiteral).any Node.isLiteralFalse

/-- The literals of a union that its enum lists. -/
def shownLiterals (g : Graph) (n : Node) : List Node :=
  let literals := (g.definedConstituents n).filter Node.isLiteral
  if g.hasBoolean n then literals.filter fun t => !t.isLiteralTrue && !t.isLiteralFalse else literals

/-- `Values nodes values`: the literals have these values, one each. -/
def Values : List Node → List LiteralValue → Prop :=
  List.Forall₂ fun c value => c.literalValue = .ok value

/-- `g.Builds settings n children parts fragment`: `n` is made of `children`, and the rule of its
shape makes `fragment` of `parts`, the fragments of the children. -/
inductive Builds (g : Graph) (settings : ResolverSettings) (n : Node) :
    List Node → List Value → Value → Prop
  | enum {values} : g.shape? n = some .enum → (∀ c ∈ g.constituents n, c.isLiteral) →
    Values (g.constituents n) values →
    Builds g settings n [] [] (Fragment.enum (values.map LiteralValue.toValue))
  | literal {value} : g.shape? n = some .literal → n.literalValue = .ok value →
    Builds g settings n [] [] (Fragment.enum [value.toValue])
  | primitive {p fragment} : g.shape? n = some .primitive → n.primitive? = some p →
    Fragment.primitive? p = some fragment → Builds g settings n [] [] fragment
  | generic : g.shape? n = some .generic →
    Builds g settings n [] [] (Fragment.generic n.displayText)
  | unionNone : g.shape? n = some .union → g.definedConstituents n = [] →
    Builds g settings n [] [] (Fragment.typed "undefined")
  | unionOne {c part} : g.shape? n = some .union → g.definedConstituents n = [c] →
    Builds g settings n [c] [part] part
  | unionBoolean : g.shape? n = some .union → Node.isBooleanPair (g.definedConstituents n) →
    Builds g settings n [] [] (Fragment.typed "boolean")
  | unionEnum {values} : g.shape? n = some .union → 2 ≤ (g.definedConstituents n).length →
    (g.definedConstituents n).all Node.isLiteral → ¬g.hasBoolean n →
    Values (g.shownLiterals n) values →
    Builds g settings n [] [] (Fragment.enum (values.map LiteralValue.toValue))
  | unionAnyOf {values parts} : g.shape? n = some .union → 2 ≤ (g.definedConstituents n).length →
    ¬Node.isBooleanPair (g.definedConstituents n) →
    (g.hasBoolean n ∨ ¬(g.definedConstituents n).all Node.isLiteral) →
    Values (g.shownLiterals n) values →
    Builds g settings n ((g.definedConstituents n).filter (!·.isLiteral)) parts
      (Fragment.anyOf ((if g.hasBoolean n then [Fragment.typed "boolean"] else []) ++
        (if values.isEmpty then [] else [Fragment.enum (values.map LiteralValue.toValue)]) ++ parts))
  | allOf {parts} : g.shape? n = some .intersection → ¬g.merges n →
    Builds g settings n (g.constituents n) parts (Fragment.allOf parts)
  | merged {fields indexes} : g.shape? n = some .intersection → g.merges n →
    fields.length = ((g.constituents n).flatMap (g.slots settings)).length →
    Builds g settings n
      ((g.constituents n).flatMap (g.visibleTypes settings) ++
        (g.constituents n).filterMap g.stringIndexType?)
      (fields ++ indexes)
      (Fragment.merged (Plan.slotEntries ((g.constituents n).flatMap (g.slots settings)) fields) indexes)
  | arrayAny : g.shape? n = some .array → g.typeArguments n = [] →
    Builds g settings n [] [] (Fragment.array Fragment.any)
  | array {c rest part} : g.shape? n = some .array → g.typeArguments n = c :: rest →
    Builds g settings n [c] [part] (Fragment.array part)
  | tuple {parts} : g.shape? n = some .tuple →
    Builds g settings n (g.typeArguments n) parts (Fragment.tuple parts)
  | date : g.shape? n = some .date → settings.datesAsStrings →
    Builds g settings n [] [] Fragment.date
  | indexable {c part} : g.shape? n = some .indexable → g.stringIndexType? n = some c →
    Builds g settings n [c] [part] (Fragment.indexable part)
  /-- Also a date that is not written as text. -/
  | object {fields index} :
    g.shape? n = some .object ∨ (g.shape? n = some .date ∧ ¬settings.datesAsStrings) →
    fields.length = (g.slots settings n).length →
    Builds g settings n (g.objectFollowed settings n) (fields ++ Option.toList index)
      (Fragment.ofEntries (Plan.slotEntries (g.slots settings n) fields) index)

variable {g : Graph} {settings : ResolverSettings} {n : Node} {children : List Node}
  {parts : List Value} {fragment : Value}

theorem unionFollowed_eq_filter (h : 2 ≤ (g.definedConstituents n).length) :
    g.unionFollowed n = (g.definedConstituents n).filter (!·.isLiteral) := by
  unfold unionFollowed
  split
  · next hc => rw [hc] at h; simp at h
  · rfl

theorem filter_not_isLiteral_of_isBooleanPair {cs : List Node} (h : Node.isBooleanPair cs) :
    cs.filter (!·.isLiteral) = [] ∧ 2 ≤ cs.length := by
  unfold Node.isBooleanPair at h
  split at h
  · next a b =>
    simp only [Bool.and_eq_true] at h
    simp [h.1.1, h.1.2]
  · cases h

/-- The children of a rule are the nodes that are followed. -/
theorem Builds.children_eq (h : g.Builds settings n children parts fragment) :
    children = g.followed settings n := by
  cases h with
  | enum hs | literal hs | primitive hs | generic hs => simp [followed, hs]
  | unionNone hs hc => simp [followed, hs, unionFollowed, hc]
  | unionOne hs hc => simp [followed, hs, unionFollowed, hc]
  | unionBoolean hs hc =>
    obtain ⟨hnil, hlen⟩ := filter_not_isLiteral_of_isBooleanPair hc
    simp [followed, hs, unionFollowed_eq_filter hlen, hnil]
  | unionEnum hs hlen hall =>
    have hnil : (g.definedConstituents n).filter (!·.isLiteral) = [] :=
      List.filter_eq_nil_iff.2 fun c hc => by simpa using List.all_eq_true.1 hall c hc
    simp [followed, hs, unionFollowed_eq_filter hlen, hnil]
  | unionAnyOf hs hlen => simp [followed, hs, unionFollowed_eq_filter hlen]
  | allOf hs hm => simp [followed, hs, intersectionFollowed, hm]
  | merged hs hm => simp [followed, hs, intersectionFollowed, hm]
  | arrayAny hs hc => simp [followed, hs, hc]
  | array hs hc => simp [followed, hs, hc]
  | tuple hs => simp [followed, hs]
  | date hs hd => simp [followed, hs, hd]
  | indexable hs hc => simp [followed, hs, hc]
  | object hs =>
    rcases hs with hs | ⟨hs, hd⟩
    · simp [followed, hs]
    · simp [followed, hs, hd]

end Graph

/-! ### Rendering goes through the builders -/

namespace Table

variable {κ α β : Type} [DecidableEq κ]

theorem map_put (f : α → β) (key : κ) (value : α) (table : Table κ α) :
    (table.put key value).map (fun entry => (entry.1, f entry.2)) =
      put key (f value) (table.map fun entry => (entry.1, f entry.2)) := by
  induction table with
  | nil => rfl
  | cons entry rest ih =>
    by_cases hk : entry.1 = key
    · simp [put, hk]
    · simp [put, hk, ih]

theorem map_foldl_put (f : α → β) (entries : List (κ × α)) (table : Table κ α) :
    (entries.foldl (fun table entry => put entry.1 entry.2 table) table).map
        (fun entry => (entry.1, f entry.2)) =
      (entries.map fun entry => (entry.1, f entry.2)).foldl
        (fun table entry => put entry.1 entry.2 table) (table.map fun entry => (entry.1, f entry.2)) := by
  induction entries generalizing table with
  | nil => rfl
  | cons entry rest ih => simp only [List.foldl_cons, List.map_cons, ih, map_put]

theorem map_ofEntries (f : α → β) (entries : List (κ × α)) :
    (ofEntries entries).map (fun entry => (entry.1, f entry.2)) =
      ofEntries (entries.map fun entry => (entry.1, f entry.2)) :=
  map_foldl_put f entries []

end Table

namespace Entry

variable {α β : Type}

def map (f : α → β) (e : Entry α) : Entry β := ⟨e.name, e.optional, f e.schema⟩

theorem properties_map (f : α → β) (entries : List (Entry α)) :
    properties (entries.map (map f)) = (properties entries).map fun p => (p.1, f p.2) := by
  rw [properties, properties, Table.map_ofEntries, List.map_map, List.map_map]
  rfl

theorem required_map (f : α → β) (entries : List (Entry α)) :
    required (entries.map (map f)) = required entries := by
  simp only [required, List.filter_map, List.map_map]
  rfl

theorem merge_map {f : α → β} {conjoin : List α → α} {conjoin' : List β → β}
    (hc : ∀ xs, f (conjoin xs) = conjoin' (xs.map f)) (entries : List (Entry α)) :
    merge conjoin' (entries.map (map f)) = (merge conjoin entries).map (map f) := by
  have hnames : (entries.map (map f)).map (·.name) = entries.map (·.name) := by
    rw [List.map_map]; rfl
  have hfound : ∀ name, (entries.map (map f)).filter (·.name = name) =
      (entries.filter (·.name = name)).map (map f) := fun name => by rw [List.filter_map]; rfl
  rw [merge, hnames, merge, List.map_map]
  apply List.map_congr_left
  intro name _
  simp only [Function.comp, map, hc, hfound, List.map_map, List.all_map]
  rfl

end Entry

theorem Plan.slotEntries_map {α β : Type} (f : α → β) (slots : List Slot) (schemas : List α) :
    (slotEntries slots schemas).map (Entry.map f) = slotEntries slots (schemas.map f) := by
  simp only [slotEntries, List.map_zipWith, List.zipWith_map_right]
  rfl

namespace Schema

theorem render_conjoin (schemas : List Schema) :
    (conjoin schemas).render = Fragment.conjoin (schemas.map render) := by
  match schemas with
  | [] | _ :: _ :: _ => simp [conjoin, Fragment.conjoin, render, renderAll_eq_map]
  | [_] => rfl

theorem render_ofEntries (entries : List (Entry Schema)) (index : Option Schema) :
    (ofEntries entries index).render =
      Fragment.ofEntries (entries.map (Entry.map render)) (index.map render) := by
  simp only [ofEntries, render, Fragment.ofEntries, renderProperties_eq_map, renderIndex_eq_map,
    Entry.properties_map, Entry.required_map]

theorem primitive?_eq_render (p : Primitive) :
    Fragment.primitive? p = (ofPrimitive? p).map render := by
  cases p <;> rfl

end Schema

/-! ### Plans build by the rules -/

namespace Graph

variable {g : Graph} {settings : ResolverSettings} {n : Node} {p : Plan} {schemas : List Schema}

/-- The plan makes its schema of the schemas of its edges by the rule of the node. -/
def Obeys (g : Graph) (settings : ResolverSettings) (n : Node) (p : Plan) : Prop :=
  ∀ schemas : List Schema, schemas.length = p.edges.length →
    g.Builds settings n (p.edges.map (·.target)) (schemas.map Schema.render)
      (p.assemble schemas).render

theorem obeys_leaf {schema : Schema} (h : g.Builds settings n [] [] schema.render) :
    g.Obeys settings n (.leaf schema) := by
  intro schemas hlen
  obtain rfl := List.length_eq_zero_iff.1 hlen
  exact h

theorem obeys_of_enumPlan (hs : g.shape? n = some .enum) (h : g.enumPlan n = .ok p) :
    g.Obeys settings n p := by
  simp only [enumPlan] at h
  split at h
  · cases h
  · next hfind =>
    obtain ⟨values, hvalues, rfl⟩ := map_eq_ok h
    refine obeys_leaf (.enum hs (fun c hc => ?_) (mapM_eq_ok_iff.1 hvalues))
    simpa using List.find?_eq_none.1 hfind c hc

theorem unionPlan_of_nil (hc : g.definedConstituents n = []) :
    g.unionPlan n = .ok (.leaf (.typed "undefined")) := by
  simp only [unionPlan, definedConstituents] at hc ⊢
  rw [hc]

theorem unionPlan_of_singleton {c : Node} (hc : g.definedConstituents n = [c]) :
    g.unionPlan n = .ok (.forward c) := by
  simp only [unionPlan, definedConstituents] at hc ⊢
  rw [hc]

theorem unionPlan_eq (hlen : 2 ≤ (g.definedConstituents n).length) :
    g.unionPlan n =
      if Node.isBooleanPair (g.definedConstituents n) then .ok (.leaf (.typed "boolean"))
      else ((g.shownLiterals n).mapM Node.literalValue).map fun values =>
        if ((g.definedConstituents n).filter (!·.isLiteral)).isEmpty && !g.hasBoolean n then
          .leaf (.enum values)
        else
          .anyOf ((if g.hasBoolean n then [.typed "boolean"] else []) ++
            (if (g.shownLiterals n).isEmpty then [] else [.enum values]))
            ((g.definedConstituents n).filter (!·.isLiteral)) := by
  unfold unionPlan
  dsimp only
  split
  · next hc => rw [definedConstituents, hc] at hlen; simp at hlen
  · next hc => rw [definedConstituents, hc] at hlen; simp at hlen
  · rfl

theorem obeys_of_unionPlan (hs : g.shape? n = some .union) (h : g.unionPlan n = .ok p) :
    g.Obeys settings n p := by
  rcases hc : g.definedConstituents n with _ | ⟨c, _ | ⟨d, rest⟩⟩
  · cases (unionPlan_of_nil hc).symm.trans h
    exact obeys_leaf (.unionNone hs hc)
  · cases (unionPlan_of_singleton hc).symm.trans h
    intro schemas hlen
    obtain ⟨schema, rfl⟩ := List.length_eq_one_iff.1 hlen
    exact .unionOne hs hc
  · have hlen : 2 ≤ (g.definedConstituents n).length := by simp [hc]
    rw [unionPlan_eq hlen] at h
    split at h
    · next hb => cases h; exact obeys_leaf (.unionBoolean hs hb)
    · next hb =>
      obtain ⟨values, hvalues, rfl⟩ := map_eq_ok h
      have hvalues := mapM_eq_ok_iff.1 hvalues
      have hall : ((g.definedConstituents n).filter (!·.isLiteral)).isEmpty =
          (g.definedConstituents n).all Node.isLiteral := by
        rw [Bool.eq_iff_iff, List.isEmpty_iff, List.filter_eq_nil_iff, List.all_eq_true]
        simp
      split
      · next he =>
        simp only [Bool.and_eq_true, hall, Bool.not_eq_true'] at he
        exact obeys_leaf (.unionEnum hs hlen he.1 (by simp [he.2]) hvalues)
      · next he =>
        intro schemas _
        have hempty : (g.shownLiterals n).isEmpty = values.isEmpty := by
          generalize g.shownLiterals n = shown at hvalues
          cases hvalues <;> rfl
        have hany : g.hasBoolean n ∨ ¬(g.definedConstituents n).all Node.isLiteral := by
          simp only [Bool.and_eq_true, hall, not_and, Bool.not_eq_true', Bool.not_eq_false] at he
          by_cases hlit : (g.definedConstituents n).all Node.isLiteral
          · exact .inl (he hlit)
          · exact .inr hlit
        have htargets : (Plan.anyOf ((if g.hasBoolean n then [Schema.typed "boolean"] else []) ++
            if (g.shownLiterals n).isEmpty then [] else [Schema.enum values])
            ((g.definedConstituents n).filter (!·.isLiteral))).edges.map (·.target) =
              (g.definedConstituents n).filter (!·.isLiteral) := by
          simp [Plan.edges, Function.comp_def]
        rw [htargets, hempty]
        simp only [Plan.assemble, Schema.render, Schema.renderAll_eq_map, List.map_append]
        rw [apply_ite (List.map Schema.render), apply_ite (List.map Schema.render)]
        exact .unionAnyOf hs hlen hb hany hvalues

theorem exists_append_of_length_eq {α : Type} {xs : List α} {k l : Nat} (h : xs.length = k + l) :
    ∃ ys zs, xs = ys ++ zs ∧ ys.length = k ∧ zs.length = l :=
  ⟨xs.take k, xs.drop k, (List.take_append_drop k xs).symm, by simp [h], by simp [h]⟩

theorem slotEntries_append {α : Type} {slots : List Slot} {ys : List α} (zs : List α)
    (h : ys.length = slots.length) : Plan.slotEntries slots (ys ++ zs) = Plan.slotEntries slots ys := by
  have happend : Plan.slotEntries (slots ++ []) (ys ++ zs) =
      Plan.slotEntries slots ys ++ Plan.slotEntries [] zs := List.zipWith_append h.symm
  simpa [Plan.slotEntries] using happend

theorem obeys_of_intersectionPlan (hs : g.shape? n = some .intersection)
    (h : g.intersectionPlan settings n = .ok p) : g.Obeys settings n p := by
  simp only [intersectionPlan, bind, Except.bind] at h
  split at h
  · cases h
  · next b hb =>
    have hb := areMergeable_eq_ok hb
    subst hb
    split at h
    · next hm =>
      cases h
      intro schemas hlen
      set slots := (g.constituents n).flatMap (g.slots settings) with hslots
      set indexes := (g.constituents n).filterMap g.stringIndexType? with hindexes
      have htargets : (Plan.merged slots indexes).edges.map (·.target) =
          (g.constituents n).flatMap (g.visibleTypes settings) ++ indexes := by
        simp [Plan.edges, Plan.slotEdges, Function.comp_def, hslots, List.map_flatMap]
        rfl
      simp only [Plan.edges, Plan.slotEdges, List.length_append, List.length_map] at hlen
      obtain ⟨fields, rest, rfl, hfields, hrest⟩ := exists_append_of_length_eq hlen
      have hrender : ((Plan.merged slots indexes).assemble (fields ++ rest)).render =
          Fragment.merged (Plan.slotEntries slots (fields.map Schema.render))
            (rest.map Schema.render) := by
        simp only [Plan.assemble, Schema.render_ofEntries, slotEntries_append _ hfields,
          Fragment.merged, ← Entry.merge_map Schema.render_conjoin, Plan.slotEntries_map,
          ← hfields, List.drop_left]
        cases rest with
        | nil => rfl
        | cons schema rest => simp [Schema.render_conjoin]
      rw [htargets, hrender, List.map_append]
      exact .merged hs hm (by rw [List.length_map, hfields])
    · next hm =>
      cases h
      intro schemas _
      have htargets : (Plan.allOf (g.constituents n)).edges.map (·.target) = g.constituents n := by
        simp [Plan.edges, Function.comp_def]
      rw [htargets]
      simp only [Plan.assemble, Schema.render, Schema.renderAll_eq_map]
      exact .allOf hs hm

theorem obeys_objectPlan
    (hs : g.shape? n = some .object ∨ (g.shape? n = some .date ∧ ¬settings.datesAsStrings)) :
    g.Obeys settings n (g.objectPlan settings n) := by
  intro schemas hlen
  have htargets : (g.objectPlan settings n).edges.map (·.target) = g.objectFollowed settings n := by
    simp [objectPlan, Plan.edges, Plan.slotEdges, Function.comp_def, objectFollowed, visibleTypes]
  simp only [objectPlan, Plan.edges, Plan.slotEdges, List.length_append, List.length_map] at hlen
  obtain ⟨fields, rest, rfl, hfields, hrest⟩ := exists_append_of_length_eq hlen
  obtain ⟨index, rfl⟩ : ∃ index, rest = Option.toList index := by
    have hle : rest.length ≤ 1 := hrest ▸ Option.length_toList_le
    match rest, hle with
    | [], _ => exact ⟨none, rfl⟩
    | [schema], _ => exact ⟨some schema, rfl⟩
  have hrender : ((g.objectPlan settings n).assemble (fields ++ index.toList)).render =
      Fragment.ofEntries (Plan.slotEntries (g.slots settings n) (fields.map Schema.render))
        (index.map Schema.render) := by
    have hhead : index.toList.head? = index := by cases index <;> rfl
    simp only [objectPlan, Plan.assemble, Schema.render_ofEntries, slotEntries_append _ hfields,
      Plan.slotEntries_map, ← hfields, List.drop_left, hhead]
  have hindex : index.toList.map Schema.render = (index.map Schema.render).toList := by
    cases index <;> rfl
  rw [htargets, hrender, List.map_append, hindex]
  exact .object hs (by simp [hfields])

theorem plan_of_shape? {shape : Shape} (hs : g.shape? n = some shape) :
    g.plan settings n = g.planOf settings n shape := by
  rw [plan, shapeOf, hs]
  rfl

/-- Whatever plan a node has, it builds by the rule of the node's shape. -/
theorem obeys_of_plan (h : g.plan settings n = .ok p) : g.Obeys settings n p := by
  rcases hs : g.shape? n with _ | shape
  · simp only [plan, shapeOf, hs] at h
    cases h
  rw [plan_of_shape? hs] at h
  cases shape with
  | enum => exact obeys_of_enumPlan hs h
  | literal =>
    obtain ⟨value, hvalue, rfl⟩ := map_eq_ok h
    exact obeys_leaf (.literal hs hvalue)
  | bigIntLiteral => cases h
  | primitive =>
    simp only [planOf] at h
    split at h
    · cases h
    · next prim hprim =>
      split at h
      · next schema hschema =>
        cases h
        exact obeys_leaf (.primitive hs hprim (by rw [Schema.primitive?_eq_render, hschema]; rfl))
      · cases h
  | generic => cases h; exact obeys_leaf (.generic hs)
  | union => exact obeys_of_unionPlan hs h
  | intersection => exact obeys_of_intersectionPlan hs h
  | array =>
    cases h
    intro schemas hlen
    rcases hc : g.typeArguments n with _ | ⟨c, rest⟩
    · rw [hc] at hlen
      obtain rfl := List.length_eq_zero_iff.1 hlen
      exact .arrayAny hs hc
    · rw [hc] at hlen
      obtain ⟨schema, rfl⟩ := List.length_eq_one_iff.1 hlen
      exact .array hs hc
  | tuple =>
    cases h
    intro schemas _
    have htargets : (Plan.tuple (g.typeArguments n)).edges.map (·.target) = g.typeArguments n := by
      simp only [Plan.edges, List.map_map]
      exact List.zipIdx_map_fst 0 _
    rw [htargets]
    simp only [Plan.assemble, Schema.render, Schema.renderAll_eq_map]
    exact .tuple hs
  | function => cases h
  | date =>
    cases h
    split
    · next hd => exact obeys_leaf (.date hs hd)
    · next hd => exact obeys_objectPlan (.inr ⟨hs, hd⟩)
  | indexable =>
    simp only [planOf] at h
    split at h
    · next c hc =>
      cases h
      intro schemas hlen
      obtain ⟨schema, rfl⟩ := List.length_eq_one_iff.1 hlen
      exact .indexable hs hc
    · cases h
  | object => cases h; exact obeys_objectPlan (.inl hs)

/-- The edges of a plan lead to the nodes that are followed, in their order. -/
theorem targets_of_plan (h : g.plan settings n = .ok p) :
    p.edges.map (·.target) = g.followed settings n :=
  (obeys_of_plan h (p.edges.map fun _ => .any) (by simp)).children_eq

theorem follows_of_mem_edges (h : g.plan settings n = .ok p) :
    ∀ e ∈ p.edges, g.Follows settings n e.target := by
  intro e he
  show e.target ∈ g.followed settings n
  exact targets_of_plan h ▸ List.mem_map_of_mem he

end Graph

end TypeSchema
