import TypeSchema.Proofs.Account
import TypeSchema.Proofs.Counterparts
import TypeSchema.Proofs.Room

/-!
# Hidden members

`Graph.strip` takes every hidden member from every node. What is left has the same plans, but for an
object that has only an index left: it is an indexable then, which has the same fragment up to the
order of keys. So the stripped graph mirrors the graph, and passes over both end alike, if no hidden member
breaks the pass before it is passed over: `Strict.pass_strip`. One with a flag word that cannot be made
does: `Strict.vault_breaks`. An indexable takes less of the stack than an object, so the stacks of the two
passes are only asked to have room for every node.
-/

namespace TypeSchema

/-! ### Graphs without hidden members -/

namespace Graph

def stripNode (g : Graph) (settings : ResolverSettings) (n : Node) : Node :=
  { n with members := n.members.filter fun m => !(g.property? m).any (g.isHidden settings) }

def strip (g : Graph) (settings : ResolverSettings) : Graph :=
  { g with nodes := g.nodes.map (g.stripNode settings) }

/-- The flag words of all hidden members can be made. They are made before a member is passed over. -/
def FoldsHidden (g : Graph) (settings : ResolverSettings) : Prop :=
  ∀ n ∈ g.nodes, ∀ m ∈ n.members, (g.property? m).any (g.isHidden settings) → Strict.checkFlags m = .ok ()

end Graph

namespace Plan

section Similar

variable {schemas schemas' : List Schema}

theorem similar_headD (h : List.Forall₂ Schema.Similar schemas schemas') :
    (schemas.headD .any).Similar (schemas'.headD .any) := by
  cases h with
  | nil => exact .refl _
  | cons hs _ => exact hs

theorem similar_slotEntries (f : Node → Node) (slots : List Slot)
    (h : List.Forall₂ Schema.Similar schemas schemas') :
    List.Forall₂ (Entry.Similar Schema.Similar) (slotEntries slots schemas)
      (slotEntries (slots.map (Slot.mapNode f)) schemas') := by
  induction slots generalizing schemas schemas' with
  | nil => exact .nil
  | cons slot slots ih =>
    cases h with
    | nil => exact .nil
    | cons hs hrest => exact .cons ⟨rfl, rfl, hs⟩ (ih hrest)

theorem similar_assemble (f : Node → Node) (p : Plan) (h : List.Forall₂ Schema.Similar schemas schemas') :
    (p.assemble schemas).Similar ((p.mapNodes f).assemble schemas') := by
  cases p with
  | leaf => exact .refl _
  | forward => exact similar_headD h
  | anyOf fixed options =>
    exact Schema.similar_anyOf (List.rel_append (List.forall₂_same.2 fun _ _ => .refl _) h)
  | allOf => exact Schema.similar_allOf h
  | array => exact Schema.similar_array (similar_headD h)
  | tuple => exact Schema.similar_tuple h
  | indexable => exact Schema.similar_indexable (similar_headD h)
  | object slots index =>
    have hdrop := List.forall₂_drop slots.length h
    rw [mapNodes, assemble, assemble, List.length_map]
    refine Schema.similar_ofEntries (similar_slotEntries f slots h) ?_
    generalize schemas.drop slots.length = rest at hdrop ⊢
    generalize schemas'.drop slots.length = rest' at hdrop ⊢
    cases hdrop with
    | nil => exact .none
    | cons hs _ => exact .some hs
  | merged slots indexes =>
    have hdrop := List.forall₂_drop slots.length h
    rw [mapNodes, assemble, assemble, List.length_map]
    refine Schema.similar_ofEntries
      (Entry.similar_merge Schema.similar_conjoin (similar_slotEntries f slots h)) ?_
    generalize schemas.drop slots.length = rest at hdrop ⊢
    generalize schemas'.drop slots.length = rest' at hdrop ⊢
    cases hdrop with
    | nil => exact .none
    | cons hs hrest => exact .some (Schema.similar_conjoin (.cons hs hrest))

end Similar

end Plan

namespace Graph

variable {g : Graph} {settings : ResolverSettings} {n : Node}

theorem node?_strip (g : Graph) (settings : ResolverSettings) (id : Int) :
    (g.strip settings).node? id = (g.node? id).map (g.stripNode settings) := by
  rw [node?, node?, strip, List.find?_map]
  rfl

theorem copies_strip (g : Graph) (settings : ResolverSettings) :
    g.Copies id (g.strip settings) (g.stripNode settings) where
  node? id _ := node?_strip g settings id
  resembles _ := ⟨rfl, rfl, rfl, rfl, rfl, rfl⟩
  types _ := (List.map_id _).symm
  typeArguments _ := (List.map_id _).symm
  target _ := (congrFun Option.map_id _).symm
  stringIndex _ := (congrFun Option.map_id _).symm

/-- The members that are left are those that were shown. -/
theorem filterMap_property?_shown (g : Graph) (settings : ResolverSettings) (members : List Member) :
    (members.filter fun m => !(g.property? m).any (g.isHidden settings)).filterMap g.property? =
      (members.filterMap g.property?).filter fun p => !g.isHidden settings p := by
  induction members with
  | nil => rfl
  | cons m rest ih =>
    rw [List.filter_cons, List.filterMap_cons]
    cases hp : g.property? m with
    | none =>
      rw [Option.any_none, Bool.not_false, if_pos rfl, List.filterMap_cons_none hp]
      exact ih
    | some p =>
      rw [Option.any_some]
      cases hhidden : g.isHidden settings p with
      | true =>
        rw [List.filter_cons_of_neg (by simp [hhidden])]
        exact ih
      | false =>
        rw [List.filter_cons_of_pos (by simp [hhidden])]
        exact (List.filterMap_cons_some hp).trans (congrArg _ ih)

theorem slots_strip (hg : g.Closed) (hn : n ∈ g.nodes) (settings : ResolverSettings) :
    (g.strip settings).slots settings (g.stripNode settings n) =
      (g.slots settings n).map (Slot.mapNode (g.stripNode settings)) := by
  have hid : Member.rename id = id := by
    funext m
    simp [Member.rename]
  have hmembers : (g.stripNode settings n).members = (g.stripNode settings n).members.map (Member.rename id) := by
    rw [hid, List.map_id]
  refine (copies_strip g settings).slots_eq hg hn hmembers List.filter_sublist.subset ?_
  show ((n.members.filter _).filterMap g.property?).filter _ = _
  rw [filterMap_property?_shown, List.filter_filter]
  simp [properties]

theorem subjects_strip (g : Graph) (settings : ResolverSettings) :
    (g.strip settings).subjects = g.subjects.map (Subject.mapNode (g.stripNode settings)) := by
  rw [subjects, subjects, List.map_filterMap]
  refine List.filterMap_congr fun d _ => ?_
  rw [node?_strip, Option.map_map, Option.map_map]
  rfl

theorem mem_nodes_strip (h : n ∈ g.nodes) : g.stripNode settings n ∈ (g.strip settings).nodes :=
  List.mem_map_of_mem h

theorem ids_strip (g : Graph) (settings : ResolverSettings) : (g.strip settings).ids = g.ids := by
  rw [ids, strip, List.map_map]
  rfl

theorem references_stripNode_subset (g : Graph) (settings : ResolverSettings) (n : Node) :
    (g.stripNode settings n).references ⊆ n.references := by
  have hmembers : (g.stripNode settings n).members ⊆ n.members :=
    fun _ hm => (List.mem_filter.1 hm).1
  intro id hid
  simp only [Node.references, List.mem_append, List.mem_map, List.mem_filterMap] at hid ⊢
  rcases hid with ((((h | h) | ⟨m, hm, h⟩) | ⟨m, hm, h⟩) | h) | h
  · exact .inl (.inl (.inl (.inl (.inl h))))
  · exact .inl (.inl (.inl (.inl (.inr h))))
  · exact .inl (.inl (.inl (.inr ⟨m, hmembers hm, h⟩)))
  · exact .inl (.inl (.inr ⟨m, hmembers hm, h⟩))
  · exact .inl (.inr h)
  · exact .inr h

theorem Closed.strip (hg : g.Closed) (settings : ResolverSettings) : (g.strip settings).Closed := by
  refine ⟨?_, fun n' hn' id hid => ?_, ?_⟩
  · rw [ids_strip]
    exact hg.nodup
  · obtain ⟨n, hn, rfl⟩ := List.mem_map.1 hn'
    rw [ids_strip]
    exact hg.references n hn id (references_stripNode_subset g settings n hid)
  · rw [ids_strip]
    exact hg.declarations

theorem isIndexable_stripNode (h : n.isIndexable) : (g.stripNode settings n).isIndexable := by
  simp only [Node.isIndexable, Bool.and_eq_true, List.isEmpty_iff] at h ⊢
  refine ⟨h.1, ?_⟩
  rw [stripNode, h.2]
  rfl

theorem slots_eq_nil (h : (g.stripNode settings n).members = []) : g.slots settings n = [] := by
  have hshown := filterMap_property?_shown g settings n.members
  change (g.stripNode settings n).members.filterMap g.property? = _ at hshown
  rw [h] at hshown
  exact List.map_eq_nil_iff.2 hshown.symm

/-- The same first tests do not tell two shapes apart. -/
theorem ite_eq_or {α : Type} {p : Prop} [Decidable p] {x y y' a b : α} (h : y' = y ∨ y = a ∧ y' = b) :
    (if p then x else y') = (if p then x else y) ∨ (if p then x else y) = a ∧ (if p then x else y') = b := by
  split
  · exact .inl rfl
  · exact h

/-- An object of which only the index is left is an indexable; all else keeps its shape. -/
theorem shape?_strip (hg : g.Closed) (hn : n ∈ g.nodes) (settings : ResolverSettings) :
    (g.strip settings).shape? (g.stripNode settings n) = g.shape? n ∨
      g.shape? n = some .object ∧
        (g.strip settings).shape? (g.stripNode settings n) = some .indexable := by
  have htuple := (copies_strip g settings).isTuple_eq hg hn
  by_cases hi : (g.stripNode settings n).isIndexable = n.isIndexable
  · left
    rw [shape?, htuple, hi]
    rfl
  have hindexable : (g.stripNode settings n).isIndexable = true := by
    by_contra hno
    exact hi ((Bool.eq_false_of_not_eq_true hno).trans
      (Bool.eq_false_of_not_eq_true fun h => hno (isIndexable_stripNode h)).symm)
  have hobject : n.isObject = true := by
    have h := hindexable
    simp only [Node.isIndexable, Bool.and_eq_true] at h
    exact h.1.1
  have hno : n.isIndexable = false := by
    by_contra h
    exact hi (hindexable.trans (Bool.eq_true_of_not_eq_false h).symm)
  unfold shape?
  rw [htuple]
  -- every test but the last is the same for both nodes
  refine ite_eq_or (ite_eq_or (ite_eq_or (ite_eq_or (ite_eq_or (ite_eq_or (ite_eq_or ?_))))))
  rw [if_pos hobject, if_pos (show (g.stripNode settings n).isObject = true from hobject)]
  refine ite_eq_or (ite_eq_or (ite_eq_or (ite_eq_or ?_)))
  rw [hno, hindexable]
  exact .inr ⟨rfl, rfl⟩

end Graph

/-! ### Plans without hidden members -/

namespace Strict

variable {g : Graph} {settings : ResolverSettings} {n : Node}

/-- Checks that hold may be left out. -/
theorem forM_filter {check : Member → Except Breach Unit} {p : Member → Bool} {ms : List Member}
    (h : ∀ m ∈ ms, ¬p m → check m = .ok ()) : forM (ms.filter p) check = forM ms check := by
  induction ms with
  | nil => rfl
  | cons m rest ih =>
    obtain ⟨hm, hrest⟩ := List.forall_mem_cons.1 h
    rw [List.forM_cons]
    by_cases hp : p m
    · rw [List.filter_cons_of_pos hp, List.forM_cons, ih hrest]
    · rw [List.filter_cons_of_neg hp, ih hrest, hm hp]
      rfl

theorem checkMembers_strip (hfolds : g.FoldsHidden settings) (hn : n ∈ g.nodes) :
    checkMembers (g.stripNode settings n) = checkMembers n :=
  forM_filter fun m hm hhidden => hfolds n hn m hm (by simpa using hhidden)

theorem counterparts_strip (hg : g.Closed) (hfolds : g.FoldsHidden settings) :
    g.Counterparts id (g.strip settings) settings (g.stripNode settings) where
  toCopies := Graph.copies_strip g settings
  closed := hg.strip settings
  text _ _ := rfl
  checkText _ _ := rfl
  checkMembers _ hn := checkMembers_strip hfolds hn
  slots _ hn := Graph.slots_strip hg hn settings
  shape? _ hn := Graph.shape?_strip hg hn settings

/-- The plan is that of the node with all its members, or both are plans of an index alone. -/
theorem plan_strip (hg : g.Closed) (hfolds : g.FoldsHidden settings) (hn : n ∈ g.nodes) :
    plan (g.strip settings) settings (g.stripNode settings n) =
        (plan g settings n).map (Plan.mapNodes (g.stripNode settings)) ∨
      ∃ value, plan g settings n = .ok (.object [] (some value)) ∧
        plan (g.strip settings) settings (g.stripNode settings n) =
          .ok (.indexable (g.stripNode settings value)) := by
  have hcounterparts := counterparts_strip hg hfolds
  refine (plan_counterpart hcounterparts hg hn).imp_right fun ⟨hs, hs'⟩ => ?_
  obtain ⟨hcheck, hshape⟩ := shape?_of_shapeOf hg hn hs
  obtain ⟨-, hshape'⟩ := shape?_of_shapeOf (hg.strip settings) (Graph.mem_nodes_strip hn) hs'
  have hi := Graph.isIndexable_of_shape? hshape'
  simp only [Node.isIndexable, Bool.and_eq_true, List.isEmpty_iff] at hi
  have hindexed : n.stringIndex.isSome := hi.1.2
  -- with an index, all members were looked at to tell the shape
  have hmembers : checkMembers n = .ok () := by
    rw [checkShape, hshape, checkFor, checkIndex, if_pos hindexed] at hcheck
    exact hcheck
  have hslots : slots g settings n = .ok [] := by
    rw [slots_eq hg hn, hmembers, Graph.slots_eq_nil hi.2]
    rfl
  obtain ⟨id, hid⟩ := Option.isSome_iff_exists.1 hindexed
  obtain ⟨value, hvalue⟩ := Graph.exists_node?_of_mem_ids
    (hg.references n hn id (by simp [Node.references, hid]))
  have hindex : g.stringIndexType? n = some value := by
    rw [Graph.stringIndexType?, hid]
    exact hvalue
  refine ⟨value, ?_, ?_⟩
  · rw [plan, hs]
    show objectPlan g settings n = _
    rw [objectPlan, hslots, stringIndexType?_eq hg hn, hindex]
    rfl
  · rw [plan, hs']
    show planOf (g.strip settings) settings (g.stripNode settings n) .indexable = _
    rw [planOf, stringIndexType?_counterpart hcounterparts hg hn, hindex]
    rfl

/-! ### Passes without hidden members -/

theorem alike_object_indexable (f : Node → Node) (value : Node) :
    Plan.Alike Schema.Similar f (.object [] (some value)) (.indexable (f value)) := by
  refine ⟨rfl, fun hlength h => ?_⟩
  cases h with
  | nil => cases hlength
  | cons hs _ => exact Fragment.similar_object_indexable hs

theorem mirrors_strip (hg : g.Closed) (hfolds : g.FoldsHidden settings) :
    Mirrors Schema.Similar id g (g.strip settings) settings (g.stripNode settings) := by
  refine ⟨.refl, fun _ _ _ _ => id, fun _ _ => rfl, fun _ _ => rfl, fun _ _ => rfl, fun n hn => ?_⟩
  rcases plan_strip hg hfolds hn with hplan | ⟨value, hplan, hstripped⟩
  · rw [hplan]
    cases plan g settings n with
    | error obstacle => exact .error obstacle
    | ok p =>
      exact .ok ⟨Plan.edges_mapNodes _ p, fun _ h => Plan.similar_assemble (g.stripNode settings) p h⟩
  · rw [hplan, hstripped]
    exact .ok (alike_object_indexable _ value)

/-- Hidden members whose flag words can be made are invisible: without them the graph is closed and declares
the same, and on stacks with room for every node a pass returns the same outcomes up to the order of keys,
with the same log, or breaks in the same way. -/
theorem pass_strip (hg : g.Closed) (hfolds : g.FoldsHidden settings) {subjects : List Subject}
    (hnodes : ∀ D ∈ subjects, D.node ∈ g.nodes) (hroom : g.nodes.length ≤ settings.stackRoom) {size : Nat}
    (hsize : g.nodes.length ≤ size) :
    (g.strip settings).Closed ∧
      (g.strip settings).subjects = g.subjects.map (Subject.mapNode (g.stripNode settings)) ∧
      SameEnd (fun x x' => List.Forall₂ Outcome.Similar x.1 x'.1 ∧ x'.2 = x.2)
        (pass g settings subjects)
        (pass (g.strip settings) { settings with stackRoom := size }
          (subjects.map (Subject.mapNode (g.stripNode settings)))) := by
  have hlength : (g.strip settings).nodes.length = g.nodes.length := List.length_map _
  have hstripped : ∀ D ∈ subjects.map (Subject.mapNode (g.stripNode settings)),
      D.node ∈ (g.strip settings).nodes := by
    intro D' hD'
    obtain ⟨D, hD, rfl⟩ := List.mem_map.1 hD'
    exact List.mem_map_of_mem (hnodes D hD)
  refine ⟨hg.strip settings, Graph.subjects_strip g settings, ?_⟩
  rw [pass_stackRoom (hg.strip settings) (hlength ▸ hroom) (hlength ▸ hsize) hstripped]
  exact lockstep_pass (mirrors_strip hg hfolds) hg hnodes

end Strict

/-! ### An object that becomes an indexable -/

/-- An object with a method, and an index of objects of its own kind. -/
def Node.registry : Node :=
  { Node.plain 1 TypeFlag.object "Registry" [⟨"clear", 2, false, SymbolFlag.method, [], none⟩] with
    stringIndex := some 1 }

def Graph.registry : Graph where
  nodes := [.registry, .plain 2 TypeFlag.object "clear" []]
  declarations := [⟨"Registry", .interface, 1⟩]

theorem Strict.pass_strip_registry :
    Graph.registry.Closed ∧ Graph.registry.FoldsHidden {} ∧
      Graph.registry.shape? .registry = some .object ∧
      (Graph.registry.strip {}).shape? (Graph.registry.stripNode {} .registry) = some .indexable ∧
      SameEnd (fun x x' => List.Forall₂ Outcome.Similar x.1 x'.1 ∧ x'.2 = x.2)
        (Strict.pass Graph.registry {} Graph.registry.subjects)
        (Strict.pass (Graph.registry.strip {}) { stackRoom := 2 }
          (Graph.registry.subjects.map (Subject.mapNode (Graph.registry.stripNode {})))) := by
  have hclosed : Graph.registry.Closed := ⟨by decide, by decide, by decide⟩
  have hfolds : Graph.registry.FoldsHidden {} := by
    unfold Graph.FoldsHidden
    decide
  exact ⟨hclosed, hfolds, by decide, by decide,
    (pass_strip hclosed hfolds (by decide) (by decide) (by decide)).2.2⟩

/-! ### A hidden member that breaks a pass -/

/-- A private member that may be missing, with a flag of its own far above those that have names. -/
def Member.secret : Member := ⟨"secret", 2, true, Nat.pow 16 3601, ["private"], none⟩

def Graph.vault : Graph where
  nodes := [.plain 1 TypeFlag.object "Vault" [.plain "label" 2, .secret], .plain 2 TypeFlag.string "string" []]
  declarations := [⟨"Vault", .interface, 1⟩]

/-- The member is hidden, and without it the pass returns a schema; with it the pass returns nothing. -/
theorem Strict.vault_breaks :
    Graph.vault.Closed ∧
      (Graph.vault.property? .secret).any (Graph.vault.isHidden {}) ∧
      pass Graph.vault {} Graph.vault.subjects = .error (.longInteger (Nat.pow 16 3601)) ∧
      ∃ schema, pass (Graph.vault.strip {}) {} (Graph.vault.strip {}).subjects =
        .ok ([⟨"Vault", "interface", .ok schema⟩], []) := by
  have hstrip : Graph.vault.strip {} = { Graph.vault with
      nodes := [.plain 1 TypeFlag.object "Vault" [.plain "label" 2], .plain 2 TypeFlag.string "string" []] } := by
    decide +kernel
  rw [hstrip]
  refine ⟨⟨by decide, by decide, by decide⟩, by decide +kernel, ?_, _, rfl⟩
  have hbreaks : (pass Graph.vault {} Graph.vault.subjects).map (fun _ => ()) =
      .error (.longInteger (Nat.pow 16 3601)) := by decide +kernel
  exact map_eq_error_iff.1 hbreaks

end TypeSchema
