import TypeSchema.Proofs.History
import TypeSchema.Proofs.References

/-!
# Merged intersections

An intersection of objects is one closed object. `Fragment.Merges` says name by name what becomes of the
members and the string indexes of its parts, and `Machine.Call.Occurs.intersection_merges` that a call
which returns the schema of such an intersection returns this object, of the fragments that were returned
for the members and the indexes in the call that made it.
-/

namespace TypeSchema

/-! ### The order of first appearance -/

section EraseDups

variable {α : Type} [DecidableEq α]

theorem eraseDups_concat (xs : List α) (x : α) :
    (xs ++ [x]).eraseDups = if x ∈ xs then xs.eraseDups else xs.eraseDups ++ [x] := by
  rw [List.eraseDups_append, List.removeAll]
  by_cases h : x ∈ xs <;> simp [h, List.eraseDups_cons]

theorem pairwise_eraseDups (xs : List α) :
    xs.eraseDups.Pairwise fun a b => xs.idxOf a < xs.idxOf b := by
  induction xs using List.reverseRecOn with
  | nil => exact .nil
  | append_singleton xs x ih =>
    have hold : ∀ {a}, a ∈ xs.eraseDups → (xs ++ [x]).idxOf a = xs.idxOf a := fun ha =>
      List.idxOf_append_of_mem (List.mem_eraseDups.1 ha)
    have hpairs : xs.eraseDups.Pairwise fun a b => (xs ++ [x]).idxOf a < (xs ++ [x]).idxOf b :=
      ih.imp_of_mem fun ha hb h => by rwa [hold ha, hold hb]
    rw [eraseDups_concat]
    split
    · exact hpairs
    · next hx =>
      refine List.pairwise_append.2 ⟨hpairs, List.pairwise_singleton .., fun a ha b hb => ?_⟩
      rw [List.mem_singleton.1 hb, hold ha, List.idxOf_append_of_notMem hx, List.idxOf_cons_self]
      exact List.idxOf_lt_length_of_mem (List.mem_eraseDups.1 ha)

theorem nodup_eraseDups (xs : List α) : xs.eraseDups.Nodup :=
  (pairwise_eraseDups xs).imp fun h => by
    rintro rfl
    exact Nat.lt_irrefl _ h

end EraseDups

/-! ### Merging -/

namespace Fragment

/-- The fragments together: one stands for itself, and several are listed in their order. -/
inductive Conjunction : List Value → Value → Prop
  | one (fragment : Value) : Conjunction [fragment] fragment
  | several {fragments : List Value} : 2 ≤ fragments.length → Conjunction fragments (allOf fragments)

theorem conjunction_conjoin {fragments : List Value} (h : fragments ≠ []) :
    Conjunction fragments (conjoin fragments) := by
  match fragments, h with
  | [fragment], _ => exact .one fragment
  | _ :: _ :: _, _ => exact .several (by simp)

/-- What members, in their order, and string indexes come to when they are merged into one object: the
properties, which of them are required, and the index. Members of one name are one property. -/
structure Merges (members : List (Entry Value)) (indexes : List Value) (properties : List (String × Value))
    (required : List String) (index : Option Value) : Prop where
  name_mem_iff : ∀ name, name ∈ properties.map (·.1) ↔ ∃ e ∈ members, e.name = name
  ordered : (properties.map (·.1)).Pairwise fun a b =>
    (members.map (·.name)).idxOf a < (members.map (·.name)).idxOf b
  fragment : ∀ p ∈ properties, Conjunction ((members.filter (·.name = p.1)).map (·.schema)) p.2
  required_mem_iff : ∀ name, name ∈ required ↔ ∃ e ∈ members, e.name = name ∧ ¬e.optional
  required_nodup : required.Nodup
  required_sublist : required.Sublist (properties.map (·.1))
  index_isSome_iff : index.isSome ↔ indexes ≠ []
  index : ∀ fragment ∈ index, Conjunction indexes fragment

section Merge

variable {conj : List Value → Value} {members : List (Entry Value)} {indexes : List Value}

theorem names_merge : (Entry.merge conj members).map (·.name) = (members.map (·.name)).eraseDups := by
  rw [Entry.merge, List.map_map]
  exact List.map_id _

theorem properties_merge : Entry.properties (Entry.merge conj members) =
    (Entry.merge conj members).map fun e => (e.name, e.schema) := by
  refine Table.ofEntries_of_nodup ?_
  have hkeys : Table.keys ((Entry.merge conj members).map fun e => (e.name, e.schema)) =
      (Entry.merge conj members).map (·.name) := List.map_map ..
  rw [hkeys, names_merge]
  exact nodup_eraseDups _

theorem names_properties_merge :
    (Entry.properties (Entry.merge conj members)).map (·.1) = (members.map (·.name)).eraseDups := by
  rw [properties_merge, List.map_map, ← names_merge]
  rfl

theorem required_merge_sublist :
    (Entry.required (Entry.merge conj members)).Sublist (members.map (·.name)).eraseDups := by
  rw [← names_merge, Entry.required]
  exact List.filter_sublist.map _

/-- One that is not optional makes its name required. -/
theorem mem_required_merge_iff {name : String} :
    name ∈ Entry.required (Entry.merge conj members) ↔ ∃ e ∈ members, e.name = name ∧ ¬e.optional := by
  simp only [Entry.required, Entry.merge, List.mem_map, List.mem_filter, List.mem_eraseDups]
  constructor
  · rintro ⟨_, ⟨⟨name, -, rfl⟩, hrequired⟩, rfl⟩
    obtain ⟨e, he, hoptional⟩ : ∃ e ∈ members, e.name = name ∧ e.optional = false := by
      simpa [List.all_eq_false] using hrequired
    exact ⟨e, he, hoptional.1, by simp [hoptional.2]⟩
  · rintro ⟨e, he, rfl, hoptional⟩
    refine ⟨_, ⟨⟨e.name, ⟨e, he, rfl⟩, rfl⟩, ?_⟩, rfl⟩
    simp only [Bool.not_eq_true', List.all_eq_false, List.mem_filter, decide_eq_true_eq]
    exact ⟨e, ⟨he, rfl⟩, hoptional⟩

/-- The merged object is closed, with what the members and the indexes come to. -/
theorem exists_merges (members : List (Entry Value)) (indexes : List Value) :
    ∃ properties required index, merged members indexes = object properties required index ∧
      Merges members indexes properties required index := by
  refine ⟨_, _, _, rfl, ?_⟩
  constructor
  case name_mem_iff =>
    intro name
    rw [names_properties_merge, List.mem_eraseDups, List.mem_map]
  case ordered =>
    rw [names_properties_merge]
    exact pairwise_eraseDups _
  case fragment =>
    intro p hp
    rw [properties_merge] at hp
    obtain ⟨e, he, rfl⟩ := List.mem_map.1 hp
    obtain ⟨name, hname, rfl⟩ := List.mem_map.1 he
    obtain ⟨member, hmember, rfl⟩ := List.mem_map.1 (List.mem_eraseDups.1 hname)
    refine conjunction_conjoin (mt List.map_eq_nil_iff.1 ?_)
    exact List.ne_nil_of_mem (List.mem_filter.2 ⟨hmember, by simp⟩)
  case required_mem_iff => exact fun name => mem_required_merge_iff
  case required_nodup => exact required_merge_sublist.nodup (nodup_eraseDups _)
  case required_sublist =>
    rw [names_properties_merge]
    exact required_merge_sublist
  case index_isSome_iff => cases indexes <;> simp
  case index =>
    intro fragment hfragment
    split at hfragment
    · cases hfragment
    · next hindexes =>
      cases hfragment
      exact conjunction_conjoin fun hnil => hindexes (by rw [hnil]; rfl)

end Merge

end Fragment

/-! ### The calls of intersections -/

theorem Graph.merges_iff {g : Graph} {n : Node} : g.merges n ↔ g.constituents n ≠ [] ∧
    ∀ part ∈ g.constituents n, g.shape? part = some .object ∨ g.shape? part = some .indexable := by
  simp [merges, isMergeable]

namespace Machine.Call

variable {g : Graph} {settings : ResolverSettings} {requests : List Request} {c : Call} {m' : Machine}
  {schema : Schema}

/-- In the course of the call the fragment was returned for the node. -/
def Gives (g : Graph) (settings : ResolverSettings) (c : Call) (t : Node) (fragment : Value) : Prop :=
  ∃ s, c.Returns g settings t s ∧ fragment = s.render

/-- The entry is the member as the call has it: its fragment is the one that was returned for its type. -/
structure Shows (g : Graph) (settings : ResolverSettings) (c : Call) (slot : Slot) (e : Entry Value) :
    Prop where
  name : e.name = slot.name
  optional : e.optional = slot.optional
  gives : c.Gives g settings slot.type e.schema

/-- A call makes its fragment by the rule of its node of what it was given for the nodes that it follows. -/
theorem Makes.exists_builds (h : c.Makes g settings schema) :
    ∃ parts, g.Builds settings c.node (g.followed settings c.node) parts schema.render ∧
      List.Forall₂ (c.Gives g settings) (g.followed settings c.node) parts := by
  obtain ⟨p, schemas, hplan, rfl, hreturns⟩ := h.exists_plan
  rw [← Graph.targets_of_plan hplan]
  refine ⟨schemas.map Schema.render, Graph.obeys_of_plan hplan schemas hreturns.length_eq.symm, ?_⟩
  rw [List.forall₂_map_left_iff, List.forall₂_map_right_iff]
  exact hreturns.imp fun e part hpart => ⟨part, (hpart part).2 rfl, rfl⟩

theorem forall₂_shows {slots : List Slot} {fields : List Value}
    (h : List.Forall₂ (c.Gives g settings) (slots.map (·.type)) fields) :
    List.Forall₂ (c.Shows g settings) slots (Plan.slotEntries slots fields) := by
  induction slots generalizing fields with
  | nil => cases h; exact .nil
  | cons slot slots ih =>
    obtain ⟨field, fields, hfield, hfields, rfl⟩ := List.forall₂_cons_left_iff.1 h
    exact .cons ⟨rfl, rfl, hfield⟩ (ih hfields)

/-- The call that makes the schema of an intersection of objects makes the object of all their members and
indexes, as it was given them. -/
theorem Makes.merges (h : c.Makes g settings schema) (hs : g.shape? c.node = some .intersection)
    (hm : g.merges c.node) :
    ∃ members indexes,
      List.Forall₂ (c.Shows g settings) ((g.constituents c.node).flatMap (g.slots settings)) members ∧
      List.Forall₂ (c.Gives g settings) ((g.constituents c.node).filterMap g.stringIndexType?) indexes ∧
      schema.render = Fragment.merged members indexes := by
  obtain ⟨parts, hbuilds, hgiven⟩ := h.exists_builds
  generalize hfragment : schema.render = fragment at hbuilds
  have htypes : (g.constituents c.node).flatMap (g.visibleTypes settings) =
      ((g.constituents c.node).flatMap (g.slots settings)).map (·.type) := by
    rw [List.map_flatMap]
    rfl
  generalize hfollowed : g.followed settings c.node = followed at hbuilds hgiven
  cases hbuilds with
  | @merged fields indexes _ _ hlength =>
    rw [htypes] at hgiven
    have hfields := List.forall₂_take_append _ _ _ hgiven
    have hindexes := List.forall₂_drop_append _ _ _ hgiven
    rw [hlength, List.take_left' (by simp)] at hfields
    rw [hlength, List.drop_left' (by simp)] at hindexes
    exact ⟨_, indexes, forall₂_shows hfields, hindexes, rfl⟩
  | allOf _ hnot => exact absurd hm hnot
  | enum hs' | literal hs' | primitive hs' | generic hs' | unionNone hs' | unionOne hs' | unionBoolean hs'
  | unionEnum hs' | unionAnyOf hs' | arrayAny hs' | array hs' | tuple hs' | date hs' | indexable hs' =>
    cases hs.symm.trans hs'
  | object hs' =>
    rcases hs' with hs' | ⟨hs', -⟩ <;> cases hs.symm.trans hs'

section Within

variable (hg : g.Closed) (hwithin : ∀ q ∈ requests, q.Within g)
include hg hwithin

/-- Unless an intersection of objects is being resolved and cut, whatever call returns its schema, some
call made it: a closed object of the visible members of all parts, each with the fragment that was
returned for it in that call, and of their string indexes. -/
theorem Occurs.intersection_merges (hc : c.Occurs g settings requests)
    (hs : g.shape? c.node = some .intersection) (hne : g.constituents c.node ≠ [])
    (hparts : ∀ part ∈ g.constituents c.node, g.shape? part = some .object ∨ g.shape? part = some .indexable)
    (hanswer : c.answer g settings = some (.ok schema, m')) :
    (c.machine.stage? c.node.id = some .resolving ∧
        schema = Resolve.cutSchema settings c.node (c.machine.name? c.node.id)) ∨
      ∃ c₀ : Call, c₀.Occurs g settings requests ∧ c₀.node = c.node ∧ c₀.Makes g settings schema ∧
        ∃ members indexes,
          List.Forall₂ (c₀.Shows g settings) ((g.constituents c.node).flatMap (g.slots settings)) members ∧
          List.Forall₂ (c₀.Gives g settings) ((g.constituents c.node).filterMap g.stringIndexType?) indexes ∧
          ∃ properties required index, schema.render = Fragment.object properties required index ∧
            Fragment.Merges members indexes properties required index := by
  by_cases hstage : c.machine.stage? c.node.id = some .resolving
  · left
    obtain ⟨calls, n, m⟩ := c
    cases visit_of_resolve hanswer with
    | cut => exact ⟨hstage, rfl⟩
    | cached hresolved => cases hstage.symm.trans hresolved
    | done hnone => cases hstage.symm.trans hnone
  · right
    obtain ⟨c₀, hc₀, hid, hmakes⟩ := hc.exists_makes hstage hanswer
    have hnode := hg.eq_of_id_eq (hc₀.mem_nodes hwithin) (hc.mem_nodes hwithin) hid
    rw [← hnode] at hs hne hparts ⊢
    obtain ⟨members, indexes, hmembers, hindexes, hrender⟩ :=
      hmakes.merges hs (Graph.merges_iff.2 ⟨hne, hparts⟩)
    rw [hrender]
    exact ⟨c₀, hc₀, rfl, hmakes, members, indexes, hmembers, hindexes, Fragment.exists_merges members indexes⟩

end Within

end Machine.Call

/-! ### Two parts with a name in common -/

def Node.badge : Node := { plain 1 TypeFlag.intersection "Badge" [] with types := [2, 3] }

/-- Both parts have a name and an index, and the second has its mark twice. -/
def Graph.badge : Graph where
  nodes := [.badge,
    { Node.plain 2 TypeFlag.object "Named" [⟨"name", 4, true, 0, [], none⟩, ⟨"note", 4, true, 0, [], none⟩] with
      stringIndex := some 4 },
    { Node.plain 3 TypeFlag.object "Marked" [⟨"mark", 5, true, 0, [], none⟩, ⟨"name", 5, false, 0, [], none⟩,
        ⟨"mark", 4, true, 0, [], none⟩] with stringIndex := some 5 },
    .plain 4 TypeFlag.string "string" [],
    .plain 5 TypeFlag.number "number" []]
  declarations := []

theorem Graph.closed_badge : badge.Closed := ⟨by decide, by decide, by decide⟩

def Schema.badge : Schema :=
  .object [("name", .allOf [.typed "string", .typed "number"]), ("note", .typed "string"),
      ("mark", .allOf [.typed "number", .typed "string"])]
    ["name"] (some (.allOf [.typed "string", .typed "number"]))

/-- The name is required, as it is in one of the parts. -/
theorem Machine.Call.badge_merges :
    ∃ c₀ : Call, c₀.Makes Graph.badge {} Schema.badge ∧
      ∃ members indexes,
        List.Forall₂ (c₀.Shows Graph.badge {})
          ((Graph.badge.constituents .badge).flatMap (Graph.badge.slots {})) members ∧
        List.Forall₂ (c₀.Gives Graph.badge {})
          ((Graph.badge.constituents .badge).filterMap Graph.badge.stringIndexType?) indexes ∧
        ∃ properties required index, Schema.badge.render = Fragment.object properties required index ∧
          Fragment.Merges members indexes properties required index := by
  have hwithin : ∀ q ∈ [Request.node .badge], q.Within Graph.badge := by
    simp [Request.Within, Request.target?]
    decide
  have hoccurs : Occurs Graph.badge {} [.node .badge] ⟨128, .badge, {}⟩ :=
    ⟨[], .node .badge, [], {}, _, rfl, rfl, rfl, .refl⟩
  have hanswer : ∃ m', answer Graph.badge {} ⟨128, .badge, {}⟩ = some (.ok Schema.badge, m') := ⟨_, rfl⟩
  obtain ⟨m', hanswer⟩ := hanswer
  obtain ⟨hstage, -⟩ | ⟨c₀, -, -, hmakes, hmerges⟩ :=
    Occurs.intersection_merges Graph.closed_badge hwithin hoccurs (by decide) (by decide) (by decide) hanswer
  · exact absurd hstage (by decide)
  · exact ⟨c₀, hmakes, hmerges⟩

end TypeSchema
