import TypeSchema.Proofs.Account
import TypeSchema.Proofs.Merging
import TypeSchema.Proofs.Passes

/-!
# Well-formed schemas

A fragment is `Fragment.Sound` if its keywords have values of the right form, and `Fragment.WellFormed` if
a validator also takes their lists as they are. Every fragment in a schema of a pass is sound, and it is
well formed unless it is the fragment of a `Graph.Misshapen` node: an intersection of nothing, or an object
that shows a name twice and requires it twice.
-/

namespace TypeSchema

namespace Table

variable {κ α : Type} [DecidableEq κ]

theorem mem_keys_ofEntries {entries : List (κ × α)} {key : κ} (h : key ∈ keys entries) :
    key ∈ (ofEntries entries).keys := by
  have hput : ∀ (table : Table κ α) (entry : κ × α), key ∈ table.keys ∨ key = entry.1 →
      key ∈ (table.put entry.1 entry.2).keys := by
    intro table entry h
    by_cases hmem : entry.1 ∈ table.keys
    · rw [keys_put_of_mem hmem]
      exact h.elim id fun h => h ▸ hmem
    · rw [keys_put_of_not_mem hmem, List.mem_append, List.mem_singleton]
      exact h
  induction entries using List.reverseRecOn with
  | nil => cases h
  | append_singleton entries entry ih =>
    rw [ofEntries, List.foldl_append]
    refine hput _ entry ?_
    rw [keys, List.map_append, List.mem_append] at h
    exact h.imp ih List.mem_singleton.1

end Table

namespace Fragment

/-! ### What makes a fragment well formed -/

/-- A fragment is a map, and its keywords have values of the right form: an enum lists scalars, no `anyOf`
is empty, and what is required is something and has properties. -/
structure Sound (v : Value) : Prop where
  fields : ∃ entries, v = .fields entries
  enum : ∀ w ∈ v.field? "enum", ∃ values : List LiteralValue, w = .list (values.map LiteralValue.toValue)
  anyOf : ∀ w ∈ v.field? "anyOf", ∃ options, w = .list options ∧ options ≠ []
  allOf : ∀ w ∈ v.field? "allOf", ∃ parts, w = .list parts
  required : ∀ w ∈ v.field? "required", ∃ names properties, w = .texts names ∧ names ≠ [] ∧
    v.field? "properties" = some (.fields properties) ∧ names ⊆ properties.map (·.1)

/-- No `allOf` is empty either, and nothing is required twice. -/
structure WellFormed (v : Value) : Prop extends Sound v where
  allOf_ne_nil : v.field? "allOf" ≠ some (.list [])
  required_nodup : ∀ names, v.field? "required" = some (.texts names) → names.Nodup

theorem texts_injective : Function.Injective Value.texts := by
  intro names names' h
  have htext : Function.Injective Value.text := fun _ _ h => Scalar.text.inj (Value.scalar.inj h)
  exact List.map_injective_iff.2 htext (Value.list.inj h)

section Object

variable (properties : List (String × Value)) (required : List String) (index : Option Value)

theorem field?_required_object :
    (object properties required index).field? "required" = if required = [] then none else some (.texts required) := by
  cases required <;> cases index <;> rfl

theorem field?_properties_object :
    (object properties required index).field? "properties" = some (.fields properties) := by
  cases required <;> cases index <;> rfl

variable {properties required index}

theorem sound_object (h : required ⊆ properties.map (·.1)) : Sound (object properties required index) := by
  refine ⟨⟨_, rfl⟩, ?_, ?_, ?_, fun w hw => ?_⟩
  · cases required <;> cases index <;> exact nofun
  · cases required <;> cases index <;> exact nofun
  · cases required <;> cases index <;> exact nofun
  · rw [field?_required_object] at hw
    split at hw
    · cases hw
    · next hne =>
      cases hw
      exact ⟨required, properties, rfl, hne, field?_properties_object .., h⟩

theorem wellFormed_object_iff (h : required ⊆ properties.map (·.1)) :
    WellFormed (object properties required index) ↔ required.Nodup := by
  constructor
  · intro hw
    by_cases hne : required = []
    · rw [hne]
      exact List.nodup_nil
    · exact hw.required_nodup required (by rw [field?_required_object, if_neg hne])
  · refine fun hnodup => ⟨sound_object h, ?_, fun names hnames => ?_⟩
    · cases required <;> cases index <;> exact nofun
    · rw [field?_required_object] at hnames
      split at hnames
      · cases hnames
      · rwa [← texts_injective (Option.some.inj hnames)]

end Object

theorem required_subset_properties (entries : List (Entry Value)) :
    Entry.required entries ⊆ (Entry.properties entries).map (·.1) := by
  intro name hname
  obtain ⟨e, he, rfl⟩ := List.mem_map.1 hname
  refine Table.mem_keys_ofEntries (List.mem_map.2 ⟨(e.name, e.schema), ?_, rfl⟩)
  exact List.mem_map_of_mem (List.mem_filter.1 he).1

theorem sound_allOf (parts : List Value) : Sound (allOf parts) :=
  { fields := ⟨_, rfl⟩
    enum := nofun
    anyOf := nofun
    allOf := fun _ hw => ⟨parts, (Option.some.inj hw).symm⟩
    required := nofun }

theorem wellFormed_allOf_iff {parts : List Value} : WellFormed (allOf parts) ↔ parts ≠ [] := by
  constructor
  · rintro h rfl
    exact h.allOf_ne_nil rfl
  · exact fun h => ⟨sound_allOf parts, fun hnil => h (Value.list.inj (Option.some.inj hnil)), nofun⟩

theorem wellFormed_enum (values : List LiteralValue) :
    WellFormed (enum (values.map LiteralValue.toValue)) :=
  { fields := ⟨_, rfl⟩
    enum := fun _ hw => ⟨values, (Option.some.inj hw).symm⟩
    anyOf := nofun
    allOf := nofun
    required := nofun
    allOf_ne_nil := nofun
    required_nodup := nofun }

theorem wellFormed_anyOf {options : List Value} (h : options ≠ []) : WellFormed (anyOf options) :=
  { fields := ⟨_, rfl⟩
    enum := nofun
    anyOf := fun _ hw => ⟨options, (Option.some.inj hw).symm, h⟩
    allOf := nofun
    required := nofun
    allOf_ne_nil := nofun
    required_nodup := nofun }

/-- Without these keywords there is nothing to go wrong. -/
theorem wellFormed_of_none {v : Value} (hfields : ∃ entries, v = .fields entries)
    (henum : v.field? "enum" = none) (hanyOf : v.field? "anyOf" = none) (hallOf : v.field? "allOf" = none)
    (hrequired : v.field? "required" = none) : WellFormed v :=
  { fields := hfields
    enum := fun w hw => by rw [henum] at hw; cases hw
    anyOf := fun w hw => by rw [hanyOf] at hw; cases hw
    allOf := fun w hw => by rw [hallOf] at hw; cases hw
    required := fun w hw => by rw [hrequired] at hw; cases hw
    allOf_ne_nil := by rw [hallOf]; exact nofun
    required_nodup := by rw [hrequired]; exact nofun }

theorem wellFormed_any : WellFormed any := wellFormed_of_none ⟨_, rfl⟩ rfl rfl rfl rfl

theorem wellFormed_typed (name : String) : WellFormed (typed name) :=
  wellFormed_of_none ⟨_, rfl⟩ rfl rfl rfl rfl

theorem wellFormed_primitive? {p : Primitive} {fragment : Value} (hf : primitive? p = some fragment) :
    WellFormed fragment := by
  cases p <;> cases hf
  case any => exact wellFormed_any
  case never =>
    exact
      { fields := ⟨_, rfl⟩
        enum := nofun
        anyOf := nofun
        allOf := fun _ hw => ⟨_, (Option.some.inj hw).symm⟩
        required := nofun
        allOf_ne_nil := nofun
        required_nodup := nofun }
  all_goals exact wellFormed_typed _

theorem Auxiliary.wellFormed {v : Value} (h : Auxiliary v) : WellFormed v := by
  cases h with
  | any => exact wellFormed_any
  | typed name => exact wellFormed_typed name
  | enum values => exact wellFormed_enum values
  | allOf h => exact wellFormed_allOf_iff.2 (List.ne_nil_of_length_pos (by omega))

end Fragment

namespace Graph

open Fragment

variable {g : Graph} {settings : ResolverSettings} {names : Int → Option String} {n : Node}
  {children : List Node} {parts : List Value} {fragment v : Value}

/-! ### What rules make -/

/-- The names of the members that the object shows and requires. -/
def requiredNames (g : Graph) (settings : ResolverSettings) (n : Node) : List String :=
  ((g.slots settings n).filter (!·.optional)).map (·.name)

/-- The rule of the node makes a fragment that is not well formed. -/
inductive Misshapen (g : Graph) (settings : ResolverSettings) (n : Node) : Prop
  /-- An intersection of nothing lists nothing. -/
  | intersection : g.shape? n = some .intersection → g.constituents n = [] → Misshapen g settings n
  /-- An object requires a name as often as it shows a member that is not optional under it. -/
  | object : g.shape? n = some .object ∨ (g.shape? n = some .date ∧ ¬settings.datesAsStrings) →
    ¬(g.requiredNames settings n).Nodup → Misshapen g settings n

theorem required_slotEntries {slots : List Slot} {fields : List Value} (h : fields.length = slots.length) :
    Entry.required (Plan.slotEntries slots fields) = (slots.filter (!·.optional)).map (·.name) := by
  induction slots generalizing fields with
  | nil => rfl
  | cons slot slots ih =>
    obtain ⟨field, fields, rfl⟩ := List.exists_cons_of_length_eq_add_one h
    have hrest := ih (Nat.succ.inj h)
    rw [Entry.required] at hrest
    cases hoptional : slot.optional <;>
      simp [Plan.slotEntries, Entry.required, hoptional, ← hrest]

theorem not_misshapen (hi : g.shape? n ≠ some .intersection)
    (ho : ¬(g.shape? n = some .object ∨ (g.shape? n = some .date ∧ ¬settings.datesAsStrings))) :
    ¬g.Misshapen settings n := by
  rintro (⟨hs, -⟩ | ⟨hs, -⟩)
  · exact hi hs
  · exact ho hs

theorem misshapen_intersection_iff (hs : g.shape? n = some .intersection) :
    g.Misshapen settings n ↔ g.constituents n = [] := by
  refine ⟨?_, .intersection hs⟩
  rintro (⟨-, h⟩ | ⟨hs' | ⟨hs', -⟩, -⟩)
  · exact h
  · cases hs.symm.trans hs'
  · cases hs.symm.trans hs'

theorem misshapen_object_iff
    (hs : g.shape? n = some .object ∨ (g.shape? n = some .date ∧ ¬settings.datesAsStrings)) :
    g.Misshapen settings n ↔ ¬(g.requiredNames settings n).Nodup := by
  refine ⟨?_, .object hs⟩
  rintro (⟨hs', -⟩ | ⟨-, h⟩)
  · rcases hs with hs | ⟨hs, -⟩ <;> cases hs.symm.trans hs'
  · exact h

/-- An `anyOf` has the boolean as an option, or a constituent that is no literal. -/
theorem anyOf_ne_nil {values : List LiteralValue}
    (hany : g.hasBoolean n ∨ ¬(g.definedConstituents n).all Node.isLiteral)
    (hlen : ((g.definedConstituents n).filter (!·.isLiteral)).length = parts.length) :
    (if g.hasBoolean n then [typed "boolean"] else []) ++
      (if values.isEmpty then [] else [Fragment.enum (values.map LiteralValue.toValue)]) ++ parts ≠ [] := by
  intro hnil
  obtain ⟨hfirst, rfl⟩ := List.append_eq_nil_iff.1 hnil
  have hfirst := (List.append_eq_nil_iff.1 hfirst).1
  rcases hany with hboolean | hall
  · rw [if_pos hboolean] at hfirst
    cases hfirst
  · refine hall (List.all_eq_true.2 fun c hc => ?_)
    simpa using List.filter_eq_nil_iff.1 (List.length_eq_zero_iff.1 hlen) c hc

/-- The fragment of a rule is that of a child, or it is sound; and it is well formed unless the node is
misshapen. -/
theorem Builds.wellFormed_iff (h : g.Builds settings n children parts fragment)
    (hlen : children.length = parts.length) :
    (fragment ∈ parts ∧ ¬g.Misshapen settings n) ∨
      Sound fragment ∧ (WellFormed fragment ↔ ¬g.Misshapen settings n) := by
  have hwell : ∀ {fragment : Value}, WellFormed fragment → ¬g.Misshapen settings n →
      Sound fragment ∧ (WellFormed fragment ↔ ¬g.Misshapen settings n) :=
    fun h hm => ⟨h.toSound, iff_of_true h hm⟩
  cases h with
  | unionOne hs => exact .inl ⟨List.mem_singleton_self _, not_misshapen (by simp [hs]) (by simp [hs])⟩
  | enum hs | unionEnum hs => exact .inr (hwell (wellFormed_enum _) (not_misshapen (by simp [hs]) (by simp [hs])))
  | @literal value hs => exact .inr (hwell (wellFormed_enum [value]) (not_misshapen (by simp [hs]) (by simp [hs])))
  | primitive hs _ hf => exact .inr (hwell (wellFormed_primitive? hf) (not_misshapen (by simp [hs]) (by simp [hs])))
  | unionAnyOf hs _ _ hany =>
    exact .inr (hwell (wellFormed_anyOf (anyOf_ne_nil hany hlen)) (not_misshapen (by simp [hs]) (by simp [hs])))
  | generic hs | unionNone hs | unionBoolean hs | arrayAny hs | array hs | tuple hs | indexable hs =>
    exact .inr (hwell (wellFormed_of_none ⟨_, rfl⟩ rfl rfl rfl rfl) (not_misshapen (by simp [hs]) (by simp [hs])))
  | date hs hd =>
    exact .inr (hwell (wellFormed_of_none ⟨_, rfl⟩ rfl rfl rfl rfl)
      (not_misshapen (by simp [hs]) (by simp [hs, hd])))
  | allOf hs =>
    refine .inr ⟨sound_allOf parts, wellFormed_allOf_iff.trans (not_congr ?_)⟩
    rw [misshapen_intersection_iff hs, ← List.length_eq_zero_iff, ← hlen, List.length_eq_zero_iff]
  | @merged fields indexes hs hm =>
    refine .inr (hwell ?_ ?_)
    · exact (wellFormed_object_iff (required_subset_properties _)).2 (required_merge_sublist.nodup (nodup_eraseDups _))
    · rw [misshapen_intersection_iff hs]
      exact (merges_iff.1 hm).1
  | @object fields _ hs hfields =>
    right
    rw [misshapen_object_iff hs, not_not, requiredNames, ← required_slotEntries hfields]
    have hsub := required_subset_properties (Plan.slotEntries (g.slots settings n) fields)
    exact ⟨sound_object hsub, wellFormed_object_iff hsub⟩

/-! ### Whole schemas -/

theorem Misshapen.not_wellFormed (hm : g.Misshapen settings n) (h : g.IsUnfolding settings names n v) :
    ¬WellFormed v := by
  obtain ⟨children, parts, hb, hcs⟩ := h
  rcases hb.wellFormed_iff (contributions_iff_forall₂.1 hcs).length_eq with ⟨-, hnot⟩ | ⟨-, hiff⟩
  · exact absurd hm hnot
  · exact fun h => hiff.1 h hm

theorem wellFormed_cutFragment (n : Node) (name? : Option String) :
    WellFormed (cutFragment settings n name?) := by
  have hcircular : ∀ name, WellFormed (circular name) := fun name => wellFormed_of_none ⟨_, rfl⟩ rfl rfl rfl rfl
  unfold cutFragment
  split
  · split
    · exact wellFormed_of_none ⟨_, rfl⟩ rfl rfl rfl rfl
    · exact hcircular _
  · exact hcircular _

theorem subschemas_cutFragment (n : Node) (name? : Option String) :
    (cutFragment settings n name?).subschemas = [] := by
  unfold cutFragment
  split
  · split <;> rfl
  · rfl

/-- The value is sound, and it is well formed or it is an unfolding of a misshapen node that is reached. -/
def Shapes (g : Graph) (settings : ResolverSettings) (names : Int → Option String) (n : Node) (v : Value) :
    Prop :=
  Sound v ∧ (WellFormed v ∨
    ∃ m, g.Reaches settings n m ∧ g.Misshapen settings m ∧ g.IsUnfolding settings names m v)

theorem shapes_of_wellFormed (h : WellFormed v) : g.Shapes settings names n v := ⟨h.toSound, .inl h⟩

theorem Shapes.of_follows {c : Node} (hf : g.Follows settings n c) (h : g.Shapes settings names c v) :
    g.Shapes settings names n v :=
  h.imp_right (.imp_right fun ⟨m, hm, hrest⟩ => ⟨m, .head hf hm, hrest⟩)

theorem shapes_of_cutFragment_holds {name? : Option String} (h : (cutFragment settings n name?).Holds v) (c : Node) :
    g.Shapes settings names c v := by
  rcases h.cases_below with rfl | ⟨u, hu, -⟩
  · exact shapes_of_wellFormed (wellFormed_cutFragment ..)
  · rw [subschemas_cutFragment] at hu
    cases hu

theorem Builds.shapes (h : g.Builds settings n children parts fragment) (hlen : children.length = parts.length)
    (hunfolding : g.IsUnfolding settings names n fragment)
    (hbelow : ∀ part ∈ parts, ∀ v, part.Holds v → g.Shapes settings names n v) (hv : fragment.Holds v) :
    g.Shapes settings names n v := by
  have hmaps : ∀ part ∈ parts, part.IsMap := fun part hpart => by
    obtain ⟨entries, rfl⟩ := (hbelow part hpart part .refl).1.fields
    exact ⟨_, rfl⟩
  rcases hv.cases_below with rfl | ⟨u, hu, hv⟩
  · rcases h.wellFormed_iff hlen with ⟨hmem, -⟩ | ⟨hsound, hiff⟩
    · exact hbelow v hmem v .refl
    · by_cases hm : g.Misshapen settings n
      · exact ⟨hsound, .inr ⟨n, .refl, hm, hunfolding⟩⟩
      · exact ⟨hsound, .inl (hiff.2 hm)⟩
  · rcases h.framedBy hmaps u hu v hv with hauxiliary | ⟨part, hpart, hv⟩
    · exact shapes_of_wellFormed hauxiliary.wellFormed
    · exact hbelow part hpart v hv

theorem IsUnfolding.shapes (h : g.IsUnfolding settings names n fragment) :
    ∀ v, fragment.Holds v → g.Shapes settings names n v := by
  -- that the fragments are unfoldings goes along: a misshapen node is told with its fragment
  suffices hs : g.IsUnfolding settings names n fragment ∧ ∀ v, fragment.Holds v → g.Shapes settings names n v
    from hs.2
  refine IsUnfolding.induction (P := fun n fragment => g.IsUnfolding settings names n fragment ∧
    ∀ v, fragment.Holds v → g.Shapes settings names n v) ?_ h
  intro n children parts fragment hb hparts
  have hunfolding : g.IsUnfolding settings names n fragment :=
    ⟨children, parts, hb, contributions_iff_forall₂.2 (hparts.imp fun _ _ h => h.imp_left And.left)⟩
  refine ⟨hunfolding, fun v hv => hb.shapes hparts.length_eq hunfolding (fun part hpart v hv => ?_) hv⟩
  obtain ⟨c, hc, ⟨-, hshapes⟩ | ⟨-, rfl⟩⟩ := exists_left_of_mem_right hparts hpart
  · have hf : g.Follows settings n c := by
      show c ∈ g.followed settings n
      exact hb.children_eq ▸ hc
    exact .of_follows hf (hshapes v hv)
  · exact shapes_of_cutFragment_holds hv n

end Graph

/-- Whatever stands in a schema of a pass, at any depth, is a map, its enums list scalars, no `anyOf` in it
is empty, and what is required is there and has properties. It is well formed altogether, with no empty
`allOf` and nothing required twice, unless it is the fragment of a misshapen node. -/
theorem Strict.pass_wellFormed_iff {g : Graph} {settings : ResolverSettings} {subjects : List Subject}
    {outcomes : List Outcome} {log : List Event} (hg : g.Closed) (hnodes : ∀ D ∈ subjects, D.node ∈ g.nodes)
    (h : pass g settings subjects = .ok (outcomes, log)) :
    List.Forall₂ (fun D o => ∀ schema, o.result = .ok schema → ∀ v, schema.render.Holds v →
        Fragment.Sound v ∧ (Fragment.WellFormed v ↔
          ¬∃ n, g.Reaches settings D.node n ∧ g.Misshapen settings n ∧
            g.IsUnfolding settings (declaredName subjects) n v))
      (subjects.filter Subject.isTranspilable) outcomes := by
  rw [outcomes_eq hg hnodes h]
  refine (Resolve.idle_pass hg subjects hnodes).2.imp ?_
  rintro D o ⟨-, -, hu⟩ schema hschema v hv
  obtain ⟨hsound, hor⟩ := (hu schema hschema).shapes v hv
  refine ⟨hsound, fun hwell => ?_, hor.resolve_right⟩
  rintro ⟨n, -, hm, hn⟩
  exact hm.not_wellFormed hn hwell

/-- Neither node of the cells is misshapen, so all that stands in their schema is well formed. -/
theorem Strict.cells_wellFormed :
    ∃ outcomes log, pass Graph.cells {} Graph.cells.subjects = .ok (outcomes, log) ∧ outcomes ≠ [] ∧
      ∀ o ∈ outcomes, ∃ schema, o.result = .ok schema ∧ ∀ v, schema.render.Holds v → Fragment.WellFormed v := by
  have hshaped : ∀ n ∈ Graph.cells.nodes, ¬Graph.cells.Misshapen {} n := by
    intro n hn
    rcases List.mem_pair.1 hn with rfl | rfl
    · exact not_not.2 (by decide) ∘ (Graph.misshapen_object_iff (.inl (by decide))).1
    · exact Graph.not_misshapen (by decide) (by decide)
  have hpass : ∃ schema log, pass Graph.cells {} Graph.cells.subjects =
      .ok ([⟨"Cell", "interface", .ok schema⟩], log) := ⟨_, _, rfl⟩
  obtain ⟨schema, log, hpass⟩ := hpass
  have h := pass_wellFormed_iff Graph.closed_cells (fun _ => Graph.node_mem_nodes) hpass
  refine ⟨_, log, hpass, List.cons_ne_nil _ _, fun o ho => ?_⟩
  obtain rfl := List.mem_singleton.1 ho
  obtain ⟨D, hD, hschemas⟩ := exists_left_of_mem_right h ho
  have hn := Graph.node_mem_nodes (List.mem_filter.1 hD).1
  refine ⟨schema, rfl, fun v hv => (hschemas schema rfl v hv).2.2 ?_⟩
  rintro ⟨n, hreach, hm, -⟩
  exact hshaped n (hreach.mem_nodes hn) hm

/-! ### A name twice, and an intersection of nothing -/

def Graph.doubled : Graph where
  nodes := [.plain 1 TypeFlag.object "Doubled" [.plain "name" 2, .plain "name" 2, .plain "rest" 3],
    .plain 2 TypeFlag.string "string" [], .plain 3 TypeFlag.intersection "Rest" []]
  declarations := [⟨"Doubled", .interface, 1⟩]

def Schema.doubled : Schema :=
  .object [("name", .typed "string"), ("rest", .allOf [])] ["name", "name", "rest"] none

/-- The name is one property and required twice, and the rest has to satisfy an `allOf` that is empty. -/
theorem Strict.doubled_not_wellFormed :
    Graph.doubled.Closed ∧
      convert Graph.doubled {} = .ok ([⟨"Doubled", "interface", .ok Schema.doubled⟩], []) ∧
      ¬Fragment.WellFormed Schema.doubled.render ∧
      Schema.doubled.render.Holds (Fragment.allOf []) ∧ ¬Fragment.WellFormed (Fragment.allOf []) := by
  refine ⟨⟨by decide, by decide, by decide⟩, rfl, fun h => ?_, .single ?_, fun h => ?_⟩
  · exact absurd (h.required_nodup ["name", "name", "rest"] rfl) (by decide)
  · exact List.mem_of_getElem? (i := 1) rfl
  · exact h.allOf_ne_nil rfl

end TypeSchema
