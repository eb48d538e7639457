import TypeSchema.Proofs.Unfolding

/-!
# References in schemas

`Value.Holds` says which values stand in schema position of a value, at any depth. What a rule puts around
the fragments of the children, `Graph.Builds.framedBy`, refers to nothing, so the references in an
unfolding are those of its cuts: `Graph.IsUnfolding.exists_of_reference?`.
-/

namespace TypeSchema

/-! ### Schema positions -/

namespace Value

def keyed : Option Value → List Value
  | some (.map entries) => entries.map (·.2)
  | _ => []

def listed : Option Value → List Value
  | some (.list items) => items
  | _ => []

/-- The schema of all items, or one for each position. -/
def itemSchemas : Option Value → List Value
  | some (.list items) => items
  | some item => [item]
  | none => []

def subschemas (v : Value) : List Value :=
  keyed (v.field? "properties") ++ keyed (v.field? "patternProperties") ++
    itemSchemas (v.field? "items") ++ listed (v.field? "anyOf") ++ listed (v.field? "allOf")

/-- The one value stands in schema position of the other, which counts as well. -/
def Holds : Value → Value → Prop := Relation.ReflTransGen fun v w => w ∈ v.subschemas

def reference? (v : Value) : Option String :=
  match v.field? "$ref" with
  | some (.scalar (.text r)) => some r
  | _ => none

def IsMap (v : Value) : Prop := ∃ entries, v = .map entries

theorem itemSchemas_of_isMap {v : Value} (h : v.IsMap) : itemSchemas (some v) = [v] := by
  obtain ⟨entries, rfl⟩ := h
  rfl

/-- What stands in the value is the value itself, or it stands in a value right below. -/
theorem Holds.cases_below {v w : Value} (h : v.Holds w) : w = v ∨ ∃ u ∈ v.subschemas, u.Holds w := by
  rcases Relation.ReflTransGen.cases_head h with rfl | ⟨u, hu, hw⟩
  · exact .inl rfl
  · exact .inr ⟨u, hu, hw⟩

end Value

/-! ### Tables -/

namespace Table

variable {κ α : Type} [DecidableEq κ]

theorem mem_of_mem_put {key : κ} {value : α} {table : Table κ α} {entry : κ × α}
    (h : entry ∈ table.put key value) : entry = (key, value) ∨ entry ∈ table := by
  induction table with
  | nil => exact .inl (List.mem_singleton.1 h)
  | cons first rest ih =>
    unfold put at h
    split at h
    · rcases List.mem_cons.1 h with h | h
      · exact .inl h
      · exact .inr (List.mem_cons_of_mem _ h)
    · rcases List.mem_cons.1 h with rfl | h
      · exact .inr (List.mem_cons_self ..)
      · exact (ih h).imp_right (List.mem_cons_of_mem _)

theorem mem_of_mem_ofEntries {entries : List (κ × α)} {entry : κ × α} (h : entry ∈ ofEntries entries) :
    entry ∈ entries := by
  have hfold : ∀ (entries : List (κ × α)) (table : Table κ α),
      entry ∈ entries.foldl (fun table entry => put entry.1 entry.2 table) table →
      entry ∈ table ∨ entry ∈ entries := by
    intro entries
    induction entries with
    | nil => exact fun _ h => .inl h
    | cons first rest ih =>
      intro table h
      rcases ih _ h with h | h
      · rcases mem_of_mem_put h with rfl | h
        · exact .inr (List.mem_cons_self ..)
        · exact .inl h
      · exact .inr (List.mem_cons_of_mem _ h)
  simpa using hfold entries [] h

/-- Entries of different keys make a table as they are. -/
theorem ofEntries_of_nodup {entries : List (κ × α)} (h : (keys entries).Nodup) : ofEntries entries = entries := by
  have hput : ∀ (table : Table κ α) (entry : κ × α), entry.1 ∉ table.keys →
      table.put entry.1 entry.2 = table ++ [entry] := by
    intro table entry hentry
    induction table with
    | nil => rfl
    | cons first rest ih =>
      obtain ⟨hne, hrest⟩ := not_or.1 (mt List.mem_cons.2 hentry)
      rw [put, if_neg (Ne.symm hne), ih hrest, List.cons_append]
  have hfold : ∀ table : Table κ α, (keys (table ++ entries)).Nodup →
      entries.foldl (fun table entry => table.put entry.1 entry.2) table = table ++ entries := by
    clear h
    induction entries with
    | nil => exact fun table _ => (List.append_nil table).symm
    | cons entry rest ih =>
      intro table htable
      have hentry : entry.1 ∉ table.keys := by
        rw [keys, List.map_append, List.map_cons, List.nodup_append] at htable
        exact fun hmem => htable.2.2 _ hmem _ (List.mem_cons_self ..) rfl
      have happend : table ++ entry :: rest = table ++ [entry] ++ rest := List.append_cons ..
      rw [List.foldl_cons, hput table entry hentry, happend]
      exact ih _ (by rw [← happend]; exact htable)
  exact hfold [] h

end Table

/-! ### Schema positions of the builders -/

namespace Fragment

open Value

theorem keyed_fields (entries : List (String × Value)) :
    keyed (some (.fields entries)) = entries.map (·.2) := by
  simp [keyed, fields]

theorem subschemas_object (properties : List (String × Value)) (required : List String)
    (index : Option Value) :
    (object properties required index).subschemas = properties.map (·.2) ++ index.toList := by
  have hsub : (object properties required index).subschemas =
      keyed (some (.fields properties)) ++ keyed (index.map fun v => .fields [(".*", v)]) ++ [] ++ [] ++ [] := by
    unfold object
    cases required.isEmpty <;> cases index <;> rfl
  rw [hsub, keyed_fields]
  cases index <;> simp [keyed, fields]

theorem subschemas_array {item : Value} (h : item.IsMap) : (array item).subschemas = [item] := by
  have hsub : (array item).subschemas = itemSchemas (some item) ++ [] ++ [] := rfl
  rw [hsub, itemSchemas_of_isMap h]
  rfl

theorem subschemas_tuple (items : List Value) : (tuple items).subschemas = items := by
  have hsub : (tuple items).subschemas = items ++ [] ++ [] := rfl
  rw [hsub, List.append_nil, List.append_nil]

theorem subschemas_anyOf (options : List Value) : (anyOf options).subschemas = options := by
  have hsub : (anyOf options).subschemas = options ++ [] := rfl
  rw [hsub, List.append_nil]

theorem reference?_object (properties : List (String × Value)) (required : List String)
    (index : Option Value) : (object properties required index).reference? = none := by
  unfold object
  cases required.isEmpty <;> cases index <;> rfl

/-- What a rule may put between its fragment and those of the children. -/
inductive Auxiliary : Value → Prop
  | any : Auxiliary any
  | typed (name : String) : Auxiliary (typed name)
  | enum (values : List LiteralValue) : Auxiliary (enum (values.map LiteralValue.toValue))
  | allOf {parts : List Value} : 2 ≤ parts.length → Auxiliary (allOf parts)

theorem Auxiliary.reference?_eq_none {v : Value} (h : Auxiliary v) : v.reference? = none := by
  cases h <;> rfl

/-- What stands in the value is auxiliary, or it stands in one of the parts. -/
def FramedBy (parts : List Value) (v : Value) : Prop :=
  ∀ w, v.Holds w → Auxiliary w ∨ ∃ part ∈ parts, part.Holds w

variable {parts : List Value} {v : Value}

theorem framedBy_of_mem (h : v ∈ parts) : FramedBy parts v := fun _ hw => .inr ⟨v, h, hw⟩

theorem Auxiliary.framedBy (hv : Auxiliary v) (h : ∀ w ∈ v.subschemas, FramedBy parts w) :
    FramedBy parts v := by
  intro w hw
  rcases hw.cases_below with rfl | ⟨u, hu, hw⟩
  · exact .inl hv
  · exact h u hu w hw

theorem framedBy_typed (name : String) : FramedBy parts (typed name) :=
  Auxiliary.framedBy (.typed name) (List.forall_mem_nil _)

theorem framedBy_enum (values : List LiteralValue) :
    FramedBy parts (enum (values.map LiteralValue.toValue)) :=
  Auxiliary.framedBy (.enum values) (List.forall_mem_nil _)

/-- Only the fragment of the type without values has others in it. -/
theorem framedBy_of_mem_subschemas_primitive? {p : Primitive} {fragment : Value}
    (hf : primitive? p = some fragment) (hv : v ∈ fragment.subschemas) : FramedBy parts v := by
  cases p <;> cases hf
  case never =>
    have hv : v ∈ [typed "string", typed "number"] := hv
    rcases List.mem_pair.1 hv with rfl | rfl <;> exact framedBy_typed _
  all_goals cases hv

theorem framedBy_conjoin {vs : List Value} (hne : vs ≠ []) (h : ∀ v ∈ vs, FramedBy parts v) :
    FramedBy parts (conjoin vs) := by
  match vs, hne with
  | [v], _ => exact h v (List.mem_singleton_self v)
  | _ :: _ :: _, _ => exact Auxiliary.framedBy (.allOf (by simp)) h

theorem schema_mem_of_mem_slotEntries {slots : List Slot} {fields : List Value} {e : Entry Value}
    (h : e ∈ Plan.slotEntries slots fields) : e.schema ∈ fields := by
  induction slots generalizing fields with
  | nil => cases h
  | cons slot slots ih =>
    cases fields with
    | nil => cases h
    | cons field fields =>
      rcases List.mem_cons.1 h with rfl | h
      · exact List.mem_cons_self ..
      · exact List.mem_cons_of_mem _ (ih h)

/-- What stands right below an object is the fragment of an entry or the index. -/
theorem mem_subschemas_ofEntries {entries : List (Entry Value)} {index : Option Value}
    (h : v ∈ (ofEntries entries index).subschemas) : (∃ e ∈ entries, v = e.schema) ∨ v ∈ index := by
  rw [ofEntries, subschemas_object] at h
  rcases List.mem_append.1 h with h | h
  · obtain ⟨p, hp, rfl⟩ := List.mem_map.1 h
    obtain ⟨e, he, rfl⟩ := List.mem_map.1 (Table.mem_of_mem_ofEntries hp)
    exact .inl ⟨e, he, rfl⟩
  · exact .inr (Option.mem_toList.1 h)

theorem framedBy_of_mem_subschemas_merged {entries : List (Entry Value)} {indexes : List Value}
    (hentries : ∀ e ∈ entries, e.schema ∈ parts) (hindexes : indexes ⊆ parts)
    (h : v ∈ (merged entries indexes).subschemas) : FramedBy parts v := by
  rcases mem_subschemas_ofEntries h with ⟨e, he, rfl⟩ | h
  · obtain ⟨name, hname, rfl⟩ := List.mem_map.1 he
    obtain ⟨first, hfirst, rfl⟩ := List.mem_map.1 (List.mem_eraseDups.1 hname)
    have hfound : first ∈ entries.filter (·.name = first.name) := List.mem_filter.2 ⟨hfirst, by simp⟩
    refine framedBy_conjoin (List.ne_nil_of_mem (List.mem_map_of_mem hfound)) fun v hv => ?_
    obtain ⟨e, he, rfl⟩ := List.mem_map.1 hv
    exact framedBy_of_mem (hentries e (List.mem_filter.1 he).1)
  · split at h
    · cases h
    · next hempty =>
      cases h
      exact framedBy_conjoin (by simpa using hempty) fun v hv => framedBy_of_mem (hindexes hv)

end Fragment

namespace Graph

open Value

variable {g : Graph} {settings : ResolverSettings} {names : Int → Option String} {n : Node}
  {children : List Node} {parts : List Value} {fragment : Value}

theorem Builds.isMap (h : g.Builds settings n children parts fragment) (hparts : ∀ v ∈ parts, v.IsMap) :
    fragment.IsMap := by
  cases h with
  | unionOne => exact hparts _ (List.mem_singleton_self _)
  | @primitive p _ _ _ hf => cases p <;> cases hf <;> exact ⟨_, rfl⟩
  | _ => exact ⟨_, rfl⟩

/-- Right below the fragment of a rule stand the fragments of the children, and what the rule puts
around them. -/
theorem Builds.framedBy (h : g.Builds settings n children parts fragment) (hparts : ∀ v ∈ parts, v.IsMap) :
    ∀ v ∈ fragment.subschemas, Fragment.FramedBy parts v := by
  cases h with
  | enum | literal | generic | unionNone | unionBoolean | unionEnum | date => exact List.forall_mem_nil _
  | unionOne => exact fun v hv w hw => .inr ⟨_, List.mem_singleton_self _, .head hv hw⟩
  | primitive _ _ hf => exact fun v hv => Fragment.framedBy_of_mem_subschemas_primitive? hf hv
  | @unionAnyOf values parts =>
    rw [Fragment.subschemas_anyOf]
    intro v hv
    rcases List.mem_append.1 hv with hv | hv
    · rcases List.mem_append.1 hv with hv | hv
      · split at hv
        · rw [List.mem_singleton.1 hv]
          exact Fragment.framedBy_typed _
        · cases hv
      · split at hv
        · cases hv
        · rw [List.mem_singleton.1 hv]
          exact Fragment.framedBy_enum _
    · exact Fragment.framedBy_of_mem hv
  | allOf => exact fun v hv => Fragment.framedBy_of_mem hv
  | merged =>
    refine fun v hv => Fragment.framedBy_of_mem_subschemas_merged (fun e he => ?_) ?_ hv
    · exact List.mem_append_left _ (Fragment.schema_mem_of_mem_slotEntries he)
    · exact List.subset_append_right ..
  | arrayAny =>
    have hany : Fragment.any.IsMap := ⟨_, rfl⟩
    rw [Fragment.subschemas_array hany, List.forall_mem_singleton]
    exact Fragment.Auxiliary.framedBy .any (List.forall_mem_nil _)
  | array =>
    rw [Fragment.subschemas_array (hparts _ (List.mem_singleton_self _))]
    exact fun v hv => Fragment.framedBy_of_mem hv
  | tuple =>
    rw [Fragment.subschemas_tuple]
    exact fun v hv => Fragment.framedBy_of_mem hv
  | indexable => exact fun v hv => Fragment.framedBy_of_mem hv
  | object =>
    intro v hv
    rcases Fragment.mem_subschemas_ofEntries hv with ⟨e, he, rfl⟩ | hv
    · exact Fragment.framedBy_of_mem (List.mem_append_left _ (Fragment.schema_mem_of_mem_slotEntries he))
    · exact Fragment.framedBy_of_mem (List.mem_append_right _ (Option.mem_toList.2 hv))

/-- The rules refer to nothing themselves. -/
theorem Builds.mem_of_reference? (h : g.Builds settings n children parts fragment) {r : String}
    (hr : fragment.reference? = some r) : fragment ∈ parts := by
  cases h with
  | unionOne => exact List.mem_singleton_self _
  | @primitive p _ _ _ hf => cases p <;> cases hf <;> cases hr
  | merged | object => cases (Fragment.reference?_object ..).symm.trans hr
  | _ => cases hr

/-- A reference in the fragment of a rule stands in the fragment of a child. -/
theorem Builds.exists_of_reference? (h : g.Builds settings n children parts fragment)
    (hparts : ∀ v ∈ parts, v.IsMap) {v : Value} {r : String} (hv : fragment.Holds v)
    (hr : v.reference? = some r) : ∃ part ∈ parts, part.Holds v := by
  rcases hv.cases_below with rfl | ⟨u, hu, hv⟩
  · exact ⟨v, h.mem_of_reference? hr, .refl⟩
  · refine (h.framedBy hparts u hu v hv).resolve_left fun hauxiliary => ?_
    cases hauxiliary.reference?_eq_none.symm.trans hr

theorem isMap_cutFragment (n : Node) (name? : Option String) : (cutFragment settings n name?).IsMap := by
  unfold cutFragment
  split
  · split <;> exact ⟨_, rfl⟩
  · exact ⟨_, rfl⟩

/-- A cut fragment holds nothing but itself, and only a node with a name is referred to. -/
theorem eq_of_cutFragment_holds {name? : Option String} {v : Value} {r : String}
    (hv : (cutFragment settings n name?).Holds v) (hr : v.reference? = some r) :
    ∃ name, settings.cycles = .ref ∧ name? = some name ∧ v = Fragment.reference name ∧
      r = "#/definitions/" ++ name := by
  have hcircular : ∀ name, ¬(Fragment.circular name).Holds v := fun name hv => by
    rcases Relation.ReflTransGen.cases_head hv with rfl | ⟨u, hu, -⟩
    · cases hr
    · cases hu
  unfold cutFragment at hv
  split at hv
  · next name =>
    split at hv
    · next hc =>
      rcases Relation.ReflTransGen.cases_head hv with rfl | ⟨u, hu, -⟩
      · exact ⟨name, hc, rfl, rfl, (Option.some.inj hr).symm⟩
      · cases hu
    · exact absurd hv (hcircular _)
  · exact absurd hv (hcircular _)

/-- Every reference in an unfolding is the cut of a node that is reached, lies on a cycle and has a
name. -/
theorem IsUnfolding.exists_of_reference? (h : g.IsUnfolding settings names n fragment) {v : Value}
    {r : String} (hv : fragment.Holds v) (hr : v.reference? = some r) :
    ∃ c name, g.Reaches settings n c ∧ g.OnCycle settings c ∧ settings.cycles = .ref ∧
      names c.id = some name ∧ v = Fragment.reference name ∧ r = "#/definitions/" ++ name := by
  revert hv
  -- that fragments are maps goes along: a list as the item of an array would be read as a tuple
  suffices hs : fragment.IsMap ∧ (fragment.Holds v →
      ∃ c name, g.Reaches settings n c ∧ g.OnCycle settings c ∧ settings.cycles = .ref ∧
        names c.id = some name ∧ v = Fragment.reference name ∧ r = "#/definitions/" ++ name) from hs.2
  refine IsUnfolding.induction (P := fun n fragment => fragment.IsMap ∧ (fragment.Holds v →
    ∃ c name, g.Reaches settings n c ∧ g.OnCycle settings c ∧ settings.cycles = .ref ∧
      names c.id = some name ∧ v = Fragment.reference name ∧ r = "#/definitions/" ++ name)) ?_ h
  intro n children parts fragment hb hparts
  have hmaps : ∀ part ∈ parts, part.IsMap := fun part hpart => by
    obtain ⟨c, -, ⟨hmap, -⟩ | ⟨-, rfl⟩⟩ := exists_left_of_mem_right hparts hpart
    · exact hmap
    · exact isMap_cutFragment ..
  refine ⟨hb.isMap hmaps, fun hv => ?_⟩
  obtain ⟨part, hpart, hv⟩ := hb.exists_of_reference? hmaps hv hr
  obtain ⟨c, hc, hpart⟩ := exists_left_of_mem_right hparts hpart
  have hf : g.Follows settings n c := by
    show c ∈ g.followed settings n
    exact hb.children_eq ▸ hc
  rcases hpart with ⟨-, hfound⟩ | ⟨hcycle, rfl⟩
  · obtain ⟨d, name, hd, hrest⟩ := hfound hv
    exact ⟨d, name, .head hf hd, hrest⟩
  · obtain ⟨name, hcut, hname, hrest⟩ := eq_of_cutFragment_holds hv hr
    exact ⟨c, name, .single hf, hcycle, hcut, hname, hrest⟩

end Graph

end TypeSchema
