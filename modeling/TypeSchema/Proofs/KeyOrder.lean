import Mathlib.Data.List.Forall2
import TypeSchema.Proofs.Rules

/-!
# Values up to the order of keys

`Value.Similar` relates values that differ in the order in which their maps hold their entries, and
in nothing else. Every builder keeps it, and so does the assembling of a plan from similar schemas.
-/

namespace TypeSchema

namespace Value

mutual

/-- Equal up to the order of the entries of maps. -/
inductive Similar : Value → Value → Prop
  | scalar (s : Scalar) : Similar (.scalar s) (.scalar s)
  | list {items items'} : SimilarItems items items' → Similar (.list items) (.list items')
  | map {entries entries'} : SimilarEntries entries entries' → Similar (.map entries) (.map entries')

inductive SimilarItems : List Value → List Value → Prop
  | nil : SimilarItems [] []
  | cons {v v' items items'} : Similar v v' → SimilarItems items items' →
    SimilarItems (v :: items) (v' :: items')

inductive SimilarEntries : List (Scalar × Value) → List (Scalar × Value) → Prop
  | nil : SimilarEntries [] []
  | cons {key v v' entries entries'} : Similar v v' → SimilarEntries entries entries' →
    SimilarEntries ((key, v) :: entries) ((key, v') :: entries')
  | perm {entries moved entries'} : entries.Perm moved → SimilarEntries moved entries' →
    SimilarEntries entries entries'

end

mutual

theorem Similar.refl : ∀ v, Similar v v
  | .scalar s => .scalar s
  | .list items => .list (similarItems_refl items)
  | .map entries => .map (similarEntries_refl entries)

theorem similarItems_refl : ∀ items, SimilarItems items items
  | [] => .nil
  | v :: rest => .cons (Similar.refl v) (similarItems_refl rest)

theorem similarEntries_refl : ∀ entries, SimilarEntries entries entries
  | [] => .nil
  | (_, v) :: rest => .cons (Similar.refl v) (similarEntries_refl rest)

end

theorem similarItems_of_forall₂ {items items' : List Value} (h : List.Forall₂ Similar items items') :
    SimilarItems items items' := by
  induction h with
  | nil => exact .nil
  | cons hv _ ih => exact .cons hv ih

end Value

/-- The same keys in the same order, with related values. -/
def Table.Similar {κ α : Type} (R : α → α → Prop) : Table κ α → Table κ α → Prop :=
  List.Forall₂ fun entry entry' => entry'.1 = entry.1 ∧ R entry.2 entry'.2

namespace Table

variable {κ α : Type} [DecidableEq κ] {R : α → α → Prop} {table table' : Table κ α}

theorem Similar.put (h : Similar R table table') {value value' : α} (hvalue : R value value') (key : κ) :
    Similar R (table.put key value) (table'.put key value') := by
  induction h with
  | nil => exact .cons ⟨rfl, hvalue⟩ .nil
  | @cons entry entry' _ _ he hrest ih =>
    obtain ⟨hkey, hr⟩ := he
    unfold Table.put
    rw [hkey]
    split
    · exact .cons ⟨rfl, hvalue⟩ hrest
    · exact .cons ⟨hkey, hr⟩ ih

theorem Similar.ofEntries (h : Similar R table table') :
    Similar R (ofEntries table) (ofEntries table') := by
  have hfold : ∀ start start' : Table κ α, Similar R start start' →
      Similar R (table.foldl (fun t entry => t.put entry.1 entry.2) start)
        (table'.foldl (fun t entry => t.put entry.1 entry.2) start') := by
    induction h with
    | nil => exact fun _ _ hstart => hstart
    | @cons entry entry' _ _ he _ ih =>
      intro start start' hstart
      rw [List.foldl_cons, List.foldl_cons, he.1]
      exact ih _ _ (hstart.put he.2 entry.1)
  exact hfold [] [] .nil

end Table

namespace Entry

variable {α : Type} {R : α → α → Prop} {entries entries' : List (Entry α)}

/-- The same name, equally optional, and related schemas. -/
structure Similar (R : α → α → Prop) (e e' : Entry α) : Prop where
  name : e'.name = e.name
  optional : e'.optional = e.optional
  schema : R e.schema e'.schema

theorem similar_properties (h : List.Forall₂ (Similar R) entries entries') :
    Table.Similar R (properties entries) (properties entries') := by
  refine Table.Similar.ofEntries ?_
  rw [Table.Similar, List.forall₂_map_left_iff, List.forall₂_map_right_iff]
  exact h.imp fun _ _ he => ⟨he.name, he.schema⟩

theorem required_eq (h : List.Forall₂ (Similar R) entries entries') : required entries' = required entries := by
  induction h with
  | nil => rfl
  | @cons e e' _ _ he _ ih =>
    simp only [required] at ih ⊢
    rw [List.filter_cons, List.filter_cons, he.optional]
    split
    · rw [List.map_cons, List.map_cons, he.name, ih]
    · exact ih

theorem similar_filter (h : List.Forall₂ (Similar R) entries entries') (name : String) :
    List.Forall₂ (Similar R) (entries.filter (·.name = name)) (entries'.filter (·.name = name)) := by
  induction h with
  | nil => exact .nil
  | @cons e e' _ _ he _ ih =>
    rw [List.filter_cons, List.filter_cons, he.name]
    split
    · exact .cons he ih
    · exact ih

theorem map_name_eq (h : List.Forall₂ (Similar R) entries entries') :
    entries'.map (·.name) = entries.map (·.name) := by
  induction h with
  | nil => rfl
  | cons he _ ih => rw [List.map_cons, List.map_cons, he.name, ih]

theorem all_optional_eq (h : List.Forall₂ (Similar R) entries entries') :
    entries'.all (·.optional) = entries.all (·.optional) := by
  induction h with
  | nil => rfl
  | cons he _ ih => rw [List.all_cons, List.all_cons, he.optional, ih]

theorem similar_merge {conjoin : List α → α}
    (hconjoin : ∀ {schemas schemas'}, List.Forall₂ R schemas schemas' → R (conjoin schemas) (conjoin schemas'))
    (h : List.Forall₂ (Similar R) entries entries') :
    List.Forall₂ (Similar R) (merge conjoin entries) (merge conjoin entries') := by
  rw [merge, merge, map_name_eq h, List.forall₂_map_left_iff, List.forall₂_map_right_iff]
  refine List.forall₂_same.2 fun name _ => ?_
  have hfound := similar_filter h name
  refine ⟨rfl, all_optional_eq hfound, hconjoin ?_⟩
  rw [List.forall₂_map_left_iff, List.forall₂_map_right_iff]
  exact hfound.imp fun _ _ he => he.schema

end Entry

/-! ### Builders -/

namespace Fragment

open Value

theorem similar_fields {entries entries' : List (String × Value)}
    (h : Table.Similar Value.Similar entries entries') :
    Value.Similar (.fields entries) (.fields entries') := by
  refine .map ?_
  induction h with
  | nil => exact .nil
  | @cons entry entry' _ _ he _ ih =>
    obtain ⟨name, v⟩ := entry
    obtain ⟨name', v'⟩ := entry'
    obtain ⟨rfl, hv⟩ := he
    exact .cons hv ih

theorem similar_list {items items' : List Value} (h : List.Forall₂ Value.Similar items items') :
    Value.Similar (.list items) (.list items') :=
  .list (similarItems_of_forall₂ h)

theorem similar_object {properties properties' : List (String × Value)}
    (h : Table.Similar Value.Similar properties properties') (required : List String)
    {index index' : Option Value} (hindex : Option.Rel Value.Similar index index') :
    Value.Similar (object properties required index) (object properties' required index') := by
  refine similar_fields (List.rel_append (List.rel_append (List.rel_append ?_ ?_) ?_) ?_)
  · exact .cons ⟨rfl, .refl _⟩ (.cons ⟨rfl, similar_fields h⟩ .nil)
  · exact List.forall₂_same.2 fun _ _ => ⟨rfl, .refl _⟩
  · exact .cons ⟨rfl, .refl _⟩ .nil
  · cases hindex with
    | none => exact .nil
    | some hv => exact .cons ⟨rfl, similar_fields (.cons ⟨rfl, hv⟩ .nil)⟩ .nil

/-- An object of an index alone is an indexable, which names its keys in another order. -/
theorem similar_object_indexable {v v' : Value} (h : v.Similar v') :
    Value.Similar (object [] [] (some v)) (indexable v') := by
  have hperm : [("additionalProperties", Value.bool false), ("properties", .fields []),
      ("type", .text "object"), patternProperties v].Perm
      [("additionalProperties", Value.bool false), patternProperties v, ("properties", .fields []),
        ("type", .text "object")] :=
    .cons _ (List.perm_append_singleton (patternProperties v) [_, _])
  have hindexable : Value.Similar (indexable v) (indexable v') :=
    similar_fields (.cons ⟨rfl, .refl _⟩ (.cons ⟨rfl, similar_fields (.cons ⟨rfl, h⟩ .nil)⟩
      (.cons ⟨rfl, .refl _⟩ (.cons ⟨rfl, .refl _⟩ .nil))))
  cases hindexable with
  | map hentries => exact .map (.perm (hperm.map _) hentries)

end Fragment

namespace Schema

/-- The fragments are equal up to the order of keys. -/
def Similar (s s' : Schema) : Prop := s.render.Similar s'.render

variable {schemas schemas' : List Schema} {s s' : Schema}

theorem Similar.refl (s : Schema) : s.Similar s := Value.Similar.refl _

theorem forall₂_render (h : List.Forall₂ Similar schemas schemas') :
    List.Forall₂ Value.Similar (schemas.map render) (schemas'.map render) := by
  rw [List.forall₂_map_left_iff, List.forall₂_map_right_iff]
  exact h

theorem similar_anyOf (h : List.Forall₂ Similar schemas schemas') :
    Similar (.anyOf schemas) (.anyOf schemas') := by
  simp only [Similar, render, renderAll_eq_map]
  exact Fragment.similar_fields (.cons ⟨rfl, Fragment.similar_list (forall₂_render h)⟩ .nil)

theorem similar_allOf (h : List.Forall₂ Similar schemas schemas') :
    Similar (.allOf schemas) (.allOf schemas') := by
  simp only [Similar, render, renderAll_eq_map]
  exact Fragment.similar_fields (.cons ⟨rfl, Fragment.similar_list (forall₂_render h)⟩ .nil)

theorem similar_conjoin (h : List.Forall₂ Similar schemas schemas') :
    Similar (conjoin schemas) (conjoin schemas') := by
  match h with
  | .nil => exact .refl _
  | .cons hs .nil => exact hs
  | .cons hs (.cons ht hrest) => exact similar_allOf (.cons hs (.cons ht hrest))

theorem similar_array (h : s.Similar s') : Similar (.array s) (.array s') :=
  Fragment.similar_fields (.cons ⟨rfl, .refl _⟩ (.cons ⟨rfl, h⟩ .nil))

theorem similar_tuple (h : List.Forall₂ Similar schemas schemas') :
    Similar (.tuple schemas) (.tuple schemas') := by
  simp only [Similar, render, renderAll_eq_map]
  exact Fragment.similar_fields (.cons ⟨rfl, .refl _⟩
    (.cons ⟨rfl, Fragment.similar_list (forall₂_render h)⟩ .nil))

theorem similar_indexable (h : s.Similar s') : Similar (.indexable s) (.indexable s') :=
  Fragment.similar_fields (.cons ⟨rfl, .refl _⟩ (.cons ⟨rfl, Fragment.similar_fields (.cons ⟨rfl, h⟩ .nil)⟩
    (.cons ⟨rfl, .refl _⟩ (.cons ⟨rfl, .refl _⟩ .nil))))

theorem similar_ofEntries {entries entries' : List (Entry Schema)}
    (h : List.Forall₂ (Entry.Similar Similar) entries entries') {index index' : Option Schema}
    (hindex : Option.Rel Similar index index') :
    Similar (ofEntries entries index) (ofEntries entries' index') := by
  simp only [Similar, ofEntries, render, renderProperties_eq_map, renderIndex_eq_map, Entry.required_eq h]
  refine Fragment.similar_object ?_ _ ?_
  · rw [Table.Similar, List.forall₂_map_left_iff, List.forall₂_map_right_iff]
    exact Entry.similar_properties h
  · cases hindex with
    | none => exact .none
    | some hs => exact .some hs

end Schema

end TypeSchema
