import TypeSchema.Proofs.History

/-!
# What unions accept

A union of several constituents is regrouped: its literals become one enum, `true` with `false` the
type of booleans, and the others are options. Whatever it is that fragments mean, as long as enums,
booleans and `anyOf` mean what they do in JSON Schema, the regrouped fragment accepts what some
constituent accepts: `Graph.Builds.accepts_union_iff`, and for the calls of a machine
`Machine.Call.Occurs.union_accepts_iff`. Only a `Graph.Hollow` union lists nothing.
-/

namespace TypeSchema

/-- Which values a fragment accepts. Enums, the type of booleans and `anyOf` have the meaning that JSON
Schema gives them, with some equality of values by which only a boolean is equal to that boolean; all
other fragments may have any meaning. -/
structure Acceptance where
  accepts : Value → Value → Prop
  equal : Value → Value → Prop
  equal_bool : ∀ v b, equal v (.bool b) ↔ v = .bool b
  enum : ∀ values v, accepts (Fragment.enum values) v ↔ ∃ value ∈ values, equal v value
  boolean : ∀ v, accepts (Fragment.typed "boolean") v ↔ ∃ b, v = .bool b
  anyOf : ∀ options v, accepts (Fragment.anyOf options) v ↔ ∃ option ∈ options, accepts option v

/-- What is accepted by the three rules alone, values being equal when they are the same. -/
inductive Fragment.Admits : Value → Value → Prop
  | enum {values v} : v ∈ values → Admits (Fragment.enum values) v
  | boolean (b) : Admits (Fragment.typed "boolean") (.bool b)
  | anyOf {options option v} : option ∈ options → Admits option v → Admits (Fragment.anyOf options) v

/-- The least acceptance: no other fragment accepts anything. -/
def Acceptance.least : Acceptance where
  accepts := Fragment.Admits
  equal := Eq
  equal_bool _ _ := .rfl
  enum values v := by
    refine ⟨fun h => ?_, fun ⟨value, hmem, heq⟩ => .enum (heq ▸ hmem)⟩
    generalize hf : Fragment.enum values = f at h
    cases h with
    | enum hmem =>
      obtain rfl : values = _ := by simpa [Fragment.enum, Value.fields] using hf
      exact ⟨v, hmem, rfl⟩
    | boolean | anyOf => simp [Fragment.enum, Fragment.typed, Fragment.anyOf, Value.fields] at hf
  boolean v := by
    refine ⟨fun h => ?_, fun ⟨b, hb⟩ => hb ▸ .boolean b⟩
    generalize hf : Fragment.typed "boolean" = f at h
    cases h with
    | boolean b => exact ⟨b, rfl⟩
    | enum | anyOf => simp [Fragment.enum, Fragment.typed, Fragment.anyOf, Value.fields] at hf
  anyOf options v := by
    refine ⟨fun h => ?_, fun ⟨option, hmem, haccepts⟩ => .anyOf hmem haccepts⟩
    generalize hf : Fragment.anyOf options = f at h
    cases h with
    | anyOf hmem hadmits =>
      obtain rfl : options = _ := by simpa [Fragment.anyOf, Value.fields] using hf
      exact ⟨_, hmem, hadmits⟩
    | enum | boolean => simp [Fragment.enum, Fragment.typed, Fragment.anyOf, Value.fields] at hf

namespace Schema

theorem eq_of_render_enum {schema : Schema} (h : schema.render = Fragment.enum []) : schema = .enum [] := by
  cases schema with
  | enum values => simpa [render, Fragment.enum, Value.fields] using h
  | _ => simp [render, Fragment.any, Fragment.typed, Fragment.never, Fragment.enum, Fragment.array,
      Fragment.tuple, Fragment.object, Fragment.indexable, Fragment.generic, Fragment.anyOf, Fragment.allOf,
      Fragment.date, Fragment.reference, Fragment.circular, Value.fields] at h

theorem anyOf_of_render {schema : Schema} {fragments : List Value} (h : schema.render = Fragment.anyOf fragments) :
    ∃ options, schema = .anyOf options ∧ options.map render = fragments := by
  cases schema with
  | anyOf options => exact ⟨options, rfl, by simpa [render, renderAll_eq_map, Fragment.anyOf, Value.fields] using h⟩
  | _ => simp [render, Fragment.any, Fragment.typed, Fragment.never, Fragment.enum, Fragment.array,
      Fragment.tuple, Fragment.object, Fragment.indexable, Fragment.generic, Fragment.anyOf, Fragment.allOf,
      Fragment.date, Fragment.reference, Fragment.circular, Value.fields] at h

end Schema

namespace Graph

variable {g : Graph} {settings : ResolverSettings} {n t : Node}

/-! ### Literals -/

theorem shownLiterals_of_isBooleanPair (h : Node.isBooleanPair (g.definedConstituents n)) :
    g.hasBoolean n ∧ g.shownLiterals n = [] := by
  generalize hc : g.definedConstituents n = cs at h
  unfold Node.isBooleanPair at h
  split at h
  · next a b =>
    simp only [Bool.and_eq_true, Bool.or_eq_true] at h
    obtain ⟨⟨ha, hb⟩, hpair⟩ := h
    have hboolean : g.hasBoolean n := by
      rcases hpair with ⟨htrue, hfalse⟩ | ⟨htrue, hfalse⟩ <;>
        simp [hasBoolean, hc, ha, hb, htrue, hfalse]
    refine ⟨hboolean, ?_⟩
    rcases hpair with ⟨htrue, hfalse⟩ | ⟨htrue, hfalse⟩ <;>
      simp [shownLiterals, hboolean, hc, ha, hb, htrue, hfalse]
  · cases h

/-- The literals that are not listed are `true` and `false`, which make the union boolean. -/
theorem mem_shownLiterals_or (hmem : t ∈ g.definedConstituents n) (hlit : t.isLiteral) :
    t ∈ g.shownLiterals n ∨ g.hasBoolean n ∧ (t.isLiteralTrue ∨ t.isLiteralFalse) := by
  have hfilter := List.mem_filter.2 ⟨hmem, hlit⟩
  by_cases hb : g.hasBoolean n
  · by_cases htrue : t.isLiteralTrue
    · exact .inr ⟨hb, .inl htrue⟩
    by_cases hfalse : t.isLiteralFalse
    · exact .inr ⟨hb, .inr hfalse⟩
    left
    simp only [shownLiterals, hb, ↓reduceIte]
    exact List.mem_filter.2 ⟨hfilter, by simp [htrue, hfalse]⟩
  · left
    simpa only [shownLiterals, if_neg hb] using hfilter

/-- The fragments of the constituents that count: a literal has its value alone. -/
def FragmentsOf (g : Graph) (n : Node) (frag : Node → Value) : Prop :=
  ∀ t ∈ g.definedConstituents n, t.isLiteral →
    ∃ value, t.literalValue = .ok value ∧ frag t = Fragment.enum [value.toValue]

section Accepts

variable (A : Acceptance) {v : Value} {frag : Node → Value} {values : List LiteralValue}

theorem accepts_literal_iff {value : LiteralValue} (hfrag : frag t = Fragment.enum [value.toValue]) :
    A.accepts (frag t) v ↔ A.equal v value.toValue := by
  rw [hfrag, A.enum]
  simp

/-- The literals together accept the listed values, and the booleans if they make the union boolean. -/
theorem accepts_literals_iff (hfrag : g.FragmentsOf n frag) (hvalues : Values (g.shownLiterals n) values) :
    (∃ t ∈ g.definedConstituents n, t.isLiteral ∧ A.accepts (frag t) v) ↔
      (g.hasBoolean n ∧ ∃ b, v = .bool b) ∨ ∃ value ∈ values, A.equal v value.toValue := by
  constructor
  · rintro ⟨t, hmem, hlit, haccepts⟩
    obtain ⟨value, hvalue, ht⟩ := hfrag t hmem hlit
    rw [accepts_literal_iff A ht] at haccepts
    rcases mem_shownLiterals_or hmem hlit with hshown | ⟨hb, htrue | hfalse⟩
    · obtain ⟨value', hvalue', heq⟩ := exists_right_of_mem_left hvalues hshown
      cases hvalue.symm.trans heq
      exact .inr ⟨value, hvalue', haccepts⟩
    · cases hvalue.symm.trans (Node.literalValue_of_isLiteralTrue htrue)
      exact .inl ⟨hb, true, (A.equal_bool v true).1 haccepts⟩
    · cases hvalue.symm.trans (Node.literalValue_of_isLiteralFalse hfalse)
      exact .inl ⟨hb, false, (A.equal_bool v false).1 haccepts⟩
  · have hbool {t : Node} {b : Bool} (hmem : t ∈ (g.definedConstituents n).filter Node.isLiteral)
        (hvalue : t.literalValue = .ok (.bool b)) :
        ∃ t ∈ g.definedConstituents n, t.isLiteral ∧ A.accepts (frag t) (.bool b) := by
      obtain ⟨hmem, hlit⟩ := List.mem_filter.1 hmem
      obtain ⟨value, hvalue', ht⟩ := hfrag t hmem hlit
      cases hvalue.symm.trans hvalue'
      exact ⟨t, hmem, hlit, (accepts_literal_iff A ht).2 ((A.equal_bool _ b).2 rfl)⟩
    rintro (⟨hb, b, rfl⟩ | ⟨value, hmem, hequal⟩)
    · simp only [hasBoolean, Bool.and_eq_true, List.any_eq_true] at hb
      obtain ⟨⟨t, ht, htrue⟩, ⟨f, hf, hfalse⟩⟩ := hb
      cases b with
      | true => exact hbool ht (Node.literalValue_of_isLiteralTrue htrue)
      | false => exact hbool hf (Node.literalValue_of_isLiteralFalse hfalse)
    · obtain ⟨t, hshown, hvalue⟩ := exists_left_of_mem_right hvalues hmem
      obtain ⟨hmem, hlit⟩ := mem_of_mem_shownLiterals hshown
      obtain ⟨value', hvalue', ht⟩ := hfrag t hmem hlit
      cases hvalue.symm.trans hvalue'
      exact ⟨t, hmem, hlit, (accepts_literal_iff A ht).2 hequal⟩

/-- Of the options of a regrouped union, the values are one and each of the others is one. -/
theorem accepts_options_iff (boolean : Bool) (others : List Node) :
    (∃ option ∈ (if boolean then [Fragment.typed "boolean"] else []) ++
        (if values.isEmpty then [] else [Fragment.enum (values.map LiteralValue.toValue)]) ++ others.map frag,
      A.accepts option v) ↔
      ((boolean ∧ ∃ b, v = .bool b) ∨ ∃ value ∈ values, A.equal v value.toValue) ∨
        ∃ t ∈ others, A.accepts (frag t) v := by
  have hboolean : (∃ option ∈ if boolean then [Fragment.typed "boolean"] else [], A.accepts option v) ↔
      boolean ∧ ∃ b, v = .bool b := by
    cases boolean <;> simp [A.boolean]
  have henum : (∃ option ∈ if values.isEmpty then [] else [Fragment.enum (values.map LiteralValue.toValue)],
      A.accepts option v) ↔ ∃ value ∈ values, A.equal v value.toValue := by
    cases values <;> simp [A.enum]
  have hothers : (∃ option ∈ others.map frag, A.accepts option v) ↔ ∃ t ∈ others, A.accepts (frag t) v := by
    simp only [List.mem_map, exists_exists_and_eq_and]
  simp only [List.mem_append, or_and_right, exists_or, hboolean, henum, hothers]

/-! ### Unions -/

/-- A union accepts what some constituent accepts, however they are grouped. -/
theorem Builds.accepts_union_iff {children : List Node} {fragment : Value}
    (h : g.Builds settings n children (children.map frag) fragment) (hs : g.shape? n = some .union)
    (hne : g.definedConstituents n ≠ []) (hfrag : g.FragmentsOf n frag) :
    A.accepts fragment v ↔ ∃ t ∈ g.definedConstituents n, A.accepts (frag t) v := by
  -- literals and others apart
  have hsplit : (∃ t ∈ g.definedConstituents n, A.accepts (frag t) v) ↔
      (∃ t ∈ g.definedConstituents n, t.isLiteral ∧ A.accepts (frag t) v) ∨
        ∃ t ∈ (g.definedConstituents n).filter (!·.isLiteral), A.accepts (frag t) v := by
    constructor
    · rintro ⟨t, hmem, haccepts⟩
      by_cases hlit : t.isLiteral
      · exact .inl ⟨t, hmem, hlit, haccepts⟩
      · exact .inr ⟨t, List.mem_filter.2 ⟨hmem, by simpa using hlit⟩, haccepts⟩
    · rintro (⟨t, hmem, -, haccepts⟩ | ⟨t, hmem, haccepts⟩)
      · exact ⟨t, hmem, haccepts⟩
      · exact ⟨t, (List.mem_filter.1 hmem).1, haccepts⟩
  generalize hparts : children.map frag = parts at h
  cases h with
  | unionNone _ hnil => exact absurd hnil hne
  | unionOne _ hone =>
    cases hparts
    simp [hone]
  | unionBoolean _ hpair =>
    obtain ⟨hboolean, hshown⟩ := shownLiterals_of_isBooleanPair hpair
    have hvalues : Values (g.shownLiterals n) [] := hshown ▸ .nil
    rw [hsplit, accepts_literals_iff A hfrag hvalues, (filter_not_isLiteral_of_isBooleanPair hpair).1, A.boolean]
    simp [hboolean]
  | @unionEnum values _ _ hall hboolean hvalues =>
    have hnil : (g.definedConstituents n).filter (!·.isLiteral) = [] :=
      List.filter_eq_nil_iff.2 fun c hc => by simpa using List.all_eq_true.1 hall c hc
    rw [hsplit, accepts_literals_iff A hfrag hvalues, hnil, A.enum]
    simp [hboolean]
  | @unionAnyOf values parts _ _ _ _ hvalues =>
    subst hparts
    rw [hsplit, accepts_literals_iff A hfrag hvalues, A.anyOf, accepts_options_iff]
  | enum hs' | literal hs' | primitive hs' | generic hs' | allOf hs' | merged hs' | arrayAny hs' | array hs'
  | tuple hs' | date hs' | indexable hs' => cases hs.symm.trans hs'
  | object hs' =>
    rcases hs' with hs' | ⟨hs', -⟩ <;> cases hs.symm.trans hs'

end Accepts

/-! ### Lists that are empty -/

/-- An enum without members, or a union of one that leads to such an enum. -/
inductive Hollow (g : Graph) : Node → Prop
  | enum {n : Node} : g.shape? n = some .enum → g.constituents n = [] → Hollow g n
  | union {n t : Node} : g.shape? n = some .union → g.definedConstituents n = [t] → Hollow g t → Hollow g n

/-- A union with a hollow constituent, or a union of one that leads to such a union. -/
inductive HasHollow (g : Graph) : Node → Prop
  | constituent {n t : Node} : g.shape? n = some .union → t ∈ g.definedConstituents n → Hollow g t → HasHollow g n
  | union {n t : Node} : g.shape? n = some .union → g.definedConstituents n = [t] → HasHollow g t → HasHollow g n

/-- The schema of the node is not an enum or `anyOf` of nothing, unless the node is hollow, and no option
is an enum of nothing, unless a constituent is hollow. -/
structure Lists (g : Graph) (n : Node) (schema : Schema) : Prop where
  hollow : schema = .enum [] → g.Hollow n
  ne_anyOf : schema ≠ .anyOf []
  hasHollow : ∀ options, schema = .anyOf options → .enum [] ∈ options → g.HasHollow n

theorem Lists.of_ne {schema : Schema} (henum : schema ≠ .enum []) (hany : ∀ options, schema ≠ .anyOf options) :
    g.Lists n schema :=
  ⟨fun h => absurd h henum, hany [], fun options h => absurd h (hany options)⟩

/-- The same of the fragment. -/
theorem Lists.render {schema : Schema} (h : g.Lists n schema) :
    (schema.render = Fragment.enum [] → g.Hollow n) ∧ schema.render ≠ Fragment.anyOf [] ∧
      ∀ options, schema.render = Fragment.anyOf options → Fragment.enum [] ∈ options → g.HasHollow n := by
  refine ⟨fun hrender => h.hollow (Schema.eq_of_render_enum hrender), fun hrender => ?_, fun options hrender hmem => ?_⟩
  · obtain ⟨options, hschema, hnil⟩ := Schema.anyOf_of_render hrender
    exact h.ne_anyOf (List.map_eq_nil_iff.1 hnil ▸ hschema)
  · obtain ⟨options, hschema, rfl⟩ := Schema.anyOf_of_render hrender
    obtain ⟨option, hoption, hempty⟩ := List.mem_map.1 hmem
    exact h.hasHollow options hschema (Schema.eq_of_render_enum hempty ▸ hoption)

/-- Of no listed literals and no others, only the two booleans are left. -/
theorem hasBoolean_of_nothing_else (ht : t ∈ g.definedConstituents n) (hshown : g.shownLiterals n = [])
    (hothers : (g.definedConstituents n).filter (!·.isLiteral) = []) : g.hasBoolean n := by
  have hlit : t.isLiteral := by simpa using List.filter_eq_nil_iff.1 hothers t ht
  refine ((mem_shownLiterals_or ht hlit).resolve_left fun hmem => ?_).1
  rw [hshown] at hmem
  cases hmem

/-- The options are the booleans, the listed literals if there are any, and the others. -/
theorem lists_anyOf (hs : g.shape? n = some .union) (ht : t ∈ g.definedConstituents n)
    {values : List LiteralValue} (hvalues : Values (g.shownLiterals n) values) {parts : List Schema}
    (hparts : List.Forall₂ g.Lists ((g.definedConstituents n).filter (!·.isLiteral)) parts) :
    g.Lists n (.anyOf ((if g.hasBoolean n then [.typed "boolean"] else []) ++
      (if (g.shownLiterals n).isEmpty then [] else [.enum values]) ++ parts)) where
  hollow := by rintro ⟨⟩
  ne_anyOf hschema := by
    obtain ⟨hfixed, rfl⟩ := List.append_eq_nil_iff.1 (Schema.anyOf.inj hschema)
    obtain ⟨hboolean, hshown⟩ := List.append_eq_nil_iff.1 hfixed
    have htrue := hasBoolean_of_nothing_else ht (by simpa using hshown) (List.forall₂_nil_right_iff.1 hparts)
    rw [if_pos htrue] at hboolean
    cases hboolean
  hasHollow options hschema hmem := by
    rw [← Schema.anyOf.inj hschema, List.mem_append, List.mem_append] at hmem
    rcases hmem with (hboolean | hvalued) | hpart
    · split at hboolean <;> simp at hboolean
    · split at hvalued
      · cases hvalued
      · next hshown =>
        obtain rfl : values = [] := by simpa using hvalued
        exact absurd (List.isEmpty_iff.2 (List.forall₂_nil_right_iff.1 hvalues)) hshown
    · obtain ⟨t, ht, hlists⟩ := exists_left_of_mem_right hparts hpart
      exact .constituent hs (List.mem_filter.1 ht).1 (hlists.hollow rfl)

theorem lists_of_unionPlan {p : Plan} {schemas : List Schema} (hs : g.shape? n = some .union)
    (h : g.unionPlan n = .ok p)
    (hparts : List.Forall₂ (fun e part => g.Lists e.target part) p.edges schemas) :
    g.Lists n (p.assemble schemas) := by
  rcases hdefined : g.definedConstituents n with _ | ⟨c, _ | ⟨d, rest⟩⟩
  · cases (unionPlan_of_nil hdefined).symm.trans h
    exact .of_ne (by rintro ⟨⟩) (by rintro _ ⟨⟩)
  · cases (unionPlan_of_singleton hdefined).symm.trans h
    cases hparts with
    | cons hpart hnil =>
      cases hnil
      exact ⟨fun hschema => .union hs hdefined (hpart.hollow hschema), hpart.ne_anyOf,
        fun options hschema hmem => .union hs hdefined (hpart.hasHollow options hschema hmem)⟩
  have hc : c ∈ g.definedConstituents n := by simp [hdefined]
  rw [unionPlan_eq (by simp [hdefined])] at h
  split at h
  · cases h
    exact .of_ne (by rintro ⟨⟩) (by rintro _ ⟨⟩)
  obtain ⟨values, hvalues, rfl⟩ := map_eq_ok h
  have hvalues := mapM_eq_ok_iff.1 hvalues
  split at hparts
  · next hall =>
    rw [if_pos hall]
    simp only [Bool.and_eq_true, List.isEmpty_iff, Bool.not_eq_true'] at hall
    refine .of_ne (fun hschema => ?_) (by rintro _ ⟨⟩)
    cases hschema
    have htrue := hasBoolean_of_nothing_else hc (List.forall₂_nil_right_iff.1 hvalues) hall.1
    cases hall.2.symm.trans htrue
  · next hall =>
    rw [if_neg hall]
    rw [Plan.edges, List.forall₂_map_left_iff] at hparts
    exact lists_anyOf hs hc hvalues hparts

/-- Plans list nothing only where a node is hollow. -/
theorem lists_of_plan {p : Plan} {schemas : List Schema} (h : g.plan settings n = .ok p)
    (hparts : List.Forall₂ (fun e part => g.Lists e.target part) p.edges schemas) :
    g.Lists n (p.assemble schemas) := by
  obtain ⟨shape, hshape, h⟩ := bind_eq_ok h
  have hs := shape?_of_shapeOf hshape
  cases shape with
  | enum =>
    simp only [planOf, enumPlan] at h
    split at h
    · cases h
    obtain ⟨values, hvalues, rfl⟩ := map_eq_ok h
    refine ⟨fun hschema => .enum hs ?_, by rintro ⟨⟩, by rintro _ ⟨⟩⟩
    cases hschema
    exact List.forall₂_nil_right_iff.1 (mapM_eq_ok_iff.1 hvalues)
  | literal =>
    obtain ⟨value, -, rfl⟩ := map_eq_ok h
    exact .of_ne (by rintro ⟨⟩) (by rintro _ ⟨⟩)
  | bigIntLiteral | function => cases h
  | primitive =>
    simp only [planOf] at h
    split at h
    · cases h
    next prim _ =>
    split at h
    · next schema hschema =>
      cases h
      cases prim <;> cases hschema <;> exact .of_ne (by rintro ⟨⟩) (by rintro _ ⟨⟩)
    · cases h
  | union => exact lists_of_unionPlan hs h hparts
  | intersection =>
    obtain ⟨mergeable, -, h⟩ := bind_eq_ok h
    split at h <;> cases h <;> exact .of_ne (by rintro ⟨⟩) (by rintro _ ⟨⟩)
  | generic | array | tuple | object =>
    cases h
    exact .of_ne (by rintro ⟨⟩) (by rintro _ ⟨⟩)
  | date =>
    simp only [planOf] at h
    split at h <;> cases h <;> exact .of_ne (by rintro ⟨⟩) (by rintro _ ⟨⟩)
  | indexable =>
    simp only [planOf] at h
    split at h <;> cases h
    exact .of_ne (by rintro ⟨⟩) (by rintro _ ⟨⟩)

end Graph

theorem map_eq_map_of_forall₂ {α β γ : Type} {R : α → β → Prop} {f : β → γ} {k : α → γ} {xs : List α}
    {ys : List β} (h : List.Forall₂ R xs ys) (hR : ∀ x ∈ xs, ∀ y, R x y → f y = k x) :
    ys.map f = xs.map k := by
  induction h with
  | nil => rfl
  | @cons x y xs ys hxy _ ih =>
    obtain ⟨hx, hxs⟩ := List.forall_mem_cons.1 hR
    rw [List.map_cons, List.map_cons, hx y hxy, ih hxs]

namespace Machine.Call

variable {g : Graph} {settings : ResolverSettings} {requests : List Request} {c c₀ : Call} {t : Node}
  {m' : Machine} {schema : Schema}

/-- The fragment of a constituent, as the call of its union has it: a literal stands for its value, and
for all others it is what the call was returned. -/
inductive Yields (g : Graph) (settings : ResolverSettings) (c : Call) (t : Node) : Value → Prop
  | literal {value} : t.isLiteral → t.literalValue = .ok value →
    Yields g settings c t (Fragment.enum [value.toValue])
  | other {s} : ¬t.isLiteral → c.Returns g settings t s → Yields g settings c t s.render

theorem Makes.yields_unique {fragment fragment' : Value} (hmakes : c.Makes g settings schema)
    (h : c.Yields g settings t fragment) (h' : c.Yields g settings t fragment') : fragment = fragment' := by
  cases h with
  | literal hlit hvalue =>
    cases h' with
    | literal _ hvalue' =>
      cases hvalue.symm.trans hvalue'
      rfl
    | other hnot => exact absurd hlit hnot
  | other hnot hs =>
    cases h' with
    | literal hlit => exact absurd hlit hnot
    | other _ hs' => rw [hmakes.returns_unique hs hs']

section Within

variable (hg : g.Closed) (hwithin : ∀ q ∈ requests, q.Within g)
include hg hwithin

/-- A literal follows nothing, so it is never met while it is being resolved, and what is returned for
it is its value. -/
theorem Occurs.returns_literal (hc : c.Occurs g settings requests) (hs : g.shape? t = some .literal)
    (h : c.Returns g settings t schema) : ∃ value, t.literalValue = .ok value ∧ schema = .enum [value] := by
  obtain ⟨c', m', hasks, rfl, hanswer⟩ := h
  have hc' := hc.asks hasks
  have hmem := hc'.mem_nodes hwithin
  have hstage : c'.machine.stage? c'.node.id ≠ some .resolving := by
    intro hstage
    obtain ⟨c₁, c₂, hc₁, hasks₁, hid⟩ := hc'.exists_asks hg hwithin hstage
    have hfollows := hasks₁.follows
    rw [hg.eq_of_id_eq (hc₁.mem_nodes hwithin) hmem hid] at hfollows
    simp [Graph.Follows, Graph.followed, hs] at hfollows
  obtain ⟨c₁, hc₁, hid, hmakes⟩ := hc'.exists_makes hstage hanswer
  obtain ⟨p, schemas, hp, rfl, -⟩ := hmakes.exists_plan
  rw [hg.eq_of_id_eq (hc₁.mem_nodes hwithin) hmem hid, Graph.plan_of_shape? hs] at hp
  obtain ⟨value, hvalue, rfl⟩ := map_eq_ok hp
  exact ⟨value, hvalue, rfl⟩

theorem Occurs.yields_of_returns (hc : c.Occurs g settings requests)
    (hlit : t.isLiteral → g.shape? t = some .literal) (h : c.Returns g settings t schema) :
    c.Yields g settings t schema.render := by
  by_cases hliteral : t.isLiteral
  · obtain ⟨value, hvalue, rfl⟩ := hc.returns_literal hg hwithin (hlit hliteral) h
    exact .literal hliteral hvalue
  · exact .other hliteral h

theorem Occurs.lists (hc : c.Occurs g settings requests)
    (hanswer : c.answer g settings = some (.ok schema, m')) : g.Lists c.node schema := by
  refine (hc.traces hanswer).holds hg (fun c hc => hc.mem_nodes hwithin) (fun n name? => ?_)
    (fun n p schemas => Graph.lists_of_plan) (hc.mem_nodes hwithin)
  unfold Resolve.cutSchema
  split <;> exact .of_ne (by rintro ⟨⟩) (by rintro _ ⟨⟩)

/-- In the call that makes the schema of a union every constituent has one fragment. -/
theorem Occurs.existsUnique_yields (hc : c.Occurs g settings requests) (hmakes : c.Makes g settings schema)
    (hs : g.shape? c.node = some .union) (ht : t ∈ g.definedConstituents c.node)
    (hlit : t.isLiteral → g.shape? t = some .literal) : ∃! fragment, c.Yields g settings t fragment := by
  refine existsUnique_of_exists_of_unique ?_ fun _ _ => hmakes.yields_unique
  obtain ⟨p, schemas, hplan, -, hreturns⟩ := hmakes.exists_plan
  by_cases hmem : t ∈ g.unionFollowed c.node
  · have htarget : t ∈ p.edges.map (·.target) := by
      rw [Graph.targets_of_plan hplan, Graph.followed, hs]
      exact hmem
    obtain ⟨e, he, rfl⟩ := List.mem_map.1 htarget
    obtain ⟨part, -, hpart⟩ := exists_right_of_mem_left hreturns he
    exact ⟨part.render, hc.yields_of_returns hg hwithin hlit ((hpart part).2 rfl)⟩
  · -- a literal of several is not asked for, but the plan had its value
    have hliteral : t.isLiteral := by
      by_contra hnot
      exact hmem (Graph.mem_unionFollowed_of_not_isLiteral ht hnot)
    have hlen : 2 ≤ (g.definedConstituents c.node).length := by
      rcases hdefined : g.definedConstituents c.node with _ | ⟨t', _ | ⟨t'', rest⟩⟩
      · simp [hdefined] at ht
      · simp [Graph.unionFollowed, hdefined] at hmem ht
        exact absurd ht hmem
      · simp
    have hvalue : ¬t.LacksValue := fun hlacks =>
      Graph.not_faulty_iff.2 ⟨p, hplan⟩ (Graph.Unrepresentable.union hs hlen ht hliteral hlacks).faulty
    obtain ⟨value, hvalue⟩ := Node.exists_literalValue_iff.2 hvalue
    exact ⟨_, .literal hliteral hvalue⟩

/-- A union accepts what one of the fragments accepts that its constituents have in the call that makes
its schema. -/
theorem Occurs.accepts_iff_of_makes (hc : c.Occurs g settings requests) (hmakes : c.Makes g settings schema)
    (hs : g.shape? c.node = some .union) (hne : g.definedConstituents c.node ≠ [])
    (hlit : ∀ t ∈ g.definedConstituents c.node, t.isLiteral → g.shape? t = some .literal)
    (A : Acceptance) (v : Value) :
    A.accepts schema.render v ↔
      ∃ t ∈ g.definedConstituents c.node, ∃ fragment, c.Yields g settings t fragment ∧ A.accepts fragment v := by
  have hyields : ∀ t ∈ g.definedConstituents c.node, ∃! fragment, c.Yields g settings t fragment :=
    fun t ht => hc.existsUnique_yields hg hwithin hmakes hs ht (hlit t ht)
  choose! frag hfrag using fun t ht => (hyields t ht).exists
  obtain ⟨p, schemas, hplan, rfl, hreturns⟩ := id hmakes.exists_plan
  have hparts : schemas.map Schema.render = (p.edges.map (·.target)).map frag := by
    rw [List.map_map]
    refine map_eq_map_of_forall₂ hreturns fun e he part hpart => ?_
    have ht : e.target ∈ g.definedConstituents c.node := by
      refine Graph.mem_definedConstituents_of_mem_unionFollowed ?_
      have hfollows := Graph.follows_of_mem_edges hplan e he
      rwa [Graph.Follows, Graph.followed, hs] at hfollows
    have hreturned := hc.yields_of_returns hg hwithin (hlit _ ht) ((hpart part).2 rfl)
    exact hmakes.yields_unique hreturned (hfrag _ ht)
  have hvalues : g.FragmentsOf c.node frag := by
    intro t ht hliteral
    generalize hf : frag t = fragment
    cases hf ▸ hfrag t ht with
    | literal _ hvalue => exact ⟨_, hvalue, rfl⟩
    | other hnot => exact absurd hliteral hnot
  have hbuilds := Graph.obeys_of_plan hplan schemas hreturns.length_eq.symm
  rw [hparts] at hbuilds
  rw [hbuilds.accepts_union_iff A hs hne hvalues]
  refine exists_congr fun t => and_congr_right fun ht => ⟨fun h => ⟨frag t, hfrag t ht, h⟩, ?_⟩
  rintro ⟨fragment, hfragment, h⟩
  rwa [hmakes.yields_unique hfragment (hfrag t ht)] at h

/-- Unless a union is being resolved and cut, whatever call returns its schema, some call made it, and in
that call the constituents have one fragment each, such that the union accepts what one of these
fragments accepts. It is no enum or `anyOf` of nothing, unless the union is hollow, and no option of it is
an enum of nothing, unless a constituent is hollow. -/
theorem Occurs.union_accepts_iff (hc : c.Occurs g settings requests)
    (hs : g.shape? c.node = some .union) (hne : g.definedConstituents c.node ≠ [])
    (hlit : ∀ t ∈ g.definedConstituents c.node, t.isLiteral → g.shape? t = some .literal)
    (hanswer : c.answer g settings = some (.ok schema, m')) :
    ((c.machine.stage? c.node.id = some .resolving ∧
        schema = Resolve.cutSchema settings c.node (c.machine.name? c.node.id)) ∨
      ∃ c₀ : Call, c₀.Occurs g settings requests ∧ c₀.node = c.node ∧ c₀.Makes g settings schema ∧
        (∀ t ∈ g.definedConstituents c.node, ∃! fragment, c₀.Yields g settings t fragment) ∧
        ∀ (A : Acceptance) (v : Value), A.accepts schema.render v ↔
          ∃ t ∈ g.definedConstituents c.node, ∃ fragment,
            c₀.Yields g settings t fragment ∧ A.accepts fragment v) ∧
      (schema.render = Fragment.enum [] → g.Hollow c.node) ∧ schema.render ≠ Fragment.anyOf [] ∧
      ∀ options, schema.render = Fragment.anyOf options → Fragment.enum [] ∈ options → g.HasHollow c.node := by
  refine ⟨?_, (hc.lists hg hwithin hanswer).render⟩
  by_cases hstage : c.machine.stage? c.node.id = some .resolving
  · left
    obtain ⟨calls, n, m⟩ := c
    cases visit_of_resolve hanswer with
    | cut => exact ⟨hstage, rfl⟩
    | cached hresolved => cases hstage.symm.trans hresolved
    | done hnone => cases hstage.symm.trans hnone
  · right
    obtain ⟨c₀, hc₀, hid, hmakes⟩ := hc.exists_makes hstage hanswer
    have hnode := hg.eq_of_id_eq (hc₀.mem_nodes hwithin) (hc.mem_nodes hwithin) hid
    rw [← hnode] at hs hne hlit ⊢
    exact ⟨c₀, hc₀, rfl, hmakes, fun t ht => hc₀.existsUnique_yields hg hwithin hmakes hs ht (hlit t ht),
      hc₀.accepts_iff_of_makes hg hwithin hmakes hs hne hlit⟩

end Within

end Machine.Call

/-! ### A union of many, and one of a single enum -/

/-- A setting is `"auto"`, a number or a boolean, and it may be left out. -/
def Node.setting : Node :=
  { plain 1 TypeFlag.union "Setting" [] with types := [2, 3, 4, 5, 6] }

def Graph.setting : Graph where
  nodes := [.setting, .plain 2 TypeFlag.undefined "undefined" [],
    { Node.plain 3 TypeFlag.booleanLiteral "true" [] with intrinsicName := some "true" },
    { Node.plain 4 TypeFlag.stringLiteral "auto" [] with value := some (.text "auto") },
    .plain 5 TypeFlag.number "number" [],
    { Node.plain 6 TypeFlag.booleanLiteral "false" [] with intrinsicName := some "false" }]
  declarations := []

theorem Graph.closed_setting : setting.Closed := ⟨by decide, by decide, by decide⟩

namespace Machine.Call

/-- The two booleans are one option, and the text and the number are one each. -/
theorem setting_accepts_iff :
    ∃ c₀ : Call, c₀.Makes Graph.setting {} (.anyOf [.typed "boolean", .enum [.text "auto"], .typed "number"]) ∧
      ∀ v, Fragment.Admits (Fragment.anyOf [Fragment.typed "boolean", Fragment.enum [.text "auto"],
          Fragment.typed "number"]) v ↔
        ∃ t ∈ Graph.setting.definedConstituents .setting, ∃ fragment,
          c₀.Yields Graph.setting {} t fragment ∧ Fragment.Admits fragment v := by
  have hwithin : ∀ q ∈ [Request.node .setting], q.Within Graph.setting := by
    simp [Request.Within, Request.target?]
    decide
  have hoccurs : Occurs Graph.setting {} [.node .setting] ⟨128, .setting, {}⟩ :=
    ⟨[], .node .setting, [], {}, _, rfl, rfl, rfl, .refl⟩
  have hanswer : ∃ m', answer Graph.setting {} ⟨128, .setting, {}⟩ =
      some (.ok (.anyOf [.typed "boolean", .enum [.text "auto"], .typed "number"]), m') := ⟨_, rfl⟩
  obtain ⟨m', hanswer⟩ := hanswer
  obtain ⟨hor, -⟩ := Occurs.union_accepts_iff Graph.closed_setting hwithin hoccurs (by decide) (by decide)
    (by decide) hanswer
  obtain ⟨c₀, -, -, hmakes, -, haccepts⟩ := hor.resolve_left fun h => absurd h.1 (by decide)
  exact ⟨c₀, hmakes, haccepts .least⟩

end Machine.Call

/-- An enum without members, and nothing else. -/
def Node.only : Node := { plain 1 TypeFlag.union "Only" [] with types := [2] }

def Node.empty : Node := plain 2 (TypeFlag.enumLiteral ||| TypeFlag.union) "Empty" []

def Graph.only : Graph where
  nodes := [.only, .empty]
  declarations := [⟨"Only", .typeAlias, 1⟩]

/-- A union of one is that one, so its fragment lists no value if that one is an enum without members. -/
theorem Machine.only_lists_nothing :
    Graph.only.shape? .only = some .union ∧ Graph.only.definedConstituents .only = [.empty] ∧
      (∀ t ∈ Graph.only.constituents .only, t.isLiteral → Graph.only.shape? t = some .literal) ∧
      ∃ schema m', ({} : Machine).answer Graph.only {} (.node .only) = some (.ok (.schema schema), m') ∧
        schema.render = Fragment.enum [] :=
  ⟨by decide, by decide, by decide, _, _, rfl, rfl⟩

end TypeSchema
