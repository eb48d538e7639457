import TypeSchema.Proofs.Passes

/-!
# Cycle policies

Whether a cycle is cut by a reference or by a placeholder changes nothing but the cut. The session of
a run under the one policy is that of the run under the other with its references replaced,
`Session.withPlaceholders`, step by step; so passes fail alike, log alike, and their fragments differ
in the references alone.
-/

namespace TypeSchema

def ResolverSettings.withCycles (settings : ResolverSettings) (cycles : CyclePolicy) : ResolverSettings :=
  { settings with cycles }

/-! ### Replacing references -/

namespace Value

/-- The name of a value that refers to a definition and says nothing else. -/
def definitionName? : Value → Option String
  | .map [(.text "$ref", .scalar (.text reference))] =>
    ("#/definitions/".toList.isPrefixOf? reference.toList).map String.ofList
  | _ => none

/-- The keys under which a schema stands, or a list of schemas. -/
def schemaKeys : List Scalar := [.text "items", .text "anyOf", .text "allOf"]

/-- The keys under which a map to schemas stands. -/
def tableKeys : List Scalar := [.text "properties", .text "patternProperties"]

mutual

/-- In a schema, or a list of schemas, every reference in schema position becomes the placeholder of
its name. -/
def withPlaceholders : Value → Value
  | .scalar s => .scalar s
  | .list items => .list (listWithPlaceholders items)
  | .map entries =>
    match definitionName? (.map entries) with
    | some name => Fragment.circular name
    | none => .map (fieldsWithPlaceholders entries)

def listWithPlaceholders : List Value → List Value
  | [] => []
  | v :: rest => v.withPlaceholders :: listWithPlaceholders rest

def fieldsWithPlaceholders : List (Scalar × Value) → List (Scalar × Value)
  | [] => []
  | (key, v) :: rest =>
    (key,
      if key ∈ schemaKeys then v.withPlaceholders
      else if key ∈ tableKeys then v.tableWithPlaceholders
      else v) :: fieldsWithPlaceholders rest

def tableWithPlaceholders : Value → Value
  | .map entries => .map (entriesWithPlaceholders entries)
  | v => v

def entriesWithPlaceholders : List (Scalar × Value) → List (Scalar × Value)
  | [] => []
  | (key, v) :: rest => (key, v.withPlaceholders) :: entriesWithPlaceholders rest

end

theorem listWithPlaceholders_eq_map (vs : List Value) :
    listWithPlaceholders vs = vs.map withPlaceholders := by
  induction vs with
  | nil => rfl
  | cons v rest ih => rw [listWithPlaceholders, ih, List.map_cons]

theorem entriesWithPlaceholders_fields (entries : List (String × Value)) :
    entriesWithPlaceholders (entries.map fun entry => (.text entry.1, entry.2)) =
      (entries.map fun entry => (entry.1, entry.2.withPlaceholders)).map
        fun entry => (.text entry.1, entry.2) := by
  induction entries with
  | nil => rfl
  | cons entry rest ih => simp only [List.map_cons, entriesWithPlaceholders, ih]

theorem tableWithPlaceholders_fields (entries : List (String × Value)) :
    (Value.fields entries).tableWithPlaceholders =
      .fields (entries.map fun entry => (entry.1, entry.2.withPlaceholders)) := by
  rw [fields, tableWithPlaceholders, entriesWithPlaceholders_fields]
  rfl

end Value

namespace Fragment

open Value

theorem definitionName?_reference (name : String) : definitionName? (reference name) = some name := by
  have htoList : ("#/definitions/" ++ name).toList = "#/definitions/".toList ++ name.toList :=
    String.toList_append
  show (("#/definitions/".toList.isPrefixOf? ("#/definitions/" ++ name).toList).map String.ofList) = _
  rw [htoList]
  have hrest : "#/definitions/".toList.isPrefixOf? ("#/definitions/".toList ++ name.toList) =
      some name.toList := by rfl
  rw [hrest]
  simp

theorem withPlaceholders_reference (name : String) :
    (reference name).withPlaceholders = circular name := by
  have h := definitionName?_reference name
  show (match definitionName? (reference name) with | some name => _ | none => _) = _
  rw [h]

theorem withPlaceholders_object (properties : List (String × Value)) (required : List String)
    (index : Option Value) :
    (object properties required index).withPlaceholders =
      object (properties.map fun p => (p.1, p.2.withPlaceholders)) required
        (index.map withPlaceholders) := by
  unfold object
  rw [← tableWithPlaceholders_fields]
  cases required.isEmpty <;> cases index <;> rfl

theorem withPlaceholders_array (item : Value) :
    (array item).withPlaceholders = array item.withPlaceholders := rfl

theorem withPlaceholders_tuple (items : List Value) :
    (tuple items).withPlaceholders = tuple (items.map withPlaceholders) := by
  rw [← listWithPlaceholders_eq_map]
  rfl

theorem withPlaceholders_anyOf (options : List Value) :
    (anyOf options).withPlaceholders = anyOf (options.map withPlaceholders) := by
  rw [← listWithPlaceholders_eq_map]
  rfl

theorem withPlaceholders_allOf (parts : List Value) :
    (allOf parts).withPlaceholders = allOf (parts.map withPlaceholders) := by
  rw [← listWithPlaceholders_eq_map]
  rfl

theorem withPlaceholders_indexable (value : Value) :
    (indexable value).withPlaceholders = indexable value.withPlaceholders := rfl

end Fragment

namespace Schema

mutual

def withPlaceholders : Schema → Schema
  | .any => .any
  | .typed name => .typed name
  | .never => .never
  | .enum values => .enum values
  | .array item => .array item.withPlaceholders
  | .tuple items => .tuple (listWithPlaceholders items)
  | .object properties required index =>
    .object (propertiesWithPlaceholders properties) required (indexWithPlaceholders index)
  | .indexable value => .indexable value.withPlaceholders
  | .generic name => .generic name
  | .anyOf options => .anyOf (listWithPlaceholders options)
  | .allOf parts => .allOf (listWithPlaceholders parts)
  | .date => .date
  | .reference name => .circular name
  | .circular name => .circular name

def listWithPlaceholders : List Schema → List Schema
  | [] => []
  | schema :: rest => schema.withPlaceholders :: listWithPlaceholders rest

def propertiesWithPlaceholders : List (String × Schema) → List (String × Schema)
  | [] => []
  | (name, schema) :: rest => (name, schema.withPlaceholders) :: propertiesWithPlaceholders rest

def indexWithPlaceholders : Option Schema → Option Schema
  | none => none
  | some schema => some schema.withPlaceholders

end

theorem listWithPlaceholders_eq_map (schemas : List Schema) :
    listWithPlaceholders schemas = schemas.map withPlaceholders := by
  induction schemas with
  | nil => rfl
  | cons schema rest ih => rw [listWithPlaceholders, ih, List.map_cons]

theorem propertiesWithPlaceholders_eq_map (properties : List (String × Schema)) :
    propertiesWithPlaceholders properties = properties.map fun p => (p.1, p.2.withPlaceholders) := by
  induction properties with
  | nil => rfl
  | cons p rest ih => rw [propertiesWithPlaceholders, ih, List.map_cons]

theorem indexWithPlaceholders_eq_map (index : Option Schema) :
    indexWithPlaceholders index = index.map withPlaceholders := by
  cases index <;> rfl

mutual

/-- In a schema the references are told by their constructor, in its fragment by their form; it is the
same ones. -/
theorem render_withPlaceholders (schema : Schema) :
    schema.withPlaceholders.render = schema.render.withPlaceholders := by
  cases schema with
  | any | typed | never | enum | generic | date | circular => rfl
  | array item =>
    rw [withPlaceholders, render, render, Fragment.withPlaceholders_array, render_withPlaceholders item]
  | tuple items =>
    rw [withPlaceholders, render, render, Fragment.withPlaceholders_tuple,
      renderAll_withPlaceholders items]
  | object properties required index =>
    rw [withPlaceholders, render, render, Fragment.withPlaceholders_object,
      renderProperties_withPlaceholders properties, renderIndex_withPlaceholders index]
  | indexable value =>
    rw [withPlaceholders, render, render, Fragment.withPlaceholders_indexable,
      render_withPlaceholders value]
  | anyOf options =>
    rw [withPlaceholders, render, render, Fragment.withPlaceholders_anyOf,
      renderAll_withPlaceholders options]
  | allOf parts =>
    rw [withPlaceholders, render, render, Fragment.withPlaceholders_allOf,
      renderAll_withPlaceholders parts]
  | reference name => rw [withPlaceholders, render, render, Fragment.withPlaceholders_reference]

theorem renderAll_withPlaceholders (schemas : List Schema) :
    renderAll (listWithPlaceholders schemas) = (renderAll schemas).map Value.withPlaceholders := by
  cases schemas with
  | nil => rfl
  | cons schema rest =>
    rw [listWithPlaceholders, renderAll, renderAll, List.map_cons, render_withPlaceholders schema,
      renderAll_withPlaceholders rest]

theorem renderProperties_withPlaceholders (properties : List (String × Schema)) :
    renderProperties (propertiesWithPlaceholders properties) =
      (renderProperties properties).map fun p => (p.1, p.2.withPlaceholders) := by
  cases properties with
  | nil => rfl
  | cons p rest =>
    obtain ⟨name, schema⟩ := p
    rw [propertiesWithPlaceholders, renderProperties, renderProperties, List.map_cons,
      render_withPlaceholders schema, renderProperties_withPlaceholders rest]

theorem renderIndex_withPlaceholders (index : Option Schema) :
    renderIndex (indexWithPlaceholders index) = (renderIndex index).map Value.withPlaceholders := by
  cases index with
  | none => rfl
  | some schema =>
    rw [indexWithPlaceholders, renderIndex, renderIndex, Option.map_some, render_withPlaceholders schema]

end

theorem conjoin_withPlaceholders (schemas : List Schema) :
    (conjoin schemas).withPlaceholders = conjoin (schemas.map withPlaceholders) := by
  match schemas with
  | [] | _ :: _ :: _ => simp [conjoin, withPlaceholders, listWithPlaceholders_eq_map]
  | [_] => rfl

theorem ofEntries_withPlaceholders (entries : List (Entry Schema)) (index : Option Schema) :
    (ofEntries entries index).withPlaceholders =
      ofEntries (entries.map (Entry.map withPlaceholders)) (index.map withPlaceholders) := by
  simp only [ofEntries, withPlaceholders, propertiesWithPlaceholders_eq_map,
    indexWithPlaceholders_eq_map, Entry.properties_map, Entry.required_map]

end Schema

/-! ### Plans -/

namespace Plan

/-- What the plan brings along refers to nothing. -/
def IsPlain : Plan → Prop
  | .leaf schema => schema.withPlaceholders = schema
  | .anyOf fixed _ => fixed.map Schema.withPlaceholders = fixed
  | _ => True

theorem IsPlain.assemble {p : Plan} (h : p.IsPlain) (schemas : List Schema) :
    (p.assemble schemas).withPlaceholders = p.assemble (schemas.map Schema.withPlaceholders) := by
  cases p with
  | leaf schema => exact h
  | forward node => cases schemas <;> rfl
  | anyOf fixed options =>
    simp only [IsPlain] at h
    simp only [Plan.assemble, Schema.withPlaceholders, Schema.listWithPlaceholders_eq_map,
      List.map_append, h]
  | allOf parts =>
    simp only [Plan.assemble, Schema.withPlaceholders, Schema.listWithPlaceholders_eq_map]
  | array item => cases schemas <;> rfl
  | tuple items =>
    simp only [Plan.assemble, Schema.withPlaceholders, Schema.listWithPlaceholders_eq_map]
  | indexable value => cases schemas <;> rfl
  | object slots index =>
    simp only [Plan.assemble, Schema.ofEntries_withPlaceholders, slotEntries_map]
    rw [← List.map_drop, List.head?_map]
  | merged slots indexes =>
    simp only [Plan.assemble, Schema.ofEntries_withPlaceholders,
      ← Entry.merge_map Schema.conjoin_withPlaceholders, slotEntries_map, ← List.map_drop]
    cases schemas.drop slots.length with
    | nil => rfl
    | cons schema rest => simp [Schema.conjoin_withPlaceholders]

end Plan

namespace Graph

variable {g : Graph} {settings : ResolverSettings} {n : Node} {p : Plan}

theorem isPlain_of_enumPlan (h : g.enumPlan n = .ok p) : p.IsPlain := by
  simp only [enumPlan] at h
  split at h
  · cases h
  · obtain ⟨values, -, rfl⟩ := map_eq_ok h
    rfl

theorem isPlain_of_unionPlan (h : g.unionPlan n = .ok p) : p.IsPlain := by
  simp only [unionPlan] at h
  split at h
  · cases h; rfl
  · cases h; trivial
  · split at h
    · cases h; rfl
    · obtain ⟨values, -, rfl⟩ := map_eq_ok h
      split
      · rfl
      · simp only [Plan.IsPlain, List.map_append, apply_ite (List.map Schema.withPlaceholders)]
        rfl

theorem isPlain_of_plan (h : g.plan settings n = .ok p) : p.IsPlain := by
  simp only [plan, shapeOf] at h
  rcases hs : g.shape? n with _ | shape
  · rw [hs] at h; cases h
  rw [hs] at h
  change g.planOf settings n shape = .ok p at h
  cases shape with
  | enum => exact isPlain_of_enumPlan h
  | literal =>
    obtain ⟨value, -, rfl⟩ := map_eq_ok h
    rfl
  | primitive =>
    simp only [planOf] at h
    split at h
    · cases h
    · next prim _ =>
      split at h
      · next schema hschema =>
        cases h
        cases prim <;> cases hschema <;> rfl
      · cases h
  | union => exact isPlain_of_unionPlan h
  | intersection =>
    simp only [planOf, intersectionPlan, bind, Except.bind] at h
    split at h
    · cases h
    · split at h <;> cases h <;> trivial
  | date =>
    cases h
    split
    · rfl
    · trivial
  | indexable =>
    simp only [planOf] at h
    split at h
    · cases h; trivial
    · cases h
  | bigIntLiteral | function => cases h
  | generic => cases h; rfl
  | array | tuple | object => cases h; trivial

/-- Plans do not look at the policy. -/
theorem plan_cycles (g : Graph) (settings : ResolverSettings) (cycles : CyclePolicy) (n : Node) :
    g.plan (settings.withCycles cycles) n = g.plan settings n := rfl

end Graph

/-! ### Sessions -/

def Mark.withPlaceholders : Mark → Mark
  | .resolving => .resolving
  | .resolved schema => .resolved schema.withPlaceholders

theorem Table.get?_map {κ α β : Type} [DecidableEq κ] (f : α → β) (key : κ) (table : Table κ α) :
    get? key (table.map fun entry => (entry.1, f entry.2)) = (table.get? key).map f := by
  induction table with
  | nil => rfl
  | cons entry rest ih =>
    rw [List.map_cons, get?, get?, ih]
    split <;> rfl

namespace Session

/-- The session with the references in its schemas replaced. -/
def withPlaceholders (s : Session) : Session :=
  { s with marks := s.marks.map fun entry => (entry.1, entry.2.withPlaceholders) }

theorem mark?_withPlaceholders (s : Session) (id : Int) :
    s.withPlaceholders.mark? id = (s.mark? id).map Mark.withPlaceholders :=
  Table.get?_map ..

theorem setMark_withPlaceholders (s : Session) (id : Int) (mark : Mark) :
    (s.setMark id mark).withPlaceholders = s.withPlaceholders.setMark id mark.withPlaceholders := by
  simp only [withPlaceholders, setMark, Table.map_put]

theorem unmark_withPlaceholders (s : Session) (id : Int) :
    (s.unmark id).withPlaceholders = s.withPlaceholders.unmark id := by
  simp only [withPlaceholders, unmark, List.filter_map, Function.comp_def]

theorem declare_withPlaceholders (s : Session) (subject : Subject) :
    (s.declare subject).withPlaceholders = s.withPlaceholders.declare subject := by
  have hname : s.withPlaceholders.name? subject.node.id = s.name? subject.node.id := rfl
  unfold declare
  rw [hname]
  cases s.name? subject.node.id <;> rfl

theorem declareAll_withPlaceholders (s : Session) (subjects : List Subject) :
    (s.declareAll subjects).withPlaceholders = s.withPlaceholders.declareAll subjects := by
  induction subjects generalizing s with
  | nil => rfl
  | cons subject rest ih =>
    show ((s.declare subject).declareAll rest).withPlaceholders = _
    rw [ih, declare_withPlaceholders]
    rfl

/-- No node goes by the empty name. -/
def Named (s : Session) : Prop := ∀ id, s.name? id ≠ some ""

theorem Named.congr {s s' : Session} (h : s.Named) (hname : ∀ id, s'.name? id = s.name? id) : s'.Named :=
  fun id => hname id ▸ h id

theorem Named.declare {s : Session} {subject : Subject} (h : s.Named) (hs : subject.name ≠ "") :
    (s.declare subject).Named := by
  intro id
  rw [name?_declare]
  cases hid : s.name? id with
  | some name => exact fun he => h id (hid.trans he)
  | none => split <;> simp [hs]

theorem Named.declareAll {s : Session} {subjects : List Subject} (h : s.Named)
    (hs : ∀ D ∈ subjects, D.name ≠ "") : (s.declareAll subjects).Named := by
  induction subjects generalizing s with
  | nil => exact h
  | cons D rest ih =>
    obtain ⟨hD, hrest⟩ := List.forall_mem_cons.1 hs
    exact ih (h.declare hD) hrest

end Session

/-- The outcome with the references in its schema replaced. -/
def Outcome.withPlaceholders (o : Outcome) : Outcome :=
  { o with result := o.result.map Schema.withPlaceholders }

/-! ### Two runs -/

namespace Resolve

variable {g : Graph} {settings : ResolverSettings} {s : Session} {place : Place} {n : Node} {levels : Nat}

/-- The run under the other policy. -/
def replaced {α β : Type} (f : α → β) (x : Except Failure α × Session) : Except Failure β × Session :=
  (x.1.map f, x.2.withPlaceholders)

theorem cutSchema_withPlaceholders {name? : Option String} (h : name? ≠ some "") :
    (cutSchema (settings.withCycles .ref) n name?).withPlaceholders =
      cutSchema (settings.withCycles .placeholder) n name? := by
  rcases name? with _ | name
  · rfl
  · have hname : cutName n (some name) = name := by
      unfold cutName
      split
      · next h => cases h
      · next he => exact absurd he h
      · next he => cases he; rfl
    show Schema.circular name = Schema.circular (cutName n (some name))
    rw [hname]

theorem answer_withPlaceholders {enter enter' : Except Failure Schema × Session} (hs : s.Named)
    (h : enter' = replaced Schema.withPlaceholders enter) :
    answer (settings.withCycles .placeholder) place n s.withPlaceholders enter' =
      replaced Schema.withPlaceholders (answer (settings.withCycles .ref) place n s enter) := by
  unfold answer
  rw [Session.mark?_withPlaceholders]
  rcases s.mark? n.id with _ | _ | schema
  · exact h
  · have hcut : cutSchema (settings.withCycles .placeholder) n (s.name? n.id) = _ :=
      (cutSchema_withPlaceholders (hs n.id)).symm
    show (Except.ok (cutSchema _ n (s.name? n.id)), s.withPlaceholders.report _) = _
    rw [hcut]
    rfl
  · rfl

theorem exec_along_withPlaceholders_of (place : Place)
    (h : ∀ place n s, Session.Named s →
      exec (resolve g (settings.withCycles .placeholder) levels place n) s.withPlaceholders =
        replaced Schema.withPlaceholders
          (exec (resolve g (settings.withCycles .ref) levels place n) s))
    (es : List Edge) (hs : s.Named) :
    exec (along g (settings.withCycles .placeholder) levels place es) s.withPlaceholders =
      replaced (List.map Schema.withPlaceholders)
        (exec (along g (settings.withCycles .ref) levels place es) s) := by
  induction es generalizing s with
  | nil => rfl
  | cons e es ih =>
    -- names stay as they are, so the session after the first target is named again
    have hnames := (walk_of_resolve g (settings.withCycles .ref) levels (place.under e.label)
      e.target s).name?_eq
    rw [exec_along_cons, exec_along_cons, h _ _ _ hs]
    rcases hx : exec (resolve g (settings.withCycles .ref) levels (place.under e.label) e.target) s
      with ⟨f | schema, s'⟩
    · rfl
    · rw [hx] at hnames
      simp only [replaced, Except.map, ih (hs.congr hnames)]
      cases (exec (along g (settings.withCycles .ref) levels place es) s').1 <;> rfl

/-- Level by level the one run is the other with its references replaced. -/
theorem exec_resolve_withPlaceholders (hs : s.Named) :
    exec (resolve g (settings.withCycles .placeholder) levels place n) s.withPlaceholders =
      replaced Schema.withPlaceholders
        (exec (resolve g (settings.withCycles .ref) levels place n) s) := by
  induction levels generalizing place n s with
  | zero =>
    rw [exec_resolve_zero, exec_resolve_zero]
    exact answer_withPlaceholders hs rfl
  | succ levels ih =>
    rw [exec_resolve_succ, exec_resolve_succ]
    refine answer_withPlaceholders hs ?_
    rw [Graph.plan_cycles g settings .placeholder, Graph.plan_cycles g settings .ref]
    cases hp : g.plan settings n with
    | error cause =>
      simp only [replaced, Session.unmark_withPlaceholders, Session.setMark_withPlaceholders]
      rfl
    | ok plan =>
      -- both runs follow the same plan, and what it brings along has no references
      have hmarked : (s.setMark n.id .resolving).Named := hs
      have halong := exec_along_withPlaceholders_of place (fun _ _ _ h => ih h) plan.edges hmarked
      rw [Session.setMark_withPlaceholders, Mark.withPlaceholders] at halong
      simp only [halong]
      rcases exec (along g (settings.withCycles .ref) levels place plan.edges) (s.setMark n.id .resolving)
        with ⟨f | schemas, s'⟩
      · simp only [replaced, Except.map, Session.unmark_withPlaceholders]
      · simp only [replaced, Except.map, Session.setMark_withPlaceholders, Mark.withPlaceholders,
          (Graph.isPlain_of_plan hp).assemble]

theorem step_withPlaceholders (g : Graph) (settings : ResolverSettings) {D : Subject} (hs : s.Named)
    (hD : D.isTranspilable → D.name ≠ "") :
    step g (settings.withCycles .placeholder) D s.withPlaceholders =
        ((step g (settings.withCycles .ref) D s).1.map Outcome.withPlaceholders,
          (step g (settings.withCycles .ref) D s).2.withPlaceholders) ∧
      (step g (settings.withCycles .ref) D s).2.Named := by
  by_cases ht : D.isTranspilable
  · have hnamed : (s.declare D).Named := hs.declare (hD ht)
    have hnames := (walk_of_resolve g (settings.withCycles .ref) settings.levels (.top D.name) D.node
      (s.declare D)).name?_eq
    have hrun : exec (subject g (settings.withCycles .placeholder) D) s.withPlaceholders =
        replaced Schema.withPlaceholders (exec (subject g (settings.withCycles .ref) D) s) := by
      rw [exec_subject, exec_subject, ← Session.declare_withPlaceholders]
      exact exec_resolve_withPlaceholders hnamed
    rw [step_eq_of_isTranspilable ht, step_eq_of_isTranspilable ht, hrun]
    change ∀ id, (exec (subject g (settings.withCycles .ref) D) s).2.name? id = _ at hnames
    rcases hx : exec (subject g (settings.withCycles .ref) D) s with ⟨f | schema, s'⟩
    all_goals
      rw [hx] at hnames
      exact ⟨rfl, hnamed.congr hnames⟩
  · rw [step_of_not_isTranspilable ht, step_of_not_isTranspilable ht]
    exact ⟨rfl, hs⟩

theorem steps_withPlaceholders (g : Graph) (settings : ResolverSettings) {subjects : List Subject}
    (hs : s.Named) (hnames : ∀ D ∈ subjects, D.isTranspilable → D.name ≠ "") :
    steps g (settings.withCycles .placeholder) subjects s.withPlaceholders =
      ((steps g (settings.withCycles .ref) subjects s).1.map Outcome.withPlaceholders,
        (steps g (settings.withCycles .ref) subjects s).2.withPlaceholders) := by
  induction subjects generalizing s with
  | nil => rfl
  | cons D rest ih =>
    obtain ⟨hD, hrest⟩ := List.forall_mem_cons.1 hnames
    obtain ⟨hstep, hnamed⟩ := step_withPlaceholders g settings hs hD
    rw [steps_cons, steps_cons, hstep, ih hnamed hrest, List.map_append, Option.toList_map]

/-- If no declaration that describes data goes by the empty name, passes under the two policies have the
same names, kinds, failures and logs, and the fragments of the one are those of the other with
every reference replaced by the placeholder of its name. -/
theorem pass_cycles (g : Graph) (settings : ResolverSettings) {subjects : List Subject}
    (hnames : ∀ D ∈ subjects, D.isTranspilable → D.name ≠ "") :
    (pass g (settings.withCycles .placeholder) subjects).2.log =
        (pass g (settings.withCycles .ref) subjects).2.log ∧
      List.Forall₂ (fun o o' => o.name = o'.name ∧ o.kind = o'.kind ∧ o.isOk = o'.isOk ∧
          o.failure? = o'.failure? ∧
          o.schema?.map Schema.render = o'.schema?.map fun schema => schema.render.withPlaceholders)
        (pass g (settings.withCycles .placeholder) subjects).1
        (pass g (settings.withCycles .ref) subjects).1 := by
  have hnamed : (named subjects).Named :=
    Session.Named.declareAll (fun id => by simp [Session.name?, Table.get?])
      fun D hD => hnames D (List.mem_filter.1 hD).1 (List.mem_filter.1 hD).2
  have hfresh : (named subjects).withPlaceholders = named subjects := by
    rw [named, Session.declareAll_withPlaceholders]
    rfl
  have hsteps := steps_withPlaceholders g settings hnamed hnames
  rw [hfresh] at hsteps
  change pass g (settings.withCycles .placeholder) subjects =
    ((pass g (settings.withCycles .ref) subjects).1.map Outcome.withPlaceholders,
      (pass g (settings.withCycles .ref) subjects).2.withPlaceholders) at hsteps
  rw [hsteps]
  refine ⟨rfl, List.forall₂_map_left_iff.2 (List.forall₂_same.2 fun o _ => ?_)⟩
  obtain ⟨name, kind, _ | schema⟩ := o
  · exact ⟨rfl, rfl, rfl, rfl, rfl⟩
  · exact ⟨rfl, rfl, rfl, rfl, congrArg some schema.render_withPlaceholders⟩

/-- The cell in a cell, by reference and by placeholder. -/
theorem pass_cycles_cells :
    (∀ D ∈ Graph.cells.subjects, D.isTranspilable → D.name ≠ "") ∧
      (pass Graph.cells {} Graph.cells.subjects).2.log =
        (pass Graph.cells .refs Graph.cells.subjects).2.log ∧
      (Fragment.object [("text", Fragment.typed "string"), ("next", Fragment.reference "Cell")]
          ["text", "next"] none).withPlaceholders =
        Fragment.object [("text", Fragment.typed "string"), ("next", Fragment.circular "Cell")]
          ["text", "next"] none := by
  have hnames : ∀ D ∈ Graph.cells.subjects, D.isTranspilable → D.name ≠ "" := by decide
  obtain ⟨hlog, hfragments⟩ := pass_cycles Graph.cells {} hnames
  have hrefs : (pass Graph.cells .refs Graph.cells.subjects).1 =
      [⟨"Cell", "interface", .ok (.object [("text", .typed "string"), ("next", .reference "Cell")]
        ["text", "next"] none)⟩] := by rfl
  have hplaceholders : (pass Graph.cells {} Graph.cells.subjects).1 =
      [⟨"Cell", "interface", .ok (.object [("text", .typed "string"), ("next", .circular "Cell")]
        ["text", "next"] none)⟩] := by rfl
  refine ⟨hnames, hlog, ?_⟩
  change List.Forall₂ _ (pass Graph.cells {} Graph.cells.subjects).1
    (pass Graph.cells .refs Graph.cells.subjects).1 at hfragments
  rw [hrefs, hplaceholders] at hfragments
  obtain ⟨⟨-, -, -, -, hcell⟩, -⟩ := List.forall₂_cons.1 hfragments
  exact (Option.some.inj hcell).symm

end Resolve

end TypeSchema
