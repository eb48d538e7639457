import TypeSchema.Output
import TypeSchema.Proofs.Isolation
import TypeSchema.Proofs.Pointer
import TypeSchema.Proofs.References

/-!
# References in a bundle

A bundle gathers the schemas of a pass by name. A reference in it was made when a cycle was cut, by
the name of the node alone; it leads to the schema of that node if the name reads as a key and the
first schema of that key is the node's.
-/

namespace TypeSchema

/-! ### Gathering -/

namespace Product

variable {α : Type}

theorem gatherInto_cons (table : Table String α) (p : Product α) (rest : List (Product α)) :
    (gatherInto table (p :: rest)).1 =
      match p.schema? with
      | none => (gatherInto table rest).1
      | some schema =>
        if p.name ∈ table.keys then (gatherInto table rest).1
        else (gatherInto (table ++ [(p.name, schema)]) rest).1 := by
  rw [gatherInto]
  cases p.schema? with
  | none => rfl
  | some schema => by_cases hmem : p.name ∈ table.keys <;> simp [hmem]

theorem get?_gatherInto (key : String) (products : List (Product α)) (table : Table String α) :
    Table.get? key (gatherInto table products).1 = (Table.get? key table).or
      ((products.find? fun p => p.name = key && p.schema?.isSome).bind (·.schema?)) := by
  induction products generalizing table with
  | nil => simp [gatherInto]
  | cons p rest ih =>
    rw [gatherInto_cons, List.find?_cons]
    cases hp : p.schema? with
    | none => simp [ih]
    | some schema =>
      by_cases hkey : p.name = key
      · subst hkey
        by_cases hmem : p.name ∈ table.keys
        · obtain ⟨found, hfound⟩ := Option.ne_none_iff_exists'.1 (mt Table.get?_eq_none_iff.1 (not_not.2 hmem))
          simp [hmem, ih, hfound]
        · simp [hmem, ih, Table.get?_append, Table.get?_eq_none_iff.2 hmem, Table.get?, hp]
      · by_cases hmem : p.name ∈ table.keys
        · simp [hmem, ih, hkey]
        · simp [hmem, ih, Table.get?_append, Table.get?, hkey]

theorem exists_of_mem_gatherInto {key : String} {schema : α} {products : List (Product α)}
    {table : Table String α} (h : (key, schema) ∈ (gatherInto table products).1) :
    (key, schema) ∈ table ∨ ∃ p ∈ products, p.name = key ∧ p.schema? = some schema := by
  induction products generalizing table with
  | nil => exact .inl h
  | cons p rest ih =>
    have hrest : ∀ {table}, (key, schema) ∈ (gatherInto table rest).1 →
        (key, schema) ∈ table ∨ ∃ q ∈ p :: rest, q.name = key ∧ q.schema? = some schema := fun h =>
      (ih h).imp_right fun ⟨q, hq, h⟩ => ⟨q, List.mem_cons_of_mem _ hq, h⟩
    rw [gatherInto_cons] at h
    cases hp : p.schema? with
    | none => rw [hp] at h; exact hrest h
    | some found =>
      simp only [hp] at h
      split at h
      · exact hrest h
      · rcases hrest h with h | h
        · rcases List.mem_append.1 h with h | h
          · exact .inl h
          · cases List.mem_singleton.1 h
            exact .inr ⟨p, List.mem_cons_self .., rfl, hp⟩
        · exact .inr h

end Product

namespace Resolve

def definitions (outcomes : List Outcome) : Table String Value :=
  (Product.gather (outcomes.map Outcome.written)).1

def bundled (uri : String) (outcomes : List Outcome) : Value := Fragment.bundle uri (definitions outcomes)

variable {outcomes : List Outcome} {key : String}

theorem exists_ok_of_isOk {o : Outcome} (h : o.isOk) : ∃ schema, o.result = .ok schema := by
  obtain ⟨name, kind, _ | schema⟩ := o
  · cases h
  · exact ⟨schema, rfl⟩

theorem get?_definitions : Table.get? key (definitions outcomes) =
    (outcomes.find? fun o => o.name = key && o.isOk).bind fun o => o.schema?.map Schema.render := by
  have hisSome : ∀ o : Outcome, (o.written.schema?.isSome) = o.isOk := fun o => by
    obtain ⟨name, kind, _ | _⟩ := o <;> rfl
  rw [definitions, Product.gather, Product.get?_gatherInto, List.find?_map]
  have hp : ((fun p : Product Value => decide (p.name = key) && p.schema?.isSome) ∘ Outcome.written) =
      fun o => decide (o.name = key) && o.isOk := funext fun o => by
    rw [Function.comp, hisSome]
    rfl
  rw [hp]
  cases outcomes.find? fun o => decide (o.name = key) && o.isOk <;> rfl

theorem exists_of_mem_definitions {definition : Value} (h : (key, definition) ∈ definitions outcomes) :
    ∃ o ∈ outcomes, ∃ schema, o.result = .ok schema ∧ o.name = key ∧ definition = schema.render := by
  rcases Product.exists_of_mem_gatherInto h with h | ⟨p, hp, hname, hschema⟩
  · cases h
  · obtain ⟨o, ho, rfl⟩ := List.mem_map.1 hp
    obtain ⟨schema, hresult, hrender⟩ := Option.map_eq_some_iff.1 hschema
    refine ⟨o, ho, schema, ?_, hname, hrender.symm⟩
    obtain ⟨name, kind, _ | _⟩ := o <;> cases hresult
    rfl

/-! ### Where references lead -/

section Pass

variable {g : Graph} {settings : ResolverSettings} {subjects : List Subject} {D : Subject} {n c : Node}

/-- The declarations of a pass that describe data, each with its outcome. -/
def declared (g : Graph) (settings : ResolverSettings) (subjects : List Subject) :
    List (Subject × Outcome) :=
  (subjects.filter Subject.isTranspilable).zip (pass g settings subjects).1

/-- The first declaration of this name that has a schema. -/
def firstDefined (g : Graph) (settings : ResolverSettings) (subjects : List Subject) (key : String) :
    Option Subject :=
  ((declared g settings subjects).find? fun p => p.2.name = key && p.2.isOk).map (·.1)

/-- The nodes are resolved to the same fragment. -/
def SameFragment (s : Session) (n c : Node) : Prop :=
  ∃ schema schema', s.mark? n.id = some (.resolved schema) ∧ s.mark? c.id = some (.resolved schema') ∧
    schema.render = schema'.render

/-- The reference leads to an entry of the definitions, and the entry is the fragment of the node. -/
def LeadsTo (g : Graph) (settings : ResolverSettings) (subjects : List Subject) (uri reference : String)
    (c : Node) : Prop :=
  ∃ key schema, Pointer.tokens? reference = some ["definitions", key] ∧
    Pointer.resolve? (bundled uri (pass g settings subjects).1) reference = some schema.render ∧
    (pass g settings subjects).2.mark? c.id = some (.resolved schema)

theorem map_fst_declared : (declared g settings subjects).map (·.1) =
    subjects.filter Subject.isTranspilable :=
  List.map_fst_zip (Nat.le_of_eq (forall₂_steps g settings subjects (named subjects)).length_eq)

theorem map_snd_declared : (declared g settings subjects).map (·.2) = (pass g settings subjects).1 :=
  List.map_snd_zip (Nat.le_of_eq (forall₂_steps g settings subjects (named subjects)).length_eq.symm)

theorem get?_definitions_pass {key : String} :
    Table.get? key (definitions (pass g settings subjects).1) =
      ((declared g settings subjects).find? fun p => p.2.name = key && p.2.isOk).bind
        fun p => p.2.schema?.map Schema.render := by
  rw [get?_definitions, ← map_snd_declared, List.find?_map, Option.bind_map]
  rfl

theorem name_of_mem_declared {o : Outcome} (h : (D, o) ∈ declared g settings subjects) :
    o.name = D.name :=
  ((List.forall₂_iff_zip.1 (forall₂_steps g settings subjects (named subjects))).2 h).1

theorem mark?_of_mem_declared {o : Outcome} {schema : Schema} (h : (D, o) ∈ declared g settings subjects)
    (hok : o.result = .ok schema) :
    (pass g settings subjects).2.mark? D.node.id = some (.resolved schema) :=
  (List.forall₂_iff_zip.1 (forall₂_mark?_steps (Session.idle_named g settings _).stacked)).2
    h schema hok

theorem firstDefined_eq_some {key : String} (h : firstDefined g settings subjects key = some D) :
    ∃ schema, D ∈ subjects ∧ D.isTranspilable ∧ D.name = key ∧
      (pass g settings subjects).2.mark? D.node.id = some (.resolved schema) ∧
      Table.get? key (definitions (pass g settings subjects).1) = some schema.render := by
  obtain ⟨⟨D, o⟩, hfind, rfl⟩ := Option.map_eq_some_iff.1 h
  have hmem := List.mem_of_find?_eq_some hfind
  have hp := List.find?_some hfind
  simp only [Bool.and_eq_true, decide_eq_true_eq] at hp
  obtain ⟨schema, hok⟩ := exists_ok_of_isOk hp.2
  obtain ⟨hD, ht⟩ := List.mem_filter.1 (List.of_mem_zip hmem).1
  refine ⟨schema, hD, ht, ?_, mark?_of_mem_declared hmem hok, ?_⟩
  · rw [← hp.1]
    exact (name_of_mem_declared hmem).symm
  · rw [get?_definitions_pass, hfind]
    simp [Outcome.schema?, hok, Except.toOption]

theorem firstDefined_eq_none {key : String} (h : firstDefined g settings subjects key = none) :
    Table.get? key (definitions (pass g settings subjects).1) = none := by
  rw [get?_definitions_pass, Option.map_eq_none_iff.1 h]
  rfl

/-- A reference by name leads to the fragment of a node exactly if the name reads as a key and the
first schema of that key is the fragment of the node. -/
theorem leadsTo_iff {uri name : String} :
    LeadsTo g settings subjects uri ("#/definitions/" ++ name) c ↔
      ∃ key D, Pointer.key? name = some key ∧ firstDefined g settings subjects key = some D ∧
        SameFragment (pass g settings subjects).2 D.node c := by
  constructor
  · rintro ⟨key, schema, htokens, hresolve, hmark⟩
    rw [bundled, Pointer.resolve?_bundle htokens] at hresolve
    rcases hfirst : firstDefined g settings subjects key with _ | D
    · cases (firstDefined_eq_none hfirst).symm.trans hresolve
    · obtain ⟨schema', -, -, -, hmark', hget⟩ := firstDefined_eq_some hfirst
      exact ⟨key, D, Pointer.tokens?_reference_eq_iff.1 htokens, hfirst, schema', schema, hmark', hmark,
        Option.some.inj (hget.symm.trans hresolve)⟩
  · rintro ⟨key, D, hkey, hfirst, schema, schema', hmark, hmark', hrender⟩
    obtain ⟨schema'', -, -, -, hmark'', hget⟩ := firstDefined_eq_some hfirst
    cases hmark''.symm.trans hmark
    have htokens := Pointer.tokens?_reference_eq_iff.2 hkey
    refine ⟨key, schema', htokens, ?_, hmark'⟩
    rw [bundled, Pointer.resolve?_bundle htokens, hget, hrender]

theorem isOk_of_mem_declared (hg : g.Closed) (hdepth : g.nodes.length ≤ settings.levels)
    (hnodes : ∀ D ∈ subjects, D.node ∈ g.nodes) (hD : D ∈ subjects) (ht : D.isTranspilable)
    (h : ∀ m, g.Reaches settings D.node m → ¬g.Unrepresentable m) :
    ∃ o, (D, o) ∈ declared g settings subjects ∧ o.name = D.name ∧ o.isOk := by
  have hstep : ∀ D ∈ subjects, D.isTranspilable → ∀ s : Session, s.Stacked g [] →
      (exec (subject g settings D) s).2.Stacked g [] ∧
        ((∀ m, g.Reaches settings D.node m → ¬g.Unrepresentable m) →
          (exec (subject g settings D) s).1.isOk) := by
    intro D hD _ s hs
    have hs := hs.declare D
    rw [exec_subject]
    refine ⟨stacked_of_resolve hs, fun h => ?_⟩
    have hclean : g.Clean settings (s.declare D).IsMarked D.node := fun m hm =>
      (Graph.forall_not_faulty_iff hg (hnodes D hD)).2 h m hm.reaches
    obtain ⟨schema, s', hx⟩ := (exists_ok_iff_clean (.top D.name) hg (hnodes D hD) hs hdepth).2 hclean
    rw [hx]
    rfl
  have hsteps := (steps_forall₂ (I := fun s => s.Stacked g [])
    (Q := fun D result => (∀ m, g.Reaches settings D.node m → ¬g.Unrepresentable m) → result.isOk)
    (fun _ event hs => hs.report event) hstep (Session.idle_named g settings subjects).stacked).2
  have hfst : D ∈ (declared g settings subjects).map (·.1) := by
    rw [map_fst_declared]
    exact List.mem_filter.2 ⟨hD, ht⟩
  obtain ⟨⟨D, o⟩, hmem, rfl⟩ := List.mem_map.1 hfst
  obtain ⟨hname, -, hok⟩ := (List.forall₂_iff_zip.1 hsteps).2 hmem
  refine ⟨o, hmem, hname, ?_⟩
  obtain ⟨name, kind, _ | schema⟩ := o
  · cases hok h
  · rfl

/-- Every reference in a definition of the bundle is the cut of a declared node on a cycle, by the name
of its first declaration. It leads to the fragment of that node exactly if the name reads as a key
and the first schema of that key is this fragment; so it does if the graph has no more nodes than a
resolution may go down levels, no unrepresentable node is reached from the node, the name has no
percent sign, no slash and no tilde, and no other node is declared by it. -/
theorem bundle_references (hg : g.Closed) (hnodes : ∀ D ∈ subjects, D.node ∈ g.nodes) (uri : String)
    {key reference : String} {definition v : Value}
    (hdef : (key, definition) ∈ definitions (pass g settings subjects).1) (hv : definition.Holds v)
    (href : v.reference? = some reference) :
    ∃ D c name, D ∈ subjects ∧ D.isTranspilable ∧ D.name = key ∧ g.Reaches settings D.node c ∧
      g.OnCycle settings c ∧ declaredName subjects c.id = some name ∧
      reference = "#/definitions/" ++ name ∧
      (LeadsTo g settings subjects uri reference c ↔
        ∃ key' D', Pointer.key? name = some key' ∧ firstDefined g settings subjects key' = some D' ∧
          SameFragment (pass g settings subjects).2 D'.node c) ∧
      (g.nodes.length ≤ settings.levels → (∀ m, g.Reaches settings c m → ¬g.Unrepresentable m) →
        '%' ∉ name.toList → '/' ∉ name.toList → '~' ∉ name.toList →
        (∀ D' ∈ subjects, D'.isTranspilable → D'.name = name → D'.node = c) →
        LeadsTo g settings subjects uri reference c) := by
  obtain ⟨o, ho, schema, hok, hkey, rfl⟩ := exists_of_mem_definitions hdef
  rw [← map_snd_declared] at ho
  obtain ⟨⟨D, o⟩, hmem, rfl⟩ := List.mem_map.1 ho
  obtain ⟨hD, ht⟩ := List.mem_filter.1 (List.of_mem_zip hmem).1
  have hu := (List.forall₂_iff_zip.1 (idle_steps hg hnodes (fun _ h => h)
    (Session.idle_named g settings subjects)).2).2 hmem |>.2.2 schema hok
  obtain ⟨c, name, hreach, hcycle, -, hname, -, rfl⟩ := hu.exists_of_reference? hv href
  refine ⟨D, c, name, hD, ht, (name_of_mem_declared hmem).symm.trans hkey, hreach, hcycle, hname, rfl,
    leadsTo_iff, fun hdepth hhealthy hpercent hslash htilde hsame => leadsTo_iff.2 ?_⟩
  obtain ⟨D₀, hfind, rfl⟩ := Option.map_eq_some_iff.1 hname
  obtain ⟨hD₀, ht₀⟩ := List.mem_filter.1 (List.mem_of_find?_eq_some hfind)
  have hnode₀ : D₀.node = c := hsame D₀ hD₀ ht₀ rfl
  obtain ⟨o₀, hmem₀, hname₀, hok₀⟩ := isOk_of_mem_declared hg hdepth hnodes hD₀ ht₀ (hnode₀ ▸ hhealthy)
  rcases hfirst : firstDefined g settings subjects D₀.name with _ | D'
  · have hnone := List.find?_eq_none.1 (Option.map_eq_none_iff.1 hfirst) _ hmem₀
    simp [hname₀, hok₀] at hnone
  · obtain ⟨schema', hD', ht', hname', hmark', -⟩ := firstDefined_eq_some hfirst
    have hnode' := hsame D' hD' ht' hname'
    rw [hnode'] at hmark'
    refine ⟨D₀.name, D', Pointer.key?_of_plain hpercent hslash htilde, hfirst, schema', schema', ?_, hmark', rfl⟩
    rw [hnode']
    exact hmark'

end Pass

theorem reference_leads_to_cell :
    LeadsTo Graph.cells .refs Graph.cells.subjects Fragment.draft07 "#/definitions/Cell" .cell := by
  have hdef : ("Cell", Fragment.object [("text", Fragment.typed "string"),
      ("next", Fragment.reference "Cell")] ["text", "next"] none) ∈
      definitions (pass Graph.cells .refs Graph.cells.subjects).1 := List.mem_singleton_self _
  have hv : Value.Holds (Fragment.object [("text", Fragment.typed "string"),
      ("next", Fragment.reference "Cell")] ["text", "next"] none) (Fragment.reference "Cell") :=
    .single (by simp [Fragment.subschemas_object])
  obtain ⟨D, c, name, hD, -, -, hreach, -, hname, -, hiff, -⟩ :=
    bundle_references Graph.closed_cells (fun _ => Graph.node_mem_nodes) Fragment.draft07 hdef hv rfl
  obtain rfl : D = ⟨"Cell", "interface", .cell⟩ := List.mem_singleton.1 hD
  have hnode : Node.cell ∈ Graph.cells.nodes := List.mem_cons_self ..
  rcases List.mem_pair.1 (Graph.Reaches.mem_nodes hnode hreach) with rfl | rfl
  · have hcell : declaredName Graph.cells.subjects Node.cell.id = some "Cell" := by rfl
    obtain rfl := Option.some.inj (hname.symm.trans hcell)
    exact hiff.2 ⟨"Cell", ⟨"Cell", "interface", .cell⟩, by rfl, by rfl, _, _, by rfl, by rfl, rfl⟩
  · cases hname

/-- The parent fails, and the reference to it in the child leads nowhere. -/
theorem reference_to_parent_dangles :
    ∃ definition v, ("Child", definition) ∈ definitions (pass Graph.family .refs [.parent, .child]).1 ∧
      definition.Holds v ∧ v.reference? = some "#/definitions/Parent" ∧
      ∀ uri, Pointer.resolve? (bundled uri (pass Graph.family .refs [.parent, .child]).1)
        "#/definitions/Parent" = none := by
  refine ⟨Fragment.object [("parent", Fragment.reference "Parent")] ["parent"] none,
    Fragment.reference "Parent", List.mem_singleton_self _, .single ?_, rfl, fun uri => ?_⟩
  · simp [Fragment.subschemas_object]
  · rw [bundled, Pointer.resolve?_bundle (show Pointer.tokens? "#/definitions/Parent" =
      some ["definitions", "Parent"] by rfl)]
    rfl

end Resolve

end TypeSchema
