import TypeSchema.Proofs.Accepted
import TypeSchema.Proofs.Account
import TypeSchema.Proofs.Bundle

/-!
# References in the documents of a run

`Output.documents` are the documents of a writing, as values, with the file of each. Every value in
schema position of one is the fragment of a schema, so a reference there is the cut of a cycle; then
the bundle is the only document: `Settings.Accepted.references_bundled`.
-/

namespace TypeSchema

/-! ### Schema positions of a document -/

namespace Value

/-- The schema positions right below a value that may be a whole document. -/
def positions (v : Value) : List Value := v.subschemas ++ keyed (v.field? "definitions")

/-- The one value stands in schema position of the other document, which counts as well. -/
def Includes : Value → Value → Prop := Relation.ReflTransGen fun v w => w ∈ v.positions

/-- Whatever it refers to. -/
def IsReference (v : Value) : Prop := (v.field? "$ref").isSome

theorem isReference_of_reference? {v : Value} (h : v.reference?.isSome) : v.IsReference := by
  unfold reference? at h
  unfold IsReference
  split at h
  · next hv =>
    rw [hv]
    rfl
  · cases h

/-- A reference stands somewhere in schema position of the document. -/
def Refers (document : Value) : Prop := ∃ v, document.Includes v ∧ v.IsReference

end Value

namespace Fragment

/-- The keys that builders write into a fragment. -/
def keywords : List String :=
  ["additionalProperties", "properties", "patternProperties", "required", "type", "items", "enum",
    "anyOf", "allOf", "description", "format", "$ref"]

/-- The draft is told first, and the rest stays as it is. -/
theorem document_fields {uri : String} {entries : List (String × Value)}
    (hnodup : (entries.map (·.1)).Nodup) (hkeywords : entries.map (·.1) ⊆ keywords) :
    document uri (.fields entries) = .fields (("$schema", .text uri) :: entries) := by
  have hkeys : Table.keys (entries.map fun entry => (Scalar.text entry.1, entry.2)) =
      (entries.map (·.1)).map Scalar.text := by
    rw [Table.keys, List.map_map, List.map_map]
    rfl
  have hschema : "$schema" ∉ entries.map (·.1) := fun h => absurd (hkeywords h) (by decide)
  refine congrArg Value.map (Table.ofEntries_of_nodup ?_)
  rw [Table.keys, List.map_cons, ← Table.keys, hkeys, ← List.map_cons (f := Scalar.text), List.nodup_map_iff]
  · exact List.nodup_cons.2 ⟨hschema, hnodup⟩
  · exact fun _ _ h => Scalar.text.inj h

end Fragment

namespace Schema

open Value

theorem exists_fields_render (schema : Schema) :
    ∃ entries, schema.render = .fields entries ∧ (entries.map (·.1)).Nodup ∧
      entries.map (·.1) ⊆ Fragment.keywords := by
  cases schema with
  | object properties required index =>
    rw [render]
    refine ⟨_, rfl, ?_, ?_⟩
    all_goals cases required.isEmpty
    all_goals cases renderIndex index
    all_goals simp [Fragment.patternProperties, Fragment.keywords]
  | any | typed | never | enum | array | tuple | indexable | generic | anyOf | allOf | date | reference
  | circular =>
    exact ⟨_, rfl, by simp [Fragment.patternProperties],
      by simp [Fragment.keywords, Fragment.patternProperties]⟩

theorem isMap_render (schema : Schema) : schema.render.IsMap := by
  obtain ⟨entries, hrender, -, -⟩ := schema.exists_fields_render
  exact ⟨_, hrender⟩

/-- What stands in schema position of a schema is a schema again. -/
theorem exists_of_mem_subschemas {schema : Schema} {v : Value} (h : v ∈ schema.render.subschemas) :
    ∃ part : Schema, v = part.render := by
  cases schema with
  | any | typed | enum | generic | date | reference | circular => cases h
  | never =>
    have h : v ∈ [render (.typed "string"), render (.typed "number")] := h
    rcases List.mem_pair.1 h with rfl | rfl <;> exact ⟨_, rfl⟩
  | array item =>
    have h : v ∈ itemSchemas (some item.render) ++ [] ++ [] := h
    rw [itemSchemas_of_isMap item.isMap_render] at h
    exact ⟨item, by simpa using h⟩
  | tuple items =>
    have h : v ∈ renderAll items ++ [] ++ [] := h
    rw [renderAll_eq_map, List.append_nil, List.append_nil] at h
    obtain ⟨part, -, rfl⟩ := List.mem_map.1 h
    exact ⟨part, rfl⟩
  | object properties required index =>
    rw [render, Fragment.subschemas_object, renderProperties_eq_map, renderIndex_eq_map] at h
    rcases List.mem_append.1 h with h | h
    · rw [List.map_map] at h
      obtain ⟨p, -, rfl⟩ := List.mem_map.1 h
      exact ⟨p.2, rfl⟩
    · obtain ⟨part, -, rfl⟩ := Option.map_eq_some_iff.1 (Option.mem_toList.1 h)
      exact ⟨part, rfl⟩
  | indexable value =>
    have h : v ∈ [value.render] := h
    exact ⟨value, List.mem_singleton.1 h⟩
  | anyOf options =>
    have h : v ∈ renderAll options ++ [] := h
    rw [renderAll_eq_map, List.append_nil] at h
    obtain ⟨part, -, rfl⟩ := List.mem_map.1 h
    exact ⟨part, rfl⟩
  | allOf parts =>
    have h : v ∈ renderAll parts := h
    rw [renderAll_eq_map] at h
    obtain ⟨part, -, rfl⟩ := List.mem_map.1 h
    exact ⟨part, rfl⟩

theorem exists_of_holds {schema : Schema} {v : Value} (h : schema.render.Holds v) :
    ∃ part : Schema, v = part.render := by
  induction h with
  | refl => exact ⟨schema, rfl⟩
  | tail _ hv ih =>
    obtain ⟨part, rfl⟩ := ih
    exact exists_of_mem_subschemas hv

theorem field?_render_eq_none {key : String} (h : key ∉ Fragment.keywords) (schema : Schema) :
    schema.render.field? key = none := by
  obtain ⟨entries, hrender, -, hkeywords⟩ := schema.exists_fields_render
  rw [hrender, Value.field?_fields, Table.get?_eq_none_iff]
  exact fun hmem => h (hkeywords hmem)

theorem reference?_render_of_isReference {schema : Schema} (h : schema.render.IsReference) :
    schema.render.reference?.isSome := by
  cases schema with
  | reference name => rfl
  | object properties required index =>
    revert h
    rw [render]
    unfold Fragment.object
    cases required.isEmpty <;> cases renderIndex index <;> exact nofun
  | any | typed | never | enum | array | tuple | indexable | generic | anyOf | allOf | date | circular =>
    exact nomatch h

/-- A schema has no definitions of its own. -/
theorem holds_of_includes {schema : Schema} {v : Value} (h : schema.render.Includes v) :
    schema.render.Holds v := by
  induction h with
  | refl => exact .refl
  | tail _ hv ih =>
    obtain ⟨part, rfl⟩ := exists_of_holds ih
    rw [Value.positions, field?_render_eq_none (by decide), List.mem_append] at hv
    exact ih.tail (hv.resolve_right List.not_mem_nil)

/-- A schema refers as a document where a reference stands in it as a fragment. -/
theorem holds_of_refers {uri : String} {schema : Schema} (h : (Fragment.document uri schema.render).Refers) :
    ∃ v, schema.render.Holds v ∧ v.reference?.isSome := by
  obtain ⟨entries, hrender, hnodup, hkeywords⟩ := schema.exists_fields_render
  have hfield : ∀ key, key ≠ "$schema" →
      (Fragment.document uri schema.render).field? key = schema.render.field? key := by
    intro key hkey
    rw [hrender, Fragment.document_fields hnodup hkeywords, Value.field?_fields, Value.field?_fields,
      Table.get?, if_neg hkey.symm]
  obtain ⟨v, hv, href⟩ := h
  have hfound : ∀ {v}, schema.render.Includes v → v.IsReference →
      ∃ v, schema.render.Holds v ∧ v.reference?.isSome := by
    intro v hv href
    have hholds := holds_of_includes hv
    obtain ⟨part, rfl⟩ := exists_of_holds hholds
    exact ⟨_, hholds, reference?_render_of_isReference href⟩
  rcases Relation.ReflTransGen.cases_head hv with rfl | ⟨w, hw, hv⟩
  · refine hfound .refl ?_
    rw [Value.IsReference, ← hfield _ (by decide)]
    exact href
  · have hpositions : (Fragment.document uri schema.render).positions = schema.render.positions := by
      simp only [Value.positions, Value.subschemas]
      rw [hfield _ (by decide), hfield _ (by decide), hfield _ (by decide), hfield _ (by decide),
        hfield _ (by decide), hfield _ (by decide)]
    rw [hpositions] at hw
    exact hfound (.head hw hv) href

end Schema

/-! ### What is written -/

namespace Output

/-- The documents that are written for these schemas, in order, each with its file. -/
def documents (directory : Path) (settings : OutputSettings) (schemas : Table String Value) :
    List (Path × Value) :=
  if settings.bundle then
    [(directory.under (Path.ofText bundleName), Fragment.bundle settings.schemaUri schemas)]
  else
    schemas.map fun entry =>
      (directory.under (Path.ofText (fileName entry.1)), Fragment.document settings.schemaUri entry.2)

/-- Writes the texts of documents, up to the first that cannot be written. -/
def writeAll (style : Json.Style) (documents : List (Path × Value)) (s : Store) : Except FileFault Store :=
  documents.foldlM (fun s d => s.write d.1 (Json.render style d.2)) s

variable {directory : Path} {settings : OutputSettings}

theorem writeFiles_eq (hbundle : ¬settings.bundle) (schemas : Table String Value) (s : Store) :
    writeFiles directory settings schemas s =
      (writeAll (style settings) (documents directory settings schemas) s).map
        ((documents directory settings schemas).map (·.1), ·) := by
  induction schemas generalizing s with
  | nil =>
    rw [documents, if_neg hbundle]
    rfl
  | cons entry rest ih =>
    have hdocuments : documents directory settings (entry :: rest) =
        (directory.under (Path.ofText (fileName entry.1)),
          Fragment.document settings.schemaUri entry.2) :: documents directory settings rest := by
      rw [documents, documents, if_neg hbundle, if_neg hbundle]
      rfl
    rw [writeFiles, hdocuments, writeAll, List.foldlM_cons]
    cases s.write (directory.under (Path.ofText (fileName entry.1)))
      (Json.render (style settings) (Fragment.document settings.schemaUri entry.2)) with
    | error fault => rfl
    | ok s =>
      show (writeFiles directory settings rest s >>= _) = Except.map _ (writeAll _ _ s)
      rw [ih]
      cases writeAll (style settings) (documents directory settings rest) s <;> rfl

/-- What a writing leaves is its documents, one after the other, in a directory that was made. -/
theorem write_eq (products : List (Product Value)) (s : Store) :
    (write directory settings products s).map (fun written => (written.paths, written.store)) =
      (s.makeDirectories directory >>=
        writeAll (style settings) (documents directory settings (Product.gather products).1)).map
          ((documents directory settings (Product.gather products).1).map (·.1), ·) := by
  rcases hgather : Product.gather products with ⟨schemas, log⟩
  rw [write, hgather]
  cases s.makeDirectories directory with
  | error fault => rfl
  | ok made =>
    show Except.map _ (if settings.bundle then _ else _) = Except.map _ (writeAll _ _ made)
    split
    · next hbundle =>
      rw [documents, if_pos hbundle]
      show Except.map _ (made.write _ _ >>= _) = Except.map _ (made.write _ _ >>= _)
      cases made.write _ (Json.render (style settings) (Fragment.bundle settings.schemaUri schemas)) <;> rfl
    · next hbundle =>
      rw [writeFiles_eq hbundle]
      cases writeAll (style settings) (documents directory settings schemas) made <;> rfl

end Output

/-- The documents that a run writes when a pass has these outcomes. -/
def Resolve.documents (directory : Path) (settings : OutputSettings) (outcomes : List Outcome) :
    List (Path × Value) :=
  Output.documents directory settings (definitions outcomes)

/-- Once its graph is loaded and resolved, a run writes the documents of its schemas and nothing else. -/
theorem convertFile_eq {s : Store} {shown : String} {directory : Path} {settings : Settings} {g : Graph}
    {outcomes : List Outcome} {log : List Event} (hload : Graph.load s (Path.ofText shown) = .ok g)
    (hconvert : Strict.convert g settings.resolver = .ok (outcomes, log)) :
    (convertFile shown directory settings s).map (fun c => (c.written.paths, c.written.store)) =
      ((s.makeDirectories directory >>= Output.writeAll (Output.style settings.output)
        (Resolve.documents directory settings.output outcomes)).mapError .write).map
          ((Resolve.documents directory settings.output outcomes).map (·.1), ·) := by
  have hwrite := @Output.write_eq directory settings.output (outcomes.map Outcome.written) s
  rw [← Resolve.definitions] at hwrite
  unfold convertFile
  rw [hload]
  dsimp only
  rw [hconvert]
  dsimp only
  rw [← Resolve.documents] at hwrite
  generalize Resolve.documents directory settings.output outcomes = documents at hwrite ⊢
  generalize s.makeDirectories directory >>= Output.writeAll (Output.style settings.output) documents = left
    at hwrite ⊢
  generalize Output.write directory settings.output (outcomes.map Outcome.written) s = result at hwrite ⊢
  cases result with
  | error fault =>
    cases left <;> cases hwrite
    rfl
  | ok written =>
    cases left with
    | error fault => cases hwrite
    | ok store =>
      have hwritten : (written.paths, written.store) = (_, store) := Except.ok.inj hwrite
      exact congrArg Except.ok hwritten

/-! ### References stay in their bundle -/

/-- Where cycles are not cut by references, no schema of a pass refers anywhere. -/
theorem Strict.not_isReference_of_pass {g : Graph} {settings : ResolverSettings} {subjects : List Subject}
    {outcomes : List Outcome} {log : List Event} (hcycles : settings.cycles = .placeholder) (hg : g.Closed)
    (hnodes : ∀ D ∈ subjects, D.node ∈ g.nodes) (hpass : Strict.pass g settings subjects = .ok (outcomes, log))
    {o : Outcome} (ho : o ∈ outcomes) {schema : Schema} (hschema : o.result = .ok schema) {v : Value}
    (hv : schema.render.Holds v) : ¬v.IsReference := by
  intro href
  obtain ⟨part, rfl⟩ := Schema.exists_of_holds hv
  obtain ⟨r, hr⟩ := Option.isSome_iff_exists.1 (Schema.reference?_render_of_isReference href)
  have hunfoldings : List.Forall₂ _ _ (Resolve.pass g settings subjects).1 :=
    (Resolve.idle_pass hg subjects hnodes).2
  obtain ⟨D, -, -, -, hu⟩ := exists_left_of_mem_right hunfoldings (outcomes_eq hg hnodes hpass ▸ ho)
  obtain ⟨c, name, -, -, hrefs, -⟩ := (hu schema hschema).exists_of_reference? hv hr
  rw [hcycles] at hrefs
  cases hrefs

/-- Accepted settings ask for references only in a bundle. Without that, no schema of a pass refers
anywhere; and if any document that a run writes does, then it is the bundle, and the only one. -/
theorem Settings.Accepted.references_bundled {settings : Settings} (h : settings.Accepted) :
    settings.RefsBundled ∧
    (settings.resolver.cycles = .placeholder → ∀ (g : Graph) (subjects : List Subject), g.Closed →
      (∀ D ∈ subjects, D.node ∈ g.nodes) → ∀ outcomes log,
      Strict.pass g settings.resolver subjects = .ok (outcomes, log) →
      ∀ o ∈ outcomes, ∀ schema, o.result = .ok schema → ∀ v, schema.render.Holds v → ¬v.IsReference) ∧
    ∀ (s : Store) (shown : String) (directory : Path) (g : Graph) (outcomes : List Outcome) (log : List Event),
      Graph.load s (Path.ofText shown) = .ok g →
      Strict.convert g settings.resolver = .ok (outcomes, log) →
      (convertFile shown directory settings s).map (fun c => (c.written.paths, c.written.store)) =
        ((s.makeDirectories directory >>= Output.writeAll (Output.style settings.output)
          (Resolve.documents directory settings.output outcomes)).mapError .write).map
            ((Resolve.documents directory settings.output outcomes).map (·.1), ·) ∧
      ((∃ d ∈ Resolve.documents directory settings.output outcomes, d.2.Refers) →
        settings.output.bundle ∧
        Resolve.documents directory settings.output outcomes =
          [(directory.under (Path.ofText Output.bundleName),
            Resolve.bundled settings.output.schemaUri outcomes)]) := by
  have hplaceholder : settings.resolver.cycles = .placeholder ∨ settings.output.bundle := by
    cases hcycles : settings.resolver.cycles with
    | placeholder => exact .inl rfl
    | ref => exact .inr (h.refsBundled hcycles)
  refine ⟨h.refsBundled, fun hcycles g subjects hg hnodes outcomes log hpass o ho schema hschema v hv =>
    Strict.not_isReference_of_pass hcycles hg hnodes hpass ho hschema hv, ?_⟩
  intro s shown directory g outcomes log hload hconvert
  refine ⟨convertFile_eq hload hconvert, ?_⟩
  rintro ⟨d, hd, hrefers⟩
  unfold Resolve.documents Output.documents at hd ⊢
  by_cases hbundle : settings.output.bundle
  · rw [if_pos hbundle]
    exact ⟨hbundle, rfl⟩
  · have hcycles := hplaceholder.resolve_right hbundle
    have hg := Graph.closed_of_load hload
    rw [if_neg hbundle] at hd
    obtain ⟨⟨key, definition⟩, hdefinition, rfl⟩ := List.mem_map.1 hd
    obtain ⟨o, ho, schema, hschema, -, rfl⟩ := Resolve.exists_of_mem_definitions hdefinition
    obtain ⟨v, hv, href⟩ := Schema.holds_of_refers hrefers
    rw [Strict.convert, Strict.subjects_eq hg] at hconvert
    exact absurd (Value.isReference_of_reference? href) (Strict.not_isReference_of_pass hcycles hg
      (fun _ => Graph.node_mem_nodes) hconvert ho hschema hv)

/-! ### A store that is converted -/

/-- A graph and settings, each in a file of its own. -/
def Store.holding (g : Graph) (settings : Settings) : Store where
  files := [(Path.ofText "graph.json", g.saved (Path.ofText "graph.json")),
    (Path.ofText "settings.json", settings.saved (Path.ofText "settings.json"))]

/-- A graph whose one node refers to itself. -/
def Graph.chain : Graph where
  nodes := [.plain 1 TypeFlag.object "Chain" [.plain "next" 1]]
  declarations := [⟨"Chain", .interface, 1⟩]

/-- Settings that ask for references in a bundle. -/
def Settings.refs : Settings := { resolver := .refs, output := { bundle := true } }

def Schema.chain : Schema := .object [("next", .reference "Chain")] ["next"] none

theorem Settings.load_refs (g : Graph) :
    Settings.load (.holding g .refs) (Path.ofText "settings.json") = .ok .refs := by
  have hread : (Store.holding g .refs).read (Path.ofText "settings.json") =
      .ok (Settings.refs.saved (Path.ofText "settings.json")) := by
    rfl
  rw [Settings.load_saved (by decide +kernel) hread]
  exact eq_ok_of_toOption (by decide +kernel)

theorem Graph.load_chain : Graph.load (.holding .chain .refs) (Path.ofText "graph.json") = .ok .chain := by
  rw [Graph.load_saved (by decide +kernel) rfl]
  exact eq_ok_of_toOption (by decide +kernel)

/-- The one document that is written refers to its definition. -/
theorem Settings.references_bundled_chain :
    Settings.refs.Accepted ∧
      Graph.load (.holding .chain .refs) (Path.ofText "graph.json") = .ok Graph.chain ∧
      ∃ log, Strict.convert Graph.chain Settings.refs.resolver =
          .ok ([⟨"Chain", "interface", .ok Schema.chain⟩], log) ∧
        Resolve.documents (Path.ofText "out") Settings.refs.output [⟨"Chain", "interface", .ok Schema.chain⟩] =
          [((Path.ofText "out").under (Path.ofText Output.bundleName),
            Fragment.bundle Fragment.draft07 [("Chain", Schema.chain.render)])] ∧
        (Fragment.bundle Fragment.draft07 [("Chain", Schema.chain.render)]).Refers := by
  have haccepted : Settings.refs.Accepted := .loaded (Settings.load_refs .chain)
  have hconvert : Strict.convert Graph.chain Settings.refs.resolver =
      .ok ([⟨"Chain", "interface", .ok Schema.chain⟩], [.cycleCut ⟨some "Chain", ["next"]⟩ "Chain"]) := by
    rfl
  have hrefers : (Fragment.bundle Fragment.draft07 [("Chain", Schema.chain.render)]).Refers := by
    have hdefinition : Schema.chain.render ∈
        (Fragment.bundle Fragment.draft07 [("Chain", Schema.chain.render)]).positions :=
      List.mem_append_right _ (List.mem_singleton_self _)
    have hnext : Fragment.reference "Chain" ∈ Schema.chain.render.positions :=
      List.mem_append_left _ (List.mem_singleton_self _)
    exact ⟨Fragment.reference "Chain", .head hdefinition (.single hnext), rfl⟩
  have h := (haccepted.references_bundled.2.2 (.holding .chain .refs) "graph.json" (Path.ofText "out") _ _ _
    Graph.load_chain hconvert).2 ⟨_, List.mem_singleton_self _, hrefers⟩
  exact ⟨haccepted, Graph.load_chain, _, hconvert, h.2, hrefers⟩

end TypeSchema
