import TypeSchema.Proofs.Documents
import TypeSchema.Proofs.Paths
import TypeSchema.Proofs.Places

/-!
# One file a name

What is gathered has the first schema of every name, `Product.Gathered`. It is written to one path a
name, and a path holds what was written to it last; names without slashes have files of their own,
`Output.Contained`, and other names may not. This is about stores, in which nothing is a link and no name
has a surrogate.
-/

namespace TypeSchema

/-! ### What is gathered -/

namespace Product

variable {α : Type} {p : Product α} {products rest : List (Product α)} {table : Table String α}

/-- The table has the first schema of every name that has one, in the order in which those come. -/
structure Gathered (products : List (Product α)) (table : Table String α) : Prop where
  nodup : table.keys.Nodup
  complete : ∀ p ∈ products, p.schema?.isSome → p.name ∈ table.keys
  first : ∀ before name schema after, table = before ++ (name, schema) :: after →
    ∃ front p back, products = front ++ p :: back ∧ p.name = name ∧ p.schema? = some schema ∧
      ∀ q ∈ front, q.schema?.isSome → q.name ∈ Table.keys before

namespace Gathered

theorem nil : Gathered ([] : List (Product α)) [] where
  nodup := .nil
  complete := nofun
  first before _ _ _ h := by cases before <;> cases h

/-- A product without schema, or with a name that the table has, changes nothing. -/
theorem skip (h : Gathered products table) (hp : p.schema?.isSome → p.name ∈ table.keys) :
    Gathered (products ++ [p]) table where
  nodup := h.nodup
  complete q hq hschema := by
    rcases List.mem_append.1 hq with hq | hq
    · exact h.complete q hq hschema
    · cases List.mem_singleton.1 hq
      exact hp hschema
  first before name schema after htable := by
    obtain ⟨front, q, back, rfl, hq⟩ := h.first before name schema after htable
    exact ⟨front, q, back ++ [p], by simp, hq⟩

theorem add {schema : α} (h : Gathered products table) (hp : p.schema? = some schema)
    (hfresh : p.name ∉ table.keys) : Gathered (products ++ [p]) (table ++ [(p.name, schema)]) where
  nodup := by
    rw [Table.keys, List.map_append, List.nodup_append]
    refine ⟨h.nodup, List.nodup_singleton _, fun name hname other hother => ?_⟩
    cases List.mem_singleton.1 hother
    rintro rfl
    exact hfresh hname
  complete q hq hschema := by
    rw [Table.keys, List.map_append, List.mem_append]
    rcases List.mem_append.1 hq with hq | hq
    · exact .inl (h.complete q hq hschema)
    · cases List.mem_singleton.1 hq
      exact .inr (List.mem_singleton_self _)
  first before name found after htable := by
    rcases List.eq_nil_or_concat after with rfl | ⟨between, last, rfl⟩
    · obtain ⟨rfl, hlast⟩ := List.append_inj' htable rfl
      cases hlast
      exact ⟨products, p, [], rfl, rfl, hp, h.complete⟩
    · rw [List.concat_eq_append, ← List.cons_append, ← List.append_assoc] at htable
      obtain ⟨front, q, back, rfl, hq⟩ := h.first before name found between (List.append_inj' htable rfl).1
      exact ⟨front, q, back ++ [p], by simp, hq⟩

theorem gatherInto (h : Gathered products table) (rest : List (Product α)) :
    Gathered (products ++ rest) (gatherInto table rest).1 := by
  induction rest generalizing products table with
  | nil => rwa [List.append_nil]
  | cons p rest ih =>
    rw [List.append_cons, gatherInto_cons]
    cases hp : p.schema? with
    | none => exact ih (h.skip (by simp [hp]))
    | some schema =>
      dsimp only
      split
      · next hmem => exact ih (h.skip fun _ => hmem)
      · next hfresh => exact ih (h.add hp hfresh)

end Gathered

theorem gathered_gather (products : List (Product α)) : Gathered products (gather products).1 :=
  Gathered.nil.gatherInto products

end Product

/-! ### Names without slashes -/

namespace Output

theorem length_fileName (name : String) : (fileName name).length = name.length + 5 := by
  rw [fileName, String.length_append]
  rfl

theorem fileName_ne {name text : String} (h : text.length < 5) : fileName name ≠ text := by
  rintro rfl
  rw [length_fileName] at h
  omega

theorem fileName_injective : Function.Injective fileName := by
  intro name other h
  have hcs := congrArg String.toList h
  rw [fileName, fileName, String.toList_append, String.toList_append] at hcs
  exact String.toList_inj.1 (List.append_cancel_right hcs)

theorem ofText_fileName {name : String} (h : '/' ∉ name.toList) :
    Path.ofText (fileName name) = ⟨"", [fileName name]⟩ := by
  refine Path.ofText_of_not_mem ?_ (fileName_ne (by decide)) (fileName_ne (by decide))
  rw [fileName, String.toList_append, List.mem_append, not_or]
  exact ⟨h, by decide⟩

/-! ### What is written -/

section WriteAll

variable {style : Json.Style} {documents : List (Path × Value)} {s s' : Store} {place : Path}

theorem writeAll_cons {p : Path} {document : Value} (h : writeAll style ((p, document) :: documents) s = .ok s') :
    ∃ between, s.write p (Json.render style document) = .ok between ∧
      writeAll style documents between = .ok s' := by
  rw [writeAll, List.foldlM_cons] at h
  exact bind_eq_ok h

theorem grows_of_writeAll (h : writeAll style documents s = .ok s') : s.Grows s' := by
  induction documents generalizing s with
  | nil =>
    cases h
    exact .refl _
  | cons d rest ih =>
    obtain ⟨between, hwrite, hrest⟩ := writeAll_cons h
    exact (Store.grows_of_write hwrite).trans (ih hrest)

/-- A place that no path leads to keeps its text. -/
theorem get?_files_of_writeAll (h : writeAll style documents s = .ok s')
    (hother : ∀ d ∈ documents, s'.locate d.1 ≠ .ok place) :
    Table.get? place s'.files = Table.get? place s.files := by
  induction documents generalizing s with
  | nil =>
    cases h
    rfl
  | cons d rest ih =>
    obtain ⟨between, hwrite, hrest⟩ := writeAll_cons h
    obtain ⟨hd, hother⟩ := List.forall_mem_cons.1 hother
    rw [ih hrest hother]
    have hgrows := (Store.grows_of_write hwrite).trans (grows_of_writeAll hrest)
    obtain ⟨changed, hchanged, -, rfl⟩ := Store.write_eq_ok hwrite
    have hne : place ≠ changed := by
      rintro rfl
      exact hd (hgrows.locate hchanged)
    rw [Table.get?_put, if_neg hne]

/-- Every path leads somewhere, and what was written to it last stays. -/
theorem read_writeAll {before after : List (Path × Value)} {p : Path} {document : Value}
    (h : writeAll style (before ++ (p, document) :: after) s = .ok s') :
    ∃ place, s'.locate p = .ok place ∧
      ((∀ d ∈ after, s'.locate d.1 ≠ .ok place) → s'.read p = .ok (Json.render style document)) := by
  rw [writeAll, List.foldlM_append] at h
  obtain ⟨between, -, h⟩ := bind_eq_ok h
  obtain ⟨written, hwrite, hafter⟩ := writeAll_cons h
  obtain ⟨place, hplace, -, rfl⟩ := Store.write_eq_ok hwrite
  have hlocate := ((Store.grows_of_write hwrite).trans (grows_of_writeAll hafter)).locate hplace
  refine ⟨place, hlocate, fun hother => Store.read_of_locate hlocate ?_⟩
  rw [get?_files_of_writeAll hafter hother, Table.get?_put_self]

end WriteAll

section Write

variable {directory : Path} {settings : OutputSettings} {products : List (Product Value)} {s : Store}
  {written : Written}

/-- The path that the file of a name is written to. -/
def filePath (directory : Path) (name : String) : Path := directory.under (Path.ofText (fileName name))

/-- The text that the file of a schema is to hold. -/
def fileText (settings : OutputSettings) (schema : Value) : String :=
  Json.render (style settings) (Fragment.document settings.schemaUri schema)

/-- Every name has a file of its own directly inside the directory, and the file holds its schema. -/
structure Contained (directory place : Path) (settings : OutputSettings) (schemas : Table String Value)
    (s : Store) : Prop where
  inside : ∀ entry ∈ schemas,
    s.locate (filePath directory entry.1) = .ok ⟨place.root, place.parts ++ [fileName entry.1]⟩
  distinct : schemas.Pairwise fun entry other =>
    s.locate (filePath directory entry.1) ≠ s.locate (filePath directory other.1)
  holds : ∀ entry ∈ schemas, s.read (filePath directory entry.1) = .ok (fileText settings entry.2)

/-- What is left by a writing of one file a name. -/
structure Leaves (directory : Path) (settings : OutputSettings) (schemas : Table String Value)
    (written : Written) (place : Path) : Prop where
  paths : written.paths = schemas.map fun entry => filePath directory entry.1
  leads : written.store.locate directory = .ok place
  isDirectory : written.store.isDirectory place
  /-- A name leads to some file, and a name without slashes to one directly inside the directory. The file
  holds the schema of the name unless a later name leads there too. -/
  files : ∀ before name schema after, schemas = before ++ (name, schema) :: after →
    ∃ file, written.store.locate (filePath directory name) = .ok file ∧
      ('/' ∉ name.toList → file = ⟨place.root, place.parts ++ [fileName name]⟩) ∧
      ((∀ later ∈ after, written.store.locate (filePath directory later.1) ≠ .ok file) →
        written.store.read (filePath directory name) = .ok (fileText settings schema))

/-- A name without slashes leads directly inside the directory. -/
theorem locate_filePath {place file : Path} {name : String} (hdirectory : s.locate directory = .ok place)
    (hname : '/' ∉ name.toList) (h : s.locate (filePath directory name) = .ok file) :
    file = ⟨place.root, place.parts ++ [fileName name]⟩ := by
  rw [filePath, ofText_fileName hname] at h
  rw [Store.locate_under hdirectory h, Store.stepTo, if_neg (fileName_ne (by decide))]

theorem leaves_of_write (hbundle : ¬settings.bundle) (h : write directory settings products s = .ok written) :
    ∃ place, Leaves directory settings (Product.gather products).1 written place := by
  have hwrite := @write_eq directory settings products s
  rw [h] at hwrite
  generalize (Product.gather products).1 = schemas at hwrite ⊢
  obtain ⟨paths, store, log⟩ := written
  obtain ⟨store, hstore, hwritten⟩ := map_eq_ok hwrite.symm
  cases hwritten
  obtain ⟨made, hmade, hall⟩ := bind_eq_ok hstore
  obtain ⟨place, hplace, hisDirectory⟩ := (Store.opened_of_makeDirectories hmade).leads
  have hgrows := grows_of_writeAll hall
  have hleads := hgrows.locate hplace
  rw [documents, if_neg hbundle] at hall
  refine ⟨place, ?_, hleads, hgrows.isDirectory _ hisDirectory, ?_⟩
  · rw [documents, if_neg hbundle, List.map_map]
    rfl
  · rintro before name schema after rfl
    rw [List.map_append, List.map_cons] at hall
    obtain ⟨file, hfile, hread⟩ := read_writeAll hall
    refine ⟨file, hfile, fun hname => locate_filePath hleads hname hfile, fun hlater => hread ?_⟩
    intro d hd
    obtain ⟨later, hmem, rfl⟩ := List.mem_map.1 hd
    exact hlater later hmem

theorem Leaves.contained {schemas : Table String Value} {place : Path}
    (h : Leaves directory settings schemas written place) (hnodup : schemas.keys.Nodup)
    (hslashes : ∀ entry ∈ schemas, '/' ∉ entry.1.toList) :
    Contained directory place settings schemas written.store := by
  have hinside : ∀ entry ∈ schemas, written.store.locate (filePath directory entry.1) =
      .ok ⟨place.root, place.parts ++ [fileName entry.1]⟩ := by
    intro entry hentry
    obtain ⟨before, after, hsplit⟩ := List.append_of_mem hentry
    obtain ⟨file, hfile, hname, -⟩ := h.files before entry.1 entry.2 after hsplit
    rw [hfile, hname (hslashes entry hentry)]
  have hdistinct : schemas.Pairwise fun entry other =>
      written.store.locate (filePath directory entry.1) ≠ written.store.locate (filePath directory other.1) := by
    refine (List.pairwise_map.1 hnodup).imp_of_mem fun {entry other} hentry hother hne heq => ?_
    rw [hinside entry hentry, hinside other hother] at heq
    simp only [Except.ok.injEq, Path.mk.injEq, List.append_cancel_left_eq, List.cons.injEq, true_and,
      and_true] at heq
    exact hne (fileName_injective heq)
  refine ⟨hinside, hdistinct, fun entry hentry => ?_⟩
  obtain ⟨before, after, rfl⟩ := List.append_of_mem hentry
  obtain ⟨file, hfile, -, hread⟩ := h.files before entry.1 entry.2 after rfl
  obtain ⟨hafter, -⟩ := List.pairwise_cons.1 (List.pairwise_append.1 hdistinct).2.1
  exact hread fun later hlater heq => hafter later hlater (hfile.trans heq.symm)

/-- One file a name: the paths are those of the first schema of each name, in order; each leads to a file,
which holds its schema unless a later name leads there as well. If no name has a slash, then none
does, and all the files are directly inside the directory. Names are texts of characters and the store
has no links: with links or surrogates, names without a slash can share a file. -/
theorem write_files (hbundle : ¬settings.bundle) (h : write directory settings products s = .ok written) :
    Product.Gathered products (Product.gather products).1 ∧
      ∃ place, Leaves directory settings (Product.gather products).1 written place ∧
        ((∀ entry ∈ (Product.gather products).1, '/' ∉ entry.1.toList) →
          Contained directory place settings (Product.gather products).1 written.store) := by
  obtain ⟨place, hleaves⟩ := leaves_of_write hbundle h
  have hgathered := Product.gathered_gather products
  exact ⟨hgathered, place, hleaves, hleaves.contained hgathered.nodup⟩

end Write

/-- Products of these names with schemas of their own. -/
def products (names : List String) : List (Product Value) :=
  names.map fun name => ⟨name, "interface", some (Fragment.generic name)⟩

/-- The second product of a name is left out. -/
theorem write_twice :
    ∃ written place, write (Path.ofText "out") {} (products ["A", "B", "A"]) {} = .ok written ∧
      Contained (Path.ofText "out") place {} [("A", Fragment.generic "A"), ("B", Fragment.generic "B")]
        written.store := by
  obtain ⟨written, hwritten⟩ : ∃ written, write (Path.ofText "out") {} (products ["A", "B", "A"]) {} =
      .ok written := ⟨_, rfl⟩
  obtain ⟨-, place, -, hcontained⟩ := write_files (by decide) hwritten
  exact ⟨written, place, hwritten, hcontained (by decide)⟩

/-- Two names may lead to one file, which the second takes, and a name may lead out of the directory. -/
theorem write_slashes :
    (∃ written, write (Path.ofText "out") {} (products ["A", "./A"]) {} = .ok written ∧
      written.paths = [Path.ofText "out/A.json", Path.ofText "out/A.json"] ∧
      written.store.read (Path.ofText "out/A.json") = .ok (fileText {} (Fragment.generic "./A"))) ∧
    ∃ written, write (Path.ofText "out") {} (products ["../A"]) {} = .ok written ∧
      written.store.locate (filePath (Path.ofText "out") "../A") = .ok (Path.ofText "A.json") := by
  refine ⟨⟨_, rfl, ?_, eq_ok_of_toOption ?_⟩, _, rfl, eq_ok_of_toOption ?_⟩
  all_goals decide +kernel

end Output

end TypeSchema
