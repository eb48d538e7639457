import TypeSchema.Proofs.Followed
import TypeSchema.Proofs.Marks
import TypeSchema.Store

/-!
# Places

Where paths lead, before and after directories are made and files are written. Neither closes a way
that was open, `Store.Grows`, so a path keeps the place that it leads to.
-/

namespace TypeSchema

namespace Store

variable {s s' : Store} {p place : Path} {text : String}

/-- Every directory of `s` is one of `s'`, and no file took its place. -/
structure Grows (s s' : Store) : Prop where
  isDirectory : ∀ p, s.isDirectory p → s'.isDirectory p
  isFile : ∀ p, s.isDirectory p → s'.isFile p → s.isFile p

namespace Grows

theorem refl (s : Store) : s.Grows s := ⟨fun _ => id, fun _ _ => id⟩

theorem trans {s'' : Store} (h : s.Grows s') (h' : s'.Grows s'') : s.Grows s'' where
  isDirectory p hp := h'.isDirectory p (h.isDirectory p hp)
  isFile p hp hfile := h.isFile p hp (h'.isFile p (h.isDirectory p hp) hfile)

/-- A walk goes through directories that are no files, and each of them is still that. What the path is
shown as matters to faults alone. -/
theorem walk (h : s.Grows s') {shown : String} (shown' : String) {here : Path} {names : List String}
    (hwalk : s.walk shown here names = .ok place) : s'.walk shown' here names = .ok place := by
  induction names generalizing here with
  | nil => exact hwalk
  | cons name rest ih =>
    unfold Store.walk at hwalk ⊢
    split at hwalk
    · cases hwalk
    · next hfile =>
      split at hwalk
      · cases hwalk
      · next hdirectory =>
        have hhere : s.isDirectory here := by simpa using hdirectory
        rw [if_neg (mt (h.isFile here hhere) hfile), if_neg (by simp [h.isDirectory here hhere])]
        split at hwalk
        · cases hwalk
        · next hsize => rw [if_neg hsize, ih hwalk]

theorem locate (h : s.Grows s') (hp : s.locate p = .ok place) : s'.locate p = .ok place := by
  unfold Store.locate at hp ⊢
  split at hp
  · cases hp
  · next hnull =>
    split at hp
    · cases hp
    · next hsize => rw [if_neg hnull, if_neg hsize, h.walk _ hp]

end Grows

/-! ### Names inside a directory -/

theorem walk_of_locate (h : s.locate p = .ok place) : s.walk p.text ⟨p.root, []⟩ p.parts = .ok place := by
  unfold locate at h
  split at h
  · cases h
  · split at h
    · cases h
    · exact h

/-- The last step of a walk starts where the walk without it ends. -/
theorem walk_concat {shown : String} {here : Path} {names : List String} {name : String}
    (h : s.walk shown here (names ++ [name]) = .ok place) :
    ∃ there, s.walk shown here names = .ok there ∧ place = stepTo there name := by
  induction names generalizing here with
  | nil =>
    rw [List.nil_append, walk] at h
    split at h
    · cases h
    · split at h
      · cases h
      · split at h <;> cases h
        exact ⟨here, rfl, rfl⟩
  | cons first rest ih =>
    rw [List.cons_append] at h
    unfold walk at h ⊢
    split at h
    · cases h
    · next hfile =>
      split at h
      · cases h
      · next hdirectory =>
        split at h
        · cases h
        · next hsize =>
          rw [if_neg hfile, if_neg hdirectory, if_neg hsize]
          exact ih h

/-- A single name below a path leads one step down from where the path leads. -/
theorem locate_under {directory : Path} {name : String} (hdirectory : s.locate directory = .ok place)
    (h : s.locate (directory.under ⟨"", [name]⟩) = .ok p) : p = stepTo place name := by
  have hwalk := walk_of_locate h
  rw [Path.under, if_pos rfl] at hwalk
  obtain ⟨there, hthere, rfl⟩ := walk_concat hwalk
  have hplace := (Grows.refl s).walk directory.text hthere
  rw [walk_of_locate hdirectory] at hplace
  cases hplace
  rfl

/-! ### Files -/

theorem write_eq_ok (h : s.write p text = .ok s') :
    ∃ place, s.locate p = .ok place ∧ ¬s.isDirectory place ∧
      s' = { s with files := Table.put place text s.files } := by
  obtain ⟨place, hplace, h⟩ := bind_eq_ok h
  split at h
  · cases h
  · next hdirectory =>
    cases h
    exact ⟨place, hplace, hdirectory, rfl⟩

theorem grows_put (hplace : ¬s.isDirectory place) : s.Grows { s with files := Table.put place text s.files } where
  isDirectory _ := id
  isFile p hp hfile := by
    have hne : p ≠ place := fun h => hplace (h ▸ hp)
    rwa [isFile, Table.get?_put, if_neg hne] at hfile

theorem grows_of_write (h : s.write p text = .ok s') : s.Grows s' := by
  obtain ⟨place, -, hplace, rfl⟩ := write_eq_ok h
  exact grows_put hplace

theorem read_of_locate (hp : s.locate p = .ok place) (htext : Table.get? place s.files = some text) :
    s.read p = .ok text := by
  unfold read
  rw [hp, ok_bind, htext]
  rfl

/-- What is written is what is read. -/
theorem read_write (h : s.write p text = .ok s') : s'.read p = .ok text := by
  obtain ⟨place, hp, hplace, rfl⟩ := write_eq_ok h
  exact read_of_locate ((grows_put hplace).locate hp) (Table.get?_put_self ..)

/-! ### Directories -/

theorem makeDirectory_eq_ok (h : s.makeDirectory p = .ok s') :
    ∃ place, s.locate p = .ok place ∧ s' = { s with directories := place :: s.directories } := by
  obtain ⟨place, hplace, h⟩ := bind_eq_ok h
  split at h <;> cases h
  exact ⟨place, hplace, rfl⟩

/-- The path leads to a directory of `s'`, which `s` grew into. -/
structure Opened (s : Store) (p : Path) (s' : Store) : Prop where
  grows : s.Grows s'
  leads : ∃ place, s'.locate p = .ok place ∧ s'.isDirectory place

theorem opened_of_makeDirectory (h : s.makeDirectory p = .ok s') : s.Opened p s' := by
  obtain ⟨place, hp, rfl⟩ := makeDirectory_eq_ok h
  have hgrows : s.Grows { s with directories := place :: s.directories } :=
    ⟨fun p hp => by simp_all [isDirectory, or_assoc], fun p _ => id⟩
  exact ⟨hgrows, place, hgrows.locate hp, by simp [isDirectory]⟩

theorem opened_of_ensureDirectory (h : s.ensureDirectory p = .ok s') : s.Opened p s' := by
  unfold ensureDirectory at h
  split at h
  · next hmade =>
    cases h
    exact opened_of_makeDirectory hmade
  · split at h <;> cases h
    next hleads =>
    unfold leadsToDirectory at hleads
    split at hleads
    · next place hp => exact ⟨.refl s, place, hp, hleads⟩
    · cases hleads

theorem opened_of_makeNames {n : Nat} (h : s.makeNames p n = .ok s') : s.Opened p s' := by
  induction n generalizing p s' with
  | zero => exact opened_of_ensureDirectory h
  | succ n ih =>
    unfold makeNames at h
    split at h
    · obtain ⟨parents, hparents, hmade⟩ := bind_eq_ok h
      have hopened := opened_of_ensureDirectory hmade
      exact ⟨(ih hparents).grows.trans hopened.grows, hopened.leads⟩
    · exact opened_of_ensureDirectory h

theorem opened_of_makeDirectories (h : s.makeDirectories p = .ok s') : s.Opened p s' :=
  opened_of_makeNames h

end Store

end TypeSchema
