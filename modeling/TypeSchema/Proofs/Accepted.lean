import TypeSchema.Command.Run

/-!
# What is accepted

A graph is accepted when it is closed, `Graph.closed_of_load`, and settings that a run can have
bundle what they refer to, `Settings.Accepted.refsBundled`, however often the choice to bundle is
made anew.
-/

namespace TypeSchema

namespace Reading

variable {α β : Type}

theorem check_eq_ok {r : Reading α} {f : α → Reading β} {b : β} (h : r.check f = .ok b) :
    ∃ a, r = .ok a ∧ f a = .ok b := by
  cases r with
  | ok a => exact ⟨a, rfl, h⟩
  | issues | halt => cases h

/-- All names in a document are texts. -/
def Named (entries : List (Scalar × Value)) : Prop := ∀ entry ∈ entries, ∃ name, entry.1 = .text name

theorem all_iff_named {entries : List (Scalar × Value)} :
    (entries.all fun entry => match entry.1 with
      | .text _ => true
      | _ => false) ↔ Named entries := by
  rw [List.all_eq_true]
  refine forall₂_congr fun entry _ => ?_
  cases entry.1 <;> simp

theorem document_of_named {entries : List (Scalar × Value)} (h : Named entries) (read : Value → Reading α) :
    document read entries = read (.map entries) :=
  if_pos (all_iff_named.2 h)

theorem document_of_not_named {entries : List (Scalar × Value)} (h : ¬Named entries)
    (read : Value → Reading α) : document read entries = .halt .fieldNameNotText :=
  if_neg (mt all_iff_named.1 h)

theorem document_eq_ok {read : Value → Reading α} {entries : List (Scalar × Value)} {a : α}
    (h : document read entries = .ok a) : read (.map entries) = .ok a := by
  simp only [document] at h
  split at h
  · exact h
  · cases h

end Reading

theorem Document.accept_eq_ok {α : Type} {kind : DocumentKind} {p : Path}
    {read : List (Scalar × Value) → Reading α} {value : Value} {a : α}
    (h : Document.accept kind p read value = .ok a) : ∃ entries, read entries = .ok a := by
  unfold accept at h
  split at h
  · next entries =>
    refine ⟨entries, ?_⟩
    split at h <;> cases h
    assumption
  · cases h

theorem Document.accept_of_read {α : Type} {kind : DocumentKind} {p : Path}
    {read : List (Scalar × Value) → Reading α} {entries : List (Scalar × Value)} {a : α}
    (h : read entries = .ok a) : Document.accept kind p read (.map entries) = .ok a := by
  rw [accept, h]

/-- What is saved as JSON is parsed again from the characters that were printed. -/
theorem Document.parse_saved {s : Store} {p : Path} {value : Value} (hjson : ¬p.isYaml)
    (hread : s.read p = .ok (Document.render p value)) :
    (Document.readFile s p >>= Document.parse p) =
      (Json.readAll (Text.unifyBreaks (Json.print .saved 0 value))).mapError .badJson := by
  rw [readFile, hread, render, if_neg hjson, Json.render]
  dsimp only
  rw [String.toList_ofList]
  show Document.parse p _ = _
  rw [parse, if_neg hjson, Json.parse, String.toList_ofList]

/-! ### Graphs -/

namespace Graph

variable {g : Graph}

theorem duplicateId?_eq_none_iff {seen ids : List Int} :
    duplicateId? seen ids = none ↔ ids.Nodup ∧ ∀ id ∈ ids, id ∉ seen := by
  induction ids generalizing seen with
  | nil => simp [duplicateId?]
  | cons id rest ih =>
    rw [duplicateId?, List.nodup_cons, List.forall_mem_cons]
    split
    · next hseen => exact iff_of_false nofun fun h => h.2.1 hseen
    · next hseen =>
      rw [ih]
      constructor
      · rintro ⟨hnodup, hrest⟩
        exact ⟨⟨fun hid => hrest id hid (List.mem_cons_self ..), hnodup⟩, hseen,
          fun other hother hmem => hrest other hother (List.mem_cons_of_mem _ hmem)⟩
      · rintro ⟨⟨hid, hnodup⟩, -, hrest⟩
        refine ⟨hnodup, fun other hother hmem => ?_⟩
        rcases List.mem_cons.1 hmem with rfl | hmem
        · exact hid hother
        · exact hrest other hother hmem

/-- No end is open exactly if the graph is closed. -/
theorem openEnd?_eq_none_iff : g.openEnd? = none ↔ g.Closed := by
  have hmissing : ∀ n : Node,
      (n.references.filter (· ∉ g.ids)).isEmpty ↔ ∀ id ∈ n.references, id ∈ g.ids := by
    intro n
    simp [List.isEmpty_iff, List.filter_eq_nil_iff]
  have hnodup : duplicateId? [] g.ids = none ↔ g.ids.Nodup := by
    rw [duplicateId?_eq_none_iff]
    exact and_iff_left fun _ _ => List.not_mem_nil
  rw [openEnd?]
  dsimp only
  split
  · next id hid => exact iff_of_false nofun fun h => by rw [hnodup.2 h.nodup] at hid; cases hid
  · next hids =>
    split
    · next n hn =>
      have hp := List.find?_some hn
      refine iff_of_false nofun fun h => ?_
      rw [(hmissing n).2 (h.references n (List.mem_of_find?_eq_some hn))] at hp
      cases hp
    · next hnodes =>
      rw [Option.map_eq_none_iff, List.find?_eq_none]
      constructor
      · intro hdeclarations
        refine ⟨hnodup.1 hids, fun n hn => (hmissing n).1 ?_, fun d hd => ?_⟩
        · simpa using List.find?_eq_none.1 hnodes n hn
        · simpa using hdeclarations d hd
      · intro h d hd
        simpa using h.declarations d hd

theorem Closed.checkClosed_eq (hg : g.Closed) : g.checkClosed = .ok g := by
  rw [checkClosed, openEnd?_eq_none_iff.2 hg]

theorem closed_of_read {entries : List (Scalar × Value)} (h : Graph.read entries = .ok g) : g.Closed := by
  obtain ⟨g', -, hcheck⟩ := Reading.check_eq_ok (Reading.document_eq_ok h)
  unfold checkClosed at hcheck
  split at hcheck
  · next hopen =>
    cases hcheck
    exact openEnd?_eq_none_iff.1 hopen
  · cases hcheck

theorem load_saved {s : Store} {p : Path} (hjson : ¬p.isYaml) (hread : s.read p = .ok (g.saved p)) :
    Graph.load s p =
      (Json.readAll (Text.unifyBreaks (Json.print .saved 0 (g.toValue .spare)))).mapError .badJson >>=
        Graph.ofValue p := by
  rw [← Document.parse_saved hjson hread, bind_assoc]
  rfl

theorem closed_of_load {s : Store} {p : Path} (h : Graph.load s p = .ok g) : g.Closed := by
  simp only [Graph.load, bind, Except.bind] at h
  split at h
  · cases h
  · split at h
    · cases h
    · obtain ⟨entries, hread⟩ := Document.accept_eq_ok h
      exact closed_of_read hread

end Graph

/-! ### Settings -/

namespace Settings

variable {settings : Settings}

/-- Settings that a run can have: the defaults, those that a file holds, and such settings with
another choice to bundle. -/
inductive Accepted : Settings → Prop where
  | default : Accepted {}
  | loaded {s p settings} : Settings.load s p = .ok settings → Accepted settings
  | overridden {settings bundle? changed} : Accepted settings →
    Command.overrideBundle settings bundle? = .ok changed → Accepted changed

theorem refsBundled_of_checkRefs {checked : Settings} (h : settings.checkRefs = .ok checked) :
    checked.RefsBundled := by
  unfold checkRefs at h
  split at h
  · next hrefs =>
    cases h
    exact hrefs
  · cases h

theorem load_saved {s : Store} {p : Path} (hjson : ¬p.isYaml) (hread : s.read p = .ok (settings.saved p)) :
    Settings.load s p =
      (Json.readAll (Text.unifyBreaks (Json.print .saved 0 settings.toValue))).mapError .badJson >>=
        Settings.ofValue p := by
  rw [← Document.parse_saved hjson hread, bind_assoc]
  simp [Settings.load, hjson]

theorem refsBundled_of_load {s : Store} {p : Path} (h : Settings.load s p = .ok settings) :
    settings.RefsBundled := by
  simp only [Settings.load, bind, Except.bind] at h
  split at h
  · cases h
  · split at h
    · cases h
    · obtain ⟨entries, hread⟩ := Document.accept_eq_ok h
      obtain ⟨fields, -, hcheck⟩ := Reading.check_eq_ok (Reading.document_eq_ok hread)
      exact refsBundled_of_checkRefs hcheck

theorem Accepted.refsBundled (h : settings.Accepted) : settings.RefsBundled := by
  induction h with
  | default => exact nofun
  | loaded h => exact refsBundled_of_load h
  | @overridden settings bundle? changed _ hchanged ih =>
    cases bundle? with
    | none =>
      cases hchanged
      exact ih
    | some bundle =>
      unfold Command.overrideBundle at hchanged
      dsimp only at hchanged
      split at hchanged <;> cases hchanged
      next hchecked => exact refsBundled_of_checkRefs hchecked

end Settings

end TypeSchema
