import Mathlib.Data.List.Basic
import TypeSchema.Path

/-!
# Texts of paths

The text of a path is read as that path, `Path.ofText_text`, and a text without slashes as a single
name.
-/

namespace TypeSchema

namespace Path

variable {cs rest piece : List Char} {parts : List String} {text : String}

/-! ### Pieces -/

theorem splitSlashes_of_not_mem (h : '/' ∉ cs) (piece : List Char) :
    splitSlashes piece cs = [String.ofList (piece.reverse ++ cs)] := by
  induction cs generalizing piece with
  | nil => rw [splitSlashes, List.append_nil]
  | cons c rest ih =>
    obtain ⟨hc, hrest⟩ := not_or.1 (mt List.mem_cons.2 h)
    rw [splitSlashes, ih hrest, List.reverse_cons, List.append_assoc, List.singleton_append]
    exact fun heq => hc heq.symm

theorem splitSlashes_append (h : '/' ∉ cs) (piece rest : List Char) :
    splitSlashes piece (cs ++ '/' :: rest) = String.ofList (piece.reverse ++ cs) :: splitSlashes [] rest := by
  induction cs generalizing piece with
  | nil => rw [List.nil_append, splitSlashes, List.append_nil]
  | cons c cs ih =>
    obtain ⟨hc, hcs⟩ := not_or.1 (mt List.mem_cons.2 h)
    rw [List.cons_append, splitSlashes, ih hcs, List.reverse_cons, List.append_assoc, List.singleton_append]
    exact fun heq => hc heq.symm

theorem splitSlashes_intercalate (hne : parts ≠ []) (h : ∀ part ∈ parts, '/' ∉ part.toList) :
    splitSlashes [] ("/".intercalate parts).toList = parts := by
  induction parts with
  | nil => exact absurd rfl hne
  | cons part rest ih =>
    obtain ⟨hpart, hrest⟩ := List.forall_mem_cons.1 h
    cases rest with
    | nil =>
      rw [String.intercalate_singleton, splitSlashes_of_not_mem hpart]
      simp
    | cons next rest =>
      have htext : ("/".intercalate (part :: next :: rest)).toList =
          part.toList ++ '/' :: ("/".intercalate (next :: rest)).toList := by
        simp [String.intercalate_cons_cons]
      rw [htext, splitSlashes_append hpart, ih nofun hrest]
      simp

theorem not_mem_of_mem_splitSlashes (hpiece : '/' ∉ piece) {part : String} (h : part ∈ splitSlashes piece cs) :
    '/' ∉ part.toList := by
  induction cs generalizing piece with
  | nil =>
    cases List.mem_singleton.1 h
    simpa using hpiece
  | cons c rest ih =>
    by_cases hc : c = '/'
    · subst hc
      rw [splitSlashes] at h
      rcases List.mem_cons.1 h with rfl | h
      · simpa using hpiece
      · exact ih List.not_mem_nil h
    · rw [splitSlashes] at h
      · exact ih (by simp [hpiece, Ne.symm hc]) h
      · exact hc

/-! ### Texts -/

theorem ofText_of_not_mem (h : '/' ∉ text.toList) (hempty : text ≠ "") (hpoint : text ≠ ".") :
    ofText text = ⟨"", [text]⟩ := by
  have hslashes : text.toList.takeWhile (· = '/') = [] := by
    rcases htext : text.toList with _ | ⟨c, rest⟩
    · rfl
    · have hc : c ≠ '/' := fun hc => h (by rw [htext, hc]; exact List.mem_cons_self ..)
      exact List.takeWhile_cons_of_neg (by simpa using hc)
  rw [ofText, hslashes, splitSlashes_of_not_mem h]
  simp [hempty, hpoint]

/-- A path as texts are read. -/
structure Normal (p : Path) : Prop where
  root : p.root = "" ∨ p.root = "/" ∨ p.root = "//"
  parts : ∀ part ∈ p.parts, part ≠ "" ∧ part ≠ "." ∧ '/' ∉ part.toList

theorem normal_ofText (text : String) : (ofText text).Normal where
  root := by
    rw [ofText]
    dsimp only
    split
    · exact .inl rfl
    · split
      · exact .inr (.inr rfl)
      · exact .inr (.inl rfl)
  parts part hpart := by
    obtain ⟨hmem, hcounts⟩ := List.mem_filter.1 hpart
    exact ⟨by simp_all, by simp_all, not_mem_of_mem_splitSlashes List.not_mem_nil hmem⟩

theorem Normal.ofText_text {p : Path} (h : p.Normal) : ofText p.text = p := by
  obtain ⟨root, parts⟩ := p
  obtain ⟨hroot, hparts⟩ := h
  dsimp only at hroot hparts
  cases parts with
  | nil => rcases hroot with rfl | rfl | rfl <;> rfl
  | cons part rest =>
    have hsplit := splitSlashes_intercalate (List.cons_ne_nil part rest) fun part hpart => (hparts part hpart).2.2
    have hkept : ∀ name ∈ part :: rest, name ≠ "" ∧ name ≠ "." :=
      fun name hname => ⟨(hparts name hname).1, (hparts name hname).2.1⟩
    -- the first name does not start with a slash, so that all slashes before it are the root's
    have hslashes : ("/".intercalate (part :: rest)).toList.takeWhile (· = '/') = [] := by
      obtain ⟨hempty, -, hslash⟩ := hparts part (List.mem_cons_self ..)
      obtain ⟨c, cs, hpart⟩ := List.exists_cons_of_ne_nil (mt String.toList_eq_nil_iff.1 hempty)
      have hc : c ≠ '/' := fun hc => hslash (by rw [hpart, hc]; exact List.mem_cons_self ..)
      obtain ⟨tail, htail⟩ : ∃ tail, ("/".intercalate (part :: rest)).toList = part.toList ++ tail := by
        cases rest with
        | nil => exact ⟨[], by simp⟩
        | cons next rest =>
          rw [String.intercalate_cons_cons, String.toList_append, String.toList_append, List.append_assoc]
          exact ⟨_, rfl⟩
      rw [htail, hpart]
      exact List.takeWhile_cons_of_neg (by simpa using hc)
    generalize htail : ("/".intercalate (part :: rest)).toList = tail at hsplit hslashes
    rcases hroot with rfl | rfl | rfl <;> rw [text, if_neg (by simp), ofText, String.toList_append, htail]
    all_goals simpa [hslashes, hsplit, splitSlashes] using hkept

/-- A path that is written and read again stays what it is. -/
theorem ofText_text (text : String) : ofText (ofText text).text = ofText text :=
  (normal_ofText text).ofText_text

end Path

end TypeSchema
