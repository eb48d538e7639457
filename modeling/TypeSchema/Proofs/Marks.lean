import Mathlib.Data.List.Nodup
import TypeSchema.Resolve.Pass

/-!
# Marks and names of a session

What one write to a session does to the mark and to the name of every id. A session with one entry
an id is `Session.Tidy`; its lists of ids are then read off the marks.
-/

namespace TypeSchema

namespace Table

variable {κ α : Type} [DecidableEq κ]

theorem get?_put (key other : κ) (value : α) (table : Table κ α) :
    (table.put key value).get? other = if other = key then some value else table.get? other := by
  split
  · next h => subst h; exact get?_put_self ..
  · next h => exact get?_put_of_ne h ..

theorem get?_remove (key other : κ) (table : Table κ α) :
    get? other (table.filter fun entry => entry.1 ≠ key) =
      if other = key then none else table.get? other := by
  induction table with
  | nil => simp [get?]
  | cons entry rest ih =>
    by_cases hk : entry.1 = key
    · rw [List.filter_cons_of_neg (by simpa using hk), ih]
      split
      · rfl
      · next h => simp [get?, hk, Ne.symm h]
    · rw [List.filter_cons_of_pos (by simpa using hk), get?, get?, ih]
      by_cases ho : entry.1 = other
      · simp [← ho, hk]
      · simp [ho]

theorem get?_append (key : κ) (table other : Table κ α) :
    get? key (table ++ other) = (table.get? key).or (other.get? key) := by
  induction table with
  | nil => rfl
  | cons entry rest ih =>
    rw [List.cons_append, get?, get?, ih]
    split <;> rfl

theorem get?_eq_none_iff {key : κ} {table : Table κ α} : table.get? key = none ↔ key ∉ table.keys := by
  induction table with
  | nil => simp [get?, keys]
  | cons entry rest ih =>
    simp only [get?, keys, List.map_cons, List.mem_cons, not_or]
    split
    · next h => simp [h]
    · next h => rw [ih]; exact ⟨fun hr => ⟨fun hk => h hk.symm, hr⟩, fun hr => hr.2⟩

theorem mem_iff_get?_eq_some {key : κ} {value : α} {table : Table κ α} (hnd : table.keys.Nodup) :
    (key, value) ∈ table ↔ table.get? key = some value := by
  induction table with
  | nil => simp [get?]
  | cons entry rest ih =>
    obtain ⟨hfresh, hnd⟩ := List.nodup_cons.1 hnd
    have hrest := ih hnd
    obtain ⟨k, v⟩ := entry
    by_cases hk : k = key
    · subst hk
      have hno : (k, value) ∉ rest := fun h => hfresh (List.mem_map.2 ⟨_, h, rfl⟩)
      simp [get?, hno, eq_comm]
    · simp [get?, hk, hrest, Ne.symm hk]

theorem nodup_keys_put {key : κ} {table : Table κ α} (value : α) (hnd : table.keys.Nodup) :
    (table.put key value).keys.Nodup := by
  by_cases h : key ∈ table.keys
  · rw [keys_put_of_mem h]; exact hnd
  · rw [keys_put_of_not_mem h]
    exact List.nodup_append.2 ⟨hnd, List.nodup_singleton _, fun a ha b hb => by
      rintro rfl; rw [List.mem_singleton.1 hb] at ha; exact h ha⟩

theorem remove_put_of_not_mem {key : κ} {table : Table κ α} (value : α) (h : key ∉ table.keys) :
    (table.put key value).filter (fun entry => entry.1 ≠ key) = table := by
  induction table with
  | nil => simp [put]
  | cons entry rest ih =>
    have hk : entry.1 ≠ key := fun hk => h (by simp [keys, hk])
    have hr : key ∉ keys rest := fun hr => h (List.mem_cons_of_mem _ hr)
    rw [put, if_neg hk, List.filter_cons_of_pos (by simpa using hk), ih hr]

end Table

namespace Session

variable {s : Session} {id other : Int} {mark : Mark}

/-! ### Marks -/

@[simp] theorem mark?_setMark (id other : Int) (mark : Mark) (s : Session) :
    (s.setMark id mark).mark? other = if other = id then some mark else s.mark? other :=
  Table.get?_put ..

@[simp] theorem mark?_unmark (id other : Int) (s : Session) :
    (s.unmark id).mark? other = if other = id then none else s.mark? other :=
  Table.get?_remove ..

@[simp] theorem mark?_report (event : Event) (id : Int) (s : Session) :
    (s.report event).mark? id = s.mark? id := rfl

@[simp] theorem mark?_declare (subject : Subject) (id : Int) (s : Session) :
    (s.declare subject).mark? id = s.mark? id := by
  unfold declare; split <;> rfl

@[simp] theorem mark?_empty (id : Int) : ({} : Session).mark? id = none := rfl

theorem marks_declare (subject : Subject) (s : Session) : (s.declare subject).marks = s.marks := by
  unfold declare; split <;> rfl

theorem marks_declareAll (subjects : List Subject) (s : Session) :
    (s.declareAll subjects).marks = s.marks := by
  induction subjects generalizing s with
  | nil => rfl
  | cons subject rest ih => exact (ih _).trans (marks_declare subject s)

@[simp] theorem mark?_declareAll (subjects : List Subject) (id : Int) (s : Session) :
    (s.declareAll subjects).mark? id = s.mark? id := by
  rw [mark?, marks_declareAll]; rfl

/-- A node that fails before anything else is looked at leaves no trace. -/
theorem unmark_setMark (h : s.mark? id = none) : (s.setMark id mark).unmark id = s := by
  have hm := Table.remove_put_of_not_mem mark (Table.get?_eq_none_iff.1 h)
  simp only [setMark, unmark, hm]

/-! ### Names -/

theorem name?_declare (subject : Subject) (id : Int) (s : Session) :
    (s.declare subject).name? id =
      (s.name? id).or (if subject.node.id = id then some subject.name else none) := by
  unfold declare
  split
  · next h => split
              · next hid => subst hid; simp [h]
              · simp
  · next h =>
    show Table.get? id (s.names.put subject.node.id subject.name) = _
    rw [Table.get?_put]
    split
    · next hid => subst hid; simp [h]
    · next hid => simp [Ne.symm hid, name?]

/-- The name of a node is that of the first declaration of its type. -/
theorem name?_declareAll (subjects : List Subject) (id : Int) (s : Session) :
    (s.declareAll subjects).name? id =
      (s.name? id).or ((subjects.find? (·.node.id = id)).map (·.name)) := by
  induction subjects generalizing s with
  | nil => simp [declareAll]
  | cons subject rest ih =>
    show ((s.declare subject).declareAll rest).name? id = _
    rw [ih, name?_declare, Option.or_assoc, List.find?_cons]
    split <;> simp_all

/-! ### Marked ids -/

def IsResolved (s : Session) (id : Int) : Prop := ∃ schema, s.mark? id = some (.resolved schema)

/-- The id is resolved or being resolved. -/
def IsMarked (s : Session) (id : Int) : Prop := s.mark? id ≠ none

theorem isMarked_of_mark? (h : s.mark? id = some mark) : s.IsMarked id := by simp [IsMarked, h]

theorem not_isMarked_of_mark? (h : s.mark? id = none) : ¬s.IsMarked id := not_not.2 h

theorem isMarked_iff : s.IsMarked id ↔ s.mark? id = some .resolving ∨ s.IsResolved id := by
  unfold IsMarked IsResolved
  rcases h : s.mark? id with _ | mark
  · simp
  · cases mark <;> simp

end Session

end TypeSchema
