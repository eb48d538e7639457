/-!
# Tables

A table lists its entries in the order in which their keys first arrived. Writing to a key that is
already there changes the value and moves nothing.
-/

namespace TypeSchema

/-- Entries in order of first arrival. -/
abbrev Table (κ α : Type) : Type := List (κ × α)

namespace Table

variable {κ α : Type} [DecidableEq κ]

def put (key : κ) (value : α) : Table κ α → Table κ α
  | [] => [(key, value)]
  | entry :: rest => if entry.1 = key then (key, value) :: rest else entry :: put key value rest

def get? (key : κ) : Table κ α → Option α
  | [] => none
  | entry :: rest => if entry.1 = key then some entry.2 else get? key rest

def keys (table : Table κ α) : List κ := table.map (·.1)

/-- The table left by writing `entries` one after the other: of equal keys the last value stays, at
the place of the first. -/
def ofEntries (entries : List (κ × α)) : Table κ α :=
  entries.foldl (fun table entry => table.put entry.1 entry.2) []

/-! ### What one write does -/

theorem get?_put_self (key : κ) (value : α) (table : Table κ α) :
    (table.put key value).get? key = some value := by
  induction table with
  | nil => simp [put, get?]
  | cons entry rest ih =>
    unfold put
    split
    · simp [get?]
    · next h => simp [get?, h, ih]

theorem get?_put_of_ne {key other : κ} (h : other ≠ key) (value : α) (table : Table κ α) :
    (table.put key value).get? other = table.get? other := by
  induction table with
  | nil => simp [put, get?, h.symm]
  | cons entry rest ih =>
    unfold put
    split
    · next hk => subst hk; simp [get?, h.symm]
    · simp [get?, ih]

theorem keys_put_of_mem {key : κ} {table : Table κ α} (h : key ∈ table.keys) (value : α) :
    (table.put key value).keys = table.keys := by
  induction table with
  | nil => simp [keys] at h
  | cons entry rest ih =>
    unfold put
    split
    · next hk => subst hk; simp [keys]
    · next hk =>
      have hr : key ∈ keys rest := by
        rcases List.mem_cons.mp h with h | h
        · exact absurd h.symm hk
        · exact h
      have := ih hr
      simp only [keys, List.map_cons] at this ⊢
      rw [this]

theorem keys_put_of_not_mem {key : κ} {table : Table κ α} (h : key ∉ table.keys) (value : α) :
    (table.put key value).keys = table.keys ++ [key] := by
  induction table with
  | nil => simp [put, keys]
  | cons entry rest ih =>
    have hk : entry.1 ≠ key := fun hk => h (by simp [keys, hk])
    have hr : key ∉ keys rest := fun hr => h (List.mem_cons_of_mem _ hr)
    have := ih hr
    unfold put
    rw [if_neg hk]
    simp only [keys, List.map_cons, List.cons_append] at this ⊢
    rw [this]

end Table

end TypeSchema
