import TypeSchema.Real.Basic
import TypeSchema.Table

/-!
# Values

A value is what a JSON or YAML text denotes and what every written text is made of: a scalar, a
list, or a map whose entries keep their order. The keys of a map are scalars, and usually texts.

Texts are sequences of characters, without surrogates. YAML also has bytes, sets, lists of pairs and
collections that contain themselves, which are no values here; their readers call them foreign.
-/

namespace TypeSchema

inductive Scalar where
  | null
  | bool (b : Bool)
  | int (n : Int)
  | real (x : Real64)
  | text (s : String)
  /-- A calendar date; `timed` tells that a time of day follows. -/
  | date (written : String) (timed : Bool)
deriving DecidableEq, Repr

inductive Value where
  | scalar (s : Scalar)
  | list (items : List Value)
  | map (entries : List (Scalar × Value))
deriving Repr

namespace Value

def null : Value := .scalar .null

def bool (b : Bool) : Value := .scalar (.bool b)

def int (n : Int) : Value := .scalar (.int n)

def real (x : Real64) : Value := .scalar (.real x)

def text (s : String) : Value := .scalar (.text s)

def texts (items : List String) : Value := .list (items.map text)

def ints (items : List Int) : Value := .list (items.map int)

def fields (entries : List (String × Value)) : Value :=
  .map (entries.map fun entry => (.text entry.1, entry.2))

def field? (name : String) : Value → Option Value
  | .map entries => Table.get? (.text name) entries
  | _ => none

instance : Inhabited Value := ⟨null⟩

/-! ### Equality -/

mutual

def decEq : (v w : Value) → Decidable (v = w)
  | .scalar s, .scalar t => decidable_of_iff (s = t) (by simp)
  | .list vs, .list ws =>
    have := decEqList vs ws
    decidable_of_iff (vs = ws) (by simp)
  | .map es, .map fs =>
    have := decEqEntries es fs
    decidable_of_iff (es = fs) (by simp)
  | .scalar _, .list _ | .scalar _, .map _ | .list _, .scalar _ | .list _, .map _ | .map _, .scalar _
  | .map _, .list _ => isFalse nofun

def decEqList : (vs ws : List Value) → Decidable (vs = ws)
  | [], [] => isTrue rfl
  | v :: vs, w :: ws =>
    have := decEq v w
    have := decEqList vs ws
    decidable_of_iff (v = w ∧ vs = ws) (by simp)
  | [], _ :: _ | _ :: _, [] => isFalse nofun

def decEqEntries : (es fs : List (Scalar × Value)) → Decidable (es = fs)
  | [], [] => isTrue rfl
  | (s, v) :: es, (t, w) :: fs =>
    have := decEq v w
    have := decEqEntries es fs
    decidable_of_iff (s = t ∧ v = w ∧ es = fs) (by simp [and_assoc])
  | [], _ :: _ | _ :: _, [] => isFalse nofun

end

instance : DecidableEq Value := decEq

end Value

end TypeSchema
