import TypeSchema.Fragment
import TypeSchema.Json.Reader
import TypeSchema.Proofs.Marks

/-!
# Pointers

A reference is a pointer behind a number sign: tokens with a slash before each, in which `~1` stands
for a slash and `~0` for a tilde. Before it is split into tokens the octets that are written with a
percent sign are put in, and all of them must be UTF-8. `Pointer.resolve?` follows a reference into a
document.
-/

namespace TypeSchema

theorem Value.field?_fields (name : String) (entries : List (String × Value)) :
    (Value.fields entries).field? name = Table.get? name entries := by
  show Table.get? (.text name) (entries.map fun entry => (Scalar.text entry.1, entry.2)) = _
  induction entries with
  | nil => rfl
  | cons entry rest ih => simp only [List.map_cons, Table.get?, Scalar.text.injEq, ih]

namespace Pointer

/-- The key that a token writes; no other tilde may stand in it. -/
def unescape? : List Char → Option (List Char)
  | [] => some []
  | '~' :: '0' :: rest => (unescape? rest).map ('~' :: ·)
  | '~' :: '1' :: rest => (unescape? rest).map ('/' :: ·)
  | c :: rest => if c = '~' then none else (unescape? rest).map (c :: ·)

/-- The octets of what stands behind the number sign: a percent sign and two digits are one octet, any
other character is those that encode it. -/
def octets? : List Char → Option ByteArray
  | [] => some .empty
  | '%' :: high :: low :: rest => do
    return [UInt8.ofNat (← Json.hexNumber? [high, low])].toByteArray ++ (← octets? rest)
  | c :: rest => if c = '%' then none else (octets? rest).map ((String.utf8EncodeChar c).toByteArray ++ ·)

def unquote? (cs : List Char) : Option (List Char) :=
  (octets? cs).bind fun octets => octets.utf8Decode?.map (·.toList)

def tokensOf? : List Char → Option (List String)
  | [] => some []
  | '/' :: rest => (rest.splitOn '/').mapM fun token => (unescape? token).map String.ofList
  | _ => none

def tokens? (reference : String) : Option (List String) :=
  match reference.toList with
  | '#' :: fragment => (unquote? fragment).bind tokensOf?
  | _ => none

def child? (token : String) : Value → Option Value
  | .map entries => Table.get? (.text token) entries
  | .list items => (items.zipIdx.find? fun item => toString item.2 = token).map (·.1)
  | .scalar _ => none

def resolve? (document : Value) (reference : String) : Option Value :=
  (tokens? reference).bind fun tokens => tokens.foldlM (fun v token => child? token v) document

/-- The key that a name is taken for when it stands in a pointer as it is. -/
def key? (name : String) : Option String := do
  let cs ← unquote? name.toList
  if '/' ∈ cs then none else (unescape? cs).map String.ofList

theorem unescape?_of_not_mem {cs : List Char} (h : '~' ∉ cs) : unescape? cs = some cs := by
  induction cs with
  | nil => rfl
  | cons c cs ih =>
    obtain ⟨hc, hcs⟩ := not_or.1 (mt List.mem_cons.2 h)
    have hstep : unescape? (c :: cs) = if c = '~' then none else (unescape? cs).map (c :: ·) := by
      rw [unescape?]
      · rintro rest rfl; exact absurd rfl hc
      · rintro rest rfl; exact absurd rfl hc
    rw [hstep, if_neg (Ne.symm hc), ih hcs]
    rfl

/-- Characters that are no percent sign stand for themselves, whatever follows them. -/
theorem unquote?_append {cs : List Char} (h : '%' ∉ cs) (rest : List Char) :
    unquote? (cs ++ rest) = (unquote? rest).map (cs ++ ·) := by
  induction cs with
  | nil => simp
  | cons c cs ih =>
    obtain ⟨hc, hcs⟩ := not_or.1 (mt List.mem_cons.2 h)
    have hstep : octets? (c :: (cs ++ rest)) = (octets? (cs ++ rest)).map ([c].utf8Encode ++ ·) := by
      rw [octets?, if_neg (Ne.symm hc), List.utf8Encode_singleton]
      rintro high low rest rfl
      exact absurd rfl hc
    have hdecode : ∀ octets : ByteArray, ([c].utf8Encode ++ octets).utf8Decode?.map (·.toList) =
        (octets.utf8Decode?.map (·.toList)).map (c :: ·) := fun octets => by
      rw [ByteArray.utf8Decode?_utf8Encode_singleton_append]
      cases octets.utf8Decode? <;> simp
    calc unquote? (c :: (cs ++ rest))
        = (unquote? (cs ++ rest)).map (c :: ·) := by
          rw [unquote?, hstep, unquote?]
          cases octets? (cs ++ rest) with
          | none => rfl
          | some octets => exact hdecode octets
      _ = (unquote? rest).map (c :: cs ++ ·) := by
          rw [ih hcs, Option.map_map]
          rfl

theorem unquote?_of_not_mem {cs : List Char} (h : '%' ∉ cs) : unquote? cs = some cs := by
  have hnil : unquote? [] = some [] := by rfl
  have happend := unquote?_append h []
  rwa [List.append_nil, hnil, Option.map_some, List.append_nil] at happend

theorem key?_of_plain {name : String} (hpercent : '%' ∉ name.toList) (hslash : '/' ∉ name.toList)
    (htilde : '~' ∉ name.toList) : key? name = some name := by
  rw [key?, unquote?_of_not_mem hpercent, Option.bind_eq_bind, Option.bind_some, if_neg hslash,
    unescape?_of_not_mem htilde]
  simp

theorem tokens?_reference (name : String) :
    tokens? ("#/definitions/" ++ name) = (unquote? name.toList).bind fun cs =>
      ((cs.splitOn '/').mapM fun token => (unescape? token).map String.ofList).map
        ("definitions" :: ·) := by
  have htoList : ("#/definitions/" ++ name).toList =
      '#' :: ("/definitions/".toList ++ name.toList) := by
    rw [String.toList_append]
    rfl
  have hsplit : ∀ cs, ("definitions".toList ++ '/' :: cs).splitOn '/' =
      "definitions".toList :: cs.splitOn '/' :=
    List.splitOn_append_cons_self_of_not_mem (by decide)
  have htoken : (unescape? "definitions".toList).map String.ofList = some "definitions" := by rfl
  have htokens : ∀ cs, tokensOf? ("/definitions/".toList ++ cs) =
      ((cs.splitOn '/').mapM fun token => (unescape? token).map String.ofList).map
        ("definitions" :: ·) := fun cs => by
    show ((("definitions".toList ++ '/' :: cs).splitOn '/').mapM _) = _
    rw [hsplit, List.mapM_cons, htoken]
    cases (cs.splitOn '/').mapM fun token => (unescape? token).map String.ofList <;> rfl
  rw [tokens?, htoList]
  show (unquote? ("/definitions/".toList ++ name.toList)).bind tokensOf? = _
  rw [unquote?_append (by decide), Option.bind_map]
  exact congrArg (unquote? name.toList).bind (funext htokens)

theorem length_of_mapM_eq_some {α β : Type} {f : α → Option β} {xs : List α} {ys : List β}
    (h : xs.mapM f = some ys) : ys.length = xs.length := by
  induction xs generalizing ys with
  | nil => cases h; rfl
  | cons x xs ih =>
    rw [List.mapM_cons] at h
    simp only [Option.bind_eq_bind, Option.bind_eq_some_iff] at h
    obtain ⟨y, -, zs, hzs, h⟩ := h
    cases h
    rw [List.length_cons, List.length_cons, ih hzs]

/-- A reference by name leads to an entry of the definitions exactly if the name can be read as a
key, and then to the entry of that key. -/
theorem tokens?_reference_eq_iff {name key : String} :
    tokens? ("#/definitions/" ++ name) = some ["definitions", key] ↔ key? name = some key := by
  rw [tokens?_reference, key?]
  rcases unquote? name.toList with _ | cs
  · exact iff_of_false (by simp) (by simp)
  rw [Option.bind_some, Option.bind_eq_bind, Option.bind_some]
  by_cases hslash : '/' ∈ cs
  · obtain ⟨xs, ys, rfl⟩ := List.append_of_mem hslash
    rw [if_pos hslash, List.splitOn_append_cons_self]
    refine iff_of_false (fun h => ?_) (by simp)
    obtain ⟨tokens, htokens, hkey⟩ := Option.map_eq_some_iff.1 h
    have hlen := length_of_mapM_eq_some htokens
    have hxs := List.length_pos_of_ne_nil (List.splitOn_ne_nil '/' xs)
    have hys := List.length_pos_of_ne_nil (List.splitOn_ne_nil '/' ys)
    have htoken : tokens.length = 1 := by cases hkey; rfl
    rw [List.length_append] at hlen
    omega
  · rw [if_neg hslash, List.splitOn_eq_singleton hslash, List.mapM_cons, List.mapM_nil]
    cases unescape? cs <;> simp

/-- A slash in a name ends the token, and the rest is looked for inside the entry. -/
example : tokens? "#/definitions/a/b" = some ["definitions", "a", "b"] := by decide

/-- A percent sign in a name stands for no percent sign. -/
example : key? "a%41" = some "aA" ∧ key? "50%" = none := by decide

theorem resolve?_bundle {uri reference key : String} {definitions : List (String × Value)}
    (h : tokens? reference = some ["definitions", key]) :
    resolve? (Fragment.bundle uri definitions) reference = Table.get? key definitions := by
  have hdefinitions : child? "definitions" (Fragment.bundle uri definitions) =
      some (.fields definitions) := rfl
  have hkey : child? key (.fields definitions) = Table.get? key definitions :=
    Value.field?_fields key definitions
  rw [resolve?, h, Option.bind_some, List.foldlM_cons, hdefinitions, Option.bind_eq_bind,
    Option.bind_some, List.foldlM_cons, hkey]
  cases Table.get? key definitions <;> rfl

end Pointer

end TypeSchema
