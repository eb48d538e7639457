import TypeSchema.Proofs.Accepted
import TypeSchema.Proofs.FlagWords
import TypeSchema.Proofs.Places
import TypeSchema.Proofs.Pointer

/-!
# Graphs that are saved

What a graph is written as is read as that graph, with or without the fields that have their default
values: every writer has its reader, `read_toValue`, and a field that was left out is read as what it
was. The graphs that can be read are the valid ones.
-/

namespace TypeSchema

open Value (orNull)

/-! ### Lists, choices and records that were written -/

namespace Reading

variable {α β : Type} {read : Value → Reading α} {write : α → Value}

theorem itemsFrom_map {as : List α} (h : ∀ a ∈ as, read (write a) = .ok a) (i : Nat) :
    itemsFrom read i (as.map write) = .ok as := by
  induction as generalizing i with
  | nil => rfl
  | cons a as ih =>
    obtain ⟨ha, has⟩ := List.forall_mem_cons.1 h
    rw [List.map_cons, itemsFrom, ha, ih has]
    rfl

theorem list_map {as : List α} (h : ∀ a ∈ as, read (write a) = .ok a) :
    list read (.list (as.map write)) = .ok as :=
  itemsFrom_map h 0

theorem nullable_orNull {a? : Option α} (h : ∀ a ∈ a?, write a ≠ .null ∧ read (write a) = .ok a) :
    nullable read (orNull write a?) = .ok a? := by
  cases a? with
  | none => rfl
  | some a =>
    obtain ⟨hnull, ha⟩ := h a rfl
    rw [orNull]
    unfold nullable
    split
    · next hw => exact absurd hw hnull
    · rw [ha]
      rfl

section Record

variable {detail : Detail} {entries : List (String × Value × Bool)} {name : String} {value : Value}
  {isDefault : Bool} {a : α}

/-- Fields of other names are not there. -/
theorem field?_record_of_not_mem (h : name ∉ entries.map (·.1)) : (detail.record entries).field? name = none := by
  rw [Detail.record, Value.field?_fields, Table.get?_eq_none_iff]
  intro hmem
  obtain ⟨⟨_, _⟩, hkept, rfl⟩ := List.mem_map.1 hmem
  obtain ⟨⟨name, value, isDefault⟩, hentry, hsome⟩ := List.mem_filterMap.1 hkept
  dsimp only at hsome
  split at hsome <;> cases hsome
  exact h (List.mem_map_of_mem hentry)

theorem field?_record_cons {entry : String × Value × Bool} :
    (detail.record (entry :: entries)).field? name =
      if entry.1 = name ∧ ¬(detail = .spare ∧ entry.2.2) then some entry.2.1
      else (detail.record entries).field? name := by
  obtain ⟨other, value, isDefault⟩ := entry
  rw [Detail.record, Value.field?_fields, Detail.record, Value.field?_fields, List.filterMap_cons]
  by_cases hleft : detail = .spare ∧ isDefault
  · simp [hleft]
  · simp [hleft, Table.get?]

/-- A record holds the fields it was made of, but for those that were left out. -/
theorem field?_record (hnodup : (entries.map (·.1)).Nodup) (hmem : (name, value, isDefault) ∈ entries) :
    (detail.record entries).field? name = if detail = .spare ∧ isDefault then none else some value := by
  induction entries with
  | nil => cases hmem
  | cons entry rest ih =>
    obtain ⟨hfresh, hnodup⟩ := List.nodup_cons.1 hnodup
    rw [field?_record_cons]
    rcases List.mem_cons.1 hmem with rfl | hmem
    · by_cases hleft : detail = .spare ∧ isDefault
      · simp [hleft, field?_record_of_not_mem hfresh]
      · simp [hleft]
    · have hne : entry.1 ≠ name := by
        rintro rfl
        exact hfresh (List.mem_map.2 ⟨_, hmem, rfl⟩)
      rw [if_neg (fun h => hne h.1), ih hnodup hmem]

/-- A field that is never left out. -/
theorem field_record (hnodup : (entries.map (·.1)).Nodup) (i : Nat) (hentry : entries[i]? = some (name, value, false))
    (hread : read value = .ok a) : field name read (detail.record entries) = .ok a := by
  rw [field, field?_record hnodup (List.mem_of_getElem? hentry), if_neg nofun]
  dsimp only
  rw [hread]
  rfl

/-- A field that may be left out where it has its default value. -/
theorem fieldOr_record {default : α} (hnodup : (entries.map (·.1)).Nodup) (i : Nat)
    (hentry : entries[i]? = some (name, value, isDefault)) (hread : read value = .ok a)
    (hdefault : isDefault → a = default) : fieldOr name default read (detail.record entries) = .ok a := by
  rw [fieldOr, field?_record hnodup (List.mem_of_getElem? hentry)]
  split
  · next part hpart =>
    split at hpart <;> cases hpart
    rw [hread]
    rfl
  · next hpart =>
    split at hpart
    · next hleft => rw [hdefault hleft.2]
    · cases hpart

theorem record_record {model : String} {read : Value → Reading α} :
    record model read (detail.record entries) = read (detail.record entries) := rfl

end Record

theorem document_fields (read : Value → Reading α) (entries : List (String × Value)) :
    document read (entries.map fun entry => (.text entry.1, entry.2)) = read (.fields entries) := by
  refine document_of_named (fun entry hentry => ?_) read
  obtain ⟨field, -, rfl⟩ := List.mem_map.1 hentry
  exact ⟨field.1, rfl⟩

theorem map_ok {f : α → β} {r : Reading α} {a : α} (h : r = .ok a) : f <$> r = .ok (f a) := by
  rw [h]
  rfl

theorem seq_ok {f : Reading (α → β)} {r : Reading α} {f' : α → β} {a : α} (hf : f = .ok f')
    (hr : r = .ok a) : f <*> r = .ok (f' a) := by
  rw [hf, hr]
  rfl

theorem map_eq_ok {f : α → β} {r : Reading α} {b : β} (h : r.map f = .ok b) : ∃ a, f a = b ∧ r = .ok a := by
  cases r <;> cases h
  exact ⟨_, rfl, rfl⟩

theorem both_eq_ok {r : Reading α} {r' : Reading β} {a : α} {b : β} (h : both r r' = .ok (a, b)) :
    r = .ok a ∧ r' = .ok b := by
  cases r <;> cases r' <;> cases h
  exact ⟨rfl, rfl⟩

theorem seq_eq_ok {f : Reading (α → β)} {r : Reading α} {b : β} (h : f <*> r = .ok b) :
    ∃ f' a, f' a = b ∧ r = .ok a ∧ f = .ok f' := by
  cases f <;> cases r <;> cases h
  exact ⟨_, _, rfl, rfl, rfl⟩

theorem flagWord_int {c : FlagClass} {word : Nat} (h : c.isSpelled word) : flagWord c (.int word) = .ok word := by
  have hread : c.read (.int word) = .ok word := if_pos h
  rw [flagWord, hread]

theorem texts_map (texts : List String) : list text (.texts texts) = .ok texts :=
  list_map fun _ _ => rfl

theorem ints_map (ints : List Int) : list integer (.ints ints) = .ok ints :=
  list_map fun _ _ => rfl

theorem nullable_int (i? : Option Int) : nullable integer (orNull .int i?) = .ok i? :=
  nullable_orNull fun _ _ => ⟨nofun, rfl⟩

theorem nullable_text (s? : Option String) : nullable text (orNull .text s?) = .ok s? :=
  nullable_orNull fun _ _ => ⟨nofun, rfl⟩

end Reading

/-! ### What was read -/

namespace Reading

variable {α : Type} {read : Value → Reading α} {v : Value} {a : α}

theorem below_eq_ok {step : Step} {r : Reading α} (h : r.below step = .ok a) : r = .ok a := by
  cases r <;> cases h
  rfl

theorem field_eq_ok {name : String} (h : field name read v = .ok a) : ∃ part, read part = .ok a := by
  have hpart := below_eq_ok h
  split at hpart
  · exact ⟨_, hpart⟩
  · cases hpart

theorem fieldOr_eq_ok {name : String} {default : α} (h : fieldOr name default read v = .ok a) :
    a = default ∨ ∃ part, read part = .ok a := by
  unfold fieldOr at h
  split at h
  · exact .inr ⟨_, below_eq_ok h⟩
  · cases h
    exact .inl rfl

theorem nullable_eq_ok (h : nullable read v = .ok (some a)) : read v = .ok a := by
  unfold nullable at h
  split at h
  · cases h
  · obtain ⟨_, hsome, hv⟩ := Reading.map_eq_ok h
    cases hsome
    exact hv

theorem record_eq_ok {model : String} (h : record model read v = .ok a) : read v = .ok a := by
  unfold record at h
  split at h
  · exact h
  · cases h

theorem exists_of_itemsFrom_eq_ok {items : List Value} {i : Nat} {as : List α}
    (h : itemsFrom read i items = .ok as) (ha : a ∈ as) : ∃ item, read item = .ok a := by
  induction items generalizing i as with
  | nil =>
    cases h
    cases ha
  | cons item rest ih =>
    obtain ⟨⟨first, others⟩, rfl, hboth⟩ := Reading.map_eq_ok h
    obtain ⟨hfirst, hothers⟩ := both_eq_ok hboth
    rcases List.mem_cons.1 ha with rfl | ha
    · exact ⟨item, below_eq_ok hfirst⟩
    · exact ih hothers ha

theorem list_eq_ok {as : List α} (h : list read v = .ok as) (ha : a ∈ as) : ∃ item, read item = .ok a := by
  unfold list at h
  split at h
  · exact exists_of_itemsFrom_eq_ok h ha
  · cases h

theorem isSpelled_of_flagWord {c : FlagClass} {word : Nat} (h : flagWord c v = .ok word) : c.isSpelled word := by
  unfold flagWord at h
  split at h <;> cases h
  next hread => exact FlagClass.isSpelled_of_read hread

theorem isSpelled_of_fieldOr {c : FlagClass} {name : String} {word default : Nat} (hdefault : c.isSpelled default)
    (h : fieldOr name default (flagWord c) v = .ok word) : c.isSpelled word := by
  rcases fieldOr_eq_ok h with rfl | ⟨part, hpart⟩
  · exact hdefault
  · exact isSpelled_of_flagWord hpart

theorem digitText_eq_ok {s : String} (h : digitText v = .ok s) :
    s ≠ "" ∧ ∀ c ∈ s.toList, Text.isDecimalDigit c := by
  unfold digitText at h
  split at h
  · split at h
    · next hdigits =>
      cases h
      simpa using hdigits
    · cases h
  · cases h

end Reading

open Reading

/-! ### The parts of a graph -/

/-- The flags are a word that can be read. -/
def Symbol.Valid (s : Symbol) : Prop := FlagClass.symbol.isSpelled s.flags

theorem Symbol.read_toValue {s : Symbol} (h : s.Valid) (detail : Detail) : Symbol.read (s.toValue detail) = .ok s := by
  have hnodup : ["name", "flags"].Nodup := by decide
  show _ = Reading.ok (Symbol.mk s.name s.flags)
  rw [Symbol.read, toValue, record_record]
  refine seq_ok ?_ (fieldOr_record hnodup 1 rfl (flagWord_int h) (by simp))
  exact map_ok (field_record hnodup 0 rfl rfl)

/-- There are digits, of whatever script. -/
def BigInt.Valid (n : BigInt) : Prop := n.digits ≠ "" ∧ ∀ c ∈ n.digits.toList, Text.isDecimalDigit c

theorem Reading.digitText_text {s : String} (hne : s ≠ "") (hdigits : ∀ c ∈ s.toList, Text.isDecimalDigit c) :
    digitText (.text s) = .ok s :=
  if_pos (by simp [hne, List.all_eq_true.2 hdigits])

theorem BigInt.read_toValue {n : BigInt} (h : n.Valid) (detail : Detail) :
    BigInt.read (n.toValue detail) = .ok n := by
  have hnodup : ["negative", "base10_value"].Nodup := by decide
  show _ = Reading.ok (BigInt.mk n.negative n.digits)
  rw [BigInt.read, toValue, record_record]
  refine seq_ok ?_ (field_record hnodup 1 rfl (digitText_text h.1 h.2))
  exact map_ok (fieldOr_record hnodup 0 rfl rfl (by simp))

theorem Literal.read_bigInt {entries : List (Scalar × Value)} {n : BigInt} (h : BigInt.read (.map entries) = .ok n) :
    Literal.read (.map entries) = .ok (.bigInt n) := by
  unfold Literal.read
  dsimp only
  rw [h]

theorem Literal.read_toValue {value : Literal} (h : ∀ n, value = .bigInt n → n.Valid) (detail : Detail) :
    Literal.read (value.toValue detail) = .ok value := by
  cases value with
  | bigInt n => exact Literal.read_bigInt (BigInt.read_toValue (h n rfl) detail)
  | int n => rfl
  | real x => rfl
  | text s => rfl

/-- The flags are a word that can be read. -/
def Member.Valid (m : Member) : Prop := FlagClass.symbol.isSpelled m.flags

theorem Member.read_toValue {m : Member} (h : m.Valid) (detail : Detail) : Member.read (m.toValue detail) = .ok m := by
  have hnodup : ["name", "type", "optional", "flags", "modifiers", "accessor_type"].Nodup := by decide
  show _ = Reading.ok (Member.mk m.name m.type m.optional m.flags m.modifiers m.accessorType)
  rw [Member.read, toValue, record_record]
  refine seq_ok ?_ (fieldOr_record hnodup 5 rfl (nullable_int _) (by simp))
  refine seq_ok ?_ (fieldOr_record hnodup 4 rfl (texts_map _) (by simp))
  refine seq_ok ?_ (fieldOr_record hnodup 3 rfl (flagWord_int h) (by simp))
  refine seq_ok ?_ (fieldOr_record hnodup 2 rfl rfl (by simp))
  refine seq_ok ?_ (field_record hnodup 1 rfl rfl)
  exact map_ok (field_record hnodup 0 rfl rfl)

/-- All flags are words that can be read, and a big integer that is the value has digits. -/
structure Node.Valid (n : Node) : Prop where
  flags : FlagClass.type.isSpelled n.flags
  objectFlags : FlagClass.object.isSpelled n.objectFlags
  symbol : ∀ s ∈ n.symbol, s.Valid
  bigInt : ∀ b, n.value = some (.bigInt b) → b.Valid
  members : ∀ m ∈ n.members, m.Valid

theorem Node.read_toValue {n : Node} (h : n.Valid) (detail : Detail) : Node.read (n.toValue detail) = .ok n := by
  have hnodup : ["id", "flags", "object_flags", "symbol", "value", "intrinsic_name", "types",
    "type_arguments", "target", "members", "string_index", "display"].Nodup := by decide
  have hsymbol : nullable Symbol.read (orNull (Symbol.toValue detail) n.symbol) = .ok n.symbol :=
    nullable_orNull fun s hs => ⟨nofun, Symbol.read_toValue (h.symbol s hs) detail⟩
  have hvalue : nullable Literal.read (orNull (Literal.toValue detail) n.value) = .ok n.value :=
    nullable_orNull fun value hvalue =>
      ⟨by cases value <;> nofun, Literal.read_toValue (by rintro b rfl; exact h.bigInt b hvalue) detail⟩
  show _ = Reading.ok (Node.mk n.id n.flags n.objectFlags n.symbol n.value n.intrinsicName n.types
    n.typeArguments n.target n.members n.stringIndex n.display)
  rw [Node.read, toValue, record_record]
  refine seq_ok ?_ (fieldOr_record hnodup 11 rfl (nullable_text _) (by simp))
  refine seq_ok ?_ (fieldOr_record hnodup 10 rfl (nullable_int _) (by simp))
  refine seq_ok ?_ (fieldOr_record hnodup 9 rfl (list_map fun m hm => Member.read_toValue (h.members m hm) detail) (by simp))
  refine seq_ok ?_ (fieldOr_record hnodup 8 rfl (nullable_int _) (by simp))
  refine seq_ok ?_ (fieldOr_record hnodup 7 rfl (ints_map _) (by simp))
  refine seq_ok ?_ (fieldOr_record hnodup 6 rfl (ints_map _) (by simp))
  refine seq_ok ?_ (fieldOr_record hnodup 5 rfl (nullable_text _) (by simp))
  refine seq_ok ?_ (fieldOr_record hnodup 4 rfl hvalue (by simp))
  refine seq_ok ?_ (fieldOr_record hnodup 3 rfl hsymbol (by simp))
  refine seq_ok ?_ (fieldOr_record hnodup 2 rfl (flagWord_int h.objectFlags) (by simp))
  refine seq_ok ?_ (field_record hnodup 1 rfl (flagWord_int h.flags))
  exact map_ok (field_record hnodup 0 rfl rfl)

theorem Declaration.read_toValue (d : Declaration) : Declaration.read d.toValue = .ok d := by
  obtain ⟨name, kind, type⟩ := d
  cases kind <;> rfl

theorem BigInt.valid_of_read {v : Value} {n : BigInt} (h : BigInt.read v = .ok n) : n.Valid := by
  obtain ⟨f, digits, rfl, hdigits, h⟩ := seq_eq_ok (record_eq_ok h)
  obtain ⟨negative, rfl, -⟩ := Reading.map_eq_ok h
  obtain ⟨part, hpart⟩ := field_eq_ok hdigits
  exact digitText_eq_ok hpart

theorem Literal.valid_of_read {v : Value} {n : BigInt} (h : Literal.read v = .ok (.bigInt n)) : n.Valid := by
  unfold Literal.read at h
  dsimp only at h
  split at h <;> try cases h
  split at h <;> cases h
  next hn => exact BigInt.valid_of_read hn

theorem Symbol.valid_of_read {v : Value} {s : Symbol} (h : Symbol.read v = .ok s) : s.Valid := by
  obtain ⟨f, flags, rfl, hflags, h⟩ := seq_eq_ok (record_eq_ok h)
  obtain ⟨name, rfl, -⟩ := Reading.map_eq_ok h
  exact isSpelled_of_fieldOr (by decide) hflags

theorem Member.valid_of_read {v : Value} {m : Member} (h : Member.read v = .ok m) : m.Valid := by
  obtain ⟨f, accessorType, rfl, -, h⟩ := seq_eq_ok (record_eq_ok h)
  obtain ⟨f, modifiers, rfl, -, h⟩ := seq_eq_ok h
  obtain ⟨f, flags, rfl, hflags, h⟩ := seq_eq_ok h
  obtain ⟨f, optional, rfl, -, h⟩ := seq_eq_ok h
  obtain ⟨f, type, rfl, -, h⟩ := seq_eq_ok h
  obtain ⟨name, rfl, -⟩ := Reading.map_eq_ok h
  exact isSpelled_of_fieldOr (by decide) hflags

theorem Node.valid_of_read {v : Value} {n : Node} (h : Node.read v = .ok n) : n.Valid := by
  obtain ⟨f, display, rfl, -, h⟩ := seq_eq_ok (record_eq_ok h)
  obtain ⟨f, stringIndex, rfl, -, h⟩ := seq_eq_ok h
  obtain ⟨f, members, rfl, hmembers, h⟩ := seq_eq_ok h
  obtain ⟨f, target, rfl, -, h⟩ := seq_eq_ok h
  obtain ⟨f, typeArguments, rfl, -, h⟩ := seq_eq_ok h
  obtain ⟨f, types, rfl, -, h⟩ := seq_eq_ok h
  obtain ⟨f, intrinsicName, rfl, -, h⟩ := seq_eq_ok h
  obtain ⟨f, value, rfl, hvalue, h⟩ := seq_eq_ok h
  obtain ⟨f, symbol, rfl, hsymbol, h⟩ := seq_eq_ok h
  obtain ⟨f, objectFlags, rfl, hobjectFlags, h⟩ := seq_eq_ok h
  obtain ⟨f, flags, rfl, hflags, h⟩ := seq_eq_ok h
  obtain ⟨id, rfl, -⟩ := Reading.map_eq_ok h
  constructor
  case flags =>
    obtain ⟨part, hpart⟩ := field_eq_ok hflags
    exact isSpelled_of_flagWord hpart
  case objectFlags => exact isSpelled_of_fieldOr (by decide) hobjectFlags
  case symbol =>
    rintro s ⟨⟩
    obtain hnone | ⟨part, hpart⟩ := fieldOr_eq_ok hsymbol
    · cases hnone
    · exact Symbol.valid_of_read (nullable_eq_ok hpart)
  case bigInt =>
    rintro b rfl
    obtain hnone | ⟨part, hpart⟩ := fieldOr_eq_ok hvalue
    · cases hnone
    · exact Literal.valid_of_read (nullable_eq_ok hpart)
  case members =>
    intro m hm
    obtain rfl | ⟨part, hpart⟩ := fieldOr_eq_ok hmembers
    · cases hm
    · obtain ⟨item, hitem⟩ := list_eq_ok hpart hm
      exact Member.valid_of_read hitem

/-! ### Graphs -/

namespace Graph

variable {g : Graph}

/-- What a graph must be to be accepted; that its fields have the right types goes without saying. -/
structure Valid (g : Graph) : Prop where
  closed : g.Closed
  nodes : ∀ n ∈ g.nodes, n.Valid

theorem readFields_toValue (h : g.Valid) (detail : Detail) : readFields (g.toValue detail) = .ok g := by
  have hnodup : ["nodes", "declarations"].Nodup := by decide
  show _ = Reading.ok (Graph.mk g.nodes g.declarations)
  rw [readFields, toValue]
  refine seq_ok ?_ (fieldOr_record hnodup 1 rfl (list_map fun d _ => d.read_toValue) (by simp))
  exact map_ok (field_record hnodup 0 rfl (list_map fun n hn => Node.read_toValue (h.nodes n hn) detail))

theorem ofValue_toValue (h : g.Valid) (detail : Detail) (p : Path) : Graph.ofValue p (g.toValue detail) = .ok g := by
  obtain ⟨entries, hentries⟩ : ∃ entries, g.toValue detail = .fields entries := ⟨_, rfl⟩
  have hread : Graph.read (entries.map fun entry => (.text entry.1, entry.2)) = .ok g := by
    rw [Graph.read, document_fields, ← hentries, readFields_toValue h, check, h.closed.checkClosed_eq]
  rw [hentries]
  exact Document.accept_of_read hread

theorem valid_of_read {entries : List (Scalar × Value)} (h : Graph.read entries = .ok g) : g.Valid := by
  refine ⟨closed_of_read h, fun n hn => ?_⟩
  obtain ⟨fields, hfields, hcheck⟩ := check_eq_ok (document_eq_ok h)
  obtain rfl : fields = g := by
    unfold checkClosed at hcheck
    split at hcheck <;> cases hcheck
    rfl
  obtain ⟨f, declarations, rfl, -, hfields⟩ := seq_eq_ok hfields
  obtain ⟨nodes, rfl, hnodes⟩ := Reading.map_eq_ok hfields
  obtain ⟨part, hpart⟩ := field_eq_ok hnodes
  obtain ⟨v, hv⟩ := list_eq_ok hpart hn
  exact Node.valid_of_read hv

/-- The valid graphs are those that some document denotes. -/
theorem exists_read_iff_valid : (∃ entries, Graph.read entries = .ok g) ↔ g.Valid := by
  refine ⟨fun ⟨_, h⟩ => valid_of_read h, fun h => ?_⟩
  exact Document.accept_eq_ok (ofValue_toValue h .full ⟨"", []⟩)

/-- Saving loses nothing: what a valid graph is written as, with or without its default values, is
accepted and is that graph, and so it is loaded from the file that it was saved to. That the text of the
file denotes the value which it was made of is what is asked of the text formats. -/
theorem load_save (h : g.Valid) (p : Path) :
    (∀ detail, Graph.ofValue p (g.toValue detail) = .ok g) ∧
      ∀ s s', Graph.save s p g = .ok s' →
        Document.parse p (String.ofList (Text.unifyBreaks (g.saved p).toList)) = .ok (g.toValue .spare) →
        Graph.load s' p = .ok g := by
  refine ⟨fun detail => ofValue_toValue h detail p, fun s s' hsave hparse => ?_⟩
  have hread : Document.readFile s' p = .ok (String.ofList (Text.unifyBreaks (g.saved p).toList)) := by
    rw [Document.readFile, Store.read_write hsave]
  rw [Graph.load, hread, ok_bind, hparse, ok_bind, ofValue_toValue h .spare p]

/-- A node with a flag that has no name, a text of digits for its value, and a member without flags. -/
def odd : Graph where
  nodes := [{
    id := 1, flags := 1 <<< 22, objectFlags := 0, symbol := none, value := some (.text "1")
    intrinsicName := none, types := [], typeArguments := [], target := none
    members := [⟨"", 1, false, 0, [], none⟩], stringIndex := none, display := none }]
  declarations := []

theorem valid_odd : odd.Valid where
  closed := ⟨by decide, by decide, by decide⟩
  nodes n hn := by
    cases List.mem_singleton.1 hn
    refine ⟨by decide, by decide, nofun, nofun, fun m hm => ?_⟩
    cases List.mem_singleton.1 hm
    exact FlagClass.isSpelled_of_lt (by decide)

theorem load_save_odd :
    odd.Valid ∧ ∃ s, Graph.save {} (Path.ofText "odd.yaml") odd = .ok s ∧
      Graph.load s (Path.ofText "odd.yaml") = .ok odd := by
  have hparse : Document.parse (Path.ofText "odd.yaml") (String.ofList (Text.unifyBreaks
      (odd.saved (Path.ofText "odd.yaml")).toList)) = .ok (odd.toValue .spare) :=
    eq_ok_of_toOption (by decide +kernel)
  exact ⟨valid_odd, _, rfl, (load_save valid_odd (Path.ofText "odd.yaml")).2 {} _ rfl hparse⟩

end Graph

end TypeSchema
