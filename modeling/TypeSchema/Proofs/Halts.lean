import TypeSchema.Proofs.Accepted
import TypeSchema.Proofs.FlagWords

/-!
# What ends a reading

A document has flag words in some of its fields, `Graph.flagWords`, and its reading halts at the first
of them that is written in a way that holds no names, `FlagClass.Halts`, or at a field of the whole
whose name is no text. Nothing else can halt it, whatever the values are: `Graph.read_eq_halt_iff`.
-/

namespace TypeSchema

/-! ### Flag words -/

/-- What the names of a flag word are written in: the items of a list, the keys of a map. -/
def Value.names? : Value → Option (List Value)
  | .scalar _ => none
  | .list items => some items
  | .map entries => some (entries.map fun entry => .scalar entry.1)

/-- Of all scalars, these stand for no integer and hold no names. -/
def Scalar.HoldsNoNames : Scalar → Prop
  | .real _ | .date .. => True
  | .null | .bool _ | .int _ | .text _ => False

namespace FlagClass

variable {c : FlagClass}

/-- The text names a flag, blanks around it aside, or it is blank. -/
def Knows (c : FlagClass) (written : String) : Prop :=
  let name := String.ofList (Text.trim Text.isBlank written.toList)
  name = "" ∨ (c.ofName? name).isSome

/-- Behind names that are all known comes an item of this kind, which is no text. -/
inductive Stops (c : FlagClass) : List Value → String → Prop
  | here {item rest} : (∀ written, item ≠ .text written) → Stops c (item :: rest) item.kindName
  | later {written rest kind} : c.Knows written → Stops c rest kind → Stops c (.text written :: rest) kind

/-- The value is no flag word, and not for a name that is unknown. -/
inductive Halts (c : FlagClass) : Value → FlagFault → Prop
  | scalar {s : Scalar} : s.HoldsNoNames → Halts c (.scalar s) (.notNames s.kindName)
  | names {v items kind} : v.names? = some items → c.Stops items kind → Halts c v (.nameNotText kind)

theorem knows_iff {written : String} : c.Knows written ↔ (c.wordOf? (nameIn written)).isSome := by
  show nameIn written = "" ∨ (c.ofName? (nameIn written)).isSome ↔ _
  unfold wordOf?
  by_cases hempty : nameIn written = "" <;> simp [hempty]

theorem addName_of_knows {written : String} (h : c.Knows written) (word : Nat) :
    ∃ word', c.addName word written = .ok word' := by
  obtain ⟨bit, hbit⟩ := Option.isSome_iff_exists.1 (knows_iff.1 h)
  exact ⟨word ||| bit, by rw [addName_eq, hbit]⟩

theorem addName_of_not_knows {written : String} (h : ¬c.Knows written) (word : Nat) :
    ∃ name, c.addName word written = .error (.unknownName c name) := by
  rw [knows_iff, Option.not_isSome_iff_eq_none] at h
  exact ⟨nameIn written, by rw [addName_eq, h]⟩

/-- Adding items goes wrong at a name that is unknown or at an item that is no text. -/
theorem foldlM_addItem_eq_error {items : List Value} {word : Nat} {fault : FlagFault}
    (h : items.foldlM c.addItem word = .error fault) :
    (∃ name, fault = .unknownName c name) ∨ ∃ kind, fault = .nameNotText kind := by
  induction items generalizing word with
  | nil => cases h
  | cons item rest ih =>
    rw [List.foldlM_cons] at h
    cases hitem : c.addItem word item with
    | ok word' => exact ih (by rwa [hitem] at h)
    | error fault' =>
      rw [hitem] at h
      cases h
      unfold addItem at hitem
      split at hitem
      · next written =>
        by_cases hknows : c.Knows written
        · obtain ⟨word', hword⟩ := addName_of_knows hknows word
          cases hword.symm.trans hitem
        · obtain ⟨name, hname⟩ := addName_of_not_knows hknows word
          cases hname.symm.trans hitem
          exact .inl ⟨name, rfl⟩
      · cases hitem
        exact .inr ⟨_, rfl⟩

theorem stops_text_iff {written kind : String} {rest : List Value} :
    c.Stops (.text written :: rest) kind ↔ c.Knows written ∧ c.Stops rest kind := by
  constructor
  · rintro (hitem | ⟨hknows, hrest⟩)
    · exact absurd rfl (hitem written)
    · exact ⟨hknows, hrest⟩
  · rintro ⟨hknows, hrest⟩
    exact .later hknows hrest

theorem not_stops_texts (texts : List String) (kind : String) : ¬c.Stops (texts.map .text) kind := by
  induction texts with
  | nil => exact nofun
  | cons written rest ih =>
    rw [List.map_cons, stops_text_iff]
    exact fun h => ih h.2

theorem foldlM_addItem_iff_stops {items : List Value} {word : Nat} {kind : String} :
    items.foldlM c.addItem word = .error (.nameNotText kind) ↔ c.Stops items kind := by
  induction items generalizing word with
  | nil => exact iff_of_false nofun nofun
  | cons item rest ih =>
    rw [List.foldlM_cons]
    by_cases htext : ∃ written, item = .text written
    · obtain ⟨written, rfl⟩ := htext
      rw [stops_text_iff]
      by_cases hknows : c.Knows written
      · obtain ⟨word', hword⟩ := addName_of_knows hknows word
        have hitem : c.addItem word (.text written) = .ok word' := hword
        rw [hitem, and_iff_right hknows, ← @ih word']
        rfl
      · obtain ⟨name, hname⟩ := addName_of_not_knows hknows word
        have hitem : c.addItem word (.text written) = .error (.unknownName c name) := hname
        rw [hitem]
        exact iff_of_false nofun fun h => hknows h.1
    · have hitem : c.addItem word item = .error (.nameNotText item.kindName) := by
        unfold addItem
        split
        · next written => exact absurd ⟨written, rfl⟩ htext
        · rfl
      rw [hitem]
      constructor
      · intro h
        cases h
        exact .here fun written hwritten => htext ⟨written, hwritten⟩
      · rintro (_ | _)
        · rfl
        · exact absurd ⟨_, rfl⟩ htext

end FlagClass

namespace Reading

variable {c : FlagClass} {v : Value}

theorem flagWord_of_names {items : List Value} (h : v.names? = some items) {fault : FlagFault} :
    flagWord c v = .halt (.flags fault) ↔ ∃ kind, fault = .nameNotText kind ∧ c.Stops items kind := by
  have hread : c.read v = items.foldlM c.addItem 0 := by
    cases v <;> cases h <;> rfl
  rw [flagWord, hread]
  cases hitems : items.foldlM c.addItem 0 with
  | ok word =>
    refine iff_of_false nofun ?_
    rintro ⟨kind, rfl, hstops⟩
    cases (FlagClass.foldlM_addItem_iff_stops.2 hstops).symm.trans hitems
  | error fault' =>
    obtain ⟨name, rfl⟩ | ⟨kind, rfl⟩ := FlagClass.foldlM_addItem_eq_error hitems
    · refine iff_of_false nofun ?_
      rintro ⟨kind, rfl, hstops⟩
      cases (FlagClass.foldlM_addItem_iff_stops.2 hstops).symm.trans hitems
    · have hkind := FlagClass.foldlM_addItem_iff_stops.1 hitems
      constructor
      · intro h
        cases h
        exact ⟨kind, rfl, hkind⟩
      · rintro ⟨kind', rfl, hstops⟩
        cases (FlagClass.foldlM_addItem_iff_stops.2 hstops).symm.trans hitems
        rfl

theorem flagWord_text_ne_halt (written : String) (cause : Halt) : flagWord c (.text written) ≠ .halt cause := by
  have hread : c.read (.text written) =
      ((FlagClass.splitBars [] written.toList).map Value.text).foldlM c.addItem 0 := by
    rw [List.foldlM_map]
    rfl
  rw [flagWord, hread]
  cases hnames : ((FlagClass.splitBars [] written.toList).map Value.text).foldlM c.addItem 0 with
  | ok word => exact nofun
  | error fault =>
    obtain ⟨name, rfl⟩ | ⟨kind, rfl⟩ := FlagClass.foldlM_addItem_eq_error hnames
    · exact nofun
    · exact absurd (FlagClass.foldlM_addItem_iff_stops.1 hnames) (FlagClass.not_stops_texts _ _)

theorem flagWord_integer_ne_halt {n : Int} (h : c.read v = c.ofInteger n) (cause : Halt) :
    flagWord c v ≠ .halt cause := by
  rw [flagWord, h, FlagClass.ofInteger]
  cases c.isSpelled (c.ofInt n) <;> exact nofun

theorem flagWord_eq_halt_iff {fault : FlagFault} : flagWord c v = .halt (.flags fault) ↔ c.Halts v fault := by
  have hnames : ∀ {items}, v.names? = some items →
      (flagWord c v = .halt (.flags fault) ↔ c.Halts v fault) := by
    intro items hitems
    rw [flagWord_of_names hitems]
    constructor
    · rintro ⟨kind, rfl, hstops⟩
      exact .names hitems hstops
    · rintro (_ | ⟨hitems', hstops⟩)
      · cases hitems
      · cases hitems.symm.trans hitems'
        exact ⟨_, rfl, hstops⟩
  cases v with
  | list items => exact hnames rfl
  | map entries => exact hnames rfl
  | scalar s =>
    cases s with
    | null =>
      refine iff_of_false nofun ?_
      rintro (⟨⟨⟩⟩ | ⟨⟨⟩, -⟩)
    | bool | int =>
      refine iff_of_false (flagWord_integer_ne_halt rfl _) ?_
      rintro (⟨⟨⟩⟩ | ⟨⟨⟩, -⟩)
    | text written =>
      refine iff_of_false (flagWord_text_ne_halt written _) ?_
      rintro (⟨⟨⟩⟩ | ⟨⟨⟩, -⟩)
    | real | date =>
      constructor
      · intro h
        cases h
        exact .scalar trivial
      · rintro (_ | ⟨⟨⟩, -⟩)
        rfl

theorem flagWord_ne_halt_fieldName : flagWord c v ≠ .halt .fieldNameNotText := by
  unfold flagWord
  split <;> exact nofun

/-! ### Parts of a reading -/

def halted? {α : Type} : Reading α → Option Halt
  | .halt cause => some cause
  | _ => none

section Parts

variable {α β : Type} {r : Reading α} {read : Value → Reading α} {name : String}

theorem halted?_eq_some_iff {cause : Halt} : r.halted? = some cause ↔ r = .halt cause := by
  cases r <;> simp [halted?]

@[simp] theorem halted?_ok (a : α) : (ok a).halted? = none := rfl

@[simp] theorem halted?_fault (f : Fault) : (fault f : Reading α).halted? = none := rfl

@[simp] theorem halted?_map (f : α → β) (r : Reading α) : (r.map f).halted? = r.halted? := by
  cases r <;> rfl

@[simp] theorem halted?_fmap (f : α → β) (r : Reading α) : (f <$> r).halted? = r.halted? := halted?_map f r

/-- The first of two parts that halts ends both. -/
@[simp] theorem halted?_both (r : Reading α) (r' : Reading β) :
    (both r r').halted? = r.halted?.or r'.halted? := by
  cases r <;> cases r' <;> rfl

@[simp] theorem halted?_seq (f : Reading (α → β)) (r : Reading α) :
    (f <*> r).halted? = f.halted?.or r.halted? :=
  (halted?_map ..).trans (halted?_both ..)

@[simp] theorem halted?_below (step : Step) (r : Reading α) : (r.below step).halted? = r.halted? := by
  cases r <;> rfl

theorem halted?_field (name : String) (read : Value → Reading α) (v : Value) :
    (field name read v).halted? = (v.field? name).bind fun part => (read part).halted? := by
  rw [field, halted?_below]
  cases v.field? name <;> rfl

theorem halted?_fieldOr (name : String) (default : α) (read : Value → Reading α) (v : Value) :
    (fieldOr name default read v).halted? = (v.field? name).bind fun part => (read part).halted? := by
  rw [fieldOr]
  cases v.field? name with
  | none => rfl
  | some part => exact halted?_below ..

theorem halted?_itemsFrom (read : Value → Reading α) (i : Nat) (items : List Value) :
    (itemsFrom read i items).halted? = items.findSome? fun item => (read item).halted? := by
  induction items generalizing i with
  | nil => rfl
  | cons item rest ih =>
    rw [itemsFrom, halted?_map, halted?_both, halted?_below, ih, List.findSome?_cons]
    cases (read item).halted? <;> rfl

theorem halted?_nullable (read : Value → Reading α) (v : Value) (hnull : (read .null).halted? = none) :
    (nullable read v).halted? = (read v).halted? := by
  unfold nullable
  split
  · exact hnull.symm
  · exact halted?_map ..

end Parts

@[simp] theorem halted?_text (v : Value) : (text v).halted? = none := by
  unfold text
  split <;> rfl

theorem halted?_integerOfText (s : String) : (integerOfText s).halted? = none := by
  unfold integerOfText
  dsimp only
  repeat' split
  all_goals rfl

@[simp] theorem halted?_integer (v : Value) : (integer v).halted? = none := by
  unfold integer
  split
  · rfl
  · rfl
  · split
    · split <;> rfl
    · rfl
  · exact halted?_integerOfText _
  · rfl

theorem halted?_booleanOfInt (n : Int) : (booleanOfInt n).halted? = none := by
  unfold booleanOfInt
  repeat' split
  all_goals rfl

@[simp] theorem halted?_boolean (v : Value) : (boolean v).halted? = none := by
  unfold boolean
  split
  · rfl
  · exact halted?_booleanOfInt _
  · split
    · split
      · exact halted?_booleanOfInt _
      · rfl
    · rfl
  · dsimp only
    repeat' split
    all_goals rfl
  · rfl

@[simp] theorem halted?_digitText (v : Value) : (digitText v).halted? = none := by
  unfold digitText
  repeat' split
  all_goals rfl

@[simp] theorem halted?_oneOf {α : Type} (things : List (String × α)) (v : Value) :
    (oneOf things v).halted? = none := by
  unfold oneOf
  repeat' split
  all_goals rfl

end Reading

open Reading

/-! ### Where flag words stand -/

/-- The items of a list; nothing else has items. -/
def Value.items : Value → List Value
  | .list items => items
  | _ => []

/-- The field as a flag word, if it is there. -/
def FlagClass.inField (c : FlagClass) (name : String) (v : Value) : List (FlagClass × Value) :=
  (v.field? name).toList.map (c, ·)

/-- The flag words inside a field. -/
def Value.wordsIn (name : String) (words : Value → List (FlagClass × Value)) (v : Value) :
    List (FlagClass × Value) :=
  (v.field? name).toList.flatMap words

def Symbol.flagWords (v : Value) : List (FlagClass × Value) := FlagClass.symbol.inField "flags" v

def Member.flagWords (v : Value) : List (FlagClass × Value) := FlagClass.symbol.inField "flags" v

def Node.flagWords (v : Value) : List (FlagClass × Value) :=
  FlagClass.type.inField "flags" v ++ FlagClass.object.inField "object_flags" v ++
    v.wordsIn "symbol" Symbol.flagWords ++ v.wordsIn "members" (·.items.flatMap Member.flagWords)

/-- The flag words of a document, in the order in which they are read. -/
def Graph.flagWords (v : Value) : List (FlagClass × Value) :=
  v.wordsIn "nodes" (·.items.flatMap Node.flagWords)

def FlagClass.halt? (word : FlagClass × Value) : Option Halt := (flagWord word.1 word.2).halted?

open FlagClass (halt?)

theorem findSome?_flatMap {α β γ : Type} (f : α → List β) (g : β → Option γ) (xs : List α) :
    (xs.flatMap f).findSome? g = xs.findSome? fun x => (f x).findSome? g := by
  induction xs with
  | nil => rfl
  | cons x xs ih =>
    rw [List.flatMap_cons, List.findSome?_append, ih, List.findSome?_cons]
    cases (f x).findSome? g <;> rfl

theorem findSome?_inField (c : FlagClass) (name : String) (v : Value) :
    (c.inField name v).findSome? halt? = (v.field? name).bind fun part => (flagWord c part).halted? := by
  rw [FlagClass.inField]
  cases v.field? name with
  | none => rfl
  | some part => simp [halt?]

theorem findSome?_wordsIn (name : String) (words : Value → List (FlagClass × Value)) (v : Value) :
    (v.wordsIn name words).findSome? halt? =
      (v.field? name).bind fun part => (words part).findSome? halt? := by
  rw [Value.wordsIn]
  cases v.field? name <;> simp

/-- A list halts where the first of its items does. -/
theorem halted?_list {α : Type} {read : Value → Reading α} {words : Value → List (FlagClass × Value)}
    (h : ∀ v, (read v).halted? = (words v).findSome? halt?) (v : Value) :
    (list read v).halted? = (v.items.flatMap words).findSome? halt? := by
  rw [findSome?_flatMap, ← funext h]
  unfold list
  split
  · exact halted?_itemsFrom ..
  · next hlist =>
    cases v with
    | list items => exact absurd rfl (hlist items)
    | scalar | map => rfl

theorem halted?_list_of_none {α : Type} {read : Value → Reading α} (h : ∀ v, (read v).halted? = none)
    (v : Value) : (list read v).halted? = none := by
  rw [@halted?_list _ read (fun _ => []) h]
  simp

theorem halted?_nullable_of_none {α : Type} {read : Value → Reading α} (h : ∀ v, (read v).halted? = none)
    (v : Value) : (nullable read v).halted? = none := by
  rw [halted?_nullable _ _ (h _), h]

theorem Symbol.halted?_read (v : Value) : (Symbol.read v).halted? = (flagWords v).findSome? halt? := by
  rw [Symbol.read, flagWords, findSome?_inField]
  cases v with
  | scalar | list => rfl
  | map entries => simp [record, halted?_field, halted?_fieldOr]

theorem BigInt.halted?_read (v : Value) : (BigInt.read v).halted? = none := by
  rw [BigInt.read]
  cases v with
  | scalar | list => rfl
  | map entries => simp [record, halted?_field, halted?_fieldOr]

theorem Literal.halted?_read (v : Value) : (Literal.read v).halted? = none := by
  unfold Literal.read
  dsimp only
  split
  · rfl
  · rfl
  · rfl
  · rfl
  · split
    · rfl
    · rfl
    · next cause hcause =>
      have hnone := BigInt.halted?_read v
      rw [hcause] at hnone
      cases hnone

theorem Member.halted?_read (v : Value) : (Member.read v).halted? = (flagWords v).findSome? halt? := by
  rw [Member.read, flagWords, findSome?_inField]
  cases v with
  | scalar | list => rfl
  | map entries =>
    simp [record, halted?_field, halted?_fieldOr, halted?_list_of_none, halted?_nullable_of_none]

theorem Node.halted?_read (v : Value) : (Node.read v).halted? = (flagWords v).findSome? halt? := by
  have hsymbol : ∀ v, (nullable Symbol.read v).halted? = (Symbol.flagWords v).findSome? halt? := fun v =>
    (halted?_nullable _ v rfl).trans (Symbol.halted?_read v)
  rw [Node.read, flagWords]
  cases v with
  | scalar | list => rfl
  | map entries =>
    simp [record, halted?_field, halted?_fieldOr, halted?_list_of_none, halted?_nullable_of_none,
      List.findSome?_append, Option.or_assoc, findSome?_inField, findSome?_wordsIn, hsymbol,
      halted?_list Member.halted?_read, Literal.halted?_read]

theorem Declaration.halted?_read (v : Value) : (Declaration.read v).halted? = none := by
  rw [Declaration.read]
  cases v with
  | scalar | list => rfl
  | map entries => simp [record, halted?_field]

namespace Graph

theorem halted?_readFields (v : Value) : (readFields v).halted? = (flagWords v).findSome? halt? := by
  simp [readFields, flagWords, halted?_field, halted?_fieldOr, findSome?_wordsIn, halted?_list Node.halted?_read,
    halted?_list_of_none, Declaration.halted?_read]

/-- The reading of a document halts: a field of the whole has a name that is no text, or else the first
flag word that could halt it does. -/
inductive Halts : List (Scalar × Value) → Halt → Prop
  | fieldName {entries} : ¬Named entries → Halts entries .fieldNameNotText
  | flags {entries before c word after fault} : Named entries →
    flagWords (.map entries) = before ++ (c, word) :: after →
    (∀ other ∈ before, ∀ fault, ¬other.1.Halts other.2 fault) → c.Halts word fault →
    Halts entries (.flags fault)

theorem halt?_eq_some_iff {word : FlagClass × Value} {cause : Halt} :
    halt? word = some cause ↔ ∃ fault, cause = .flags fault ∧ word.1.Halts word.2 fault := by
  rw [halt?, halted?_eq_some_iff]
  cases cause with
  | flags fault => simp [flagWord_eq_halt_iff]
  | fieldNameNotText => exact iff_of_false flagWord_ne_halt_fieldName (by simp)

theorem halt?_eq_none_iff {word : FlagClass × Value} :
    halt? word = none ↔ ∀ fault, ¬word.1.Halts word.2 fault := by
  rw [Option.eq_none_iff_forall_ne_some]
  constructor
  · exact fun h fault hfault => h _ (halt?_eq_some_iff.2 ⟨fault, rfl, hfault⟩)
  · intro h cause hcause
    obtain ⟨fault, -, hfault⟩ := halt?_eq_some_iff.1 hcause
    exact h fault hfault

theorem halted?_check (r : Reading Graph) : (r.check checkClosed).halted? = r.halted? := by
  cases r with
  | ok g =>
    show (checkClosed g).halted? = none
    unfold checkClosed
    split <;> rfl
  | issues | halt => rfl

/-- Nothing but its field names and its flag words can halt the reading of a document. -/
theorem read_eq_halt_iff {entries : List (Scalar × Value)} {cause : Halt} :
    Graph.read entries = .halt cause ↔ Halts entries cause := by
  by_cases hnamed : Named entries
  · rw [Graph.read, document_of_named hnamed, ← halted?_eq_some_iff, halted?_check, halted?_readFields,
      List.findSome?_eq_some_iff]
    constructor
    · rintro ⟨before, ⟨c, word⟩, after, hwords, hhalt, hbefore⟩
      obtain ⟨fault, rfl, hfault⟩ := halt?_eq_some_iff.1 hhalt
      exact .flags hnamed hwords (fun other hother => halt?_eq_none_iff.1 (hbefore other hother)) hfault
    · rintro (hnot | ⟨-, hwords, hbefore, hfault⟩)
      · exact absurd hnamed hnot
      · exact ⟨_, _, _, hwords, halt?_eq_some_iff.2 ⟨_, rfl, hfault⟩,
          fun other hother => halt?_eq_none_iff.2 (hbefore other hother)⟩
  · rw [Graph.read, document_of_not_named hnamed]
    constructor
    · intro h
      cases h
      exact .fieldName hnamed
    · rintro (_ | ⟨hnot, -, -, -⟩)
      · rfl
      · exact absurd hnot hnamed

end Graph

end TypeSchema
