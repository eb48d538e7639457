import Mathlib.Data.Int.ModEq
import Mathlib.Data.List.Nodup
import Mathlib.Data.Nat.Bitwise
import TypeSchema.Flags

/-!
# Reading and naming flag words

A word is known by its bits. The bits of a word that is read from names are those of the names,
`FlagClass.testBit_of_foldlM`, so reading and naming undo each other up to order, repetition and the bits
that have no names.
-/

namespace TypeSchema

namespace FlagClass

variable {c : FlagClass} {word : Nat} {written : List String}

/-! ### Names -/

/-- What is written, without the blanks around it. -/
def nameIn (written : String) : String := String.ofList (Text.trim Text.isBlank written.toList)

/-- The members of the class are the named bits and the empty word. -/
def HasMember (c : FlagClass) (name : String) : Prop := name = "NONE" ∨ name ∈ c.names

instance (c : FlagClass) (name : String) : Decidable (c.HasMember name) :=
  inferInstanceAs (Decidable (_ ∨ _))

/-- The first written name, if it is one at all, that is no member. -/
def firstUnknown? (c : FlagClass) (written : List String) : Option String :=
  (written.map nameIn).find? fun name => name ≠ "" ∧ ¬c.HasMember name

theorem firstUnknown?_eq_none_iff : c.firstUnknown? written = none ↔
    ∀ name ∈ written.map nameIn, ¬(name ≠ "" ∧ ¬c.HasMember name) := by
  rw [firstUnknown?, List.find?_eq_none]
  exact forall₂_congr fun _ _ => not_congr decide_eq_true_iff

theorem nodup_names (c : FlagClass) : c.names.Nodup := by
  cases c <;> decide +kernel

theorem none_notMem_names (c : FlagClass) : "NONE" ∉ c.names := by
  cases c <;> decide +kernel

theorem empty_notMem_names (c : FlagClass) : "" ∉ c.names := by
  cases c <;> decide +kernel

/-- No blank is around a name, and no bar inside. -/
theorem plain_of_mem_names {name : String} (h : name ∈ c.names) : nameIn name = name ∧ '|' ∉ name.toList := by
  have hplain : ∀ name ∈ c.names, nameIn name = name ∧ '|' ∉ name.toList := by
    cases c <;> decide +kernel
  exact hplain name h

theorem getElem?_names_inj {i j : Nat} {name : String} (hi : c.names[i]? = some name)
    (hj : c.names[j]? = some name) : i = j :=
  (List.getElem?_inj (List.getElem?_eq_some_iff.1 hi).1 (nodup_names c)).1 (hi.trans hj.symm)

/-- The word of a name; no name is the empty word. -/
def wordOf? (c : FlagClass) (name : String) : Option Nat := if name = "" then some 0 else c.ofName? name

theorem wordOf?_eq_none_iff {name : String} : c.wordOf? name = none ↔ name ≠ "" ∧ ¬c.HasMember name := by
  unfold wordOf? ofName?
  by_cases hempty : name = ""
  · simp [hempty]
  · by_cases hnone : name = "NONE"
    · simp [HasMember, hnone]
    · rw [if_neg hempty, if_neg hnone, Option.map_eq_none_iff, List.findIdx?_eq_none_iff]
      simp only [HasMember, hempty, hnone, ne_eq, not_false_eq_true, true_and, false_or, decide_eq_false_iff_not]
      exact ⟨fun h hmem => h name hmem rfl, fun h other hother heq => h (heq ▸ hother)⟩

/-- The one bit of a word of a name is where the name stands. -/
theorem testBit_of_wordOf? {name : String} (h : c.wordOf? name = some word) (i : Nat) :
    word.testBit i ↔ c.names[i]? = some name := by
  have hzero : name ∉ c.names → ((0 : Nat).testBit i ↔ c.names[i]? = some name) := fun hname =>
    iff_of_false (by simp) fun hi => hname (List.mem_of_getElem? hi)
  unfold wordOf? ofName? at h
  split at h
  · next hempty =>
    cases h
    exact hzero (hempty ▸ empty_notMem_names c)
  · split at h
    · next hnone =>
      cases h
      exact hzero (hnone ▸ none_notMem_names c)
    · obtain ⟨j, hj, rfl⟩ := Option.map_eq_some_iff.1 h
      obtain ⟨hlt, hname, -⟩ := List.findIdx?_eq_some_iff_getElem.1 hj
      have hj : c.names[j]? = some name := by
        rw [List.getElem?_eq_getElem hlt, of_decide_eq_true hname]
      rw [Nat.one_shiftLeft, Nat.testBit_two_pow, decide_eq_true_iff]
      exact ⟨fun h => h ▸ hj, getElem?_names_inj hj⟩

theorem addName_eq (word : Nat) (written : String) : c.addName word written =
    match c.wordOf? (nameIn written) with
    | some bit => .ok (word ||| bit)
    | none => .error (.unknownName c (nameIn written)) := by
  have hname : String.ofList (Text.trim Text.isBlank written.toList) = nameIn written := rfl
  simp only [addName, hname, wordOf?]
  by_cases hempty : nameIn written = ""
  · simp [hempty]
  · cases c.ofName? (nameIn written) <;> simp [hempty]

/-- Names are added one by one, and each sets the bit where it stands. -/
theorem testBit_of_foldlM {word' : Nat} (h : written.foldlM c.addName word = .ok word') (i : Nat) :
    word'.testBit i ↔ word.testBit i ∨ ∃ name ∈ written.map nameIn, c.names[i]? = some name := by
  induction written generalizing word with
  | nil =>
    cases h
    simp
  | cons first rest ih =>
    rw [List.foldlM_cons, addName_eq] at h
    cases hbit : c.wordOf? (nameIn first) with
    | none =>
      rw [hbit] at h
      cases h
    | some bit =>
      rw [hbit] at h
      rw [ih h, Nat.testBit_or, Bool.or_eq_true, testBit_of_wordOf? hbit, List.map_cons, List.exists_mem_cons_iff,
        or_assoc]

/-- The first name that is unknown is the fault, and without one there is none. -/
theorem foldlM_addName_eq_error_iff {fault : FlagFault} : written.foldlM c.addName word = .error fault ↔
    ∃ name, fault = .unknownName c name ∧ c.firstUnknown? written = some name := by
  induction written generalizing word with
  | nil => exact iff_of_false nofun (by simp [firstUnknown?])
  | cons first rest ih =>
    rw [List.foldlM_cons, addName_eq, firstUnknown?, List.map_cons]
    cases hbit : c.wordOf? (nameIn first) with
    | none =>
      rw [List.find?_cons_of_pos (by simpa using wordOf?_eq_none_iff.1 hbit)]
      constructor
      · intro h
        cases h
        exact ⟨_, rfl, rfl⟩
      · rintro ⟨name, rfl, hname⟩
        cases hname
        rfl
    | some bit =>
      have hknown : ¬(nameIn first ≠ "" ∧ ¬c.HasMember (nameIn first)) := fun h => by
        cases hbit.symm.trans (wordOf?_eq_none_iff.2 h)
      rw [List.find?_cons_of_neg (by simpa using hknown)]
      exact ih

theorem lt_width_of_getElem? {i : Nat} {name : String} (h : c.names[i]? = some name) : i < c.width :=
  (List.getElem?_eq_some_iff.1 h).1

/-- The names of a word are those whose bits are set, in the order of the class. -/
theorem namesOf_eq_filter {p : String → Bool} (h : ∀ i name, c.names[i]? = some name → word.testBit i = p name) :
    c.namesOf word = c.names.filter p := by
  have hbits : ∀ entry ∈ c.names.zipIdx, word.testBit entry.2 = p entry.1 := fun entry hentry =>
    h entry.2 entry.1 (List.mem_zipIdx_iff_getElem?.1 hentry)
  calc c.namesOf word
    _ = (c.names.zipIdx.filter (p ∘ Prod.fst)).map Prod.fst := congrArg _ (List.filter_congr hbits)
    _ = c.names.filter p := by rw [← List.filter_map, List.zipIdx_map_fst]

theorem mem_namesOf_iff {name : String} : name ∈ c.namesOf word ↔ ∃ i, c.names[i]? = some name ∧ word.testBit i := by
  simp only [namesOf, List.mem_map, List.mem_filter, Prod.exists, List.mem_zipIdx_iff_getElem?]
  constructor
  · rintro ⟨_, i, ⟨hi, hbit⟩, rfl⟩
    exact ⟨i, hi, hbit⟩
  · rintro ⟨i, hi, hbit⟩
    exact ⟨name, i, ⟨hi, hbit⟩, rfl⟩

/-! ### Lists of names -/

theorem read_texts (written : List String) : c.read (.texts written) = c.ofNames written := by
  rw [Value.texts, read, List.foldlM_map]
  rfl

theorem exists_ofNames (h : c.firstUnknown? written = none) : ∃ word, c.ofNames written = .ok word := by
  cases hread : c.ofNames written with
  | ok word => exact ⟨word, rfl⟩
  | error fault =>
    obtain ⟨name, -, hname⟩ := foldlM_addName_eq_error_iff.1 hread
    cases h.symm.trans hname

theorem testBit_of_ofNames (h : c.ofNames written = .ok word) (i : Nat) :
    word.testBit i ↔ ∃ name ∈ written.map nameIn, c.names[i]? = some name := by
  rw [testBit_of_foldlM h]
  simp

theorem namesOf_of_ofNames (h : c.ofNames written = .ok word) :
    c.namesOf word = c.names.filter (· ∈ written.map nameIn) := by
  refine namesOf_eq_filter fun i name hi => ?_
  rw [Bool.eq_iff_iff, testBit_of_ofNames h, decide_eq_true_iff, hi]
  constructor
  · rintro ⟨name', hname, ⟨⟩⟩
    exact hname
  · exact fun hname => ⟨name, hname, rfl⟩

/-- Neither order nor repetition of the names counts. -/
theorem ofNames_eq_of_mem_iff {written' : List String} (h : c.ofNames written = .ok word)
    (hsame : ∀ name, name ∈ written.map nameIn ↔ name ∈ written'.map nameIn) : c.ofNames written' = .ok word := by
  have hknown : c.firstUnknown? written = none := by
    rw [Option.eq_none_iff_forall_ne_some]
    intro name hname
    cases h.symm.trans (foldlM_addName_eq_error_iff.2 ⟨name, rfl, hname⟩)
  have hknown' : c.firstUnknown? written' = none :=
    firstUnknown?_eq_none_iff.2 fun name hname => firstUnknown?_eq_none_iff.1 hknown name ((hsame name).2 hname)
  obtain ⟨word', hread⟩ := exists_ofNames hknown'
  have hbits : word' = word := Nat.eq_of_testBit_eq fun i => by
    rw [Bool.eq_iff_iff, testBit_of_ofNames hread, testBit_of_ofNames h]
    simp only [hsame]
  rw [hread, hbits]

/-! ### Names between bars -/

/-- The pieces of a text between its bars. -/
def pieces (s : String) : List String := (s.toList.splitOn '|').map String.ofList

theorem modifyHead_append_nil (pieces : List (List Char)) :
    pieces.modifyHead (([] : List Char).reverse ++ ·) = pieces := by
  cases pieces <;> rfl

theorem splitBars_eq (piece cs : List Char) :
    splitBars piece cs = ((cs.splitOn '|').modifyHead (piece.reverse ++ ·)).map String.ofList := by
  induction cs generalizing piece with
  | nil => simp [splitBars]
  | cons d rest ih =>
    rw [List.splitOn_cons_eq_if_modifyHead]
    by_cases hd : d = '|'
    · subst hd
      rw [splitBars, ih, modifyHead_append_nil, if_pos (beq_self_eq_true _)]
      simp
    · rw [splitBars, ih, if_neg (by simpa using hd), List.modifyHead_modifyHead]
      · simp [Function.comp_def]
      · exact hd

theorem read_text (s : String) : c.read (.text s) = c.read (.texts (pieces s)) := by
  rw [read_texts, Value.text, read, splitBars_eq, modifyHead_append_nil, pieces]

/-- Names that are joined by bars are the pieces, unless there is none. -/
theorem pieces_intercalate {names : List String} (hne : names ≠ []) (h : ∀ name ∈ names, '|' ∉ name.toList) :
    pieces ("|".intercalate names) = names := by
  have hbar : "|".toList = ['|'] := rfl
  rw [pieces, String.toList_intercalate, hbar, List.splitOn_intercalate]
  · simp [Function.comp_def]
  · simpa using h
  · simpa using hne

/-! ### Reading the names of a word -/

theorem map_nameIn_namesOf (word : Nat) : (c.namesOf word).map nameIn = c.namesOf word := by
  refine (List.map_congr_left fun name hname => ?_).trans (List.map_id _)
  obtain ⟨i, hi, -⟩ := mem_namesOf_iff.1 hname
  exact (plain_of_mem_names (List.mem_of_getElem? hi)).1

/-- The names of a word are read as its named bits. -/
theorem ofNames_namesOf (word : Nat) : c.ofNames (c.namesOf word) = .ok (word % 2 ^ c.width) := by
  have hknown : c.firstUnknown? (c.namesOf word) = none := by
    rw [firstUnknown?_eq_none_iff, map_nameIn_namesOf]
    intro name hname h
    obtain ⟨i, hi, -⟩ := mem_namesOf_iff.1 hname
    exact h.2 (.inr (List.mem_of_getElem? hi))
  obtain ⟨word', hread⟩ := exists_ofNames hknown
  rw [hread]
  refine congrArg Except.ok (Nat.eq_of_testBit_eq fun i => ?_)
  rw [Bool.eq_iff_iff, testBit_of_ofNames hread, map_nameIn_namesOf, Nat.testBit_mod_two_pow, Bool.and_eq_true,
    decide_eq_true_iff]
  constructor
  · rintro ⟨name, hname, hi⟩
    obtain ⟨j, hj, hbit⟩ := mem_namesOf_iff.1 hname
    exact ⟨lt_width_of_getElem? hi, getElem?_names_inj hi hj ▸ hbit⟩
  · rintro ⟨hlt, hbit⟩
    have hi : c.names[i]? = some c.names[i] := List.getElem?_eq_getElem hlt
    exact ⟨c.names[i], mem_namesOf_iff.2 ⟨i, hi, hbit⟩, hi⟩

theorem read_joined_namesOf (word : Nat) :
    c.read (.text ("|".intercalate (c.namesOf word))) = .ok (word % 2 ^ c.width) := by
  rw [read_text, read_texts, ← ofNames_namesOf]
  by_cases hne : c.namesOf word = []
  · rw [hne]
    rfl
  · rw [pieces_intercalate hne fun name hname => ?_]
    obtain ⟨i, hi, -⟩ := mem_namesOf_iff.1 hname
    exact (plain_of_mem_names (List.mem_of_getElem? hi)).2

/-! ### Integers -/

/-- The word has a bit with a name, and those without are a number of too many digits. -/
def LongRest (c : FlagClass) (word : Nat) : Prop :=
  word % 2 ^ c.width ≠ 0 ∧ Nat.pow 10 Text.maxDigits ≤ word - word % 2 ^ c.width

theorem restOf_eq (word : Nat) : c.restOf word = word - word % 2 ^ c.width := by
  have hdiv := Nat.div_add_mod word (2 ^ c.width)
  rw [restOf, Nat.shiftLeft_eq, Nat.shiftRight_eq_div_pow, Nat.mul_comm]
  omega

theorem pow_ten_pos (n : Nat) : 0 < Nat.pow 10 n := Nat.pow_pos (by decide)

theorem isSpelled_iff (word : Nat) : c.isSpelled word ↔ ¬c.LongRest word := by
  have hle := Nat.mod_le word (2 ^ c.width)
  have hpos := pow_ten_pos Text.maxDigits
  rw [isSpelled, restOf_eq, LongRest, Text.isLong, Int.natAbs_natCast]
  generalize Nat.pow 10 Text.maxDigits = limit at hpos ⊢
  simp only [Bool.or_eq_true, beq_iff_eq, Bool.not_eq_true', decide_eq_false_iff_not]
  omega

theorem isSpelled_of_lt (h : word < 2 ^ c.width) : c.isSpelled word := by
  have hpos := pow_ten_pos Text.maxDigits
  rw [isSpelled_iff, LongRest, Nat.mod_eq_of_lt h, Nat.sub_self]
  exact fun hlong => absurd hlong.2 (Nat.not_le.2 hpos)

theorem two_pow_modEq {k l : Nat} (h : k ≤ l) : (2 ^ l : Int) ≡ 0 [ZMOD 2 ^ k] :=
  Int.modEq_zero_iff_dvd.2 (pow_dvd_pow 2 h)

/-- The word of a negative integer is the integer and a power of two that the named bits do not see. -/
theorem ofInt_negSucc (c : FlagClass) (n : Nat) :
    ∃ l, c.width ≤ l ∧ n + 1 ≤ 2 ^ l ∧ c.ofInt (.negSucc n) = 2 ^ l - (n + 1) := by
  simp only [ofInt, Nat.one_shiftLeft]
  split
  · next hle => exact ⟨c.width, le_rfl, hle, rfl⟩
  · next hlt =>
    -- the magnitude has more bits than are named, so the next power of two is beyond them
    have hlog : c.width ≤ (n + 1).log2 := (Nat.le_log2 (Nat.succ_ne_zero n)).2 (by omega)
    have hle : c.width ≤ (n + 1).log2 + 1 := by omega
    refine ⟨_, hle, Nat.lt_log2_self.le, ?_⟩
    rw [Nat.max_eq_right (Nat.pow_le_pow_right (by decide) hle)]

theorem ofInt_modEq (c : FlagClass) (v : Int) : (c.ofInt v : Int) ≡ v [ZMOD 2 ^ c.width] := by
  cases v with
  | ofNat n => rfl
  | negSucc n =>
    obtain ⟨l, hwidth, hle, hword⟩ := ofInt_negSucc c n
    have hcast : ((2 ^ l - (n + 1) : Nat) : Int) = 2 ^ l + .negSucc n := by
      rw [Nat.cast_sub hle, Int.negSucc_eq, Nat.cast_pow]
      push_cast
      exact Int.sub_eq_add_neg
    rw [hword, hcast]
    simpa using (two_pow_modEq hwidth).add_right (.negSucc n)

theorem read_int_of_longRest {v : Int} (h : c.LongRest (c.ofInt v)) : c.read (.int v) = .error .longRest :=
  if_neg fun hs => (isSpelled_iff _).1 hs h

theorem read_int_of_not_longRest {v : Int} (h : ¬c.LongRest (c.ofInt v)) : c.read (.int v) = .ok (c.ofInt v) :=
  if_pos ((isSpelled_iff _).2 h)

/-! ### Words that are read -/

theorem lt_of_wordOf? {name : String} (h : c.wordOf? name = some word) : word < 2 ^ c.width := by
  refine Nat.lt_pow_two_of_testBit _ fun i hi => Bool.eq_false_iff.2 fun hbit => ?_
  exact absurd (lt_width_of_getElem? ((testBit_of_wordOf? h i).1 hbit)) (Nat.not_lt.2 hi)

theorem lt_of_addItem {item : Value} {word' : Nat} (hlt : word < 2 ^ c.width) (h : c.addItem word item = .ok word') :
    word' < 2 ^ c.width := by
  unfold addItem at h
  split at h
  · rw [addName_eq] at h
    split at h <;> cases h
    next hbit => exact Nat.or_lt_two_pow hlt (lt_of_wordOf? hbit)
  · cases h

theorem lt_of_foldlM_addItem {items : List Value} {word' : Nat} (hlt : word < 2 ^ c.width)
    (h : items.foldlM c.addItem word = .ok word') : word' < 2 ^ c.width := by
  induction items generalizing word with
  | nil =>
    cases h
    exact hlt
  | cons item rest ih =>
    rw [List.foldlM_cons] at h
    cases hitem : c.addItem word item with
    | error fault =>
      rw [hitem] at h
      cases h
    | ok next =>
      rw [hitem] at h
      exact ih (lt_of_addItem hlt hitem) h

theorem isSpelled_of_ofInteger {v : Int} (h : c.ofInteger v = .ok word) : c.isSpelled word := by
  unfold ofInteger at h
  split at h <;> cases h
  assumption

/-- Whatever is read as a word is spelled, so it is read as itself again. -/
theorem isSpelled_of_read {v : Value} (h : c.read v = .ok word) : c.isSpelled word := by
  have hzero : 0 < 2 ^ c.width := Nat.two_pow_pos _
  cases v with
  | list items => exact isSpelled_of_lt (lt_of_foldlM_addItem hzero h)
  | map entries => exact isSpelled_of_lt (lt_of_foldlM_addItem hzero h)
  | scalar s =>
    cases s with
    | null =>
      cases h
      exact isSpelled_of_lt hzero
    | bool | int => exact isSpelled_of_ofInteger h
    | text written =>
      have htexts : c.read (.texts (pieces written)) = .ok word := (read_text written).symm.trans h
      exact isSpelled_of_lt (lt_of_foldlM_addItem hzero htexts)
    | real | date => cases h

/-! ### Reading and naming -/

/-- Reading and naming flag words undo each other. A list of names is refused for the first that is unknown,
and else its word has exactly these names, whatever their order and repetition; a text is the list of its
pieces; an integer stands for a word that agrees with it on the named bits and stands for itself, unless
its rest is too long beside a named bit; and the names of a word, as a list or joined, give back its
named bits. -/
theorem read_namesOf (c : FlagClass) :
    (∀ written : List String,
      (∀ fault, c.read (.texts written) = .error fault ↔
        ∃ name, fault = .unknownName c name ∧ c.firstUnknown? written = some name) ∧
      (c.firstUnknown? written = none → ∃ word, c.read (.texts written) = .ok word ∧
        c.namesOf word = c.names.filter (· ∈ written.map nameIn) ∧
        ∀ written' : List String, (∀ name, name ∈ written.map nameIn ↔ name ∈ written'.map nameIn) →
          c.read (.texts written') = .ok word)) ∧
    (∀ s : String, c.read (.text s) = c.read (.texts (pieces s))) ∧
    (∀ v : Int,
      (c.LongRest (c.ofInt v) → c.read (.int v) = .error .longRest) ∧
      (¬c.LongRest (c.ofInt v) → ∃ word : Nat, c.read (.int v) = .ok word ∧
        (word : Int) ≡ v [ZMOD 2 ^ c.width] ∧ c.read (.int word) = .ok word)) ∧
    ∀ f : Nat, c.read (.texts (c.namesOf f)) = .ok (f % 2 ^ c.width) ∧
      c.read (.text ("|".intercalate (c.namesOf f))) = .ok (f % 2 ^ c.width) := by
  refine ⟨fun written => ⟨fun fault => ?_, fun h => ?_⟩, read_text, fun v => ⟨read_int_of_longRest, fun h => ?_⟩,
    fun f => ⟨?_, read_joined_namesOf f⟩⟩
  · rw [read_texts]
    exact foldlM_addName_eq_error_iff
  · obtain ⟨word, hread⟩ := exists_ofNames h
    simp only [read_texts]
    exact ⟨word, hread, namesOf_of_ofNames hread, fun written' => ofNames_eq_of_mem_iff hread⟩
  · exact ⟨c.ofInt v, read_int_of_not_longRest h, ofInt_modEq c v, read_int_of_not_longRest h⟩
  · rw [read_texts]
    exact ofNames_namesOf f

/-- A word of one named bit and a rest of 4337 digits. -/
theorem read_long : FlagClass.type.read (.int (Nat.pow 16 3601 + 4 : Nat)) = .error .longRest := by
  decide +kernel

end FlagClass

end TypeSchema
