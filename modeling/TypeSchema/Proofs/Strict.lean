import TypeSchema.Proofs.Faults
import TypeSchema.Proofs.FlagWords
import TypeSchema.Strict.Pass

/-!
# Strict queries of closed graphs

In a closed graph no strict query misses a node, so it returns what the query returns, unless the flag
word of a member cannot be made. Strict plans differ from plans in one more way: a node without a
plan may be shown by an integer that cannot be written. `Graph.Written` lists the integers that a
pass may have to write.
-/

namespace TypeSchema

/-- To fold optionality into the word of a member, these bits without names have to be written. -/
def Graph.Unfolded (g : Graph) (i : Int) : Prop :=
  ∃ n ∈ g.nodes, ∃ m ∈ n.members, Strict.checkFlags m = .error (.longInteger i)

/-- The integers that the texts and flag words of a pass are made of. -/
inductive Graph.Written (g : Graph) (settings : ResolverSettings) : Int → Prop
  | limit : Written g settings settings.maxDepth
  | id {n} : n ∈ g.nodes → Strict.isShownById n → Written g settings n.id
  | value {n i} : n ∈ g.nodes → g.shape? n = some .bigIntLiteral → n.value = some (.int i) →
    Written g settings i
  | rest {i} : g.Unfolded i → Written g settings i

/-- Such an integer has too many digits to be written. -/
structure Graph.Unwritable (g : Graph) (settings : ResolverSettings) (i : Int) : Prop where
  written : g.Written settings i
  long : Text.isLong i

/-- An integer that breaks a run which otherwise ends like this: it stands in a flag word, or in the text of
a failure, if it is one that is told with texts. -/
structure Graph.Breaks {ε α : Type} (g : Graph) (settings : ResolverSettings) (told : ε → Prop)
    (x : Except ε α) (i : Int) : Prop where
  unwritable : g.Unwritable settings i
  reason : g.Unfolded i ∨ ∃ e, x = .error e ∧ told e

theorem Graph.Breaks.of_error {ε ε' α β : Type} {g : Graph} {settings : ResolverSettings} {told : ε → Prop}
    {told' : ε' → Prop} {x : Except ε α} {y : Except ε' β} {i : Int} (h : g.Breaks settings told x i)
    (hxy : ∀ e, x = .error e → told e → ∃ e', y = .error e' ∧ told' e') : g.Breaks settings told' y i :=
  ⟨h.unwritable, h.reason.imp_right fun ⟨e, he, htold⟩ => hxy e he htold⟩

/-- The results are those of the queries, where each of the checks that are made on the way holds. -/
theorem mapM_eq_forM_bind {α β ε : Type} {f : α → Except ε β} {check : α → Except ε Unit} {f? : α → Option β}
    {xs : List α} (h : ∀ x ∈ xs, ∃ y, f x = (check x >>= fun _ => .ok y) ∧ f? x = some y) :
    xs.mapM f = (forM xs check >>= fun _ => .ok (xs.filterMap f?)) := by
  induction xs with
  | nil => rfl
  | cons x xs ih =>
    obtain ⟨⟨y, hf, hf?⟩, hxs⟩ := List.forall_mem_cons.1 h
    rw [List.mapM_cons, hf, ih hxs, List.forM_cons, List.filterMap_cons_some hf?]
    cases check x with
    | error e => rfl
    | ok => cases forM xs check <;> rfl

theorem mapM_eq_ok_filterMap {α β ε : Type} {f : α → Except ε β} {f? : α → Option β} {xs : List α}
    (h : ∀ x ∈ xs, ∃ y, f x = .ok y ∧ f? x = some y) : xs.mapM f = .ok (xs.filterMap f?) := by
  refine mapM_eq_ok_iff.2 ?_
  induction xs with
  | nil => exact .nil
  | cons x xs ih =>
    obtain ⟨⟨y, hf, hf?⟩, hxs⟩ := List.forall_mem_cons.1 h
    rw [List.filterMap_cons_some hf?]
    exact .cons hf (ih hxs)

theorem forM_eq_ok_iff {α ε : Type} {check : α → Except ε Unit} {xs : List α} :
    forM xs check = .ok () ↔ ∀ x ∈ xs, check x = .ok () := by
  induction xs with
  | nil => simp [pure, Except.pure]
  | cons x xs ih =>
    rw [List.forM_cons, List.forall_mem_cons, ← ih]
    cases check x <;> simp [bind, Except.bind]

/-- One of the checks has failed. -/
theorem exists_of_forM_eq_error {α ε : Type} {check : α → Except ε Unit} {xs : List α} {e : ε}
    (h : forM xs check = .error e) : ∃ x ∈ xs, check x = .error e := by
  induction xs with
  | nil => cases h
  | cons x xs ih =>
    rw [List.forM_cons] at h
    rcases hx : check x with e' | ⟨⟩
    · rw [hx] at h
      cases h
      exact ⟨x, List.mem_cons_self .., hx⟩
    · rw [hx] at h
      obtain ⟨y, hy, he⟩ := ih h
      exact ⟨y, List.mem_cons_of_mem _ hy, he⟩

namespace Strict

variable {g : Graph} {settings : ResolverSettings} {n : Node}

/-! ### Checks -/

/-- The flag words of all members can be made. -/
def checkMembers (n : Node) : Except Breach Unit := forM n.members checkFlags

/-- Where the node has an index, its members are looked at to tell its shape. -/
def checkIndex (n : Node) : Except Breach Unit :=
  if n.stringIndex.isSome then checkMembers n else .ok ()

/-- What is checked on the way to a shape. -/
def checkFor (n : Node) : Option Shape → Except Breach Unit
  | some .object | some .indexable => checkIndex n
  | _ => .ok ()

def checkShape (g : Graph) (n : Node) : Except Breach Unit := checkFor n (g.shape? n)

/-- A check either lets the run go on or breaks it by an integer of a flag word. -/
def Checks (g : Graph) (x : Except Breach Unit) : Prop :=
  x = .ok () ∨ ∃ i, g.Unfolded i ∧ x = .error (.longInteger i)

/-- All that breaks the making of a flag word is the integer of its bits without names. -/
theorem exists_of_checkFlags {m : Member} {breach : Breach} (h : checkFlags m = .error breach) :
    ∃ i, breach = .longInteger i := by
  unfold checkFlags at h
  dsimp only at h
  split at h <;> cases h
  exact ⟨_, rfl⟩

theorem checks_members (hn : n ∈ g.nodes) : Checks g (checkMembers n) := by
  rcases hcheck : checkMembers n with breach | ⟨⟩
  · obtain ⟨m, hm, hflags⟩ := exists_of_forM_eq_error hcheck
    obtain ⟨i, rfl⟩ := exists_of_checkFlags hflags
    exact .inr ⟨i, ⟨n, hn, m, hm, hflags⟩, rfl⟩
  · exact .inl rfl

theorem checks_shape (hn : n ∈ g.nodes) : Checks g (checkShape g n) := by
  have hindex : Checks g (checkIndex n) := by
    unfold checkIndex
    split
    · exact checks_members hn
    · exact .inl rfl
  unfold checkShape checkFor
  split
  · exact hindex
  · exact hindex
  · exact .inl rfl

theorem unwritable_of_unfolded {i : Int} (h : g.Unfolded i) : g.Unwritable settings i := by
  refine ⟨.rest h, ?_⟩
  obtain ⟨n, -, m, -, hm⟩ := h
  unfold checkFlags at hm
  dsimp only at hm
  split at hm
  · next hspelled =>
    cases hm
    simp only [FlagClass.isSpelled, Bool.and_eq_true, Bool.not_eq_true', Bool.or_eq_false_iff,
      Bool.not_eq_false'] at hspelled
    exact hspelled.2.2
  · cases hm

/-! ### Queries -/

theorem lookup_eq {id : Int} (hid : id ∈ g.ids) : ∃ m, lookup g id = .ok m ∧ g.node? id = some m := by
  obtain ⟨m, hm⟩ := Graph.exists_node?_of_mem_ids hid
  exact ⟨m, by rw [lookup, hm], hm⟩

theorem lookup?_eq {id? : Option Int} (h : ∀ id ∈ id?, id ∈ g.ids) :
    lookup? g id? = .ok (id?.bind g.node?) := by
  cases id? with
  | none => rfl
  | some id =>
    obtain ⟨m, hlookup, hm⟩ := lookup_eq (h id rfl)
    rw [lookup?, hlookup, Option.bind_some, hm]
    rfl

section Closed

variable (hg : g.Closed) (hn : n ∈ g.nodes)
include hg hn

theorem mapM_lookup_eq {ids : List Int} (h : ∀ id ∈ ids, id ∈ n.references) :
    ids.mapM (lookup g) = .ok (ids.filterMap g.node?) :=
  mapM_eq_ok_filterMap fun id hid => lookup_eq (hg.references n hn id (h id hid))

theorem constituents_eq : constituents g n = .ok (g.constituents n) :=
  mapM_lookup_eq hg hn fun id hid => by simp [Node.references, hid]

theorem typeArguments_eq : typeArguments g n = .ok (g.typeArguments n) :=
  mapM_lookup_eq hg hn fun id hid => by simp [Node.references, hid]

theorem stringIndexType?_eq : stringIndexType? g n = .ok (g.stringIndexType? n) :=
  lookup?_eq fun id hid => hg.references n hn id (by simp_all [Node.references])

theorem targetObjectFlags_eq : targetObjectFlags g n = .ok (g.targetObjectFlags n) := by
  have htarget : lookup? g n.target = .ok (n.target.bind g.node?) :=
    lookup?_eq fun id hid => hg.references n hn id (by simp_all [Node.references])
  rw [targetObjectFlags, htarget]
  rfl

theorem property_eq {m : Member} (hm : m ∈ n.members) :
    ∃ p, property g m = (checkFlags m >>= fun _ => .ok p) ∧ g.property? m = some p := by
  have hid : m.type ∈ n.references := by
    simp only [Node.references, List.mem_append, List.mem_map]
    exact .inl (.inl (.inl (.inr ⟨m, hm, rfl⟩)))
  have haccessor : lookup? g m.accessorType = .ok (m.accessorType.bind g.node?) := by
    refine lookup?_eq fun id hid => hg.references n hn id ?_
    simp only [Node.references, List.mem_append, List.mem_filterMap]
    exact .inl (.inl (.inr ⟨m, hm, hid⟩))
  obtain ⟨type, hlookup, htype⟩ := lookup_eq (hg.references n hn _ hid)
  refine ⟨_, ?_, by rw [Graph.property?, htype]; rfl⟩
  rw [property, haccessor, hlookup]
  rfl

theorem properties_eq : properties g n = (checkMembers n >>= fun _ => .ok (g.properties n)) :=
  mapM_eq_forM_bind fun _ hm => property_eq hg hn hm

end Closed

theorem subjects_eq (hg : g.Closed) : subjects g = .ok g.subjects := by
  refine mapM_eq_ok_filterMap fun d hd => ?_
  obtain ⟨m, hlookup, hm⟩ := lookup_eq (hg.declarations d hd)
  exact ⟨⟨d.name, d.kind.text, m⟩, by rw [hlookup]; rfl, by rw [hm]; rfl⟩

/-! ### What is shown by its flags -/

/-- A node that is shown by its id has none of the flags that have names. -/
theorem hasFlag_of_isShownById (h : isShownById n) {mask : Nat}
    (hmask : mask < 2 ^ FlagClass.type.width) :
    hasFlag n.flags mask = false := by
  have hnames : FlagClass.type.namesOf n.flags = [] := by
    simp only [isShownById, Bool.and_eq_true, List.isEmpty_iff] at h
    exact h.2
  have hmod : n.flags % 2 ^ FlagClass.type.width = 0 := by
    have hword := FlagClass.ofNames_namesOf (c := .type) n.flags
    rw [hnames] at hword
    exact (Except.ok.inj hword).symm
  have hzero : n.flags &&& mask = 0 := by
    refine Nat.zero_of_testBit_eq_false fun i => ?_
    rw [Nat.testBit_and]
    by_cases hi : i < FlagClass.type.width
    · have hbit := Nat.testBit_mod_two_pow n.flags FlagClass.type.width i
      rw [hmod, Nat.zero_testBit, decide_eq_true hi, Bool.true_and] at hbit
      rw [← hbit, Bool.false_and]
    · have hlt : mask < 2 ^ i := hmask.trans_le (Nat.pow_le_pow_right (by decide) (not_lt.1 hi))
      rw [Nat.testBit_lt_two_pow hlt, Bool.and_false]
  rw [hasFlag, hzero]
  rfl

/-- So a node that a flag gives a shape has a text. -/
theorem isShownById_eq_false {mask : Nat} (hmask : mask < 2 ^ FlagClass.type.width)
    (h : hasFlag n.flags mask) : isShownById n = false := by
  by_contra hid
  rw [hasFlag_of_isShownById (by simpa using hid) hmask] at h
  cases h

theorem isShownById_of_shape? {shape : Shape} (h : g.shape? n = some shape) : isShownById n = false := by
  by_contra hid
  have hflag {mask : Nat} (hmask : mask < 2 ^ FlagClass.type.width) : hasFlag n.flags mask = false :=
    hasFlag_of_isShownById (by simpa using hid) hmask
  have hprimitive : n.primitive? = none := by
    have hlt : ∀ p ∈ Primitive.all, p.flag < 2 ^ FlagClass.type.width := by decide
    exact List.find?_eq_none.2 fun p hp => Bool.eq_false_iff.1 (hflag (hlt p hp))
  have henum : n.isEnum = false := by
    rw [Node.isEnum, hflag (by decide)]
    rfl
  have hliteral : n.isLiteral = false := hflag (by decide)
  have hbigInt : n.isBigIntLiteral = false := hflag (by decide)
  have hgeneric : n.isGeneric = false := hflag (by decide)
  have hunion : n.isUnion = false := hflag (by decide)
  have hintersection : n.isIntersection = false := hflag (by decide)
  have hobject : n.isObject = false := hflag (by decide)
  simp [Graph.shape?, Node.isPrimitive, *] at h

theorem checkText_eq_ok (h : isShownById n = false) : checkText n = .ok () := by
  rw [checkText, h]
  rfl

/-! ### Predicates -/

section Closed

variable (hg : g.Closed) (hn : n ∈ g.nodes)
include hg hn

theorem isTuple_eq : isTuple g n = .ok (g.isTuple n) := by
  rw [isTuple, Graph.isTuple, targetObjectFlags_eq hg hn]
  cases n.isReference && !n.isArray <;> rfl

theorem properties_isEmpty : (g.properties n).isEmpty = n.members.isEmpty := by
  rcases hmembers : n.members with _ | ⟨m, rest⟩
  · simp [Graph.properties, hmembers]
  · obtain ⟨p, -, hp⟩ := property_eq hg hn (hmembers ▸ List.mem_cons_self ..)
    simp [Graph.properties, hmembers, hp]

theorem isIndexable_eq (hobject : n.isObject) :
    isIndexable g n = (checkIndex n >>= fun _ => .ok n.isIndexable) := by
  rw [isIndexable, if_pos hobject, Node.isIndexable, hobject, stringIndexType?_eq hg hn, checkIndex]
  rcases hindex : n.stringIndex with _ | id
  · rw [Graph.stringIndexType?, hindex]
    rfl
  · obtain ⟨m, hm⟩ := Graph.exists_node?_of_mem_ids
      (hg.references n hn id (by simp [Node.references, hindex]))
    rw [Graph.stringIndexType?, hindex, Option.bind_some, hm, properties_eq hg hn]
    show ((checkMembers n >>= fun _ => Except.ok (g.properties n)) >>= _) = (checkMembers n >>= _)
    cases checkMembers n with
    | error => rfl
    | ok =>
      show Except.ok (g.properties n).isEmpty = _
      rw [properties_isEmpty hg hn]
      rfl

/-- Which shape an object has is told in the same order, and its members are looked at last. -/
theorem objectShape_eq (hobject : n.isObject) :
    some <$> objectShape g n =
      (if n.isArray then .ok (some .array)
      else if g.isTuple n then .ok (some .tuple)
      else if n.isFunctionLike then .ok (some .function)
      else if isDateName n.displayText then .ok (some .date)
      else (checkIndex n >>= fun _ => .ok (if n.isIndexable then some .indexable else some .object))) := by
  have htext : checkText n = .ok () :=
    checkText_eq_ok (isShownById_eq_false (by decide) hobject)
  rw [objectShape, isTuple_eq hg hn, isIndexable_eq hg hn hobject, htext]
  by_cases harray : n.isArray
  · rw [if_pos harray, if_pos harray]
    rfl
  rw [if_neg harray, if_neg harray]
  by_cases htuple : g.isTuple n
  · rw [if_pos htuple, htuple]
    rfl
  rw [if_neg htuple, Bool.eq_false_iff.2 htuple]
  show some <$> (if n.isFunctionLike then _ else _) = _
  by_cases hfunction : n.isFunctionLike
  · rw [if_pos hfunction, if_pos hfunction]
    rfl
  rw [if_neg hfunction, if_neg hfunction]
  show some <$> (if isDateName n.displayText then _ else _) = _
  by_cases hdate : isDateName n.displayText
  · rw [if_pos hdate, if_pos hdate]
    rfl
  rw [if_neg hdate, if_neg hdate]
  cases checkIndex n with
  | error => rfl
  | ok => cases n.isIndexable <;> rfl

theorem shape?_eq : shape? g n = (checkShape g n >>= fun _ => .ok (g.shape? n)) := by
  show _ = (fun shape? => checkFor n shape? >>= fun _ => Except.ok shape?) (g.shape? n)
  rw [shape?, Graph.shape?]
  simp only [apply_ite fun shape? => checkFor n shape? >>= fun _ => Except.ok shape?]
  -- the tests before that for objects ask for nothing
  repeat refine ite_congr rfl (fun _ => rfl) fun _ => ?_
  refine ite_congr rfl (fun hobject => ?_) fun _ => rfl
  rw [objectShape_eq hg hn hobject]
  repeat refine ite_congr rfl (fun _ => rfl) fun _ => ?_
  cases n.isIndexable <;> rfl

theorem isCallable_eq : isCallable g n = .ok (g.isCallable n) := by
  rw [isCallable, Graph.isCallable, constituents_eq hg hn]
  cases n.isFunctionLike with
  | true => rfl
  | false => cases n.isUnion <;> rfl

end Closed

theorem isHidden_eq (hg : g.Closed) {p : Property} (hp : p.effectiveType ∈ g.nodes) :
    isHidden g settings p = .ok (g.isHidden settings p) := by
  rw [isHidden, Graph.isHidden, isCallable_eq hg hp]
  cases p.isPrototype || p.isMethod || (settings.skipPrivate && p.isPrivate) <;> rfl

theorem visible_eq (hg : g.Closed) {ps : List Property} (hps : ∀ p ∈ ps, p.effectiveType ∈ g.nodes) :
    visible g settings ps = .ok (ps.filter fun p => !g.isHidden settings p) := by
  induction ps with
  | nil => rfl
  | cons p rest ih =>
    obtain ⟨hp, hrest⟩ := List.forall_mem_cons.1 hps
    rw [visible, isHidden_eq hg hp, ih hrest, List.filter_cons]
    cases g.isHidden settings p <;> rfl

theorem slots_eq (hg : g.Closed) (hn : n ∈ g.nodes) :
    slots g settings n = (checkMembers n >>= fun _ => .ok (g.slots settings n)) := by
  have hvisible : visible g settings (g.properties n) =
      .ok ((g.properties n).filter fun p => !g.isHidden settings p) :=
    visible_eq hg fun _ => Graph.mem_nodes_of_mem_properties
  rw [slots, properties_eq hg hn]
  cases checkMembers n with
  | error => rfl
  | ok =>
    show (visible g settings (g.properties n) >>= _) = _
    rw [hvisible]
    rfl

theorem mapM_slots_eq (hg : g.Closed) {parts : List Node} (hparts : ∀ m ∈ parts, m ∈ g.nodes) :
    parts.mapM (slots g settings) =
      (forM parts checkMembers >>= fun _ => .ok (parts.map (g.slots settings))) := by
  rw [← List.filterMap_eq_map]
  exact mapM_eq_forM_bind fun m hm => ⟨g.slots settings m, slots_eq hg (hparts m hm), rfl⟩

theorem mapM_stringIndexType?_eq (hg : g.Closed) {parts : List Node} (hparts : ∀ m ∈ parts, m ∈ g.nodes) :
    parts.mapM (stringIndexType? g) = .ok (parts.map g.stringIndexType?) := by
  rw [← List.filterMap_eq_map]
  exact mapM_eq_ok_filterMap fun m hm => ⟨g.stringIndexType? m, stringIndexType?_eq hg (hparts m hm), rfl⟩

/-! ### Plans -/

/-- The strict result is the result, but for an integer that breaks it. -/
def Tells {α : Type} (g : Graph) (settings : ResolverSettings) (x : Except Obstacle α)
    (y : Except Cause α) : Prop :=
  x = y.mapError .fault ∨
    ∃ i, g.Breaks settings (fun _ => True) y i ∧ x = .error (.breach (.longInteger i))

namespace Tells

variable {α β : Type} {x : Except Obstacle α} {y : Except Cause α}

theorem bind {f : α → Except Obstacle β} {f' : α → Except Cause β} (h : Tells g settings x y)
    (hf : ∀ a, y = .ok a → Tells g settings (f a) (f' a)) : Tells g settings (x >>= f) (y >>= f') := by
  rcases h with rfl | ⟨i, hi, rfl⟩
  · cases y with
    | error cause => exact .inl rfl
    | ok a => exact hf a rfl
  · exact .inr ⟨i, hi.of_error fun e he htold => ⟨e, by rw [he]; rfl, htold⟩, rfl⟩

theorem map (f : α → β) (h : Tells g settings x y) :
    Tells g settings (x >>= fun a => pure (f a)) (y.map f) := by
  rcases h with rfl | ⟨i, hi, rfl⟩
  · cases y <;> exact .inl rfl
  · exact .inr ⟨i, hi.of_error fun e he htold => ⟨e, by rw [he]; rfl, htold⟩, rfl⟩

theorem mapM {xs : List α} {f : α → Except Obstacle β} {f' : α → Except Cause β}
    (h : ∀ a ∈ xs, Tells g settings (f a) (f' a)) : Tells g settings (xs.mapM f) (xs.mapM f') := by
  induction xs with
  | nil => exact .inl rfl
  | cons a xs ih =>
    obtain ⟨ha, hxs⟩ := List.forall_mem_cons.1 h
    rw [List.mapM_cons, List.mapM_cons]
    exact ha.bind fun b _ => (ih hxs).bind fun bs _ => .inl rfl

/-- A check of flag words that is made first. -/
theorem check_bind {check : Except Breach Unit} {f : Except Obstacle α} (hcheck : Checks g check)
    (h : Tells g settings f y) : Tells g settings (ask check >>= fun _ => f) y := by
  rcases hcheck with rfl | ⟨i, hi, rfl⟩
  · exact h
  · exact .inr ⟨i, ⟨unwritable_of_unfolded hi, .inl hi⟩, rfl⟩

/-- A text that is asked for first, where a fault is told with it. -/
theorem text_bind {check : Except Breach Unit} {f : Except Obstacle α} {cause : Cause}
    (hcheck : check = .ok () ∨ ∃ i, g.Unwritable settings i ∧ check = .error (.longInteger i))
    (h : Tells g settings f (.error cause)) : Tells g settings (ask check >>= fun _ => f) (.error cause) := by
  rcases hcheck with rfl | ⟨i, hi, rfl⟩
  · exact h
  · exact .inr ⟨i, ⟨hi, .inr ⟨cause, rfl, trivial⟩⟩, rfl⟩

end Tells

theorem ask_ok_bind {α β : Type} (a : α) (f : α → Except Obstacle β) : (ask (.ok a) >>= f) = f a := rfl

theorem ask_check_bind {α β : Type} (check : Except Breach Unit) (a : α) (f : α → Except Obstacle β) :
    (ask (check >>= fun _ => .ok a) >>= f) = (ask check >>= fun _ => f a) := by
  cases check <;> rfl

theorem checkInteger_eq {i : Int} (h : g.Written settings i) :
    checkInteger i = .ok () ∨ ∃ j, g.Unwritable settings j ∧ checkInteger i = .error (.longInteger j) := by
  rw [checkInteger]
  split
  · next hlong => exact .inr ⟨i, ⟨h, hlong⟩, rfl⟩
  · exact .inl rfl

theorem checkText_eq (hn : n ∈ g.nodes) :
    checkText n = .ok () ∨ ∃ i, g.Unwritable settings i ∧ checkText n = .error (.longInteger i) := by
  rw [checkText]
  split
  · next hid => exact checkInteger_eq (.id hn hid)
  · exact .inl rfl

theorem checkValue_eq (hn : n ∈ g.nodes) (hs : g.shape? n = some .bigIntLiteral) :
    checkValue n = .ok () ∨ ∃ i, g.Unwritable settings i ∧ checkValue n = .error (.longInteger i) := by
  rw [checkValue]
  split
  · next i hv => exact checkInteger_eq (.value hn hs hv)
  · exact .inl rfl

theorem tells_refuse {α : Type} (hn : n ∈ g.nodes) (problem : String → Problem) :
    Tells g settings (refuse n problem : Except Obstacle α)
      (.error (.unclassified (problem n.displayText))) :=
  .text_bind (checkText_eq hn) (.inl rfl)

theorem literalValue_eq (h : isShownById n = false) : literalValue n = n.literalValue.mapError .fault := by
  rw [literalValue, checkText_eq_ok h]
  rfl

theorem literalValue_eq_of_isLiteral (h : n.isLiteral) : literalValue n = n.literalValue.mapError .fault :=
  literalValue_eq (isShownById_eq_false (by decide) h)

section Closed

variable (hg : g.Closed) (hn : n ∈ g.nodes)
include hg hn

theorem tells_enumPlan : Tells g settings (enumPlan g n) (g.enumPlan n) := by
  have hmembers : ∀ m ∈ g.constituents n, m ∈ g.nodes := fun _ => Graph.mem_nodes_of_mem_constituents
  rw [enumPlan, Graph.enumPlan, constituents_eq hg hn, ask_ok_bind]
  rcases hfind : (g.constituents n).find? (!·.isLiteral) with _ | member
  · simp only [hfind]
    refine (Tells.mapM fun m hm => .inl (literalValue_eq_of_isLiteral ?_)).map _
    simpa using List.find?_eq_none.1 hfind m hm
  · simp only [hfind]
    exact tells_refuse (hmembers _ (List.mem_of_find?_eq_some hfind)) _

theorem tells_unionPlan : Tells g settings (unionPlan g n) (g.unionPlan n) := by
  rw [unionPlan, Graph.unionPlan, constituents_eq hg hn, ask_ok_bind]
  rcases hc : (g.constituents n).filter Node.isDefined with _ | ⟨a, _ | ⟨b, rest⟩⟩
  · exact .inl rfl
  · exact .inl rfl
  dsimp only
  generalize a :: b :: rest = types
  rw [optionsPlan]
  split
  · exact .inl rfl
  · refine (Tells.mapM fun m hm => .inl (literalValue_eq_of_isLiteral ?_)).map _
    -- whichever literals are left out, those that have a value are literals
    split at hm
    · exact (List.mem_filter.1 (List.mem_filter.1 hm).1).2
    · exact (List.mem_filter.1 hm).2

theorem tells_shapeOf : Tells g settings (shapeOf g n) (g.shapeOf n) := by
  rw [shapeOf, Graph.shapeOf, shape?_eq hg hn, ask_check_bind]
  refine .check_bind (checks_shape hn) ?_
  cases g.shape? n with
  | some shape => exact .inl rfl
  | none => exact tells_refuse hn _

omit hn in
theorem tells_areMergeable {parts : List Node} (hparts : ∀ m ∈ parts, m ∈ g.nodes) :
    Tells g settings (areMergeable g parts) (g.areMergeable parts) := by
  induction parts with
  | nil => exact .inl rfl
  | cons part rest ih =>
    obtain ⟨hpart, hrest⟩ := List.forall_mem_cons.1 hparts
    rw [areMergeable, Graph.areMergeable]
    refine (tells_shapeOf hg hpart).bind fun shape _ => ?_
    split
    · exact ih hrest
    · exact .inl rfl

omit hg hn in
theorem checks_parts {parts : List Node} (hparts : ∀ m ∈ parts, m ∈ g.nodes) :
    Checks g (forM parts checkMembers) := by
  rcases hcheck : forM parts checkMembers with breach | ⟨⟩
  · obtain ⟨part, hpart, hbreaks⟩ := exists_of_forM_eq_error hcheck
    rw [← hbreaks]
    exact checks_members (hparts part hpart)
  · exact .inl rfl

theorem tells_intersectionPlan :
    Tells g settings (intersectionPlan g settings n) (g.intersectionPlan settings n) := by
  have hparts : ∀ m ∈ g.constituents n, m ∈ g.nodes := fun _ => Graph.mem_nodes_of_mem_constituents
  rw [intersectionPlan, Graph.intersectionPlan, constituents_eq hg hn, ask_ok_bind]
  refine (tells_areMergeable hg hparts).bind fun mergeable _ => ?_
  rw [mapM_slots_eq hg hparts, mapM_stringIndexType?_eq hg hparts]
  split
  · rw [ask_check_bind, ask_ok_bind, ← List.flatMap_def, List.filterMap_map]
    exact .check_bind (checks_parts hparts) (.inl rfl)
  · exact .inl rfl

theorem tells_objectPlan :
    Tells g settings (objectPlan g settings n) (.ok (g.objectPlan settings n)) := by
  rw [objectPlan, slots_eq hg hn, stringIndexType?_eq hg hn, ask_check_bind]
  exact .check_bind (checks_members hn) (.inl rfl)

theorem tells_plan (settings : ResolverSettings) : Tells g settings (plan g settings n) (g.plan settings n) := by
  refine (tells_shapeOf hg hn).bind fun shape hshape => ?_
  have hs := Graph.shape?_of_shapeOf hshape
  cases shape with
  | enum => exact tells_enumPlan hg hn
  | literal =>
    rw [planOf, literalValue_eq (isShownById_of_shape? hs)]
    exact Tells.map _ (.inl rfl)
  | bigIntLiteral => exact .text_bind (checkValue_eq hn hs) (.inl rfl)
  | primitive =>
    obtain ⟨p, hp⟩ := Option.isSome_iff_exists.1 (Graph.isPrimitive_of_shape? hs)
    simp only [planOf, Graph.planOf, hp]
    cases Schema.ofPrimitive? p <;> exact .inl rfl
  | generic =>
    rw [planOf, checkText_eq_ok (isShownById_of_shape? hs)]
    exact .inl rfl
  | union => exact tells_unionPlan hg hn
  | intersection => exact tells_intersectionPlan hg hn
  | array =>
    rw [planOf, typeArguments_eq hg hn]
    exact .inl rfl
  | tuple =>
    rw [planOf, typeArguments_eq hg hn]
    exact .inl rfl
  | function => exact tells_refuse hn _
  | date =>
    rw [planOf, Graph.planOf]
    split
    · exact .inl rfl
    · exact tells_objectPlan hg hn
  | indexable =>
    rw [planOf, Graph.planOf, stringIndexType?_eq hg hn, ask_ok_bind]
    cases g.stringIndexType? n <;> exact .inl rfl
  | object => exact tells_objectPlan hg hn

end Closed

end Strict

end TypeSchema
