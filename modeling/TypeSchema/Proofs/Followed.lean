import Mathlib.Logic.Relation
import TypeSchema.Proofs.Walk

/-!
# What a node follows, and which nodes have no schema

`Graph.followed` lists, shape by shape, the nodes whose schemas a node is made of, and
`Graph.Unrepresentable` says which nodes have no schema themselves. Neither looks at plans; the
lemmas tie both to `Graph.plan`.
-/

namespace TypeSchema

/-! ### Results, and lists of them -/

section Results

variable {α β ε : Type} {f : α → β} {x : Except ε α}

theorem isOk_map (f : α → β) (x : Except ε α) : (x.map f).isOk = x.isOk := by
  cases x <;> rfl

theorem map_eq_error_iff {e : ε} : x.map f = .error e ↔ x = .error e := by
  cases x <;> simp [Except.map]

theorem mapError_map {ε' : Type} (f : α → β) (h : ε → ε') (x : Except ε α) :
    (x.map f).mapError h = (x.mapError h).map f := by
  cases x <;> rfl

theorem map_eq_ok {b : β} (h : x.map f = .ok b) : ∃ a, x = .ok a ∧ f a = b := by
  cases x with
  | error e => cases h
  | ok a => cases h; exact ⟨a, rfl, rfl⟩

theorem bind_eq_ok {k : α → Except ε β} {b : β} (h : x >>= k = .ok b) : ∃ a, x = .ok a ∧ k a = .ok b := by
  cases x with
  | error e => cases h
  | ok a => exact ⟨a, rfl, h⟩

theorem ok_bind (a : α) (k : α → Except ε β) : Except.ok a >>= k = k a := rfl

theorem error_bind (e : ε) (k : α → Except ε β) : Except.error e >>= k = .error e := rfl

theorem eq_ok_of_toOption {a : α} (h : x.toOption = some a) : x = .ok a := by
  cases x with
  | error e => cases h
  | ok b => exact congrArg Except.ok (Option.some.inj h)

end Results

theorem exists_right_of_mem_left {α β : Type} {R : α → β → Prop} {xs : List α} {ys : List β}
    (h : List.Forall₂ R xs ys) {x : α} (hx : x ∈ xs) : ∃ y ∈ ys, R x y := by
  induction h with
  | nil => cases hx
  | cons hxy _ ih =>
    rcases List.mem_cons.1 hx with rfl | hx
    · exact ⟨_, List.mem_cons_self .., hxy⟩
    · obtain ⟨y, hy, hxy⟩ := ih hx
      exact ⟨y, List.mem_cons_of_mem _ hy, hxy⟩

theorem exists_left_of_mem_right {α β : Type} {R : α → β → Prop} {xs : List α} {ys : List β}
    (h : List.Forall₂ R xs ys) {y : β} (hy : y ∈ ys) : ∃ x ∈ xs, R x y :=
  exists_right_of_mem_left h.flip hy

theorem mapM_eq_ok_iff {α β ε : Type} {f : α → Except ε β} {xs : List α} {ys : List β} :
    xs.mapM f = .ok ys ↔ List.Forall₂ (fun x y => f x = .ok y) xs ys := by
  induction xs generalizing ys with
  | nil => cases ys <;> simp [pure, Except.pure]
  | cons x xs ih =>
    rw [List.mapM_cons, List.forall₂_cons_left_iff]
    cases hx : f x with
    | error e => simp [bind, Except.bind]
    | ok y =>
      cases hxs : xs.mapM f with
      | error e => simp [bind, Except.bind, ← ih, hxs]
      | ok zs => simp [bind, Except.bind, pure, Except.pure, ← ih, hxs, eq_comm]

theorem exists_mapM_eq_ok_iff {α β ε : Type} {f : α → Except ε β} {xs : List α} :
    (∃ ys, xs.mapM f = .ok ys) ↔ ∀ x ∈ xs, ∃ y, f x = .ok y := by
  simp only [mapM_eq_ok_iff]
  induction xs with
  | nil => simp
  | cons x xs ih =>
    rw [List.forall_mem_cons, ← ih]
    constructor
    · rintro ⟨_, _ | ⟨hx, hxs⟩⟩
      exact ⟨⟨_, hx⟩, _, hxs⟩
    · rintro ⟨⟨y, hx⟩, ys, hxs⟩
      exact ⟨y :: ys, .cons hx hxs⟩

namespace Node

/-- A literal type without a value that an enum can hold: a big integer, or none and no name of a
boolean either. -/
def LacksValue (n : Node) : Prop :=
  match n.value with
  | none => n.intrinsicName ≠ some "true" ∧ n.intrinsicName ≠ some "false"
  | some (.bigInt _) => True
  | some _ => False

theorem exists_literalValue_iff {n : Node} : (∃ value, n.literalValue = .ok value) ↔ ¬n.LacksValue := by
  unfold literalValue LacksValue
  rcases hv : n.value with _ | (_ | _ | _ | _)
  · by_cases ht : n.intrinsicName = some "true"
    · simp [isLiteralTrue, hv, ht]
    · by_cases hf : n.intrinsicName = some "false"
      · simp [isLiteralTrue, isLiteralFalse, hv, hf]
      · simp [isLiteralTrue, isLiteralFalse, hv, ht, hf]
  all_goals simp

theorem literalValue_of_isLiteralTrue {n : Node} (h : n.isLiteralTrue) : n.literalValue = .ok (.bool true) := by
  have hv : n.value = none := by simp only [isLiteralTrue, Bool.and_eq_true] at h; simpa using h.1
  simp [literalValue, hv, h]

theorem literalValue_of_isLiteralFalse {n : Node} (h : n.isLiteralFalse) :
    n.literalValue = .ok (.bool false) := by
  simp only [isLiteralFalse, Bool.and_eq_true, beq_iff_eq, Option.isNone_iff_eq_none] at h
  simp [literalValue, isLiteralTrue, isLiteralFalse, h.1, h.2]

theorem not_lacksValue_of_isLiteralTrue {n : Node} (h : n.isLiteralTrue) : ¬n.LacksValue :=
  exists_literalValue_iff.1 ⟨_, literalValue_of_isLiteralTrue h⟩

theorem not_lacksValue_of_isLiteralFalse {n : Node} (h : n.isLiteralFalse) : ¬n.LacksValue :=
  exists_literalValue_iff.1 ⟨_, literalValue_of_isLiteralFalse h⟩

theorem not_lacksValue_of_isBooleanPair {cs : List Node} (h : isBooleanPair cs) :
    ∀ c ∈ cs, ¬c.LacksValue := by
  unfold isBooleanPair at h
  split at h
  · next a b =>
    simp only [Bool.and_eq_true, Bool.or_eq_true] at h
    rw [List.forall_mem_cons, List.forall_mem_singleton]
    rcases h.2 with h | h
    · exact ⟨not_lacksValue_of_isLiteralTrue h.1, not_lacksValue_of_isLiteralFalse h.2⟩
    · exact ⟨not_lacksValue_of_isLiteralFalse h.2, not_lacksValue_of_isLiteralTrue h.1⟩
  · cases h

end Node

namespace Graph

variable {g : Graph} {settings : ResolverSettings} {n m : Node}

/-! ### Followed nodes -/

/-- The constituents of a union that count. -/
def definedConstituents (g : Graph) (n : Node) : List Node :=
  (g.constituents n).filter Node.isDefined

def isMergeable (g : Graph) (part : Node) : Bool :=
  g.shape? part == some .object || g.shape? part == some .indexable

/-- The intersection is one object made of the members of its parts. -/
def merges (g : Graph) (n : Node) : Bool :=
  !(g.constituents n).isEmpty && (g.constituents n).all g.isMergeable

/-- The types that count of the members that schemas show. -/
def visibleTypes (g : Graph) (settings : ResolverSettings) (n : Node) : List Node :=
  (g.slots settings n).map (·.type)

def objectFollowed (g : Graph) (settings : ResolverSettings) (n : Node) : List Node :=
  g.visibleTypes settings n ++ (g.stringIndexType? n).toList

/-- A single defined constituent stands for the union; of several, the literals are not followed. -/
def unionFollowed (g : Graph) (n : Node) : List Node :=
  match g.definedConstituents n with
  | [c] => [c]
  | cs => cs.filter (!·.isLiteral)

def intersectionFollowed (g : Graph) (settings : ResolverSettings) (n : Node) : List Node :=
  if g.merges n then
    (g.constituents n).flatMap (g.visibleTypes settings) ++
      (g.constituents n).filterMap g.stringIndexType?
  else g.constituents n

/-- The nodes whose schemas the schema of `n` is made of, in order. -/
def followed (g : Graph) (settings : ResolverSettings) (n : Node) : List Node :=
  match g.shape? n with
  | some .union => g.unionFollowed n
  | some .intersection => g.intersectionFollowed settings n
  | some .array => (g.typeArguments n).take 1
  | some .tuple => g.typeArguments n
  | some .date => if settings.datesAsStrings then [] else g.objectFollowed settings n
  | some .indexable => (g.stringIndexType? n).toList
  | some .object => g.objectFollowed settings n
  | _ => []

def Follows (g : Graph) (settings : ResolverSettings) (n m : Node) : Prop := m ∈ g.followed settings n

/-- A way of followed edges, none of them included, leads from one node to the other. -/
def Reaches (g : Graph) (settings : ResolverSettings) : Node → Node → Prop :=
  Relation.ReflTransGen (g.Follows settings)

def OnCycle (g : Graph) (settings : ResolverSettings) (n : Node) : Prop :=
  Relation.TransGen (g.Follows settings) n n

/-- The node has no schema, whatever it follows. -/
inductive Unrepresentable (g : Graph) (n : Node) : Prop
  | shapeless : g.shape? n = none → Unrepresentable g n
  | function : g.shape? n = some .function → Unrepresentable g n
  | bigIntLiteral : g.shape? n = some .bigIntLiteral → Unrepresentable g n
  | bigInt : g.shape? n = some .primitive → n.primitive? = some .bigInt → Unrepresentable g n
  | literal : g.shape? n = some .literal → n.LacksValue → Unrepresentable g n
  /-- A union of several has to show such a literal, which is neither `true` nor `false`. -/
  | union {c} : g.shape? n = some .union → 2 ≤ (g.definedConstituents n).length →
    c ∈ g.definedConstituents n → c.isLiteral → c.LacksValue → Unrepresentable g n
  | enum {c} : g.shape? n = some .enum → c ∈ g.constituents n → (c.isLiteral → c.LacksValue) →
    Unrepresentable g n

/-! ### Nodes of the graph -/

theorem mem_nodes_of_node? {id : Int} (h : g.node? id = some m) : m ∈ g.nodes :=
  List.mem_of_find?_eq_some h

theorem mem_nodes_of_mem_constituents (h : m ∈ g.constituents n) : m ∈ g.nodes := by
  obtain ⟨id, -, h⟩ := List.mem_filterMap.1 h
  exact mem_nodes_of_node? h

theorem mem_nodes_of_mem_typeArguments (h : m ∈ g.typeArguments n) : m ∈ g.nodes := by
  obtain ⟨id, -, h⟩ := List.mem_filterMap.1 h
  exact mem_nodes_of_node? h

theorem mem_nodes_of_stringIndexType? (h : g.stringIndexType? n = some m) : m ∈ g.nodes := by
  obtain ⟨id, -, h⟩ := Option.bind_eq_some_iff.1 h
  exact mem_nodes_of_node? h

theorem mem_nodes_of_mem_properties {p : Property} (h : p ∈ g.properties n) :
    p.effectiveType ∈ g.nodes := by
  obtain ⟨member, -, hmember⟩ := List.mem_filterMap.1 h
  obtain ⟨type, htype, hp⟩ := Option.map_eq_some_iff.1 hmember
  have ht : p.type = type := hp ▸ rfl
  have ha : p.accessorType = member.accessorType.bind g.node? := hp ▸ rfl
  unfold Property.effectiveType
  split
  · rw [ht, ha]
    rcases hacc : member.accessorType.bind g.node? with _ | accessor
    · exact mem_nodes_of_node? htype
    · obtain ⟨id, -, hacc⟩ := Option.bind_eq_some_iff.1 hacc
      exact mem_nodes_of_node? hacc
  · rw [ht]
    exact mem_nodes_of_node? htype

theorem mem_nodes_of_mem_visibleTypes (h : m ∈ g.visibleTypes settings n) : m ∈ g.nodes := by
  obtain ⟨slot, hslot, rfl⟩ := List.mem_map.1 h
  obtain ⟨p, hp, rfl⟩ := List.mem_map.1 hslot
  exact mem_nodes_of_mem_properties (List.mem_filter.1 hp).1

theorem mem_nodes_of_mem_objectFollowed (h : m ∈ g.objectFollowed settings n) : m ∈ g.nodes := by
  rcases List.mem_append.1 h with h | h
  · exact mem_nodes_of_mem_visibleTypes h
  · exact mem_nodes_of_stringIndexType? (by simpa using h)

theorem mem_definedConstituents_of_mem_unionFollowed (h : m ∈ g.unionFollowed n) :
    m ∈ g.definedConstituents n := by
  unfold unionFollowed at h
  split at h
  · next c hc => rw [hc]; exact h
  · exact (List.mem_filter.1 h).1

theorem mem_unionFollowed_of_not_isLiteral (h : m ∈ g.definedConstituents n) (hlit : ¬m.isLiteral) :
    m ∈ g.unionFollowed n := by
  unfold unionFollowed
  split
  · next c hc => rw [hc] at h; exact h
  · exact List.mem_filter.2 ⟨h, by simpa using hlit⟩

theorem Follows.mem_nodes (h : g.Follows settings n m) : m ∈ g.nodes := by
  unfold Follows followed at h
  split at h
  · exact mem_nodes_of_mem_constituents (List.mem_filter.1 (mem_definedConstituents_of_mem_unionFollowed h)).1
  · unfold intersectionFollowed at h
    split at h
    · rcases List.mem_append.1 h with h | h
      · obtain ⟨part, -, h⟩ := List.mem_flatMap.1 h
        exact mem_nodes_of_mem_visibleTypes h
      · obtain ⟨part, -, h⟩ := List.mem_filterMap.1 h
        exact mem_nodes_of_stringIndexType? h
    · exact mem_nodes_of_mem_constituents h
  · exact mem_nodes_of_mem_typeArguments (List.mem_of_mem_take h)
  · exact mem_nodes_of_mem_typeArguments h
  · split at h
    · cases h
    · exact mem_nodes_of_mem_objectFollowed h
  · exact mem_nodes_of_stringIndexType? (by simpa using h)
  · exact mem_nodes_of_mem_objectFollowed h
  · cases h

theorem Reaches.mem_nodes (hn : n ∈ g.nodes) (h : g.Reaches settings n m) : m ∈ g.nodes := by
  induction h with
  | refl => exact hn
  | tail _ h _ => exact h.mem_nodes

theorem Closed.eq_of_id_eq (hg : g.Closed) (hn : n ∈ g.nodes) (hm : m ∈ g.nodes) (h : n.id = m.id) :
    n = m :=
  List.inj_on_of_nodup_map hg.nodup hn hm h

theorem id_mem_ids (hn : n ∈ g.nodes) : n.id ∈ g.ids := List.mem_map_of_mem hn

theorem exists_node?_of_mem_ids {id : Int} (h : id ∈ g.ids) : ∃ m, g.node? id = some m := by
  obtain ⟨m, hm, hid⟩ := List.mem_map.1 h
  exact Option.isSome_iff_exists.1 (List.find?_isSome.2 ⟨m, hm, by simpa using hid⟩)

theorem Closed.node?_eq (hg : g.Closed) (hn : n ∈ g.nodes) : g.node? n.id = some n := by
  obtain ⟨m, hm⟩ := exists_node?_of_mem_ids (id_mem_ids hn)
  obtain rfl := hg.eq_of_id_eq (mem_nodes_of_node? hm) hn (by simpa using List.find?_some hm)
  exact hm

/-! ### Plans follow what is followed -/

theorem areMergeable_eq_ok {parts : List Node} {b : Bool} (h : g.areMergeable parts = .ok b) :
    b = parts.all g.isMergeable := by
  induction parts with
  | nil => cases h; rfl
  | cons part rest ih =>
    unfold areMergeable shapeOf at h
    cases hs : g.shape? part with
    | none => rw [hs] at h; cases h
    | some shape =>
      simp only [hs, bind, Except.bind] at h
      split at h
      · next ho =>
        rw [ih h, List.all_cons]
        simp only [Bool.or_eq_true, decide_eq_true_eq] at ho
        rcases ho with rfl | rfl <;> simp [isMergeable, hs]
      · next ho =>
        cases h
        simp only [Bool.or_eq_true, decide_eq_true_eq, not_or] at ho
        simp [isMergeable, hs, ho.1, ho.2]

end Graph

end TypeSchema
