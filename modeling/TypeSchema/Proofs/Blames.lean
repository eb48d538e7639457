import TypeSchema.Proofs.Rules

/-!
# What a cause is about

`Graph.Blames` says of which node a cause tells, and where a node tells of one of its literals,
which of them that is. A plan that is not made blames its node, or the first part of an intersection
that has no shape: `Closed.blames_or`.
-/

namespace TypeSchema

/-- The first that fails, where all before it succeed. -/
theorem split_of_mapM_eq_error {α β ε : Type} {f : α → Except ε β} {xs : List α} {e : ε}
    (h : xs.mapM f = .error e) :
    ∃ before x after, xs = before ++ x :: after ∧ (∀ b ∈ before, ∃ y, f b = .ok y) ∧ f x = .error e := by
  induction xs with
  | nil => cases h
  | cons x xs ih =>
    rw [List.mapM_cons] at h
    cases hx : f x with
    | error e' =>
      rw [hx] at h
      cases h
      exact ⟨[], x, xs, rfl, List.forall_mem_nil _, hx⟩
    | ok y =>
      rw [hx] at h
      obtain ⟨before, x', after, rfl, hbefore, he⟩ := ih (map_eq_error_iff.1 h)
      exact ⟨x :: before, x', after, rfl, List.forall_mem_cons.2 ⟨⟨y, hx⟩, hbefore⟩, he⟩

/-- What is wrong with a literal that lacks a value. -/
def Node.valueProblem (n : Node) : Problem :=
  match n.value with
  | some (.bigInt _) => .literalNotScalar n.displayText
  | _ => .literalWithoutValue n.displayText

theorem Node.literalValue_eq_error {n : Node} {cause : Cause} (h : n.literalValue = .error cause) :
    n.LacksValue ∧ cause = .unclassified n.valueProblem := by
  refine ⟨?_, ?_⟩
  · by_contra hl
    obtain ⟨value, hvalue⟩ := Node.exists_literalValue_iff.2 hl
    cases h.symm.trans hvalue
  · unfold literalValue at h
    unfold valueProblem
    split at h
    · cases h
    · cases h
    · cases h
    · next hv =>
      cases h
      rw [hv]
    · next hv =>
      rw [hv]
      split at h
      · cases h
      · split at h
        · cases h
        · cases h
          rfl

namespace Cause

/-- The cause is told in words of its own. -/
def IsDescribed (c : Cause) : Prop := ∃ words, c = .unclassified (.described words)

end Cause

namespace Graph

/-- The cause tells what is wrong with the node itself. -/
inductive Blames (g : Graph) (n : Node) : Cause → Prop
  | shapeless : g.shape? n = none → Blames g n (.unclassified (.unhandled n.displayText))
  | function : g.shape? n = some .function → Blames g n (.unclassified (.function n.displayText))
  | bigIntLiteral : g.shape? n = some .bigIntLiteral →
    Blames g n (.unsupportedPrimitive ("bigint literal " ++ n.valueText))
  | bigInt : g.shape? n = some .primitive → n.primitive? = some .bigInt →
    Blames g n (.unsupportedPrimitive Primitive.bigInt.text)
  | literal : g.shape? n = some .literal → n.LacksValue → Blames g n (.unclassified n.valueProblem)
  /-- The first member that is not a literal. -/
  | enumMember {before c after} : g.shape? n = some .enum → g.constituents n = before ++ c :: after →
    (∀ b ∈ before, b.isLiteral) → ¬c.isLiteral →
    Blames g n (.unclassified (.memberNotLiteral c.displayText))
  /-- The first member without a value, all of them literals. -/
  | enumValue {before c after} : g.shape? n = some .enum → (∀ c ∈ g.constituents n, c.isLiteral) →
    g.constituents n = before ++ c :: after → (∀ b ∈ before, ¬b.LacksValue) → c.LacksValue →
    Blames g n (.unclassified c.valueProblem)
  /-- The first without a value of the literals that are listed. -/
  | unionValue {before c after} : g.shape? n = some .union → 2 ≤ (g.definedConstituents n).length →
    g.shownLiterals n = before ++ c :: after → (∀ b ∈ before, ¬b.LacksValue) → c.LacksValue →
    Blames g n (.unclassified c.valueProblem)

/-- The cause tells of the first part of an intersection that has no shape. All parts before it are
objects, so that it is come to. -/
inductive BlamesPart (g : Graph) (n : Node) : Node → Cause → Prop
  | intro {before part after} : g.shape? n = some .intersection →
    g.constituents n = before ++ part :: after → (∀ b ∈ before, g.isMergeable b) → g.shape? part = none →
    BlamesPart g n part (.unclassified (.unhandled part.displayText))

variable {g : Graph} {settings : ResolverSettings} {n part : Node} {cause : Cause}

theorem mem_of_mem_shownLiterals {c : Node} (h : c ∈ g.shownLiterals n) :
    c ∈ g.definedConstituents n ∧ c.isLiteral := by
  have hmem : c ∈ (g.definedConstituents n).filter Node.isLiteral := by
    unfold shownLiterals at h
    split at h
    · exact (List.mem_filter.1 h).1
    · exact h
  exact List.mem_filter.1 hmem

theorem Blames.unrepresentable (h : g.Blames n cause) : g.Unrepresentable n := by
  cases h with
  | shapeless hs => exact .shapeless hs
  | function hs => exact .function hs
  | bigIntLiteral hs => exact .bigIntLiteral hs
  | bigInt hs hp => exact .bigInt hs hp
  | literal hs hl => exact .literal hs hl
  | @enumMember before c after hs hc _ hlit =>
    exact .enum hs (hc ▸ List.mem_append_cons_self) fun hl => absurd hl hlit
  | @enumValue before c after hs _ hc _ hl => exact .enum hs (hc ▸ List.mem_append_cons_self) fun _ => hl
  | @unionValue before c after hs hlen hc _ hl =>
    obtain ⟨hmem, hlit⟩ := mem_of_mem_shownLiterals (hc ▸ List.mem_append_cons_self : c ∈ g.shownLiterals n)
    exact .union hs hlen hmem hlit hl

/-- Neither words of a caller nor words of its own, and not the depth. -/
theorem Blames.cause_cases (h : g.Blames n cause) :
    (∃ problem, cause = .unclassified problem ∧ ∀ words, problem ≠ .described words) ∨
      ∃ kind, cause = .unsupportedPrimitive kind := by
  have hvalue (c : Node) (words : String) : c.valueProblem ≠ .described words := by
    unfold Node.valueProblem
    split <;> rintro ⟨⟩
  cases h with
  | shapeless | function | enumMember => exact .inl ⟨_, rfl, by rintro _ ⟨⟩⟩
  | bigIntLiteral | bigInt => exact .inr ⟨_, rfl⟩
  | literal | enumValue | unionValue => exact .inl ⟨_, rfl, hvalue _⟩

theorem BlamesPart.blames (h : g.BlamesPart n part cause) : g.Blames part cause := by
  cases h with
  | intro _ _ _ hs => exact .shapeless hs

theorem BlamesPart.mem_constituents (h : g.BlamesPart n part cause) : part ∈ g.constituents n := by
  cases h with
  | intro _ hparts => rw [hparts]; exact List.mem_append_cons_self

theorem BlamesPart.not_merges (h : g.BlamesPart n part cause) : ¬g.merges n := by
  have hmem := h.mem_constituents
  cases h with
  | intro _ _ _ hs =>
    have hpart : g.isMergeable part = false := by simp [isMergeable, hs]
    simp only [merges, Bool.and_eq_true, List.all_eq_true, not_and]
    intro _ hall
    rw [hall part hmem] at hpart
    cases hpart

theorem BlamesPart.follows (h : g.BlamesPart n part cause) (settings : ResolverSettings) :
    g.Follows settings n part := by
  have hfollowed : g.followed settings n = g.constituents n := by
    have hm := h.not_merges
    cases h with
    | intro hs => simp [followed, hs, intersectionFollowed, hm]
  show part ∈ g.followed settings n
  exact hfollowed.symm ▸ h.mem_constituents

/-! ### Shapes of a closed graph -/

/-- A shape that is not the one looked for is passed over. -/
theorem ite_some_eq_some_iff {p : Prop} [Decidable p] {s t : Shape} {rest : Option Shape}
    (hne : s ≠ t) : (if p then some s else rest) = some t ↔ ¬p ∧ rest = some t := by
  split <;> simp [*]

theorem isPrimitive_of_shape? (h : g.shape? n = some .primitive) : n.isPrimitive := by
  by_contra hp
  unfold shape? at h
  simp (disch := decide) only [↓ite_some_eq_some_iff, hp, ↓reduceIte,
    ↓Option.ite_none_right_eq_some] at h
  simp at h

theorem isIndexable_of_shape? (h : g.shape? n = some .indexable) : n.isIndexable := by
  by_contra hi
  unfold shape? at h
  simp (disch := decide) only [↓ite_some_eq_some_iff, hi, ↓reduceIte,
    ↓Option.ite_none_right_eq_some] at h
  simp at h

/-- An indexable is one by its index, which no closed graph lacks. -/
theorem Closed.exists_stringIndexType? (hg : g.Closed) (hn : n ∈ g.nodes)
    (hs : g.shape? n = some .indexable) : ∃ c, g.stringIndexType? n = some c := by
  have hi := isIndexable_of_shape? hs
  simp only [Node.isIndexable, Bool.and_eq_true] at hi
  obtain ⟨id, hid⟩ := Option.isSome_iff_exists.1 hi.1.2
  rw [stringIndexType?, hid]
  exact exists_node?_of_mem_ids (hg.references n hn id (by simp [Node.references, hid]))

/-! ### Plans that are not made -/

theorem shape?_of_shapeOf_error (h : g.shapeOf n = .error cause) :
    g.shape? n = none ∧ cause = .unclassified (.unhandled n.displayText) := by
  unfold shapeOf at h
  split at h
  · cases h
  · next hs =>
    cases h
    exact ⟨hs, rfl⟩

theorem shape?_of_shapeOf {shape : Shape} (h : g.shapeOf n = .ok shape) : g.shape? n = some shape := by
  unfold shapeOf at h
  split at h
  · next hs =>
    cases h
    exact hs
  · cases h

/-- The literals up to the first without a value. -/
theorem split_of_mapM_literalValue {cs : List Node} (h : cs.mapM Node.literalValue = .error cause) :
    ∃ before c after, cs = before ++ c :: after ∧ (∀ b ∈ before, ¬b.LacksValue) ∧ c.LacksValue ∧
      cause = .unclassified c.valueProblem := by
  obtain ⟨before, c, after, rfl, hbefore, hc⟩ := split_of_mapM_eq_error h
  obtain ⟨hl, rfl⟩ := Node.literalValue_eq_error hc
  exact ⟨before, c, after, rfl, fun b hb => Node.exists_literalValue_iff.1 (hbefore b hb), hl, rfl⟩

theorem blames_of_enumPlan (hs : g.shape? n = some .enum) (h : g.enumPlan n = .error cause) :
    g.Blames n cause := by
  simp only [enumPlan] at h
  split at h
  · next c hfind =>
    cases h
    obtain ⟨hc, before, after, hsplit, hbefore⟩ := List.find?_eq_some_iff_append.1 hfind
    exact .enumMember hs hsplit (fun b hb => by simpa using hbefore b hb) (by simpa using hc)
  · next hfind =>
    obtain ⟨before, c, after, hsplit, hbefore, hl, rfl⟩ := split_of_mapM_literalValue (map_eq_error_iff.1 h)
    exact .enumValue hs (fun c hc => by simpa using List.find?_eq_none.1 hfind c hc) hsplit hbefore hl

theorem blames_of_unionPlan (hs : g.shape? n = some .union) (h : g.unionPlan n = .error cause) :
    g.Blames n cause := by
  have hlen : 2 ≤ (g.definedConstituents n).length := by
    rcases hc : g.definedConstituents n with _ | ⟨c, _ | ⟨d, rest⟩⟩
    · cases (unionPlan_of_nil hc).symm.trans h
    · cases (unionPlan_of_singleton hc).symm.trans h
    · simp
  rw [unionPlan_eq hlen] at h
  split at h
  · cases h
  · obtain ⟨before, c, after, hsplit, hbefore, hl, rfl⟩ := split_of_mapM_literalValue (map_eq_error_iff.1 h)
    exact .unionValue hs hlen hsplit hbefore hl

theorem split_of_areMergeable {parts : List Node} (h : g.areMergeable parts = .error cause) :
    ∃ before part after, parts = before ++ part :: after ∧ (∀ b ∈ before, g.isMergeable b) ∧
      g.shape? part = none ∧ cause = .unclassified (.unhandled part.displayText) := by
  induction parts with
  | nil => cases h
  | cons part rest ih =>
    unfold areMergeable at h
    cases hs : g.shapeOf part with
    | error cause' =>
      rw [hs] at h
      cases h
      obtain ⟨hnone, rfl⟩ := shape?_of_shapeOf_error hs
      exact ⟨[], part, rest, rfl, List.forall_mem_nil _, hnone, rfl⟩
    | ok shape =>
      simp only [hs, bind, Except.bind] at h
      split at h
      · next ho =>
        obtain ⟨before, part', after, rfl, hbefore, hnone, rfl⟩ := ih h
        have hpart : g.isMergeable part := by
          rw [isMergeable, shape?_of_shapeOf hs]
          simpa using ho
        exact ⟨part :: before, part', after, rfl, List.forall_mem_cons.2 ⟨hpart, hbefore⟩, hnone, rfl⟩
      · cases h

/-- What stops a plan is blamed on its node or on a part of it. -/
theorem Closed.blames_or (hg : g.Closed) (hn : n ∈ g.nodes) (h : g.plan settings n = .error cause) :
    g.Blames n cause ∨ ∃ part, g.BlamesPart n part cause := by
  rcases hs : g.shape? n with _ | shape
  · simp only [plan, shapeOf, hs] at h
    cases h
    exact .inl (.shapeless hs)
  rw [plan_of_shape? hs] at h
  cases shape with
  | enum => exact .inl (blames_of_enumPlan hs h)
  | literal =>
    obtain ⟨hl, rfl⟩ := Node.literalValue_eq_error (map_eq_error_iff.1 h)
    exact .inl (.literal hs hl)
  | bigIntLiteral =>
    cases h
    exact .inl (.bigIntLiteral hs)
  | primitive =>
    obtain ⟨p, hp⟩ := Option.isSome_iff_exists.1 (isPrimitive_of_shape? hs)
    simp only [planOf, hp] at h
    cases p with
    | bigInt =>
      cases h
      exact .inl (.bigInt hs hp)
    | _ => cases h
  | union => exact .inl (blames_of_unionPlan hs h)
  | intersection =>
    simp only [planOf, intersectionPlan, bind, Except.bind] at h
    split at h
    · next cause' hm =>
      cases h
      obtain ⟨before, part, after, hparts, hbefore, hnone, rfl⟩ := split_of_areMergeable hm
      exact .inr ⟨part, .intro hs hparts hbefore hnone⟩
    · split at h <;> cases h
  | function =>
    cases h
    exact .inl (.function hs)
  | indexable =>
    obtain ⟨c, hc⟩ := hg.exists_stringIndexType? hn hs
    simp only [planOf, hc] at h
    cases h
  | generic | array | tuple | date | object => cases h

theorem Closed.cause_cases (hg : g.Closed) (hn : n ∈ g.nodes) (h : g.plan settings n = .error cause) :
    (∃ problem, cause = .unclassified problem ∧ ∀ words, problem ≠ .described words) ∨
      ∃ kind, cause = .unsupportedPrimitive kind := by
  rcases hg.blames_or hn h with hblames | ⟨part, hblames⟩
  · exact hblames.cause_cases
  · exact hblames.blames.cause_cases

/-- An indexable has an index, so that no plan lacks one. -/
theorem Closed.not_isDescribed (hg : g.Closed) (hn : n ∈ g.nodes) (h : g.plan settings n = .error cause) :
    ¬cause.IsDescribed := by
  rintro ⟨words, rfl⟩
  rcases hg.cause_cases hn h with ⟨problem, hp, hne⟩ | ⟨kind, hk⟩
  · cases hp
    exact hne words rfl
  · cases hk

end Graph

end TypeSchema
