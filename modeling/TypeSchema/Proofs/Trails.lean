import TypeSchema.Proofs.Blames
import TypeSchema.Proofs.Calls
import TypeSchema.Proofs.Ladder

/-!
# The way to an error

The path of a machine spells the labels of the way that it has gone. `Graph.Step` says shape by shape
which label the step to a followed node has, `Graph.Trail` puts the labels of steps together, and
`Call.Below.trail` is the invariant: a call below a call stands where a trail leads. So a failure is
told with the path of the node that it blames, or of the node at which there was no going further down:
`Machine.place_of_error`.
-/

namespace TypeSchema

namespace Graph

/-- The step from a node to one that it follows, with its label. Steps to the constituents of unions and
intersections have none. -/
inductive Step (g : Graph) (settings : ResolverSettings) (n : Node) : Option String → Node → Prop
  | option {c} : g.shape? n = some .union → c ∈ g.unionFollowed n → Step g settings n none c
  | part {c} : g.shape? n = some .intersection → ¬g.merges n → c ∈ g.constituents n →
    Step g settings n none c
  | partMember {part slot} : g.shape? n = some .intersection → g.merges n → part ∈ g.constituents n →
    slot ∈ g.slots settings part → Step g settings n (some slot.name) slot.type
  | partIndex {part c} : g.shape? n = some .intersection → g.merges n → part ∈ g.constituents n →
    g.stringIndexType? part = some c → Step g settings n (some "[string]") c
  | item {c rest} : g.shape? n = some .array → g.typeArguments n = c :: rest →
    Step g settings n (some "[]") c
  | position {i : Nat} {c} : g.shape? n = some .tuple → (g.typeArguments n)[i]? = some c →
    Step g settings n (some ("[" ++ toString i ++ "]")) c
  | value {c} : g.shape? n = some .indexable → g.stringIndexType? n = some c →
    Step g settings n (some "[string]") c
  | member {slot} : g.shape? n = some .object ∨ (g.shape? n = some .date ∧ ¬settings.datesAsStrings) →
    slot ∈ g.slots settings n → Step g settings n (some slot.name) slot.type
  | index {c} : g.shape? n = some .object ∨ (g.shape? n = some .date ∧ ¬settings.datesAsStrings) →
    g.stringIndexType? n = some c → Step g settings n (some "[string]") c

/-- Steps with these labels lead from the one node to the other. -/
inductive Trail (g : Graph) (settings : ResolverSettings) (n : Node) : List String → Node → Prop
  | refl : Trail g settings n [] n
  | tail {labels label m k} : Trail g settings n labels m → g.Step settings m label k →
    Trail g settings n (labels ++ label.toList) k

variable {g : Graph} {settings : ResolverSettings} {n m k : Node} {labels : List String} {p : Plan}

theorem Step.follows {label : Option String} (h : g.Step settings n label m) : g.Follows settings n m := by
  show m ∈ g.followed settings n
  unfold followed
  cases h with
  | option hs hc => simpa [hs] using hc
  | part hs hm hc => simpa [hs, intersectionFollowed, hm] using hc
  | partMember hs hm hpart hslot =>
    simp only [hs, intersectionFollowed, hm, ↓reduceIte]
    exact List.mem_append_left _ (List.mem_flatMap.2 ⟨_, hpart, List.mem_map_of_mem hslot⟩)
  | partIndex hs hm hpart hc =>
    simp only [hs, intersectionFollowed, hm, ↓reduceIte]
    exact List.mem_append_right _ (List.mem_filterMap.2 ⟨_, hpart, hc⟩)
  | item hs hc => simp [hs, hc]
  | position hs hc => simpa [hs] using List.mem_of_getElem? hc
  | value hs hc => simp [hs, hc]
  | @member slot hs hslot =>
    have hmem : slot.type ∈ g.objectFollowed settings n :=
      List.mem_append_left _ (List.mem_map_of_mem hslot)
    rcases hs with hs | ⟨hs, hd⟩
    · simpa only [hs] using hmem
    · simpa only [hs, if_neg hd] using hmem
  | index hs hc =>
    have hmem : m ∈ g.objectFollowed settings n := List.mem_append_right _ (by simp [hc])
    rcases hs with hs | ⟨hs, hd⟩
    · simpa only [hs] using hmem
    · simpa only [hs, if_neg hd] using hmem

/-- A trail is a way of followed edges. -/
theorem Trail.reaches (h : g.Trail settings n labels m) : g.Reaches settings n m := by
  induction h with
  | refl => exact .refl
  | tail _ hstep ih => exact ih.tail hstep.follows

theorem BlamesPart.step {cause : Cause} (h : g.BlamesPart n m cause) (settings : ResolverSettings) :
    g.Step settings n none m := by
  have hmem := h.mem_constituents
  have hmerges := h.not_merges
  cases h with
  | intro hs => exact .part hs hmerges hmem

/-! ### The edges of plans are steps -/

theorem step_of_mem_objectPlan
    (hs : g.shape? n = some .object ∨ (g.shape? n = some .date ∧ ¬settings.datesAsStrings)) :
    ∀ e ∈ (g.objectPlan settings n).edges, g.Step settings n e.label e.target := by
  intro e he
  rcases List.mem_append.1 he with he | he
  · obtain ⟨slot, hslot, rfl⟩ := List.mem_map.1 he
    exact .member hs hslot
  · obtain ⟨c, hc, rfl⟩ := List.mem_map.1 he
    exact .index hs (Option.mem_toList.1 hc)

theorem label_of_unionPlan (h : g.unionPlan n = .ok p) : ∀ e ∈ p.edges, e.label = none := by
  intro e he
  rcases hc : g.definedConstituents n with _ | ⟨c, _ | ⟨d, rest⟩⟩
  · cases (unionPlan_of_nil hc).symm.trans h
    cases he
  · cases (unionPlan_of_singleton hc).symm.trans h
    obtain rfl := List.mem_singleton.1 he
    rfl
  · rw [unionPlan_eq (by simp [hc])] at h
    split at h
    · cases h
      cases he
    · obtain ⟨values, -, rfl⟩ := map_eq_ok h
      split at he
      · cases he
      · obtain ⟨c, -, rfl⟩ := List.mem_map.1 he
        rfl

theorem step_of_mem_intersectionPlan (hs : g.shape? n = some .intersection)
    (h : g.intersectionPlan settings n = .ok p) : ∀ e ∈ p.edges, g.Step settings n e.label e.target := by
  obtain ⟨mergeable, hmergeable, h⟩ := bind_eq_ok h
  obtain rfl := areMergeable_eq_ok hmergeable
  intro e he
  split at h
  · next hm =>
    cases h
    rcases List.mem_append.1 he with he | he
    · obtain ⟨slot, hslot, rfl⟩ := List.mem_map.1 he
      obtain ⟨part, hpart, hslot⟩ := List.mem_flatMap.1 hslot
      exact .partMember hs hm hpart hslot
    · obtain ⟨c, hc, rfl⟩ := List.mem_map.1 he
      obtain ⟨part, hpart, hc⟩ := List.mem_filterMap.1 hc
      exact .partIndex hs hm hpart hc
  · next hm =>
    cases h
    obtain ⟨c, hc, rfl⟩ := List.mem_map.1 he
    exact .part hs hm hc

/-- The edges of a plan are labelled as steps are. -/
theorem step_of_mem_edges (h : g.plan settings n = .ok p) :
    ∀ e ∈ p.edges, g.Step settings n e.label e.target := by
  intro e he
  have hfollows := follows_of_mem_edges h e he
  obtain ⟨shape, hshape, h⟩ := bind_eq_ok h
  have hs := shape?_of_shapeOf hshape
  cases shape with
  | enum | literal | bigIntLiteral | primitive | generic | function =>
    simp [Follows, followed, hs] at hfollows
  | union =>
    rw [label_of_unionPlan h e he]
    refine .option hs ?_
    simpa [Follows, followed, hs] using hfollows
  | intersection => exact step_of_mem_intersectionPlan hs h e he
  | array =>
    cases h
    obtain ⟨c, hc, rfl⟩ := List.mem_map.1 he
    obtain ⟨rest, hrest⟩ := List.head?_eq_some_iff.1 (Option.mem_toList.1 hc)
    exact .item hs hrest
  | tuple =>
    cases h
    obtain ⟨⟨c, i⟩, hc, rfl⟩ := List.mem_map.1 he
    exact .position hs (List.mem_zipIdx_iff_getElem?.1 hc)
  | date =>
    simp only [planOf] at h
    split at h
    · cases h
      cases he
    · next hd =>
      cases h
      exact step_of_mem_objectPlan (.inr ⟨hs, hd⟩) e he
  | indexable =>
    simp only [planOf] at h
    split at h
    · next c hc =>
      cases h
      obtain rfl := List.mem_singleton.1 he
      exact .value hs hc
    · cases h
  | object =>
    cases h
    exact step_of_mem_objectPlan (.inl hs) e he

end Graph

namespace Machine

variable {g : Graph} {settings : ResolverSettings} {m m' : Machine}

namespace Call

variable {c c' : Call}

theorem Asks.step (h : Asks g settings c c') :
    ∃ label, g.Step settings c.node label c'.node ∧ c'.machine.place = c.machine.place.under label := by
  cases h with
  | @intro calls n m p e m₁ _ _ hplan hedge =>
    refine ⟨e.label, Graph.step_of_mem_edges hplan e hedge.mem, ?_⟩
    have hback := (hedge.spares fun _ _ _ _ => spares_resolve).restored
    have hplace : m₁.place = m.place := by rw [place, place, hback.declaration, hback.path]; rfl
    rw [← hplace]
    cases e.label <;> simp [push, place, Place.under]

/-- A call below a call stands where a trail leads. -/
theorem Below.trail (h : Below g settings c c') :
    ∃ labels, g.Trail settings c.node labels c'.node ∧
      c'.machine.place = ⟨c.machine.declaration, c.machine.path ++ labels⟩ := by
  induction h with
  | refl => exact ⟨[], .refl, by rw [place, List.append_nil]⟩
  | tail _ hasks ih =>
    obtain ⟨labels, htrail, hplace⟩ := ih
    obtain ⟨label, hstep, hunder⟩ := hasks.step
    refine ⟨labels ++ label.toList, htrail.tail hstep, ?_⟩
    rw [hunder, hplace]
    cases label <;> simp [Place.under]

end Call

/-- A resolution of a declaration that fails is told of the declaration, with the labels of a trail from
its node to the node that the failure is about: one that is unrepresentable and blamed by the cause,
one that was not to be entered, the ceiling being reached, or one that had just been entered when the
stack was full, counted in the depth that is told. -/
theorem place_of_error (hg : g.Closed) {before : List Request} {D : Subject} {raised : Raised}
    (hD : D.node ∈ g.nodes) (hbefore : after g settings before {} = some m)
    (h : m.answer g settings (.subject D) = some (.error raised, m')) :
    raised.failure.place.declaration = some D.name ∧
      ∃ k, g.Trail settings D.node raised.failure.place.path k ∧
        ((g.Unrepresentable k ∧ g.Blames k raised.failure.cause) ∨
          (raised.failure.cause = .depthExceeded settings.maxDepth ∧
            raised.origin.stage? k.id = none ∧ raised.origin.depth = settings.maxDepth) ∨
          (raised.failure.cause = .depthExceeded raised.origin.depth ∧
            raised.origin.stage? k.id = some .resolving ∧
            settings.stackRoom < raised.origin.depth ∧ raised.origin.depth ≤ settings.maxDepth)) := by
  obtain ⟨⟨result, m₁⟩, hrun, h⟩ := Option.bind_eq_some_iff.1 h
  obtain ⟨hresult, -⟩ := Prod.mk.inj (Option.some.inj h)
  obtain rfl := map_eq_error_iff.1 hresult
  obtain ⟨c, hbelow, hraises⟩ := Call.exists_raises hrun
  obtain ⟨labels, htrail, hplace⟩ := hbelow.trail
  have htidy : c.machine.Tidy := hbelow.tidy ((tidy_after tidy_empty hbefore).top D)
  have hdepth : c.machine.depth ≤ settings.maxDepth := hbelow.depth_le (Nat.zero_le _)
  have hplace : c.machine.place = ⟨some D.name, labels⟩ := hplace
  cases hraises with
  | @lost words hstage hcached =>
    have hsome := htidy.isSome_cached? _ hstage
    rw [hcached] at hsome
    cases hsome
  | deep hstage hlimit =>
    rw [hplace]
    exact ⟨rfl, c.node, htrail, .inr (.inl ⟨rfl, hstage, Nat.le_antisymm hdepth hlimit⟩)⟩
  | full hstage hlt hfull =>
    have hentered : (c.machine.enter c.node.id).stage? c.node.id = some .resolving := by
      rw [stage?_enter, if_pos rfl]
    rw [hplace]
    exact ⟨rfl, c.node, htrail, .inr (.inr ⟨rfl, hentered, Nat.lt_succ_of_le hfull, hlt⟩)⟩
  | fault _ _ hplan =>
    rw [hplace]
    refine ⟨rfl, ?_⟩
    rcases hg.blames_or (hbelow.mem_nodes hD) hplan with hblames | ⟨part, hblames⟩
    · exact ⟨c.node, htrail, .inl ⟨hblames.unrepresentable, hblames⟩⟩
    · -- the part was never asked for, but the step to it has no label
      have hstep := htrail.tail (hblames.step settings)
      rw [Option.toList_none, List.append_nil] at hstep
      exact ⟨part, hstep, .inl ⟨hblames.blames.unrepresentable, hblames.blames⟩⟩

/-- The parent fails a second time, past its child, which stays resolved. -/
theorem place_of_error_family :
    ∃ m raised m' k, after Graph.family {} [.subject .parent] {} = some m ∧
      m.answer Graph.family {} (.subject .parent) = some (.error raised, m') ∧
      raised.failure.place = ⟨some "Parent", ["serial"]⟩ ∧
      Graph.family.Trail {} .parent ["serial"] k ∧ Graph.family.Unrepresentable k ∧
      Graph.family.Blames k (.unsupportedPrimitive "bigint") := by
  have hruns : ∃ m raised m', after Graph.family {} [.subject .parent] {} = some m ∧
      m.answer Graph.family {} (.subject .parent) = some (.error raised, m') ∧
      raised.failure = ⟨.unsupportedPrimitive "bigint", ⟨some "Parent", ["serial"]⟩⟩ :=
    ⟨_, _, _, rfl, rfl, rfl⟩
  obtain ⟨m, raised, m', hbefore, hanswer, hfailure⟩ := hruns
  obtain ⟨-, k, htrail, hk⟩ := place_of_error Graph.closed_family (by decide) hbefore hanswer
  rw [hfailure] at htrail hk
  obtain ⟨hunrepresentable, hblames⟩ := hk.resolve_right fun h => by
    rcases h with ⟨hcause, -⟩ | ⟨hcause, -⟩ <;> cases hcause
  exact ⟨m, raised, m', k, hbefore, hanswer, by rw [hfailure], htrail, hunrepresentable, hblames⟩

end Machine

/-! ### The way down a ladder -/

theorem Graph.Step.of_rung {length j : Nat} {settings : ResolverSettings} {label : Option String} {k : Node}
    (h : (ladder length).Step settings (.rung j) label k) (hj : j < length) :
    ∃ i, j = i + 1 ∧ k = .rung i ∧ label.toList.length = 1 := by
  have hfollows := h.follows
  cases j with
  | zero =>
    have hnone : (ladder length).followed settings (.rung 0) = [] := rfl
    rw [Follows, hnone] at hfollows
    cases hfollows
  | succ i =>
    rw [Follows, ← targets_of_plan (plan_rung_succ hj)] at hfollows
    refine ⟨i, rfl, List.mem_singleton.1 hfollows, ?_⟩
    have hshape := shape?_rung_succ (ladder length) i
    cases h with
    | option hs => cases hshape.symm.trans hs
    | part hs => cases hshape.symm.trans hs
    | partMember | partIndex | item | position | value | member | index => rfl

/-- As many labels lead as many rungs down. -/
theorem Graph.Trail.of_rung {length i : Nat} {settings : ResolverSettings} {labels : List String} {k : Node}
    (h : (ladder length).Trail settings (.rung i) labels k) (hi : i < length) :
    ∃ j, j + labels.length = i ∧ k = .rung j := by
  induction h with
  | refl => exact ⟨i, rfl, rfl⟩
  | tail _ hstep ih =>
    obtain ⟨j, hj, rfl⟩ := ih
    obtain ⟨j, rfl, rfl, hlabel⟩ := hstep.of_rung (by omega)
    refine ⟨j, ?_, rfl⟩
    rw [List.length_append, hlabel]
    omega

/-- The highest of so many rungs fails for depth, but the node to which the path of its failure leads was
neither kept out nor anything else but being resolved, and the ceiling was far off. -/
theorem Machine.place_of_full_stack :
    ∃ raised m', answer (.ladder 1200) { maxDepth := 100000 } {} (.subject ⟨"Deep", "type_alias", .rung 1199⟩) =
        some (.error raised, m') ∧
      raised.failure = ⟨.depthExceeded 241, ⟨some "Deep", List.replicate 240 "child"⟩⟩ ∧
      ∀ k, (Graph.ladder 1200).Trail { maxDepth := 100000 } (.rung 1199) raised.failure.place.path k →
        ¬(Graph.ladder 1200).Unrepresentable k ∧ raised.origin.stage? k.id = some .resolving := by
  obtain ⟨raised, m', hrun, hfailure, horigin⟩ := @resolve_rung 1200 240 1199
    (ResolverSettings.levels { maxDepth := 100000 }) { maxDepth := 100000 }
    (({} : Machine).top ⟨"Deep", "type_alias", .rung 1199⟩) (by decide) rfl (by decide) (by decide) (by decide)
    fun _ _ => rfl
  have hfailure : raised.failure = ⟨.depthExceeded 241, ⟨some "Deep", List.replicate 240 "child"⟩⟩ := by
    rw [hfailure]
    exact congrArg (fun path => Failure.mk (.depthExceeded 241) ⟨some "Deep", path⟩) (List.nil_append _)
  have hanswer := @answer_subject _ _ _ _ ⟨"Deep", "type_alias", .rung 1199⟩ _ hrun
  refine ⟨raised, { m' with declaration := none }, hanswer, hfailure, fun k hk => ?_⟩
  rw [hfailure] at hk
  have hreaches := hk.reaches
  obtain ⟨j, hj, rfl⟩ := hk.of_rung (by decide)
  obtain rfl : j = 1199 - 240 := by
    rw [List.length_replicate] at hj
    omega
  refine ⟨Graph.not_unrepresentable_ladder _ (by decide) _ hreaches, ?_⟩
  rw [Graph.id_rung]
  exact horigin

end TypeSchema
