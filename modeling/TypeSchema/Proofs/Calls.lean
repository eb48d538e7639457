import TypeSchema.Proofs.Requests

/-!
# Calls of the machine

A resolution is a tree of calls: a call that enters its node asks for what the plan of the node
follows. `Visit` says once what a call can come to, `Spares` what it leaves as it was, and
`Call.Asks` on which machine the calls below it are made. What holds of all calls below a call is
an induction over `Call.Below` and never unfolds the machine.
-/

namespace TypeSchema

namespace Machine

/-! ### What a call can come to -/

/-- One case for each way out of a call. -/
inductive Visit (g : Graph) (settings : ResolverSettings) :
    Nat → Node → Machine → Except Raised Schema → Machine → Prop
  | cached {calls n m schema} : m.stage? n.id = some .resolved → m.cached? n.id = some schema →
    Visit g settings calls n m (.ok schema) m
  | lost {calls n m words} : m.stage? n.id = some .resolved → m.cached? n.id = none →
    Visit g settings calls n m (.error ⟨⟨.unresolved words, m.place⟩, m⟩) m
  | cut {calls n m} : m.stage? n.id = some .resolving →
    Visit g settings calls n m (.ok (Resolve.cutSchema settings n (m.name? n.id))) (m.cut settings n).2
  | deep {calls n m} : m.stage? n.id = none → settings.maxDepth ≤ m.depth →
    Visit g settings calls n m (.error ⟨⟨.depthExceeded settings.maxDepth, m.place⟩, m⟩) m
  | full {calls n m} : m.stage? n.id = none → m.depth < settings.maxDepth → settings.stackRoom ≤ m.depth →
    Visit g settings calls n m (.error ⟨⟨.depthExceeded (m.enter n.id).depth, m.place⟩, m.enter n.id⟩)
      ((m.enter n.id).abandon n.id)
  | fault {calls n m cause} : m.stage? n.id = none → m.depth < settings.levels →
    g.plan settings n = .error cause →
    Visit g settings (calls + 1) n m (.error ⟨⟨cause, m.place⟩, m.enter n.id⟩) ((m.enter n.id).abandon n.id)
  | failed {calls n m p raised m₁} : m.stage? n.id = none → m.depth < settings.levels →
    g.plan settings n = .ok p →
    along (resolve g settings calls) p.edges (m.enter n.id) = some (.error raised, m₁) →
    Visit g settings (calls + 1) n m (.error raised) (m₁.abandon n.id)
  | done {calls n m p schemas m₁} : m.stage? n.id = none → m.depth < settings.levels →
    g.plan settings n = .ok p →
    along (resolve g settings calls) p.edges (m.enter n.id) = some (.ok schemas, m₁) →
    Visit g settings (calls + 1) n m (.ok (p.assemble schemas)) (m₁.finish n.id (p.assemble schemas))

variable {g : Graph} {settings : ResolverSettings} {calls : Nat} {n : Node} {m m' : Machine}

theorem visit_of_resolve {r : Except Raised Schema} (h : resolve g settings calls n m = some (r, m')) :
    Visit g settings calls n m r m' := by
  rw [resolve.eq_def] at h
  split at h
  · next hstage hcached =>
    cases h
    exact .cached hstage hcached
  · next hstage hcached =>
    cases h
    exact .lost hstage hcached
  · next hstage =>
    cases h
    exact .cut hstage
  · next hstage =>
    split at h
    · next hdepth =>
      cases h
      exact .deep hstage hdepth
    next hceiling =>
    split at h
    · next hroom =>
      cases h
      exact .full hstage (Nat.lt_of_not_le hceiling) hroom
    next hroom =>
    have hdepth : m.depth < settings.levels :=
      Nat.lt_min.2 ⟨Nat.lt_of_not_le hceiling, Nat.lt_of_not_le hroom⟩
    split at h
    · cases h
    next calls =>
    split at h
    · next hplan =>
      cases h
      exact .fault hstage hdepth hplan
    · next p hplan =>
      rcases halong : along (resolve g settings calls) p.edges (m.enter n.id) with _ | ⟨result, m₁⟩
      · rw [halong] at h
        cases h
      rw [halong] at h
      cases result with
      | error raised =>
        cases h
        exact .failed hstage hdepth hplan halong
      | ok schemas =>
        cases h
        exact .done hstage hdepth hplan halong

/-! ### What a run leaves as it was -/

/-- No id has two stages, and what is resolved has a schema. -/
structure Tidy (m : Machine) : Prop where
  nodup : m.stages.keys.Nodup
  isSome_cached? : ∀ id, m.stage? id = some .resolved → (m.cached? id).isSome

/-- The machine stands where it stood, the names are the same, what was being resolved still is, and
what was resolved has the schema that it had. -/
structure Spares (m m' : Machine) : Prop where
  restored : m.Restored m'
  names : m'.names = m.names
  resolving_iff : ∀ id, m'.stage? id = some .resolving ↔ m.stage? id = some .resolving
  resolved : ∀ id, m.stage? id = some .resolved →
    m'.stage? id = some .resolved ∧ m'.cached? id = m.cached? id
  tidy : m.Tidy → m'.Tidy

theorem stage?_finish (id other : Int) (schema : Schema) (m : Machine) :
    (m.finish id schema).stage? other = if other = id then some .resolved else m.stage? other :=
  Table.get?_put ..

theorem cached?_finish (id other : Int) (schema : Schema) (m : Machine) :
    (m.finish id schema).cached? other = if other = id then some schema else m.cached? other :=
  Table.get?_put ..

namespace Tidy

variable {id : Int}

theorem enter (h : m.Tidy) (id : Int) : (m.enter id).Tidy := by
  refine ⟨Table.nodup_keys_put _ h.nodup, fun other hother => ?_⟩
  rw [stage?_enter] at hother
  split at hother
  · cases hother
  · exact h.isSome_cached? other hother

theorem finish (h : m.Tidy) (id : Int) (schema : Schema) : (m.finish id schema).Tidy := by
  refine ⟨Table.nodup_keys_put _ h.nodup, fun other hother => ?_⟩
  rw [stage?_finish] at hother
  rw [cached?_finish]
  split at hother
  · next ho => rw [if_pos ho]; rfl
  · next ho => rw [if_neg ho]; exact h.isSome_cached? other hother

theorem abandon (h : m.Tidy) (id : Int) : (m.abandon id).Tidy := by
  refine ⟨List.Nodup.sublist (List.filter_sublist.map _) h.nodup, fun other hother => ?_⟩
  rw [stage?_abandon] at hother
  split at hother
  · cases hother
  · exact h.isSome_cached? other hother

theorem push (h : m.Tidy) (label : Option String) : (m.push label).Tidy := ⟨h.nodup, h.isSome_cached?⟩

theorem pop (h : m.Tidy) (label : Option String) : (m.pop label).Tidy := by
  cases label <;> exact ⟨h.nodup, h.isSome_cached?⟩

end Tidy

namespace Spares

theorem refl (m : Machine) : m.Spares m := ⟨.refl m, rfl, fun _ => .rfl, fun _ h => ⟨h, rfl⟩, id⟩

theorem trans {m'' : Machine} (h : m.Spares m') (h' : m'.Spares m'') : m.Spares m'' where
  restored := h.restored.trans h'.restored
  names := h'.names.trans h.names
  resolving_iff id := (h'.resolving_iff id).trans (h.resolving_iff id)
  resolved id hid :=
    ⟨(h'.resolved id (h.resolved id hid).1).1,
      (h'.resolved id (h.resolved id hid).1).2.trans (h.resolved id hid).2⟩
  tidy hm := h'.tidy (h.tidy hm)

theorem pop {label : Option String} (h : (m.push label).Spares m') : m.Spares (m'.pop label) where
  restored := h.restored.pop
  names := by cases label <;> exact h.names
  resolving_iff id := by rw [stage?_pop]; exact h.resolving_iff id
  resolved id hid := by cases label <;> exact h.resolved id hid
  tidy hm := (h.tidy (hm.push label)).pop label

theorem cut (settings : ResolverSettings) (n : Node) (m : Machine) : m.Spares (m.cut settings n).2 :=
  ⟨⟨rfl, rfl, rfl⟩, rfl, fun _ => .rfl, fun _ h => ⟨h, rfl⟩, fun h => ⟨h.nodup, h.isSome_cached?⟩⟩

section Entered

variable {id other : Int} (h : (m.enter id).Spares m') (hid : m.stage? id = none)
include h

theorem resolving_iff_of_ne (ho : other ≠ id) :
    m'.stage? other = some .resolving ↔ m.stage? other = some .resolving := by
  rw [h.resolving_iff, stage?_enter, if_neg ho]

include hid

/-- What was resolved before the node was entered is another node, and keeps its schema. -/
theorem resolved_of_entered (hother : m.stage? other = some .resolved) :
    other ≠ id ∧ m'.stage? other = some .resolved ∧ m'.cached? other = m.cached? other := by
  have ho : other ≠ id := fun ho => by rw [ho, hid] at hother; cases hother
  exact ⟨ho, h.resolved other (by rw [stage?_enter, if_neg ho]; exact hother)⟩

theorem finish (schema : Schema) : m.Spares (m'.finish id schema) where
  restored := h.restored.finish schema
  names := h.names
  resolving_iff other := by
    rw [stage?_finish]
    split
    · next ho => simp [ho, hid]
    · next ho => exact h.resolving_iff_of_ne ho
  resolved other hother := by
    obtain ⟨ho, hspared⟩ := h.resolved_of_entered hid hother
    rw [stage?_finish, cached?_finish, if_neg ho, if_neg ho]
    exact hspared
  tidy hm := (h.tidy (hm.enter id)).finish id schema

theorem abandon : m.Spares (m'.abandon id) where
  restored := h.restored.abandon
  names := h.names
  resolving_iff other := by
    rw [stage?_abandon]
    split
    · next ho => simp [ho, hid]
    · next ho => exact h.resolving_iff_of_ne ho
  resolved other hother := by
    obtain ⟨ho, hspared⟩ := h.resolved_of_entered hid hother
    rw [stage?_abandon, if_neg ho]
    exact hspared
  tidy hm := (h.tidy (hm.enter id)).abandon id

end Entered

end Spares

theorem spares_along {visit : Node → Machine → Option (Except Raised Schema × Machine)}
    (hvisit : ∀ n m r m', visit n m = some (r, m') → m.Spares m') {es : List Edge}
    {r : Except Raised (List Schema)} (h : along visit es m = some (r, m')) : m.Spares m' := by
  induction es generalizing m r m' with
  | nil =>
    cases h
    exact .refl m
  | cons e es ih =>
    obtain ⟨⟨result, m₁⟩, hfirst, h⟩ := Option.bind_eq_some_iff.1 h
    have hspares := (hvisit _ _ _ _ hfirst).pop
    cases result with
    | error raised =>
      cases h
      exact hspares
    | ok schema =>
      obtain ⟨⟨rest, m₂⟩, hrest, h⟩ := Option.bind_eq_some_iff.1 h
      cases h
      exact hspares.trans (ih hrest)

theorem spares_resolve {r : Except Raised Schema} (h : resolve g settings calls n m = some (r, m')) :
    m.Spares m' := by
  induction calls generalizing n m r m' with
  | zero =>
    cases visit_of_resolve h with
    | cached | lost | deep => exact .refl m
    | cut => exact .cut settings n m
    | full hstage => exact Spares.abandon (.refl _) hstage
  | succ calls ih =>
    cases visit_of_resolve h with
    | cached | lost | deep => exact .refl m
    | cut => exact .cut settings n m
    | full hstage | fault hstage => exact Spares.abandon (.refl _) hstage
    | failed hstage _ _ halong => exact (spares_along (fun _ _ _ _ => ih) halong).abandon hstage
    | done hstage _ _ halong => exact (spares_along (fun _ _ _ _ => ih) halong).finish hstage _

/-! ### The calls below a call -/

/-- A node that is asked for on a machine, with so many nested calls left. -/
structure Call where
  calls : Nat
  node : Node
  machine : Machine

/-- In following the edges one after the other, this one is come to on this machine. -/
inductive Along (visit : Node → Machine → Option (Except Raised Schema × Machine)) :
    List Edge → Machine → Edge → Machine → Prop
  | here {e es m} : Along visit (e :: es) m e m
  | later {e es m schema m₁ e' m'} : visit e.target (m.push e.label) = some (.ok schema, m₁) →
    Along visit es (m₁.pop e.label) e' m' → Along visit (e :: es) m e' m'

namespace Along

variable {visit : Node → Machine → Option (Except Raised Schema × Machine)} {es : List Edge} {e : Edge}

theorem mem (h : Along visit es m e m') : e ∈ es := by
  induction h with
  | here => exact List.mem_cons_self ..
  | later _ _ ih => exact List.mem_cons_of_mem _ ih

theorem spares (hvisit : ∀ n m r m', visit n m = some (r, m') → m.Spares m') (h : Along visit es m e m') :
    m.Spares m' := by
  induction h with
  | here => exact .refl _
  | later hfirst _ ih => exact (hvisit _ _ _ _ hfirst).pop.trans ih

end Along

/-- The first edge that fails makes them all fail. -/
theorem exists_along_of_error {visit : Node → Machine → Option (Except Raised Schema × Machine)}
    {es : List Edge} {raised : Raised} (h : along visit es m = some (.error raised, m')) :
    ∃ e m₁ m₂, Along visit es m e m₁ ∧ visit e.target (m₁.push e.label) = some (.error raised, m₂) := by
  induction es generalizing m with
  | nil => cases h
  | cons e es ih =>
    obtain ⟨⟨result, m₁⟩, hfirst, h⟩ := Option.bind_eq_some_iff.1 h
    cases result with
    | error raised' =>
      cases h
      exact ⟨e, m, m₁, .here, hfirst⟩
    | ok schema =>
      obtain ⟨⟨rest, m₂⟩, hrest, h⟩ := Option.bind_eq_some_iff.1 h
      have hrest : along visit es (m₁.pop e.label) = some (.error raised, m') := by
        rw [hrest]
        cases rest <;> cases h
        rfl
      obtain ⟨e', m₂, m₃, halong, hfails⟩ := ih hrest
      exact ⟨e', m₂, m₃, .later hfirst halong, hfails⟩

/-- Where none fails, every edge returns its schema. -/
theorem forall₂_of_along {visit : Node → Machine → Option (Except Raised Schema × Machine)}
    {es : List Edge} {schemas : List Schema} (h : along visit es m = some (.ok schemas, m')) :
    List.Forall₂ (fun e schema => ∃ m₁ m₂, Along visit es m e m₁ ∧
      visit e.target (m₁.push e.label) = some (.ok schema, m₂)) es schemas := by
  induction es generalizing m schemas with
  | nil =>
    cases h
    exact .nil
  | cons e es ih =>
    obtain ⟨⟨result, m₁⟩, hfirst, h⟩ := Option.bind_eq_some_iff.1 h
    cases result with
    | error raised => cases h
    | ok schema =>
      obtain ⟨⟨rest, m₂⟩, hrest, h⟩ := Option.bind_eq_some_iff.1 h
      cases rest with
      | error raised => cases h
      | ok rest =>
        cases h
        refine .cons ⟨m, m₁, .here, hfirst⟩ ((ih hrest).imp ?_)
        rintro e' schema' ⟨m₃, m₄, halong, hreturns⟩
        exact ⟨m₃, m₄, .later hfirst halong, hreturns⟩

namespace Call

/-- The first call enters its node and asks for what an edge of its plan leads to. -/
inductive Asks (g : Graph) (settings : ResolverSettings) : Call → Call → Prop
  | intro {calls n m p e m₁} : m.stage? n.id = none → m.depth < settings.levels → g.plan settings n = .ok p →
    Along (resolve g settings calls) p.edges (m.enter n.id) e m₁ →
    Asks g settings ⟨calls + 1, n, m⟩ ⟨calls, e.target, m₁.push e.label⟩

/-- The second call is made in the course of the first, or is the first. -/
def Below (g : Graph) (settings : ResolverSettings) : Call → Call → Prop :=
  Relation.ReflTransGen (Asks g settings)

def answer (g : Graph) (settings : ResolverSettings) (c : Call) : Option (Except Raised Schema × Machine) :=
  resolve g settings c.calls c.node c.machine

/-- The call fails by itself: its node was not to be entered, or had no room on the stack, or has no plan. -/
inductive Raises (g : Graph) (settings : ResolverSettings) (c : Call) : Raised → Prop
  | lost {words} : c.machine.stage? c.node.id = some .resolved → c.machine.cached? c.node.id = none →
    Raises g settings c ⟨⟨.unresolved words, c.machine.place⟩, c.machine⟩
  | deep : c.machine.stage? c.node.id = none → settings.maxDepth ≤ c.machine.depth →
    Raises g settings c ⟨⟨.depthExceeded settings.maxDepth, c.machine.place⟩, c.machine⟩
  | full : c.machine.stage? c.node.id = none → c.machine.depth < settings.maxDepth →
    settings.stackRoom ≤ c.machine.depth → Raises g settings c
      ⟨⟨.depthExceeded (c.machine.enter c.node.id).depth, c.machine.place⟩, c.machine.enter c.node.id⟩
  | fault {cause} : c.machine.stage? c.node.id = none → c.machine.depth < settings.levels →
    g.plan settings c.node = .error cause →
    Raises g settings c ⟨⟨cause, c.machine.place⟩, c.machine.enter c.node.id⟩

variable {c c' : Call}

/-- A call fails by a call that fails by itself. -/
theorem exists_raises {raised : Raised} (h : resolve g settings calls n m = some (.error raised, m')) :
    ∃ c, Below g settings ⟨calls, n, m⟩ c ∧ c.Raises g settings raised := by
  induction calls generalizing n m m' with
  | zero =>
    cases visit_of_resolve h with
    | lost hstage hcached => exact ⟨_, .refl, .lost hstage hcached⟩
    | deep hstage hdepth => exact ⟨_, .refl, .deep hstage hdepth⟩
    | full hstage hdepth hroom => exact ⟨_, .refl, .full hstage hdepth hroom⟩
  | succ calls ih =>
    cases visit_of_resolve h with
    | lost hstage hcached => exact ⟨_, .refl, .lost hstage hcached⟩
    | deep hstage hdepth => exact ⟨_, .refl, .deep hstage hdepth⟩
    | full hstage hdepth hroom => exact ⟨_, .refl, .full hstage hdepth hroom⟩
    | fault hstage hdepth hplan => exact ⟨_, .refl, .fault hstage hdepth hplan⟩
    | failed hstage hdepth hplan halong =>
      obtain ⟨e, m₁, m₂, hedge, hfails⟩ := exists_along_of_error halong
      obtain ⟨c, hbelow, hraises⟩ := ih hfails
      exact ⟨c, .head (.intro hstage hdepth hplan hedge) hbelow, hraises⟩

/-! ### What holds of the calls below -/

theorem Asks.follows (h : Asks g settings c c') : g.Follows settings c.node c'.node := by
  cases h with
  | intro _ _ hplan hedge => exact Graph.follows_of_mem_edges hplan _ hedge.mem

theorem Asks.mem_nodes (h : Asks g settings c c') : c'.node ∈ g.nodes := h.follows.mem_nodes

theorem Below.mem_nodes (h : Below g settings c c') (hc : c.node ∈ g.nodes) : c'.node ∈ g.nodes := by
  cases h with
  | refl => exact hc
  | tail _ hasks => exact hasks.mem_nodes

theorem Asks.tidy (h : Asks g settings c c') (hc : c.machine.Tidy) : c'.machine.Tidy := by
  cases h with
  | intro _ _ _ hedge => exact ((hedge.spares fun _ _ _ _ => spares_resolve).tidy (hc.enter _)).push _

theorem Below.tidy (h : Below g settings c c') (hc : c.machine.Tidy) : c'.machine.Tidy := by
  induction h with
  | refl => exact hc
  | tail _ hasks ih => exact hasks.tidy ih

theorem Asks.depth_eq (h : Asks g settings c c') :
    c'.machine.depth = c.machine.depth + 1 ∧ c.machine.depth < settings.levels := by
  cases h with
  | intro _ hdepth _ hedge => exact ⟨(hedge.spares fun _ _ _ _ => spares_resolve).restored.depth, hdepth⟩

theorem Below.depth_le (h : Below g settings c c') (hc : c.machine.depth ≤ settings.maxDepth) :
    c'.machine.depth ≤ settings.maxDepth := by
  cases h with
  | refl => exact hc
  | tail _ hasks =>
    obtain ⟨hdepth, hlt⟩ := hasks.depth_eq
    rw [ResolverSettings.levels] at hlt
    omega

theorem Asks.resolving_iff (h : Asks g settings c c') (id : Int) :
    c'.machine.stage? id = some .resolving ↔ id = c.node.id ∨ c.machine.stage? id = some .resolving := by
  cases h with
  | @intro calls n m p e m₁ _ _ _ hedge =>
    show m₁.stage? id = some .resolving ↔ id = n.id ∨ m.stage? id = some .resolving
    rw [(hedge.spares fun _ _ _ _ => spares_resolve).resolving_iff, stage?_enter]
    split
    · next hid => simp [hid]
    · next hid => simp [hid]

/-- What is being resolved below a call was so before, or was entered on the way. -/
theorem Below.resolving_or (h : Below g settings c c') {id : Int}
    (hid : c'.machine.stage? id = some .resolving) :
    c.machine.stage? id = some .resolving ∨
      ∃ c₁ c₂, Below g settings c c₁ ∧ Asks g settings c₁ c₂ ∧ c₁.node.id = id := by
  induction h with
  | refl => exact .inl hid
  | tail hbelow hasks ih =>
    rcases (hasks.resolving_iff id).1 hid with rfl | hid
    · exact .inr ⟨_, _, hbelow, hasks, rfl⟩
    · exact ih hid

end Call

/-! ### Between requests -/

theorem tidy_empty : ({} : Machine).Tidy := ⟨List.nodup_nil, fun _ => nofun⟩

theorem Tidy.declare (h : m.Tidy) (subject : Subject) : (m.declare subject).Tidy := by
  unfold Machine.declare
  split <;> exact ⟨h.nodup, h.isSome_cached?⟩

theorem Tidy.declareAll (h : m.Tidy) (subjects : List Subject) :
    (subjects.foldl (fun m subject => m.declare subject) m).Tidy := by
  induction subjects generalizing m with
  | nil => exact h
  | cons subject rest ih => exact ih (h.declare subject)

/-- Where the resolution of a declaration starts. -/
def top (subject : Subject) (m : Machine) : Machine :=
  { m.declare subject with declaration := some subject.name, path := [], depth := 0 }

theorem answer_node {r : Except Raised Schema} (h : resolve g settings settings.levels n m = some (r, m')) :
    m.answer g settings (.node n) = some (r.map .schema, m') :=
  congrArg (Option.bind · _) h

theorem answer_subject {D : Subject} {r : Except Raised Schema}
    (h : resolve g settings settings.levels D.node (m.top D) = some (r, m')) :
    m.answer g settings (.subject D) = some (r.map .schema, { m' with declaration := none }) :=
  congrArg (Option.bind · _) h

theorem stage?_top (subject : Subject) (m : Machine) (id : Int) : (m.top subject).stage? id = m.stage? id := by
  show (m.declare subject).stage? id = m.stage? id
  unfold declare
  split <;> rfl

theorem Tidy.top (h : m.Tidy) (subject : Subject) : (m.top subject).Tidy :=
  ⟨(h.declare subject).nodup, (h.declare subject).isSome_cached?⟩

theorem tidy_answer (h : m.Tidy) {q : Request} {r : Except Raised Reply}
    (hanswer : m.answer g settings q = some (r, m')) : m'.Tidy := by
  cases q with
  | node n =>
    obtain ⟨⟨result, m₁⟩, hrun, hanswer⟩ := Option.bind_eq_some_iff.1 hanswer
    cases hanswer
    exact (spares_resolve hrun).tidy h
  | shape n =>
    unfold answer at hanswer
    dsimp only at hanswer
    split at hanswer <;> cases hanswer <;> exact h
  | declare subjects =>
    cases hanswer
    exact h.declareAll subjects
  | subject D =>
    obtain ⟨⟨result, m₁⟩, hrun, hanswer⟩ := Option.bind_eq_some_iff.1 hanswer
    cases hanswer
    have hspares : (m.top D).Spares m₁ := spares_resolve hrun
    have htidy := hspares.tidy (h.top D)
    exact ⟨htidy.nodup, htidy.isSome_cached?⟩

theorem tidy_after (h : m.Tidy) {requests : List Request} (hafter : after g settings requests m = some m') :
    m'.Tidy := by
  induction requests generalizing m with
  | nil =>
    cases hafter
    exact h
  | cons q rest ih =>
    obtain ⟨m₁, hfirst, hafter⟩ := Option.bind_eq_some_iff.1 hafter
    obtain ⟨⟨r, m₂⟩, hanswer, rfl⟩ := Option.map_eq_some_iff.1 hfirst
    exact ih (tidy_answer h hanswer) hafter

end Machine

end TypeSchema
