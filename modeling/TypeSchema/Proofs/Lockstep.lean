import TypeSchema.Proofs.Breaches
import TypeSchema.Proofs.KeyOrder

/-!
# Passes in lockstep

Two graphs mirror each other if every node of the one has a counterpart in the other, with an id of
its own, the same text and a plan that follows the counterparts of what its own plan follows. The
machines of two passes over them are at the same place, and differ in nothing but the ids and the
schemas that they keep, so that the passes end alike, also where they fail or break:
`Strict.mirrored_pass`.
-/

namespace TypeSchema

/-- The subject with another node of the same declaration. -/
def Subject.mapNode (f : Node → Node) (s : Subject) : Subject := { s with node := f s.node }

def Edge.mapNode (f : Node → Node) (e : Edge) : Edge := { e with target := f e.target }

/-- Both return, with related values, or both end in the same error. -/
inductive SameEnd {ε α β : Type} (R : α → β → Prop) : Except ε α → Except ε β → Prop where
  | ok {a b} : R a b → SameEnd R (.ok a) (.ok b)
  | error (e) : SameEnd R (.error e) (.error e)

theorem SameEnd.mono {ε α β : Type} {R S : α → β → Prop} (himp : ∀ a b, R a b → S a b) {x : Except ε α}
    {y : Except ε β} (h : SameEnd R x y) : SameEnd S x y := by
  cases h with
  | ok hab => exact .ok (himp _ _ hab)
  | error e => exact .error e

/-- The plan follows the counterparts by the same steps, and makes related schemas of related ones. -/
structure Plan.Alike (R : Schema → Schema → Prop) (f : Node → Node) (p p' : Plan) : Prop where
  edges : p'.edges = p.edges.map (Edge.mapNode f)
  assemble : ∀ {schemas schemas' : List Schema}, schemas.length = p.edges.length →
    List.Forall₂ R schemas schemas' → R (p.assemble schemas) (p'.assemble schemas')

/-- The outcomes are of one declaration, with the same failure or with related schemas. -/
structure Outcome.Alike (R : Schema → Schema → Prop) (o o' : Outcome) : Prop where
  name : o'.name = o.name
  kind : o'.kind = o.kind
  result : SameEnd R o.result o'.result

/-- The outcomes are of one declaration, with the same failure or with similar schemas. -/
structure Outcome.Similar (o o' : Outcome) : Prop where
  name : o'.name = o.name
  kind : o'.kind = o.kind
  result : SameEnd Schema.Similar o.result o'.result

/-- Every node of `g` has a counterpart in `g'` that is told by the same text. -/
structure Mirrors (R : Schema → Schema → Prop) (ρ : Int → Int) (g g' : Graph) (settings : ResolverSettings)
    (f : Node → Node) : Prop where
  refl : ∀ schema, R schema schema
  injective : ∀ id ∈ g.ids, ∀ id' ∈ g.ids, ρ id = ρ id' → id = id'
  id : ∀ n ∈ g.nodes, (f n).id = ρ n.id
  text : ∀ n ∈ g.nodes, (f n).displayText = n.displayText
  checkText : ∀ n ∈ g.nodes, Strict.checkText (f n) = Strict.checkText n
  plan : ∀ n ∈ g.nodes,
    SameEnd (Plan.Alike R f) (Strict.plan g settings n) (Strict.plan g' settings (f n))

/-! ### Machines -/

namespace Machine

/-- The machines are at the same place, and keep the same stages and names and related schemas for
counterparts. What is resolved has a schema. -/
structure Alike (R : Schema → Schema → Prop) (ρ : Int → Int) (ids : List Int) (m m' : Machine) : Prop where
  stage?_eq : ∀ id ∈ ids, m'.stage? (ρ id) = m.stage? id
  name?_eq : ∀ id ∈ ids, m'.name? (ρ id) = m.name? id
  cached : ∀ id ∈ ids, Option.Rel R (m.cached? id) (m'.cached? (ρ id))
  isSome_cached? : ∀ id ∈ ids, m.stage? id = some .resolved → (m.cached? id).isSome
  declaration_eq : m'.declaration = m.declaration
  path_eq : m'.path = m.path
  depth_eq : m'.depth = m.depth
  log_eq : m'.log = m.log

namespace Alike

variable {R : Schema → Schema → Prop} {ρ : Int → Int} {ids : List Int} {m m' : Machine} {id other : Int}

theorem empty : Alike R ρ ids {} {} :=
  ⟨fun _ _ => rfl, fun _ _ => rfl, fun _ _ => .none, fun _ _ => nofun, rfl, rfl, rfl, rfl⟩

theorem place_eq (h : Alike R ρ ids m m') : m'.place = m.place := by
  rw [place, place, h.declaration_eq, h.path_eq]

theorem log (h : Alike R ρ ids m m') (event : Event) :
    Alike R ρ ids { m with log := m.log ++ [event] } { m' with log := m'.log ++ [event] } :=
  { h with log_eq := by rw [h.log_eq] }

theorem push (h : Alike R ρ ids m m') (label : Option String) : Alike R ρ ids (m.push label) (m'.push label) :=
  { h with path_eq := congrArg (· ++ label.toList) h.path_eq }

theorem pop (h : Alike R ρ ids m m') (label : Option String) : Alike R ρ ids (m.pop label) (m'.pop label) := by
  cases label with
  | none => exact h
  | some label => exact { h with path_eq := congrArg List.dropLast h.path_eq }

/-- Where a pass turns to another declaration. -/
theorem turn (h : Alike R ρ ids m m') (declaration : Option String) :
    Alike R ρ ids { m with declaration, path := [], depth := 0 } { m' with declaration, path := [], depth := 0 } :=
  { h with declaration_eq := rfl, path_eq := rfl, depth_eq := rfl }

theorem leave (h : Alike R ρ ids m m') :
    Alike R ρ ids { m with declaration := none } { m' with declaration := none } :=
  { h with declaration_eq := rfl }

section Written

variable (hρ : ∀ id ∈ ids, ∀ id' ∈ ids, ρ id = ρ id' → id = id') (hid : id ∈ ids)
include hρ hid


theorem counterpart_eq_iff (hother : other ∈ ids) : ρ other = ρ id ↔ other = id :=
  ⟨hρ other hother id hid, congrArg ρ⟩

theorem enter (h : Alike R ρ ids m m') : Alike R ρ ids (m.enter id) (m'.enter (ρ id)) := by
  refine { h with stage?_eq := fun other hother => ?_, isSome_cached? := fun other hother hstage => ?_, depth_eq := ?_ }
  · rw [stage?_enter, stage?_enter, h.stage?_eq other hother]
    simp only [counterpart_eq_iff hρ hid hother]
  · rw [stage?_enter] at hstage
    split at hstage
    · cases hstage
    · exact h.isSome_cached? other hother hstage
  · exact congrArg (· + 1) h.depth_eq

theorem finish (h : Alike R ρ ids m m') {schema schema' : Schema} (hs : R schema schema') :
    Alike R ρ ids (m.finish id schema) (m'.finish (ρ id) schema') := by
  refine { h with
    stage?_eq := fun other hother => ?_
    cached := fun other hother => ?_
    isSome_cached? := fun other hother hstage => ?_
    depth_eq := congrArg (· - 1) h.depth_eq }
  · show Table.get? _ (m'.stages.put _ _) = Table.get? _ (m.stages.put _ _)
    rw [Table.get?_put, Table.get?_put, ← stage?, ← stage?, h.stage?_eq other hother]
    simp only [counterpart_eq_iff hρ hid hother]
  · show Option.Rel R (Table.get? _ (m.cache.put _ _)) (Table.get? _ (m'.cache.put _ _))
    rw [Table.get?_put, Table.get?_put]
    simp only [counterpart_eq_iff hρ hid hother]
    split
    · exact .some hs
    · exact h.cached other hother
  · change Table.get? _ (m.stages.put _ _) = _ at hstage
    show (Table.get? _ (m.cache.put _ _)).isSome
    rw [Table.get?_put] at hstage ⊢
    split
    · rfl
    · next hne =>
      rw [if_neg hne] at hstage
      exact h.isSome_cached? other hother hstage

theorem abandon (h : Alike R ρ ids m m') : Alike R ρ ids (m.abandon id) (m'.abandon (ρ id)) := by
  refine { h with
    stage?_eq := fun other hother => ?_
    isSome_cached? := fun other hother hstage => ?_
    depth_eq := congrArg (· - 1) h.depth_eq }
  · rw [stage?_abandon, stage?_abandon, h.stage?_eq other hother]
    simp only [counterpart_eq_iff hρ hid hother]
  · rw [stage?_abandon] at hstage
    split at hstage
    · cases hstage
    · exact h.isSome_cached? other hother hstage

theorem name (h : Alike R ρ ids m m') (name : String) :
    Alike R ρ ids { m with names := m.names.put id name } { m' with names := m'.names.put (ρ id) name } := by
  refine { h with name?_eq := fun other hother => ?_ }
  show Table.get? _ (m'.names.put _ _) = Table.get? _ (m.names.put _ _)
  rw [Table.get?_put, Table.get?_put, ← name?, ← name?, h.name?_eq other hother]
  simp only [counterpart_eq_iff hρ hid hother]

end Written

end Alike

end Machine

namespace Strict

/-- The same end, on machines that are alike. -/
structure Lockstep {α : Type} (R : Schema → Schema → Prop) (ρ : Int → Int) (ids : List Int) (S : α → α → Prop)
    (x x' : Except Stop α × Machine) : Prop where
  ends : SameEnd S x.1 x'.1
  machine : Machine.Alike R ρ ids x.2 x'.2

variable {R : Schema → Schema → Prop} {ρ : Int → Int} {g g' : Graph} {settings : ResolverSettings}
  {f : Node → Node} {n : Node} {m m' : Machine}

/-- What the plan of a node of a closed graph follows lies in the graph. -/
theorem mem_nodes_of_mem_edges (hg : g.Closed) (hn : n ∈ g.nodes) {p : Plan} (hp : plan g settings n = .ok p) :
    ∀ e ∈ p.edges, e.target ∈ g.nodes := by
  rcases tells_plan hg hn settings with h | ⟨i, -, h⟩
  · rw [h] at hp
    cases hplan : g.plan settings n with
    | error cause =>
      rw [hplan] at hp
      cases hp
    | ok p' =>
      rw [hplan] at hp
      cases hp
      exact Graph.mem_nodes_of_mem_edges hplan
  · rw [h] at hp
    cases hp

/-! ### A resolution step by step -/

section Entered

variable {room : Nat} {p : Plan} {m₁ : Machine} (hstage : m.stage? n.id = none)
include hstage

theorem resolve_of_deep (hdeep : settings.maxDepth ≤ m.depth) :
    resolve g settings room n m = tooDeep settings m := by
  rw [resolve.eq_def, hstage]
  exact if_pos hdeep

variable (hdepth : m.depth < settings.maxDepth)
include hdepth

theorem resolve_of_no_room :
    resolve g settings 0 n m =
      (.error (.failed ⟨.depthExceeded (m.depth + 1), m.place⟩), (m.enter n.id).abandon n.id) := by
  rw [resolve, hstage]
  exact (if_neg (Nat.not_le.2 hdepth)).trans (giveUp_eq (.refl _) _)

theorem resolve_of_obstacle {obstacle : Obstacle} (hplan : plan g settings n = .error obstacle) :
    resolve g settings (room + 1) n m = (.error (obstacle.stop m.place), (m.enter n.id).abandon n.id) := by
  rw [resolve, hstage]
  refine (if_neg (Nat.not_le.2 hdepth)).trans ?_
  rw [hplan]
  exact giveUp_eq (.refl _) _

variable (hplan : plan g settings n = .ok p)
include hplan

theorem resolve_of_along_error {stop : Stop}
    (halong : along (resolve g settings room) p.edges (m.enter n.id) = (.error stop, m₁)) :
    resolve g settings (room + 1) n m = (.error stop, m₁.abandon n.id) := by
  have hkept := kept_along (kept_resolve g settings room) p.edges (m.enter n.id)
  rw [halong] at hkept
  rw [resolve, hstage]
  refine (if_neg (Nat.not_le.2 hdepth)).trans ?_
  simp only [hplan, halong]
  exact giveUp_eq hkept stop

theorem resolve_of_along_ok {schemas : List Schema}
    (halong : along (resolve g settings room) p.edges (m.enter n.id) = (.ok schemas, m₁)) :
    resolve g settings (room + 1) n m = (.ok (p.assemble schemas), m₁.finish n.id (p.assemble schemas)) := by
  rw [resolve, hstage]
  refine (if_neg (Nat.not_le.2 hdepth)).trans ?_
  simp only [hplan, halong]

end Entered

/-! ### Resolutions -/

section Mirrors

variable (h : Mirrors R ρ g g' settings f)
include h

theorem stage?_counterpart (hn : n ∈ g.nodes) (hm : Machine.Alike R ρ g.ids m m') :
    m'.stage? (f n).id = m.stage? n.id := by
  rw [h.id n hn, hm.stage?_eq _ (Graph.id_mem_ids hn)]

theorem lockstep_cut (hn : n ∈ g.nodes) (hm : Machine.Alike R ρ g.ids m m') :
    Lockstep R ρ g.ids R (cut settings n m) (cut settings (f n) m') := by
  have hname : m'.name? (f n).id = m.name? n.id := by
    rw [h.id n hn, hm.name?_eq _ (Graph.id_mem_ids hn)]
  have hcutName : ∀ name?, Resolve.cutName (f n) name? = Resolve.cutName n name? := by
    intro name?
    unfold Resolve.cutName
    split
    · exact h.text n hn
    · exact h.text n hn
    · rfl
  have hcutSchema : ∀ name?, Resolve.cutSchema settings (f n) name? = Resolve.cutSchema settings n name? := by
    intro name?
    unfold Resolve.cutSchema
    rw [hcutName]
  unfold cut
  dsimp only
  rw [hname, h.checkText n hn, hcutSchema]
  split
  · exact ⟨.error _, hm⟩
  · refine ⟨.ok (h.refl _), ?_⟩
    show Machine.Alike R ρ g.ids { m with log := _ } { m' with log := _ }
    rw [hname, hcutName, hm.place_eq]
    exact hm.log _

theorem lockstep_of_stage? (hn : n ∈ g.nodes) (hm : Machine.Alike R ρ g.ids m m') {stage : Stage}
    (hstage : m.stage? n.id = some stage) (room : Nat) :
    Lockstep R ρ g.ids R (resolve g settings room n m) (resolve g' settings room (f n) m') := by
  have hid := Graph.id_mem_ids hn
  have hstage' : m'.stage? (f n).id = some stage := (stage?_counterpart h hn hm).trans hstage
  rw [resolve.eq_def, resolve.eq_def g', hstage, hstage']
  cases stage with
  | resolving => exact lockstep_cut h hn hm
  | resolved =>
    have hcached := hm.cached _ hid
    rw [← h.id n hn] at hcached
    obtain ⟨schema, hschema⟩ := Option.isSome_iff_exists.1 (hm.isSome_cached? _ hid hstage)
    rw [hschema] at hcached ⊢
    generalize m'.cached? (f n).id = schema?' at hcached ⊢
    cases hcached with
    | some hs => exact ⟨.ok hs, hm⟩

omit h in
theorem lockstep_tooDeep {α : Type} {S : α → α → Prop} (hm : Machine.Alike R ρ g.ids m m') :
    Lockstep R ρ g.ids S (tooDeep settings m) (tooDeep settings m') := by
  unfold tooDeep
  rw [hm.place_eq]
  cases checkInteger settings.maxDepth <;> exact ⟨.error _, hm⟩

omit h in
theorem lockstep_along {visit visit' : Node → Machine → Except Stop Schema × Machine}
    (hkept : ∀ n m, Kept m (visit n m).2) (hkept' : ∀ n m, Kept m (visit' n m).2)
    (hvisit : ∀ n ∈ g.nodes, ∀ m m', Machine.Alike R ρ g.ids m m' →
      Lockstep R ρ g.ids R (visit n m) (visit' (f n) m'))
    (es : List Edge) (hes : ∀ e ∈ es, e.target ∈ g.nodes) (hm : Machine.Alike R ρ g.ids m m') :
    Lockstep R ρ g.ids (fun schemas schemas' => schemas.length = es.length ∧ List.Forall₂ R schemas schemas')
      (along visit es m) (along visit' (es.map (Edge.mapNode f)) m') := by
  induction es generalizing m m' with
  | nil => exact ⟨.ok ⟨rfl, .nil⟩, hm⟩
  | cons e es ih =>
    obtain ⟨he, hes⟩ := List.forall_mem_cons.1 hes
    obtain ⟨hends, hm₁⟩ := hvisit e.target he _ _ (hm.push e.label)
    have hback := hkept e.target (m.push e.label)
    have hback' := hkept' (f e.target) (m'.push e.label)
    rw [List.map_cons]
    unfold along
    rcases hx : visit e.target (m.push e.label) with ⟨result, m₁⟩
    rcases hx' : visit' (f e.target) (m'.push e.label) with ⟨result', m₁'⟩
    rw [hx, hx'] at hends hm₁
    rw [hx] at hback
    rw [hx'] at hback'
    simp only [Edge.mapNode, hx', back?_eq hback, back?_eq hback']
    have hm₂ := hm₁.pop e.label
    cases hends with
    | error stop => exact ⟨.error _, hm₂⟩
    | ok hs =>
      obtain ⟨hrest, hm₃⟩ := ih hes hm₂
      rcases hy : along visit es (m₁.pop e.label) with ⟨rest, m₃⟩
      rcases hy' : along visit' (es.map (Edge.mapNode f)) (m₁'.pop e.label) with ⟨rest', m₃'⟩
      rw [hy, hy'] at hrest hm₃
      refine ⟨?_, hm₃⟩
      cases hrest with
      | error stop => exact .error _
      | ok hrest => exact .ok ⟨congrArg (· + 1) hrest.1, .cons hs hrest.2⟩

theorem lockstep_of_deep (hn : n ∈ g.nodes) (hm : Machine.Alike R ρ g.ids m m') (hstage : m.stage? n.id = none)
    (hdeep : settings.maxDepth ≤ m.depth) (room : Nat) :
    Lockstep R ρ g.ids R (resolve g settings room n m) (resolve g' settings room (f n) m') := by
  have hstage' : m'.stage? (f n).id = none := (stage?_counterpart h hn hm).trans hstage
  rw [resolve_of_deep hstage hdeep, resolve_of_deep hstage' (hm.depth_eq ▸ hdeep)]
  exact lockstep_tooDeep hm

theorem lockstep_of_no_room (hn : n ∈ g.nodes) (hm : Machine.Alike R ρ g.ids m m')
    (hstage : m.stage? n.id = none) (hdepth : m.depth < settings.maxDepth) :
    Lockstep R ρ g.ids R (resolve g settings 0 n m) (resolve g' settings 0 (f n) m') := by
  have hid := Graph.id_mem_ids hn
  have hstage' : m'.stage? (f n).id = none := (stage?_counterpart h hn hm).trans hstage
  rw [resolve_of_no_room hstage hdepth, resolve_of_no_room hstage' (hm.depth_eq ▸ hdepth), hm.depth_eq,
    hm.place_eq, h.id n hn]
  exact ⟨.error _, (hm.enter h.injective hid).abandon h.injective hid⟩

/-- A node with room below it takes the same step, if the nodes that it follows do. -/
theorem lockstep_of_lt (hg : g.Closed) (hn : n ∈ g.nodes) (hm : Machine.Alike R ρ g.ids m m')
    (hstage : m.stage? n.id = none) (hdepth : m.depth < settings.maxDepth) {room : Nat}
    (hvisit : ∀ n ∈ g.nodes, ∀ m m', Machine.Alike R ρ g.ids m m' →
      Lockstep R ρ g.ids R (resolve g settings room n m) (resolve g' settings room (f n) m')) :
    Lockstep R ρ g.ids R (resolve g settings (room + 1) n m) (resolve g' settings (room + 1) (f n) m') := by
  have hid := Graph.id_mem_ids hn
  have hstage' : m'.stage? (f n).id = none := (stage?_counterpart h hn hm).trans hstage
  have hdepth' : m'.depth < settings.maxDepth := hm.depth_eq ▸ hdepth
  have henter : Machine.Alike R ρ g.ids (m.enter n.id) (m'.enter (f n).id) := by
    rw [h.id n hn]
    exact hm.enter h.injective hid
  have hmirrored := h.plan n hn
  rcases hplan : plan g settings n with obstacle | p
  all_goals rcases hplan' : plan g' settings (f n) with obstacle' | p'
  all_goals rw [hplan, hplan'] at hmirrored
  · cases hmirrored
    rw [resolve_of_obstacle hstage hdepth hplan, resolve_of_obstacle hstage' hdepth' hplan', hm.place_eq]
    rw [h.id n hn] at henter ⊢
    exact ⟨.error _, henter.abandon h.injective hid⟩
  · cases hmirrored
  · cases hmirrored
  · obtain ⟨halike⟩ := hmirrored
    obtain ⟨hends, hm₁⟩ := lockstep_along (kept_resolve g settings room) (kept_resolve g' settings room)
      hvisit p.edges (mem_nodes_of_mem_edges hg hn hplan) henter
    rw [← halike.edges] at hends hm₁
    rcases hx : along (resolve g settings room) p.edges (m.enter n.id) with ⟨result, m₁⟩
    rcases hx' : along (resolve g' settings room) p'.edges (m'.enter (f n).id) with ⟨result', m₁'⟩
    rw [hx, hx'] at hends hm₁
    cases hends with
    | error stop =>
      rw [resolve_of_along_error hstage hdepth hplan hx, resolve_of_along_error hstage' hdepth' hplan' hx', h.id n hn]
      exact ⟨.error _, hm₁.abandon h.injective hid⟩
    | ok hschemas =>
      have hs := halike.assemble hschemas.1 hschemas.2
      rw [resolve_of_along_ok hstage hdepth hplan hx, resolve_of_along_ok hstage' hdepth' hplan' hx', h.id n hn]
      exact ⟨.ok hs, hm₁.finish h.injective hid hs⟩

theorem lockstep_resolve (hg : g.Closed) (room : Nat) :
    ∀ n ∈ g.nodes, ∀ m m', Machine.Alike R ρ g.ids m m' →
      Lockstep R ρ g.ids R (resolve g settings room n m) (resolve g' settings room (f n) m') := by
  intro n hn m m' hm
  induction room generalizing n m m' with
  | zero =>
    rcases hstage : m.stage? n.id with _ | stage
    · rcases Nat.lt_or_ge m.depth settings.maxDepth with hdepth | hdeep
      · exact lockstep_of_no_room h hn hm hstage hdepth
      · exact lockstep_of_deep h hn hm hstage hdeep 0
    · exact lockstep_of_stage? h hn hm hstage 0
  | succ room ih =>
    rcases hstage : m.stage? n.id with _ | stage
    · rcases Nat.lt_or_ge m.depth settings.maxDepth with hdepth | hdeep
      · exact lockstep_of_lt h hg hn hm hstage hdepth ih
      · exact lockstep_of_deep h hn hm hstage hdeep (room + 1)
    · exact lockstep_of_stage? h hn hm hstage (room + 1)

/-! ### Declarations -/

theorem lockstep_declare {D : Subject} (hD : D.node ∈ g.nodes) (hm : Machine.Alike R ρ g.ids m m') :
    Machine.Alike R ρ g.ids (m.declare D) (m'.declare (D.mapNode f)) := by
  have hid : (D.mapNode f).node.id = ρ D.node.id := h.id D.node hD
  unfold Machine.declare
  rw [hid, hm.name?_eq _ (Graph.id_mem_ids hD)]
  cases m.name? D.node.id with
  | some _ => exact hm
  | none => exact hm.name h.injective (Graph.id_mem_ids hD) D.name

theorem lockstep_declareAll {subjects : List Subject} (hnodes : ∀ D ∈ subjects, D.node ∈ g.nodes)
    (hm : Machine.Alike R ρ g.ids m m') :
    Machine.Alike R ρ g.ids (subjects.foldl (fun m s => m.declare s) m)
      ((subjects.map (Subject.mapNode f)).foldl (fun m s => m.declare s) m') := by
  induction subjects generalizing m m' with
  | nil => exact hm
  | cons D rest ih =>
    obtain ⟨hD, hrest⟩ := List.forall_mem_cons.1 hnodes
    exact ih hrest (lockstep_declare h hD hm)

theorem lockstep_subject (hg : g.Closed) {D : Subject} (hD : D.node ∈ g.nodes)
    (hm : Machine.Alike R ρ g.ids m m') :
    Lockstep R ρ g.ids R (subject g settings D m) (subject g' settings (D.mapNode f) m') := by
  have htop := (lockstep_declare h hD hm).turn (some D.name)
  obtain ⟨hends, hm₁⟩ := lockstep_resolve h hg settings.stackRoom D.node hD _ _ htop
  exact ⟨hends, hm₁.leave⟩

theorem lockstep_step (hg : g.Closed) {D : Subject} (hD : D.node ∈ g.nodes)
    (hm : Machine.Alike R ρ g.ids m m') :
    SameEnd (fun x x' => List.Forall₂ (Outcome.Alike R) x.1.toList x'.1.toList ∧
        Machine.Alike R ρ g.ids x.2 x'.2)
      (step g settings D m) (step g' settings (D.mapNode f) m') := by
  unfold step
  show SameEnd _ _ (if D.isTranspilable then _ else _)
  split
  · obtain ⟨hends, hm₁⟩ := lockstep_subject h hg hD hm
    rcases hx : subject g settings D m with ⟨result, m₁⟩
    rcases hx' : subject g' settings (D.mapNode f) m' with ⟨result', m₁'⟩
    rw [hx, hx'] at hends hm₁
    cases hends with
    | ok hs => exact .ok ⟨.cons ⟨rfl, rfl, .ok hs⟩ .nil, hm₁⟩
    | error stop =>
      cases stop with
      | failed failure => exact .ok ⟨.cons ⟨rfl, rfl, .error failure⟩ .nil, hm₁.log _⟩
      | broken breach => exact .error breach
  · exact .ok ⟨.nil, hm.log _⟩

theorem lockstep_steps (hg : g.Closed) {subjects : List Subject}
    (hnodes : ∀ D ∈ subjects, D.node ∈ g.nodes) (hm : Machine.Alike R ρ g.ids m m') :
    SameEnd (fun x x' => List.Forall₂ (Outcome.Alike R) x.1 x'.1 ∧ Machine.Alike R ρ g.ids x.2 x'.2)
      (steps g settings subjects m) (steps g' settings (subjects.map (Subject.mapNode f)) m') := by
  induction subjects generalizing m m' with
  | nil => exact .ok ⟨.nil, hm⟩
  | cons D rest ih =>
    obtain ⟨hD, hrest⟩ := List.forall_mem_cons.1 hnodes
    have hstep := lockstep_step h hg hD hm
    rw [List.map_cons, steps, steps]
    generalize step g settings D m = first at hstep ⊢
    generalize step g' settings (D.mapNode f) m' = first' at hstep ⊢
    cases hstep with
    | error breach => exact .error breach
    | @ok x x' hx =>
      have hsteps := ih hrest hx.2
      show SameEnd _ (steps g settings rest x.2 >>= _)
        (steps g' settings (rest.map (Subject.mapNode f)) x'.2 >>= _)
      generalize steps g settings rest x.2 = others at hsteps ⊢
      generalize steps g' settings (rest.map (Subject.mapNode f)) x'.2 = others' at hsteps ⊢
      cases hsteps with
      | error breach => exact .error breach
      | ok hy => exact .ok ⟨List.rel_append hx.1 hy.1, hy.2⟩

/-- Passes over graphs that mirror each other end alike, and log the same. -/
theorem mirrored_pass (hg : g.Closed) {subjects : List Subject} (hnodes : ∀ D ∈ subjects, D.node ∈ g.nodes) :
    SameEnd (fun x x' => List.Forall₂ (Outcome.Alike R) x.1 x'.1 ∧ x'.2 = x.2)
      (pass g settings subjects) (pass g' settings (subjects.map (Subject.mapNode f))) := by
  have hfilter : (subjects.map (Subject.mapNode f)).filter Subject.isTranspilable =
      (subjects.filter Subject.isTranspilable).map (Subject.mapNode f) := List.filter_map
  have hnamed : ∀ D ∈ subjects.filter Subject.isTranspilable, D.node ∈ g.nodes :=
    fun D hD => hnodes D (List.mem_filter.1 hD).1
  have hsteps := lockstep_steps h hg hnodes (lockstep_declareAll h hnamed .empty)
  rw [← hfilter] at hsteps
  show SameEnd _ (steps g settings subjects _ >>= _)
    (steps g' settings (subjects.map (Subject.mapNode f)) _ >>= _)
  generalize steps g settings subjects _ = x at hsteps ⊢
  generalize steps g' settings (subjects.map (Subject.mapNode f)) _ = x' at hsteps ⊢
  cases hsteps with
  | error breach => exact .error breach
  | ok hx => exact .ok ⟨hx.1, hx.2.log_eq⟩

end Mirrors

/-- Of similar schemas, the outcomes are similar. -/
theorem lockstep_pass (h : Mirrors Schema.Similar ρ g g' settings f) (hg : g.Closed) {subjects : List Subject}
    (hnodes : ∀ D ∈ subjects, D.node ∈ g.nodes) :
    SameEnd (fun x x' => List.Forall₂ Outcome.Similar x.1 x'.1 ∧ x'.2 = x.2)
      (pass g settings subjects) (pass g' settings (subjects.map (Subject.mapNode f))) :=
  (mirrored_pass h hg hnodes).mono fun _ _ hx =>
    ⟨hx.1.imp fun _ _ ho => ⟨ho.name, ho.kind, ho.result⟩, hx.2⟩

end Strict

end TypeSchema
