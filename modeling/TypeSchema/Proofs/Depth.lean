import TypeSchema.Proofs.Calls
import TypeSchema.Proofs.Ladder

/-!
# The ceiling on depth

The depth of a machine is the number of nodes that are being resolved on it, at every moment of a
run, so the ceiling bounds both. A run that is not cut short by its ceiling is the run under any
higher one, and a ceiling that has room for every node cuts none short: all that can fail for depth
then is a run for which the stack has no room. `Machine.resolve_under_ceiling` says so.
-/

namespace TypeSchema

namespace Machine

variable {g : Graph} {settings : ResolverSettings} {n : Node} {m m' : Machine} {id : Int}

/-! ### Depths count what is being resolved -/

namespace Tidy

theorem mem_resolvingIds (h : m.Tidy) : id ∈ m.resolvingIds ↔ m.stage? id = some .resolving := by
  rw [stage?, ← Table.mem_iff_get?_eq_some h.nodup]
  simp [resolvingIds]

theorem nodup_resolvingIds (h : m.Tidy) : m.resolvingIds.Nodup :=
  List.Nodup.sublist (List.filter_sublist.map _) h.nodup

theorem length_resolvingIds_eq (h : m.Tidy) (h' : m'.Tidy)
    (hiff : ∀ id, m'.stage? id = some .resolving ↔ m.stage? id = some .resolving) :
    m'.resolvingIds.length = m.resolvingIds.length := by
  refine List.Perm.length_eq ((List.perm_ext_iff_of_nodup h'.nodup_resolvingIds h.nodup_resolvingIds).2 ?_)
  intro id
  rw [h'.mem_resolvingIds, h.mem_resolvingIds, hiff]

theorem length_resolvingIds_enter (h : m.Tidy) (hid : m.stage? id = none) :
    (m.enter id).resolvingIds.length = m.resolvingIds.length + 1 := by
  have hfresh : id ∉ m.resolvingIds := by
    rw [h.mem_resolvingIds, hid]
    rintro ⟨⟩
  have hnodup := List.nodup_cons.2 ⟨hfresh, h.nodup_resolvingIds⟩
  refine List.Perm.length_eq
    ((List.perm_ext_iff_of_nodup (h.enter id).nodup_resolvingIds hnodup).2 fun other => ?_)
  rw [(h.enter id).mem_resolvingIds, List.mem_cons, h.mem_resolvingIds, stage?_enter]
  split
  · next ho => simp [ho]
  · next ho => simp [ho]

end Tidy

/-- The machine is tidy, and as deep as the nodes that are being resolved are many. -/
structure Counted (m : Machine) : Prop extends Tidy m where
  depth_eq : m.resolvingIds.length = m.depth

namespace Counted

theorem enter (h : m.Counted) (hid : m.stage? id = none) : (m.enter id).Counted where
  toTidy := h.toTidy.enter id
  depth_eq := (h.length_resolvingIds_enter hid).trans (congrArg (· + 1) h.depth_eq)

theorem push (h : m.Counted) (label : Option String) : (m.push label).Counted where
  toTidy := h.toTidy.push label
  depth_eq := h.depth_eq

theorem of_spares (h : m.Counted) (hspares : m.Spares m') : m'.Counted where
  toTidy := hspares.tidy h.toTidy
  depth_eq := by
    rw [h.length_resolvingIds_eq (hspares.tidy h.toTidy) hspares.resolving_iff, h.depth_eq,
      hspares.restored.depth]

end Counted

/-- Where nothing is being resolved, the count begins. -/
theorem Tidy.counted (h : m.Tidy) (hnone : ∀ id, m.stage? id ≠ some .resolving) (hdepth : m.depth = 0) :
    m.Counted where
  toTidy := h
  depth_eq := by
    have hids : m.resolvingIds = [] :=
      List.eq_nil_iff_forall_not_mem.2 fun id hid => hnone id (h.mem_resolvingIds.1 hid)
    rw [hids, hdepth]
    rfl

theorem AtRest.counted (h : m.AtRest) (htidy : m.Tidy) : m.Counted :=
  htidy.counted h.stage?_ne_resolving h.depth

namespace Call

variable {c c' : Call}

theorem Asks.counted (h : Asks g settings c c') (hc : c.machine.Counted) : c'.machine.Counted := by
  cases h with
  | intro hstage _ _ hedge =>
    exact ((hc.enter hstage).of_spares (hedge.spares fun _ _ _ _ => spares_resolve)).push _

theorem Below.counted (h : Below g settings c c') (hc : c.machine.Counted) : c'.machine.Counted := by
  induction h with
  | refl => exact hc
  | tail _ hasks ih => exact hasks.counted ih

/-- The machine at some moment of the call: where a call in its course is made, has entered its node,
or has ended. -/
inductive Moment (g : Graph) (settings : ResolverSettings) (c : Call) : Machine → Prop
  | made {c' : Call} : Below g settings c c' → Moment g settings c c'.machine
  | entered {c' : Call} : Below g settings c c' → c'.machine.stage? c'.node.id = none →
    c'.machine.depth < settings.maxDepth → Moment g settings c (c'.machine.enter c'.node.id)
  | ended {c' : Call} {r : Except Raised Schema} {m' : Machine} : Below g settings c c' →
    c'.answer g settings = some (r, m') → Moment g settings c m'

theorem Moment.counted (h : Moment g settings c m) (hc : c.machine.Counted) : m.Counted := by
  cases h with
  | made hbelow => exact hbelow.counted hc
  | entered hbelow hstage => exact (hbelow.counted hc).enter hstage
  | ended hbelow hanswer => exact (hbelow.counted hc).of_spares (spares_resolve hanswer)

theorem Moment.depth_le (h : Moment g settings c m) (hc : c.machine.depth ≤ settings.maxDepth) :
    m.depth ≤ settings.maxDepth := by
  cases h with
  | made hbelow => exact hbelow.depth_le hc
  | entered _ _ hlt => exact hlt
  | ended hbelow hanswer =>
    rw [(spares_resolve hanswer).restored.depth]
    exact hbelow.depth_le hc

/-- At every moment, no more nodes are being resolved than the ceiling allows. -/
theorem Moment.length_resolvingIds_le (h : Moment g settings c m) (hc : c.machine.Counted)
    (hdepth : c.machine.depth ≤ settings.maxDepth) : m.resolvingIds.length ≤ settings.maxDepth := by
  rw [(h.counted hc).depth_eq]
  exact h.depth_le hdepth

end Call

/-! ### Runs end -/

theorem exists_along {visit : Node → Machine → Option (Except Raised Schema × Machine)} {depth : Nat}
    (hspares : ∀ n m r m', visit n m = some (r, m') → m.Spares m')
    (hvisit : ∀ n m, m.depth = depth → ∃ r m', visit n m = some (r, m')) (es : List Edge)
    (hm : m.depth = depth) : ∃ r m', along visit es m = some (r, m') := by
  induction es generalizing m with
  | nil => exact ⟨_, m, rfl⟩
  | cons e es ih =>
    obtain ⟨result, m₁, hfirst⟩ := hvisit e.target (m.push e.label) hm
    have hback := (hspares _ _ _ _ hfirst).pop.restored.depth
    cases result with
    | error raised => exact ⟨_, _, by rw [along, hfirst]; rfl⟩
    | ok schema =>
      obtain ⟨rest, m₂, hrest⟩ := ih (hback.trans hm)
      exact ⟨rest.map (schema :: ·), m₂, by rw [along, hfirst]; simp [hrest]⟩

/-- A run ends if its calls use up the levels before they run out. -/
theorem exists_resolve {calls : Nat} (h : settings.levels ≤ m.depth + calls) :
    ∃ r m', resolve g settings calls n m = some (r, m') := by
  induction calls generalizing n m with
  | zero =>
    rw [resolve]
    split
    · exact ⟨_, _, rfl⟩
    · exact ⟨_, _, rfl⟩
    · exact ⟨_, _, rfl⟩
    · rw [ResolverSettings.levels] at h
      split
      · exact ⟨_, _, rfl⟩
      · rw [if_pos (by omega)]
        exact ⟨_, _, rfl⟩
  | succ calls ih =>
    rw [resolve]
    split
    · exact ⟨_, _, rfl⟩
    · exact ⟨_, _, rfl⟩
    · exact ⟨_, _, rfl⟩
    split
    · exact ⟨_, _, rfl⟩
    split
    · exact ⟨_, _, rfl⟩
    split
    · exact ⟨_, _, rfl⟩
    next p _ =>
    have hvisit : ∀ n m', m'.depth = m.depth + 1 → ∃ r m'', resolve g settings calls n m' = some (r, m'') :=
      fun n m' hm' => ih (by omega)
    have henter : (m.enter n.id).depth = m.depth + 1 := rfl
    obtain ⟨result, m₁, hrun⟩ := exists_along (fun _ _ _ _ => spares_resolve) hvisit p.edges henter
    rw [hrun]
    cases result with
    | error raised => exact ⟨_, _, rfl⟩
    | ok schemas => exact ⟨_, _, rfl⟩

/-! ### Runs under two ceilings -/

theorem resolve_of_stage? {d d' calls calls' : Nat} {stage : Stage} (h : m.stage? n.id = some stage) :
    resolve g { settings with maxDepth := d' } calls' n m = resolve g { settings with maxDepth := d } calls n m := by
  rw [resolve.eq_def, resolve.eq_def, h]
  cases stage with
  | resolving => rfl
  | resolved => cases m.cached? n.id <;> rfl

/-- The run ends in a failure for depth. -/
def CutShort {α : Type} (d : Nat) (r : Except Raised α) : Prop :=
  ∃ raised, r = .error raised ∧ raised.failure.cause = .depthExceeded d

theorem CutShort.map {α β : Type} {d : Nat} {r : Except Raised α} (h : CutShort d r) (f : α → β) :
    CutShort d (r.map f) := by
  obtain ⟨raised, rfl, hcause⟩ := h
  exact ⟨raised, rfl, hcause⟩

variable {d d' calls calls' : Nat}

theorem along_same_or {visit visit' : Node → Machine → Option (Except Raised Schema × Machine)}
    (hvisit : ∀ n m r m₁ r' m₁', visit n m = some (r, m₁) → visit' n m = some (r', m₁') →
      (r' = r ∧ m₁' = m₁) ∨ d < d' ∧ CutShort d r)
    {es : List Edge} {r r' : Except Raised (List Schema)} {m₁ m₁' : Machine}
    (h : along visit es m = some (r, m₁)) (h' : along visit' es m = some (r', m₁')) :
    (r' = r ∧ m₁' = m₁) ∨ d < d' ∧ CutShort d r := by
  induction es generalizing m r r' with
  | nil =>
    cases h
    cases h'
    exact .inl ⟨rfl, rfl⟩
  | cons e es ih =>
    obtain ⟨⟨result, m₂⟩, hfirst, h⟩ := Option.bind_eq_some_iff.1 h
    obtain ⟨⟨result', m₂'⟩, hfirst', h'⟩ := Option.bind_eq_some_iff.1 h'
    rcases hvisit _ _ _ _ _ _ hfirst hfirst' with ⟨rfl, rfl⟩ | ⟨hlt, raised, rfl, hcause⟩
    · cases result' with
      | error raised =>
        cases h
        cases h'
        exact .inl ⟨rfl, rfl⟩
      | ok schema =>
        obtain ⟨⟨rest, m₃⟩, hrest, h⟩ := Option.bind_eq_some_iff.1 h
        obtain ⟨⟨rest', m₃'⟩, hrest', h'⟩ := Option.bind_eq_some_iff.1 h'
        cases h
        cases h'
        rcases ih hrest hrest' with ⟨rfl, rfl⟩ | ⟨hlt, hcut⟩
        · exact .inl ⟨rfl, rfl⟩
        · exact .inr ⟨hlt, hcut.map _⟩
    · cases h
      exact .inr ⟨hlt, raised, rfl, hcause⟩

/-- Where there is no level for the node, the lower ceiling is reached or plays no part. -/
theorem same_or_of_no_level (hd : d ≤ d') {r r' : Except Raised Schema} {m₁ m₁' : Machine}
    (hout : ¬(m.stage? n.id = none ∧ m.depth < d ∧ m.depth < settings.stackRoom))
    (h : resolve g { settings with maxDepth := d } calls n m = some (r, m₁))
    (h' : resolve g { settings with maxDepth := d' } calls' n m = some (r', m₁')) :
    (r' = r ∧ m₁' = m₁) ∨ d < d' ∧ CutShort d r := by
  rcases hstage : m.stage? n.id with _ | stage
  · rcases Nat.lt_or_ge m.depth d with hlt | hdepth
    · -- the stack is full under either ceiling
      have hfull (d : Nat) : ResolverSettings.stackRoom { settings with maxDepth := d } ≤ m.depth :=
        Nat.le_of_not_lt fun hroom => hout ⟨hstage, hlt, hroom⟩
      cases (resolve_of_full hstage hlt (hfull d) _).symm.trans h
      cases (resolve_of_full hstage (Nat.lt_of_lt_of_le hlt hd) (hfull d') _).symm.trans h'
      exact .inl ⟨rfl, rfl⟩
    cases (resolve_of_deep hstage hdepth _).symm.trans h
    rcases Nat.eq_or_lt_of_le hd with rfl | hlt
    · cases (resolve_of_deep hstage hdepth _).symm.trans h'
      exact .inl ⟨rfl, rfl⟩
    · exact .inr ⟨hlt, _, rfl, rfl⟩
  · rw [resolve_of_stage? hstage, h] at h'
    cases h'
    exact .inl ⟨rfl, rfl⟩

/-- Under a lower ceiling a run is the same or cut short, and under the same ceiling it is the same,
whatever calls are left over. -/
theorem resolve_same_or (hd : d ≤ d') {r r' : Except Raised Schema} {m₁ m₁' : Machine}
    (h : resolve g { settings with maxDepth := d } calls n m = some (r, m₁))
    (h' : resolve g { settings with maxDepth := d' } calls' n m = some (r', m₁')) :
    (r' = r ∧ m₁' = m₁) ∨ d < d' ∧ CutShort d r := by
  induction calls generalizing calls' n m r r' m₁ m₁' with
  | zero =>
    refine same_or_of_no_level hd (fun ⟨hstage, hlevel⟩ => ?_) h h'
    cases (resolve_of_lt hstage (Nat.lt_min.2 hlevel) 0).symm.trans h
  | succ calls ih =>
    by_cases hin : m.stage? n.id = none ∧ m.depth < d ∧ m.depth < settings.stackRoom
    swap
    · exact same_or_of_no_level hd hin h h'
    obtain ⟨hstage, hdepth, hroom⟩ := hin
    have hlevel : m.depth < ResolverSettings.levels { settings with maxDepth := d } :=
      Nat.lt_min.2 ⟨hdepth, hroom⟩
    have hlevel' : m.depth < ResolverSettings.levels { settings with maxDepth := d' } :=
      Nat.lt_min.2 ⟨Nat.lt_of_lt_of_le hdepth hd, hroom⟩
    rw [resolve_of_lt hstage hlevel] at h
    rw [resolve_of_lt hstage hlevel'] at h'
    cases calls' with
    | zero => cases h'
    | succ calls' =>
      -- no plan depends on the ceiling
      have hplan : g.plan { settings with maxDepth := d' } n = g.plan { settings with maxDepth := d } n := rfl
      dsimp only at h h'
      rw [hplan] at h'
      cases hp : g.plan { settings with maxDepth := d } n with
      | error cause =>
        rw [hp] at h h'
        cases h
        cases h'
        exact .inl ⟨rfl, rfl⟩
      | ok p =>
        rw [hp] at h h'
        obtain ⟨x, hx, hleave⟩ := Option.map_eq_some_iff.1 h
        obtain ⟨x', hx', hleave'⟩ := Option.map_eq_some_iff.1 h'
        rcases along_same_or (fun _ _ _ _ _ _ => ih) hx hx' with ⟨hr, hm⟩ | ⟨hlt, raised, hr, hcause⟩
        · rw [Prod.ext hr hm, hleave] at hleave'
          cases hleave'
          exact .inl ⟨rfl, rfl⟩
        · obtain ⟨_, m₂⟩ := x
          obtain rfl := hr
          cases hleave
          exact .inr ⟨hlt, raised, rfl, hcause⟩

/-! ### Room for every node -/

theorem Call.Below.mem_ids {c c' : Call} (h : Call.Below g settings c c') (hc : c.node ∈ g.nodes)
    (hnone : ∀ id, c.machine.stage? id ≠ some .resolving) (hid : c'.machine.stage? id = some .resolving) :
    id ∈ g.ids := by
  rcases h.resolving_or hid with hid | ⟨c₁, c₂, hbelow, -, rfl⟩
  · exact absurd hid (hnone id)
  · exact List.mem_map_of_mem (hbelow.mem_nodes hc)

/-- A node that is not being resolved finds room below a ceiling that has room for all. -/
theorem depth_lt_of_below {c c' : Call} (h : Call.Below g settings c c') (hc : c.node ∈ g.nodes)
    (hcounted : c.machine.Counted) (hnone : ∀ id, c.machine.stage? id ≠ some .resolving)
    (hstage : c'.machine.stage? c'.node.id = none) : c'.machine.depth < g.nodes.length := by
  have hm := h.counted hcounted
  have hnodup : (c'.node.id :: c'.machine.resolvingIds).Nodup := by
    refine List.nodup_cons.2 ⟨fun hid => ?_, hm.nodup_resolvingIds⟩
    cases hstage.symm.trans (hm.mem_resolvingIds.1 hid)
  have hsub : c'.node.id :: c'.machine.resolvingIds ⊆ g.ids := by
    refine List.cons_subset.2 ⟨List.mem_map_of_mem (h.mem_nodes hc), fun id hid => ?_⟩
    exact h.mem_ids hc hnone (hm.mem_resolvingIds.1 hid)
  have hle := (hnodup.subperm hsub).length_le
  rw [List.length_cons, hm.depth_eq, Graph.ids, List.length_map] at hle
  exact hle

/-- The stack was full when the failure arose, and these many nodes of the graph were being resolved. -/
structure Exhausted (g : Graph) (settings : ResolverSettings) (raised : Raised) (limit : Int) : Prop where
  limit_eq : limit = raised.origin.resolvingIds.length
  full : settings.stackRoom < raised.origin.resolvingIds.length
  length_le : raised.origin.resolvingIds.length ≤ g.nodes.length

/-- Below a ceiling with room for every node, what fails for depth is a run that fills the stack. -/
theorem exhausted_of_depthExceeded (hg : g.Closed) (hn : n ∈ g.nodes) (hcounted : m.Counted)
    (hnone : ∀ id, m.stage? id ≠ some .resolving) (hceiling : g.nodes.length ≤ settings.maxDepth)
    {calls : Nat} {raised : Raised} {limit : Int}
    (h : resolve g settings calls n m = some (.error raised, m'))
    (hcause : raised.failure.cause = .depthExceeded limit) : Exhausted g settings raised limit := by
  obtain ⟨c, hbelow, hraises⟩ := Call.exists_raises h
  cases hraises with
  | lost => cases hcause
  | deep hstage hdepth =>
    have hlt := depth_lt_of_below hbelow hn hcounted hnone hstage
    omega
  | full hstage _ hfull =>
    cases hcause
    have hlt := depth_lt_of_below hbelow hn hcounted hnone hstage
    have hcount : (c.machine.enter c.node.id).resolvingIds.length = c.machine.depth + 1 :=
      ((hbelow.counted hcounted).enter hstage).depth_eq
    refine ⟨congrArg Nat.cast hcount.symm, ?_, ?_⟩ <;> dsimp only <;> omega
  | fault _ _ hplan =>
    rcases hg.cause_cases (hbelow.mem_nodes hn) hplan with ⟨problem, rfl, -⟩ | ⟨kind, rfl⟩ <;> cases hcause

theorem exhausted_of_answer (hg : g.Closed) {q : Request} (hq : q.Within g) (hm : m.AtRest) (htidy : m.Tidy)
    (hceiling : g.nodes.length ≤ settings.maxDepth) {raised : Raised} {limit : Int}
    (h : m.answer g settings q = some (.error raised, m'))
    (hcause : raised.failure.cause = .depthExceeded limit) : Exhausted g settings raised limit := by
  cases q with
  | node n =>
    obtain ⟨⟨result, m₁⟩, hrun, h⟩ := Option.bind_eq_some_iff.1 h
    obtain ⟨hresult, -⟩ := Prod.mk.inj (Option.some.inj h)
    obtain rfl := map_eq_error_iff.1 hresult
    exact exhausted_of_depthExceeded hg (hq n rfl) (hm.counted htidy) hm.stage?_ne_resolving hceiling hrun hcause
  | shape n =>
    rw [answer] at h
    cases hshape : g.shapeOf n with
    | ok shape =>
      rw [hshape] at h
      cases h
    | error cause =>
      rw [hshape] at h
      obtain ⟨-, rfl⟩ := Graph.shape?_of_shapeOf_error hshape
      cases h
      cases hcause
  | declare subjects => cases h
  | subject D =>
    obtain ⟨⟨result, m₁⟩, hrun, h⟩ := Option.bind_eq_some_iff.1 h
    obtain ⟨hresult, -⟩ := Prod.mk.inj (Option.some.inj h)
    obtain rfl := map_eq_error_iff.1 hresult
    have hnone : ∀ id, (m.top D).stage? id ≠ some .resolving := by
      intro id
      rw [stage?_top]
      exact hm.stage?_ne_resolving id
    exact exhausted_of_depthExceeded hg (hq D.node rfl) ((htidy.top D).counted hnone rfl) hnone hceiling hrun hcause

/-- A resolution on a machine that requests have left ends, and at no moment more nodes are being
resolved than its ceiling allows. It is the resolution under any higher ceiling, or it fails for
its ceiling, which it never does where there is room for every node: it can still fail for depth then,
but only where the stack is full. -/
theorem resolve_under_ceiling (hg : g.Closed) (settings : ResolverSettings) {before : List Request}
    (hbefore : ∀ q ∈ before, q.Within g) (hn : n ∈ g.nodes) (hd : d ≤ d') :
    ∃ m result m', after g settings before {} = some m ∧
      (∀ calls, d ≤ calls → resolve g { settings with maxDepth := d } calls n m = some (result, m')) ∧
      (∀ calls moment, Call.Moment g { settings with maxDepth := d } ⟨calls, n, m⟩ moment →
        moment.resolvingIds.length ≤ d) ∧
      (CutShort d result ∨
        ∀ calls, d' ≤ calls → resolve g { settings with maxDepth := d' } calls n m = some (result, m')) ∧
      (g.nodes.length ≤ d → ∀ raised limit, result = .error raised →
        raised.failure.cause = .depthExceeded limit → Exhausted g settings raised limit) := by
  obtain ⟨m, hm, hrests⟩ := rests_after hg (Rests.empty g settings) hbefore
  have hrest := hrests.atRest
  have htidy := tidy_after tidy_empty hm
  have hends (d calls : Nat) (hcalls : d ≤ calls) :
      ∃ r m', resolve g { settings with maxDepth := d } calls n m = some (r, m') :=
    exists_resolve (by rw [hrest.depth, Nat.zero_add]; exact Nat.le_trans (Nat.min_le_left ..) hcalls)
  obtain ⟨result, m', hrun⟩ := hends d d (Nat.le_refl d)
  refine ⟨m, result, m', hm, fun calls hcalls => ?_, fun calls moment hmoment => ?_, ?_, ?_⟩
  · obtain ⟨r, m'', hrun'⟩ := hends d calls hcalls
    obtain ⟨rfl, rfl⟩ := (resolve_same_or (Nat.le_refl _) hrun hrun').resolve_right fun h => absurd h.1 (Nat.lt_irrefl d)
    exact hrun'
  · refine hmoment.length_resolvingIds_le (hrest.counted htidy) ?_
    rw [hrest.depth]
    exact Nat.zero_le _
  · refine or_iff_not_imp_left.2 fun hcut calls hcalls => ?_
    obtain ⟨r, m'', hrun'⟩ := hends d' calls hcalls
    obtain ⟨rfl, rfl⟩ := (resolve_same_or hd hrun hrun').resolve_right fun h => hcut h.2
    exact hrun'
  · rintro hceiling raised limit rfl hcause
    have h := @exhausted_of_depthExceeded g { settings with maxDepth := d } _ _ _ hg hn (hrest.counted htidy)
      hrest.stage?_ne_resolving hceiling _ _ _ hrun hcause
    exact ⟨h.limit_eq, h.full, h.length_le⟩

/-- A cell and its text need room for two. -/
theorem cells_under_ceiling :
    ∃ m raised schema m₁ m₂, after Graph.cells {} [.shape .cell] {} = some m ∧
      resolve Graph.cells { maxDepth := 1 } 1 .cell m = some (.error raised, m₁) ∧
      raised.failure = ⟨.depthExceeded 1, ⟨none, ["text"]⟩⟩ ∧
      resolve Graph.cells { maxDepth := 2 } 2 .cell m = some (.ok schema, m₂) ∧
      resolve Graph.cells { maxDepth := 128 } 128 .cell m = some (.ok schema, m₂) := by
  have hbefore : ∀ q ∈ [Request.shape .cell], q.Within Graph.cells := by
    simp [Request.Within, Request.target?]
    decide
  obtain ⟨m, result, m₂, hm, hrun, -, hor, -⟩ :=
    @resolve_under_ceiling Graph.cells .cell 2 128 Graph.closed_cells {} _ hbefore (by decide) (by decide)
  cases hm
  have hcut : ∃ raised m₁, resolve Graph.cells { maxDepth := 1 } 1 .cell {} = some (.error raised, m₁) ∧
      raised.failure = ⟨.depthExceeded 1, ⟨none, ["text"]⟩⟩ := ⟨_, _, rfl, rfl⟩
  have hok : ∃ schema m₂, resolve Graph.cells { maxDepth := 2 } 2 .cell {} = some (.ok schema, m₂) :=
    ⟨_, _, rfl⟩
  obtain ⟨raised, m₁, hcut, hfailure⟩ := hcut
  obtain ⟨schema, _, hok⟩ := hok
  obtain ⟨rfl, rfl⟩ := Prod.mk.inj (Option.some.inj ((hrun 2 (Nat.le_refl 2)).symm.trans hok))
  refine ⟨_, raised, schema, m₁, m₂, rfl, hcut, hfailure, hok, hor.resolve_left ?_ 128 (Nat.le_refl 128)⟩
  rintro ⟨raised, h, -⟩
  cases h

/-- The ladder has a rung for every level of the ceiling, and yet its highest rung fails for depth: the stack is
full on the way down. -/
theorem ladder_under_ceiling :
    (Graph.ladder 1200).Closed ∧ (Graph.ladder 1200).nodes.length = 1200 ∧
      ∃ raised m', resolve (.ladder 1200) { maxDepth := 1200 } 1200 (.rung 1199) {} = some (.error raised, m') ∧
        raised.failure.cause = .depthExceeded 241 := by
  obtain ⟨raised, m', hrun, hfailure, -⟩ := @resolve_rung 1200 240 1199 1200 { maxDepth := 1200 } {} (by decide)
    rfl (by decide) (by decide) (by decide) fun _ _ => rfl
  exact ⟨Graph.closed_ladder (by decide), Graph.length_nodes_ladder 1200, raised, m', hrun, by rw [hfailure]; rfl⟩

end Machine

end TypeSchema
