import TypeSchema.Proofs.Followed
import TypeSchema.Resolve.Machine

/-!
# The machine shows the session

`Machine.Shows` reads the marks of a session off the stages and the cache of a machine. A resolution
of the machine ends like that of the session, and with its declaration, path and depth as they were
before: `Machine.matches_resolve`. What was being resolved when a failure arose is unvisited once the
failure is out, unless it was being resolved before.
-/

namespace TypeSchema

namespace Mark

def stage : Mark → Stage
  | .resolving => .resolving
  | .resolved _ => .resolved

def schema? : Mark → Option Schema
  | .resolving => none
  | .resolved schema => some schema

end Mark

namespace Machine

variable {m m' : Machine} {s : Session} {id : Int}

/-- The machine has the stages, schemas, names and log of the session. -/
structure Shows (m : Machine) (s : Session) : Prop where
  names_eq : m.names = s.names
  log_eq : m.log = s.log
  stage?_eq : ∀ id, m.stage? id = (s.mark? id).map Mark.stage
  cached?_eq : ∀ id, m.cached? id = (s.mark? id).bind Mark.schema?

/-- What a resolution puts back on its way out. -/
structure Restored (m m' : Machine) : Prop where
  declaration : m'.declaration = m.declaration
  path : m'.path = m.path
  depth : m'.depth = m.depth

theorem Restored.refl (m : Machine) : m.Restored m := ⟨rfl, rfl, rfl⟩

theorem Restored.trans {m'' : Machine} (h : m.Restored m') (h' : m'.Restored m'') : m.Restored m'' :=
  ⟨h'.declaration.trans h.declaration, h'.path.trans h.path, h'.depth.trans h.depth⟩

/-! ### Ways in and out -/

theorem stage?_enter (id other : Int) (m : Machine) :
    (m.enter id).stage? other = if other = id then some .resolving else m.stage? other :=
  Table.get?_put ..

theorem stage?_abandon (id other : Int) (m : Machine) :
    (m.abandon id).stage? other = if other = id then none else m.stage? other :=
  Table.get?_remove ..

theorem place_push (label : Option String) (m : Machine) : (m.push label).place = m.place.under label := by
  cases label with
  | none => simp [place, push, Place.under]
  | some label => rfl

theorem Restored.pop {label : Option String} (h : (m.push label).Restored m') : m.Restored (m'.pop label) := by
  cases label with
  | none =>
    refine ⟨h.declaration, ?_, h.depth⟩
    show m'.path = m.path
    simpa [push] using h.path
  | some label =>
    refine ⟨h.declaration, ?_, h.depth⟩
    show m'.path.dropLast = m.path
    rw [h.path]
    exact List.dropLast_concat

theorem Restored.abandon (h : (m.enter id).Restored m') : m.Restored (m'.abandon id) := by
  refine ⟨h.declaration, h.path, ?_⟩
  show m'.depth - 1 = m.depth
  rw [h.depth]
  rfl

theorem Restored.finish (h : (m.enter id).Restored m') (schema : Schema) :
    m.Restored (m'.finish id schema) :=
  ⟨h.declaration, h.path, h.abandon.depth⟩

/-- What the failure found being resolved was so before the node was entered, or is the node. -/
theorem stage?_abandon_of_enter {other : Int}
    (h : m'.stage? other = none ∨ (m.enter id).stage? other = some .resolving) :
    (m'.abandon id).stage? other = none ∨ m.stage? other = some .resolving := by
  rw [stage?_enter] at h
  rw [stage?_abandon]
  split at h
  · next ho => rw [if_pos ho]; exact .inl rfl
  · next ho => rw [if_neg ho]; exact h

theorem stage?_pop (label : Option String) (m : Machine) (id : Int) :
    (m.pop label).stage? id = m.stage? id := by
  cases label <;> rfl

namespace Shows

theorem name?_eq (h : m.Shows s) (id : Int) : m.name? id = s.name? id := by
  rw [name?, h.names_eq]
  rfl

theorem stage?_eq_resolving_iff (h : m.Shows s) (id : Int) :
    m.stage? id = some .resolving ↔ s.mark? id = some .resolving := by
  rw [h.stage?_eq]
  rcases s.mark? id with _ | ⟨_ | _⟩ <;> simp [Mark.stage]

theorem push (h : m.Shows s) (label : Option String) : (m.push label).Shows s :=
  ⟨h.names_eq, h.log_eq, h.stage?_eq, h.cached?_eq⟩

theorem pop (h : m.Shows s) (label : Option String) : (m.pop label).Shows s := by
  cases label with
  | none => exact h
  | some label => exact ⟨h.names_eq, h.log_eq, h.stage?_eq, h.cached?_eq⟩

theorem enter (h : m.Shows s) (hid : s.mark? id = none) :
    (m.enter id).Shows (s.setMark id .resolving) := by
  refine ⟨h.names_eq, h.log_eq, fun other => ?_, fun other => ?_⟩
  · rw [stage?_enter, Session.mark?_setMark, h.stage?_eq]
    split <;> rfl
  · show m.cached? other = _
    rw [h.cached?_eq, Session.mark?_setMark]
    split
    · next ho => rw [ho, hid]; rfl
    · rfl

theorem finish (h : m.Shows s) (id : Int) (schema : Schema) :
    (m.finish id schema).Shows (s.setMark id (.resolved schema)) := by
  refine ⟨h.names_eq, h.log_eq, fun other => ?_, fun other => ?_⟩
  · show Table.get? other (m.stages.put id .resolved) = _
    rw [Table.get?_put, Session.mark?_setMark, ← stage?, h.stage?_eq]
    split <;> rfl
  · show Table.get? other (m.cache.put id schema) = _
    rw [Table.get?_put, Session.mark?_setMark, ← cached?, h.cached?_eq]
    split <;> rfl

/-- Nothing is cached for a node that is being resolved, so only its stage has to go. -/
theorem abandon (h : m.Shows s) (hid : s.mark? id = some .resolving) :
    (m.abandon id).Shows (s.unmark id) := by
  refine ⟨h.names_eq, h.log_eq, fun other => ?_, fun other => ?_⟩
  · rw [stage?_abandon, Session.mark?_unmark, h.stage?_eq]
    split <;> rfl
  · show m.cached? other = _
    rw [h.cached?_eq, Session.mark?_unmark]
    split
    · next ho => rw [ho, hid]; rfl
    · rfl

theorem declare (h : m.Shows s) (subject : Subject) : (m.declare subject).Shows (s.declare subject) := by
  have hname := h.name?_eq subject.node.id
  unfold Machine.declare Session.declare
  rw [hname]
  cases s.name? subject.node.id with
  | some _ => exact h
  | none =>
    refine ⟨?_, h.log_eq, h.stage?_eq, h.cached?_eq⟩
    show m.names.put _ _ = s.names.put _ _
    rw [h.names_eq]

theorem cut (h : m.Shows s) (settings : ResolverSettings) (n : Node) :
    m.cut settings n = (.ok (Resolve.cutSchema settings n (s.name? n.id)), (m.cut settings n).2) ∧
      (m.cut settings n).2.Shows (s.report (.cycleCut m.place (Resolve.cutName n (s.name? n.id)))) := by
  rw [Machine.cut, h.name?_eq]
  refine ⟨rfl, h.names_eq, ?_, h.stage?_eq, h.cached?_eq⟩
  show m.log ++ _ = s.log ++ _
  rw [h.log_eq]

end Shows

/-! ### A resolution step by step -/

variable {g : Graph} {settings : ResolverSettings} {levels calls : Nat} {n : Node}

/-- How a call leaves a node of this plan. -/
def leave (n : Node) (p : Plan) : Except Raised (List Schema) × Machine → Except Raised Schema × Machine
  | (.ok schemas, m) => (.ok (p.assemble schemas), m.finish n.id (p.assemble schemas))
  | (.error raised, m) => (.error raised, m.abandon n.id)

theorem resolve_of_deep (hstage : m.stage? n.id = none) (hdepth : settings.maxDepth ≤ m.depth) (calls : Nat) :
    resolve g settings calls n m = some (.error ⟨⟨.depthExceeded settings.maxDepth, m.place⟩, m⟩, m) := by
  rw [resolve.eq_def, hstage]
  dsimp only
  rw [if_pos hdepth]
  rfl

theorem resolve_of_full (hstage : m.stage? n.id = none) (hdepth : m.depth < settings.maxDepth)
    (hfull : settings.stackRoom ≤ m.depth) (calls : Nat) :
    resolve g settings calls n m = some (m.exhaust n.id) := by
  rw [resolve.eq_def, hstage]
  dsimp only
  rw [if_neg (Nat.not_le.2 hdepth), if_pos hfull]

/-- Where a level is left, a call does what the plan of its node says. -/
theorem resolve_of_lt (hstage : m.stage? n.id = none) (hdepth : m.depth < settings.levels) (calls : Nat) :
    resolve g settings calls n m =
      match calls with
      | 0 => none
      | calls + 1 =>
        match g.plan settings n with
        | .error cause =>
          some (.error ⟨⟨cause, m.place⟩, m.enter n.id⟩, (m.enter n.id).abandon n.id)
        | .ok p => (along (resolve g settings calls) p.edges (m.enter n.id)).map (leave n p) := by
  rw [resolve.eq_def, hstage]
  dsimp only
  obtain ⟨hceiling, hroom⟩ := Nat.lt_min.1 hdepth
  rw [if_neg (Nat.not_le.2 hceiling), if_neg (Nat.not_le.2 hroom)]
  cases calls with
  | zero => rfl
  | succ calls =>
    cases g.plan settings n with
    | error cause => rfl
    | ok p =>
      dsimp only
      rcases along (resolve g settings calls) p.edges (m.enter n.id) with _ | ⟨_ | _, m₁⟩ <;> rfl

/-! ### Resolutions -/

/-- The machine ends as the session does, with what it changed put back and nothing left of what was
being resolved when a failure arose. -/
def Matches {α : Type} (m : Machine) (x : Option (Except Raised α × Machine))
    (y : Except Failure α × Session) : Prop :=
  ∃ result m', x = some (result, m') ∧ result.mapError Raised.failure = y.1 ∧ m'.Shows y.2 ∧
    m.Restored m' ∧ ∀ raised, result = .error raised → ∀ id,
      raised.origin.stage? id = some .resolving → m'.stage? id = none ∨ m.stage? id = some .resolving

theorem matches_raise {α : Type} (hm : m.Shows s) (cause : Cause) :
    m.Matches (some (m.raise cause)) ((.error ⟨cause, m.place⟩, s) : Except Failure α × Session) :=
  ⟨_, m, rfl, rfl, hm, .refl m, fun _ hr _ hid => by cases hr; exact .inr hid⟩

/-- Where no level is left, the ceiling keeps the node out, or it is given up as soon as it is entered. -/
theorem matches_no_level {n : Node} (hm : m.Shows s) (hmark : s.mark? n.id = none)
    (hdepth : m.depth = settings.levels) :
    m.Matches (resolve g settings calls n m)
      ((.error ⟨.depthExceeded settings.limit, m.place⟩, s) : Except Failure Schema × Session) := by
  have hstage : m.stage? n.id = none := by rw [hm.stage?_eq, hmark]; rfl
  rw [ResolverSettings.limit]
  rw [ResolverSettings.levels] at hdepth
  split
  · rw [resolve_of_deep hstage (by omega)]
    exact matches_raise hm _
  · have hroom : m.depth = settings.stackRoom := by omega
    rw [resolve_of_full hstage (by omega) (by omega), ← hroom]
    have hself : (s.setMark n.id .resolving).mark? n.id = some .resolving := by simp
    have habandon := (hm.enter hmark).abandon hself
    rw [Session.unmark_setMark hmark] at habandon
    refine ⟨_, _, rfl, rfl, habandon, Restored.abandon (.refl _), fun _ hr id hid => ?_⟩
    cases hr
    exact stage?_abandon_of_enter (.inr hid)

theorem matches_along {visit : Node → Machine → Option (Except Raised Schema × Machine)}
    (hvisit : ∀ (m : Machine) s n, m.Shows s → m.depth + levels = settings.levels →
      m.Matches (visit n m) (Resolve.exec (Resolve.resolve g settings levels m.place n) s))
    (es : List Edge) (hm : m.Shows s) (hdepth : m.depth + levels = settings.levels) :
    m.Matches (along visit es m) (Resolve.exec (Resolve.along g settings levels m.place es) s) := by
  induction es generalizing m s with
  | nil =>
    rw [along]
    exact ⟨_, m, rfl, rfl, hm, .refl m, fun _ hr => by cases hr⟩
  | cons e es ih =>
    obtain ⟨result, m₁, hrun, hresult, hm₁, hback₁, hout₁⟩ := hvisit (m.push e.label) s e.target
      (hm.push e.label) hdepth
    have hw := walk_of_resolve g settings levels (m.place.under e.label) e.target s
    rw [place_push] at hresult hm₁
    rw [along, Resolve.exec_along_cons, hrun]
    rcases hx : Resolve.exec (Resolve.resolve g settings levels (m.place.under e.label) e.target) s
      with ⟨r, s₁⟩
    rw [hx] at hresult hm₁ hw
    have hm₁ := hm₁.pop e.label
    have hback₁ := hback₁.pop
    cases result with
    | error raised =>
      obtain rfl : Except.error raised.failure = r := hresult
      refine ⟨_, _, rfl, rfl, hm₁, hback₁, fun _ hr id hid => ?_⟩
      cases hr
      rw [stage?_pop]
      exact hout₁ raised rfl id hid
    | ok schema =>
      obtain rfl : Except.ok schema = r := hresult
      obtain ⟨result, m₂, hrun₂, hresult₂, hm₂, hback₂, hout₂⟩ := ih hm₁
        (by rw [hback₁.depth]; exact hdepth)
      have hplace : (m₁.pop e.label).place = m.place := by
        rw [place, hback₁.declaration, hback₁.path]
        rfl
      rw [hplace] at hresult₂ hm₂
      refine ⟨result.map (schema :: ·), m₂, ?_, ?_, hm₂, hback₁.trans hback₂, fun raised hr id hid => ?_⟩
      · simp [hrun₂]
      · show _ = (Resolve.exec (Resolve.along g settings levels m.place es) s₁).1.map (schema :: ·)
        rw [← hresult₂]
        cases result <;> rfl
      · refine (hout₂ raised (map_eq_error_iff.1 hr) id hid).imp_right fun h => ?_
        rw [hm₁.stage?_eq_resolving_iff, hw.resolving_iff] at h
        exact (hm.stage?_eq_resolving_iff id).2 h

theorem matches_answer {mark : Mark} (hm : m.Shows s) (hmark : s.mark? n.id = some mark)
    (enter : Except Failure Schema × Session) :
    m.Matches (resolve g settings calls n m) (Resolve.answer settings m.place n s enter) := by
  have hstage := hm.stage?_eq n.id
  have hcached := hm.cached?_eq n.id
  rw [hmark] at hstage hcached
  rw [resolve.eq_def, hstage, hcached, Resolve.answer, hmark]
  cases mark with
  | resolving =>
    obtain ⟨hcut, hshows⟩ := hm.cut settings n
    refine ⟨_, _, congrArg some hcut, rfl, hshows, ⟨rfl, rfl, rfl⟩, fun _ hr => by cases hr⟩
  | resolved schema =>
    exact ⟨_, m, rfl, rfl, hm, .refl m, fun _ hr => by cases hr⟩

/-- What was found below a node that was entered decides how the node is left. -/
theorem matches_leave (p : Plan) (x : Option (Except Raised (List Schema) × Machine))
    (y : Except Failure (List Schema) × Session) :
    (m.enter n.id).Matches x y → y.2.mark? n.id = some .resolving → m.Matches (x.map (leave n p))
      (match y with
        | (.ok schemas, s) => (.ok (p.assemble schemas), s.setMark n.id (.resolved (p.assemble schemas)))
        | (.error f, s) => (.error f, s.unmark n.id)) := by
  intro h hself
  obtain ⟨result, m₁, rfl, hresult, hm₁, hback, hout⟩ := h
  obtain ⟨r, s₁⟩ := y
  cases result with
  | error raised =>
    obtain rfl : Except.error raised.failure = r := hresult
    refine ⟨_, _, rfl, rfl, hm₁.abandon hself, hback.abandon, fun _ hr id hid => ?_⟩
    cases hr
    exact stage?_abandon_of_enter (hout raised rfl id hid)
  | ok schemas =>
    obtain rfl : Except.ok schemas = r := hresult
    exact ⟨_, _, rfl, rfl, hm₁.finish n.id _, hback.finish _, fun _ hr => by cases hr⟩

theorem matches_resolve (g : Graph) (settings : ResolverSettings) (levels : Nat) (n : Node) (hm : m.Shows s)
    (hdepth : m.depth + levels = settings.levels) :
    m.Matches (resolve g settings levels n m)
      (Resolve.exec (Resolve.resolve g settings levels m.place n) s) := by
  -- the depth and the levels that are left add up to the same all the way down
  induction levels generalizing m s n with
  | zero =>
    rw [Resolve.exec_resolve_zero]
    rcases hmark : s.mark? n.id with _ | mark
    · rw [Resolve.answer, hmark]
      exact matches_no_level hm hmark (by omega)
    · exact matches_answer hm hmark _
  | succ levels ih =>
    rw [Resolve.exec_resolve_succ]
    rcases hmark : s.mark? n.id with _ | mark
    · have hstage : m.stage? n.id = none := by rw [hm.stage?_eq, hmark]; rfl
      rw [resolve_of_lt hstage (by omega), Resolve.answer, hmark]
      dsimp only
      have henter := hm.enter hmark
      cases hp : g.plan settings n with
      | error cause =>
        refine ⟨_, _, rfl, rfl, henter.abandon (by simp), Restored.abandon (.refl _), fun _ hr id hid => ?_⟩
        cases hr
        exact stage?_abandon_of_enter (.inr hid)
      | ok plan =>
        have hbelow := matches_along (fun m s n hm => ih n hm) plan.edges henter
          (show m.depth + 1 + levels = settings.levels by omega)
        have hw := walk_of_exec g settings levels m.place plan.edges (s.setMark n.id .resolving)
        -- the walk below took no mark off, so the node still has its own
        exact matches_leave plan _ _ hbelow ((hw.resolving_iff n.id).2 (by simp))
    · exact matches_answer hm hmark _

end Machine

end TypeSchema
