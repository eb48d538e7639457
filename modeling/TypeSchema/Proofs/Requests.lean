import TypeSchema.Proofs.Isolation
import TypeSchema.Proofs.Machine

/-!
# Between requests

A machine that answers one request after the other is at rest between them, whatever they were and
however they ended, and takes back neither a schema nor a name. `Machine.Rests` ties it to a session
that holds nothing but whole results; `Rests.answer` is what one request keeps, `rests_after` what all
of them keep.
-/

namespace TypeSchema

/-! ### Sessions -/

namespace Session

variable {g : Graph} {settings : ResolverSettings} {s s' s'' : Session} {q : Request}

/-- What is resolved is a node of the graph, and it has a plan. -/
def Planned (g : Graph) (settings : ResolverSettings) (s : Session) : Prop :=
  ∀ id, s.IsResolved id → ∃ n ∈ g.nodes, n.id = id ∧ ∃ p, g.plan settings n = .ok p

/-- Neither a schema nor a name is taken back. -/
structure Keeps (s s' : Session) : Prop where
  resolved : ∀ id schema, s.mark? id = some (.resolved schema) → s'.mark? id = some (.resolved schema)
  name : ∀ id name, s.name? id = some name → s'.name? id = some name

theorem Keeps.refl (s : Session) : s.Keeps s := ⟨fun _ _ h => h, fun _ _ h => h⟩

theorem Keeps.trans (h : s.Keeps s') (h' : s'.Keeps s'') : s.Keeps s'' :=
  ⟨fun id schema hm => h'.resolved id schema (h.resolved id schema hm),
    fun id name hn => h'.name id name (h.name id name hn)⟩

theorem keeps_declareAll (subjects : List Subject) (s : Session) : s.Keeps (s.declareAll subjects) := by
  refine ⟨fun id schema h => ?_, fun id name h => ?_⟩
  · rw [mark?_declareAll]
    exact h
  · rw [name?_declareAll, h]
    rfl

theorem keeps_resolve (levels : Nat) (place : Place) (n : Node) (s : Session) :
    s.Keeps (Resolve.exec (Resolve.resolve g settings levels place n) s).2 := by
  have hw := walk_of_resolve g settings levels place n s
  exact ⟨fun _ _ h => hw.resolved_of_resolved h, fun id _ h => (hw.name?_eq id).trans h⟩

theorem replying_eq (x : Run Schema) (s : Session) :
    replying x s = ((Resolve.exec x s).1.map .schema, (Resolve.exec x s).2) := by
  unfold replying Resolve.exec
  cases x.run s <;> rfl

theorem keeps_answer (q : Request) (s : Session) : s.Keeps (s.answer g settings q).2 := by
  cases q with
  | node n =>
    rw [answer, replying_eq]
    exact keeps_resolve ..
  | shape n => exact .refl s
  | declare subjects => exact keeps_declareAll subjects s
  | subject D =>
    rw [answer, replying_eq]
    exact (keeps_declareAll [D] s).trans (keeps_resolve ..)

theorem keeps_after (requests : List Request) (s : Session) : s.Keeps (s.after g settings requests) := by
  induction requests generalizing s with
  | nil => exact .refl s
  | cons q rest ih => exact (keeps_answer q s).trans (ih _)

/-- What declarations and resolutions keep is kept by every request. -/
theorem answer_keeps {I : Session → Prop} (hdeclare : ∀ s subjects, I s → I (s.declareAll subjects))
    (hresolve : ∀ s place n, n ∈ g.nodes → I s →
      I (Resolve.exec (Resolve.resolve g settings settings.levels place n) s).2)
    (hq : q.Within g) (h : I s) : I (s.answer g settings q).2 := by
  cases q with
  | node n =>
    rw [answer, replying_eq]
    exact hresolve s _ n (hq n rfl) h
  | shape n => exact h
  | declare subjects => exact hdeclare s subjects h
  | subject D =>
    rw [answer, replying_eq]
    exact hresolve _ _ D.node (hq D.node rfl) (hdeclare s [D] h)

theorem after_keeps {I : Session → Prop} (hdeclare : ∀ s subjects, I s → I (s.declareAll subjects))
    (hresolve : ∀ s place n, n ∈ g.nodes → I s →
      I (Resolve.exec (Resolve.resolve g settings settings.levels place n) s).2)
    {requests : List Request} (hreq : ∀ q ∈ requests, q.Within g) (h : I s) :
    I (s.after g settings requests) := by
  induction requests generalizing s with
  | nil => exact h
  | cons q rest ih =>
    obtain ⟨hq, hrest⟩ := List.forall_mem_cons.1 hreq
    exact ih hrest (answer_keeps hdeclare hresolve hq h)

theorem Planned.congr (h : s.Planned g settings) (hm : ∀ id, s'.mark? id = s.mark? id) :
    s'.Planned g settings :=
  fun id ⟨schema, hid⟩ => h id ⟨schema, (hm id).symm.trans hid⟩

end Session

theorem Walk.planned {g : Graph} {settings : ResolverSettings} {levels : Nat} {place : Place}
    {es : List Edge} {s s' : Session} {r : Except Failure (List Schema)}
    (h : Walk g settings levels place es s r s') (hs : s.Planned g settings)
    (hes : ∀ e ∈ es, e.target ∈ g.nodes) : s'.Planned g settings := by
  induction h with
  | nil | deep | fault => exact hs
  | cached _ _ ih | cut _ _ ih => exact ih hs (List.forall_mem_cons.1 hes).2
  | failed _ hp _ ih =>
    exact fun id hid => ih (fun id hid => hs id hid.of_setMark_resolving)
      (Graph.mem_nodes_of_mem_edges hp) id hid.of_unmark
  | done _ hp _ _ ih₁ ih₂ =>
    obtain ⟨ht, hes⟩ := List.forall_mem_cons.1 hes
    have hbelow := ih₁ (fun id hid => hs id hid.of_setMark_resolving) (Graph.mem_nodes_of_mem_edges hp)
    refine ih₂ (fun id hid => ?_) hes
    rcases hid.of_setMark with hid | rfl
    · exact hbelow id hid
    · exact ⟨_, ht, rfl, _, hp⟩

namespace Resolve

variable {g : Graph} {settings : ResolverSettings} {levels : Nat} {place : Place} {n : Node}
  {s : Session} {f : Failure}

/-- A node that is not being resolved and fails has no mark, neither before nor after. -/
theorem mark?_of_resolve_error (h : (exec (resolve g settings levels place n) s).1 = .error f) :
    (exec (resolve g settings levels place n) s).2.mark? n.id = none := by
  cases levels with
  | zero =>
    rw [exec_resolve_zero, answer] at h ⊢
    split at h
    · cases h
    · cases h
    · next hm => exact hm
  | succ levels =>
    rw [exec_resolve_succ, answer] at h ⊢
    split at h
    · cases h
    · cases h
    · split
      · simp
      · next plan _ =>
        rcases hx : exec (along g settings levels place plan.edges) (s.setMark n.id .resolving) with
          ⟨_ | schemas, s'⟩
        · simp
        · simp_all

end Resolve

namespace Machine

variable {g : Graph} {settings : ResolverSettings} {m m' : Machine} {s s' : Session} {q : Request}

/-! ### Machines between requests -/

/-- Nothing is being resolved, schemas are kept for what is resolved and for nothing else, and the
machine stands nowhere. -/
structure AtRest (m : Machine) : Prop where
  stage?_ne_resolving : ∀ id, m.stage? id ≠ some .resolving
  isSome_cached?_iff : ∀ id, (m.cached? id).isSome ↔ m.stage? id = some .resolved
  declaration : m.declaration = none
  path : m.path = []
  depth : m.depth = 0

/-- What is resolved stays resolved to its schema, and what is named keeps its name. -/
structure Keeps (m m' : Machine) : Prop where
  stage? : ∀ id, m.stage? id = some .resolved → m'.stage? id = some .resolved
  cached? : ∀ id schema, m.cached? id = some schema → m'.cached? id = some schema
  name? : ∀ id name, m.name? id = some name → m'.name? id = some name

/-- The machine stands nowhere and shows a session that holds nothing but whole results. -/
structure Rests (g : Graph) (settings : ResolverSettings) (s : Session) (m : Machine) : Prop where
  shows : m.Shows s
  stacked : s.Stacked g []
  planned : s.Planned g settings
  declaration : m.declaration = none
  path : m.path = []
  depth : m.depth = 0

theorem Shows.cached?_eq_some_iff (h : m.Shows s) {id : Int} {schema : Schema} :
    m.cached? id = some schema ↔ s.mark? id = some (.resolved schema) := by
  rw [h.cached?_eq]
  rcases s.mark? id with _ | ⟨_ | _⟩ <;> simp [Mark.schema?]

theorem Shows.stage?_eq_resolved_iff (h : m.Shows s) {id : Int} :
    m.stage? id = some .resolved ↔ s.IsResolved id := by
  rw [h.stage?_eq, Session.IsResolved]
  rcases s.mark? id with _ | ⟨_ | _⟩ <;> simp [Mark.stage]

theorem Shows.keeps (h : m.Shows s) (h' : m'.Shows s') (hk : s.Keeps s') : m.Keeps m' := by
  refine ⟨fun id hid => ?_, fun id schema hid => ?_, fun id name hid => ?_⟩
  · obtain ⟨schema, hid⟩ := h.stage?_eq_resolved_iff.1 hid
    exact h'.stage?_eq_resolved_iff.2 ⟨schema, hk.resolved id schema hid⟩
  · exact h'.cached?_eq_some_iff.2 (hk.resolved id schema (h.cached?_eq_some_iff.1 hid))
  · rw [h'.name?_eq]
    exact hk.name id name ((h.name?_eq id).symm.trans hid)

theorem Shows.declareAll (h : m.Shows s) (subjects : List Subject) :
    (subjects.foldl (fun m subject => m.declare subject) m).Shows (s.declareAll subjects) := by
  induction subjects generalizing m s with
  | nil => exact h
  | cons subject rest ih => exact ih (h.declare subject)

theorem Restored.declare (subject : Subject) (m : Machine) : m.Restored (m.declare subject) := by
  unfold Machine.declare
  split <;> exact ⟨rfl, rfl, rfl⟩

theorem stage?_declare (subject : Subject) (id : Int) (m : Machine) :
    (m.declare subject).stage? id = m.stage? id := by
  unfold Machine.declare
  split <;> rfl

theorem cached?_declare (subject : Subject) (id : Int) (m : Machine) :
    (m.declare subject).cached? id = m.cached? id := by
  unfold Machine.declare
  split <;> rfl

theorem Restored.declareAll (subjects : List Subject) (m : Machine) :
    m.Restored (subjects.foldl (fun m subject => m.declare subject) m) := by
  induction subjects generalizing m with
  | nil => exact .refl m
  | cons subject rest ih => exact (Restored.declare subject m).trans (ih _)

/-- Nothing is left of the node that was asked for, nor of what was being resolved when the failure
arose. -/
def Forgets (m : Machine) (q : Request) (raised : Raised) : Prop :=
  (∀ n ∈ q.target?, m.stage? n.id = none) ∧
    ∀ id, raised.origin.stage? id = some .resolving → m.stage? id = none

theorem setDeclaration_eq_self (h : m.declaration = none) : { m with declaration := none } = m := by
  rw [← h]

/-- A node without a shape has no plan, so it is not resolved. -/
theorem stage?_of_shapeOf_error (h : m.Shows s) (hs : s.Stacked g []) (hp : s.Planned g settings)
    (hg : g.Closed) {n : Node} (hn : n ∈ g.nodes) {cause : Cause} (hshape : g.shapeOf n = .error cause) :
    m.stage? n.id = none := by
  rcases hm : s.mark? n.id with _ | mark
  · rw [h.stage?_eq, hm]
    rfl
  · obtain ⟨k, hk, hid, p, hplan⟩ := hp n.id ((hs.isMarked_iff n.id).1 (Session.isMarked_of_mark? hm))
    obtain rfl := hg.eq_of_id_eq hk hn hid
    rw [Graph.plan, hshape] at hplan
    cases hplan

namespace Rests

theorem empty (g : Graph) (settings : ResolverSettings) : ({} : Machine).Rests g settings {} :=
  ⟨⟨rfl, rfl, fun _ => rfl, fun _ => rfl⟩, Resolve.stacked_empty, fun _ h => absurd h (by simp [Session.IsResolved]),
    rfl, rfl, rfl⟩

theorem atRest (h : m.Rests g settings s) : m.AtRest := by
  refine ⟨fun id hid => ?_, fun id => ?_, h.declaration, h.path, h.depth⟩
  · exact h.stacked.mark?_ne_resolving id ((h.shows.stage?_eq_resolving_iff id).1 hid)
  · rw [h.shows.stage?_eq_resolved_iff, Option.isSome_iff_exists]
    exact exists_congr fun schema => h.shows.cached?_eq_some_iff

theorem declareAll (h : m.Rests g settings s) (subjects : List Subject) :
    (subjects.foldl (fun m subject => m.declare subject) m).Rests g settings (s.declareAll subjects) := by
  have hback := Restored.declareAll subjects m
  have hmark := fun id => Session.mark?_declareAll subjects id s
  exact ⟨h.shows.declareAll subjects, h.stacked.congr hmark, h.planned.congr hmark,
    hback.declaration.trans h.declaration, hback.path.trans h.path, hback.depth.trans h.depth⟩

/-- One resolution, for a declaration or for none. -/
theorem resolve (h : m.Rests g settings s) {n : Node} (hn : n ∈ g.nodes) (declaration : Option String) :
    ∃ result m', Machine.resolve g settings settings.levels n { m with declaration } = some (result, m') ∧
      (result.map Reply.schema).mapError Raised.failure =
        (Session.replying (Resolve.resolve g settings settings.levels ⟨declaration, []⟩ n) s).1 ∧
      { m' with declaration := none }.Rests g settings
        (Session.replying (Resolve.resolve g settings settings.levels ⟨declaration, []⟩ n) s).2 ∧
      m'.declaration = declaration ∧
      ∀ raised, result = .error raised → m'.Forgets (.node n) raised := by
  have htop : { m with declaration }.Shows s :=
    ⟨h.shows.names_eq, h.shows.log_eq, h.shows.stage?_eq, h.shows.cached?_eq⟩
  obtain ⟨result, m', hrun, hresult, hshows, hback, hout⟩ := matches_resolve g settings
    settings.levels n htop (by simp [h.depth])
  have hplace : { m with declaration }.place = ⟨declaration, []⟩ := by rw [place, h.path]
  rw [hplace] at hresult hshows
  have hw := walk_of_resolve g settings settings.levels ⟨declaration, []⟩ n s
  simp only [Session.replying_eq]
  refine ⟨result, m', hrun, ?_, ⟨⟨hshows.names_eq, hshows.log_eq, hshows.stage?_eq, hshows.cached?_eq⟩,
    hw.stacked h.stacked, hw.planned h.planned (by simpa using hn), rfl, hback.path.trans h.path,
    hback.depth.trans h.depth⟩, hback.declaration, fun raised hr => ⟨fun k hk => ?_, fun id hid => ?_⟩⟩
  · rw [mapError_map, hresult]
  · cases hk
    rw [hr] at hresult
    rw [hshows.stage?_eq, Resolve.mark?_of_resolve_error hresult.symm]
    rfl
  · -- at rest nothing was being resolved before, so all of it began here
    refine (hout raised hr id hid).resolve_right fun hbefore => ?_
    exact h.atRest.stage?_ne_resolving id hbefore

theorem answer (hg : g.Closed) (h : m.Rests g settings s) (hq : q.Within g) :
    ∃ result m', m.answer g settings q = some (result, m') ∧
      result.mapError Raised.failure = (s.answer g settings q).1 ∧
      m'.Rests g settings (s.answer g settings q).2 ∧
      ∀ raised, result = .error raised → m'.Forgets q raised := by
  cases q with
  | node n =>
    obtain ⟨result, m', hrun, hresult, hrests, hnone, hforgets⟩ := h.resolve (hq n rfl) none
    rw [setDeclaration_eq_self h.declaration] at hrun
    rw [setDeclaration_eq_self hnone] at hrests
    refine ⟨result.map .schema, m', ?_, hresult, hrests, fun raised hr => ?_⟩
    · rw [Machine.answer, hrun]
      rfl
    · exact hforgets raised (map_eq_error_iff.1 hr)
  | shape n =>
    rw [Machine.answer, Session.answer, Resolve.shape]
    cases hshape : g.shapeOf n with
    | ok shape => exact ⟨_, m, rfl, rfl, h, fun _ hr => by cases hr⟩
    | error cause =>
      have hplace : m.place = .nowhere := by rw [place, h.declaration, h.path]; rfl
      refine ⟨_, m, rfl, ?_, h, fun raised hr => ?_⟩
      · show Except.error (Failure.mk cause m.place) = _
        rw [hplace]
        rfl
      cases hr
      refine ⟨fun k hk => ?_, fun id hid => absurd hid (h.atRest.stage?_ne_resolving id)⟩
      cases hk
      exact stage?_of_shapeOf_error h.shows h.stacked h.planned hg (hq n rfl) hshape
  | declare subjects => exact ⟨_, _, rfl, rfl, h.declareAll subjects, fun _ hr => by cases hr⟩
  | subject D =>
    have hdeclared := h.declareAll [D]
    obtain ⟨result, m', hrun, hresult, hrests, -, hforgets⟩ := hdeclared.resolve (hq D.node rfl) (some D.name)
    have htop : { m.declare D with declaration := some D.name, path := [], depth := 0 } =
        { m.declare D with declaration := some D.name } := by
      rw [← show (m.declare D).path = [] from hdeclared.path,
        ← show (m.declare D).depth = 0 from hdeclared.depth]
    refine ⟨result.map .schema, { m' with declaration := none }, ?_, hresult, hrests, fun raised hr => ?_⟩
    · rw [Machine.answer, htop]
      exact congrArg (Option.bind · _) hrun
    · exact hforgets raised (map_eq_error_iff.1 hr)

end Rests

/-! ### Runs over requests -/

theorem rests_after (hg : g.Closed) (h : m.Rests g settings s) {requests : List Request}
    (hreq : ∀ q ∈ requests, q.Within g) :
    ∃ m', after g settings requests m = some m' ∧ m'.Rests g settings (s.after g settings requests) := by
  induction requests generalizing m s with
  | nil => exact ⟨m, rfl, h⟩
  | cons q rest ih =>
    obtain ⟨hq, hrest⟩ := List.forall_mem_cons.1 hreq
    obtain ⟨result, m₁, hanswer, -, h₁, -⟩ := h.answer hg hq
    obtain ⟨m', hafter, h'⟩ := ih h₁ hrest
    refine ⟨m', ?_, h'⟩
    rw [after, List.foldlM_cons, hanswer]
    exact hafter

theorem resolve_of_cached? {n : Node} {schema : Schema} (hstage : m.stage? n.id = some .resolved)
    (hc : m.cached? n.id = some schema) (calls : Nat) :
    resolve g settings calls n m = some (.ok schema, m) := by
  rw [resolve.eq_def, hstage, hc]

theorem answer_node_of_cached? (h : m.AtRest) {n : Node} {schema : Schema}
    (hc : m.cached? n.id = some schema) :
    m.answer g settings (.node n) = some (.ok (.schema schema), m) := by
  have hstage : m.stage? n.id = some .resolved := (h.isSome_cached?_iff n.id).1 (by rw [hc]; rfl)
  rw [answer, resolve_of_cached? hstage hc _]
  rfl

theorem answer_subject_of_cached? (h : m.AtRest) {D : Subject} {schema : Schema}
    (hc : m.cached? D.node.id = some schema) :
    m.answer g settings (.subject D) = some (.ok (.schema schema), m.declare D) := by
  have hstage : m.stage? D.node.id = some .resolved :=
    (h.isSome_cached?_iff D.node.id).1 (by rw [hc]; rfl)
  have hrun : resolve g settings settings.levels D.node
      { m.declare D with declaration := some D.name, path := [], depth := 0 } =
        some (.ok schema, { m.declare D with declaration := some D.name, path := [], depth := 0 }) := by
    refine resolve_of_cached? ?_ ?_ _
    · exact (stage?_declare D D.node.id m).trans hstage
    · exact (cached?_declare D D.node.id m).trans hc
  have hback := Restored.declare D m
  have hrest : { m.declare D with declaration := none, path := [], depth := 0 } = m.declare D := by
    rw [← hback.declaration.trans h.declaration, ← hback.path.trans h.path,
      ← hback.depth.trans h.depth]
  rw [answer, ← hrest]
  exact congrArg (Option.bind · _) hrun

/-- Between requests, whatever they are and however they end, the machine is at rest; later ones take
back neither a schema nor a name, a node that is resolved is answered from the cache and changes
nothing, and a request that fails leaves nothing of what it had begun. -/
theorem after_atRest (hg : g.Closed) (settings : ResolverSettings) {before later : List Request}
    (hbefore : ∀ q ∈ before, q.Within g) (hlater : ∀ q ∈ later, q.Within g) :
    ∃ m m', after g settings before {} = some m ∧ after g settings later m = some m' ∧
      m'.AtRest ∧ m.Keeps m' ∧
      (∀ n schema, m.cached? n.id = some schema →
        m'.answer g settings (.node n) = some (.ok (.schema schema), m')) ∧
      (∀ D schema, m.cached? D.node.id = some schema →
        m'.answer g settings (.subject D) = some (.ok (.schema schema), m'.declare D)) ∧
      ∀ q, q.Within g → ∃ result m'', m'.answer g settings q = some (result, m'') ∧ m''.AtRest ∧
        ∀ raised, result = .error raised → m''.Forgets q raised := by
  obtain ⟨m, hm, hrests⟩ := rests_after hg (Rests.empty g settings) hbefore
  obtain ⟨m', hm', hrests'⟩ := rests_after hg hrests hlater
  have hkeeps : m.Keeps m' := hrests.shows.keeps hrests'.shows (Session.keeps_after later _)
  refine ⟨m, m', hm, hm', hrests'.atRest, hkeeps, fun n schema hc => ?_, fun D schema hc => ?_,
    fun q hq => ?_⟩
  · exact answer_node_of_cached? hrests'.atRest (hkeeps.cached? n.id schema hc)
  · exact answer_subject_of_cached? hrests'.atRest (hkeeps.cached? D.node.id schema hc)
  · obtain ⟨result, m'', hanswer, -, hrests'', hforgets⟩ := hrests'.answer hg hq
    exact ⟨result, m'', hanswer, hrests''.atRest, hforgets⟩

/-- The parent fails each time it is asked for, and is left unvisited; the child stays resolved. -/
theorem family_atRest :
    ∃ m m' raised m'', after Graph.family {} [.subject .parent, .shape .parent] {} = some m ∧
      after Graph.family {} [.node .parent, .declare [.child]] m = some m' ∧ m.Keeps m' ∧
      m'.answer Graph.family {} (.subject .parent) = some (.error raised, m'') ∧ m''.AtRest ∧
      m''.stage? 1 = none := by
  have hbefore : ∀ q ∈ [Request.subject .parent, .shape .parent], q.Within Graph.family := by
    simp [Request.Within, Request.target?]
    decide
  have hlater : ∀ q ∈ [Request.node .parent, .declare [.child]], q.Within Graph.family := by
    simp [Request.Within, Request.target?]
    decide
  have hparent : (Request.subject .parent).Within Graph.family := hbefore _ (List.mem_cons_self ..)
  obtain ⟨m, m', hm, hm', -, hkeeps, -, -, hanswer⟩ :=
    after_atRest Graph.closed_family {} hbefore hlater
  obtain ⟨result, m'', hrun, hrest, hforgets⟩ := hanswer _ hparent
  -- the session that the machine shows says that the request fails
  obtain ⟨k, hk, hrests⟩ := rests_after Graph.closed_family (Rests.empty _ {}) hbefore
  obtain rfl := Option.some.inj (hm.symm.trans hk)
  obtain ⟨k, hk, hrests⟩ := rests_after Graph.closed_family hrests hlater
  obtain rfl := Option.some.inj (hm'.symm.trans hk)
  obtain ⟨_, _, hrun', hresult, -⟩ := hrests.answer Graph.closed_family hparent
  obtain ⟨rfl, rfl⟩ := Prod.mk.inj (Option.some.inj (hrun.symm.trans hrun'))
  cases result with
  | error raised => exact ⟨m, m', raised, m'', hm, hm', hkeeps, hrun, hrest, (hforgets raised rfl).1 _ rfl⟩
  | ok reply =>
    have hok := congrArg Except.isOk hresult
    exact absurd (show true = _ from hok) (by decide)

end Machine

end TypeSchema
