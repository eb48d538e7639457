import TypeSchema.Proofs.Breaches
import TypeSchema.Proofs.Requests

/-!
# What a pass accounts for

A pass that no integer breaks returns one outcome for every declaration that describes data, and
reports every failure and every declaration it skips: `Strict.pass_accounts`. Its outcomes and its
log are those of `Resolve.pass`, where all else is proved.
-/

namespace TypeSchema

/-! ### What a resolution logs, and where it fails -/

/-- The log without the cycles that were cut. -/
def reported (log : List Event) : List Event := log.filter fun event => event.level ≠ .info

theorem reported_concat (log : List Event) (event : Event) :
    reported (log ++ [event]) = reported log ++ reported [event] := by
  simp [reported]

namespace Resolve

variable {g : Graph} {settings : ResolverSettings} {place : Place} {n : Node} {s : Session}

theorem reported_answer {enter : Except Failure Schema × Session}
    (henter : s.mark? n.id = none → reported enter.2.log = reported s.log) :
    reported (answer settings place n s enter).2.log = reported s.log := by
  unfold answer
  split
  · rfl
  · show reported (s.log ++ [_]) = _
    rw [reported_concat]
    exact List.append_nil _
  · next hm => exact henter hm

theorem reported_along {levels : Nat} (place : Place)
    (hresolve : ∀ place n s, reported (exec (resolve g settings levels place n) s).2.log = reported s.log)
    (es : List Edge) (s : Session) :
    reported (exec (along g settings levels place es) s).2.log = reported s.log := by
  induction es generalizing s with
  | nil => rfl
  | cons e es ih =>
    have hfirst := hresolve (place.under e.label) e.target s
    rw [exec_along_cons]
    rcases hx : exec (resolve g settings levels (place.under e.label) e.target) s with ⟨f | schema, s'⟩
    · rw [hx] at hfirst
      exact hfirst
    · rw [hx] at hfirst
      exact (ih s').trans hfirst

/-- All that a resolution logs itself is the cycles it cuts. -/
theorem reported_resolve (levels : Nat) (place : Place) (n : Node) (s : Session) :
    reported (exec (resolve g settings levels place n) s).2.log = reported s.log := by
  induction levels generalizing place n s with
  | zero =>
    rw [exec_resolve_zero]
    exact reported_answer fun _ => rfl
  | succ levels ih =>
    rw [exec_resolve_succ]
    refine reported_answer fun _ => ?_
    cases hp : g.plan settings n with
    | error cause => rfl
    | ok plan =>
      have hbelow := reported_along place ih plan.edges (s.setMark n.id .resolving)
      rcases hx : exec (along g settings levels place plan.edges) (s.setMark n.id .resolving) with
        ⟨f | schemas, s'⟩
      · rw [hx] at hbelow
        simp only [hx]
        exact hbelow
      · rw [hx] at hbelow
        simp only [hx]
        exact hbelow

end Resolve

namespace Failure

/-- The failure is placed in the declaration, and its node is of a shape that its plan can show. -/
structure Tells (declaration : Option String) (f : Failure) : Prop where
  declaration : f.place.declaration = declaration
  not_isDescribed : ¬f.cause.IsDescribed

end Failure

theorem Place.declaration_under (place : Place) (label : Option String) :
    (place.under label).declaration = place.declaration := by
  cases label <;> rfl

/-- A failure is placed in the declaration that is being resolved, and no plan lacks an index. -/
theorem Walk.tells {g : Graph} {settings : ResolverSettings} {levels : Nat} {place : Place}
    {es : List Edge} {s s' : Session} {r : Except Failure (List Schema)}
    (h : Walk g settings levels place es s r s') (hg : g.Closed)
    (hes : ∀ e ∈ es, e.target ∈ g.nodes) {f : Failure} (hr : r = .error f) :
    f.Tells place.declaration := by
  induction h with
  | nil => cases hr
  | cached _ _ ih | cut _ _ ih =>
    exact ih (List.forall_mem_cons.1 hes).2 (map_eq_error_iff.1 hr)
  | deep =>
    cases hr
    refine ⟨Place.declaration_under _ _, ?_⟩
    rintro ⟨words, hw⟩
    cases hw
  | fault _ hp =>
    cases hr
    exact ⟨Place.declaration_under _ _, hg.not_isDescribed (List.forall_mem_cons.1 hes).1 hp⟩
  | failed _ hp _ ih =>
    have hbelow := ih (Graph.mem_nodes_of_mem_edges hp) hr
    rw [Place.declaration_under] at hbelow
    exact hbelow
  | done _ _ _ _ _ ih => exact ih (List.forall_mem_cons.1 hes).2 (map_eq_error_iff.1 hr)

/-! ### Declarations -/

namespace Outcome

/-- The outcome is that of the declaration: one of a schema and a failure, and the failure, if it is
one, is told with the name of the declaration. -/
structure Accounts (D : Subject) (o : Outcome) : Prop where
  name : o.name = D.name
  kind : o.kind = D.kind
  either : o.schema?.isSome ≠ o.failure?.isSome
  failure : ∀ f ∈ o.failure?, f.Tells D.name

end Outcome

/-- What there is to report of declarations with these outcomes, in the order of the declarations:
every one that failed, and every one that describes no data. -/
def reports : List Subject → List Outcome → List Event
  | [], _ => []
  | s :: rest, outcomes =>
    if s.isTranspilable then
      (outcomes.head?.bind fun o => o.failure?.map (.failed o.name)).toList ++
        reports rest outcomes.tail
    else .skipped s.kind s.name :: reports rest outcomes

/-- The outcomes are those of the declarations that describe data, in their order, and the log reports
the others and all that failed. -/
structure Accounts (subjects : List Subject) (outcomes : List Outcome) (log : List Event) : Prop where
  each : List.Forall₂ Outcome.Accounts (subjects.filter Subject.isTranspilable) outcomes
  log : reported log = reports subjects outcomes

namespace Session

theorem log_declare (D : Subject) (s : Session) : (s.declare D).log = s.log := by
  unfold declare
  split <;> rfl

theorem log_declareAll (subjects : List Subject) (s : Session) : (s.declareAll subjects).log = s.log := by
  induction subjects generalizing s with
  | nil => rfl
  | cons D rest ih => exact (ih (s.declare D)).trans (log_declare D s)

end Session

namespace Resolve

variable {g : Graph} {settings : ResolverSettings} {D : Subject} {s : Session}

theorem reported_subject (g : Graph) (settings : ResolverSettings) (D : Subject) (s : Session) :
    reported (exec (subject g settings D) s).2.log = reported s.log := by
  rw [exec_subject, reported_resolve, Session.log_declare]

theorem tells_subject (hg : g.Closed) (hD : D.node ∈ g.nodes) {f : Failure}
    (hf : (exec (subject g settings D) s).1 = .error f) : f.Tells D.name := by
  rw [exec_subject] at hf
  have hw := walk_of_resolve g settings settings.levels (.top D.name) D.node (s.declare D)
  rw [hf] at hw
  exact hw.tells hg (by simpa using hD) rfl

theorem steps_accounts (settings : ResolverSettings) (hg : g.Closed) {subjects : List Subject}
    (hnodes : ∀ D ∈ subjects, D.node ∈ g.nodes) (s : Session) :
    List.Forall₂ Outcome.Accounts (subjects.filter Subject.isTranspilable) (steps g settings subjects s).1 ∧
      reported (steps g settings subjects s).2.log =
        reported s.log ++ reports subjects (steps g settings subjects s).1 := by
  induction subjects generalizing s with
  | nil => exact ⟨.nil, (List.append_nil _).symm⟩
  | cons D rest ih =>
    obtain ⟨hD, hrest⟩ := List.forall_mem_cons.1 hnodes
    by_cases ht : D.isTranspilable
    · have hlog := reported_subject g settings D s
      rw [List.filter_cons_of_pos ht, steps_cons, step_eq_of_isTranspilable ht]
      rcases hx : exec (subject g settings D) s with ⟨f | schema, s'⟩
      · rw [hx] at hlog
        obtain ⟨houtcomes, hreported⟩ := ih hrest (s'.report (.failed D.name f))
        refine ⟨.cons ⟨rfl, rfl, nofun, ?_⟩ houtcomes, ?_⟩
        · rintro _ ⟨⟩
          exact tells_subject hg hD (congrArg Prod.fst hx)
        · rw [reports, if_pos ht]
          show reported (steps g settings rest (s'.report (.failed D.name f))).2.log = _
          rw [hreported, Session.report, reported_concat, hlog, List.append_assoc]
          rfl
      · rw [hx] at hlog
        obtain ⟨houtcomes, hreported⟩ := ih hrest s'
        refine ⟨.cons ⟨rfl, rfl, nofun, nofun⟩ houtcomes, ?_⟩
        rw [reports, if_pos ht]
        show reported (steps g settings rest s').2.log = _
        rw [hreported, hlog]
        rfl
    · rw [List.filter_cons_of_neg ht, steps_cons, step_of_not_isTranspilable ht]
      obtain ⟨houtcomes, hreported⟩ := ih hrest (s.report (.skipped D.kind D.name))
      refine ⟨houtcomes, ?_⟩
      rw [reports, if_neg ht]
      show reported (steps g settings rest (s.report (.skipped D.kind D.name))).2.log = _
      rw [hreported, Session.report, reported_concat, List.append_assoc]
      rfl

theorem accounts_pass (hg : g.Closed) {subjects : List Subject}
    (hnodes : ∀ D ∈ subjects, D.node ∈ g.nodes) :
    Accounts subjects (pass g settings subjects).1 (pass g settings subjects).2.log := by
  obtain ⟨heach, hlog⟩ := steps_accounts settings hg hnodes (named subjects)
  rw [named, Session.log_declareAll] at hlog
  exact ⟨heach, hlog⟩

end Resolve

/-! ### Passes as they run -/

namespace Strict

variable {g : Graph} {settings : ResolverSettings} {D : Subject} {m : Machine} {s : Session}

theorem agrees_subject (settings : ResolverSettings) (hg : g.Closed) (hD : D.node ∈ g.nodes) (hm : m.Shows s)
    (hs : s.Stacked g []) :
    Agrees g settings (subject g settings D m) (Resolve.exec (Resolve.subject g settings D) s) := by
  have hdeclared := hm.declare D
  have htop : { m.declare D with declaration := some D.name, path := [], depth := 0 }.Shows (s.declare D) :=
    ⟨hdeclared.names_eq, hdeclared.log_eq, hdeclared.stage?_eq, hdeclared.cached?_eq⟩
  rw [Resolve.exec_subject]
  rcases agrees_resolve settings hg hD htop (.of_stacked (hs.declare D)) (Nat.zero_add _) (Nat.zero_add _)
    with ⟨hresult, hshows⟩ | ⟨i, hi, hresult⟩
  · exact .inl ⟨hresult, hshows.names_eq, hshows.log_eq, hshows.stage?_eq, hshows.cached?_eq⟩
  · exact .inr ⟨i, hi, hresult⟩

theorem shows_report (hm : m.Shows s) (event : Event) : (report event m).Shows (s.report event) := by
  refine ⟨hm.names_eq, ?_, hm.stage?_eq, hm.cached?_eq⟩
  show m.log ++ [event] = s.log ++ [event]
  rw [hm.log_eq]

theorem step_eq (settings : ResolverSettings) (hg : g.Closed) (hD : D.node ∈ g.nodes) (hm : m.Shows s)
    (hs : s.Stacked g []) :
    (∃ m', step g settings D m = .ok ((Resolve.step g settings D s).1, m') ∧
      m'.Shows (Resolve.step g settings D s).2) ∨
    ∃ i, g.Unwritable settings i ∧ step g settings D m = .error (.longInteger i) := by
  by_cases ht : D.isTranspilable
  · have hagrees := agrees_subject settings hg hD hm hs
    rw [step, if_pos ht, Resolve.step_eq_of_isTranspilable ht]
    rcases hx : subject g settings D m with ⟨result, m'⟩
    rcases hy : Resolve.exec (Resolve.subject g settings D) s with ⟨r, s'⟩
    rw [hx, hy] at hagrees
    rcases hagrees with ⟨hresult, hm'⟩ | ⟨i, hi, hresult⟩
    · cases r with
      | error f =>
        obtain rfl : result = .error (.failed f) := hresult
        exact .inl ⟨_, rfl, shows_report hm' _⟩
      | ok schema =>
        obtain rfl : result = .ok schema := hresult
        exact .inl ⟨_, rfl, hm'⟩
    · obtain rfl : result = .error (.broken (.longInteger i)) := hresult
      exact .inr ⟨i, hi.unwritable, rfl⟩
  · rw [step, if_neg ht, Resolve.step_of_not_isTranspilable ht]
    exact .inl ⟨_, rfl, shows_report hm _⟩

theorem steps_eq (settings : ResolverSettings) (hg : g.Closed) {subjects : List Subject}
    (hnodes : ∀ D ∈ subjects, D.node ∈ g.nodes) (hm : m.Shows s) (hs : s.Stacked g []) :
    (∃ m', steps g settings subjects m = .ok ((Resolve.steps g settings subjects s).1, m') ∧
      m'.Shows (Resolve.steps g settings subjects s).2) ∨
    ∃ i, g.Unwritable settings i ∧ steps g settings subjects m = .error (.longInteger i) := by
  induction subjects generalizing m s with
  | nil => exact .inl ⟨m, rfl, hm⟩
  | cons D rest ih =>
    obtain ⟨hD, hrest⟩ := List.forall_mem_cons.1 hnodes
    rw [steps, Resolve.steps_cons]
    rcases step_eq settings hg hD hm hs with ⟨m₁, hstep, hm₁⟩ | ⟨i, hi, hstep⟩
    · rcases ih hrest hm₁ (Resolve.stacked_step settings D hs) with ⟨m₂, hsteps, hm₂⟩ | ⟨i, hi, hsteps⟩
      · exact .inl ⟨m₂, by rw [hstep]; simp only [bind, Except.bind, hsteps]; rfl, hm₂⟩
      · exact .inr ⟨i, hi, by rw [hstep]; simp only [bind, Except.bind, hsteps]⟩
    · exact .inr ⟨i, hi, by rw [hstep]; rfl⟩

/-- The pass of a closed graph is that of a session, or an integer of the graph cannot be written. -/
theorem pass_eq (hg : g.Closed) {subjects : List Subject} (hnodes : ∀ D ∈ subjects, D.node ∈ g.nodes) :
    pass g settings subjects =
      .ok ((Resolve.pass g settings subjects).1, (Resolve.pass g settings subjects).2.log) ∨
    ∃ i, g.Unwritable settings i ∧ pass g settings subjects = .error (.longInteger i) := by
  have hnamed : Machine.Shows _ (Resolve.named subjects) :=
    (Machine.Rests.empty g settings).shows.declareAll (subjects.filter Subject.isTranspilable)
  have hstacked : (Resolve.named subjects).Stacked g [] := (Session.idle_named g settings subjects).stacked
  rcases steps_eq settings hg hnodes hnamed hstacked with ⟨m', hsteps, hm'⟩ | ⟨i, hi, hsteps⟩
  · refine .inl ?_
    rw [pass, hsteps]
    show Except.ok (_, m'.log) = _
    rw [hm'.log_eq]
    rfl
  · exact .inr ⟨i, hi, by rw [pass, hsteps]; rfl⟩

theorem outcomes_eq (hg : g.Closed) {subjects : List Subject} (hnodes : ∀ D ∈ subjects, D.node ∈ g.nodes)
    {outcomes : List Outcome} {log : List Event} (h : pass g settings subjects = .ok (outcomes, log)) :
    outcomes = (Resolve.pass g settings subjects).1 := by
  rcases pass_eq hg hnodes with hok | ⟨i, -, hbroken⟩
  · cases h.symm.trans hok
    rfl
  · cases h.symm.trans hbroken

/-- Unless an integer of the graph or the settings cannot be written, a pass returns, and it accounts
for every declaration. -/
theorem pass_accounts (hg : g.Closed) {subjects : List Subject} (hnodes : ∀ D ∈ subjects, D.node ∈ g.nodes) :
    (∃ outcomes log, pass g settings subjects = .ok (outcomes, log) ∧ Accounts subjects outcomes log) ∨
    ∃ i, g.Unwritable settings i ∧ pass g settings subjects = .error (.longInteger i) :=
  (pass_eq hg hnodes).imp_left fun h => ⟨_, _, h, Resolve.accounts_pass hg hnodes⟩

/-- The parent fails, the child passes, and a function between them is skipped. -/
theorem pass_accounts_family :
    ∃ outcomes log,
      pass Graph.family {} [.parent, ⟨"adopt", "function", .child⟩, .child] = .ok (outcomes, log) ∧
        Accounts [.parent, ⟨"adopt", "function", .child⟩, .child] outcomes log := by
  have h := @pass_accounts Graph.family {} Graph.closed_family
    [.parent, ⟨"adopt", "function", .child⟩, .child] (by decide)
  have hok : (pass Graph.family {} [.parent, ⟨"adopt", "function", .child⟩, .child]).isOk := by
    decide +kernel
  refine h.resolve_right fun ⟨i, _, hlong⟩ => ?_
  rw [hlong] at hok
  cases hok

end Strict

/-! ### An integer that breaks a pass -/

/-- A literal whose value has one digit too many. -/
def Node.huge : Node :=
  { Node.plain 1 TypeFlag.bigIntLiteral "huge" [] with
    value := some (.int (Nat.pow 10 Text.maxDigits)) }

def Graph.huge : Graph where
  nodes := [.huge, .plain 2 TypeFlag.object "Point" []]
  declarations := [⟨"Huge", .typeAlias, 1⟩, ⟨"Point", .interface, 2⟩]

/-- The literal has no schema, but the pass does not come to report that: it returns nothing, though
the other declaration has a schema. -/
theorem Strict.huge_breaks :
    Graph.huge.Closed ∧
      Strict.convert Graph.huge {} = .error (.longInteger (Nat.pow 10 Text.maxDigits)) ∧
      (Strict.convertNamed Graph.huge {} "Point").isOk := by
  refine ⟨⟨by decide, by decide, by decide⟩, ?_, by decide +kernel⟩
  have hbreaks : (Strict.convert Graph.huge {}).map (fun _ => ()) =
      .error (.longInteger (Nat.pow 10 Text.maxDigits)) := by decide +kernel
  exact map_eq_error_iff.1 hbreaks

end TypeSchema
