import TypeSchema.Proofs.Unfolding

/-!
# Passes

A pass takes its declarations one by one in one session. `Resolve.steps_forall₂` turns what one of
them keeps and returns into a fact about the pass; between two of them the session is
`Session.Idle`. Every schema of a pass is an unfolding of its node.
-/

namespace TypeSchema

theorem Graph.node_mem_nodes {g : Graph} {D : Subject} (hD : D ∈ g.subjects) : D.node ∈ g.nodes := by
  obtain ⟨d, -, hd⟩ := List.mem_filterMap.1 hD
  obtain ⟨n, hn, rfl⟩ := Option.map_eq_some_iff.1 hd
  exact mem_nodes_of_node? hn

/-- The name of the first declaration of the node that describes data. -/
def declaredName (subjects : List Subject) (id : Int) : Option String :=
  ((subjects.filter Subject.isTranspilable).find? (·.node.id = id)).map (·.name)

theorem isSome_declaredName {subjects : List Subject} {D : Subject} (hD : D ∈ subjects)
    (ht : D.isTranspilable) : (declaredName subjects D.node.id).isSome := by
  rw [declaredName, Option.isSome_map, List.find?_isSome]
  exact ⟨D, List.mem_filter.2 ⟨hD, ht⟩, by simp⟩

/-- The session in which the declarations are named, and nothing is resolved. -/
def Resolve.named (subjects : List Subject) : Session :=
  Session.declareAll (subjects.filter Subject.isTranspilable) {}

namespace Session

variable {g : Graph} {settings : ResolverSettings} {names : Int → Option String} {s : Session}

/-- Nothing is being resolved, and what is cached is sound. -/
structure Idle (g : Graph) (settings : ResolverSettings) (names : Int → Option String) (s : Session) :
    Prop where
  sound : s.Sound g settings names
  stacked : s.Stacked g []

theorem Idle.report (h : s.Idle g settings names) (event : Event) :
    (s.report event).Idle g settings names :=
  ⟨h.sound.report event, h.stacked.report event⟩

theorem declare_eq_self {D : Subject} (h : (s.name? D.node.id).isSome) : s.declare D = s := by
  obtain ⟨name, hname⟩ := Option.isSome_iff_exists.1 h
  rw [declare, hname]

theorem mark?_named (subjects : List Subject) (id : Int) : (Resolve.named subjects).mark? id = none := by
  rw [Resolve.named, mark?_declareAll]
  rfl

theorem idle_named (g : Graph) (settings : ResolverSettings) (subjects : List Subject) :
    (Resolve.named subjects).Idle g settings (declaredName subjects) := by
  refine ⟨⟨fun id => ?_, fun id schema hm => ?_⟩, by simp, List.nodup_nil, ?_⟩
  · rw [Resolve.named, name?_declareAll]
    rfl
  · cases (mark?_named subjects id).symm.trans hm
  · simp [mark?_named]

end Session

namespace Resolve

variable {g : Graph} {settings : ResolverSettings} {names : Int → Option String} {D : Subject}
  {s : Session}

theorem exec_subject (D : Subject) (s : Session) :
    exec (subject g settings D) s =
      exec (resolve g settings settings.levels (.top D.name) D.node) (s.declare D) := rfl

/-- A declaration of an idle session leaves it idle, and its schema is an unfolding. -/
theorem idle_subject (hg : g.Closed) (hD : D.node ∈ g.nodes) (hname : (names D.node.id).isSome)
    (hs : s.Idle g settings names) :
    (exec (subject g settings D) s).2.Idle g settings names ∧
      ∀ schema, (exec (subject g settings D) s).1 = .ok schema →
        g.IsUnfolding settings names D.node schema.render := by
  rw [exec_subject, Session.declare_eq_self (by rw [hs.sound.name?_eq]; exact hname)]
  obtain ⟨hsound, -⟩ := (walk_of_resolve g settings settings.levels (.top D.name) D.node s).sound hg
    hs.sound hs.stacked (by simpa using hD) .nil
  refine ⟨⟨hsound, stacked_of_resolve hs.stacked⟩, fun schema hok => hsound.of_mark? hg hD ?_⟩
  refine mark?_of_resolve (fun hm => ?_) (Prod.ext hok rfl)
  simpa using (hs.stacked.resolving_iff _).1 hm

/-! ### Runs over the declarations -/

theorem steps_cons (D : Subject) (rest : List Subject) (s : Session) :
    steps g settings (D :: rest) s =
      ((step g settings D s).1.toList ++ (steps g settings rest (step g settings D s).2).1,
        (steps g settings rest (step g settings D s).2).2) := rfl

theorem steps_append (xs ys : List Subject) (s : Session) :
    steps g settings (xs ++ ys) s =
      ((steps g settings xs s).1 ++ (steps g settings ys (steps g settings xs s).2).1,
        (steps g settings ys (steps g settings xs s).2).2) := by
  induction xs generalizing s with
  | nil => rfl
  | cons x xs ih => simp only [List.cons_append, steps_cons, ih, List.append_assoc]

theorem step_eq_of_isTranspilable (ht : D.isTranspilable) (s : Session) :
    step g settings D s =
      match exec (subject g settings D) s with
      | (.ok schema, s') => (some ⟨D.name, D.kind, .ok schema⟩, s')
      | (.error f, s') => (some ⟨D.name, D.kind, .error f⟩, s'.report (.failed D.name f)) := by
  rw [step, if_pos ht, exec]
  cases (subject g settings D).run s <;> rfl

theorem step_of_isTranspilable (g : Graph) (settings : ResolverSettings) (ht : D.isTranspilable)
    (s : Session) :
    (step g settings D s).1 = some ⟨D.name, D.kind, (exec (subject g settings D) s).1⟩ ∧
      ((step g settings D s).2 = (exec (subject g settings D) s).2 ∨
        ∃ event, (step g settings D s).2 = (exec (subject g settings D) s).2.report event) := by
  rw [step_eq_of_isTranspilable ht]
  rcases exec (subject g settings D) s with ⟨f | schema, s'⟩
  · exact ⟨rfl, .inr ⟨_, rfl⟩⟩
  · exact ⟨rfl, .inl rfl⟩

theorem step_of_not_isTranspilable (ht : ¬D.isTranspilable) (s : Session) :
    step g settings D s = (none, s.report (.skipped D.kind D.name)) := by
  rw [step, if_neg ht]

theorem step_session {I : Session → Prop} (hreport : ∀ s event, I s → I (s.report event))
    (ht : D.isTranspilable) (h : I (exec (subject g settings D) s).2) : I (step g settings D s).2 := by
  rcases (step_of_isTranspilable g settings ht s).2 with hs | ⟨event, hs⟩
  · rw [hs]
    exact h
  · rw [hs]
    exact hreport _ event h

theorem stacked_step (settings : ResolverSettings) (D : Subject) (hs : s.Stacked g []) :
    (step g settings D s).2.Stacked g [] := by
  by_cases ht : D.isTranspilable
  · refine step_session (I := fun s => s.Stacked g []) (fun _ event h => h.report event) ht ?_
    rw [exec_subject]
    exact stacked_of_resolve (hs.declare D)
  · rw [step_of_not_isTranspilable ht]
    exact hs.report _

/-- What every declaration keeps is kept by the pass, and what holds of every result holds of its
outcomes, which are those of the declarations that describe data, in order. -/
theorem steps_forall₂ {I : Session → Prop} {Q : Subject → Except Failure Schema → Prop}
    (hreport : ∀ s event, I s → I (s.report event)) {subjects : List Subject}
    (hstep : ∀ D ∈ subjects, D.isTranspilable → ∀ s, I s →
      I (exec (subject g settings D) s).2 ∧ Q D (exec (subject g settings D) s).1)
    (hs : I s) :
    I (steps g settings subjects s).2 ∧
      List.Forall₂ (fun D o => o.name = D.name ∧ o.kind = D.kind ∧ Q D o.result)
        (subjects.filter Subject.isTranspilable) (steps g settings subjects s).1 := by
  induction subjects generalizing s with
  | nil => exact ⟨hs, .nil⟩
  | cons D rest ih =>
    have ih := fun {s} => ih (s := s) fun D' hD' => hstep D' (List.mem_cons_of_mem _ hD')
    by_cases ht : D.isTranspilable
    · obtain ⟨hI, hQ⟩ := hstep D (List.mem_cons_self ..) ht s hs
      obtain ⟨hend, hrest⟩ := ih (step_session hreport ht hI)
      rw [List.filter_cons_of_pos ht, steps_cons, (step_of_isTranspilable g settings ht s).1]
      exact ⟨hend, .cons ⟨rfl, rfl, hQ⟩ hrest⟩
    · rw [List.filter_cons_of_neg ht, steps_cons, step_of_not_isTranspilable ht]
      exact ih (hreport s _ hs)

theorem forall₂_steps (g : Graph) (settings : ResolverSettings) (subjects : List Subject) (s : Session) :
    List.Forall₂ (fun D o => o.name = D.name ∧ o.kind = D.kind)
      (subjects.filter Subject.isTranspilable) (steps g settings subjects s).1 :=
  (steps_forall₂ (I := fun _ => True) (Q := fun _ _ => True) (fun _ _ h => h)
    (fun _ _ _ _ _ => ⟨trivial, trivial⟩) trivial).2.imp fun _ _ h => ⟨h.1, h.2.1⟩

theorem mark?_steps {id : Int} {schema : Schema} {subjects : List Subject}
    (h : s.mark? id = some (.resolved schema)) :
    (steps g settings subjects s).2.mark? id = some (.resolved schema) :=
  (steps_forall₂ (I := fun s => s.mark? id = some (.resolved schema)) (Q := fun _ _ => True)
    (fun _ _ h => h)
    (fun D _ _ s h => by
      rw [exec_subject]
      exact ⟨(walk_of_resolve g settings settings.levels (.top D.name) D.node _).resolved_of_resolved
        (by rw [Session.mark?_declare]; exact h), trivial⟩) h).1

theorem forall₂_mark?_steps {subjects : List Subject} (hs : s.Stacked g []) :
    List.Forall₂ (fun D o => ∀ schema, o.result = .ok schema →
        (steps g settings subjects s).2.mark? D.node.id = some (.resolved schema))
      (subjects.filter Subject.isTranspilable) (steps g settings subjects s).1 := by
  induction subjects generalizing s with
  | nil => exact .nil
  | cons D rest ih =>
    have hrest := ih (stacked_step settings D hs)
    by_cases ht : D.isTranspilable
    · have hidle := hs.declare D
      rw [List.filter_cons_of_pos ht, steps_cons, (step_of_isTranspilable g settings ht s).1]
      refine .cons (fun schema hok => mark?_steps ?_) hrest
      have hmark : (exec (subject g settings D) s).2.mark? D.node.id = some (.resolved schema) :=
        mark?_of_resolve (fun hm => by simpa using (hidle.resolving_iff _).1 hm) (Prod.ext hok rfl)
      exact step_session (I := fun s => s.mark? D.node.id = some (.resolved schema)) (fun _ _ h => h) ht
        hmark
    · rw [List.filter_cons_of_neg ht, steps_cons]
      rw [step_of_not_isTranspilable ht] at hrest ⊢
      exact hrest

theorem idle_steps (hg : g.Closed) {subjects rest : List Subject}
    (hnodes : ∀ D ∈ rest, D.node ∈ g.nodes) (hsub : rest ⊆ subjects)
    (hs : s.Idle g settings (declaredName subjects)) :
    (steps g settings rest s).2.Idle g settings (declaredName subjects) ∧
      List.Forall₂ (fun D o => o.name = D.name ∧ o.kind = D.kind ∧ ∀ schema, o.result = .ok schema →
          g.IsUnfolding settings (declaredName subjects) D.node schema.render)
        (rest.filter Subject.isTranspilable) (steps g settings rest s).1 :=
  steps_forall₂ (I := fun s => s.Idle g settings (declaredName subjects))
    (Q := fun D result => ∀ schema, result = .ok schema →
      g.IsUnfolding settings (declaredName subjects) D.node schema.render)
    (fun _ event hs => hs.report event)
    (fun D hD ht _ hs => idle_subject hg (hnodes D hD) (isSome_declaredName (hsub hD) ht) hs) hs

/-- A pass ends idle. -/
theorem idle_pass (hg : g.Closed) (subjects : List Subject) (hnodes : ∀ D ∈ subjects, D.node ∈ g.nodes) :
    (pass g settings subjects).2.Idle g settings (declaredName subjects) ∧
      List.Forall₂ (fun D o => o.name = D.name ∧ o.kind = D.kind ∧ ∀ schema, o.result = .ok schema →
          g.IsUnfolding settings (declaredName subjects) D.node schema.render)
        (subjects.filter Subject.isTranspilable) (pass g settings subjects).1 :=
  idle_steps hg hnodes (fun _ h => h) (Session.idle_named g settings subjects)

/-- Every schema that a pass reports for a declaration is an unfolding of its node that is cut only on
cycles. -/
theorem pass_isUnfolding (hg : g.Closed) (subjects : List Subject)
    (hnodes : ∀ D ∈ subjects, D.node ∈ g.nodes) :
    List.Forall₂ (fun D o => o.name = D.name ∧ o.kind = D.kind ∧ ∀ schema, o.result = .ok schema →
        g.IsUnfolding settings (declaredName subjects) D.node schema.render)
      (subjects.filter Subject.isTranspilable) (pass g settings subjects).1 :=
  (idle_pass hg subjects hnodes).2

end Resolve

def ResolverSettings.refs : ResolverSettings := { cycles := .ref }

/-- The cell inside a cell is cut, since it lies on a cycle and is declared. -/
theorem Graph.isUnfolding_cell :
    cells.IsUnfolding .refs (declaredName cells.subjects) .cell
      (Fragment.object [("text", Fragment.typed "string"), ("next", Fragment.reference "Cell")]
        ["text", "next"] none) := by
  have h := @Resolve.pass_isUnfolding cells .refs closed_cells cells.subjects
    fun _ => node_mem_nodes
  have hpass : (Resolve.pass cells .refs cells.subjects).1 =
      [⟨"Cell", "interface", .ok (.object [("text", .typed "string"), ("next", .reference "Cell")]
        ["text", "next"] none)⟩] := by rfl
  rw [hpass] at h
  obtain ⟨⟨-, -, hu⟩, -⟩ := List.forall₂_cons.1 h
  exact hu _ rfl

end TypeSchema
