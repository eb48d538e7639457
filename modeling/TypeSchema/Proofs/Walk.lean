import TypeSchema.Proofs.Marks

/-!
# Walks

`Walk` says once what resolving a list of edges can do to a session: one constructor for each way
in which the first edge can be answered. `walk_of_exec` ties it to `Resolve.resolve`; everything
else about resolution is an induction over walks and never unfolds the resolver.
-/

namespace TypeSchema

namespace Resolve

/-- The result of a run and the session after it. -/
def exec {α : Type} (x : Run α) (s : Session) : Except Failure α × Session :=
  match x.run s with
  | .ok a s' => (.ok a, s')
  | .error f s' => (.error f, s')

/-- Resolves edges one after the other, with so many levels left below their source. -/
def along (g : Graph) (settings : ResolverSettings) (levels : Nat) (place : Place) (es : List Edge) :
    Run (List Schema) :=
  es.mapM fun e => resolve g settings levels (place.under e.label) e.target

variable {g : Graph} {settings : ResolverSettings} {s : Session} {place : Place} {n : Node}

theorem exec_bind {α β : Type} (x : Run α) (f : α → Run β) (s : Session) :
    exec (x >>= f) s =
      match exec x s with
      | (.ok a, s') => exec (f a) s'
      | (.error e, s') => (.error e, s') := by
  simp only [exec, EStateM.run, bind, EStateM.bind]
  cases x s <;> rfl

/-- How marks answer for a node; without a mark the node is entered. -/
def answer (settings : ResolverSettings) (place : Place) (n : Node) (s : Session)
    (enter : Except Failure Schema × Session) : Except Failure Schema × Session :=
  match s.mark? n.id with
  | some (.resolved schema) => (.ok schema, s)
  | some .resolving =>
    (.ok (cutSchema settings n (s.name? n.id)), s.report (.cycleCut place (cutName n (s.name? n.id))))
  | none => enter

theorem exec_visit (enter : Run Schema) :
    exec (visit settings place n enter) s = answer settings place n s (exec enter s) := by
  have hrun : (visit settings place n enter).run s =
      (match s.mark? n.id with
        | some (.resolved schema) => pure schema
        | some .resolving => cut settings place n
        | none => enter : Run Schema).run s := rfl
  unfold exec answer
  rw [hrun]
  rcases s.mark? n.id with _ | ⟨_ | _⟩ <;> rfl

theorem exec_modify (f : Session → Session) : exec (modify f) s = (.ok ⟨⟩, f s) := rfl

theorem exec_tryCatch {α : Type} (x : Run α) (handle : Failure → Run α) (s : Session) :
    exec (tryCatch x handle) s =
      match exec x s with
      | (.ok a, s') => (.ok a, s')
      | (.error f, s') => exec (handle f) s' := by
  have hrun : (tryCatch x handle).run s = EStateM.tryCatch x handle s := rfl
  unfold exec
  rw [hrun, EStateM.tryCatch, EStateM.run]
  cases x s <;> rfl

theorem exec_marking (body : Run Schema) :
    exec (marking n body) s =
      match exec body (s.setMark n.id .resolving) with
      | (.ok schema, s') => (.ok schema, s'.setMark n.id (.resolved schema))
      | (.error f, s') => (.error f, s'.unmark n.id) := by
  rw [marking, exec_bind, exec_modify]
  dsimp only
  rw [exec_bind, exec_tryCatch]
  rcases exec body (s.setMark n.id .resolving) with ⟨_ | schema, s'⟩
  all_goals
    dsimp only
    rw [exec_bind, exec_modify]
    rfl

theorem exec_resolve_zero :
    exec (resolve g settings 0 place n) s =
      answer settings place n s (.error ⟨.depthExceeded settings.limit, place⟩, s) := by
  rw [resolve, exec_visit]; rfl

theorem exec_resolve_succ (levels : Nat) :
    exec (resolve g settings (levels + 1) place n) s =
      answer settings place n s
        (match g.plan settings n with
        | .error cause => (.error ⟨cause, place⟩, (s.setMark n.id .resolving).unmark n.id)
        | .ok plan =>
          match exec (along g settings levels place plan.edges) (s.setMark n.id .resolving) with
          | (.ok schemas, s') =>
            (.ok (plan.assemble schemas), s'.setMark n.id (.resolved (plan.assemble schemas)))
          | (.error f, s') => (.error f, s'.unmark n.id)) := by
  rw [resolve, exec_visit, exec_marking, exec_bind]
  cases hp : g.plan settings n with
  | error cause => simp only [planAt, hp]; rfl
  | ok plan =>
    have hplan : exec (planAt g settings place n) (s.setMark n.id .resolving) =
        (.ok plan, s.setMark n.id .resolving) := by simp only [planAt, hp]; rfl
    simp only [hplan, exec_bind, along]
    cases exec (plan.edges.mapM fun e => resolve g settings levels (place.under e.label) e.target)
      (s.setMark n.id .resolving) with
    | mk r s' => cases r <;> rfl

/-- What a node is resolved to outside of itself is kept for it. -/
theorem mark?_of_resolve {levels : Nat} {schema : Schema} {s' : Session}
    (hm : s.mark? n.id ≠ some .resolving)
    (h : exec (resolve g settings levels place n) s = (.ok schema, s')) :
    s'.mark? n.id = some (.resolved schema) := by
  have hanswer : ∀ {enter : Except Failure Schema × Session},
      answer settings place n s enter = (.ok schema, s') →
      (enter = (.ok schema, s') → s'.mark? n.id = some (.resolved schema)) →
      s'.mark? n.id = some (.resolved schema) := by
    intro enter ha henter
    unfold answer at ha
    split at ha
    · next hr => cases ha; exact hr
    · next hr => exact absurd hr hm
    · exact henter ha
  cases levels with
  | zero =>
    rw [exec_resolve_zero] at h
    exact hanswer h fun h => by cases h
  | succ levels =>
    rw [exec_resolve_succ] at h
    refine hanswer h fun h => ?_
    split at h
    · cases h
    · split at h
      · cases h; simp
      · cases h

theorem exec_along_cons (levels : Nat) (e : Edge) (es : List Edge) :
    exec (along g settings levels place (e :: es)) s =
      match exec (resolve g settings levels (place.under e.label) e.target) s with
      | (.error f, s') => (.error f, s')
      | (.ok schema, s') =>
        ((exec (along g settings levels place es) s').1.map (schema :: ·),
          (exec (along g settings levels place es) s').2) := by
  have hcons : along g settings levels place (e :: es) =
      resolve g settings levels (place.under e.label) e.target >>= fun schema =>
        along g settings levels place es >>= fun schemas => pure (schema :: schemas) :=
    List.mapM_cons
  rw [hcons, exec_bind]
  rcases exec (resolve g settings levels (place.under e.label) e.target) s with ⟨_ | schema, s'⟩
  · rfl
  · simp only [exec_bind]
    rcases exec (along g settings levels place es) s' with ⟨_ | schemas, s''⟩ <;> rfl

theorem exec_along_singleton (levels : Nat) :
    exec (along g settings levels place [⟨none, n⟩]) s =
      ((exec (resolve g settings levels place n) s).1.map ([·]),
        (exec (resolve g settings levels place n) s).2) := by
  rw [exec_along_cons]
  show (match exec (resolve g settings levels place n) s with | (.error f, s') => _ | (.ok schema, s') => _) = _
  rcases exec (resolve g settings levels place n) s with ⟨_ | schema, s'⟩ <;> rfl

end Resolve

/-- What resolving edges one after the other does, from the session before to the result and the
session after. The number is how many levels are left below the source of the edges. -/
inductive Walk (g : Graph) (settings : ResolverSettings) :
    Nat → Place → List Edge → Session → Except Failure (List Schema) → Session → Prop
  | nil {levels place s} : Walk g settings levels place [] s (.ok []) s
  | cached {levels place e es s schema r s'} :
    s.mark? e.target.id = some (.resolved schema) → Walk g settings levels place es s r s' →
    Walk g settings levels place (e :: es) s (r.map (schema :: ·)) s'
  | cut {levels place e es s event r s'} :
    s.mark? e.target.id = some .resolving →
    Walk g settings levels place es (s.report event) r s' →
    Walk g settings levels place (e :: es) s
      (r.map (Resolve.cutSchema settings e.target (s.name? e.target.id) :: ·)) s'
  | deep {place e es s} :
    s.mark? e.target.id = none →
    Walk g settings 0 place (e :: es) s
      (.error ⟨.depthExceeded settings.limit, place.under e.label⟩) s
  | fault {levels place e es s cause} :
    s.mark? e.target.id = none → g.plan settings e.target = .error cause →
    Walk g settings (levels + 1) place (e :: es) s (.error ⟨cause, place.under e.label⟩) s
  | failed {levels place e es s plan f s'} :
    s.mark? e.target.id = none → g.plan settings e.target = .ok plan →
    Walk g settings levels (place.under e.label) plan.edges (s.setMark e.target.id .resolving)
      (.error f) s' →
    Walk g settings (levels + 1) place (e :: es) s (.error f) (s'.unmark e.target.id)
  | done {levels place e es s plan schemas s₁ r s'} :
    s.mark? e.target.id = none → g.plan settings e.target = .ok plan →
    Walk g settings levels (place.under e.label) plan.edges (s.setMark e.target.id .resolving)
      (.ok schemas) s₁ →
    Walk g settings (levels + 1) place es
      (s₁.setMark e.target.id (.resolved (plan.assemble schemas))) r s' →
    Walk g settings (levels + 1) place (e :: es) s (r.map (plan.assemble schemas :: ·)) s'

variable {g : Graph} {settings : ResolverSettings}

open Resolve in
/-- Every run of the resolver is a walk. -/
theorem walk_of_exec (g : Graph) (settings : ResolverSettings) (levels : Nat) (place : Place)
    (es : List Edge) (s : Session) :
    Walk g settings levels place es s (exec (along g settings levels place es) s).1
      (exec (along g settings levels place es) s).2 := by
  -- the levels are for the nodes below an edge, the list for the edges beside it
  induction levels generalizing place es s with
  | zero =>
    induction es generalizing s with
    | nil => exact .nil
    | cons e es ih =>
      rw [exec_along_cons, exec_resolve_zero, answer]
      split
      · next h =>
        split at h
        · cases h
        · cases h
        · next hm => cases h; exact .deep hm
      · next h =>
        split at h
        · next hm => cases h; exact .cached hm (ih _)
        · next hm => cases h; exact .cut hm (ih _)
        · cases h
  | succ levels ihl =>
    induction es generalizing s with
    | nil => exact .nil
    | cons e es ih =>
      rw [exec_along_cons, exec_resolve_succ, answer]
      rcases hm : s.mark? e.target.id with _ | ⟨_ | schema⟩
      · cases hp : g.plan settings e.target with
        | error cause =>
          simp only [Session.unmark_setMark hm]
          exact .fault hm hp
        | ok plan =>
          have hw := ihl (place.under e.label) plan.edges (s.setMark e.target.id .resolving)
          rcases hx : exec (along g settings levels (place.under e.label) plan.edges)
            (s.setMark e.target.id .resolving) with ⟨f | schemas, s₁⟩
          · rw [hx] at hw
            simp only [hx]
            exact .failed hm hp hw
          · rw [hx] at hw
            simp only [hx]
            exact .done hm hp hw (ih _)
      · exact .cut hm (ih _)
      · exact .cached hm (ih _)

open Resolve in
theorem walk_of_resolve (g : Graph) (settings : ResolverSettings) (levels : Nat) (place : Place)
    (n : Node) (s : Session) :
    Walk g settings levels place [⟨none, n⟩] s
      ((exec (resolve g settings levels place n) s).1.map ([·]))
      (exec (resolve g settings levels place n) s).2 := by
  have h := walk_of_exec g settings levels place [⟨none, n⟩] s
  rw [exec_along_singleton] at h
  exact h

namespace Walk

variable {levels : Nat} {place : Place} {es : List Edge} {s s' : Session}
  {r : Except Failure (List Schema)} {id : Int}

/-! ### What every walk keeps -/

theorem name?_eq (h : Walk g settings levels place es s r s') (id : Int) :
    s'.name? id = s.name? id := by
  induction h with
  | nil | deep | fault => rfl
  | cached _ _ ih | cut _ _ ih | failed _ _ _ ih => exact ih
  | done _ _ _ _ ih₁ ih₂ => exact ih₂.trans ih₁

/-- The nodes that are being resolved are the same before and after. -/
theorem resolving_iff (h : Walk g settings levels place es s r s') (id : Int) :
    s'.mark? id = some .resolving ↔ s.mark? id = some .resolving := by
  induction h with
  | nil | deep | fault => rfl
  | cached _ _ ih | cut _ _ ih => exact ih
  | failed hm _ _ ih =>
    rw [Session.mark?_unmark]
    split
    · next hid => subst hid; simp [hm]
    · next hid => rw [ih, Session.mark?_setMark, if_neg hid]
  | done hm _ _ _ ih₁ ih₂ =>
    rw [ih₂, Session.mark?_setMark]
    split
    · next hid => subst hid; simp [hm]
    · next hid => rw [ih₁, Session.mark?_setMark, if_neg hid]

theorem resolved_of_resolved (h : Walk g settings levels place es s r s') {schema : Schema}
    (hs : s.mark? id = some (.resolved schema)) : s'.mark? id = some (.resolved schema) := by
  induction h with
  | nil | deep | fault => exact hs
  | cached _ _ ih | cut _ _ ih => exact ih hs
  | failed hm _ _ ih =>
    have hid : id ≠ _ := fun hid => by rw [hid, hm] at hs; cases hs
    rw [Session.mark?_unmark, if_neg hid]
    exact ih (by rw [Session.mark?_setMark, if_neg hid]; exact hs)
  | done hm _ _ _ ih₁ ih₂ =>
    have hid : id ≠ _ := fun hid => by rw [hid, hm] at hs; cases hs
    refine ih₂ ?_
    rw [Session.mark?_setMark, if_neg hid]
    exact ih₁ (by rw [Session.mark?_setMark, if_neg hid]; exact hs)

theorem isResolved (h : Walk g settings levels place es s r s') (hs : s.IsResolved id) :
    s'.IsResolved id := by
  obtain ⟨schema, hs⟩ := hs
  exact ⟨schema, h.resolved_of_resolved hs⟩

theorem isMarked (h : Walk g settings levels place es s r s') (hs : s.IsMarked id) :
    s'.IsMarked id := by
  rw [Session.isMarked_iff] at hs ⊢
  exact hs.imp (h.resolving_iff id).2 h.isResolved

end Walk

end TypeSchema
