import TypeSchema.Proofs.Machine
import TypeSchema.Proofs.Search
import TypeSchema.Proofs.Strict

/-!
# What can break a pass

On every way out a strict resolution puts back what it changed on its way in, also where it breaks:
`Strict.kept_resolve`, which asks nothing of the graph. So no stage is missing where a node is given
up, and no step where one is taken back. In a closed graph a strict resolution then ends as the
resolution of a session does, but for an integer that cannot be written, which breaks a resolution only
where it fails or where a flag word is made: `Strict.agrees_resolve`.
-/

namespace TypeSchema

namespace Strict

variable {g : Graph} {settings : ResolverSettings} {m m' : Machine} {id : Int}

/-! ### Ways out -/

/-- The machine stands where it stood, and what was being resolved still is. -/
structure Kept (m m' : Machine) : Prop where
  restored : m.Restored m'
  resolving : ∀ id, m.stage? id = some .resolving → m'.stage? id = some .resolving

namespace Kept

theorem refl (m : Machine) : Kept m m := ⟨.refl m, fun _ h => h⟩

theorem trans {m'' : Machine} (h : Kept m m') (h' : Kept m' m'') : Kept m m'' :=
  ⟨h.restored.trans h'.restored, fun id hid => h'.resolving id (h.resolving id hid)⟩

theorem pop {label : Option String} (h : Kept (m.push label) m') : Kept m (m'.pop label) := by
  refine ⟨h.restored.pop, fun id hid => ?_⟩
  rw [Machine.stage?_pop]
  exact h.resolving id hid

/-- The node that was entered is still being resolved where it is left. -/
theorem entered (h : Kept (m.enter id) m') : m'.stage? id = some .resolving :=
  h.resolving id (by rw [Machine.stage?_enter, if_pos rfl])

theorem of_ne (h : Kept (m.enter id) m') (hid : m.stage? id = none) {other : Int}
    (hother : m.stage? other = some .resolving) : other ≠ id ∧ m'.stage? other = some .resolving := by
  have hne : other ≠ id := by
    rintro rfl
    rw [hid] at hother
    cases hother
  exact ⟨hne, h.resolving other (by rw [Machine.stage?_enter, if_neg hne]; exact hother)⟩

theorem abandon (h : Kept (m.enter id) m') (hid : m.stage? id = none) : Kept m (m'.abandon id) := by
  refine ⟨h.restored.abandon, fun other hother => ?_⟩
  obtain ⟨hne, hm'⟩ := h.of_ne hid hother
  rw [Machine.stage?_abandon, if_neg hne]
  exact hm'

theorem finish (h : Kept (m.enter id) m') (hid : m.stage? id = none) (schema : Schema) :
    Kept m (m'.finish id schema) := by
  refine ⟨h.restored.finish schema, fun other hother => ?_⟩
  obtain ⟨hne, hm'⟩ := h.of_ne hid hother
  show Table.get? other (m'.stages.put id .resolved) = _
  rw [Table.get?_put, if_neg hne]
  exact hm'

end Kept

/-- A node that was entered has the stage that is taken from it. -/
theorem giveUp_eq {α : Type} (h : Kept (m.enter id) m') (stop : Stop) :
    (giveUp id stop m' : Except Stop α × Machine) = (.error stop, m'.abandon id) := by
  rw [giveUp, h.entered]

theorem back?_eq {label : Option String} (h : Kept (m.push label) m') :
    back? label m' = some (m'.pop label) := by
  cases label with
  | none => rfl
  | some label =>
    have hpath : m'.path = m.path ++ [label] := h.restored.path
    rw [back?, hpath]
    simp

theorem kept_cut (n : Node) (m : Machine) : Kept m (cut settings n m).2 := by
  unfold cut
  dsimp only
  split
  · exact .refl m
  · exact ⟨⟨rfl, rfl, rfl⟩, fun _ h => h⟩

theorem tooDeep_snd {α : Type} (m : Machine) : (tooDeep settings m : Except Stop α × Machine).2 = m := by
  unfold tooDeep
  split <;> rfl

/-! ### Resolutions keep where they stand -/

theorem kept_along {visit : Node → Machine → Except Stop Schema × Machine}
    (hvisit : ∀ n m, Kept m (visit n m).2) (es : List Edge) (m : Machine) :
    Kept m (along visit es m).2 := by
  induction es generalizing m with
  | nil => exact .refl m
  | cons e es ih =>
    have hfirst := hvisit e.target (m.push e.label)
    rcases hx : visit e.target (m.push e.label) with ⟨result, m₁⟩
    rw [hx] at hfirst
    simp only [along, hx, back?_eq hfirst]
    cases result with
    | error stop => exact hfirst.pop
    | ok schema => exact hfirst.pop.trans (ih _)

theorem kept_of_stage? {stage : Stage} {n : Node} (h : m.stage? n.id = some stage) (room : Nat) :
    Kept m (resolve g settings room n m).2 := by
  rw [resolve.eq_def, h]
  cases stage with
  | resolving => exact kept_cut n m
  | resolved =>
    dsimp only
    split <;> exact .refl m

theorem kept_resolve (g : Graph) (settings : ResolverSettings) (room : Nat) (n : Node) (m : Machine) :
    Kept m (resolve g settings room n m).2 := by
  induction room generalizing n m with
  | zero =>
    rcases hstage : m.stage? n.id with _ | stage
    · rw [resolve, hstage]
      show Kept m (if settings.maxDepth ≤ m.depth then _ else _ : Except Stop Schema × Machine).2
      split
      · rw [tooDeep_snd]
        exact .refl m
      · simp only [giveUp_eq (.refl _)]
        exact Kept.abandon (.refl _) hstage
    · exact kept_of_stage? hstage 0
  | succ room ih =>
    rcases hstage : m.stage? n.id with _ | stage
    · rw [resolve, hstage]
      show Kept m (if settings.maxDepth ≤ m.depth then _ else _ : Except Stop Schema × Machine).2
      split
      · rw [tooDeep_snd]
        exact .refl m
      · cases plan g settings n with
        | error obstacle =>
          simp only [giveUp_eq (.refl _)]
          exact Kept.abandon (.refl _) hstage
        | ok plan =>
          have hbelow := kept_along (fun n m => ih n m) plan.edges (m.enter n.id)
          rcases hx : along (resolve g settings room) plan.edges (m.enter n.id) with ⟨stop | schemas, m₁⟩
          · rw [hx] at hbelow
            simp only [hx, giveUp_eq hbelow]
            exact hbelow.abandon hstage
          · rw [hx] at hbelow
            simp only [hx]
            exact hbelow.finish hstage _
    · exact kept_of_stage? hstage (room + 1)

/-! ### Agreement with sessions -/

/-- The failure is told with texts of the graph or the settings, which a full stack is not: that is met below
a ceiling which is higher still. -/
def IsTold (settings : ResolverSettings) (f : Failure) : Prop :=
  ∀ limit, f.cause = .depthExceeded limit → settings.maxDepth ≤ settings.stackRoom

/-- The strict run ends as that of the session, or an integer breaks it. -/
def Agrees {α : Type} (g : Graph) (settings : ResolverSettings) (x : Except Stop α × Machine)
    (y : Except Failure α × Session) : Prop :=
  x.1 = y.1.mapError .failed ∧ x.2.Shows y.2 ∨
    ∃ i, g.Breaks settings (IsTold settings) y.1 i ∧ x.1 = .error (.broken (.longInteger i))

variable {s s' : Session} {levels room : Nat} {n : Node}

/-- The nodes that are being resolved have texts of their own, so that their cuts need no id. -/
def HasTexts (g : Graph) (s : Session) : Prop :=
  ∀ n ∈ g.nodes, s.mark? n.id = some .resolving → isShownById n = false

theorem HasTexts.congr (h : HasTexts g s)
    (hmarks : ∀ id, s'.mark? id = some .resolving ↔ s.mark? id = some .resolving) : HasTexts g s' :=
  fun n hn hmark => h n hn ((hmarks n.id).1 hmark)

theorem HasTexts.of_stacked (h : s.Stacked g []) : HasTexts g s :=
  fun n _ hmark => absurd hmark (h.mark?_ne_resolving n.id)

/-- A node with a plan has a text. -/
theorem HasTexts.push (h : HasTexts g s) (hg : g.Closed) (hn : n ∈ g.nodes) {plan : Plan}
    (hp : g.plan settings n = .ok plan) : HasTexts g (s.setMark n.id .resolving) := by
  intro k hk hmark
  rw [Session.mark?_setMark] at hmark
  split at hmark
  · next hid =>
    obtain rfl := hg.eq_of_id_eq hk hn hid
    obtain ⟨shape, hshape, -⟩ := bind_eq_ok hp
    exact isShownById_of_shape? (Graph.shape?_of_shapeOf hshape)
  · exact h k hk hmark

theorem agrees_cut (hm : m.Shows s) (htext : isShownById n = false) :
    Agrees g settings (cut settings n m)
      (.ok (Resolve.cutSchema settings n (s.name? n.id)),
        s.report (.cycleCut m.place (Resolve.cutName n (s.name? n.id)))) := by
  have hcheck : (if (m.name? n.id).all (·.isEmpty) then checkText n else .ok ()) = .ok () := by
    rw [checkText_eq_ok htext, ite_self]
  unfold cut
  dsimp only
  rw [hcheck]
  refine .inl ⟨?_, (hm.cut settings n).2⟩
  rw [hm.name?_eq]
  rfl

theorem agrees_tooDeep {α : Type} (hm : m.Shows s) (hceiling : settings.maxDepth ≤ settings.stackRoom) :
    Agrees g settings (tooDeep settings m : Except Stop α × Machine)
      (.error ⟨.depthExceeded settings.maxDepth, m.place⟩, s) := by
  unfold tooDeep
  rcases checkInteger_eq (.limit : g.Written settings settings.maxDepth) with hok | ⟨i, hi, hlong⟩
  · rw [hok]
    exact .inl ⟨rfl, hm⟩
  · rw [hlong]
    exact .inr ⟨i, ⟨hi, .inr ⟨_, rfl, fun _ _ => hceiling⟩⟩, rfl⟩

/-- Where no level is left, the ceiling keeps the node out, or it is given up as soon as it is entered. -/
theorem agrees_no_level (hm : m.Shows s) (hmark : s.mark? n.id = none) (hdepth : m.depth = settings.levels)
    (hroom : m.depth + room = settings.stackRoom) :
    Agrees g settings (resolve g settings room n m) (.error ⟨.depthExceeded settings.limit, m.place⟩, s) := by
  have hstage : m.stage? n.id = none := by rw [hm.stage?_eq, hmark]; rfl
  rw [ResolverSettings.levels] at hdepth
  rw [resolve.eq_def, hstage, ResolverSettings.limit]
  show Agrees g settings (if settings.maxDepth ≤ m.depth then _ else _) _
  split
  · have hceiling : settings.maxDepth ≤ settings.stackRoom := by omega
    rw [if_pos hceiling]
    exact agrees_tooDeep hm hceiling
  · obtain rfl : room = 0 := by omega
    rw [if_neg (by omega), ← hroom]
    have hself : (s.setMark n.id .resolving).mark? n.id = some .resolving := by simp
    have habandon := (hm.enter hmark).abandon hself
    rw [Session.unmark_setMark hmark] at habandon
    simp only [giveUp_eq (.refl _)]
    exact .inl ⟨rfl, habandon⟩

theorem agrees_along {visit : Node → Machine → Except Stop Schema × Machine}
    (hkept : ∀ n m, Kept m (visit n m).2)
    (hvisit : ∀ (m : Machine) s n, m.Shows s → HasTexts g s → m.depth + levels = settings.levels →
      m.depth + room = settings.stackRoom → n ∈ g.nodes →
      Agrees g settings (visit n m) (Resolve.exec (Resolve.resolve g settings levels m.place n) s))
    (es : List Edge) (hes : ∀ e ∈ es, e.target ∈ g.nodes) (hm : m.Shows s) (htexts : HasTexts g s)
    (hdepth : m.depth + levels = settings.levels) (hroom : m.depth + room = settings.stackRoom) :
    Agrees g settings (along visit es m)
      (Resolve.exec (Resolve.along g settings levels m.place es) s) := by
  induction es generalizing m s with
  | nil => exact .inl ⟨rfl, hm⟩
  | cons e es ih =>
    obtain ⟨he, hes⟩ := List.forall_mem_cons.1 hes
    have hfirst := hvisit (m.push e.label) s e.target (hm.push e.label) htexts hdepth hroom he
    have hback := hkept e.target (m.push e.label)
    have hw := walk_of_resolve g settings levels (m.place.under e.label) e.target s
    rw [Machine.place_push] at hfirst
    rw [Resolve.exec_along_cons]
    rcases hx : visit e.target (m.push e.label) with ⟨result, m₁⟩
    rcases hy : Resolve.exec (Resolve.resolve g settings levels (m.place.under e.label) e.target) s
      with ⟨r, s₁⟩
    rw [hx, hy] at hfirst
    rw [hx] at hback
    rw [hy] at hw
    simp only [along, hx, back?_eq hback]
    rcases hfirst with ⟨hresult, hm₁⟩ | ⟨i, hi, hresult⟩
    · have hm₁ := hm₁.pop e.label
      have hrest := hback.pop.restored
      cases r with
      | error f =>
        obtain rfl : result = .error (.failed f) := hresult
        exact .inl ⟨rfl, hm₁⟩
      | ok schema =>
        obtain rfl : result = .ok schema := hresult
        have hplace : (m₁.pop e.label).place = m.place := by
          rw [Machine.place, hrest.declaration, hrest.path]
          rfl
        have htail := ih hes hm₁ (htexts.congr hw.resolving_iff) (by rw [hrest.depth]; exact hdepth)
          (by rw [hrest.depth]; exact hroom)
        rw [hplace] at htail
        rcases htail with ⟨htail, hm₂⟩ | ⟨i, hi, htail⟩
        · refine .inl ⟨?_, hm₂⟩
          rw [mapError_map, ← htail]
        · exact .inr ⟨i, hi.of_error fun f hf htold => ⟨f, congrArg (Except.map (schema :: ·)) hf, htold⟩,
            by rw [htail]; rfl⟩
    · obtain rfl : result = .error (.broken (.longInteger i)) := hresult
      refine .inr ⟨i, hi.of_error fun f hf htold => ⟨f, ?_, htold⟩, rfl⟩
      obtain rfl : r = .error f := hf
      rfl

theorem agrees_answer {mark : Mark} (hm : m.Shows s) (htexts : HasTexts g s)
    (hmark : s.mark? n.id = some mark) (hn : n ∈ g.nodes) (room : Nat)
    (enter : Except Failure Schema × Session) :
    Agrees g settings (resolve g settings room n m)
      (Resolve.answer settings m.place n s enter) := by
  have hstage := hm.stage?_eq n.id
  have hcached := hm.cached?_eq n.id
  rw [hmark] at hstage hcached
  rw [resolve.eq_def, hstage, hcached, Resolve.answer, hmark]
  cases mark with
  | resolving => exact agrees_cut hm (htexts n hn hmark)
  | resolved schema => exact .inl ⟨rfl, hm⟩

/-- What was found below a node that was entered decides how the node is left. -/
theorem agrees_leave (x : Except Stop (List Schema) × Machine) (y : Except Failure (List Schema) × Session)
    (assemble : List Schema → Schema) :
    Kept (m.enter n.id) x.2 → Agrees g settings x y → Agrees g settings
      (match x with
        | (.error stop, m) => giveUp n.id stop m
        | (.ok schemas, m) => (.ok (assemble schemas), m.finish n.id (assemble schemas)))
      (match y with
        | (.ok schemas, s) => (.ok (assemble schemas), s.setMark n.id (.resolved (assemble schemas)))
        | (.error f, s) => (.error f, s.unmark n.id)) := by
  intro hkept h
  obtain ⟨result, m₁⟩ := x
  obtain ⟨r, s₁⟩ := y
  rcases h with ⟨hresult, hm₁⟩ | ⟨i, hi, hresult⟩
  · have hself := (hm₁.stage?_eq_resolving_iff n.id).1 hkept.entered
    cases r with
    | error f =>
      obtain rfl : result = .error (.failed f) := hresult
      simp only [giveUp_eq hkept]
      exact .inl ⟨rfl, hm₁.abandon hself⟩
    | ok schemas =>
      obtain rfl : result = .ok schemas := hresult
      exact .inl ⟨rfl, hm₁.finish n.id _⟩
  · obtain rfl : result = .error (.broken (.longInteger i)) := hresult
    simp only [giveUp_eq hkept]
    refine .inr ⟨i, hi.of_error fun f hf htold => ⟨f, ?_, htold⟩, rfl⟩
    obtain rfl : r = .error f := hf
    rfl

theorem agrees_resolve (settings : ResolverSettings) (hg : g.Closed) (hn : n ∈ g.nodes) (hm : m.Shows s)
    (htexts : HasTexts g s) (hdepth : m.depth + levels = settings.levels)
    (hroom : m.depth + room = settings.stackRoom) :
    Agrees g settings (resolve g settings room n m)
      (Resolve.exec (Resolve.resolve g settings levels m.place n) s) := by
  -- the levels that are left count down to the ceiling or to the end of the stack, whichever is nearer
  induction levels generalizing m s n room with
  | zero =>
    rw [Resolve.exec_resolve_zero]
    rcases hmark : s.mark? n.id with _ | mark
    · rw [Resolve.answer, hmark]
      exact agrees_no_level hm hmark hdepth hroom
    · exact agrees_answer hm htexts hmark hn room _
  | succ levels ih =>
    rw [Resolve.exec_resolve_succ]
    rcases hmark : s.mark? n.id with _ | mark
    · have hstage : m.stage? n.id = none := by rw [hm.stage?_eq, hmark]; rfl
      have hlevels := hdepth
      rw [ResolverSettings.levels] at hlevels
      obtain ⟨room, rfl⟩ : ∃ left, room = left + 1 := Nat.exists_eq_add_one.2 (by omega)
      rw [resolve, hstage, Resolve.answer, hmark]
      show Agrees g settings (if settings.maxDepth ≤ m.depth then _ else _) _
      rw [if_neg (by omega)]
      have henter := hm.enter hmark
      rcases tells_plan hg hn settings with hplan | ⟨i, hi, hplan⟩
      · rw [hplan]
        cases hp : g.plan settings n with
        | error cause =>
          refine .inl ?_
          simp only [Except.mapError, giveUp_eq (.refl _)]
          exact ⟨rfl, henter.abandon (by simp)⟩
        | ok plan =>
          have htargets : ∀ e ∈ plan.edges, e.target ∈ g.nodes := Graph.mem_nodes_of_mem_edges hp
          have hbelow := agrees_along (fun n m => kept_resolve g settings room n m)
            (fun m s n hm htexts hdepth hroom hn => ih hn hm htexts hdepth hroom) plan.edges htargets henter
            (htexts.push hg hn hp) (show m.depth + 1 + levels = settings.levels by omega)
            (show m.depth + 1 + room = settings.stackRoom by omega)
          have hkept := kept_along (fun n m => kept_resolve g settings room n m) plan.edges (m.enter n.id)
          exact agrees_leave _ _ plan.assemble hkept hbelow
      · rw [hplan]
        refine .inr ⟨i, hi.of_error fun cause hcause _ => ⟨⟨cause, m.place⟩, ?_, ?_⟩, ?_⟩
        · rw [hcause]
        · rintro limit rfl
          rcases hg.cause_cases hn hcause with ⟨problem, hproblem, -⟩ | ⟨kind, hkind⟩
          · cases hproblem
          · cases hkind
        · simp only [giveUp_eq (.refl _)]
          rfl
    · exact agrees_answer hm htexts hmark hn room _

end Strict

end TypeSchema
