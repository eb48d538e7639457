import TypeSchema.Proofs.Lockstep

/-!
# Room on the stack

A node that is entered was not being resolved before, so there are never more nodes inside one another
than the graph has. Where the stack has room for all of them, more room changes nothing:
`Strict.pass_stackRoom`.
-/

namespace TypeSchema

/-- How many nodes are not being resolved. -/
def Graph.resting (g : Graph) (m : Machine) : Nat :=
  g.nodes.countP fun n => m.stage? n.id ≠ some .resolving

namespace Strict

variable {g : Graph} {settings : ResolverSettings} {m m' : Machine} {n : Node} {room room' : Nat}

theorem resting_le_length (g : Graph) (m : Machine) : g.resting m ≤ g.nodes.length :=
  List.countP_le_length

theorem Kept.resting_le (h : Kept m m') (g : Graph) : g.resting m' ≤ g.resting m := by
  refine List.countP_mono_left fun n _ hn => ?_
  simp only [ne_eq, decide_eq_true_eq] at hn ⊢
  exact fun hm => hn (h.resolving n.id hm)

theorem resting_pos (hn : n ∈ g.nodes) (hstage : m.stage? n.id = none) : 0 < g.resting m :=
  List.countP_pos_iff.2 ⟨n, hn, by simp [hstage]⟩

theorem resting_enter_lt (hn : n ∈ g.nodes) (hstage : m.stage? n.id = none) :
    g.resting (m.enter n.id) < g.resting m := by
  have hle : ∀ nodes : List Node, (nodes.countP fun k => (m.enter n.id).stage? k.id ≠ some .resolving) ≤
      nodes.countP fun k => m.stage? k.id ≠ some .resolving := fun nodes => by
    refine List.countP_mono_left fun k _ hk => ?_
    simp only [ne_eq, decide_eq_true_eq, Machine.stage?_enter] at hk ⊢
    split at hk
    · exact absurd rfl hk
    · exact hk
  have hentered : (m.enter n.id).stage? n.id = some .resolving := by rw [Machine.stage?_enter, if_pos rfl]
  obtain ⟨before, after, hnodes⟩ := List.append_of_mem hn
  rw [Graph.resting, Graph.resting, hnodes, List.countP_append, List.countP_append,
    List.countP_cons_of_neg (by simp [hentered]), List.countP_cons_of_pos (by simp [hstage])]
  have hbefore := hle before
  have hafter := hle after
  omega

theorem along_congr {visit visit' : Node → Machine → Except Stop Schema × Machine}
    (hkept : ∀ n m, Kept m (visit n m).2) {es : List Edge} (hes : ∀ e ∈ es, e.target ∈ g.nodes)
    (hvisit : ∀ n ∈ g.nodes, ∀ m', g.resting m' ≤ g.resting m → visit n m' = visit' n m') :
    along visit es m = along visit' es m := by
  induction es generalizing m with
  | nil => rfl
  | cons e es ih =>
    obtain ⟨he, hes⟩ := List.forall_mem_cons.1 hes
    have hfirst := hvisit e.target he (m.push e.label) (Nat.le_refl _)
    have hback := hkept e.target (m.push e.label)
    unfold along
    rw [← hfirst]
    rcases hx : visit e.target (m.push e.label) with ⟨result, m₁⟩
    rw [hx] at hback
    have hrest := hback.pop.resting_le g
    simp only [back?_eq hback]
    cases result with
    | error stop => rfl
    | ok schema =>
      dsimp only
      rw [ih hes fun n hn m' hm' => hvisit n hn m' (Nat.le_trans hm' hrest)]

/-- With room for the nodes that are not being resolved, a resolution does not depend on how much there is. -/
theorem resolve_room (hg : g.Closed) (hn : n ∈ g.nodes) (hroom : g.resting m ≤ room)
    (hroom' : g.resting m ≤ room') : resolve g settings room n m = resolve g settings room' n m := by
  induction room generalizing room' n m with
  | zero =>
    rcases hstage : m.stage? n.id with _ | stage
    · have hpos := resting_pos hn hstage
      omega
    · rw [resolve.eq_def, resolve.eq_def g settings room', hstage]
      cases stage <;> rfl
  | succ room ih =>
    rcases hstage : m.stage? n.id with _ | stage
    · have hlt := resting_enter_lt hn hstage
      obtain ⟨room', rfl⟩ : ∃ k, room' = k + 1 := Nat.exists_eq_add_one.2 (by omega)
      rcases Nat.lt_or_ge m.depth settings.maxDepth with hdepth | hdeep
      · rcases hplan : plan g settings n with obstacle | p
        · rw [resolve_of_obstacle hstage hdepth hplan, resolve_of_obstacle hstage hdepth hplan]
        · have halong : along (resolve g settings room) p.edges (m.enter n.id) =
              along (resolve g settings room') p.edges (m.enter n.id) :=
            along_congr (kept_resolve g settings room) (mem_nodes_of_mem_edges hg hn hplan)
              fun k hk m' hm' => ih hk (by omega) (by omega)
          rcases hx : along (resolve g settings room) p.edges (m.enter n.id) with ⟨stop | schemas, m₁⟩
          · rw [resolve_of_along_error hstage hdepth hplan hx,
              resolve_of_along_error hstage hdepth hplan (halong ▸ hx)]
          · rw [resolve_of_along_ok hstage hdepth hplan hx,
              resolve_of_along_ok hstage hdepth hplan (halong ▸ hx)]
      · rw [resolve_of_deep hstage hdeep, resolve_of_deep hstage hdeep]
    · rw [resolve.eq_def, resolve.eq_def g settings room', hstage]
      cases stage <;> rfl

/-! ### Another stack -/

theorem tooDeep_congr {α : Type} {settings' : ResolverSettings} (h : settings'.maxDepth = settings.maxDepth) :
    (tooDeep settings' m : Except Stop α × Machine) = tooDeep settings m := by
  unfold tooDeep
  rw [h]

section Stack

variable (g : Graph) (settings : ResolverSettings) (size : Nat)

theorem visible_stackRoom (properties : List Property) :
    visible g { settings with stackRoom := size } properties = visible g settings properties := by
  induction properties with
  | nil => rfl
  | cons p rest ih =>
    have hhidden : isHidden g { settings with stackRoom := size } p = isHidden g settings p := rfl
    rw [visible, visible, hhidden, ih]

theorem slots_stackRoom : slots g { settings with stackRoom := size } = slots g settings := by
  funext n
  unfold slots
  simp only [visible_stackRoom]

theorem plan_stackRoom (n : Node) : plan g { settings with stackRoom := size } n = plan g settings n := by
  have hobject : objectPlan g { settings with stackRoom := size } n = objectPlan g settings n := by
    rw [objectPlan, objectPlan, slots_stackRoom]
  have hplan : ∀ shape, planOf g { settings with stackRoom := size } n shape = planOf g settings n shape := by
    intro shape
    cases shape with
    | intersection =>
      show intersectionPlan g _ n = intersectionPlan g settings n
      rw [intersectionPlan, intersectionPlan, slots_stackRoom]
    | date =>
      show (if settings.datesAsStrings then _ else objectPlan g _ n) = if settings.datesAsStrings then _ else _
      rw [hobject]
    | object => exact hobject
    | _ => rfl
  unfold plan
  simp only [hplan]

/-- Inside of a resolution, only the room that is left counts. -/
theorem resolve_stackRoom (room : Nat) :
    resolve g { settings with stackRoom := size } room = resolve g settings room := by
  have hcut : ∀ n m, cut { settings with stackRoom := size } n m = cut settings n m := fun _ _ => rfl
  have hdeep : ∀ m : Machine, (tooDeep { settings with stackRoom := size } m : Except Stop Schema × Machine) =
      tooDeep settings m := fun _ => tooDeep_congr rfl
  induction room with
  | zero =>
    funext n m
    rw [resolve.eq_def, resolve.eq_def g settings 0]
    simp only [hcut, hdeep]
  | succ room ih =>
    funext n m
    rw [resolve.eq_def, resolve.eq_def g settings (room + 1)]
    simp only [hcut, hdeep, plan_stackRoom, ih]

end Stack

variable {size : Nat} (hg : g.Closed) (hroom : g.nodes.length ≤ settings.stackRoom)
  (hsize : g.nodes.length ≤ size)
include hg hroom hsize

theorem subject_stackRoom {D : Subject} (hD : D.node ∈ g.nodes) (m : Machine) :
    subject g { settings with stackRoom := size } D m = subject g settings D m := by
  unfold subject
  dsimp only
  rw [resolve_stackRoom, resolve_room hg hD (Nat.le_trans (resting_le_length g _) hsize)
    (Nat.le_trans (resting_le_length g _) hroom)]

theorem step_stackRoom {D : Subject} (hD : D.node ∈ g.nodes) (m : Machine) :
    step g { settings with stackRoom := size } D m = step g settings D m := by
  rw [step, step, subject_stackRoom hg hroom hsize hD]

theorem steps_stackRoom {subjects : List Subject} (hnodes : ∀ D ∈ subjects, D.node ∈ g.nodes) (m : Machine) :
    steps g { settings with stackRoom := size } subjects m = steps g settings subjects m := by
  induction subjects generalizing m with
  | nil => rfl
  | cons D rest ih =>
    obtain ⟨hD, hrest⟩ := List.forall_mem_cons.1 hnodes
    rw [steps, steps, step_stackRoom hg hroom hsize hD]
    simp only [ih hrest]

/-- A pass on a stack with room for every node is the same as on any other such stack. -/
theorem pass_stackRoom {subjects : List Subject} (hnodes : ∀ D ∈ subjects, D.node ∈ g.nodes) :
    pass g { settings with stackRoom := size } subjects = pass g settings subjects := by
  rw [pass, pass, steps_stackRoom hg hroom hsize hnodes]

end Strict

end TypeSchema
