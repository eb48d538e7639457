import TypeSchema.Proofs.Search

/-!
# Unfoldings

A schema that comes out of a session is an unfolding of its node that is cut only on cycles:
`Graph.IsUnfolding`. That holds of every cached schema, however its resolution and those after it
ended, so it can be reused under any other stack: `Walk.sound`.
-/

namespace TypeSchema

namespace Graph

/-- The fragment that stands for a node inside itself. Only a node with a name can be referred to,
and without references an empty name counts as none. -/
def cutFragment (settings : ResolverSettings) (n : Node) : Option String → Value
  | some name =>
    if settings.cycles = .ref then Fragment.reference name
    else Fragment.circular (if name = "" then n.displayText else name)
  | none => Fragment.circular n.displayText

/-- `Contributions children parts`: every child contributes one part. It is an unfolding of the child,
or the child lies on a cycle and is cut. -/
inductive Contributions (g : Graph) (settings : ResolverSettings) (names : Int → Option String) :
    List Node → List Value → Prop
  | nil : Contributions g settings names [] []
  | cut {c : Node} {cs : List Node} {parts : List Value} :
    g.OnCycle settings c → Contributions g settings names cs parts →
    Contributions g settings names (c :: cs) (cutFragment settings c (names c.id) :: parts)
  | unfold {c : Node} {cs children : List Node} {inner parts : List Value} {fragment : Value} :
    g.Builds settings c children inner fragment → Contributions g settings names children inner →
    Contributions g settings names cs parts →
    Contributions g settings names (c :: cs) (fragment :: parts)

/-- The fragment is built by the rule of the node from what its children contribute. -/
def IsUnfolding (g : Graph) (settings : ResolverSettings) (names : Int → Option String) (n : Node)
    (fragment : Value) : Prop :=
  ∃ children parts, g.Builds settings n children parts fragment ∧
    g.Contributions settings names children parts

variable {g : Graph} {settings : ResolverSettings} {names : Int → Option String} {n : Node}

theorem render_cutSchema (name? : Option String) :
    (Resolve.cutSchema settings n name?).render = cutFragment settings n name? := by
  unfold Resolve.cutSchema cutFragment
  rcases name? with _ | name
  · cases settings.cycles <;> rfl
  · cases hc : settings.cycles with
    | ref => rfl
    | placeholder =>
      show Fragment.circular (Resolve.cutName n (some name)) = _
      by_cases hname : name = ""
      · subst hname; rfl
      · rw [Resolve.cutName]
        · simp [hname]
        · rintro ⟨⟩; exact hname rfl

theorem contributions_iff_forall₂ {cs : List Node} {parts : List Value} :
    g.Contributions settings names cs parts ↔
      List.Forall₂ (fun c part => g.IsUnfolding settings names c part ∨
        (g.OnCycle settings c ∧ part = cutFragment settings c (names c.id))) cs parts := by
  constructor
  · intro h
    induction h with
    | nil => exact .nil
    | cut hc _ ih => exact .cons (.inr ⟨hc, rfl⟩) ih
    | unfold hb hcs _ _ ih => exact .cons (.inl ⟨_, _, hb, hcs⟩) ih
  · intro h
    induction h with
    | nil => exact .nil
    | cons hp _ ih =>
      rcases hp with ⟨children, inner, hb, hcs⟩ | ⟨hc, rfl⟩
      · exact .unfold hb hcs ih
      · exact .cut hc ih

theorem IsUnfolding.cons {c : Node} {cs : List Node} {part : Value} {parts : List Value}
    (h : g.IsUnfolding settings names c part) (hcs : g.Contributions settings names cs parts) :
    g.Contributions settings names (c :: cs) (part :: parts) := by
  obtain ⟨children, inner, hb, hinner⟩ := h
  exact .unfold hb hinner hcs

theorem isUnfolding_of_plan {p : Plan} {schemas : List Schema} (hp : g.plan settings n = .ok p)
    (h : g.Contributions settings names (p.edges.map (·.target)) (schemas.map Schema.render)) :
    g.IsUnfolding settings names n (p.assemble schemas).render := by
  have hlen := (contributions_iff_forall₂.1 h).length_eq
  rw [List.length_map, List.length_map] at hlen
  exact ⟨_, _, obeys_of_plan hp schemas hlen.symm, h⟩

/-- Followed edges lead from every node of the stack to every target. -/
def Leads (g : Graph) (settings : ResolverSettings) (stack : List Node) (es : List Edge) : Prop :=
  ∀ k ∈ stack, ∀ e ∈ es, Relation.TransGen (g.Follows settings) k e.target

namespace Leads

variable {stack : List Node} {e : Edge} {es : List Edge}

theorem nil : g.Leads settings [] es := fun _ hk => by cases hk

theorem tail (h : g.Leads settings stack (e :: es)) : g.Leads settings stack es :=
  fun k hk e' he' => h k hk e' (List.mem_cons_of_mem _ he')

theorem head (h : g.Leads settings stack (e :: es)) : g.Leads settings stack [⟨none, e.target⟩] := by
  intro k hk e' he'
  obtain rfl := List.mem_singleton.1 he'
  exact h k hk e (List.mem_cons_self ..)

theorem push {p : Plan} (hp : g.plan settings e.target = .ok p) (h : g.Leads settings stack (e :: es)) :
    g.Leads settings (e.target :: stack) p.edges := by
  intro k hk e' he'
  have hf := follows_of_mem_edges hp e' he'
  rcases List.mem_cons.1 hk with rfl | hk
  · exact .single hf
  · exact (h k hk e (List.mem_cons_self ..)).tail hf

end Leads

/-- What the rules keep holds of every unfolding. -/
theorem IsUnfolding.induction {P : Node → Value → Prop} {fragment : Value}
    (hrule : ∀ n children parts fragment, g.Builds settings n children parts fragment →
      List.Forall₂ (fun c part => P c part ∨
        (g.OnCycle settings c ∧ part = cutFragment settings c (names c.id))) children parts →
      P n fragment)
    (h : g.IsUnfolding settings names n fragment) : P n fragment := by
  obtain ⟨children, parts, hb, hcs⟩ := h
  refine hrule _ _ _ _ hb ?_
  clear hb
  induction hcs with
  | nil => exact .nil
  | cut hc _ ih => exact .cons (.inr ⟨hc, rfl⟩) ih
  | unfold hb _ _ ih₁ ih₂ => exact .cons (.inl (hrule _ _ _ _ hb ih₁)) ih₂

end Graph

/-! ### Sound sessions -/

/-- Every cached schema is an unfolding of its node. -/
structure Session.Sound (g : Graph) (settings : ResolverSettings) (names : Int → Option String)
    (s : Session) : Prop where
  name?_eq : ∀ id, s.name? id = names id
  isUnfolding : ∀ id schema, s.mark? id = some (.resolved schema) →
    ∃ m ∈ g.nodes, m.id = id ∧ g.IsUnfolding settings names m schema.render

namespace Session.Sound

variable {g : Graph} {settings : ResolverSettings} {names : Int → Option String} {s : Session} {n : Node}

theorem of_mark? {schema : Schema} (hg : g.Closed) (h : s.Sound g settings names) (hn : n ∈ g.nodes)
    (hm : s.mark? n.id = some (.resolved schema)) : g.IsUnfolding settings names n schema.render := by
  obtain ⟨m, hmem, hid, hu⟩ := h.isUnfolding n.id schema hm
  rw [← hg.eq_of_id_eq hmem hn hid]
  exact hu

theorem report (h : s.Sound g settings names) (event : Event) : (s.report event).Sound g settings names :=
  ⟨h.name?_eq, h.isUnfolding⟩

theorem setMark_resolving (h : s.Sound g settings names) (id : Int) :
    (s.setMark id .resolving).Sound g settings names := by
  refine ⟨h.name?_eq, fun other schema hm => ?_⟩
  rw [mark?_setMark] at hm
  split at hm
  · cases hm
  · exact h.isUnfolding other schema hm

theorem setMark_resolved {schema : Schema} (h : s.Sound g settings names) (hn : n ∈ g.nodes)
    (hu : g.IsUnfolding settings names n schema.render) :
    (s.setMark n.id (.resolved schema)).Sound g settings names := by
  refine ⟨h.name?_eq, fun other schema' hm => ?_⟩
  rw [mark?_setMark] at hm
  split at hm
  · next hid => cases hm; exact ⟨n, hn, hid.symm, hu⟩
  · exact h.isUnfolding other schema' hm

theorem unmark (h : s.Sound g settings names) (id : Int) : (s.unmark id).Sound g settings names := by
  refine ⟨h.name?_eq, fun other schema hm => ?_⟩
  rw [mark?_unmark] at hm
  split at hm
  · cases hm
  · exact h.isUnfolding other schema hm

end Session.Sound

namespace Walk

variable {g : Graph} {settings : ResolverSettings} {names : Int → Option String} {levels : Nat}
  {place : Place} {es : List Edge} {s s' : Session} {r : Except Failure (List Schema)}
  {stack : List Node}

/-- Every walk keeps a session sound, and what it returns are contributions of its targets. The stack
leads to all targets, so a target that is on it lies on a cycle. -/
theorem sound (hg : g.Closed) (h : Walk g settings levels place es s r s')
    (hsound : s.Sound g settings names) (hs : s.Stacked g stack) (hes : ∀ e ∈ es, e.target ∈ g.nodes)
    (hleads : g.Leads settings stack es) :
    s'.Sound g settings names ∧ ∀ schemas, r = .ok schemas →
      g.Contributions settings names (es.map (·.target)) (schemas.map Schema.render) := by
  induction h generalizing stack with
  | nil => exact ⟨hsound, fun schemas hr => by cases hr; exact .nil⟩
  | @cached levels place e es s schema r s' hm _ ih =>
    obtain ⟨ht, hes⟩ := List.forall_mem_cons.1 hes
    obtain ⟨hsound', hrest⟩ := ih hsound hs hes hleads.tail
    refine ⟨hsound', fun schemas hr => ?_⟩
    obtain ⟨schemas, hr', rfl⟩ := map_eq_ok hr
    exact (hsound.of_mark? hg ht hm).cons (hrest schemas hr')
  | @cut levels place e es s event r s' hm _ ih =>
    obtain ⟨ht, hes⟩ := List.forall_mem_cons.1 hes
    obtain ⟨hsound', hrest⟩ := ih (hsound.report _) (hs.report _) hes hleads.tail
    refine ⟨hsound', fun schemas hr => ?_⟩
    obtain ⟨schemas, hr', rfl⟩ := map_eq_ok hr
    obtain ⟨k, hk, hid⟩ := (hs.resolving_iff e.target.id).1 hm
    obtain rfl := hg.eq_of_id_eq (hs.mem_nodes k hk) ht hid
    -- the target is on the stack, and the stack leads to it
    have hcycle : g.OnCycle settings e.target := hleads e.target hk e (List.mem_cons_self ..)
    rw [List.map_cons, List.map_cons, Graph.render_cutSchema, hsound.name?_eq]
    exact .cut hcycle (hrest schemas hr')
  | deep | fault => exact ⟨hsound, fun schemas hr => by cases hr⟩
  | @failed levels place e es s plan f s' hm hp _ ih =>
    obtain ⟨ht, -⟩ := List.forall_mem_cons.1 hes
    obtain ⟨hsound', -⟩ := ih (hsound.setMark_resolving _) (hs.push ht hm)
      (Graph.mem_nodes_of_mem_edges hp) (hleads.push hp)
    exact ⟨hsound'.unmark _, fun schemas hr => by cases hr⟩
  | @done levels place e es s plan schemas s₁ r s' hm hp hw₁ _ ih₁ ih₂ =>
    obtain ⟨ht, hes⟩ := List.forall_mem_cons.1 hes
    obtain ⟨hsound₁, hparts⟩ := ih₁ (hsound.setMark_resolving _) (hs.push ht hm)
      (Graph.mem_nodes_of_mem_edges hp) (hleads.push hp)
    have hu := Graph.isUnfolding_of_plan hp (hparts schemas rfl)
    obtain ⟨hsound', hrest⟩ := ih₂ (hsound₁.setMark_resolved ht hu)
      ((hw₁.stacked (hs.push ht hm)).finish _) hes hleads.tail
    refine ⟨hsound', fun schemas' hr => ?_⟩
    obtain ⟨schemas', hr', rfl⟩ := map_eq_ok hr
    exact hu.cons (hrest schemas' hr')

end Walk

end TypeSchema
