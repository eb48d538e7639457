import Mathlib.Data.List.Induction
import TypeSchema.Proofs.Calls

/-!
# Where a schema comes from

A schema that a machine keeps was made by a call of the requests that it has answered:
`Call.Occurs.remembers` says so at every moment of a run. What a call has returned for a node it
returns again, as long as the run goes on, since the node is then kept or still being resolved:
`Machine.Settles`.
-/

namespace TypeSchema

namespace Machine

variable {g : Graph} {settings : ResolverSettings} {calls : Nat} {n : Node} {m m' : Machine}
  {schema schema' : Schema}

/-! ### What is asked for twice -/

/-- The node is settled, as its schema is kept or it is being resolved, and this is what asking for it
returns. -/
inductive Settles (settings : ResolverSettings) (n : Node) (m : Machine) : Schema → Prop
  | kept {s : Schema} : m.stage? n.id = some .resolved → m.cached? n.id = some s → Settles settings n m s
  | cut : m.stage? n.id = some .resolving →
    Settles settings n m (Resolve.cutSchema settings n (m.name? n.id))

namespace Settles

theorem unique (h : Settles settings n m schema) (h' : Settles settings n m schema') : schema = schema' := by
  cases h with
  | kept hstage hcached =>
    cases h' with
    | kept _ hcached' => exact Option.some.inj (hcached.symm.trans hcached')
    | cut hstage' => cases hstage.symm.trans hstage'
  | cut hstage =>
    cases h' with
    | kept hstage' => cases hstage.symm.trans hstage'
    | cut => rfl

theorem spares (h : Settles settings n m schema) (hspares : m.Spares m') : Settles settings n m' schema := by
  cases h with
  | kept hstage hcached =>
    obtain ⟨hstage', hcached'⟩ := hspares.resolved _ hstage
    exact .kept hstage' (hcached'.trans hcached)
  | cut hstage =>
    have hname : m'.name? n.id = m.name? n.id := by rw [name?, name?, hspares.names]
    exact hname ▸ .cut ((hspares.resolving_iff _).2 hstage)

theorem pop (h : Settles settings n m schema) (label : Option String) :
    Settles settings n (m.pop label) schema := by
  cases label <;> cases h with
  | kept hstage hcached => exact .kept hstage hcached
  | cut hstage => exact .cut hstage

end Settles

theorem settles_of_resolve (h : resolve g settings calls n m = some (.ok schema, m')) :
    Settles settings n m' schema := by
  cases visit_of_resolve h with
  | cached hstage hcached => exact .kept hstage hcached
  | cut hstage => exact .cut hstage
  | done =>
    refine .kept ?_ ?_
    · rw [stage?_finish, if_pos rfl]
    · rw [cached?_finish, if_pos rfl]

/-- Where none fails, each edge is settled in the end as it was answered. -/
theorem Along.settles {es : List Edge} {schemas : List Schema} {e : Edge} {m₁ : Machine}
    (halong : Along (resolve g settings calls) es m e m₁)
    (h : along (resolve g settings calls) es m = some (.ok schemas, m')) :
    ∃ schema m₂, resolve g settings calls e.target (m₁.push e.label) = some (.ok schema, m₂) ∧
      Settles settings e.target m' schema := by
  have hrest : ∀ {es m schemas}, along (resolve g settings calls) es m = some (.ok schemas, m') →
      m.Spares m' := spares_along fun _ _ _ _ => spares_resolve
  induction halong generalizing schemas with
  | @here e es m =>
    obtain ⟨⟨result, m₂⟩, hfirst, h⟩ := Option.bind_eq_some_iff.1 h
    cases result with
    | error raised => cases h
    | ok schema =>
      obtain ⟨⟨rest, m₃⟩, hes, h⟩ := Option.bind_eq_some_iff.1 h
      cases rest with
      | error raised => cases h
      | ok rest =>
        cases h
        exact ⟨schema, m₂, hfirst, ((settles_of_resolve hfirst).pop _).spares (hrest hes)⟩
  | @later e es m schema m₁ e' m₂ hfirst _ ih =>
    obtain ⟨_, hfirst', h⟩ := Option.bind_eq_some_iff.1 h
    cases hfirst.symm.trans hfirst'
    obtain ⟨⟨rest, m₃⟩, hes, h⟩ := Option.bind_eq_some_iff.1 h
    cases rest with
    | error raised => cases h
    | ok rest =>
      cases h
      exact ih hes

/-- What the visits of edges keep is kept all along. -/
theorem along_keeps {I : Machine → Prop} (hpush : ∀ label m, I m → I (m.push label))
    (hpop : ∀ label m, I m → I (m.pop label))
    {visit : Node → Machine → Option (Except Raised Schema × Machine)} {es : List Edge}
    (hvisit : ∀ e m₁, Along visit es m e m₁ → I (m₁.push e.label) →
      ∀ r m₂, visit e.target (m₁.push e.label) = some (r, m₂) → I m₂) (hm : I m) :
    (∀ e m₁, Along visit es m e m₁ → I m₁) ∧ ∀ r m', along visit es m = some (r, m') → I m' := by
  induction es generalizing m with
  | nil =>
    refine ⟨fun e m₁ h => ?_, fun r m' h => ?_⟩
    · cases h
    · cases h
      exact hm
  | cons e es ih =>
    have hfirst := hvisit e m .here (hpush _ _ hm)
    have hrest (schema : Schema) (m₁ : Machine) (h : visit e.target (m.push e.label) = some (.ok schema, m₁)) :=
      ih (fun e' m₂ hlater => hvisit e' m₂ (.later h hlater)) (hpop e.label m₁ (hfirst _ _ h))
    refine ⟨fun e' m₂ h => ?_, fun r m' h => ?_⟩
    · cases h with
      | here => exact hm
      | later h hlater => exact (hrest _ _ h).1 _ _ hlater
    · obtain ⟨⟨result, m₁⟩, h₁, h⟩ := Option.bind_eq_some_iff.1 h
      cases result with
      | error raised =>
        cases h
        exact hpop _ _ (hfirst _ _ h₁)
      | ok schema =>
        obtain ⟨⟨rest, m₂⟩, h₂, h⟩ := Option.bind_eq_some_iff.1 h
        cases h
        exact (hrest _ _ h₁).2 _ _ h₂

/-! ### What a call is made of -/

/-- The call enters its node and returns this schema. -/
def Call.Makes (g : Graph) (settings : ResolverSettings) (c : Call) (schema : Schema) : Prop :=
  c.machine.stage? c.node.id = none ∧ ∃ m', c.answer g settings = some (.ok schema, m')

/-- In the course of the call the node was asked for, and this was returned. -/
def Call.Returns (g : Graph) (settings : ResolverSettings) (c : Call) (t : Node) (schema : Schema) : Prop :=
  ∃ c' m', Call.Asks g settings c c' ∧ c'.node = t ∧ c'.answer g settings = some (.ok schema, m')

/-- A call makes its schema by its plan of what it is returned, which is one schema for each node,
however often it asks. -/
theorem Call.Makes.exists_plan {c : Call} (h : c.Makes g settings schema) :
    ∃ p schemas, g.plan settings c.node = .ok p ∧ schema = p.assemble schemas ∧
      List.Forall₂ (fun e part => ∀ s, c.Returns g settings e.target s ↔ s = part) p.edges schemas := by
  obtain ⟨calls, n, m⟩ := c
  obtain ⟨hstage, m', hanswer⟩ := h
  cases visit_of_resolve hanswer with
  | cached hstage' => cases hstage.symm.trans hstage'
  | cut hstage' => cases hstage.symm.trans hstage'
  | @done calls n m p schemas m₁ _ hdepth hplan halong =>
    refine ⟨p, schemas, hplan, rfl, (forall₂_of_along halong).imp ?_⟩
    rintro e part ⟨m₂, m₃, hedge, hrun⟩ s
    have hasks : Call.Asks g settings ⟨calls + 1, n, m⟩ ⟨calls, e.target, m₂.push e.label⟩ :=
      .intro hstage hdepth hplan hedge
    have hpart : Settles settings e.target m₁ part := by
      obtain ⟨part', _, hrun', hsettles⟩ := hedge.settles halong
      cases hrun.symm.trans hrun'
      exact hsettles
    refine ⟨?_, ?_⟩
    · rintro ⟨_, _, ⟨-, -, hplan', hedge'⟩, htarget, hrun'⟩
      cases hplan.symm.trans hplan'
      obtain ⟨s', _, hrun'', hsettles⟩ := hedge'.settles halong
      cases hrun'.symm.trans hrun''
      change Edge.target _ = e.target at htarget
      rw [htarget] at hsettles
      exact hsettles.unique hpart
    · rintro rfl
      exact ⟨_, _, hasks, rfl, hrun⟩

theorem Call.Makes.returns_unique {c : Call} {t : Node} {s s' : Schema} (h : c.Makes g settings schema)
    (hs : c.Returns g settings t s) (hs' : c.Returns g settings t s') : s = s' := by
  obtain ⟨p, schemas, hplan, -, hreturns⟩ := h.exists_plan
  have hmem : t ∈ p.edges.map (·.target) := by
    obtain ⟨c', m', hasks, rfl, -⟩ := id hs
    rw [Graph.targets_of_plan hplan]
    exact hasks.follows
  obtain ⟨e, he, rfl⟩ := List.mem_map.1 hmem
  obtain ⟨part, -, hpart⟩ := exists_right_of_mem_left hreturns he
  rw [(hpart s).1 hs, (hpart s').1 hs']

/-! ### What a machine remembers -/

/-- The schema that the call returns is traced back to the calls that made it and its parts, all of which
are among these. -/
inductive Call.Traces (g : Graph) (settings : ResolverSettings) (S : Call → Prop) : Call → Schema → Prop
  | makes {c : Call} {s : Schema} : S c → c.Makes g settings s →
    (∀ c' part m', Call.Asks g settings c c' → c'.answer g settings = some (.ok part, m') →
      Traces g settings S c' part) →
    Traces g settings S c s
  | kept {c c₀ : Call} {s : Schema} : S c₀ → c₀.node.id = c.node.id → c₀.Makes g settings s →
    Traces g settings S c₀ s → Traces g settings S c s
  | cut {c : Call} : c.machine.stage? c.node.id = some .resolving →
    Traces g settings S c (Resolve.cutSchema settings c.node (c.machine.name? c.node.id))

/-- What is kept was made by one of these calls. -/
def Remembers (g : Graph) (settings : ResolverSettings) (S : Call → Prop) (m : Machine) : Prop :=
  ∀ id schema, m.cached? id = some schema →
    ∃ c, S c ∧ c.node.id = id ∧ c.Makes g settings schema ∧ c.Traces g settings S schema

section Remembers

variable {S : Call → Prop}

theorem Call.Traces.mono {S' : Call → Prop} {c : Call} (h : c.Traces g settings S schema)
    (hsub : ∀ c, S c → S' c) : c.Traces g settings S' schema := by
  induction h with
  | makes hc hmakes _ ih => exact .makes (hsub _ hc) hmakes ih
  | kept hc hid hmakes _ ih => exact .kept (hsub _ hc) hid hmakes ih
  | cut hstage => exact .cut hstage

/-- What cuts keep, and plans, holds of all that is traced. -/
theorem Call.Traces.holds {P : Node → Schema → Prop} {c : Call} (hg : g.Closed)
    (hS : ∀ c, S c → c.node ∈ g.nodes) (hcut : ∀ n name?, P n (Resolve.cutSchema settings n name?))
    (hplan : ∀ n p schemas, g.plan settings n = .ok p →
      List.Forall₂ (fun e part => P e.target part) p.edges schemas → P n (p.assemble schemas))
    (h : c.Traces g settings S schema) (hc : c.node ∈ g.nodes) : P c.node schema := by
  induction h with
  | makes _ hmakes _ ih =>
    obtain ⟨p, schemas, hp, rfl, hreturns⟩ := hmakes.exists_plan
    refine hplan _ p schemas hp (hreturns.imp fun e part hpart => ?_)
    obtain ⟨c', m', hasks, htarget, hanswer⟩ := (hpart part).2 rfl
    exact htarget ▸ ih c' part m' hasks hanswer hasks.mem_nodes
  | kept hc₀ hid _ _ ih => exact hg.eq_of_id_eq (hS _ hc₀) hc hid ▸ ih (hS _ hc₀)
  | cut => exact hcut _ _

theorem Remembers.congr (h : m.Remembers g settings S) (hc : ∀ id, m'.cached? id = m.cached? id) :
    m'.Remembers g settings S := fun id schema hid => h id schema ((hc id).symm.trans hid)

theorem Remembers.mono {S' : Call → Prop} (h : m.Remembers g settings S) (hsub : ∀ c, S c → S' c) :
    m.Remembers g settings S' := fun id schema hid =>
  let ⟨c, hc, hcid, hmakes, htraces⟩ := h id schema hid
  ⟨c, hsub c hc, hcid, hmakes, htraces.mono hsub⟩

theorem Remembers.pop (label : Option String) (m : Machine) (h : m.Remembers g settings S) :
    (m.pop label).Remembers g settings S := h.congr fun id => by cases label <;> rfl

theorem Remembers.traces {c : Call} (h : c.machine.Remembers g settings S)
    (hid : c.machine.cached? c.node.id = some schema) : c.Traces g settings S schema := by
  obtain ⟨c₀, hc₀, hid, hmakes, htraces⟩ := h _ schema hid
  exact .kept hc₀ hid hmakes htraces

variable (hS : ∀ c c', S c → Call.Asks g settings c c' → S c')
include hS

/-- While a call follows its edges, the machine goes on to remember, if it does after each. -/
theorem remembers_along {p : Plan} (hc : S ⟨calls + 1, n, m⟩) (hm : m.Remembers g settings S)
    (hstage : m.stage? n.id = none) (hdepth : m.depth < settings.levels) (hplan : g.plan settings n = .ok p)
    (hvisit : ∀ n m r m', S ⟨calls, n, m⟩ → m.Remembers g settings S →
      resolve g settings calls n m = some (r, m') → m'.Remembers g settings S) :
    (∀ e m₁, Along (resolve g settings calls) p.edges (m.enter n.id) e m₁ → m₁.Remembers g settings S) ∧
      ∀ r m', along (resolve g settings calls) p.edges (m.enter n.id) = some (r, m') →
        m'.Remembers g settings S := by
  refine along_keeps (fun _ _ h => h.congr fun _ => rfl) Remembers.pop ?_ (hm.congr fun _ => rfl)
  intro e m₁ halong hm₁ r m₂ hrun
  exact hvisit _ _ _ _ (hS _ _ hc (.intro hstage hdepth hplan halong)) hm₁ hrun

/-- A run that starts with one of the calls is made of them, if they include the calls below them. -/
theorem traces_of_resolve (hc : S ⟨calls, n, m⟩) (hm : m.Remembers g settings S) {r : Except Raised Schema}
    (h : resolve g settings calls n m = some (r, m')) :
    m'.Remembers g settings S ∧ ∀ schema, r = .ok schema → Call.Traces g settings S ⟨calls, n, m⟩ schema := by
  induction calls generalizing n m r m' with
  | zero =>
    cases visit_of_resolve h with
    | cached _ hid => exact ⟨hm, fun schema hr => by cases hr; exact hm.traces hid⟩
    | lost | deep => exact ⟨hm, fun _ hr => by cases hr⟩
    | cut hstage => exact ⟨hm.congr fun _ => rfl, fun schema hr => by cases hr; exact .cut hstage⟩
    | full => exact ⟨hm.congr fun _ => rfl, fun _ hr => by cases hr⟩
  | succ calls ih =>
    have hvisit : ∀ n m r m', S ⟨calls, n, m⟩ → m.Remembers g settings S →
        resolve g settings calls n m = some (r, m') → m'.Remembers g settings S :=
      fun n m r m' hc hm h => (ih hc hm h).1
    cases visit_of_resolve h with
    | cached _ hid => exact ⟨hm, fun schema hr => by cases hr; exact hm.traces hid⟩
    | lost | deep => exact ⟨hm, fun _ hr => by cases hr⟩
    | cut hstage => exact ⟨hm.congr fun _ => rfl, fun schema hr => by cases hr; exact .cut hstage⟩
    | full | fault => exact ⟨hm.congr fun _ => rfl, fun _ hr => by cases hr⟩
    | failed hstage hdepth hplan halong =>
      have hm₁ := (remembers_along hS hc hm hstage hdepth hplan hvisit).2 _ _ halong
      exact ⟨hm₁.congr fun _ => rfl, fun _ hr => by cases hr⟩
    | @done _ _ _ p schemas m₁ hstage hdepth hplan halong =>
      have hmakes : Call.Makes g settings ⟨calls + 1, n, m⟩ (p.assemble schemas) := ⟨hstage, _, h⟩
      have htraces : Call.Traces g settings S ⟨calls + 1, n, m⟩ (p.assemble schemas) := by
        refine .makes hc hmakes fun c' part m₂ hasks hanswer => ?_
        have hc' := hS _ _ hc hasks
        cases hasks with
        | intro hstage hdepth hplan hedge =>
          have hm₂ := (remembers_along hS hc hm hstage hdepth hplan hvisit).1 _ _ hedge
          exact (ih hc' (hm₂.congr fun _ => rfl) hanswer).2 part rfl
      refine ⟨fun id schema hid => ?_, fun schema hr => by cases hr; exact htraces⟩
      rw [cached?_finish] at hid
      split at hid
      · next ho =>
        cases hid
        exact ⟨_, hc, ho.symm, hmakes, htraces⟩
      · exact (remembers_along hS hc hm hstage hdepth hplan hvisit).2 _ _ halong id schema hid

theorem Call.Asks.remembers {c c' : Call} (h : Call.Asks g settings c c') (hc : S c)
    (hm : c.machine.Remembers g settings S) : c'.machine.Remembers g settings S := by
  cases h with
  | intro hstage hdepth hplan hedge =>
    have hm₁ := (remembers_along hS hc hm hstage hdepth hplan
      fun _ _ _ _ hc hm h => (traces_of_resolve hS hc hm h).1).1 _ _ hedge
    exact hm₁.congr fun _ => rfl

theorem Call.Below.remembers {c c' : Call} (h : Call.Below g settings c c') (hc : S c)
    (hm : c.machine.Remembers g settings S) : S c' ∧ c'.machine.Remembers g settings S := by
  induction h with
  | refl => exact ⟨hc, hm⟩
  | tail _ hasks ih => exact ⟨hS _ _ ih.1 hasks, hasks.remembers hS ih.1 ih.2⟩

end Remembers

/-! ### The calls of a list of requests -/

/-- The call with which the answer to a request starts, if there is one. -/
def start? (settings : ResolverSettings) (m : Machine) : Request → Option Call
  | .node n => some ⟨settings.levels, n, m⟩
  | .subject D => some ⟨settings.levels, D.node, m.top D⟩
  | .shape _ | .declare _ => none

/-- The call is made while a new machine answers these requests. -/
def Call.Occurs (g : Graph) (settings : ResolverSettings) (requests : List Request) (c : Call) : Prop :=
  ∃ before q later m top, requests = before ++ q :: later ∧ after g settings before {} = some m ∧
    m.start? settings q = some top ∧ Call.Below g settings top c

variable {q : Request} {requests : List Request} {top c c' : Call}

theorem after_append_singleton (h : after g settings (requests ++ [q]) m = some m') :
    ∃ m₁ r, after g settings requests m = some m₁ ∧ m₁.answer g settings q = some (r, m') := by
  rw [after, List.foldlM_append] at h
  obtain ⟨m₁, hbefore, h⟩ := Option.bind_eq_some_iff.1 h
  obtain ⟨m₂, hlast, h⟩ := Option.bind_eq_some_iff.1 h
  cases h
  obtain ⟨⟨r, m₂⟩, hanswer, rfl⟩ := Option.map_eq_some_iff.1 hlast
  exact ⟨m₁, r, hbefore, hanswer⟩

theorem cached?_declareAll (subjects : List Subject) (id : Int) (m : Machine) :
    (subjects.foldl (fun m subject => m.declare subject) m).cached? id = m.cached? id := by
  induction subjects generalizing m with
  | nil => rfl
  | cons subject rest ih => exact (ih _).trans (cached?_declare subject id m)

theorem cached?_of_start? (h : m.start? settings q = some top) (id : Int) :
    top.machine.cached? id = m.cached? id := by
  cases q with
  | node n =>
    cases h
    rfl
  | subject D =>
    cases h
    exact cached?_declare D id m
  | shape | declare => cases h

/-- A request changes the cache by the call with which its answer starts, and by nothing else. -/
theorem cached?_answer {r : Except Raised Reply} (h : m.answer g settings q = some (r, m')) :
    (∀ id, m'.cached? id = m.cached? id) ∨
      ∃ top result m₁, m.start? settings q = some top ∧ top.answer g settings = some (result, m₁) ∧
        ∀ id, m'.cached? id = m₁.cached? id := by
  cases q with
  | node n =>
    obtain ⟨⟨result, m₁⟩, hrun, h⟩ := Option.bind_eq_some_iff.1 h
    cases h
    exact .inr ⟨_, result, m', rfl, hrun, fun _ => rfl⟩
  | shape n =>
    unfold answer at h
    dsimp only at h
    split at h <;> cases h <;> exact .inl fun _ => rfl
  | declare subjects =>
    cases h
    exact .inl fun id => cached?_declareAll subjects id m
  | subject D =>
    obtain ⟨⟨result, m₁⟩, hrun, h⟩ := Option.bind_eq_some_iff.1 h
    cases h
    exact .inr ⟨_, result, m₁, rfl, hrun, fun _ => rfl⟩

namespace Call

theorem Occurs.asks (h : c.Occurs g settings requests) (hasks : Asks g settings c c') :
    c'.Occurs g settings requests := by
  obtain ⟨before, q, later, m, top, hsplit, hbefore, hstart, hbelow⟩ := h
  exact ⟨before, q, later, m, top, hsplit, hbefore, hstart, hbelow.tail hasks⟩

theorem Occurs.append (h : c.Occurs g settings requests) (more : List Request) :
    c.Occurs g settings (requests ++ more) := by
  obtain ⟨before, q, later, m, top, rfl, hbefore, hstart, hbelow⟩ := h
  exact ⟨before, q, later ++ more, m, top, by simp, hbefore, hstart, hbelow⟩

theorem occurs_of_start? (hbefore : after g settings requests {} = some m)
    (hstart : m.start? settings q = some top) : top.Occurs g settings (requests ++ [q]) :=
  ⟨requests, q, [], m, top, rfl, hbefore, hstart, .refl⟩

end Call

/-- A machine remembers what the calls made that occurred. -/
theorem remembers_after (h : after g settings requests {} = some m) :
    m.Remembers g settings (Call.Occurs g settings requests) := by
  induction requests using List.reverseRecOn generalizing m with
  | nil =>
    cases h
    intro id schema hid
    cases hid
  | append_singleton requests q ih =>
    obtain ⟨m₁, r, hbefore, hanswer⟩ := after_append_singleton h
    have hm₁ : m₁.Remembers g settings (Call.Occurs g settings (requests ++ [q])) :=
      (ih hbefore).mono fun c hc => hc.append [q]
    rcases cached?_answer hanswer with hcached | ⟨top, result, m₂, hstart, hrun, hcached⟩
    · exact hm₁.congr hcached
    · have htop := Call.occurs_of_start? hbefore hstart
      refine Remembers.congr (m := m₂) ?_ hcached
      exact (traces_of_resolve (fun _ _ => Call.Occurs.asks) htop (hm₁.congr (cached?_of_start? hstart)) hrun).1

namespace Call

theorem Occurs.remembers (h : c.Occurs g settings requests) :
    c.machine.Remembers g settings (Occurs g settings requests) := by
  obtain ⟨before, q, later, m, top, rfl, hbefore, hstart, hbelow⟩ := id h
  have hm : m.Remembers g settings (Occurs g settings (before ++ q :: later)) :=
    (remembers_after hbefore).mono fun c hc => hc.append _
  have htop : top.Occurs g settings (before ++ q :: later) :=
    ⟨before, q, later, m, top, rfl, hbefore, hstart, .refl⟩
  exact (hbelow.remembers (fun _ _ => Occurs.asks) htop (hm.congr (cached?_of_start? hstart))).2

theorem Occurs.traces (h : c.Occurs g settings requests) (hanswer : c.answer g settings = some (.ok schema, m')) :
    c.Traces g settings (Occurs g settings requests) schema :=
  (traces_of_resolve (fun _ _ => Occurs.asks) h h.remembers hanswer).2 schema rfl

/-- Unless the node is being resolved, what a call returns for it was made by a call that occurs. -/
theorem Occurs.exists_makes (h : c.Occurs g settings requests)
    (hstage : c.machine.stage? c.node.id ≠ some .resolving)
    (hanswer : c.answer g settings = some (.ok schema, m')) :
    ∃ c₀ : Call, c₀.Occurs g settings requests ∧ c₀.node.id = c.node.id ∧ c₀.Makes g settings schema := by
  cases h.traces hanswer with
  | makes hc hmakes => exact ⟨c, hc, rfl, hmakes⟩
  | kept hc₀ hid hmakes => exact ⟨_, hc₀, hid, hmakes⟩
  | cut hcut => exact absurd hcut hstage

section Within

variable (hg : g.Closed) (hwithin : ∀ q ∈ requests, q.Within g)
include hwithin

theorem Occurs.mem_nodes (h : c.Occurs g settings requests) : c.node ∈ g.nodes := by
  obtain ⟨before, q, later, m, top, rfl, -, hstart, hbelow⟩ := h
  have hq : q.Within g := hwithin q List.mem_append_cons_self
  refine hbelow.mem_nodes ?_
  cases q with
  | node n =>
    cases hstart
    exact hq n rfl
  | subject D =>
    cases hstart
    exact hq D.node rfl
  | shape | declare => cases hstart

include hg

/-- Before a request nothing is being resolved, so that what is being resolved was asked for something. -/
theorem Occurs.exists_asks (h : c.Occurs g settings requests) {id : Int}
    (hid : c.machine.stage? id = some .resolving) :
    ∃ c₁ c₂, c₁.Occurs g settings requests ∧ Asks g settings c₁ c₂ ∧ c₁.node.id = id := by
  obtain ⟨before, q, later, m, top, rfl, hbefore, hstart, hbelow⟩ := h
  obtain ⟨m', hm', hrests⟩ := rests_after hg (Rests.empty g settings)
    fun q hq => hwithin q (List.mem_append_left _ hq)
  obtain rfl := Option.some.inj (hm'.symm.trans hbefore)
  have hnone : top.machine.stage? id ≠ some .resolving := by
    have hm := hrests.atRest.stage?_ne_resolving id
    cases q with
    | node n =>
      cases hstart
      exact hm
    | subject D =>
      cases hstart
      exact fun hD => hm ((stage?_declare D id m').symm.trans hD)
    | shape | declare => cases hstart
  rcases hbelow.resolving_or hid with htop | ⟨c₁, c₂, hbelow₁, hasks, hid⟩
  · exact absurd htop hnone
  · exact ⟨c₁, c₂, ⟨before, q, later, m', top, rfl, hbefore, hstart, hbelow₁⟩, hasks, hid⟩

end Within

end Call

end Machine

end TypeSchema
