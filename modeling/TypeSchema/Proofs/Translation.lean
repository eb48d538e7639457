import TypeSchema.Proofs.Depth

/-!
# The memo away from cycles

`Graph.Translates` is the plain recursion over plans: a node is translated anew each time it is met,
with neither marks nor a depth, so that on a cycle it has no end and relates the node to nothing. A
node that leads to no cycle has one translation, and is answered with it, whatever was asked before:
what is kept for such a node is its translation, also when the rest of the graph has cycles and when
resolutions have failed. Only the call stack, of which the translation knows nothing, can run out before.
-/

namespace TypeSchema

/-! ### The plain translation -/

namespace Graph

/-- What is wrong, and the steps that lead there from the node that is translated. -/
structure Fault where
  cause : Cause
  path : List String

namespace Fault

def under (label : Option String) (f : Fault) : Fault := { f with path := label.toList ++ f.path }

/-- The failure of a resolution that began at the place. -/
def failure (place : Place) (f : Fault) : Failure := ⟨f.cause, { place with path := place.path ++ f.path }⟩

theorem failure_under (place : Place) (label : Option String) (f : Fault) :
    (f.under label).failure place = f.failure (place.under label) := by
  cases label with
  | none => rfl
  | some label => simp [failure, under, Place.under]

theorem failure_nil (place : Place) (cause : Cause) : failure place ⟨cause, []⟩ = ⟨cause, place⟩ := by
  simp [failure]

end Fault

mutual

/-- The node translates to a schema or to a fault. -/
inductive Translates (g : Graph) (settings : ResolverSettings) : Node → Except Fault Schema → Prop
  | fault {n : Node} {cause : Cause} :
    g.plan settings n = .error cause → Translates g settings n (.error ⟨cause, []⟩)
  | made {n : Node} {p : Plan} {r : Except Fault (List Schema)} :
    g.plan settings n = .ok p → TranslatesAlong g settings p.edges r →
      Translates g settings n (r.map p.assemble)

/-- What the edges lead to translates, in their order, up to the first fault. -/
inductive TranslatesAlong (g : Graph) (settings : ResolverSettings) :
    List Edge → Except Fault (List Schema) → Prop
  | nil : TranslatesAlong g settings [] (.ok [])
  | failed {e : Edge} {es : List Edge} {f : Fault} :
    Translates g settings e.target (.error f) →
      TranslatesAlong g settings (e :: es) (.error (f.under e.label))
  | cons {e : Edge} {es : List Edge} {schema : Schema} {r : Except Fault (List Schema)} :
    Translates g settings e.target (.ok schema) → TranslatesAlong g settings es r →
      TranslatesAlong g settings (e :: es) (r.map (schema :: ·))

end

variable {g : Graph} {settings : ResolverSettings} {n : Node} {e : Edge} {es : List Edge}

mutual

theorem Translates.unique {n : Node} {r r' : Except Fault Schema} :
    g.Translates settings n r → g.Translates settings n r' → r = r'
  | .fault hp, .fault hp' => by
    rw [hp] at hp'
    cases hp'
    rfl
  | .fault hp, .made hp' _ => by cases hp.symm.trans hp'
  | .made hp _, .fault hp' => by cases hp.symm.trans hp'
  | .made hp h, .made hp' h' => by
    cases hp.symm.trans hp'
    rw [h.unique h']

theorem TranslatesAlong.unique {es : List Edge} {r r' : Except Fault (List Schema)} :
    g.TranslatesAlong settings es r → g.TranslatesAlong settings es r' → r = r'
  | .nil, .nil => rfl
  | .failed h, .failed h' => by
    cases h.unique h'
    rfl
  | .failed h, .cons h' _ => by cases h.unique h'
  | .cons h _, .failed h' => by cases h.unique h'
  | .cons h hes, .cons h' hes' => by
    cases h.unique h'
    rw [hes.unique hes']

end

theorem TranslatesAlong.of_singleton {r : Except Fault (List Schema)}
    (h : g.TranslatesAlong settings [⟨none, n⟩] r) :
    ∃ r', g.Translates settings n r' ∧ r = r'.map ([·]) := by
  cases h with
  | failed h => exact ⟨_, h, rfl⟩
  | cons h hnil =>
    cases hnil
    exact ⟨_, h, rfl⟩

/-- No cycle is reached. -/
def Acyclic (g : Graph) (settings : ResolverSettings) (n : Node) : Prop :=
  ∀ m, g.Reaches settings n m → ¬g.OnCycle settings m

theorem Acyclic.below {p : Plan} (h : g.Acyclic settings n) (hp : g.plan settings n = .ok p) :
    ∀ e ∈ p.edges, g.Acyclic settings e.target :=
  fun e he m hm => h m (.head (follows_of_mem_edges hp e he) hm)

/-- A node that follows nothing but leaves reaches no cycle. -/
theorem acyclic_of_followed (h : ∀ m ∈ g.followed settings n, g.followed settings m = []) :
    g.Acyclic settings n := by
  have hleaf : ∀ m k, g.Follows settings n m → ¬g.Follows settings m k := by
    intro m k hm hk
    rw [Follows, h m hm] at hk
    cases hk
  intro m hm hcycle
  obtain ⟨k, hk, hback⟩ := Relation.TransGen.head'_iff.1 hcycle
  rcases Relation.ReflTransGen.cases_head hm with rfl | ⟨m', hm', hrest⟩
  · rcases Relation.ReflTransGen.cases_head hback with rfl | ⟨k', hk', -⟩
    · exact hleaf _ _ hk hk
    · exact hleaf _ _ hk hk'
  · rcases Relation.ReflTransGen.cases_head hrest with rfl | ⟨k', hk', -⟩
    · exact hleaf _ _ hm' hk
    · exact hleaf _ _ hm' hk'

end Graph

/-! ### Runs that end as the translation does -/

namespace Graph

variable {g : Graph} {settings : ResolverSettings} {levels : Nat} {place : Place} {n : Node} {e : Edge}
  {es : List Edge} {p : Plan} {r : Except Failure (List Schema)}

/-- The result of the edges is their translation below the place, or a failure for depth, which needs
that there are fewer levels than nodes. -/
def RunsAs (g : Graph) (settings : ResolverSettings) (levels : Nat) (place : Place) (es : List Edge)
    (r : Except Failure (List Schema)) : Prop :=
  (∃ r', g.TranslatesAlong settings es r' ∧ r = r'.mapError (Fault.failure place)) ∨
    levels < g.nodes.length ∧ ∃ f, r = .error f ∧ f.cause = .depthExceeded settings.limit

namespace RunsAs

theorem cons {schema : Schema} (h : g.Translates settings e.target (.ok schema))
    (hrest : g.RunsAs settings levels place es r) :
    g.RunsAs settings levels place (e :: es) (r.map (schema :: ·)) := by
  rcases hrest with ⟨r', htr, rfl⟩ | ⟨hlt, f, rfl, hf⟩
  · exact .inl ⟨_, .cons h htr, (mapError_map ..).symm⟩
  · exact .inr ⟨hlt, f, rfl, hf⟩

/-- Edges fail as the first of them does, whose label then leads to the place of the failure. -/
theorem failed {f : Failure} (hp : g.plan settings e.target = .ok p)
    (h : g.RunsAs settings levels (place.under e.label) p.edges (.error f)) :
    g.RunsAs settings levels place (e :: es) (.error f) := by
  rcases h with ⟨_ | schemas, htr, hr⟩ | hdeep
  · cases hr
    refine .inl ⟨_, .failed (.made hp htr), ?_⟩
    show _ = Except.error _
    rw [Fault.failure_under]
  · cases hr
  · exact .inr hdeep

theorem translates {schemas : List Schema} (hp : g.plan settings n = .ok p)
    (h : g.RunsAs settings levels place p.edges (.ok schemas)) :
    g.Translates settings n (.ok (p.assemble schemas)) := by
  rcases h with ⟨_ | schemas', htr, hr⟩ | ⟨-, f, hr, -⟩
  · cases hr
  · cases hr
    exact .made hp htr
  · cases hr

end RunsAs

end Graph

/-! ### Sessions that keep translations -/

namespace Session

variable {g : Graph} {settings : ResolverSettings} {s : Session} {n : Node}

/-- What is kept for a node that reaches no cycle is its translation. -/
def Translated (g : Graph) (settings : ResolverSettings) (s : Session) : Prop :=
  ∀ n ∈ g.nodes, g.Acyclic settings n → ∀ schema, s.mark? n.id = some (.resolved schema) →
    g.Translates settings n (.ok schema)

namespace Translated

theorem congr {s' : Session} (h : s.Translated g settings) (hm : ∀ id, s'.mark? id = s.mark? id) :
    s'.Translated g settings :=
  fun n hn hc schema hk => h n hn hc schema ((hm n.id).symm.trans hk)

theorem setMark_resolving (h : s.Translated g settings) (id : Int) :
    (s.setMark id .resolving).Translated g settings := by
  intro n hn hc schema hk
  rw [mark?_setMark] at hk
  split at hk
  · cases hk
  · exact h n hn hc schema hk

theorem setMark_resolved {schema : Schema} (hg : g.Closed) (h : s.Translated g settings)
    (hn : n ∈ g.nodes) (ht : g.Acyclic settings n → g.Translates settings n (.ok schema)) :
    (s.setMark n.id (.resolved schema)).Translated g settings := by
  intro m hm hc schema' hk
  rw [mark?_setMark] at hk
  split at hk
  · next hid =>
    obtain rfl := hg.eq_of_id_eq hm hn hid
    cases hk
    exact ht hc
  · exact h m hm hc schema' hk

theorem unmark (h : s.Translated g settings) (id : Int) : (s.unmark id).Translated g settings := by
  intro n hn hc schema hk
  rw [mark?_unmark] at hk
  split at hk
  · cases hk
  · exact h n hn hc schema hk

end Translated

end Session

/-- A walk keeps translations, and if no target reaches a cycle it ends as the translation does, since no
target is on the stack, which leads to all of them; or it ends for depth, with not enough levels for all
nodes. -/
theorem Walk.translated {g : Graph} {settings : ResolverSettings} {levels : Nat} {place : Place}
    {es : List Edge} {s s' : Session} {r : Except Failure (List Schema)} {stack : List Node}
    (hg : g.Closed) (h : Walk g settings levels place es s r s') (hkept : s.Translated g settings)
    (hs : s.Stacked g stack) (hes : ∀ e ∈ es, e.target ∈ g.nodes) (hleads : g.Leads settings stack es) :
    s'.Translated g settings ∧ ((∀ e ∈ es, g.Acyclic settings e.target) →
      g.RunsAs settings (levels + stack.length) place es r) := by
  induction h generalizing stack with
  | nil => exact ⟨hkept, fun _ => .inl ⟨_, .nil, rfl⟩⟩
  | @cached levels place e es s schema r s' hm _ ih =>
    obtain ⟨ht, hes⟩ := List.forall_mem_cons.1 hes
    obtain ⟨hkept', hrest⟩ := ih hkept hs hes hleads.tail
    refine ⟨hkept', fun hc => ?_⟩
    obtain ⟨hct, hc⟩ := List.forall_mem_cons.1 hc
    exact .cons (hkept e.target ht hct schema hm) (hrest hc)
  | @cut levels place e es s event r s' hm _ ih =>
    obtain ⟨ht, hes⟩ := List.forall_mem_cons.1 hes
    obtain ⟨hkept', -⟩ := ih (hkept.congr fun _ => rfl) (hs.report _) hes hleads.tail
    refine ⟨hkept', fun hc => ?_⟩
    -- the target is on the stack, and the stack leads to it
    have hcycle : g.OnCycle settings e.target :=
      hleads e.target (hs.mem_of_mark? hg ht hm) e (List.mem_cons_self ..)
    exact absurd hcycle (hc e (List.mem_cons_self ..) e.target .refl)
  | deep hm =>
    have hlt := hs.room (List.forall_mem_cons.1 hes).1 hm
    exact ⟨hkept, fun _ => .inr ⟨by omega, _, rfl, rfl⟩⟩
  | @fault levels place e es s cause hm hp =>
    refine ⟨hkept, fun _ => .inl ⟨_, .failed (.fault hp), ?_⟩⟩
    show _ = Except.error _
    rw [Graph.Fault.failure_under, Graph.Fault.failure_nil]
  | @failed levels place e es s plan f s' hm hp _ ih =>
    obtain ⟨ht, -⟩ := List.forall_mem_cons.1 hes
    obtain ⟨hkept', hbelow⟩ := ih (hkept.setMark_resolving _) (hs.push ht hm)
      (Graph.mem_nodes_of_mem_edges hp) (hleads.push hp)
    refine ⟨hkept'.unmark _, fun hc => ?_⟩
    have hruns := hbelow ((hc e (List.mem_cons_self ..)).below hp)
    rw [List.length_cons, Nat.add_comm stack.length, ← Nat.add_assoc] at hruns
    exact .failed hp hruns
  | @done levels place e es s plan schemas s₁ r s' hm hp hw _ ih₁ ih₂ =>
    obtain ⟨ht, hes⟩ := List.forall_mem_cons.1 hes
    obtain ⟨hkept₁, hbelow⟩ := ih₁ (hkept.setMark_resolving _) (hs.push ht hm)
      (Graph.mem_nodes_of_mem_edges hp) (hleads.push hp)
    have htarget : g.Acyclic settings e.target →
        g.Translates settings e.target (.ok (plan.assemble schemas)) :=
      fun hc => (hbelow (hc.below hp)).translates hp
    obtain ⟨hkept', hrest⟩ := ih₂ (hkept₁.setMark_resolved hg ht htarget)
      ((hw.stacked (hs.push ht hm)).finish _) hes hleads.tail
    refine ⟨hkept', fun hc => ?_⟩
    obtain ⟨hct, hc⟩ := List.forall_mem_cons.1 hc
    exact .cons (htarget hct) (hrest hc)

namespace Resolve

variable {g : Graph} {settings : ResolverSettings} {n : Node} {s : Session}

theorem map_singleton_injective {ε α : Type} :
    Function.Injective (Except.map ([·]) : Except ε α → Except ε (List α)) := by
  intro x y h
  cases x <;> cases y <;> simp_all [Except.map]

theorem translated_of_resolve (hg : g.Closed) (levels : Nat) (hs : s.Stacked g [])
    (hkept : s.Translated g settings) (hn : n ∈ g.nodes) (place : Place) :
    (exec (resolve g settings levels place n) s).2.Translated g settings ∧
      (g.Acyclic settings n →
        (∃ r, g.Translates settings n r ∧
          (exec (resolve g settings levels place n) s).1 = r.mapError (Graph.Fault.failure place)) ∨
        levels < g.nodes.length ∧ ∃ f, (exec (resolve g settings levels place n) s).1 = .error f ∧
          f.cause = .depthExceeded settings.limit) := by
  obtain ⟨hkept', htr⟩ := (walk_of_resolve g settings levels place n s).translated hg hkept hs
    (by simpa using hn) .nil
  refine ⟨hkept', fun hc => ?_⟩
  rcases htr (by simpa using hc) with ⟨r', hr', hresult⟩ | ⟨hlt, f, hf, hcause⟩
  · obtain ⟨r, htranslates, rfl⟩ := hr'.of_singleton
    rw [mapError_map] at hresult
    exact .inl ⟨r, htranslates, map_singleton_injective hresult⟩
  · exact .inr ⟨hlt, f, map_eq_error_iff.1 hf, hcause⟩

/-- With levels for every node, a fresh session finds the translation, which no levels are part of. -/
theorem exists_translates (hg : g.Closed) (hn : n ∈ g.nodes) (hc : g.Acyclic settings n) :
    ∃ r, g.Translates settings n r := by
  have hempty : ({} : Session).Translated g settings := fun _ _ _ _ h => nomatch h
  obtain ⟨-, htr⟩ := translated_of_resolve hg g.nodes.length stacked_empty hempty hn .nowhere
  obtain ⟨r, hr, -⟩ := (htr hc).resolve_right fun hdeep => absurd hdeep.1 (Nat.lt_irrefl _)
  exact ⟨r, hr⟩

theorem translated_after (hg : g.Closed) {requests : List Request} (hreq : ∀ q ∈ requests, q.Within g) :
    (Session.after g settings requests {}).Translated g settings := by
  refine (Session.after_keeps (I := fun s => s.Stacked g [] ∧ s.Translated g settings)
    (fun s subjects h => ?_) (fun s place n hn h => ?_) hreq
    ⟨stacked_empty, fun _ _ _ _ h => nomatch h⟩).2
  · have hmark := fun id => Session.mark?_declareAll subjects id s
    exact ⟨h.1.congr hmark, h.2.congr hmark⟩
  · exact ⟨stacked_of_resolve h.1, (translated_of_resolve hg settings.levels h.1 h.2 hn place).1⟩

end Resolve

namespace Machine

variable {g : Graph} {settings : ResolverSettings} {n : Node}

/-- The answer is the translation below the place, or the stack was full when it ended. -/
def AnsweredAs (g : Graph) (settings : ResolverSettings) (r : Except Graph.Fault Schema) (place : Place)
    (result : Except Raised Reply) : Prop :=
  result.mapError Raised.failure = (r.mapError (Graph.Fault.failure place)).map .schema ∨
    ∃ raised limit, result = .error raised ∧ raised.failure.cause = .depthExceeded limit ∧
      Exhausted g settings raised limit

theorem answeredAs_of_exec {m m' : Machine} {q : Request} {s : Session} {place : Place}
    {result : Except Raised Reply} {r : Except Graph.Fault Schema} (hg : g.Closed) (hq : q.Within g)
    (hm : m.AtRest) (htidy : m.Tidy) (hceiling : g.nodes.length ≤ settings.maxDepth)
    (hanswer : m.answer g settings q = some (result, m'))
    (hresult : result.mapError Raised.failure =
      (Resolve.exec (Resolve.resolve g settings settings.levels place n) s).1.map .schema)
    (hr : g.Translates settings n r)
    (h : (∃ r, g.Translates settings n r ∧
        (Resolve.exec (Resolve.resolve g settings settings.levels place n) s).1 =
          r.mapError (Graph.Fault.failure place)) ∨
      settings.levels < g.nodes.length ∧
        ∃ f, (Resolve.exec (Resolve.resolve g settings settings.levels place n) s).1 = .error f ∧
          f.cause = .depthExceeded settings.limit) :
    AnsweredAs g settings r place result := by
  rcases h with ⟨r', hr', heq⟩ | ⟨-, f, heq, hcause⟩
  · obtain rfl := hr'.unique hr
    exact .inl (by rw [hresult, heq])
  · rw [heq] at hresult
    cases result with
    | ok reply => cases hresult
    | error raised =>
      obtain rfl : raised.failure = f := Except.error.inj hresult
      exact .inr ⟨raised, _, rfl, hcause, exhausted_of_answer hg hq hm htidy hceiling hanswer hcause⟩

/-- Whatever was asked before, a node that reaches no cycle has one plain translation and is answered
with it, for a declaration as for none: with its schema, or with its fault, below where the resolution
began. Below a ceiling with room for every node it is answered otherwise only where the stack is full. -/
theorem answer_translates (hg : g.Closed) (hceiling : g.nodes.length ≤ settings.maxDepth)
    {before : List Request} (hbefore : ∀ q ∈ before, q.Within g) (hn : n ∈ g.nodes)
    (hc : g.Acyclic settings n) :
    ∃ r m, g.Translates settings n r ∧ (∀ r', g.Translates settings n r' → r' = r) ∧
      after g settings before {} = some m ∧
      (∃ result m', m.answer g settings (.node n) = some (result, m') ∧
        AnsweredAs g settings r .nowhere result) ∧
      ∀ D, D.node = n → ∃ result m', m.answer g settings (.subject D) = some (result, m') ∧
        AnsweredAs g settings r (.top D.name) result := by
  obtain ⟨m, hm, hrests⟩ := rests_after hg (Rests.empty g settings) hbefore
  have htidy := tidy_after tidy_empty hm
  have hkept : (Session.after g settings before {}).Translated g settings := Resolve.translated_after hg hbefore
  obtain ⟨r, hr⟩ := Resolve.exists_translates hg hn hc
  refine ⟨r, m, hr, fun r' h => h.unique hr, hm, ?_, fun D hD => ?_⟩
  · have hq : (Request.node n).Within g := fun k hk => by cases hk; exact hn
    obtain ⟨result, m', hanswer, heq, -⟩ := hrests.answer hg hq
    rw [Session.answer, Session.replying_eq] at heq
    obtain ⟨-, hnode⟩ := Resolve.translated_of_resolve hg settings.levels hrests.stacked hkept hn .nowhere
    exact ⟨result, m', hanswer,
      answeredAs_of_exec hg hq hrests.atRest htidy hceiling hanswer heq hr (hnode hc)⟩
  · subst hD
    have hq : (Request.subject D).Within g := fun k hk => by cases hk; exact hn
    obtain ⟨result, m', hanswer, heq, -⟩ := hrests.answer hg hq
    rw [Session.answer, Session.replying_eq] at heq
    have hmark := fun id => Session.mark?_declareAll [D] id (Session.after g settings before {})
    obtain ⟨-, hsubject⟩ := Resolve.translated_of_resolve hg settings.levels (hrests.stacked.congr hmark)
      (hkept.congr hmark) hn (.top D.name)
    exact ⟨result, m', hanswer,
      answeredAs_of_exec hg hq hrests.atRest htidy hceiling hanswer heq hr (hsubject hc)⟩

end Machine

/-! ### A note in a binder -/

def Node.text : Node := .plain 4 TypeFlag.string "string" []

def Node.note : Node := .plain 3 TypeFlag.object "Note" [.plain "text" 4]

/-- A binder lies on a cycle, and it fails after its note. -/
def Graph.binders : Graph where
  nodes := [.plain 1 TypeFlag.object "Binder" [.plain "next" 1, .plain "note" 3, .plain "serial" 2],
    .plain 2 TypeFlag.bigInt "bigint" [], .note, .text]
  declarations := []

theorem Graph.closed_binders : binders.Closed := ⟨by decide, by decide, by decide⟩

def Subject.note : Subject := ⟨"Note", "interface", .note⟩

/-- The note that the binder left when it failed is the note by itself. -/
theorem Machine.answer_note :
    ∃ m m' result, after Graph.binders {} (Graph.binders.nodes.map .node) {} = some m ∧
      m.answer Graph.binders {} (.subject .note) = some (result, m') ∧
      result.mapError Raised.failure =
        .ok (.schema (.object [("text", .typed "string")] ["text"] none)) := by
  have hbefore : ∀ q ∈ Graph.binders.nodes.map Request.node, q.Within Graph.binders := by
    intro q hq
    obtain ⟨n, hn, rfl⟩ := List.mem_map.1 hq
    intro k hk
    cases hk
    exact hn
  obtain ⟨r, m, -, hunique, hm, -, hsubject⟩ := @answer_translates Graph.binders {} .note
    Graph.closed_binders (by decide) _ hbefore (by decide) (Graph.acyclic_of_followed (by decide))
  obtain ⟨result, m', hanswer, has⟩ := hsubject .note rfl
  have htext : Graph.binders.Translates {} .text (.ok (.typed "string")) :=
    .made (p := .leaf (.typed "string")) rfl .nil
  have hnote : Graph.binders.Translates {} .note
      (.ok (.object [("text", .typed "string")] ["text"] none)) :=
    .made (p := .object [⟨"text", false, .text⟩] none) rfl (.cons htext .nil)
  obtain rfl := hunique _ hnote
  refine ⟨m, m', result, hm, hanswer, has.resolve_right fun ⟨raised, limit, _, _, hfull⟩ => ?_⟩
  -- there are fewer nodes than the stack has room for
  have hlt := Nat.lt_of_lt_of_le hfull.full hfull.length_le
  exact absurd hlt (by decide)

/-! ### The highest rung -/

theorem Graph.acyclic_rung {length i : Nat} {settings : ResolverSettings} (hi : i < length) :
    (ladder length).Acyclic settings (.rung i) := by
  have hlt : ∀ m k, Relation.TransGen ((ladder length).Follows settings) m k →
      m ∈ (ladder length).nodes → k.id < m.id := by
    intro m k h hm
    induction h with
    | single h => exact id_lt_of_follows h hm
    | tail hmb h ih => exact Int.lt_trans (id_lt_of_follows h (Reaches.mem_nodes hm hmb.to_reflTransGen)) ih
  intro m hm hcycle
  exact Int.lt_irrefl _ (hlt m m hcycle (hm.mem_nodes (rung_mem_nodes hi)))

theorem Graph.translates_rung {length i : Nat} {settings : ResolverSettings} (hi : i < length) :
    ∃ schema, (ladder length).Translates settings (.rung i) (.ok schema) := by
  induction i with
  | zero => exact ⟨.typed "string", .made plan_rung_zero .nil⟩
  | succ i ih =>
    obtain ⟨schema, h⟩ := ih (by omega)
    exact ⟨_, .made (plan_rung_succ hi) (.cons (e := ⟨some "child", .rung i⟩) h .nil)⟩

/-- The rung reaches no cycle and has a schema for its translation, but on a machine of which nothing was
asked before it fails for depth. -/
theorem Machine.answer_rung :
    (Graph.ladder 1200).Closed ∧ (Graph.ladder 1200).Acyclic { maxDepth := 100000 } (.rung 1199) ∧
      (∃ schema, (Graph.ladder 1200).Translates { maxDepth := 100000 } (.rung 1199) (.ok schema)) ∧
      ∃ raised m', answer (.ladder 1200) { maxDepth := 100000 } {} (.node (.rung 1199)) = some (.error raised, m') ∧
        raised.failure.cause = .depthExceeded 241 := by
  obtain ⟨raised, m', hrun, hfailure, -⟩ := @resolve_rung 1200 240 1199
    (ResolverSettings.levels { maxDepth := 100000 }) { maxDepth := 100000 } {} (by decide) rfl (by decide)
    (by decide) (by decide) fun _ _ => rfl
  exact ⟨Graph.closed_ladder (by decide), Graph.acyclic_rung (by decide), Graph.translates_rung (by decide), raised,
    m', answer_node hrun, by rw [hfailure]; rfl⟩

end TypeSchema
