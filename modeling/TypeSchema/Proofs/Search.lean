import Mathlib.Data.List.Perm.Subperm
import TypeSchema.Proofs.Faults

/-!
# Resolution as a depth-first search

The nodes that are being resolved form a stack, `Session.Stacked`. With it a walk is a depth-first
search: it goes through exactly if no fault is reached without the nodes that are marked before, and
otherwise it stops at the first such fault.
-/

namespace TypeSchema

/-! ### The stack of a session -/

namespace Session

variable {g : Graph} {s : Session} {stack : List Node} {n : Node}

/-- The nodes that are being resolved, the innermost first. -/
structure Stacked (g : Graph) (s : Session) (stack : List Node) : Prop where
  mem_nodes : ∀ n ∈ stack, n ∈ g.nodes
  nodup : (stack.map (·.id)).Nodup
  resolving_iff : ∀ id, s.mark? id = some .resolving ↔ ∃ n ∈ stack, n.id = id

theorem isMarked_setMark (id : Int) (mark : Mark) (s : Session) :
    (s.setMark id mark).IsMarked = fun other => s.IsMarked other ∨ other = id := by
  funext other
  unfold IsMarked
  rw [mark?_setMark]
  split
  · next h => simp [h]
  · next h => simp [h]

theorem IsResolved.of_setMark_resolving {id other : Int}
    (h : (s.setMark id .resolving).IsResolved other) : s.IsResolved other := by
  obtain ⟨schema, h⟩ := h
  rw [mark?_setMark] at h
  split at h
  · cases h
  · exact ⟨schema, h⟩

theorem IsResolved.of_setMark {id other : Int} {mark : Mark}
    (h : (s.setMark id mark).IsResolved other) : s.IsResolved other ∨ other = id := by
  obtain ⟨schema, h⟩ := h
  rw [mark?_setMark] at h
  split at h
  · next hid => exact .inr hid
  · exact .inl ⟨schema, h⟩

theorem IsResolved.of_unmark {id other : Int} (h : (s.unmark id).IsResolved other) :
    s.IsResolved other := by
  obtain ⟨schema, h⟩ := h
  rw [mark?_unmark] at h
  split at h
  · cases h
  · exact ⟨schema, h⟩

namespace Stacked

theorem congr {s' : Session} (h : s.Stacked g stack) (hm : ∀ id, s'.mark? id = s.mark? id) :
    s'.Stacked g stack :=
  ⟨h.mem_nodes, h.nodup, fun id => by rw [hm, h.resolving_iff]⟩

theorem report (h : s.Stacked g stack) (event : Event) : (s.report event).Stacked g stack :=
  h.congr fun _ => rfl

theorem declare (h : s.Stacked g stack) (subject : Subject) : (s.declare subject).Stacked g stack :=
  h.congr (mark?_declare subject · s)

theorem isMarked_iff (h : s.Stacked g []) (id : Int) : s.IsMarked id ↔ s.IsResolved id := by
  rw [Session.isMarked_iff, h.resolving_iff]
  simp

theorem mark?_of_mem (h : s.Stacked g stack) (hn : n ∈ stack) : s.mark? n.id = some .resolving :=
  (h.resolving_iff n.id).2 ⟨n, hn, rfl⟩

theorem mem_of_mark? (hg : g.Closed) (h : s.Stacked g stack) (hn : n ∈ g.nodes)
    (hm : s.mark? n.id = some .resolving) : n ∈ stack := by
  obtain ⟨m, hmem, hid⟩ := (h.resolving_iff n.id).1 hm
  rwa [← hg.eq_of_id_eq (h.mem_nodes m hmem) hn hid]

theorem mark?_ne_resolving (h : s.Stacked g []) (id : Int) : s.mark? id ≠ some .resolving :=
  fun hm => by simpa using (h.resolving_iff id).1 hm

theorem push (h : s.Stacked g stack) (hn : n ∈ g.nodes) (hm : s.mark? n.id = none) :
    (s.setMark n.id .resolving).Stacked g (n :: stack) := by
  refine ⟨List.forall_mem_cons.2 ⟨hn, h.mem_nodes⟩, List.nodup_cons.2 ⟨fun hid => ?_, h.nodup⟩,
    fun id => ?_⟩
  · obtain ⟨m, hmem, hid⟩ := List.mem_map.1 hid
    cases hm.symm.trans ((h.resolving_iff n.id).2 ⟨m, hmem, hid⟩)
  · rw [mark?_setMark, List.exists_mem_cons_iff, ← h.resolving_iff]
    split
    · next hid => simp [hid]
    · next hid => simp [Ne.symm hid]

/-- The innermost node has another mark than `resolving` now, and all others the mark of before. -/
theorem pop {s' : Session} (h : s.Stacked g (n :: stack)) (hn : s'.mark? n.id ≠ some .resolving)
    (hother : ∀ id, id ≠ n.id → s'.mark? id = s.mark? id) : s'.Stacked g stack := by
  obtain ⟨hfresh, hnd⟩ := List.nodup_cons.1 h.nodup
  refine ⟨(List.forall_mem_cons.1 h.mem_nodes).2, hnd, fun id => ?_⟩
  by_cases hid : id = n.id
  · subst hid
    exact iff_of_false hn fun ⟨m, hm, hid⟩ => hfresh (List.mem_map.2 ⟨m, hm, hid⟩)
  · rw [hother id hid, h.resolving_iff, List.exists_mem_cons_iff]
    simp [Ne.symm hid]

theorem finish (h : s.Stacked g (n :: stack)) (schema : Schema) :
    (s.setMark n.id (.resolved schema)).Stacked g stack :=
  h.pop (by simp) fun id hid => by simp [hid]

/-- A node that is not on the stack finds room on it. -/
theorem room (h : s.Stacked g stack) (hn : n ∈ g.nodes) (hm : s.mark? n.id = none) :
    stack.length < g.nodes.length := by
  have hpush := h.push hn hm
  have hsub : (n :: stack).map (·.id) ⊆ g.ids := by
    intro id hid
    obtain ⟨m, hmem, rfl⟩ := List.mem_map.1 hid
    exact List.mem_map_of_mem (hpush.mem_nodes m hmem)
  have hle := (hpush.nodup.subperm hsub).length_le
  simp only [Graph.ids, List.length_map, List.length_cons] at hle
  exact hle

end Stacked

end Session

/-! ### Walks with a stack -/

theorem Graph.mem_nodes_of_mem_edges {g : Graph} {settings : ResolverSettings} {n : Node} {p : Plan}
    (h : g.plan settings n = .ok p) : ∀ e ∈ p.edges, e.target ∈ g.nodes :=
  fun e he => (follows_of_mem_edges h e he).mem_nodes

theorem Graph.reaches_of_mem_edges {g : Graph} {settings : ResolverSettings} {n : Node} {p : Plan}
    (h : g.plan settings n = .ok p) : ∀ e ∈ p.edges, g.Reaches settings n e.target :=
  fun e he => .single (follows_of_mem_edges h e he)

theorem Graph.exists_reaches_of_edges {g : Graph} {settings : ResolverSettings} {n : Node} {p : Plan}
    {id : Int} (h : g.plan settings n = .ok p)
    (hid : ∃ e ∈ p.edges, ∃ m, g.Reaches settings e.target m ∧ m.id = id) :
    ∃ m, g.Reaches settings n m ∧ m.id = id := by
  obtain ⟨e, he, m, hm, hid⟩ := hid
  exact ⟨m, .head (follows_of_mem_edges h e he) hm, hid⟩

namespace Walk

variable {g : Graph} {settings : ResolverSettings} {levels : Nat} {place : Place} {es : List Edge}
  {s s' : Session} {r : Except Failure (List Schema)} {stack : List Node} {id : Int} {f : Failure}

theorem stacked (h : Walk g settings levels place es s r s') (hs : s.Stacked g stack) :
    s'.Stacked g stack :=
  ⟨hs.mem_nodes, hs.nodup, fun id => (h.resolving_iff id).trans (hs.resolving_iff id)⟩

theorem isMarked_target (h : Walk g settings levels place es s r s') (hr : r.isOk) :
    ∀ e ∈ es, s'.IsMarked e.target.id := by
  induction h with
  | nil => simp
  | deep | fault | failed => cases hr
  | cached hm hw ih | cut hm hw ih =>
    rw [isOk_map] at hr
    exact List.forall_mem_cons.2 ⟨hw.isMarked (Session.isMarked_of_mark? hm), ih hr⟩
  | done _ _ _ hw _ ih =>
    rw [isOk_map] at hr
    exact List.forall_mem_cons.2 ⟨hw.isMarked (by simp [Session.IsMarked]), ih hr⟩

/-- What a walk that goes through marks hides no fault. -/
theorem extends_isMarked (hg : g.Closed) (h : Walk g settings levels place es s r s') (hr : r.isOk)
    (hes : ∀ e ∈ es, e.target ∈ g.nodes) : g.Extends settings s.IsMarked s'.IsMarked := by
  induction h with
  | nil => exact .refl _
  | deep | fault | failed => cases hr
  | cached _ _ ih | cut _ _ ih =>
    rw [isOk_map] at hr
    exact ih hr (List.forall_mem_cons.1 hes).2
  | @done levels place e es s plan schemas s₁ r s' hm hp hw₁ hw₂ ih₁ ih₂ =>
    rw [isOk_map] at hr
    obtain ⟨ht, hes⟩ := List.forall_mem_cons.1 hes
    have hbelow := ih₁ rfl (Graph.mem_nodes_of_mem_edges hp)
    rw [Session.isMarked_setMark] at hbelow
    -- all that the target follows has a mark now, and with the target itself no mark hides a fault
    have hclean : g.Clean settings s.IsMarked e.target := by
      refine Graph.clean_of_followed hg ht (Graph.not_faulty_iff.2 ⟨plan, hp⟩) fun c hc => ?_
      rw [← Graph.targets_of_plan hp] at hc
      obtain ⟨e', he', rfl⟩ := List.mem_map.1 hc
      exact hbelow.clean _ (Graph.mem_nodes_of_mem_edges hp e' he') (hw₁.isMarked_target rfl e' he')
    have hdown := (Graph.Extends.single hg ht hclean).trans hbelow
    have hself : s₁.IsMarked e.target.id := hw₁.isMarked (by simp [Session.IsMarked])
    have hup := hdown.trans (.single hg ht (Graph.clean_of_avoid hself))
    rw [← Session.isMarked_setMark] at hup
    exact hup.trans (ih₂ hr hes)

/-- A walk that does not go through stops at the first fault that the marks do not hide, or it stops for
depth, with not enough levels for all nodes. -/
theorem firstFaultAmong_or_deep (hg : g.Closed) (h : Walk g settings levels place es s r s')
    (hr : r = .error f) (hes : ∀ e ∈ es, e.target ∈ g.nodes) (hs : s.Stacked g stack) :
    g.FirstFaultAmong settings s.IsMarked (es.map (·.target)) f.cause ∨
      f.cause = .depthExceeded settings.limit ∧ levels + stack.length < g.nodes.length := by
  induction h generalizing stack f with
  | nil => cases hr
  | cached hm _ ih =>
    have hrest := ih (map_eq_error_iff.1 hr) (List.forall_mem_cons.1 hes).2 hs
    exact hrest.imp_left (.tail (Graph.clean_of_avoid (Session.isMarked_of_mark? hm)))
  | cut hm _ ih =>
    have hrest := ih (map_eq_error_iff.1 hr) (List.forall_mem_cons.1 hes).2 (hs.report _)
    exact hrest.imp_left (.tail (Graph.clean_of_avoid (Session.isMarked_of_mark? hm)))
  | deep hm =>
    cases hr
    have hlt := hs.room (List.forall_mem_cons.1 hes).1 hm
    exact .inr ⟨rfl, by omega⟩
  | fault hm hp =>
    cases hr
    exact .inl (.head (.here (Session.not_isMarked_of_mark? hm) hp))
  | @failed levels place e es s plan f' s' hm hp hw ih =>
    cases hr
    obtain ⟨ht, -⟩ := List.forall_mem_cons.1 hes
    refine (ih rfl (Graph.mem_nodes_of_mem_edges hp) (hs.push ht hm)).imp (fun hbelow => ?_)
      fun ⟨hcause, hlt⟩ => ⟨hcause, by rw [List.length_cons] at hlt; omega⟩
    rw [Session.isMarked_setMark, Graph.targets_of_plan hp] at hbelow
    have hnf := Graph.not_faulty_iff.2 ⟨plan, hp⟩
    exact .head (hbelow.deeper (Session.not_isMarked_of_mark? hm) hnf)
  | @done levels place e es s plan schemas s₁ r s' hm hp hw₁ hw₂ ih₁ ih₂ =>
    obtain ⟨ht, hes'⟩ := List.forall_mem_cons.1 hes
    have hfirst : Walk g settings (levels + 1) place [e] s (.ok [plan.assemble schemas])
        (s₁.setMark e.target.id (.resolved (plan.assemble schemas))) := .done hm hp hw₁ .nil
    have hext := hfirst.extends_isMarked hg rfl (by simpa using ht)
    have hself : s₁.setMark e.target.id (.resolved (plan.assemble schemas)) |>.IsMarked e.target.id :=
      hfirst.isMarked_target rfl e (by simp)
    -- what the first edge marks hides no fault, so the first fault of the rest is met first
    refine (ih₂ (map_eq_error_iff.1 hr) hes' ((hw₁.stacked (hs.push ht hm)).finish _)).imp_left fun hrest => ?_
    refine .tail (hext.clean _ ht hself) (hext.firstFaultAmong (fun m hmem => ?_) hrest)
    obtain ⟨e', he', rfl⟩ := List.mem_map.1 hmem
    exact hes' e' he'

/-- With levels for every node, a walk that does not go through stops at the first fault. -/
theorem firstFaultAmong (hg : g.Closed) (h : Walk g settings levels place es s r s')
    (hr : r = .error f) (hes : ∀ e ∈ es, e.target ∈ g.nodes) (hs : s.Stacked g stack)
    (hroom : g.nodes.length ≤ levels + stack.length) :
    g.FirstFaultAmong settings s.IsMarked (es.map (·.target)) f.cause :=
  (h.firstFaultAmong_or_deep hg hr hes hs).resolve_right fun hdeep => absurd hroom (Nat.not_le.2 hdeep.2)

theorem isMarked_of_follows (hg : g.Closed) (h : Walk g settings levels place es s r s') (hr : r.isOk)
    (hes : ∀ e ∈ es, e.target ∈ g.nodes) {m k : Node} (hm : m ∈ g.nodes) (hin : s'.IsMarked m.id)
    (hout : ¬s.IsMarked m.id) (hk : g.Follows settings m k) : s'.IsMarked k.id := by
  induction h with
  | nil => exact absurd hin hout
  | deep | fault | failed => cases hr
  | cached _ _ ih | cut _ _ ih =>
    rw [isOk_map] at hr
    exact ih hr (List.forall_mem_cons.1 hes).2 hin hout
  | @done levels place e es s plan schemas s₁ r s' _ hp hw₁ hw₂ ih₁ ih₂ =>
    rw [isOk_map] at hr
    obtain ⟨ht, hes⟩ := List.forall_mem_cons.1 hes
    -- either the walk below the target has marked the node, or the rest of the edges
    by_cases hlater : s₁.IsMarked m.id ∨ m.id = e.target.id
    · have hk₁ : s₁.IsMarked k.id := by
        by_cases hid : m.id = e.target.id
        · obtain rfl := hg.eq_of_id_eq hm ht hid
          have hmem : k ∈ plan.edges.map (·.target) := Graph.targets_of_plan hp ▸ hk
          obtain ⟨e', he', rfl⟩ := List.mem_map.1 hmem
          exact hw₁.isMarked_target rfl e' he'
        · refine ih₁ rfl (Graph.mem_nodes_of_mem_edges hp) (hlater.resolve_right hid) ?_
          rw [Session.isMarked_setMark]
          exact not_or.2 ⟨hout, hid⟩
      exact hw₂.isMarked (by rw [Session.isMarked_setMark]; exact .inl hk₁)
    · exact ih₂ hr hes hin (by rw [Session.isMarked_setMark]; exact hlater)

theorem exists_reaches_of_isResolved (h : Walk g settings levels place es s r s')
    (hid : s'.IsResolved id) :
    s.IsResolved id ∨ ∃ e ∈ es, ∃ m, g.Reaches settings e.target m ∧ m.id = id := by
  induction h with
  | nil | deep | fault => exact .inl hid
  | cached _ _ ih | cut _ _ ih =>
    exact (ih hid).imp_right fun ⟨e, he, h⟩ => ⟨e, List.mem_cons_of_mem _ he, h⟩
  | @failed _ _ e _ _ _ _ _ _ hp _ ih =>
    refine (ih hid.of_unmark).imp (·.of_setMark_resolving) fun h => ?_
    exact ⟨e, List.mem_cons_self .., Graph.exists_reaches_of_edges hp h⟩
  | @done _ _ e _ _ _ _ _ _ _ _ hp _ _ ih₁ ih₂ =>
    rcases ih₂ hid with hid | ⟨e', he', h⟩
    · rcases hid.of_setMark with hid | hid
      · refine (ih₁ hid).imp (·.of_setMark_resolving) fun h => ?_
        exact ⟨e, List.mem_cons_self .., Graph.exists_reaches_of_edges hp h⟩
      · exact .inr ⟨e, List.mem_cons_self .., e.target, .refl, hid.symm⟩
    · exact .inr ⟨e', List.mem_cons_of_mem _ he', h⟩

end Walk

/-! ### Resolving one node -/

namespace Resolve

variable {g : Graph} {settings : ResolverSettings} {levels : Nat} {place : Place} {n : Node}
  {s s' : Session} {schema : Schema} {f : Failure}

theorem stacked_of_resolve {stack : List Node} (hs : s.Stacked g stack) :
    (exec (resolve g settings levels place n) s).2.Stacked g stack :=
  (walk_of_resolve g settings levels place n s).stacked hs

theorem isMarked_of_resolve (h : exec (resolve g settings levels place n) s = (.ok schema, s')) :
    s'.IsMarked n.id := by
  have hw := walk_of_resolve g settings levels place n s
  rw [h] at hw
  exact hw.isMarked_target rfl ⟨none, n⟩ (by simp)

theorem clean_of_resolve (hg : g.Closed) (hn : n ∈ g.nodes)
    (h : exec (resolve g settings levels place n) s = (.ok schema, s')) :
    g.Clean settings s.IsMarked n := by
  have hw := walk_of_resolve g settings levels place n s
  rw [h] at hw
  exact (hw.extends_isMarked hg rfl (by simpa using hn)).clean n hn (isMarked_of_resolve h)

theorem firstFault_or_deep_of_resolve (hg : g.Closed) (hn : n ∈ g.nodes) (hs : s.Stacked g [])
    (h : exec (resolve g settings levels place n) s = (.error f, s')) :
    g.FirstFault settings s.IsMarked n f.cause ∨
      f.cause = .depthExceeded settings.limit ∧ levels < g.nodes.length := by
  have hw := walk_of_resolve g settings levels place n s
  rw [h] at hw
  exact (hw.firstFaultAmong_or_deep hg rfl (by simpa using hn) hs).imp_left (·.firstFault)

theorem firstFault_of_resolve (hg : g.Closed) (hn : n ∈ g.nodes) (hs : s.Stacked g [])
    (hlevels : g.nodes.length ≤ levels)
    (h : exec (resolve g settings levels place n) s = (.error f, s')) :
    g.FirstFault settings s.IsMarked n f.cause :=
  (firstFault_or_deep_of_resolve hg hn hs h).resolve_right fun hdeep => absurd hlevels (Nat.not_le.2 hdeep.2)

/-- A node is resolved exactly if no fault is reached from it without the marked nodes. -/
theorem exists_ok_iff_clean (place : Place) (hg : g.Closed) (hn : n ∈ g.nodes) (hs : s.Stacked g [])
    (hlevels : g.nodes.length ≤ levels) :
    (∃ schema s', exec (resolve g settings levels place n) s = (.ok schema, s')) ↔
      g.Clean settings s.IsMarked n := by
  refine ⟨fun ⟨schema, s', h⟩ => clean_of_resolve hg hn h, fun hc => ?_⟩
  rcases h : exec (resolve g settings levels place n) s with ⟨f | schema, s'⟩
  · exact absurd hc (firstFault_of_resolve hg hn hs hlevels h).not_clean
  · exact ⟨schema, s', rfl⟩

theorem stacked_empty : ({} : Session).Stacked g [] :=
  ⟨by simp, List.nodup_nil, by simp⟩

/-- Where a node is resolved in a fresh session, the resolved nodes are those that it reaches. -/
theorem isResolved_iff_of_resolve (hg : g.Closed) (hn : n ∈ g.nodes)
    (h : exec (resolve g settings levels place n) {} = (.ok schema, s')) {id : Int} :
    s'.IsResolved id ↔ ∃ m, g.Reaches settings n m ∧ m.id = id := by
  have hw := walk_of_resolve g settings levels place n {}
  rw [h] at hw
  have hs := hw.stacked stacked_empty
  constructor
  · intro hid
    rcases hw.exists_reaches_of_isResolved hid with ⟨_, hid⟩ | ⟨e, he, m, hm, hid⟩
    · simp at hid
    · rw [List.mem_singleton.1 he] at hm
      exact ⟨m, hm, hid⟩
  · rintro ⟨m, hm, rfl⟩
    rw [← hs.isMarked_iff]
    induction hm with
    | refl => exact isMarked_of_resolve h
    | tail hm hk ih =>
      exact hw.isMarked_of_follows hg rfl (by simpa using hn) (Graph.Reaches.mem_nodes hn hm) ih
        (by simp [Session.IsMarked]) hk

end Resolve

/-! ### A cycle -/

/-- A node of flags and members alone. -/
def Node.plain (id : Int) (flags : Nat) (name : String) (members : List Member) : Node where
  id
  flags
  objectFlags := 0
  symbol := none
  value := none
  intrinsicName := none
  types := []
  typeArguments := []
  target := none
  members
  stringIndex := none
  display := some name

def Member.plain (name : String) (type : Int) : Member := ⟨name, type, false, 0, [], none⟩

/-- A cell holds a text and the next cell. -/
def Node.cell : Node :=
  .plain 1 TypeFlag.object "Cell" [.plain "text" 2, .plain "next" 1]

def Graph.cells : Graph where
  nodes := [.cell, .plain 2 TypeFlag.string "string" []]
  declarations := [⟨"Cell", .interface, 1⟩]

theorem Graph.closed_cells : cells.Closed := ⟨by decide, by decide, by decide⟩

end TypeSchema
