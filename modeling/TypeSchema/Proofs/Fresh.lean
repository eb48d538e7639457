import TypeSchema.Proofs.Breaches
import TypeSchema.Proofs.Ladder

/-!
# Nodes resolved afresh

Where nothing has been resolved before and the ceiling has room for every node, a node resolves exactly if
it reaches nothing that is unrepresentable, and then what it reaches is what has been resolved:
`Strict.node_resolves`. Two things can still stand in the way. A flag word that cannot be made breaks the
run, and a way down that is longer than the call stack has room for makes it fail, with as many nodes
being resolved as there was room for and one more.
-/

namespace TypeSchema

namespace Strict

variable {g : Graph} {settings : ResolverSettings} {n : Node} {s : Session} {schema : Schema} {f : Failure}

theorem agrees_node (settings : ResolverSettings) (hg : g.Closed) (hn : n ∈ g.nodes) :
    Agrees g settings (node g settings n) (Resolve.exec (Resolve.node g settings n) {}) :=
  agrees_resolve settings hg hn ⟨rfl, rfl, fun _ => rfl, fun _ => rfl⟩ (.of_stacked Resolve.stacked_empty)
    (Nat.zero_add _) (Nat.zero_add _)

/-- Where flag words can be made, a run that goes through in a session is not broken. -/
theorem node_of_exec_ok (hg : g.Closed) (hn : n ∈ g.nodes) (hflags : ∀ i, ¬g.Unfolded i)
    (h : Resolve.exec (Resolve.node g settings n) {} = (.ok schema, s)) :
    (node g settings n).1 = .ok schema ∧ (node g settings n).2.Shows s := by
  have hagrees := agrees_node settings hg hn
  rw [h] at hagrees
  refine hagrees.resolve_right fun ⟨i, hi, _⟩ => ?_
  rcases hi.reason with hunfolded | ⟨f, hf, -⟩
  · exact hflags i hunfolded
  · cases hf

/-- A run that goes through is that of the session. -/
theorem exec_of_node_ok (hg : g.Closed) (hn : n ∈ g.nodes) (h : (node g settings n).1.isOk) :
    ∃ schema s, Resolve.exec (Resolve.node g settings n) {} = (.ok schema, s) ∧ (node g settings n).2.Shows s := by
  have hagrees := agrees_node settings hg hn
  rcases hx : Resolve.exec (Resolve.node g settings n) {} with ⟨f | schema, s⟩
  all_goals rw [hx] at hagrees
  · rcases hagrees with ⟨hresult, -⟩ | ⟨i, -, hresult⟩ <;> rw [hresult] at h <;> cases h
  · rcases hagrees with ⟨-, hshows⟩ | ⟨i, -, hresult⟩
    · exact ⟨schema, s, rfl, hshows⟩
    · rw [hresult] at h
      cases h

/-- A failure for depth below the ceiling is one of the stack, which no integer breaks. -/
theorem node_of_exec_deep (hg : g.Closed) (hn : n ∈ g.nodes) (hflags : ∀ i, ¬g.Unfolded i)
    (hceiling : settings.stackRoom < settings.maxDepth)
    (h : Resolve.exec (Resolve.node g settings n) {} = (.error f, s)) {limit : Int}
    (hcause : f.cause = .depthExceeded limit) : (node g settings n).1 = .error (.failed f) := by
  have hagrees := agrees_node settings hg hn
  rw [h] at hagrees
  rcases hagrees with ⟨hresult, -⟩ | ⟨i, hi, -⟩
  · exact hresult
  · rcases hi.reason with hunfolded | ⟨f', hf, htold⟩
    · exact absurd hunfolded (hflags i)
    · cases hf
      have hle := htold limit hcause
      omega

theorem stage?_eq_resolved_iff {m : Machine} (h : m.Shows s) (id : Int) :
    m.stage? id = some .resolved ↔ s.IsResolved id := by
  rw [h.stage?_eq, Session.IsResolved]
  rcases s.mark? id with _ | ⟨_ | _⟩ <;> simp [Mark.stage]

/-- Where flag words can be made, below a ceiling with room for every node: what resolves reaches nothing
unrepresentable, and all that it reaches has been resolved then. What reaches nothing unrepresentable
resolves, unless the stack has no room for as many nodes as are inside one another there. -/
theorem node_resolves (hg : g.Closed) (hn : n ∈ g.nodes) (hceiling : g.nodes.length ≤ settings.maxDepth)
    (hflags : ∀ i, ¬g.Unfolded i) :
    ((node g settings n).1.isOk →
        (∀ k, g.Reaches settings n k → ¬g.Unrepresentable k) ∧
          ∀ id, (node g settings n).2.stage? id = some .resolved ↔ ∃ k, g.Reaches settings n k ∧ k.id = id) ∧
      ((∀ k, g.Reaches settings n k → ¬g.Unrepresentable k) →
        (node g settings n).1.isOk ∨
          settings.stackRoom < g.nodes.length ∧ ∃ (limit : Nat) (place : Place),
            (node g settings n).1 = .error (.failed ⟨.depthExceeded limit, place⟩) ∧
              settings.stackRoom < limit ∧ limit ≤ g.nodes.length) := by
  have hclean : (∀ k, g.Reaches settings n k → ¬g.Unrepresentable k) ↔
      g.Clean settings ({} : Session).IsMarked n := by
    rw [Graph.clean_iff_of_none (by simp [Session.IsMarked]), Graph.forall_not_faulty_iff hg hn]
  refine ⟨fun hok => ?_, fun hrepresentable => ?_⟩
  · obtain ⟨schema, s, hexec, hshows⟩ := exec_of_node_ok hg hn hok
    refine ⟨hclean.2 (Resolve.clean_of_resolve hg hn hexec), fun id => ?_⟩
    rw [stage?_eq_resolved_iff hshows, Resolve.isResolved_iff_of_resolve hg hn hexec]
  · rcases hexec : Resolve.exec (Resolve.node g settings n) {} with ⟨f | schema, s⟩
    · -- nothing is faulty, so the levels were too few, which the ceiling is not to blame for
      obtain ⟨hcause, hlevels⟩ := (Resolve.firstFault_or_deep_of_resolve hg hn Resolve.stacked_empty
        hexec).resolve_left fun hfault => hfault.not_clean (hclean.1 hrepresentable)
      rw [ResolverSettings.levels] at hlevels
      rw [ResolverSettings.limit, if_neg (by omega)] at hcause
      have hstrict := node_of_exec_deep hg hn hflags (by omega) hexec hcause
      obtain ⟨cause, place⟩ := f
      obtain rfl := hcause
      exact .inr ⟨by omega, settings.stackRoom + 1, place, hstrict, by omega, by omega⟩
    · refine .inl ?_
      rw [(node_of_exec_ok hg hn hflags hexec).1]
      rfl

/-- The cycle of a cell through itself hides nothing, and there is room for its two nodes. -/
theorem node_cells :
    (∀ k, Graph.cells.Reaches {} .cell k → ¬Graph.cells.Unrepresentable k) ∧
      (∀ i, ¬Graph.cells.Unfolded i) ∧
      (node Graph.cells {} .cell).1.isOk ∧
      ∀ id, (node Graph.cells {} .cell).2.stage? id = some .resolved ↔
        ∃ k, Graph.cells.Reaches {} .cell k ∧ k.id = id := by
  have hflags : ∀ i, ¬Graph.cells.Unfolded i := by
    rintro i ⟨n, hn, m, hm, hbreaks⟩
    have hok : ∀ n ∈ Graph.cells.nodes, ∀ m ∈ n.members, checkFlags m = .ok () := by decide
    rw [hok n hn m hm] at hbreaks
    cases hbreaks
  obtain ⟨hok, -⟩ := @node_resolves Graph.cells {} .cell Graph.closed_cells (by decide) (by decide) hflags
  have hresolves : (node Graph.cells {} .cell).1.isOk := by decide +kernel
  obtain ⟨hrepresentable, hids⟩ := hok hresolves
  exact ⟨hrepresentable, hflags, hresolves, hids⟩

theorem not_unfolded_ladder (length : Nat) (i : Int) : ¬(Graph.ladder length).Unfolded i := by
  rintro ⟨n, hn, m, hm, hbreaks⟩
  obtain ⟨j, -, rfl⟩ := List.mem_map.1 hn
  cases j with
  | zero => cases hm
  | succ j =>
    obtain rfl := List.mem_singleton.1 hm
    cases hbreaks

/-- Of a ladder of so many rungs nothing is unrepresentable and the ceiling is far off, but the highest does
not resolve: on the way down the stack is full. -/
theorem deep_does_not_resolve :
    (Graph.ladder 1200).Closed ∧ (∀ i, ¬(Graph.ladder 1200).Unfolded i) ∧
      (Graph.ladder 1200).nodes.length ≤ ({ maxDepth := 100000 } : ResolverSettings).maxDepth ∧
      (∀ k, (Graph.ladder 1200).Reaches { maxDepth := 100000 } (.rung 1199) k →
        ¬(Graph.ladder 1200).Unrepresentable k) ∧
      (node (.ladder 1200) { maxDepth := 100000 } (.rung 1199)).1 =
        .error (.failed ⟨.depthExceeded 241, ⟨none, List.replicate 240 "child"⟩⟩) := by
  have hg : (Graph.ladder 1200).Closed := Graph.closed_ladder (by decide)
  have hflags := not_unfolded_ladder 1200
  obtain ⟨s, hexec⟩ := @Resolve.exec_node_rung 1200 1199 { maxDepth := 100000 } (by decide) (by decide) (by decide)
  refine ⟨hg, hflags, ?_, Graph.not_unrepresentable_ladder _ (by decide), ?_⟩
  · rw [Graph.length_nodes_ladder]
    decide
  · exact node_of_exec_deep hg (Graph.rung_mem_nodes (by decide)) hflags (by decide) hexec rfl

end Strict

end TypeSchema
