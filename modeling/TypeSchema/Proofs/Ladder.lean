import TypeSchema.Proofs.Machine
import TypeSchema.Proofs.Search

/-!
# Ladders

A ladder of rungs, each of which holds the one below it, is the plainest graph in which nodes are nested:
it has no cycle and nothing in it is unrepresentable. Where the call stack has room for fewer rungs than
there are on the way down, and the ceiling is above that, the resolution of a rung still fails:
`Machine.resolve_rung`.
-/

namespace TypeSchema

/-- The rungs of a ladder: a text, and objects that hold the rung below. -/
def Node.rung : Nat → Node
  | 0 => .plain 0 TypeFlag.string "string" []
  | i + 1 => .plain (i + 1 : Nat) TypeFlag.object "Rung" [.plain "child" i]

namespace Graph

/-- So many rungs, of which the highest and the lowest are declared. -/
def ladder (length : Nat) : Graph where
  nodes := (List.range length).map Node.rung
  declarations := [⟨"Deep", .typeAlias, (length - 1 : Nat)⟩, ⟨"Leaf", .typeAlias, 0⟩]

variable {length i : Nat} {settings : ResolverSettings}

theorem id_rung (i : Nat) : (Node.rung i).id = i := by cases i <;> rfl

theorem length_nodes_ladder (length : Nat) : (ladder length).nodes.length = length := by
  rw [ladder, List.length_map, List.length_range]

theorem rung_mem_nodes (h : i < length) : Node.rung i ∈ (ladder length).nodes :=
  List.mem_map_of_mem (List.mem_range.2 h)

theorem ids_ladder (length : Nat) : (ladder length).ids = (List.range length).map Int.ofNat := by
  rw [ids, ladder, List.map_map]
  exact List.map_congr_left fun i _ => id_rung i

theorem ofNat_mem_ids_ladder (h : i < length) : (i : Int) ∈ (ladder length).ids := by
  rw [ids_ladder]
  exact List.mem_map_of_mem (List.mem_range.2 h)

theorem closed_ladder (h : 0 < length) : (ladder length).Closed where
  nodup := by
    rw [ids_ladder]
    exact List.nodup_range.map fun _ _ h => Int.ofNat.inj h
  references n hn id hid := by
    obtain ⟨i, hi, rfl⟩ := List.mem_map.1 hn
    rw [List.mem_range] at hi
    cases i with
    | zero => simp [Node.rung, Node.plain, Node.references] at hid
    | succ i =>
      obtain rfl : id = i := by simpa [Node.rung, Node.plain, Member.plain, Node.references] using hid
      exact ofNat_mem_ids_ladder (by omega)
  declarations d hd := by
    simp only [ladder, List.mem_cons, List.not_mem_nil, or_false] at hd
    rcases hd with rfl | rfl
    · exact ofNat_mem_ids_ladder (by omega)
    · exact ofNat_mem_ids_ladder h

theorem node?_rung (h : i < length) : (ladder length).node? i = some (.rung i) := by
  rw [← id_rung i]
  exact (closed_ladder (by omega)).node?_eq (rung_mem_nodes h)

theorem plan_rung_zero : (ladder length).plan settings (.rung 0) = .ok (.leaf (.typed "string")) := rfl

/-- An object that nothing marks as one of the other shapes of objects. -/
theorem shape?_of_flags {g : Graph} {n : Node} (hflags : n.flags = TypeFlag.object) (hobject : n.objectFlags = 0)
    (hsymbol : n.symbol = none) (hname : n.displayText ≠ "Date") (hindex : n.stringIndex = none) :
    g.shape? n = some .object := by
  have hprimitive : n.isPrimitive = false := by
    rw [Node.isPrimitive, Node.primitive?, hflags]
    decide
  have hreference : n.isReference = false := by
    rw [Node.isReference, hobject]
    exact Bool.and_false _
  simp [shape?, Node.isEnum, Node.isLiteral, Node.isBigIntLiteral, Node.isGeneric, Node.isUnion,
    Node.isIntersection, Node.isObject, Node.isArray, isTuple, Node.isFunctionLike, isDateName, Node.isIndexable,
    hasFlag, *]
  decide

theorem isCallable_rung (g : Graph) (i : Nat) : g.isCallable (.rung i) = false := by
  have hunion : (Node.rung i).isUnion = false := by
    cases i with
    | zero => rfl
    | succ i =>
      show hasFlag TypeFlag.object TypeFlag.union = false
      decide
  have hfunction : (Node.rung i).isFunctionLike = false := by
    cases i with
    | zero => rfl
    | succ i => exact Bool.and_false _
  rw [isCallable, hunion, hfunction]
  rfl

theorem shape?_rung_succ (g : Graph) (i : Nat) : g.shape? (.rung (i + 1)) = some .object := by
  have hname : (Node.rung (i + 1)).displayText ≠ "Date" := by
    show "Rung" ≠ "Date"
    decide
  exact shape?_of_flags rfl rfl rfl hname rfl

/-- A rung has one slot, that of the rung below. -/
theorem plan_rung_succ (h : i + 1 < length) :
    (ladder length).plan settings (.rung (i + 1)) = .ok (.object [⟨"child", false, .rung i⟩] none) := by
  have hshape : (ladder length).shapeOf (.rung (i + 1)) = .ok .object := by
    rw [shapeOf, shape?_rung_succ]
  let p : Property := ⟨"child", .rung i, 0, [], none⟩
  have hproperties : (ladder length).properties (.rung (i + 1)) = [p] := by
    have hrung : (ladder length).node? (Member.plain "child" i).type = some (.rung i) := node?_rung (by omega)
    show List.filterMap _ [Member.plain "child" i] = _
    rw [List.filterMap_cons_some (b := p)]
    · rfl
    · rw [property?, hrung]
      rfl
  have hflag (mask : Nat) : hasFlag p.flags mask = false := by
    show (0 &&& mask != 0) = false
    rw [Nat.zero_and]
    rfl
  have htype : p.effectiveType = .rung i := if_neg (Bool.eq_false_iff.1 (hflag _))
  have hhidden : (ladder length).isHidden settings p = false := by
    rw [isHidden, Property.isPrototype, Property.isMethod, hflag, hflag, htype, isCallable_rung]
    cases settings.skipPrivate <;> rfl
  have hslots : (ladder length).slots settings (.rung (i + 1)) = [⟨"child", false, .rung i⟩] := by
    rw [slots, hproperties, List.filter_cons_of_pos (by rw [hhidden]; rfl), List.filter_nil, List.map_cons,
      List.map_nil, Property.isOptional, hflag, htype]
  rw [plan, hshape]
  show Except.ok (objectPlan (ladder length) settings (.rung (i + 1))) = _
  rw [objectPlan, hslots]
  rfl

theorem exists_plan_rung (settings : ResolverSettings) (h : i < length) :
    ∃ p, (ladder length).plan settings (.rung i) = .ok p := by
  cases i with
  | zero => exact ⟨_, plan_rung_zero⟩
  | succ i => exact ⟨_, plan_rung_succ h⟩

/-- Nothing is unrepresentable on a ladder. -/
theorem not_unrepresentable_ladder (settings : ResolverSettings) (h : i < length) :
    ∀ m, (ladder length).Reaches settings (.rung i) m → ¬(ladder length).Unrepresentable m := by
  refine (forall_not_faulty_iff (closed_ladder (by omega)) (rung_mem_nodes h)).1 fun m hm => ?_
  obtain ⟨j, hj, rfl⟩ := List.mem_map.1 (hm.mem_nodes (rung_mem_nodes h))
  exact not_faulty_iff.2 (exists_plan_rung settings (List.mem_range.1 hj))

/-- The steps of a ladder go down. -/
theorem id_lt_of_follows {n m : Node} (h : (ladder length).Follows settings n m) (hn : n ∈ (ladder length).nodes) :
    m.id < n.id := by
  obtain ⟨i, hi, rfl⟩ := List.mem_map.1 hn
  rw [List.mem_range] at hi
  cases i with
  | zero =>
    have hnone : (ladder length).followed settings (.rung 0) = [] := rfl
    rw [Follows, hnone] at h
    cases h
  | succ i =>
    rw [Follows, ← targets_of_plan (plan_rung_succ hi)] at h
    obtain rfl := List.mem_singleton.1 h
    rw [id_rung, id_rung]
    omega

end Graph

namespace Machine

variable {length room i calls : Nat} {settings : ResolverSettings} {m : Machine}

/-- A rung fails as the rung below it does. -/
theorem resolve_rung_succ {m' : Machine} {raised : Raised} (hi : i + 1 < length)
    (hstage : m.stage? (Node.rung (i + 1)).id = none) (hlevel : m.depth < settings.levels)
    (hbelow : resolve (.ladder length) settings calls (.rung i) ((m.enter (Node.rung (i + 1)).id).push (some "child")) =
      some (.error raised, m')) :
    ∃ m'', resolve (.ladder length) settings (calls + 1) (.rung (i + 1)) m = some (.error raised, m'') := by
  have halong : along (resolve (.ladder length) settings calls)
      (Plan.object [⟨"child", false, .rung i⟩] none).edges (m.enter (Node.rung (i + 1)).id) =
        some (.error raised, m'.pop (some "child")) := by
    show along _ [⟨some "child", .rung i⟩] _ = _
    rw [along, hbelow]
    rfl
  rw [resolve_of_lt hstage hlevel]
  dsimp only
  rw [Graph.plan_rung_succ hi]
  dsimp only
  rw [halong]
  exact ⟨_, rfl⟩

/-- A resolution that is to go further down than the stack has room for fails where the room ends: with
the rung that is entered there, which is as many steps down as there was room. -/
theorem resolve_rung (hi : i < length) (hroom : m.depth + room = settings.stackRoom) (hle : room ≤ i)
    (hcalls : room ≤ calls) (hceiling : settings.stackRoom < settings.maxDepth)
    (hfresh : ∀ j ≤ i, m.stage? j = none) :
    ∃ raised m', resolve (.ladder length) settings calls (.rung i) m = some (.error raised, m') ∧
      raised.failure = ⟨.depthExceeded (settings.stackRoom + 1 : Nat),
        ⟨m.declaration, m.path ++ List.replicate room "child"⟩⟩ ∧
      raised.origin.stage? (i - room : Nat) = some .resolving := by
  have hstage : m.stage? (Node.rung i).id = none := by
    rw [Graph.id_rung]
    exact hfresh i (Nat.le_refl i)
  induction room generalizing i m calls with
  | zero =>
    rw [resolve_of_full hstage (by omega) (by omega)]
    refine ⟨_, _, rfl, ?_, ?_⟩
    · show Failure.mk (.depthExceeded (m.depth + 1 : Nat)) m.place = _
      rw [← hroom, List.replicate_zero, List.append_nil]
      rfl
    · show (m.enter (Node.rung i).id).stage? i = _
      rw [stage?_enter, Graph.id_rung, if_pos rfl]
  | succ room ih =>
    obtain ⟨i, rfl⟩ : ∃ j, i = j + 1 := Nat.exists_eq_add_one.2 (by omega)
    obtain ⟨calls, rfl⟩ : ∃ left, calls = left + 1 := Nat.exists_eq_add_one.2 (by omega)
    have hfresh' : ∀ j ≤ i, ((m.enter (Node.rung (i + 1)).id).push (some "child")).stage? j = none := by
      intro j hj
      show (m.enter (Node.rung (i + 1)).id).stage? j = none
      rw [stage?_enter, Graph.id_rung, if_neg (by omega)]
      exact hfresh j (by omega)
    have hdepth : ((m.enter (Node.rung (i + 1)).id).push (some "child")).depth + room = settings.stackRoom := by
      show m.depth + 1 + room = _
      omega
    have hcalls' : room ≤ calls := by omega
    obtain ⟨raised, m', hrun, hfailure, horigin⟩ := ih (by omega) hdepth (by omega) hcalls'
      hfresh' (by rw [Graph.id_rung i]; exact hfresh' i (Nat.le_refl i))
    have hlevel : m.depth < settings.levels := Nat.lt_min.2 ⟨by omega, by omega⟩
    obtain ⟨m'', hrun'⟩ := resolve_rung_succ hi hstage hlevel hrun
    refine ⟨raised, m'', hrun', ?_, ?_⟩
    · have hpath : m.path ++ List.replicate (room + 1) "child" =
          m.path ++ ["child"] ++ List.replicate room "child" := by
        rw [List.replicate_succ, List.append_assoc, List.singleton_append]
      rw [hfailure, hpath]
      rfl
    · rw [← horigin]
      congr 2
      omega

end Machine

namespace Resolve

/-- So a session fails in the same place. -/
theorem exec_node_rung {length i : Nat} {settings : ResolverSettings} (hi : i < length)
    (hroom : settings.stackRoom ≤ i) (hceiling : settings.stackRoom < settings.maxDepth) :
    ∃ s, exec (node (.ladder length) settings (.rung i)) {} =
      (.error ⟨.depthExceeded (settings.stackRoom + 1 : Nat),
        ⟨none, List.replicate settings.stackRoom "child"⟩⟩, s) := by
  have hlevels : settings.levels = settings.stackRoom := Nat.min_eq_right (Nat.le_of_lt hceiling)
  have hshows : ({} : Machine).Shows {} := ⟨rfl, rfl, fun _ => rfl, fun _ => rfl⟩
  obtain ⟨raised, m', hrun, hfailure, -⟩ := @Machine.resolve_rung length settings.stackRoom i settings.levels
    settings {} hi (Nat.zero_add _) hroom (Nat.le_of_eq hlevels.symm) hceiling fun _ _ => rfl
  obtain ⟨result, m'', hrun', hresult, -⟩ :=
    Machine.matches_resolve (.ladder length) settings settings.levels (.rung i) hshows (Nat.zero_add _)
  cases hrun.symm.trans hrun'
  exact ⟨_, Prod.ext (hresult.symm.trans (congrArg Except.error hfailure)) rfl⟩

end Resolve

end TypeSchema
