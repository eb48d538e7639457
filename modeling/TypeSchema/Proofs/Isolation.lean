import TypeSchema.Proofs.Passes

/-!
# What the declarations before change

A declaration is resolved in the session that those before it left. Nodes that were resolved then are
not entered again: a fault that is reached only through them is not met, and a declaration that
fails by itself may pass. This is all that the declarations before can change, and it needs a cycle
through which a fault is reached.
-/

namespace TypeSchema

/-- Told apart neither by their kind nor by their words. -/
def Cause.Alike (c c' : Cause) : Prop := c.ctorIdx = c'.ctorIdx ∧ c.detail = c'.detail

/-- Both went through, or both failed alike. -/
def Agree : Except Failure Schema → Except Failure Schema → Prop
  | .ok _, .ok _ => True
  | .error f, .error f' => f.cause.Alike f'.cause
  | _, _ => False

namespace Resolve

/-- The session that the declarations before leave to the next. -/
def left (g : Graph) (settings : ResolverSettings) (before subjects : List Subject) : Session :=
  (steps g settings before (named subjects)).2

end Resolve

namespace Graph

variable {g : Graph} {settings : ResolverSettings} {names : Int → Option String} {n : Node}
  {fragment : Value}

/-- A node with an unfolding reaches unrepresentable nodes only through cycles. -/
theorem IsUnfolding.not_unrepresentable (h : g.IsUnfolding settings names n fragment)
    (hcycles : ∀ c m, g.Reaches settings n c → g.OnCycle settings c → g.Reaches settings c m →
      ¬g.Unrepresentable m) :
    ∀ m, g.Reaches settings n m → ¬g.Unrepresentable m := by
  refine IsUnfolding.induction (P := fun n _ => (∀ c m, g.Reaches settings n c →
    g.OnCycle settings c → g.Reaches settings c m → ¬g.Unrepresentable m) →
    ∀ m, g.Reaches settings n m → ¬g.Unrepresentable m) ?_ h hcycles
  intro n children parts fragment hb hparts hcycles m hm
  rcases Relation.ReflTransGen.cases_head hm with rfl | ⟨c, hf, hm⟩
  · exact hb.not_unrepresentable
  · obtain rfl := hb.children_eq
    obtain ⟨part, -, hc | ⟨hc, -⟩⟩ := exists_right_of_mem_left hparts hf
    · exact hc (fun c' m hc' => hcycles c' m (.head hf hc')) m hm
    · -- of a child that is cut nothing is known but that it lies on a cycle
      exact hcycles c m (.single hf) hc hm

end Graph

namespace Resolve

variable {g : Graph} {settings : ResolverSettings} {before after : List Subject} {D : Subject}

theorem pass_outcome (ht : D.isTranspilable) :
    (pass g settings (before ++ D :: after)).1[(before.filter Subject.isTranspilable).length]? =
      some ⟨D.name, D.kind,
        (exec (subject g settings D) (left g settings before (before ++ D :: after))).1⟩ := by
  have hlen := (forall₂_steps g settings before (named (before ++ D :: after))).length_eq.symm
  show (steps g settings (before ++ D :: after) (named (before ++ D :: after))).1[_]? = _
  rw [steps_append, ← hlen, List.getElem?_append_right (Nat.le_refl _), Nat.sub_self, steps_cons,
    (step_of_isTranspilable g settings ht _).1]
  rfl

section TwoRuns

variable {levels : Nat} {place place₀ : Place} {n : Node} {s s₀ : Session}

theorem isOk_of_isOk (hg : g.Closed) (hn : n ∈ g.nodes) (hlevels : g.nodes.length ≤ levels)
    (hs : s.Stacked g []) (hs₀ : ∀ id, ¬s₀.IsMarked id)
    (h : (exec (resolve g settings levels place₀ n) s₀).1.isOk) :
    (exec (resolve g settings levels place n) s).1.isOk := by
  rcases hx₀ : exec (resolve g settings levels place₀ n) s₀ with ⟨f₀ | schema₀, s₀'⟩
  · rw [hx₀] at h; cases h
  have hclean : g.Clean settings s.IsMarked n :=
    (clean_of_resolve hg hn hx₀).mono fun id hid => absurd hid (hs₀ id)
  obtain ⟨schema, s', hx⟩ := (exists_ok_iff_clean place hg hn hs hlevels).2 hclean
  rw [hx]
  rfl

/-- A run agrees with one without marks exactly if it meets a first fault like that one's. -/
theorem agree_iff (hg : g.Closed) (hn : n ∈ g.nodes) (hlevels : g.nodes.length ≤ levels)
    (hs : s.Stacked g []) (hstack₀ : s₀.Stacked g []) (hs₀ : ∀ id, ¬s₀.IsMarked id) :
    Agree (exec (resolve g settings levels place n) s).1
        (exec (resolve g settings levels place₀ n) s₀).1 ↔
      ∀ cause, g.FirstFault settings (fun _ => False) n cause →
        ∃ cause', g.FirstFault settings s.IsResolved n cause' ∧ cause'.Alike cause := by
  have hmarked : s.IsMarked = s.IsResolved := funext fun id => propext (hs.isMarked_iff id)
  have hmarked₀ : s₀.IsMarked = fun _ => False := funext fun id => eq_false (hs₀ id)
  rcases hx : exec (resolve g settings levels place n) s with ⟨f | schema, s'⟩ <;>
    rcases hx₀ : exec (resolve g settings levels place₀ n) s₀ with ⟨f₀ | schema₀, s₀'⟩
  · have hf := firstFault_of_resolve hg hn hs hlevels hx
    have hf₀ := firstFault_of_resolve hg hn hstack₀ hlevels hx₀
    rw [hmarked] at hf
    rw [hmarked₀] at hf₀
    constructor
    · intro ha cause hc
      rw [hc.unique hf₀]
      exact ⟨f.cause, hf, ha⟩
    · intro h
      obtain ⟨cause', hc, ha⟩ := h f₀.cause hf₀
      rw [hc.unique hf] at ha
      exact ha
  · -- marks only keep faults away
    have hok : (exec (resolve g settings levels place n) s).1.isOk :=
      isOk_of_isOk hg hn hlevels hs hs₀ (by rw [hx₀]; rfl)
    rw [hx] at hok
    cases hok
  · have hc := clean_of_resolve hg hn hx
    have hf₀ := firstFault_of_resolve hg hn hstack₀ hlevels hx₀
    rw [hmarked] at hc
    rw [hmarked₀] at hf₀
    refine iff_of_false (fun ha => ha) fun h => ?_
    obtain ⟨cause', hf, -⟩ := h f₀.cause hf₀
    exact hf.not_clean hc
  · have hc₀ := clean_of_resolve hg hn hx₀
    rw [hmarked₀] at hc₀
    exact iff_of_true trivial fun cause hf => absurd hc₀ hf.not_clean

end TwoRuns

theorem not_isMarked_named (subjects : List Subject) (id : Int) : ¬(named subjects).IsMarked id := by
  simp [Session.IsMarked, Session.mark?_named]

theorem idle_left (hg : g.Closed) {subjects : List Subject} (hnodes : ∀ D' ∈ before, D'.node ∈ g.nodes)
    (hsub : before ⊆ subjects) :
    (left g settings before subjects).Idle g settings (declaredName subjects) :=
  (idle_steps hg hnodes hsub (Session.idle_named g settings subjects)).1

theorem not_faulty_of_isResolved_left (hg : g.Closed) {subjects : List Subject}
    (hnodes : ∀ D' ∈ before, D'.node ∈ g.nodes) (hsub : before ⊆ subjects) {k : Node} (hk : k ∈ g.nodes)
    (hres : (left g settings before subjects).IsResolved k.id)
    (hcycles : ∀ c m, g.Reaches settings k c → g.OnCycle settings c → g.Reaches settings c m →
      ¬g.Unrepresentable m) :
    ∀ m, g.Reaches settings k m → ¬g.Faulty settings m := by
  obtain ⟨schema, hres⟩ := hres
  rw [Graph.forall_not_faulty_iff hg hk]
  exact ((idle_left hg hnodes hsub).sound.of_mark? hg hk hres).not_unrepresentable hcycles

/-- A declaration of a pass and a fresh resolution of its node agree exactly if the first fault of the
node, in kind and words, is also the first that is met without the nodes resolved before. A node
that resolves afresh also does so in the pass; and if no cycle below it reaches an unrepresentable
node, then nothing before it matters. -/
theorem pass_agrees_iff (hg : g.Closed) (hnodes : ∀ D' ∈ before ++ D :: after, D'.node ∈ g.nodes)
    (ht : D.isTranspilable) (hdepth : g.nodes.length ≤ settings.levels) :
    ∃ o, (pass g settings (before ++ D :: after)).1[(before.filter Subject.isTranspilable).length]? =
        some o ∧ o.name = D.name ∧ o.kind = D.kind ∧
      (Agree o.result (exec (node g settings D.node) (named (before ++ D :: after))).1 ↔
        ∀ cause, g.FirstFault settings (fun _ => False) D.node cause →
          ∃ cause', g.FirstFault settings
            (left g settings before (before ++ D :: after)).IsResolved D.node cause' ∧
            cause'.Alike cause) ∧
      ((exec (node g settings D.node) (named (before ++ D :: after))).1.isOk → o.result.isOk) ∧
      ((∀ c m, g.Reaches settings D.node c → g.OnCycle settings c → g.Reaches settings c m →
          ¬g.Unrepresentable m) →
        Agree o.result (exec (node g settings D.node) (named (before ++ D :: after))).1) := by
  have hD : D.node ∈ g.nodes := hnodes D (by simp)
  have hbefore : ∀ D' ∈ before, D'.node ∈ g.nodes := fun D' hD' => hnodes D' (by simp [hD'])
  have hsub : before ⊆ before ++ D :: after := List.subset_append_left ..
  have hidle : (left g settings before (before ++ D :: after)).Idle g settings _ :=
    idle_left hg hbefore hsub
  have hnamed : (named (before ++ D :: after)).Stacked g [] :=
    (Session.idle_named g settings _).stacked
  have hself : (left g settings before (before ++ D :: after)).declare D =
      left g settings before (before ++ D :: after) :=
    Session.declare_eq_self (by rw [hidle.sound.name?_eq]; exact isSome_declaredName (by simp) ht)
  refine ⟨_, pass_outcome ht, rfl, rfl, ?_, ?_, ?_⟩ <;>
    rw [exec_subject, hself, node]
  · exact agree_iff hg hD hdepth hidle.stacked hnamed (not_isMarked_named _)
  · exact isOk_of_isOk hg hD hdepth hidle.stacked (not_isMarked_named _)
  · intro hcycles
    refine (agree_iff hg hD hdepth hidle.stacked hnamed (not_isMarked_named _)).2 fun cause hf => ?_
    refine ⟨cause, hf.widen (fun _ h => h.elim) fun k hk hres _ => ?_, rfl, rfl⟩
    exact not_faulty_of_isResolved_left hg hbefore hsub (hk.mem_nodes hD) hres
      fun c m hc => hcycles c m (hk.trans hc)

end Resolve

/-! ### A fault behind a cycle -/

/-- A parent has a big integer, which has no schema. -/
def Node.parent : Node :=
  .plain 1 TypeFlag.object "Parent" [.plain "child" 2, .plain "serial" 3]

def Node.child : Node := .plain 2 TypeFlag.object "Child" [.plain "parent" 1]

def Graph.family : Graph where
  nodes := [.parent, .child, .plain 3 TypeFlag.bigInt "bigint" []]
  declarations := [⟨"Parent", .interface, 1⟩, ⟨"Child", .interface, 2⟩]

def Subject.parent : Subject := ⟨"Parent", "interface", .parent⟩

def Subject.child : Subject := ⟨"Child", "interface", .child⟩

theorem Graph.closed_family : family.Closed := ⟨by decide, by decide, by decide⟩

namespace Resolve

/-- While the parent fails, the child is resolved with the parent cut, and it stays resolved: the
declaration of the child passes, though the child fails by itself. -/
theorem child_fails_by_itself :
    (pass Graph.family {} [.parent, .child]).1.map (fun o => (o.name, o.isOk)) =
        [("Parent", false), ("Child", true)] ∧
      (exec (node Graph.family {} .child) (named [.parent, .child])).1.isOk = false := by
  decide

theorem child_meets_no_fault :
    ¬∀ cause, Graph.family.FirstFault {} (fun _ => False) .child cause →
      ∃ cause', Graph.family.FirstFault {} (left Graph.family {} [.parent] [.parent, .child]).IsResolved
        .child cause' ∧ cause'.Alike cause := by
  intro h
  obtain ⟨o, ho, -, -, hiff, -⟩ := @pass_agrees_iff Graph.family {} [.parent] [] .child Graph.closed_family
    (by decide) (by decide) (by decide)
  have hpass : (pass Graph.family {} [.parent, .child]).1[1]? =
      some ⟨"Child", "interface", .ok (.object [("parent", .circular "Parent")] ["parent"] none)⟩ := by
    rfl
  obtain rfl := Option.some.inj (ho.symm.trans hpass)
  exact hiff.2 h

end Resolve

end TypeSchema
