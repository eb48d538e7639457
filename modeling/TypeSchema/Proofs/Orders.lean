import TypeSchema.Proofs.Replays

/-!
# Orders of declarations

What a pass reports for a declaration does not depend on the order of the declarations as long as every
cycle that it leads to is entered at one node: it is then what a fresh session finds. Where a cycle is
entered at two nodes, the first that is declared decides where it is cut, and even whether a fault
behind it is met.
-/

namespace TypeSchema

/-! ### Lists and their permutations -/

theorem find?_eq_of_perm {α κ : Type} [DecidableEq κ] {f : α → κ} {xs ys : List α} (h : xs.Perm ys)
    (hnd : (xs.map f).Nodup) (key : κ) : xs.find? (f · = key) = ys.find? (f · = key) := by
  induction h with
  | nil => rfl
  | cons x _ ih =>
    rw [List.find?_cons, List.find?_cons, ih (List.nodup_cons.1 hnd).2]
  | swap x y l =>
    have hne : f y ≠ f x := fun h => by simp [h] at hnd
    simp only [List.find?_cons]
    by_cases hy : f y = key
    · simp [hy, (hy ▸ hne).symm]
    · simp [hy]
  | trans h₁ _ ih₁ ih₂ => exact (ih₁ hnd).trans (ih₂ ((h₁.map f).nodup_iff.1 hnd))

/-- Under the name of a declaration stands what was related to it, if no other has that name. -/
theorem find?_of_forall₂ {R : Subject → Outcome → Prop} {subjects : List Subject}
    {outcomes : List Outcome} (h : List.Forall₂ (fun D o => o.name = D.name ∧ R D o) subjects outcomes)
    (hnames : (subjects.map (·.name)).Nodup) {D : Subject} (hD : D ∈ subjects) :
    ∃ o, outcomes.find? (·.name = D.name) = some o ∧ R D o := by
  induction h with
  | nil => cases hD
  | @cons D' o subjects outcomes ho hrest ih =>
    obtain ⟨hfresh, hnd⟩ := List.nodup_cons.1 hnames
    rcases List.mem_cons.1 hD with rfl | hD
    · exact ⟨o, List.find?_cons_of_pos (by simpa using ho.1), ho.2⟩
    · have hne : o.name ≠ D.name := fun heq =>
        hfresh (List.mem_map.2 ⟨D, hD, heq.symm.trans ho.1⟩)
      rw [List.find?_cons_of_neg (by simpa using hne)]
      exact ih hnd hD

theorem result_of_schema? {o : Outcome} {schema : Schema} (h : o.schema? = some schema) :
    o.result = .ok schema := by
  unfold Outcome.schema? at h
  cases hr : o.result with
  | error f => rw [hr] at h; cases h
  | ok schema' => rw [hr] at h; cases h; rfl

/-! ### Sessions between declarations -/

/-- The nodes of the declarations that describe data. -/
def rootsOf (subjects : List Subject) : List Node :=
  (subjects.filter Subject.isTranspilable).map (·.node)

/-- Nothing is being resolved, what is kept can be trusted, and no fault is hidden. -/
structure Session.Neutral (g : Graph) (settings : ResolverSettings) (roots : List Node) (d : Node)
    (s fresh : Session) : Prop where
  stacked : s.Stacked g []
  trusted : s.Trusted g settings roots d fresh
  exposed : s.Exposed g settings roots d

section

variable {g : Graph} {settings : ResolverSettings} {roots : List Node} {d : Node} {fresh s : Session}
  {D : Subject}

theorem Session.Neutral.report (h : s.Neutral g settings roots d fresh) (event : Event) :
    (s.report event).Neutral g settings roots d fresh :=
  ⟨h.stacked.report event, h.trusted.congr (fun _ => rfl) fun _ => rfl, h.exposed⟩

theorem Resolve.toOption_of_not_clean {levels : Nat} {place : Place} {n : Node} (hg : g.Closed)
    (hn : n ∈ g.nodes) (h : ¬g.Clean settings s.IsMarked n) :
    (exec (resolve g settings levels place n) s).1.toOption = none := by
  rcases hrun : exec (resolve g settings levels place n) s with ⟨f | schema, s'⟩
  · rfl
  · exact absurd (clean_of_resolve hg hn hrun) h

/-- A declaration leaves the session neutral, and that of `d` ends as in a fresh session. -/
theorem Resolve.neutral_subject (hg : g.Closed) (honce : g.EnteredOnce settings roots d) (hd : d ∈ g.nodes)
    (hdepth : g.nodes.length ≤ settings.levels) (hfresh : ∀ id, fresh.mark? id = none)
    (hD : D.node ∈ roots) (hn : D.node ∈ g.nodes) (hname : (fresh.name? D.node.id).isSome)
    (hs : s.Neutral g settings roots d fresh) :
    (exec (subject g settings D) s).2.Neutral g settings roots d fresh ∧
      (D.node = d → (exec (subject g settings D) s).1.toOption =
        (exec (node g settings d) fresh).1.toOption) := by
  rw [exec_subject, Session.declare_eq_self (by rw [hs.trusted.name?_eq]; exact hname)]
  have hw := walk_of_resolve g settings settings.levels (.top D.name) D.node s
  have he : g.IsEntry settings roots D.node := .inl hD
  have ha : Approach g settings roots settings.levels [] [⟨none, D.node⟩] s :=
    .top hs.stacked hn he hdepth
  have htrusted := Graph.steady hg honce hd hdepth hfresh D.node hn ⟨none, D.node⟩ rfl _ _ _ _ _ _ hw ha
    hs.trusted
  refine ⟨⟨hw.stacked hs.stacked, htrusted, hw.exposed hg honce hd ha hs.exposed⟩, ?_⟩
  rintro rfl
  by_cases hf : g.Faultless settings D.node
  · obtain ⟨schema, s', hrun⟩ := (exists_ok_iff_clean (.top D.name) hg hn hs.stacked hdepth).2 hf.clean
    have hmark := mark?_of_resolve (hs.stacked.mark?_ne_resolving _) hrun
    rw [hrun] at htrusted ⊢
    rw [htrusted.kept D.node .refl he hf schema hmark]
  · have hmarked : s.IsMarked = s.IsResolved := funext fun id => propext (hs.stacked.isMarked_iff id)
    have hclean : ¬g.Clean settings s.IsMarked D.node := hmarked ▸ hs.exposed D.node .refl he hf
    have hclean' : ¬g.Clean settings fresh.IsMarked D.node :=
      fun h => hf ((Graph.clean_iff_of_none fun id hm => hm (hfresh id)).1 h)
    rw [toOption_of_not_clean hg hn hclean, node, toOption_of_not_clean hg hn hclean']

theorem declaredName_eq_of_perm {subjects subjects' : List Subject} (hperm : subjects.Perm subjects')
    (hdistinct : ((rootsOf subjects).map (·.id)).Nodup) :
    declaredName subjects = declaredName subjects' := by
  funext id
  have hnd : ((subjects.filter Subject.isTranspilable).map (·.node.id)).Nodup := by
    simpa [rootsOf, Function.comp_def] using hdistinct
  rw [declaredName, declaredName, find?_eq_of_perm (hperm.filter _) hnd]

namespace Resolve

theorem name?_named (g : Graph) (settings : ResolverSettings) (subjects : List Subject) (id : Int) :
    (named subjects).name? id = declaredName subjects id :=
  (Session.idle_named g settings subjects).sound.name?_eq id

/-- A session that names nodes as the fresh one does is as good a start. -/
theorem neutral_named_of_eq {subjects subjects' : List Subject}
    (hnames : declaredName subjects = declaredName subjects') :
    (named subjects').Neutral g settings roots d (named subjects) := by
  have hfresh := Session.mark?_named subjects
  have hfresh' := Session.mark?_named subjects'
  refine ⟨(Session.idle_named g settings subjects').stacked, ?_, fun n hdn he hf hc => hf ?_⟩
  · refine (Session.trusted_of_fresh hfresh).congr (fun id => ?_) fun id => ?_
    · rw [name?_named g settings, name?_named g settings, hnames]
    · rw [hfresh, hfresh']
  · refine (Graph.clean_iff_of_none fun id hres => ?_).1 hc
    obtain ⟨schema, hres⟩ := hres
    cases (hfresh' id).symm.trans hres

/-- Naming the same declarations in another order is as good a start as the fresh session itself. -/
theorem neutral_named {subjects subjects' : List Subject} (hperm : subjects.Perm subjects')
    (hdistinct : ((rootsOf subjects).map (·.id)).Nodup) :
    (named subjects').Neutral g settings roots d (named subjects) :=
  neutral_named_of_eq (declaredName_eq_of_perm hperm hdistinct)

/-- With every cycle that `d` leads to entered at one node, any pass over some of the declarations that
starts as the fresh session reports for `d` what that session finds. -/
theorem pass_eq_fresh_of_neutral (hg : g.Closed) (hdepth : g.nodes.length ≤ settings.levels)
    {subjects subjects' : List Subject} (hsub : subjects' ⊆ subjects)
    (hnodes : ∀ D ∈ subjects, D.node ∈ g.nodes) (hd : d ∈ g.nodes)
    (honce : g.EnteredOnce settings (rootsOf subjects) d)
    (hstart : (named subjects').Neutral g settings (rootsOf subjects) d (named subjects)) :
    List.Forall₂ (fun D o => o.name = D.name ∧ o.kind = D.kind ∧ (D.node = d →
        o.schema? = (exec (node g settings d) (named subjects)).1.toOption))
      (subjects'.filter Subject.isTranspilable) (pass g settings subjects').1 := by
  refine (steps_forall₂ (I := fun s => s.Neutral g settings (rootsOf subjects) d (named subjects))
    (Q := fun D result => D.node = d →
      result.toOption = (exec (node g settings d) (named subjects)).1.toOption)
    (fun s event h => h.report event) (fun D hD ht s hs => ?_) hstart).2
  have hmem := hsub hD
  have hroot : D.node ∈ rootsOf subjects := List.mem_map_of_mem (List.mem_filter.2 ⟨hmem, ht⟩)
  have hname : ((named subjects).name? D.node.id).isSome := by
    rw [name?_named g settings]
    exact isSome_declaredName hmem ht
  exact neutral_subject hg honce hd hdepth (Session.mark?_named subjects) hroot (hnodes D hmem) hname hs

/-- In particular a pass over the declarations in another order. -/
theorem pass_eq_fresh (hg : g.Closed) (hdepth : g.nodes.length ≤ settings.levels)
    {subjects subjects' : List Subject} (hperm : subjects.Perm subjects')
    (hnodes : ∀ D ∈ subjects, D.node ∈ g.nodes) (hdistinct : ((rootsOf subjects).map (·.id)).Nodup)
    (hd : d ∈ g.nodes) (honce : g.EnteredOnce settings (rootsOf subjects) d) :
    List.Forall₂ (fun D o => o.name = D.name ∧ o.kind = D.kind ∧ (D.node = d →
        o.schema? = (exec (node g settings d) (named subjects)).1.toOption))
      (subjects'.filter Subject.isTranspilable) (pass g settings subjects').1 :=
  pass_eq_fresh_of_neutral hg hdepth hperm.symm.subset hnodes hd honce (neutral_named hperm hdistinct)

theorem pass_isOk (hg : g.Closed) (hdepth : g.nodes.length ≤ settings.levels)
    {subjects : List Subject} (hnodes : ∀ D ∈ subjects, D.node ∈ g.nodes) :
    List.Forall₂ (fun D o => o.name = D.name ∧ o.kind = D.kind ∧
        (g.Faultless settings D.node → o.result.isOk))
      (subjects.filter Subject.isTranspilable) (pass g settings subjects).1 := by
  refine (steps_forall₂ (I := fun s => s.Stacked g [])
    (Q := fun D result => g.Faultless settings D.node → result.isOk)
    (fun s event h => h.report event) (fun D hD _ s hs => ?_)
    (Session.idle_named g settings subjects).stacked).2
  rw [exec_subject]
  refine ⟨stacked_of_resolve (hs.declare D), fun hf => ?_⟩
  obtain ⟨schema, s', hrun⟩ :=
    (exists_ok_iff_clean (.top D.name) hg (hnodes D hD) (hs.declare D) hdepth).2 hf.clean
  rw [hrun]
  rfl

/-- Two passes over the same declarations in different orders. A declaration that reaches no
unrepresentable node passes in both; all schemas for it are unfoldings of its node under the same names;
and if every cycle that it leads to is entered at one node, the two report the same schema for it, or a
failure both. -/
theorem pass_perm (hg : g.Closed) (hdepth : g.nodes.length ≤ settings.levels)
    {subjects subjects' : List Subject} (hperm : subjects.Perm subjects')
    (hnodes : ∀ D ∈ subjects, D.node ∈ g.nodes)
    (hnames : ((subjects.filter Subject.isTranspilable).map (·.name)).Nodup)
    (hdistinct : (rootsOf subjects).Nodup) (hD : D ∈ subjects) (ht : D.isTranspilable) :
    ∃ o o', (pass g settings subjects).1.find? (·.name = D.name) = some o ∧
      (pass g settings subjects').1.find? (·.name = D.name) = some o' ∧
      o.kind = D.kind ∧ o'.kind = D.kind ∧
      ((∀ m, g.Reaches settings D.node m → ¬g.Unrepresentable m) → o.result.isOk ∧ o'.result.isOk) ∧
      (∀ schema, o.schema? = some schema ∨ o'.schema? = some schema →
        g.IsUnfolding settings (declaredName subjects) D.node schema.render) ∧
      (g.EnteredOnce settings (rootsOf subjects) D.node → o.schema? = o'.schema?) := by
  have hroots : ∀ n ∈ rootsOf subjects, n ∈ g.nodes := by
    intro n hn
    obtain ⟨D', hD', rfl⟩ := List.mem_map.1 hn
    exact hnodes D' (List.mem_filter.1 hD').1
  have hids : ((rootsOf subjects).map (·.id)).Nodup :=
    hdistinct.map_on fun n hn m hm => hg.eq_of_id_eq (hroots n hn) (hroots m hm)
  have hnodes' : ∀ D ∈ subjects', D.node ∈ g.nodes := fun D' hD' => hnodes D' (hperm.symm.subset hD')
  have hnames' : ((subjects'.filter Subject.isTranspilable).map (·.name)).Nodup :=
    ((hperm.filter _).map _).nodup_iff.1 hnames
  have hmem := List.mem_filter.2 ⟨hD, ht⟩
  have hmem' := List.mem_filter.2 ⟨hperm.subset hD, ht⟩
  obtain ⟨o, ho, hkind, hok⟩ := find?_of_forall₂ (pass_isOk hg hdepth hnodes) hnames hmem
  obtain ⟨o', ho', hkind', hok'⟩ := find?_of_forall₂ (pass_isOk hg hdepth hnodes') hnames' hmem'
  refine ⟨o, o', ho, ho', hkind, hkind', fun h => ?_, fun schema hschema => ?_, fun honce => ?_⟩
  · have hf : g.Faultless settings D.node := (Graph.forall_not_faulty_iff hg (hnodes D hD)).2 h
    exact ⟨hok hf, hok' hf⟩
  · obtain ⟨x, hx, -, hu⟩ := find?_of_forall₂ (idle_pass hg subjects hnodes).2 hnames hmem
    obtain ⟨x', hx', -, hu'⟩ := find?_of_forall₂ (idle_pass hg subjects' hnodes').2 hnames' hmem'
    obtain rfl := Option.some.inj (ho.symm.trans hx)
    obtain rfl := Option.some.inj (ho'.symm.trans hx')
    rw [← declaredName_eq_of_perm hperm hids] at hu'
    rcases hschema with hschema | hschema
    · exact hu schema (result_of_schema? hschema)
    · exact hu' schema (result_of_schema? hschema)
  · have hrun := pass_eq_fresh hg hdepth (.refl subjects) hnodes hids (hnodes D hD) honce
    have hrun' := pass_eq_fresh hg hdepth hperm hnodes hids (hnodes D hD) honce
    obtain ⟨x, hx, -, heq⟩ := find?_of_forall₂ hrun hnames hmem
    obtain ⟨x', hx', -, heq'⟩ := find?_of_forall₂ hrun' hnames' hmem'
    obtain rfl := Option.some.inj (ho.symm.trans hx)
    obtain rfl := Option.some.inj (ho'.symm.trans hx')
    rw [heq rfl, heq' rfl]

end Resolve

end

/-! ### Cycles entered at one node and at two -/

/-- A list leads to its nodes, and a node leads to the next one through its tail. -/
def Node.list : Node := .plain 1 TypeFlag.object "List" [.plain "head" 2]

def Node.listNode : Node := .plain 2 TypeFlag.object "Node" [.plain "tail" 3]

def Node.listTail : Node := .plain 3 TypeFlag.object "Tail" [.plain "next" 2]

def Graph.lists : Graph where
  nodes := [.list, .listNode, .listTail]
  declarations := [⟨"List", .interface, 1⟩, ⟨"ListNode", .interface, 2⟩]

theorem Graph.closed_lists : lists.Closed := ⟨by decide, by decide, by decide⟩

def Subject.list : Subject := ⟨"List", "interface", .list⟩

def Subject.listNode : Subject := ⟨"ListNode", "interface", .listNode⟩

def Subject.listTail : Subject := ⟨"ListTail", "interface", .listTail⟩

namespace Resolve

/-- The tail is not declared and is followed from its node alone, so the cycle is entered at the node. -/
theorem enteredOnce_lists : Graph.lists.EnteredOnce .refs (rootsOf [.list, .listNode]) .list := by
  have hlist : Node.list ∈ Graph.lists.nodes := by decide
  have hroots : ∀ n ∈ rootsOf [.list, .listNode], n ∈ Graph.lists.nodes := by decide
  have hfrom : ∀ n ∈ Graph.lists.nodes, Graph.lists.Reaches .refs n .list → n = .list := by
    intro n hn hr
    rcases Relation.ReflTransGen.cases_tail hr with h | ⟨k, hk, hf⟩
    · exact h.symm
    · have hno : ∀ k ∈ Graph.lists.nodes, Node.list ∉ Graph.lists.followed .refs k := by decide
      exact absurd hf (hno k (Graph.Reaches.mem_nodes hn hk))
  have hentry : ∀ n ∈ Graph.lists.nodes,
      Graph.lists.IsEntry .refs (rootsOf [.list, .listNode]) n → n ≠ .listTail := by
    rintro n - (hroot | ⟨k, ⟨root, hroot, hk⟩, hf, hno⟩) rfl
    · exact absurd hroot (by decide)
    · have hnode : ∀ k ∈ Graph.lists.nodes, Node.listTail ∈ Graph.lists.followed .refs k →
          k = .listNode := by decide
      obtain rfl := hnode k (hk.mem_nodes (hroots root hroot)) hf
      exact hno (.single (show Node.listNode ∈ Graph.lists.followed .refs .listTail by decide))
  intro n m hn he he' hj
  have hn := hn.mem_nodes hlist
  have hm := hj.1.mem_nodes hn
  have hne := hentry n hn he
  have hne' := hentry m hm he'
  simp only [Graph.lists, List.mem_cons, List.not_mem_nil, or_false] at hn hm
  rcases hn with rfl | rfl | rfl
  · exact (hfrom m (hj.1.mem_nodes hlist) hj.2).symm
  · rcases hm with rfl | rfl | rfl
    · exact hfrom _ (by decide) hj.1
    · rfl
    · exact absurd rfl hne'
  · exact absurd rfl hne

theorem pass_lists :
    ∃ o o', (pass Graph.lists .refs [.list, .listNode]).1.find? (·.name = "List") = some o ∧
      (pass Graph.lists .refs [.listNode, .list]).1.find? (·.name = "List") = some o' ∧
      o.schema? = o'.schema? := by
  obtain ⟨o, o', ho, ho', -, -, -, -, hsame⟩ := @pass_perm Graph.lists .refs .list Graph.closed_lists
    (by decide) [.list, .listNode] [.listNode, .list] (.swap ..) (by decide) (by decide) (by decide)
    (by decide) rfl
  exact ⟨o, o', ho, ho', hsame enteredOnce_lists⟩

/-- Of two nodes that lead to each other and are both declared, each order cuts the cycle elsewhere; and
where one of them meets a fault, the other passes in one order and fails in the other. -/
theorem order_shows :
    (∃ o o', (pass Graph.lists .refs [.listNode, .listTail]).1.find? (·.name = "ListTail") = some o ∧
      (pass Graph.lists .refs [.listTail, .listNode]).1.find? (·.name = "ListTail") = some o' ∧
      o.schema? = some (.object [("next", .reference "ListNode")] ["next"] none) ∧
      o'.schema? = some (.object [("next", .object [("tail", .reference "ListTail")] ["tail"] none)]
        ["next"] none) ∧
      o.schema? ≠ o'.schema?) ∧
    ∃ o o', (pass Graph.family .refs [.parent, .child]).1.find? (·.name = "Child") = some o ∧
      (pass Graph.family .refs [.child, .parent]).1.find? (·.name = "Child") = some o' ∧
      o.isOk = true ∧ o'.isOk = false :=
  ⟨⟨_, _, rfl, rfl, rfl, rfl, nofun⟩, _, _, rfl, rfl, rfl, rfl⟩

end Resolve

end TypeSchema
