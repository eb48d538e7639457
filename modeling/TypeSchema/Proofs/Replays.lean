import TypeSchema.Proofs.Entries

/-!
# Runs from different sessions

Two walks over the same edges, from sessions that mark the nodes around alike, return the same schemas:
`Lap.agree`. With it, what a session keeps for a faultless entry below `d` is what a fresh session finds
for it, whatever was resolved before: `Graph.steady`. The induction is on the nodes that an entry
leads to and that do not lead back, `Graph.below_induction`.
-/

namespace TypeSchema

namespace Graph

variable {g : Graph}

theorem below_induction (settings : ResolverSettings) {P : Node → Prop}
    (h : ∀ n ∈ g.nodes, (∀ m, g.Reaches settings n m → ¬g.Reaches settings m n → P m) → P n) :
    ∀ n ∈ g.nodes, P n := by
  classical
  intro n
  -- the nodes that are led to get fewer where one of them does not lead back
  induction hk : (g.nodes.toFinset.filter (g.Reaches settings n ·)).card using Nat.strong_induction_on
    generalizing n with
  | h k ih =>
    intro hn
    subst hk
    refine h n hn fun m hm hback => ih _ (Finset.card_lt_card ?_) m rfl (hm.mem_nodes hn)
    refine Finset.ssubset_iff_subset_ne.2 ⟨fun c hc => ?_, fun heq => hback ?_⟩
    · simp only [Finset.mem_filter] at hc ⊢
      exact ⟨hc.1, hm.trans hc.2⟩
    · have hself : n ∈ g.nodes.toFinset.filter (g.Reaches settings n ·) := by
        simpa using ⟨hn, Relation.ReflTransGen.refl⟩
      rw [← heq] at hself
      exact (Finset.mem_filter.1 hself).2

end Graph

/-! ### Walks that go through -/

namespace Walk

variable {g : Graph} {settings : ResolverSettings} {levels : Nat} {place : Place} {e : Edge}
  {es : List Edge} {s s' : Session} {r : Except Failure (List Schema)} {schema : Schema}
  {schemas : List Schema}

theorem cons_ok (h : Walk g settings levels place (e :: es) s (.ok schemas) s') :
    ∃ schema schemas' s₁, schemas = schema :: schemas' ∧
      Walk g settings levels place [e] s (.ok [schema]) s₁ ∧
      Walk g settings levels place es s₁ (.ok schemas') s' := by
  generalize hr : Except.ok schemas = r at h
  cases h with
  | deep | fault | failed => cases hr
  | cached hm hw =>
    obtain ⟨schemas', rfl, rfl⟩ := map_eq_ok hr.symm
    exact ⟨_, schemas', s, rfl, .cached hm .nil, hw⟩
  | cut hm hw =>
    obtain ⟨schemas', rfl, rfl⟩ := map_eq_ok hr.symm
    exact ⟨_, schemas', _, rfl, .cut hm .nil, hw⟩
  | done hm hp hw₁ hw =>
    obtain ⟨schemas', rfl, rfl⟩ := map_eq_ok hr.symm
    exact ⟨_, schemas', _, rfl, .done hm hp hw₁ .nil, hw⟩

theorem single_ok (h : Walk g settings levels place [e] s (.ok [schema]) s') :
    (s.mark? e.target.id = some (.resolved schema) ∧ s' = s) ∨
      (s.mark? e.target.id = some .resolving ∧
        schema = Resolve.cutSchema settings e.target (s.name? e.target.id) ∧
        ∀ id, s'.mark? id = s.mark? id) ∨
      s.mark? e.target.id = none ∧ ∃ below plan schemas s₁, levels = below + 1 ∧
        g.plan settings e.target = .ok plan ∧ schema = plan.assemble schemas ∧
        s' = s₁.setMark e.target.id (.resolved schema) ∧
        Walk g settings below (place.under e.label) plan.edges (s.setMark e.target.id .resolving)
          (.ok schemas) s₁ := by
  generalize hr : Except.ok [schema] = r at h
  cases h with
  | deep | fault | failed => cases hr
  | cached hm hw => cases hw; cases hr; exact .inl ⟨hm, rfl⟩
  | cut hm hw => cases hw; cases hr; exact .inr (.inl ⟨hm, rfl, fun _ => rfl⟩)
  | done hm hp hw₁ hw =>
    cases hw; cases hr
    exact .inr (.inr ⟨hm, _, _, _, _, rfl, hp, rfl, rfl, hw₁⟩)

theorem mark?_of_single (h : Walk g settings levels place [e] s (.ok [schema]) s')
    (hm : s.mark? e.target.id ≠ some .resolving) :
    s'.mark? e.target.id = some (.resolved schema) := by
  rcases h.single_ok with ⟨hr, rfl⟩ | ⟨hr, -⟩ | ⟨-, below, plan, schemas, s₁, -, -, -, rfl, -⟩
  · exact hr
  · exact absurd hr hm
  · simp

theorem mark?_eq_of_not_reaches {id : Int} (h : Walk g settings levels place es s r s')
    (hid : ∀ e ∈ es, ∀ m, g.Reaches settings e.target m → m.id ≠ id) : s'.mark? id = s.mark? id := by
  have hnew : s'.IsResolved id → s.IsResolved id := fun h' =>
    (h.exists_reaches_of_isResolved h').resolve_right fun ⟨e, he, m, hm, hm'⟩ => hid e he m hm hm'
  rcases hm : s.mark? id with _ | ⟨_ | schema⟩
  · rcases hm' : s'.mark? id with _ | ⟨_ | schema⟩
    · rfl
    · rw [h.resolving_iff, hm] at hm'
      cases hm'
    · obtain ⟨schema', hres⟩ := hnew ⟨schema, hm'⟩
      cases hm.symm.trans hres
  · exact (h.resolving_iff id).2 hm
  · exact h.resolved_of_resolved hm

end Walk

/-! ### Marks come with their entries -/

/-- With a faultless node also an entry that it leads to and that leads to it is marked. -/
def Session.Guarded (g : Graph) (settings : ResolverSettings) (roots : List Node) (s : Session) : Prop :=
  ∀ n ∈ g.nodes, g.Faultless settings n → s.IsMarked n.id →
    ∃ c, g.IsEntry settings roots c ∧ g.Joined settings c n ∧ s.IsMarked c.id

theorem Session.Guarded.congr {g : Graph} {settings : ResolverSettings} {roots : List Node}
    {s s' : Session} (h : s.Guarded g settings roots) (hm : s'.IsMarked = s.IsMarked) :
    s'.Guarded g settings roots := by
  unfold Guarded
  rw [hm]
  exact h

section

variable {g : Graph} {settings : ResolverSettings} {roots stack : List Node} {levels : Nat}
  {place : Place} {e : Edge} {es : List Edge} {s s' : Session} {r : Except Failure (List Schema)}

/-- The entry of the target is the target, or it is on the stack. -/
theorem Approach.exists_entry (hg : g.Closed)
    (h : Approach g settings roots levels stack (e :: es) s) :
    ∃ c ∈ e.target :: stack, g.IsEntry settings roots c ∧ g.Joined settings c e.target := by
  obtain ⟨c, hc, hback, hway⟩ := h.gated_target
  have ht := h.mem_nodes e (List.mem_cons_self ..)
  have hnodes : ∀ k ∈ e.target :: stack, k ∈ g.nodes :=
    List.forall_mem_cons.2 ⟨ht, h.stacked.mem_nodes⟩
  exact ⟨c, Graph.mem_of_not_beside hg hnodes (hback.mem_nodes ht) hway.not_avoid, hc, hway.reaches,
    hback⟩

theorem Approach.guarded_push {p : Plan} (hg : g.Closed)
    (h : Approach g settings roots (levels + 1) stack (e :: es) s) (hm : s.mark? e.target.id = none)
    (hp : g.plan settings e.target = .ok p) (hs : s.Guarded g settings roots) :
    (s.setMark e.target.id .resolving).Guarded g settings roots := by
  intro n hn hf hmark
  rw [Session.isMarked_setMark] at hmark
  rcases hmark with hmark | hid
  · obtain ⟨c, hc, hj, hcm⟩ := hs n hn hf hmark
    exact ⟨c, hc, hj, by rw [Session.isMarked_setMark]; exact .inl hcm⟩
  · obtain rfl := hg.eq_of_id_eq hn (h.mem_nodes e (List.mem_cons_self ..)) hid
    obtain ⟨c, hmem, hc, hj⟩ := h.exists_entry hg
    exact ⟨c, hc, hj, Session.isMarked_of_mark? ((h.push hm hp).stacked.mark?_of_mem hmem)⟩

theorem Walk.guarded (hg : g.Closed) (h : Walk g settings levels place es s r s')
    (ha : Approach g settings roots levels stack es s) (hs : s.Guarded g settings roots) :
    s'.Guarded g settings roots := by
  induction h generalizing stack with
  | nil | deep | fault => exact hs
  | cached _ _ ih | cut _ _ ih => exact ih (ha.tail (ha.stacked.congr fun _ => rfl)) hs
  | @failed levels place e es s plan f s' hm hp hw ih =>
    have hbelow := ih (ha.push hm hp) (ha.guarded_push hg hm hp hs)
    have ht := ha.mem_nodes e (List.mem_cons_self ..)
    intro n hn hf hmark
    have hmark' : s'.IsMarked n.id := fun h => hmark (by rw [Session.mark?_unmark, h]; simp)
    obtain ⟨c, hc, hj, hcm⟩ := hbelow n hn hf hmark'
    refine ⟨c, hc, hj, ?_⟩
    have hne : c.id ≠ e.target.id := by
      intro hid
      obtain rfl := hg.eq_of_id_eq (hj.2.mem_nodes hn) ht hid
      -- a faultless target does not fail
      have hfail : Walk g settings (levels + 1) place [e] s (.error f) (s'.unmark e.target.id) :=
        .failed hm hp hw
      have hfirst := hfail.firstFaultAmong hg rfl ha.single.mem_nodes ha.stacked ha.room
      exact hfirst.firstFault.not_clean (hf.of_reaches hj.2).clean
    rw [Session.IsMarked, Session.mark?_unmark, if_neg hne]
    exact hcm
  | @done levels place e es s plan schemas s₁ r s' hm hp hw _ ih₁ ih₂ =>
    have hpush := ha.push hm hp
    have hbelow := ih₁ hpush (ha.guarded_push hg hm hp hs)
    refine ih₂ (ha.tail ((hw.stacked hpush.stacked).finish _)) (hbelow.congr ?_)
    rw [Session.isMarked_setMark]
    funext id
    refine propext ⟨fun h => h.elim (fun h => h) ?_, .inl⟩
    rintro rfl
    exact hw.isMarked (by simp [Session.IsMarked])

end

/-! ### What a fresh session finds -/

/-- The session names nodes as `fresh` does, and what it keeps for a faultless entry below `d` is what
`fresh` finds for it. -/
structure Session.Trusted (g : Graph) (settings : ResolverSettings) (roots : List Node) (d : Node)
    (s fresh : Session) : Prop where
  name?_eq : ∀ id, s.name? id = fresh.name? id
  guarded : s.Guarded g settings roots
  kept : ∀ n, g.Reaches settings d n → g.IsEntry settings roots n → g.Faultless settings n →
    ∀ schema, s.mark? n.id = some (.resolved schema) →
      (Resolve.exec (Resolve.node g settings n) fresh).1 = .ok schema

/-- Resolving the node keeps sessions trusted. -/
def Graph.Steady (g : Graph) (settings : ResolverSettings) (roots : List Node) (d : Node)
    (fresh : Session) (t : Node) : Prop :=
  ∀ e : Edge, e.target = t → ∀ levels place stack s r s', Walk g settings levels place [e] s r s' →
    Approach g settings roots levels stack [e] s → s.Trusted g settings roots d fresh →
    s'.Trusted g settings roots d fresh

/-- Resolving what `t` leads to and what does not lead back keeps sessions trusted. -/
def Graph.SteadyBelow (g : Graph) (settings : ResolverSettings) (roots : List Node) (d : Node)
    (fresh : Session) (t : Node) : Prop :=
  ∀ m, g.Reaches settings t m → ¬g.Reaches settings m t → g.Steady settings roots d fresh m

section

variable {g : Graph} {settings : ResolverSettings} {roots stack : List Node} {d t : Node}
  {fresh : Session} {levels : Nat} {place : Place} {e : Edge} {es : List Edge} {s s' s₁ : Session}
  {r : Except Failure (List Schema)} {plan : Plan} {f : Failure} {schemas : List Schema}

namespace Session.Trusted

theorem congr (h : s.Trusted g settings roots d fresh) (hn : ∀ id, s'.name? id = s.name? id)
    (hm : ∀ id, s'.mark? id = s.mark? id) : s'.Trusted g settings roots d fresh := by
  refine ⟨fun id => (hn id).trans (h.name?_eq id), h.guarded.congr ?_, fun n hd he hf schema hk => ?_⟩
  · funext id
    simp only [IsMarked, hm]
  · exact h.kept n hd he hf schema ((hm n.id).symm.trans hk)

theorem push (hg : g.Closed) (ha : Approach g settings roots (levels + 1) stack (e :: es) s)
    (hm : s.mark? e.target.id = none) (hp : g.plan settings e.target = .ok plan)
    (h : s.Trusted g settings roots d fresh) :
    (s.setMark e.target.id .resolving).Trusted g settings roots d fresh := by
  refine ⟨h.name?_eq, ha.guarded_push hg hm hp h.guarded, fun n hd he hf schema hk => ?_⟩
  rw [mark?_setMark] at hk
  split at hk
  · cases hk
  · exact h.kept n hd he hf schema hk

theorem unmark (hg : g.Closed) (ha : Approach g settings roots (levels + 1) stack (e :: es) s)
    (hm : s.mark? e.target.id = none) (hp : g.plan settings e.target = .ok plan)
    (hw : Walk g settings levels (place.under e.label) plan.edges (s.setMark e.target.id .resolving)
      (.error f) s₁)
    (h : s.Trusted g settings roots d fresh) (h₁ : s₁.Trusted g settings roots d fresh) :
    (s₁.unmark e.target.id).Trusted g settings roots d fresh := by
  have hwhole : Walk g settings (levels + 1) place [e] s (.error f) (s₁.unmark e.target.id) :=
    .failed hm hp hw
  refine ⟨h₁.name?_eq, hwhole.guarded hg ha.single h.guarded, fun n hd he hf schema hk => ?_⟩
  rw [mark?_unmark] at hk
  split at hk
  · cases hk
  · exact h₁.kept n hd he hf schema hk

theorem finish (hg : g.Closed) (ha : Approach g settings roots (levels + 1) stack (e :: es) s)
    (hm : s.mark? e.target.id = none) (hp : g.plan settings e.target = .ok plan)
    (hw : Walk g settings levels (place.under e.label) plan.edges (s.setMark e.target.id .resolving)
      (.ok schemas) s₁)
    (h : s.Trusted g settings roots d fresh) (h₁ : s₁.Trusted g settings roots d fresh)
    (hd : d ∈ g.nodes)
    (hfound : g.Reaches settings d e.target → g.IsEntry settings roots e.target →
      g.Faultless settings e.target →
      (Resolve.exec (Resolve.node g settings e.target) fresh).1 = .ok (plan.assemble schemas)) :
    (s₁.setMark e.target.id (.resolved (plan.assemble schemas))).Trusted g settings roots d fresh := by
  have hwhole : Walk g settings (levels + 1) place [e] s (.ok [plan.assemble schemas])
      (s₁.setMark e.target.id (.resolved (plan.assemble schemas))) := .done hm hp hw .nil
  refine ⟨h₁.name?_eq, hwhole.guarded hg ha.single h.guarded, fun n hdn he hf schema hk => ?_⟩
  rw [mark?_setMark] at hk
  split at hk
  · next hid =>
    obtain rfl := hg.eq_of_id_eq (hdn.mem_nodes hd) (ha.mem_nodes e (List.mem_cons_self ..)) hid
    cases hk
    exact hfound hdn he hf
  · exact h₁.kept n hdn he hf schema hk

end Session.Trusted

/-- Below `t`, with the entry of `t` on the stack: what does not lead back to `t` is steady, and what
does is not an entry. -/
theorem Walk.trusted_of_below (hg : g.Closed) (honce : g.EnteredOnce settings roots d)
    (hd : d ∈ g.nodes)
    (hbelow : g.SteadyBelow settings roots d fresh t)
    (h : Walk g settings levels place es s r s') (ha : Approach g settings roots levels stack es s)
    (hes : ∀ e ∈ es, g.Reaches settings t e.target)
    (hin : ∃ c ∈ stack, g.IsEntry settings roots c ∧ g.Joined settings c t)
    (hs : s.Trusted g settings roots d fresh) : s'.Trusted g settings roots d fresh := by
  induction h generalizing stack with
  | nil | deep | fault => exact hs
  | cached _ _ ih | cut _ _ ih =>
    exact ih (ha.tail (ha.stacked.congr fun _ => rfl)) (List.forall_mem_cons.1 hes).2 hin
      (hs.congr (fun _ => rfl) fun _ => rfl)
  | @failed levels place e es s plan f s' hm hp hw ih =>
    by_cases hback : g.Reaches settings e.target t
    · have hte := (List.forall_mem_cons.1 hes).1
      exact hs.unmark hg ha hm hp hw (ih (ha.push hm hp)
        (fun e' he' => hte.tail (Graph.follows_of_mem_edges hp e' he'))
        (List.exists_mem_cons_of_exists hin) (hs.push hg ha hm hp))
    · exact hbelow e.target (List.forall_mem_cons.1 hes).1 hback e rfl _ _ _ _ _ _
        (.failed hm hp hw) ha.single hs
  | @done levels place e es s plan schemas s₁ r s' hm hp hw _ ih₁ ih₂ =>
    obtain ⟨hte, hes⟩ := List.forall_mem_cons.1 hes
    refine ih₂ (ha.tail ((hw.stacked (ha.push hm hp).stacked).finish _)) hes hin ?_
    by_cases hback : g.Reaches settings e.target t
    · have hs₁ := ih₁ (ha.push hm hp)
        (fun e' he' => hte.tail (Graph.follows_of_mem_edges hp e' he'))
        (List.exists_mem_cons_of_exists hin) (hs.push hg ha hm hp)
      refine hs.finish hg ha hm hp hw hs₁ hd fun hde he _ => ?_
      -- the entry among these nodes is on the stack, so it has a mark
      obtain ⟨c, hc, hentry, hj⟩ := hin
      obtain rfl := honce e.target c hde he hentry (.trans ⟨hback, hte⟩ hj.symm)
      cases hm.symm.trans (ha.stacked.mark?_of_mem hc)
    · exact hbelow e.target hte hback e rfl _ _ _ _ _ _ (.done hm hp hw .nil) ha.single hs

/-- The sessions mark the nodes alike that `t` leads to and that lead to it. -/
def Session.AlikeAround (g : Graph) (settings : ResolverSettings) (t : Node) (s s' : Session) : Prop :=
  ∀ m, g.Joined settings t m → s.mark? m.id = s'.mark? m.id

theorem Session.AlikeAround.setMark {v : Session} (h : s.AlikeAround g settings t v) (id : Int)
    (mark : Mark) : (s.setMark id mark).AlikeAround g settings t (v.setMark id mark) := by
  intro m hm
  rw [mark?_setMark, mark?_setMark, h m hm]

/-- A walk that goes through, below `t` and with the entry of `t` on the stack. -/
structure Lap (g : Graph) (settings : ResolverSettings) (roots : List Node) (d : Node) (fresh : Session)
    (t : Node) (levels : Nat) (place : Place) (stack : List Node) (es : List Edge) (s : Session)
    (schemas : List Schema) (s' : Session) : Prop where
  walk : Walk g settings levels place es s (.ok schemas) s'
  approach : Approach g settings roots levels stack es s
  trusted : s.Trusted g settings roots d fresh
  reached : ∀ e ∈ es, g.Reaches settings t e.target
  onto : ∀ k ∈ stack, g.Reaches settings k t
  entry : ∃ c ∈ stack, g.IsEntry settings roots c ∧ g.Joined settings c t

namespace Lap

variable {schema : Schema}

theorem trusted_after (hg : g.Closed) (honce : g.EnteredOnce settings roots d) (hd : d ∈ g.nodes)
    (hbelow : g.SteadyBelow settings roots d fresh t)
    (h : Lap g settings roots d fresh t levels place stack es s schemas s') :
    s'.Trusted g settings roots d fresh :=
  h.walk.trusted_of_below hg honce hd hbelow h.approach h.reached h.entry h.trusted

theorem split (hg : g.Closed) (honce : g.EnteredOnce settings roots d) (hd : d ∈ g.nodes)
    (hbelow : g.SteadyBelow settings roots d fresh t)
    (h : Lap g settings roots d fresh t levels place stack (e :: es) s schemas s') :
    ∃ schema schemas' s₁, schemas = schema :: schemas' ∧
      Lap g settings roots d fresh t levels place stack [e] s [schema] s₁ ∧
      Lap g settings roots d fresh t levels place stack es s₁ schemas' s' := by
  obtain ⟨schema, schemas', s₁, rfl, hw, hw'⟩ := h.walk.cons_ok
  have hfirst : Lap g settings roots d fresh t levels place stack [e] s [schema] s₁ :=
    ⟨hw, h.approach.single, h.trusted, by simpa using h.reached e (by simp), h.onto, h.entry⟩
  exact ⟨schema, schemas', s₁, rfl, hfirst, hw', h.approach.tail (hw.stacked h.approach.stacked),
    hfirst.trusted_after hg honce hd hbelow, (List.forall_mem_cons.1 h.reached).2, h.onto, h.entry⟩

/-- A target that does not lead back is an entry, so its schema is what a fresh session finds. -/
theorem found (hg : g.Closed) (honce : g.EnteredOnce settings roots d) (hd : d ∈ g.nodes)
    (hdt : g.Reaches settings d t) (ht : g.Faultless settings t)
    (hbelow : g.SteadyBelow settings roots d fresh t)
    (h : Lap g settings roots d fresh t levels place stack [e] s [schema] s')
    (hback : ¬g.Reaches settings e.target t) :
    (Resolve.exec (Resolve.node g settings e.target) fresh).1 = .ok schema ∧
      s'.AlikeAround g settings t s := by
  have hte := h.reached e (List.mem_cons_self ..)
  have hentry : g.IsEntry settings roots e.target := by
    refine (h.approach.enters e (List.mem_cons_self ..)).resolve_right ?_
    rintro ⟨k, hk, -, hek⟩
    exact hback (hek.trans (h.onto k hk))
  have hout : s.mark? e.target.id ≠ some .resolving := by
    intro hm
    have ht := h.approach.mem_nodes e (List.mem_cons_self ..)
    exact hback (h.onto _ (h.approach.stacked.mem_of_mark? hg ht hm))
  refine ⟨(h.trusted_after hg honce hd hbelow).kept e.target (hdt.trans hte) hentry (ht.of_reaches hte)
    schema (h.walk.mark?_of_single hout), fun m hm => ?_⟩
  refine h.walk.mark?_eq_of_not_reaches fun e' he' k hk hid => ?_
  obtain rfl := List.mem_singleton.1 he'
  have hmem := h.approach.mem_nodes e' (List.mem_cons_self ..)
  obtain rfl := hg.eq_of_id_eq (hk.mem_nodes hmem) (hm.1.mem_nodes (hdt.mem_nodes hd)) hid
  exact hback (hk.trans hm.2)

theorem push (hg : g.Closed)
    (h : Lap g settings roots d fresh t (levels + 1) place stack [e] s [schema] s')
    (hback : g.Reaches settings e.target t) (hm : s.mark? e.target.id = none)
    (hp : g.plan settings e.target = .ok plan)
    (hw : Walk g settings levels (place.under e.label) plan.edges (s.setMark e.target.id .resolving)
      (.ok schemas) s₁) :
    Lap g settings roots d fresh t levels (place.under e.label) (e.target :: stack) plan.edges
      (s.setMark e.target.id .resolving) schemas s₁ := by
  have hte := h.reached e (List.mem_cons_self ..)
  exact ⟨hw, h.approach.push hm hp, h.trusted.push hg h.approach hm hp,
    fun e' he' => hte.tail (Graph.follows_of_mem_edges hp e' he'),
    List.forall_mem_cons.2 ⟨hback, h.onto⟩, List.exists_mem_cons_of_exists h.entry⟩

/-- Two laps over the same edges from sessions that are alike around `t` return the same schemas. -/
theorem agree (hg : g.Closed) (honce : g.EnteredOnce settings roots d) (hd : d ∈ g.nodes)
    (hdt : g.Reaches settings d t) (ht : g.Faultless settings t)
    (hbelow : g.SteadyBelow settings roots d fresh t)
    {levels' : Nat} {place' : Place} {stack' : List Node} {v v' : Session} {schemas' : List Schema}
    (h : Lap g settings roots d fresh t levels place stack es s schemas s')
    (h' : Lap g settings roots d fresh t levels' place' stack' es v schemas' v')
    (hsv : s.AlikeAround g settings t v) :
    schemas = schemas' ∧ s'.AlikeAround g settings t v' := by
  -- the levels are for the nodes below an edge, the list for the edges beside it
  induction levels using Nat.strong_induction_on generalizing levels' place place' stack stack' es s s'
    v v' schemas schemas' with
  | h levels ihl =>
  induction es generalizing s v schemas schemas' with
  | nil =>
    obtain ⟨hw, -⟩ := h
    obtain ⟨hw', -⟩ := h'
    cases hw
    cases hw'
    exact ⟨rfl, hsv⟩
  | cons e es ih =>
    obtain ⟨schema, schemas, s₁, rfl, hfirst, hrest⟩ := h.split hg honce hd hbelow
    obtain ⟨schema', schemas', v₁, rfl, hfirst', hrest'⟩ := h'.split hg honce hd hbelow
    suffices hsame : schema = schema' ∧ s₁.AlikeAround g settings t v₁ by
      obtain ⟨rfl, hsv₁⟩ := hsame
      obtain ⟨rfl, hafter⟩ := ih hrest hrest' hsv₁
      exact ⟨rfl, hafter⟩
    by_cases hback : g.Reaches settings e.target t
    · have hmark := hsv e.target ⟨hfirst.reached e (List.mem_cons_self ..), hback⟩
      rcases hfirst.walk.single_ok with ⟨hm, rfl⟩ | ⟨hm, rfl, hs₁⟩ |
        ⟨hm, below, plan, parts, s₂, rfl, hp, rfl, rfl, hw⟩ <;>
      rcases hfirst'.walk.single_ok with ⟨hm', rfl⟩ | ⟨hm', rfl, hv₁⟩ |
        ⟨hm', below', plan', parts', v₂, rfl, hp', rfl, rfl, hw'⟩ <;>
      have hmarks := hm.symm.trans (hmark.trans hm') <;> cases hmarks
      · exact ⟨rfl, hsv⟩
      · refine ⟨by rw [h.trusted.name?_eq, h'.trusted.name?_eq], fun m hm => ?_⟩
        rw [hs₁, hv₁, hsv m hm]
      · obtain rfl := Except.ok.inj (hp.symm.trans hp')
        obtain ⟨rfl, hparts⟩ := ihl below (Nat.lt_succ_self below) (hfirst.push hg hback hm hp hw)
          (hfirst'.push hg hback hm' hp hw') (hsv.setMark _ _)
        exact ⟨rfl, hparts.setMark _ _⟩
    · obtain ⟨hfound, hs₁⟩ := hfirst.found hg honce hd hdt ht hbelow hback
      obtain ⟨hfound', hv₁⟩ := hfirst'.found hg honce hd hdt ht hbelow hback
      refine ⟨Except.ok.inj (hfound.symm.trans hfound'), fun m hm => ?_⟩
      rw [hs₁ m hm, hv₁ m hm, hsv m hm]

end Lap

theorem Session.trusted_of_fresh (hfresh : ∀ id, fresh.mark? id = none) :
    fresh.Trusted g settings roots d fresh :=
  ⟨fun _ => rfl, fun n _ _ hm => absurd (hfresh n.id) hm,
    fun n _ _ _ _ hm => by cases (hfresh n.id).symm.trans hm⟩

/-- An entry without a mark is resolved to what a fresh session finds: the nodes that lead back to it
have no marks either, and so the two runs below it are laps that agree. -/
theorem Walk.found_of_entry (hg : g.Closed) (honce : g.EnteredOnce settings roots d) (hd : d ∈ g.nodes)
    (hdepth : g.nodes.length ≤ settings.levels) (hfresh : ∀ id, fresh.mark? id = none)
    (hbelow : g.SteadyBelow settings roots d fresh e.target)
    (ha : Approach g settings roots (levels + 1) stack [e] s) (hs : s.Trusted g settings roots d fresh)
    (hm : s.mark? e.target.id = none) (hp : g.plan settings e.target = .ok plan)
    (hw : Walk g settings levels (place.under e.label) plan.edges (s.setMark e.target.id .resolving)
      (.ok schemas) s₁)
    (hdt : g.Reaches settings d e.target) (he : g.IsEntry settings roots e.target)
    (hf : g.Faultless settings e.target) :
    (Resolve.exec (Resolve.node g settings e.target) fresh).1 = .ok (plan.assemble schemas) := by
  have ht := ha.mem_nodes e (List.mem_cons_self ..)
  have hstacked : fresh.Stacked g [] := ⟨by simp, List.nodup_nil, by simp [hfresh]⟩
  have ha₀ : Approach g settings roots settings.levels [] [⟨none, e.target⟩] fresh :=
    .top hstacked ht he hdepth
  have hs₀ : fresh.Trusted g settings roots d fresh := Session.trusted_of_fresh hfresh
  obtain ⟨schema, s', hrun⟩ :=
    (Resolve.exists_ok_iff_clean .nowhere hg ht hstacked hdepth).2 hf.clean
  have hw₀ := walk_of_resolve g settings settings.levels .nowhere e.target fresh
  rw [hrun] at hw₀
  obtain ⟨hm₀, -⟩ | ⟨hm₀, -⟩ | ⟨hm₀, below, plan₀, parts, s₂, hlevels, hp₀, rfl, -, hw₀⟩ :=
    Walk.single_ok hw₀
  · cases (hfresh _).symm.trans hm₀
  · cases (hfresh _).symm.trans hm₀
  obtain rfl := Except.ok.inj (hp.symm.trans hp₀)
  rw [hlevels] at ha₀
  have hreached := Graph.reaches_of_mem_edges hp
  have hself : ∃ c ∈ e.target :: stack, g.IsEntry settings roots c ∧ g.Joined settings c e.target :=
    ⟨e.target, List.mem_cons_self .., he, .refl, .refl⟩
  have hlap : Lap g settings roots d fresh e.target levels (place.under e.label) (e.target :: stack)
      plan.edges (s.setMark e.target.id .resolving) schemas s₁ :=
    ⟨hw, ha.push hm hp, hs.push hg ha hm hp, hreached, List.forall_mem_cons.2 ⟨.refl, fun k hk =>
      (ha.leads k hk e (List.mem_cons_self ..)).to_reflTransGen⟩, hself⟩
  have hs₀ := hs₀.push hg ha₀ hm₀ hp
  have hlap₀ : Lap g settings roots d fresh e.target below (Place.nowhere.under none) [e.target]
      plan.edges (fresh.setMark e.target.id .resolving) parts s₂ :=
    ⟨hw₀, ha₀.push hm₀ hp, hs₀, hreached, by simpa using .refl,
      ⟨e.target, List.mem_cons_self .., he, .refl, .refl⟩⟩
  -- a mark around the target would come with one of the target, its entry
  have halike : s.AlikeAround g settings e.target fresh := by
    intro m hj
    rw [hfresh]
    by_contra hmark
    obtain ⟨c, hc, hcm, hcmark⟩ := hs.guarded m (hj.1.mem_nodes ht) (hf.of_reaches hj.1) hmark
    obtain rfl := honce e.target c hdt he hc (.trans hj hcm.symm)
    exact hcmark hm
  obtain ⟨rfl, -⟩ := hlap.agree hg honce hd hdt hf hbelow hlap₀ (halike.setMark _ _)
  exact congrArg Prod.fst hrun

/-- Whatever was resolved before, a faultless entry is resolved to what a fresh session finds. -/
theorem Graph.steady (hg : g.Closed) (honce : g.EnteredOnce settings roots d) (hd : d ∈ g.nodes)
    (hdepth : g.nodes.length ≤ settings.levels) (hfresh : ∀ id, fresh.mark? id = none) :
    ∀ t ∈ g.nodes, g.Steady settings roots d fresh t := by
  refine Graph.below_induction settings fun t ht hbelow => ?_
  rintro e rfl levels place stack s r s' h ha hs
  have hin := ha.exists_entry hg
  cases h with
  | cached hm hw => cases hw; exact hs
  | cut hm hw => cases hw; exact hs.congr (fun _ => rfl) fun _ => rfl
  | deep | fault => exact hs
  | failed hm hp hw =>
    refine hs.unmark hg ha hm hp hw ?_
    exact hw.trusted_of_below hg honce hd hbelow (ha.push hm hp)
      (Graph.reaches_of_mem_edges hp) hin (hs.push hg ha hm hp)
  | done hm hp hw hrest =>
    cases hrest
    have hs₁ := hw.trusted_of_below hg honce hd hbelow (ha.push hm hp)
      (Graph.reaches_of_mem_edges hp) hin (hs.push hg ha hm hp)
    exact hs.finish hg ha hm hp hw hs₁ hd
      (Walk.found_of_entry hg honce hd hdepth hfresh hbelow ha hs hm hp hw)

end

end TypeSchema
