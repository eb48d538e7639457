import TypeSchema.Proofs.Blames

/-!
# Faults and the ways to them

`Graph.Faulty` nodes fail before any of their children is looked at. Resolution meets the first of
them in depth-first order that no answered node hides: `Graph.FirstFault` finds it without marks or
sessions, given the ids that are answered already. The last section ties faults to
`Graph.Unrepresentable`.
-/

namespace TypeSchema

namespace Graph

/-- Something is wrong with the node itself. -/
def Faulty (g : Graph) (settings : ResolverSettings) (n : Node) : Prop :=
  ∃ cause, g.plan settings n = .error cause

/-- A way of followed edges leads from the one node to the other, and no node of it, the two
included, is to be avoided. -/
inductive ReachesOutside (g : Graph) (settings : ResolverSettings) (avoid : Int → Prop) :
    Node → Node → Prop
  | refl {n} : ¬avoid n.id → ReachesOutside g settings avoid n n
  | head {n m k} : ¬avoid n.id → g.Follows settings n m → ReachesOutside g settings avoid m k →
    ReachesOutside g settings avoid n k

/-- No fault is reached without the nodes to avoid. -/
def Clean (g : Graph) (settings : ResolverSettings) (avoid : Int → Prop) (n : Node) : Prop :=
  ∀ m, g.ReachesOutside settings avoid n m → ¬g.Faulty settings m

/-- The cause of the first fault below a node in depth-first order. Below a node, the node itself is
avoided too. -/
inductive FirstFault (g : Graph) (settings : ResolverSettings) : (Int → Prop) → Node → Cause → Prop
  | here {avoid n cause} : ¬avoid n.id → g.plan settings n = .error cause →
    FirstFault g settings avoid n cause
  | deeper {avoid n before m after cause} : ¬avoid n.id → ¬g.Faulty settings n →
    g.followed settings n = before ++ m :: after →
    (∀ b ∈ before, g.Clean settings (fun id => avoid id ∨ id = n.id) b) →
    FirstFault g settings (fun id => avoid id ∨ id = n.id) m cause →
    FirstFault g settings avoid n cause

/-- The cause of the first fault below a list of nodes. -/
def FirstFaultAmong (g : Graph) (settings : ResolverSettings) (avoid : Int → Prop) (ms : List Node)
    (cause : Cause) : Prop :=
  ∃ before m after, ms = before ++ m :: after ∧ (∀ b ∈ before, g.Clean settings avoid b) ∧
    g.FirstFault settings avoid m cause

variable {g : Graph} {settings : ResolverSettings} {n m k : Node} {avoid avoid' : Int → Prop}
  {cause cause' : Cause}

theorem not_faulty_iff : ¬g.Faulty settings n ↔ ∃ p, g.plan settings n = .ok p := by
  unfold Faulty
  cases g.plan settings n <;> simp

theorem follows_of_followed_eq {before after : List Node}
    (h : g.followed settings n = before ++ m :: after) : g.Follows settings n m := by
  show m ∈ g.followed settings n
  simp [h]

namespace ReachesOutside

theorem not_avoid (h : g.ReachesOutside settings avoid n m) : ¬avoid n.id := by
  cases h with
  | refl hn | head hn => exact hn

theorem reaches (h : g.ReachesOutside settings avoid n m) : g.Reaches settings n m := by
  induction h with
  | refl => exact .refl
  | head _ hf _ ih => exact .head hf ih

theorem of_reaches (hnone : ∀ id, ¬avoid id) (h : g.Reaches settings n m) :
    g.ReachesOutside settings avoid n m := by
  induction h using Relation.ReflTransGen.head_induction_on with
  | refl => exact .refl (hnone _)
  | head hf _ ih => exact .head (hnone _) hf ih

theorem anti (hsub : ∀ id, avoid id → avoid' id) (h : g.ReachesOutside settings avoid' n m) :
    g.ReachesOutside settings avoid n m := by
  induction h with
  | refl hn => exact .refl fun h => hn (hsub _ h)
  | head hn hf _ ih => exact .head (fun h => hn (hsub _ h)) hf ih

end ReachesOutside

theorem clean_of_avoid (h : avoid n.id) : g.Clean settings avoid n :=
  fun _ hm => absurd h hm.not_avoid

theorem clean_iff_of_none (hnone : ∀ id, ¬avoid id) :
    g.Clean settings avoid n ↔ ∀ m, g.Reaches settings n m → ¬g.Faulty settings m :=
  ⟨fun h m hm => h m (.of_reaches hnone hm), fun h m hm => h m hm.reaches⟩

theorem Clean.mono (hsub : ∀ id, avoid id → avoid' id) (h : g.Clean settings avoid n) :
    g.Clean settings avoid' n :=
  fun m hm => h m (hm.anti hsub)

/-! ### Avoiding more -/

/-- What is avoided in addition hides no fault. -/
structure Extends (g : Graph) (settings : ResolverSettings) (avoid avoid' : Int → Prop) : Prop where
  mono : ∀ id, avoid id → avoid' id
  clean : ∀ m ∈ g.nodes, avoid' m.id → g.Clean settings avoid m

/-- A way that leaves a node for good goes on from a node it follows. -/
theorem ReachesOutside.leave (h : g.ReachesOutside settings avoid n m) (k : Node) :
    g.ReachesOutside settings (fun id => avoid id ∨ id = k.id) n m ∨ m.id = k.id ∨
      ∃ c, (∃ b, b.id = k.id ∧ g.Follows settings b c ∧ g.Reaches settings n b) ∧
        g.ReachesOutside settings (fun id => avoid id ∨ id = k.id) c m := by
  induction h with
  | @refl n hout =>
    by_cases hk : n.id = k.id
    · exact .inr (.inl hk)
    · exact .inl (.refl (not_or.2 ⟨hout, hk⟩))
  | @head n m' m hout hf _ ih =>
    rcases ih with hr | hm | ⟨c, ⟨b, hb, hbc, hnb⟩, hr⟩
    · by_cases hk : n.id = k.id
      · exact .inr (.inr ⟨m', ⟨n, hk, hf, .refl⟩, hr⟩)
      · exact .inl (.head (not_or.2 ⟨hout, hk⟩) hf hr)
    · exact .inr (.inl hm)
    · exact .inr (.inr ⟨c, ⟨b, hb, hbc, .head hf hnb⟩, hr⟩)

theorem clean_of_followed (hg : g.Closed) (hn : n ∈ g.nodes) (hnf : ¬g.Faulty settings n)
    (h : ∀ c ∈ g.followed settings n, g.Clean settings (fun id => avoid id ∨ id = n.id) c) :
    g.Clean settings avoid n := by
  intro m hm hfault
  have hmem := hm.reaches.mem_nodes hn
  rcases hm.leave n with hr | hid | ⟨c, ⟨b, hb, hbc, hnb⟩, hr⟩
  · exact hr.not_avoid (.inr rfl)
  · rw [hg.eq_of_id_eq hmem hn hid] at hfault
    exact hnf hfault
  · obtain rfl := hg.eq_of_id_eq (hnb.mem_nodes hn) hn hb
    exact h c hbc m hr hfault

namespace Extends

theorem refl (avoid : Int → Prop) : g.Extends settings avoid avoid :=
  ⟨fun _ h => h, fun _ _ h => clean_of_avoid h⟩

theorem reachesOutside_or (h : g.Extends settings avoid avoid') (hn : n ∈ g.nodes)
    (hr : g.ReachesOutside settings avoid n m) :
    g.ReachesOutside settings avoid' n m ∨ ¬g.Faulty settings m := by
  induction hr with
  | @refl n hout =>
    by_cases hin : avoid' n.id
    · exact .inr (h.clean n hn hin n (.refl hout))
    · exact .inl (.refl hin)
  | @head n m k hout hf hr ih =>
    by_cases hin : avoid' n.id
    · exact .inr (h.clean n hn hin k (.head hout hf hr))
    · exact (ih hf.mem_nodes).imp_left (.head hin hf)

theorem clean_of_clean (h : g.Extends settings avoid avoid') (hn : n ∈ g.nodes)
    (hc : g.Clean settings avoid' n) : g.Clean settings avoid n := by
  intro m hm hfault
  rcases h.reachesOutside_or hn hm with hm | hm
  · exact hc m hm hfault
  · exact hm hfault

theorem trans {avoid'' : Int → Prop} (h : g.Extends settings avoid avoid')
    (h' : g.Extends settings avoid' avoid'') : g.Extends settings avoid avoid'' :=
  ⟨fun id hid => h'.mono id (h.mono id hid), fun m hm hin => h.clean_of_clean hm (h'.clean m hm hin)⟩

theorem insert (h : g.Extends settings avoid avoid') (id : Int) :
    g.Extends settings (fun i => avoid i ∨ i = id) (fun i => avoid' i ∨ i = id) := by
  refine ⟨fun i hi => hi.imp_left (h.mono i), fun m hm hin => ?_⟩
  rcases hin with hin | hid
  · exact (h.clean m hm hin).mono fun _ => .inl
  · exact clean_of_avoid (.inr hid)

theorem single (hg : g.Closed) (hn : n ∈ g.nodes) (h : g.Clean settings avoid n) :
    g.Extends settings avoid (fun id => avoid id ∨ id = n.id) := by
  refine ⟨fun _ => .inl, fun m hm hin => ?_⟩
  rcases hin with hin | hid
  · exact clean_of_avoid hin
  · rw [hg.eq_of_id_eq hm hn hid]
    exact h

theorem firstFault (h : g.Extends settings avoid avoid') (hn : n ∈ g.nodes)
    (hf : g.FirstFault settings avoid' n cause) : g.FirstFault settings avoid n cause := by
  induction hf generalizing avoid with
  | @here avoid' n cause hout hp => exact .here (fun hin => hout (h.mono _ hin)) hp
  | @deeper avoid' n before m after cause hout hnf hsplit hclean _ ih =>
    have hfollows : ∀ k ∈ before ++ m :: after, k ∈ g.nodes := fun k hk =>
      Follows.mem_nodes (hsplit.symm ▸ hk : k ∈ g.followed settings n)
    have hext := h.insert n.id
    refine .deeper (fun hin => hout (h.mono _ hin)) hnf hsplit (fun b hb => ?_) ?_
    · exact hext.clean_of_clean (hfollows b (List.mem_append_left _ hb)) (hclean b hb)
    · exact ih hext (hfollows m (by simp))

theorem firstFaultAmong (h : g.Extends settings avoid avoid') {ms : List Node}
    (hms : ∀ m ∈ ms, m ∈ g.nodes) (hf : g.FirstFaultAmong settings avoid' ms cause) :
    g.FirstFaultAmong settings avoid ms cause := by
  obtain ⟨before, m, after, rfl, hclean, hf⟩ := hf
  refine ⟨before, m, after, rfl, fun b hb => ?_, h.firstFault (hms m (by simp)) hf⟩
  exact h.clean_of_clean (hms b (List.mem_append_left _ hb)) (hclean b hb)

end Extends

/-! ### There is one first fault -/

namespace FirstFault

theorem not_clean (h : g.FirstFault settings avoid n cause) : ¬g.Clean settings avoid n := by
  suffices hs : ∃ m, g.ReachesOutside settings avoid n m ∧ g.Faulty settings m by
    obtain ⟨m, hm, hfault⟩ := hs
    exact fun hc => hc m hm hfault
  induction h with
  | @here avoid n cause hout hp => exact ⟨n, .refl hout, cause, hp⟩
  | @deeper avoid n before m after cause hout _ hsplit _ _ ih =>
    obtain ⟨k, hk, hfault⟩ := ih
    have hf := follows_of_followed_eq hsplit
    exact ⟨k, .head hout hf (hk.anti fun _ => .inl), hfault⟩

theorem unique (h : g.FirstFault settings avoid n cause) (h' : g.FirstFault settings avoid n cause') :
    cause = cause' := by
  induction h with
  | here _ hp =>
    cases h' with
    | here _ hp' => exact Except.error.inj (hp.symm.trans hp')
    | deeper _ hnf => exact absurd ⟨_, hp⟩ hnf
  | @deeper avoid n before m after cause _ hnf hsplit hclean hm ih =>
    cases h' with
    | here _ hp' => exact absurd ⟨_, hp'⟩ hnf
    | @deeper _ _ before' m' after' _ _ _ hsplit' hclean' hm' =>
      -- the child where the one finds its fault is not clean, so the other cannot pass it
      rcases List.append_eq_append_iff.1 (hsplit.symm.trans hsplit') with
        ⟨_ | ⟨c, cs⟩, hb, hr⟩ | ⟨_ | ⟨c, cs⟩, hb, hr⟩
      · cases hr; exact ih hm'
      · cases hr; exact absurd (hclean' m (by simp [hb])) hm.not_clean
      · cases hr; exact ih hm'
      · cases hr; exact absurd (hclean m' (by simp [hb])) hm'.not_clean

/-- Avoiding also nodes that reach no fault changes nothing. -/
theorem widen (h : g.FirstFault settings avoid n cause) (hsub : ∀ id, avoid id → avoid' id)
    (hhealthy : ∀ k, g.Reaches settings n k → avoid' k.id → ¬avoid k.id →
      ∀ m, g.Reaches settings k m → ¬g.Faulty settings m) :
    g.FirstFault settings avoid' n cause := by
  induction h generalizing avoid' with
  | @here avoid n cause hout hp =>
    exact .here (fun hin => hhealthy n .refl hin hout n .refl ⟨cause, hp⟩) hp
  | @deeper avoid n before m after cause hout hnf hsplit hclean hm ih =>
    have hf := follows_of_followed_eq hsplit
    have hsub' : ∀ id, (avoid id ∨ id = n.id) → (avoid' id ∨ id = n.id) :=
      fun id => .imp_left (hsub id)
    refine .deeper (fun hin => hm.not_clean fun k hk => ?_) hnf hsplit
      (fun b hb => (hclean b hb).mono hsub') (ih hsub' fun k hk hin hk' => ?_)
    · exact hhealthy n .refl hin hout k (.head hf hk.reaches)
    · rw [not_or] at hk'
      exact hhealthy k (.head hf hk) (hin.resolve_right hk'.2) hk'.1

end FirstFault

namespace FirstFaultAmong

variable {ms : List Node}

theorem head (h : g.FirstFault settings avoid m cause) : g.FirstFaultAmong settings avoid (m :: ms) cause :=
  ⟨[], m, ms, rfl, by simp, h⟩

theorem tail (hc : g.Clean settings avoid m) (h : g.FirstFaultAmong settings avoid ms cause) :
    g.FirstFaultAmong settings avoid (m :: ms) cause := by
  obtain ⟨before, k, after, rfl, hclean, hf⟩ := h
  exact ⟨m :: before, k, after, rfl, List.forall_mem_cons.2 ⟨hc, hclean⟩, hf⟩

theorem deeper (hout : ¬avoid n.id) (hnf : ¬g.Faulty settings n)
    (h : g.FirstFaultAmong settings (fun id => avoid id ∨ id = n.id) (g.followed settings n) cause) :
    g.FirstFault settings avoid n cause := by
  obtain ⟨before, m, after, hsplit, hclean, hf⟩ := h
  exact .deeper hout hnf hsplit hclean hf

theorem firstFault (h : g.FirstFaultAmong settings avoid [n] cause) : g.FirstFault settings avoid n cause := by
  obtain ⟨before, m, after, hsplit, -, hf⟩ := h
  rcases before with _ | ⟨b, before⟩
  · cases hsplit; exact hf
  · simp at hsplit

end FirstFaultAmong

/-! ### Faults and unrepresentable nodes -/

theorem Builds.not_unrepresentable {children : List Node} {parts : List Value} {fragment : Value}
    (h : g.Builds settings n children parts fragment) : ¬g.Unrepresentable n := by
  have hvalues : ∀ {cs values}, Values cs values → ∀ c ∈ cs, ¬c.LacksValue := fun hv c hc =>
    Node.exists_literalValue_iff.1 (exists_mapM_eq_ok_iff.1 ⟨_, mapM_eq_ok_iff.2 hv⟩ c hc)
  intro hu
  cases hu with
  | shapeless hs => cases h <;> simp_all
  | function hs => cases h <;> simp_all
  | bigIntLiteral hs => cases h <;> simp_all
  | bigInt hs hp =>
    cases h with
    | primitive hs' hp' hf =>
      cases hp.symm.trans hp'
      simp [Fragment.primitive?] at hf
    | _ => simp_all
  | literal hs hl =>
    cases h with
    | literal _ hv => exact Node.exists_literalValue_iff.1 ⟨_, hv⟩ hl
    | _ => simp_all
  | @enum c hs hc hl =>
    cases h with
    | enum _ hall hv => exact hvalues hv c hc (hl (hall c hc))
    | _ => simp_all
  | @union c hs hlen hc hlit hl =>
    have hshown : c ∈ g.shownLiterals n := by
      have ht := mt Node.not_lacksValue_of_isLiteralTrue (not_not.2 hl)
      have hf := mt Node.not_lacksValue_of_isLiteralFalse (not_not.2 hl)
      unfold shownLiterals
      split <;> simp_all
    cases h with
    | unionEnum _ _ _ _ hv => exact hvalues hv c hshown hl
    | unionAnyOf _ _ _ _ hv => exact hvalues hv c hshown hl
    | unionBoolean _ hb => exact Node.not_lacksValue_of_isBooleanPair hb c hc hl
    | unionNone _ hnil | unionOne _ hnil => simp [hnil] at hlen
    | _ => simp_all

theorem Unrepresentable.faulty (h : g.Unrepresentable n) : g.Faulty settings n := by
  by_contra hnf
  obtain ⟨p, hp⟩ := not_faulty_iff.1 hnf
  exact (obeys_of_plan hp (p.edges.map fun _ => .any) (by simp)).not_unrepresentable h

/-- A fault is unrepresentable, or an intersection that follows an unrepresentable part. -/
theorem Faulty.unrepresentable_or (hg : g.Closed) (hn : n ∈ g.nodes) (h : g.Faulty settings n) :
    g.Unrepresentable n ∨ ∃ part, g.Follows settings n part ∧ g.Unrepresentable part := by
  obtain ⟨cause, h⟩ := h
  rcases hg.blames_or hn h with hblames | ⟨part, hblames⟩
  · exact .inl hblames.unrepresentable
  · exact .inr ⟨part, hblames.follows settings, hblames.blames.unrepresentable⟩

/-- Faults and unrepresentable nodes are reached from the same nodes. -/
theorem forall_not_faulty_iff (hg : g.Closed) (hn : n ∈ g.nodes) :
    (∀ m, g.Reaches settings n m → ¬g.Faulty settings m) ↔
      ∀ m, g.Reaches settings n m → ¬g.Unrepresentable m := by
  refine ⟨fun h m hm hu => h m hm hu.faulty, fun h m hm hfault => ?_⟩
  rcases hfault.unrepresentable_or hg (hm.mem_nodes hn) with hu | ⟨part, hf, hu⟩
  · exact h m hm hu
  · exact h part (hm.tail hf) hu

end Graph

end TypeSchema
