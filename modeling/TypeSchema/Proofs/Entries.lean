import Mathlib.Data.Finset.Card
import TypeSchema.Proofs.Isolation

/-!
# Cycles that are entered at one node

Nodes that lead to each other are resolved together, from the node where resolution comes in:
`Graph.IsEntry`. If that is always the same one, `Graph.EnteredOnce`, then it does not matter what was
resolved before: what fails by itself is never hidden, `Session.Exposed`, and what is kept for an entry
is what a fresh session finds for it, `Session.Kept`.
-/

namespace TypeSchema

namespace Graph

variable {g : Graph} {settings : ResolverSettings} {roots : List Node} {d n m k t : Node}
  {avoid avoid' : Int → Prop}

/-- Each of the two leads to the other. -/
def Joined (g : Graph) (settings : ResolverSettings) (n m : Node) : Prop :=
  g.Reaches settings n m ∧ g.Reaches settings m n

theorem Joined.symm (h : g.Joined settings n m) : g.Joined settings m n := ⟨h.2, h.1⟩

theorem Joined.trans (h : g.Joined settings n m) (h' : g.Joined settings m k) : g.Joined settings n k :=
  ⟨h.1.trans h'.1, h'.2.trans h.2⟩

def Faultless (g : Graph) (settings : ResolverSettings) (n : Node) : Prop :=
  ∀ m, g.Reaches settings n m → ¬g.Faulty settings m

theorem Faultless.of_reaches (h : g.Faultless settings n) (hr : g.Reaches settings n m) :
    g.Faultless settings m :=
  fun k hk => h k (hr.trans hk)

theorem Faultless.clean (h : g.Faultless settings n) : g.Clean settings avoid n :=
  fun m hm => h m hm.reaches

/-! ### Entries -/

def Rooted (g : Graph) (settings : ResolverSettings) (roots : List Node) (n : Node) : Prop :=
  ∃ r ∈ roots, g.Reaches settings r n

/-- A root, or a node that is followed from where it does not lead back to. -/
def IsEntry (g : Graph) (settings : ResolverSettings) (roots : List Node) (n : Node) : Prop :=
  n ∈ roots ∨ ∃ k, g.Rooted settings roots k ∧ g.Follows settings k n ∧ ¬g.Reaches settings n k

/-- Of the nodes below `d` that lead to each other, one at most is an entry. -/
def EnteredOnce (g : Graph) (settings : ResolverSettings) (roots : List Node) (d : Node) : Prop :=
  ∀ n m, g.Reaches settings d n → g.IsEntry settings roots n → g.IsEntry settings roots m →
    g.Joined settings n m → n = m

theorem Rooted.of_reaches (h : g.Rooted settings roots n) (hr : g.Reaches settings n m) :
    g.Rooted settings roots m := by
  obtain ⟨r, hmem, hn⟩ := h
  exact ⟨r, hmem, hn.trans hr⟩

theorem IsEntry.rooted (h : g.IsEntry settings roots n) : g.Rooted settings roots n := by
  rcases h with h | ⟨k, hk, hf, -⟩
  · exact ⟨n, h, .refl⟩
  · exact hk.of_reaches (.single hf)

theorem isEntry_or_reaches (hk : g.Rooted settings roots k) (hf : g.Follows settings k n) :
    g.IsEntry settings roots n ∨ g.Reaches settings n k :=
  (Classical.em (g.Reaches settings n k)).symm.imp_left fun h => .inr ⟨k, hk, hf, h⟩

/-! ### Ways and entries -/

namespace ReachesOutside

theorem trans (h : g.ReachesOutside settings avoid n m) (h' : g.ReachesOutside settings avoid m k) :
    g.ReachesOutside settings avoid n k := by
  induction h with
  | refl => exact h'
  | head hn hf _ ih => exact .head hn hf (ih h')

theorem tail (h : g.ReachesOutside settings avoid n m) (hf : g.Follows settings m k)
    (hk : ¬avoid k.id) : g.ReachesOutside settings avoid n k := by
  induction h with
  | refl hn => exact .head hn hf (.refl hk)
  | head hn hf' _ ih => exact .head hn hf' (ih hf)

theorem arrive (h : g.ReachesOutside settings avoid n m) (k : Node) :
    g.ReachesOutside settings (fun id => avoid id ∨ id = k.id) n m ∨ n.id = k.id ∨
      ∃ b, g.ReachesOutside settings (fun id => avoid id ∨ id = k.id) n b ∧
        ∃ c, c.id = k.id ∧ g.Follows settings b c ∧ g.ReachesOutside settings avoid c m := by
  induction h with
  | @refl n hn =>
    by_cases hk : n.id = k.id
    · exact .inr (.inl hk)
    · exact .inl (.refl (not_or.2 ⟨hn, hk⟩))
  | @head n m' m hn hf hr ih =>
    by_cases hk : n.id = k.id
    · exact .inr (.inl hk)
    have hn' : ¬(avoid n.id ∨ n.id = k.id) := not_or.2 ⟨hn, hk⟩
    rcases ih with hr' | hid | ⟨b, hb, c, hc, hbc, hcm⟩
    · exact .inl (.head hn' hf hr')
    · exact .inr (.inr ⟨n, .refl hn', m', hid, hf, hr⟩)
    · exact .inr (.inr ⟨b, .head hn' hf hb, c, hc, hbc, hcm⟩)

/-- A way to nodes that lead to each other comes in at their entry, unless it starts among them. -/
theorem entry_or_joined (honce : g.EnteredOnce settings roots d)
    (hr : g.ReachesOutside settings avoid n m) (hn : g.Rooted settings roots n)
    (hk : g.IsEntry settings roots k) (hdk : g.Reaches settings d k) (hj : g.Joined settings m k) :
    g.ReachesOutside settings avoid n k ∨ g.Joined settings n k := by
  induction hr with
  | refl => exact .inr hj
  | @head n m' m hn' hf hr ih =>
    rcases ih (hn.of_reaches (.single hf)) hj with h | h
    · exact .inl (.head hn' hf h)
    · rcases isEntry_or_reaches hn hf with he | hback
      · obtain rfl := honce k m' hdk hk he h.symm
        exact .inl (.head hn' hf (.refl hr.not_avoid))
      · exact .inr (.trans ⟨.single hf, hback⟩ h)

end ReachesOutside

def Beside (stack : List Node) (id : Int) : Prop := ∀ m ∈ stack, m.id ≠ id

/-- A node is resolved while `stack` is, and a way inside the stack comes to it from an entry that it
leads back to. -/
def Gated (g : Graph) (settings : ResolverSettings) (roots stack : List Node) (n : Node) : Prop :=
  ∃ h, g.IsEntry settings roots h ∧ g.Reaches settings n h ∧
    g.ReachesOutside settings (Beside stack) h n

theorem Beside.anti {stack : List Node} {id : Int} (h : Beside (t :: stack) id) : Beside stack id :=
  fun m hm => h m (List.mem_cons_of_mem _ hm)

theorem Gated.push {stack : List Node} (h : g.Gated settings roots stack n) :
    g.Gated settings roots (t :: stack) n := by
  obtain ⟨e, he, hback, hway⟩ := h
  exact ⟨e, he, hback, hway.anti fun _ => Beside.anti⟩

theorem not_beside {stack : List Node} (h : n ∈ stack) : ¬Beside stack n.id := fun hout => hout n h rfl

theorem mem_of_not_beside (hg : g.Closed) {stack : List Node} (hstack : ∀ k ∈ stack, k ∈ g.nodes)
    (hn : n ∈ g.nodes) (h : ¬Beside stack n.id) : n ∈ stack := by
  simp only [Beside, not_forall, not_not] at h
  obtain ⟨m, hm, hid⟩ := h
  rwa [← hg.eq_of_id_eq (hstack m hm) hn hid]

/-- Resolving `t` hides no fault of an entry: what `t` was cut at is still being resolved, and the entry
through which that was come to leads to it beside `t`. -/
theorem not_clean_insert (hg : g.Closed) (honce : g.EnteredOnce settings roots d) (stack : List Node)
    (hstack : ∀ k ∈ stack, k ∈ g.nodes ∧ g.Gated settings roots stack k ∧ g.Reaches settings k t)
    (ht : t ∈ g.nodes) (hnt : t ∉ stack) (hnf : ¬g.Faulty settings t)
    (hbelow : ∀ c, g.Follows settings t c → avoid c.id ∨ c.id = t.id ∨ c ∈ stack)
    (hout : ∀ k ∈ stack, ¬avoid k.id) (hn : n ∈ g.nodes) (hd : g.Reaches settings d n)
    (he : g.IsEntry settings roots n) (h : ¬g.Clean settings avoid n) :
    ¬g.Clean settings (fun id => avoid id ∨ id = t.id) n := by
  intro hclean
  refine h fun m hm hfault => ?_
  have hid : ∀ {k}, k ∈ g.nodes → k.id = t.id → k = t := fun hk => hg.eq_of_id_eq hk ht
  have hbeside : ∀ id, (avoid id ∨ id = t.id) → Beside stack id := by
    rintro id (hin | rfl) k hk hkid
    · exact hout k hk (hkid ▸ hin)
    · exact hnt (hid (hstack k hk).1 hkid ▸ hk)
  -- from `t` the way to the fault goes on at a node of the stack, which an entry leads to
  have hleave : g.Reaches settings d t → g.ReachesOutside settings avoid t m →
      ∃ e, ¬g.IsEntry settings roots t ∧ g.Reaches settings d e ∧ g.IsEntry settings roots e ∧
        g.Joined settings t e ∧
        g.ReachesOutside settings (fun id => avoid id ∨ id = t.id) e m := by
    intro hdt hr
    have hgo : ∃ k ∈ stack, g.Follows settings t k ∧
        g.ReachesOutside settings (fun id => avoid id ∨ id = t.id) k m := by
      rcases hr.leave t with hr | hmt | ⟨c, ⟨b, hb, hbc, htb⟩, hr⟩
      · exact absurd (.inr rfl) hr.not_avoid
      · rw [hid (hr.reaches.mem_nodes ht) hmt] at hfault
        exact absurd hfault hnf
      · obtain rfl := hid (htb.mem_nodes ht) hb
        rcases hbelow c hbc with hc | hc | hc
        · exact absurd (.inl hc) hr.not_avoid
        · exact absurd (.inr hc) hr.not_avoid
        · exact ⟨c, hc, hbc, hr⟩
    obtain ⟨k, hk, htk, hkm⟩ := hgo
    obtain ⟨-, ⟨e, hentry, hke, hek⟩, hkt⟩ := hstack k hk
    have hte : g.Reaches settings t e := .head htk hke
    have hj : g.Joined settings t e := ⟨hte, hek.reaches.trans hkt⟩
    have hmem : e ∈ stack :=
      mem_of_not_beside hg (fun k hk => (hstack k hk).1) (hte.mem_nodes ht) hek.not_avoid
    have hno : ¬g.IsEntry settings roots t := fun h => hnt (honce t e hdt h hentry hj ▸ hmem)
    exact ⟨e, hno, hdt.trans hte, hentry, hj, (hek.anti hbeside).trans hkm⟩
  -- the way to the fault misses `t`, starts at it, or comes to it from some `b`
  rcases hm.arrive t with hr | hnid | ⟨b, hnb, c, hc, hbc, hcm⟩
  · exact hclean m hr hfault
  · obtain rfl := hid hn hnid
    obtain ⟨-, hno, -⟩ := hleave hd hm
    exact hno he
  · have hbc' := hbc
    obtain rfl := hid hbc.mem_nodes hc
    obtain ⟨e, hno, hde, hentry, hj, hem⟩ := hleave (hd.trans (hnb.reaches.tail hbc)) hcm
    have hback : g.Reaches settings c b :=
      (isEntry_or_reaches (he.rooted.of_reaches hnb.reaches) hbc).resolve_left hno
    -- `b` lies among the nodes around `t`, which `n` comes to at `e`
    have hbe : g.Joined settings b e := .trans ⟨.single hbc, hback⟩ hj
    have hne : g.ReachesOutside settings (fun id => avoid id ∨ id = c.id) n e := by
      rcases hnb.entry_or_joined honce he.rooted hentry hde hbe with h | h
      · exact h
      · obtain rfl := honce n e hd he hentry h
        exact .refl hnb.not_avoid
    exact hclean m (hne.trans hem) hfault

end Graph

/-! ### Walks that come in at entries -/

/-- A session that is about to follow the edges from the innermost node of the stack. -/
structure Approach (g : Graph) (settings : ResolverSettings) (roots : List Node) (levels : Nat)
    (stack : List Node) (es : List Edge) (s : Session) : Prop where
  stacked : s.Stacked g stack
  mem_nodes : ∀ e ∈ es, e.target ∈ g.nodes
  leads : g.Leads settings stack es
  room : g.nodes.length ≤ levels + stack.length
  gated : ∀ k ∈ stack, g.Gated settings roots stack k
  rooted : ∀ e ∈ es, g.Rooted settings roots e.target
  enters : ∀ e ∈ es, g.IsEntry settings roots e.target ∨
    ∃ k ∈ stack, g.Follows settings k e.target ∧ g.Reaches settings e.target k

namespace Approach

variable {g : Graph} {settings : ResolverSettings} {roots stack : List Node} {levels : Nat} {e : Edge}
  {es : List Edge} {s s' : Session}

theorem sub {es' : List Edge} (h : Approach g settings roots levels stack es s)
    (hsub : ∀ e ∈ es', e ∈ es) (hs' : s'.Stacked g stack) :
    Approach g settings roots levels stack es' s' :=
  ⟨hs', fun e he => h.mem_nodes e (hsub e he), fun k hk e he => h.leads k hk e (hsub e he), h.room,
    h.gated, fun e he => h.rooted e (hsub e he), fun e he => h.enters e (hsub e he)⟩

theorem top {n : Node} (hs : s.Stacked g []) (hn : n ∈ g.nodes) (he : g.IsEntry settings roots n)
    (hdepth : g.nodes.length ≤ levels) : Approach g settings roots levels [] [⟨none, n⟩] s :=
  ⟨hs, by simpa using hn, .nil, hdepth, by simp, by simpa using he.rooted, by simpa using he⟩

theorem tail (h : Approach g settings roots levels stack (e :: es) s) (hs' : s'.Stacked g stack) :
    Approach g settings roots levels stack es s' :=
  h.sub (fun _ => List.mem_cons_of_mem _) hs'

theorem single (h : Approach g settings roots levels stack (e :: es) s) :
    Approach g settings roots levels stack [e] s :=
  h.sub (by simp) h.stacked

theorem gated_target (h : Approach g settings roots levels stack (e :: es) s) :
    g.Gated settings roots (e.target :: stack) e.target := by
  have hself := Graph.not_beside (List.mem_cons_self .. : e.target ∈ e.target :: stack)
  rcases h.enters e (List.mem_cons_self ..) with he | ⟨k, hk, hf, hback⟩
  · exact ⟨e.target, he, .refl, .refl hself⟩
  · obtain ⟨c, hc, hkc, hck⟩ := (h.gated k hk).push
    exact ⟨c, hc, hback.trans hkc, hck.tail hf hself⟩

theorem push {p : Plan} (h : Approach g settings roots (levels + 1) stack (e :: es) s)
    (hm : s.mark? e.target.id = none) (hp : g.plan settings e.target = .ok p) :
    Approach g settings roots levels (e.target :: stack) p.edges (s.setMark e.target.id .resolving) := by
  have ht := h.mem_nodes e (List.mem_cons_self ..)
  have hroot := h.rooted e (List.mem_cons_self ..)
  have hroom := h.room
  refine ⟨h.stacked.push ht hm, Graph.mem_nodes_of_mem_edges hp, h.leads.push hp, ?_, ?_, ?_, ?_⟩
  · rw [List.length_cons]
    omega
  · exact List.forall_mem_cons.2 ⟨h.gated_target, fun k hk => (h.gated k hk).push⟩
  · exact fun e' he' => hroot.of_reaches (Graph.reaches_of_mem_edges hp e' he')
  · intro e' he'
    have hf := Graph.follows_of_mem_edges hp e' he'
    exact (Graph.isEntry_or_reaches hroot hf).imp_right fun hback =>
      ⟨e.target, List.mem_cons_self .., hf, hback⟩

end Approach

/-! ### Faults stay in sight -/

/-- No resolved node hides the faults of an entry below `d`. -/
def Session.Exposed (g : Graph) (settings : ResolverSettings) (roots : List Node) (d : Node)
    (s : Session) : Prop :=
  ∀ n, g.Reaches settings d n → g.IsEntry settings roots n → ¬g.Faultless settings n →
    ¬g.Clean settings s.IsResolved n

theorem Session.Exposed.anti {g : Graph} {settings : ResolverSettings} {roots : List Node} {d : Node}
    {s s' : Session} (h : s.Exposed g settings roots d) (hsub : ∀ id, s'.IsResolved id → s.IsResolved id) :
    s'.Exposed g settings roots d :=
  fun n hd he hf hc => h n hd he hf (hc.mono hsub)

namespace Walk

variable {g : Graph} {settings : ResolverSettings} {roots stack : List Node} {d : Node} {levels : Nat}
  {place : Place} {es : List Edge} {s s' : Session} {r : Except Failure (List Schema)}

theorem exposed (hg : g.Closed) (honce : g.EnteredOnce settings roots d) (hd : d ∈ g.nodes)
    (h : Walk g settings levels place es s r s') (ha : Approach g settings roots levels stack es s)
    (hs : s.Exposed g settings roots d) : s'.Exposed g settings roots d := by
  induction h generalizing stack with
  | nil | deep | fault => exact hs
  | cached _ _ ih | cut _ _ ih => exact ih (ha.tail (ha.stacked.congr fun _ => rfl)) hs
  | failed hm hp _ ih =>
    have hbelow := ih (ha.push hm hp) (hs.anti fun _ => .of_setMark_resolving)
    exact hbelow.anti fun _ => .of_unmark
  | @done levels place e es s plan schemas s₁ r s' hm hp hw _ ih₁ ih₂ =>
    have hpush := ha.push hm hp
    have hstacked := hw.stacked hpush.stacked
    have hexposed := ih₁ hpush (hs.anti fun _ => .of_setMark_resolving)
    have ht := ha.mem_nodes e (List.mem_cons_self ..)
    refine ih₂ (ha.tail (hstacked.finish _)) fun n hdn he hf => ?_
    -- the target is the one node that is resolved now and was not below it
    refine mt (Graph.Clean.mono fun id => Session.IsResolved.of_setMark) ?_
    refine Graph.not_clean_insert hg honce stack (fun k hk => ?_) ht (fun hmem => ?_)
      (Graph.not_faulty_iff.2 ⟨plan, hp⟩) (fun c hc => ?_) (fun k hk hres => ?_) (hdn.mem_nodes hd) hdn he
      (hexposed n hdn he hf)
    · exact ⟨ha.stacked.mem_nodes k hk, ha.gated k hk, (ha.leads k hk e (by simp)).to_reflTransGen⟩
    · cases hm.symm.trans (ha.stacked.mark?_of_mem hmem)
    · rw [Graph.Follows, ← Graph.targets_of_plan hp] at hc
      obtain ⟨e', he', rfl⟩ := List.mem_map.1 hc
      have hc := Graph.mem_nodes_of_mem_edges hp e' he'
      rcases Session.isMarked_iff.1 (hw.isMarked_target rfl e' he') with hr | hr
      · exact .inr ((List.mem_cons.1 (hstacked.mem_of_mark? hg hc hr)).imp_left (congrArg Node.id))
      · exact .inl hr
    · obtain ⟨schema, hres⟩ := hres
      cases hres.symm.trans (hstacked.mark?_of_mem (List.mem_cons_of_mem _ hk))

end Walk

end TypeSchema
