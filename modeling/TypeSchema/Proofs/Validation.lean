import TypeSchema.Proofs.Accepted
import TypeSchema.Proofs.Strict

/-!
# Validation

A graph whose fields are all right is accepted exactly if it is closed; else its first open end is
reported, `Graph.FirstOpenEnd`. That is also enough: every query of a closed graph is answered, by
the nodes that have the stored ids, `Graph.Answered`. Only the flag word of a member can stand in the way,
where it cannot be made. The names in a report are texts, without surrogates.
-/

namespace TypeSchema

namespace Graph

variable {g : Graph} {n : Node}

/-! ### The first open end -/

/-- The references of all these nodes are ids of the graph. -/
def RefersInside (g : Graph) (nodes : List Node) : Prop :=
  ∀ n ∈ nodes, ∀ id ∈ n.references, id ∈ g.ids

/-- What keeps a graph from being closed: the first repeated id, else the first node with unknown
references, all of them in their order, else the first declaration of an unknown type. -/
inductive FirstOpenEnd (g : Graph) : OpenEnd → Prop
  | duplicateId {before id after} : g.ids = before ++ id :: after → before.Nodup → id ∈ before →
    FirstOpenEnd g (.duplicateId id)
  | unknownNodes {before n after} : g.ids.Nodup → g.nodes = before ++ n :: after →
    g.RefersInside before → ¬g.RefersInside [n] →
    FirstOpenEnd g (.unknownNodes n.id (n.references.filter (· ∉ g.ids)))
  | unknownType {before d after} : g.ids.Nodup → g.RefersInside g.nodes →
    g.declarations = before ++ d :: after → (∀ d ∈ before, d.type ∈ g.ids) → d.type ∉ g.ids →
    FirstOpenEnd g (.unknownType d.name d.type)

/-- The scan stops at the first id that was seen before. -/
theorem duplicateId?_eq_some_iff {seen ids : List Int} {id : Int} :
    duplicateId? seen ids = some id ↔
      ∃ before after, ids = before ++ id :: after ∧ before.Nodup ∧ (∀ other ∈ before, other ∉ seen) ∧
        (id ∈ seen ∨ id ∈ before) := by
  induction ids generalizing seen with
  | nil => simp [duplicateId?]
  | cons first rest ih =>
    rw [duplicateId?]
    split
    · next hseen =>
      constructor
      · rintro ⟨⟩
        exact ⟨[], rest, rfl, .nil, by simp, .inl hseen⟩
      · rintro ⟨_ | ⟨_, before⟩, after, happend, -, hfresh, -⟩ <;> cases happend
        · rfl
        · exact absurd hseen (hfresh first (List.mem_cons_self ..))
    · next hseen =>
      rw [ih]
      constructor
      · rintro ⟨before, after, rfl, hnodup, hfresh, hid⟩
        refine ⟨first :: before, after, rfl, List.nodup_cons.2 ⟨fun hmem => ?_, hnodup⟩,
          List.forall_mem_cons.2 ⟨hseen, fun other hother hmem => ?_⟩, ?_⟩
        · exact hfresh first hmem (List.mem_cons_self ..)
        · exact hfresh other hother (List.mem_cons_of_mem _ hmem)
        · simp only [List.mem_cons] at hid ⊢
          tauto
      · rintro ⟨_ | ⟨_, before⟩, after, happend, hnodup, hfresh, hid⟩ <;> cases happend
        · exact absurd (hid.resolve_right List.not_mem_nil) hseen
        · obtain ⟨hfirst, hnodup⟩ := List.nodup_cons.1 hnodup
          refine ⟨before, after, rfl, hnodup, fun other hother hmem => ?_, ?_⟩
          · rcases List.mem_cons.1 hmem with rfl | hmem
            · exact hfirst hother
            · exact hfresh other (List.mem_cons_of_mem _ hother) hmem
          · simp only [List.mem_cons] at hid ⊢
            tauto

theorem duplicateId?_ids_eq_none_iff : duplicateId? [] g.ids = none ↔ g.ids.Nodup := by
  rw [duplicateId?_eq_none_iff]
  exact and_iff_left fun _ _ => List.not_mem_nil

theorem isEmpty_missing_iff : (n.references.filter (· ∉ g.ids)).isEmpty ↔ g.RefersInside [n] := by
  simp [RefersInside, List.isEmpty_iff, List.filter_eq_nil_iff]

theorem find?_missing_eq_none_iff {nodes : List Node} :
    (nodes.find? fun n => !(n.references.filter (· ∉ g.ids)).isEmpty) = none ↔ g.RefersInside nodes := by
  simp [RefersInside, List.find?_eq_none, List.filter_eq_nil_iff]

theorem find?_missing_eq_some_iff {nodes : List Node} :
    (nodes.find? fun n => !(n.references.filter (· ∉ g.ids)).isEmpty) = some n ↔
      ¬g.RefersInside [n] ∧ ∃ before after, nodes = before ++ n :: after ∧ g.RefersInside before := by
  rw [List.find?_eq_some_iff_append, Bool.not_eq_true', ← Bool.not_eq_true, isEmpty_missing_iff]
  refine and_congr_right fun _ => exists₂_congr fun before after => and_congr_right fun _ => ?_
  simp [RefersInside, List.isEmpty_iff, List.filter_eq_nil_iff]

theorem firstOpenEnd_of_openEnd? {e : OpenEnd} (h : g.openEnd? = some e) : g.FirstOpenEnd e := by
  rw [openEnd?] at h
  dsimp only at h
  split at h
  · next id hid =>
    cases h
    obtain ⟨before, after, happend, hnodup, -, hmem⟩ := duplicateId?_eq_some_iff.1 hid
    exact .duplicateId happend hnodup (hmem.resolve_left List.not_mem_nil)
  · next hids =>
    have hnodup := duplicateId?_ids_eq_none_iff.1 hids
    split at h
    · next n hn =>
      cases h
      obtain ⟨hmissing, before, after, happend, hbefore⟩ := find?_missing_eq_some_iff.1 hn
      exact .unknownNodes hnodup happend hbefore hmissing
    · next hnodes =>
      obtain ⟨d, hd, rfl⟩ := Option.map_eq_some_iff.1 h
      obtain ⟨htype, before, after, happend, hbefore⟩ := List.find?_eq_some_iff_append.1 hd
      exact .unknownType hnodup (find?_missing_eq_none_iff.1 hnodes) happend
        (fun d hd => by simpa using hbefore d hd) (by simpa using htype)

theorem openEnd?_of_firstOpenEnd {e : OpenEnd} (h : g.FirstOpenEnd e) : g.openEnd? = some e := by
  rw [openEnd?]
  dsimp only
  cases h with
  | duplicateId happend hnodup hmem =>
    rw [duplicateId?_eq_some_iff.2 ⟨_, _, happend, hnodup, fun _ _ => List.not_mem_nil, .inr hmem⟩]
  | unknownNodes hnodup happend hbefore hmissing =>
    rw [duplicateId?_ids_eq_none_iff.2 hnodup]
    dsimp only
    rw [find?_missing_eq_some_iff.2 ⟨hmissing, _, _, happend, hbefore⟩]
  | @unknownType before d after hnodup hnodes happend hbefore htype =>
    have hd : g.declarations.find? (·.type ∉ g.ids) = some d :=
      List.find?_eq_some_iff_append.2 ⟨by simpa using htype, before, after, happend, by simpa using hbefore⟩
    rw [duplicateId?_ids_eq_none_iff.2 hnodup]
    dsimp only
    rw [find?_missing_eq_none_iff.2 hnodes]
    dsimp only
    rw [hd]
    rfl

/-- The end that the scans find is the first one. -/
theorem openEnd?_eq_some_iff {e : OpenEnd} : g.openEnd? = some e ↔ g.FirstOpenEnd e :=
  ⟨firstOpenEnd_of_openEnd?, openEnd?_of_firstOpenEnd⟩

/-! ### Answers -/

/-- The node of the graph that has this id. -/
structure Finds (g : Graph) (id : Int) (n : Node) : Prop where
  mem : n ∈ g.nodes
  id_eq : n.id = id

/-- The property that a member stands for. -/
structure Resolves (g : Graph) (m : Member) (p : Property) : Prop where
  name : p.name = m.name
  type : g.Finds m.type p.type
  flags : p.flags = if m.optional then m.flags ||| SymbolFlag.optional else m.flags
  modifiers : p.modifiers = m.modifiers
  accessorType : Option.Rel g.Finds m.accessorType p.accessorType

structure Declares (g : Graph) (d : Declaration) (D : Subject) : Prop where
  name : D.name = d.name
  kind : D.kind = d.kind.text
  node : g.Finds d.type D.node

/-- Every query of the node is answered, by nodes of the graph in the order of the stored ids. The members are
asked for in vain only where the flag word of one cannot be made. -/
structure AnsweredAt (g : Graph) (n : Node) : Prop where
  constituents : ∃ ms, Strict.constituents g n = .ok ms ∧ List.Forall₂ g.Finds n.types ms
  typeArguments : ∃ ms, Strict.typeArguments g n = .ok ms ∧ List.Forall₂ g.Finds n.typeArguments ms
  targetObjectFlags : ∃ target?, Strict.targetObjectFlags g n = .ok (target?.getD n).objectFlags ∧
    Option.Rel g.Finds n.target target?
  members : (∀ m ∈ n.members, Strict.checkFlags m = .ok ()) →
    ∃ ps, Strict.properties g n = .ok ps ∧ List.Forall₂ g.Resolves n.members ps
  member : ∀ breach, Strict.properties g n = .error breach →
    ∃ m ∈ n.members, Strict.checkFlags m = .error breach
  stringIndexType : ∃ m?, Strict.stringIndexType? g n = .ok m? ∧ Option.Rel g.Finds n.stringIndex m?

structure Answered (g : Graph) : Prop where
  nodes : ∀ n ∈ g.nodes, g.AnsweredAt n
  declarations : ∃ Ds, Strict.subjects g = .ok Ds ∧ List.Forall₂ g.Declares g.declarations Ds

section Strict

open Strict

theorem finds_of_lookup {id : Int} (h : lookup g id = .ok n) : g.Finds id n := by
  unfold lookup at h
  split at h <;> cases h
  next hn => exact ⟨mem_nodes_of_node? hn, by simpa using List.find?_some hn⟩

theorem finds_of_lookup? {id? : Option Int} {n? : Option Node} (h : lookup? g id? = .ok n?) :
    Option.Rel g.Finds id? n? := by
  cases id? with
  | none => cases h; exact .none
  | some id =>
    obtain ⟨n, hn, rfl⟩ := map_eq_ok h
    exact .some (finds_of_lookup hn)

theorem finds_of_mapM_lookup {ids : List Int} {ns : List Node} (h : ids.mapM (lookup g) = .ok ns) :
    List.Forall₂ g.Finds ids ns :=
  (mapM_eq_ok_iff.1 h).imp fun _ _ => finds_of_lookup

theorem resolves_of_property {m : Member} {p : Property} (h : property g m = .ok p) : g.Resolves m p := by
  obtain ⟨⟨⟩, -, h⟩ := bind_eq_ok h
  obtain ⟨accessorType, haccessor, h⟩ := bind_eq_ok h
  obtain ⟨type, htype, h⟩ := bind_eq_ok h
  cases h
  exact ⟨rfl, finds_of_lookup htype, rfl, rfl, finds_of_lookup? haccessor⟩

theorem answeredAt (hg : g.Closed) (hn : n ∈ g.nodes) : g.AnsweredAt n where
  constituents := ⟨_, constituents_eq hg hn, finds_of_mapM_lookup (constituents_eq hg hn)⟩
  typeArguments := ⟨_, typeArguments_eq hg hn, finds_of_mapM_lookup (typeArguments_eq hg hn)⟩
  targetObjectFlags := by
    obtain ⟨target?, htarget, h⟩ := bind_eq_ok (targetObjectFlags_eq hg hn)
    exact ⟨target?, by rw [Strict.targetObjectFlags, htarget]; rfl, finds_of_lookup? htarget⟩
  members hflags := by
    have hproperties := properties_eq hg hn
    rw [checkMembers, forM_eq_ok_iff.2 hflags] at hproperties
    exact ⟨_, hproperties, (mapM_eq_ok_iff.1 hproperties).imp fun _ _ => resolves_of_property⟩
  member breach h := by
    rw [properties_eq hg hn] at h
    rcases hcheck : checkMembers n with breach' | ⟨⟩
    · rw [hcheck] at h
      cases h
      exact exists_of_forM_eq_error hcheck
    · rw [hcheck] at h
      cases h
  stringIndexType := ⟨_, stringIndexType?_eq hg hn, finds_of_lookup? (stringIndexType?_eq hg hn)⟩

theorem Closed.answered (hg : g.Closed) : g.Answered where
  nodes _ hn := answeredAt hg hn
  declarations := by
    refine ⟨_, subjects_eq hg, (mapM_eq_ok_iff.1 (subjects_eq hg)).imp fun d D hD => ?_⟩
    obtain ⟨node, hnode, rfl⟩ := map_eq_ok hD
    exact ⟨rfl, rfl, finds_of_lookup hnode⟩

end Strict

/-! ### Validation -/

theorem OpenEnd.report_eq_message {e : OpenEnd} (h : ∀ i ∈ e.integers, ¬Text.isLong i) :
    e.report = e.message := by
  rw [report, if_neg]
  simpa using h

theorem read_of_fields {entries : List (Scalar × Value)} (h : Reading.document readFields entries = .ok g) :
    Graph.read entries = g.checkClosed := by
  unfold Reading.document at h
  dsimp only at h
  split at h
  · next hnamed => rw [Graph.read, Reading.document, if_pos hnamed, h, Reading.check]
  · cases h

/-- Validation is exact: a graph whose fields are all right is accepted if and only if it is closed, and
otherwise its first open end is reported, in words unless one of its integers cannot be written. It is
sufficient too: a closed graph answers every query, but that for members whose flag words cannot be made. -/
theorem read_exact {entries : List (Scalar × Value)} (h : Reading.document readFields entries = .ok g) :
    (Graph.read entries = .ok g ↔ g.Closed) ∧
      (¬g.Closed → ∃ e, (∀ e', g.FirstOpenEnd e' ↔ e' = e) ∧
        Graph.read entries = .issues [⟨.rule e.report, []⟩] ∧
        ((∀ i ∈ e.integers, ¬Text.isLong i) → e.report = e.message)) ∧
      (g.Closed → g.Answered) := by
  refine ⟨⟨closed_of_read, fun hg => ?_⟩, fun hg => ?_, Closed.answered⟩
  · rw [read_of_fields h, hg.checkClosed_eq]
  · obtain ⟨e, he⟩ := Option.ne_none_iff_exists'.1 (mt openEnd?_eq_none_iff.1 hg)
    refine ⟨e, fun e' => ?_, ?_, OpenEnd.report_eq_message⟩
    · rw [← openEnd?_eq_some_iff, he, Option.some_inj, eq_comm]
    · rw [read_of_fields h, checkClosed, he]
      rfl

/-- A node that refers to itself and to two nodes that are not there. -/
def astray : Graph where
  nodes := [{
    id := 1, flags := TypeFlag.object, objectFlags := 0, symbol := none, value := none
    intrinsicName := none, types := [1], typeArguments := [], target := none
    members := [⟨"child", 3, false, SymbolFlag.property, [], some 2⟩], stringIndex := none, display := none }]
  declarations := []

def astrayEntries : List (Scalar × Value) :=
  [(.text "nodes", .list [.fields [("id", .int 1), ("flags", .text "Object"), ("types", .ints [1]),
    ("members", .list [.fields [("name", .text "child"), ("type", .int 3), ("accessor_type", .int 2)]])]])]

theorem read_astray :
    Reading.document readFields astrayEntries = .ok astray ∧
      Graph.read astrayEntries = .issues [⟨.rule "node 1 references unknown nodes [3, 2]", []⟩] := by
  have hfields : Reading.document readFields astrayEntries = .ok astray := by rfl
  have hopen : astray.openEnd? = some (.unknownNodes 1 [3, 2]) := by decide
  have hclosed : ¬astray.Closed := fun hg => by
    rw [openEnd?_eq_none_iff.2 hg] at hopen
    cases hopen
  obtain ⟨e, hfirst, hread, hreport⟩ := (read_exact hfields).2.1 hclosed
  obtain rfl := (hfirst _).1 (openEnd?_eq_some_iff.1 hopen)
  have hmessage : (OpenEnd.unknownNodes 1 [3, 2]).message = "node 1 references unknown nodes [3, 2]" := by
    decide +kernel
  rw [hread, hreport (by decide +kernel), hmessage]
  exact ⟨hfields, rfl⟩

/-- Two nodes of one id. -/
def twins (id : Int) : Graph where
  nodes :=
    let n : Node := {
      id, flags := 0, objectFlags := 0, symbol := none, value := none, intrinsicName := none, types := []
      typeArguments := [], target := none, members := [], stringIndex := none, display := none }
    [n, n]
  declarations := []

def twinsEntries (id : Int) : List (Scalar × Value) :=
  let n : Value := .fields [("id", .int id), ("flags", .int 0)]
  [(.text "nodes", .list [n, n])]

theorem longInteger_ne_message (id : Int) : Text.longInteger ≠ (OpenEnd.duplicateId id).message := by
  have hlong : Text.longInteger.toList.head? = some 'E' := by decide +kernel
  have hstart : "duplicate node id ".toList.head? = some 'd' := by rfl
  have hmessage : (OpenEnd.duplicateId id).message = "duplicate node id " ++ toString id := rfl
  intro h
  rw [h, hmessage, String.toList_append, List.head?_append, hstart, Option.some_or] at hlong
  exact absurd hlong (by decide)

/-- The least id that has one digit too many. -/
def longId : Int := Nat.pow 10 Text.maxDigits

/-- What is reported of twins does not name their id if it is that long. -/
theorem read_twins :
    Reading.document readFields (twinsEntries longId) = .ok (twins longId) ∧
      (twins longId).FirstOpenEnd (.duplicateId longId) ∧
      Graph.read (twinsEntries longId) = .issues [⟨.rule Text.longInteger, []⟩] ∧
      Text.longInteger ≠ (OpenEnd.duplicateId longId).message := by
  have hfields : ∀ id, Reading.document readFields (twinsEntries id) = .ok (twins id) := fun _ => by rfl
  have hopen : ∀ id, (twins id).FirstOpenEnd (.duplicateId id) := fun id =>
    @FirstOpenEnd.duplicateId _ [id] id [] rfl (List.nodup_singleton _) (List.mem_singleton_self _)
  have hread : ∀ id, Text.isLong id →
      Graph.read (twinsEntries id) = .issues [⟨.rule Text.longInteger, []⟩] := by
    intro id hlong
    rw [read_of_fields (hfields id), checkClosed, openEnd?_of_firstOpenEnd (hopen id)]
    dsimp only
    rw [OpenEnd.report, if_pos (by simp [OpenEnd.integers, hlong])]
    rfl
  exact ⟨hfields _, hopen _, hread _ (by decide +kernel), longInteger_ne_message _⟩

end Graph

end TypeSchema
