import TypeSchema.Proofs.Counterparts
import TypeSchema.Proofs.Isolation

/-!
# Other ids, another order of nodes

Ids only tell nodes apart. A graph whose nodes have other ids, stand in another order and among
others that none of them refers to is a copy of the graph, and unless a node is shown by its id a pass
over it is the same pass: `Strict.convert_renamed`.
-/

namespace TypeSchema

def Node.rename (ρ : Int → Int) (n : Node) : Node :=
  { n with
    id := ρ n.id
    types := n.types.map ρ
    typeArguments := n.typeArguments.map ρ
    target := n.target.map ρ
    members := n.members.map (Member.rename ρ)
    stringIndex := n.stringIndex.map ρ }

def Declaration.rename (ρ : Int → Int) (d : Declaration) : Declaration := { d with type := ρ d.type }

/-- The nodes of `g` stand in `g'` under other ids, in any order and among any others, and the
declarations are those of `g`. -/
structure Graph.Renamed (ρ : Int → Int) (g g' : Graph) : Prop where
  injective : ∀ id ∈ g.ids, ∀ id' ∈ g.ids, ρ id = ρ id' → id = id'
  nodes : ∃ others, g'.nodes.Perm (g.nodes.map (Node.rename ρ) ++ others)
  declarations : g'.declarations = g.declarations.map (Declaration.rename ρ)

variable {ρ : Int → Int} {g g' : Graph} {settings : ResolverSettings} {n : Node}

/-! ### Nodes under other ids -/

theorem all_isEmpty_of_filter {s? : Option String} (h : s?.filter (· ≠ "") = none) :
    s?.all (·.isEmpty) = true := by
  cases s? with
  | none => rfl
  | some s => simpa using h

/-- A node that is not shown by its id is shown as it was. -/
theorem Node.displayText_rename (h : Strict.isShownById n = false) (ρ : Int → Int) :
    (n.rename ρ).displayText = n.displayText := by
  unfold displayText
  dsimp only [rename]
  rcases hdisplay : n.display.filter (· ≠ "") with _ | s
  · rcases hname : n.intrinsicName.filter (· ≠ "") with _ | s
    · rcases hsymbol : n.symbol with _ | symbol
      · rcases hnames : FlagClass.type.namesOf n.flags with _ | ⟨name, names⟩
        · rw [Strict.isShownById, all_isEmpty_of_filter hdisplay, all_isEmpty_of_filter hname, hsymbol, hnames] at h
          cases h
        · rfl
      · rfl
    · rfl
  · rfl

theorem Strict.checkText_rename (h : isShownById n = false) (ρ : Int → Int) :
    checkText (n.rename ρ) = checkText n := by
  have hrenamed : isShownById (n.rename ρ) = false := h
  rw [checkText, checkText, hrenamed, h, if_neg Bool.false_ne_true, if_neg Bool.false_ne_true]

/-- A flag word is made of the flags of a member alone. -/
theorem Strict.checkMembers_rename (n : Node) (ρ : Int → Int) : checkMembers (n.rename ρ) = checkMembers n := by
  show forM (n.members.map (Member.rename ρ)) checkFlags = forM n.members checkFlags
  induction n.members with
  | nil => rfl
  | cons m rest ih =>
    rw [List.map_cons, List.forM_cons, List.forM_cons, ih]
    rfl

namespace Graph

theorem Renamed.mem_nodes (h : Renamed ρ g g') (hn : n ∈ g.nodes) : n.rename ρ ∈ g'.nodes := by
  obtain ⟨others, hperm⟩ := h.nodes
  exact hperm.mem_iff.2 (List.mem_append_left _ (List.mem_map_of_mem hn))

theorem Renamed.copies (h : Renamed ρ g g') (hg' : g'.Closed) : g.Copies ρ g' (Node.rename ρ) where
  node? id hid := by
    obtain ⟨n, hnode⟩ := exists_node?_of_mem_ids hid
    obtain rfl : n.id = id := by simpa using List.find?_some hnode
    rw [hnode]
    exact hg'.node?_eq (h.mem_nodes (mem_nodes_of_node? hnode))
  resembles _ := ⟨rfl, rfl, rfl, rfl, rfl, rfl⟩
  types _ := rfl
  typeArguments _ := rfl
  target _ := rfl
  stringIndex _ := rfl

theorem isIndexable_rename (n : Node) (ρ : Int → Int) : (n.rename ρ).isIndexable = n.isIndexable := by
  show (n.isObject && (n.stringIndex.map ρ).isSome && (n.members.map (Member.rename ρ)).isEmpty) = _
  rw [Option.isSome_map, List.isEmpty_map]
  rfl

theorem Renamed.shape?_eq (h : Renamed ρ g g') (hg : g.Closed) (hg' : g'.Closed) (hn : n ∈ g.nodes)
    (hshown : Strict.isShownById n = false) : g'.shape? (n.rename ρ) = g.shape? n := by
  rw [shape?, (h.copies hg').isTuple_eq hg hn, Node.displayText_rename hshown, isIndexable_rename]
  rfl

theorem Renamed.counterparts (h : Renamed ρ g g') (hg : g.Closed) (hg' : g'.Closed)
    (hshown : ∀ n ∈ g.nodes, Strict.isShownById n = false) (settings : ResolverSettings) :
    g.Counterparts ρ g' settings (Node.rename ρ) where
  toCopies := h.copies hg'
  closed := hg'
  text n hn := Node.displayText_rename (hshown n hn) ρ
  checkText n hn := Strict.checkText_rename (hshown n hn) ρ
  checkMembers n _ := Strict.checkMembers_rename n ρ
  slots _ hn := (h.copies hg').slots_eq hg hn rfl (List.Subset.refl _) rfl
  shape? n hn := .inl (h.shape?_eq hg hg' hn (hshown n hn))

theorem Renamed.subjects_eq (h : Renamed ρ g g') (hg : g.Closed) (hg' : g'.Closed) :
    g'.subjects = g.subjects.map (Subject.mapNode (Node.rename ρ)) := by
  rw [subjects, h.declarations, List.filterMap_map, subjects, List.map_filterMap]
  refine List.filterMap_congr fun d hd => ?_
  show (g'.node? (ρ d.type)).map _ = ((g.node? d.type).map _).map _
  rw [(h.copies hg').node? _ (hg.declarations d hd), Option.map_map, Option.map_map]
  rfl

end Graph

/-! ### Passes under other ids -/

/-- The same plan over other nodes makes the same of the same schemas. -/
theorem Plan.assemble_mapNodes (f : Node → Node) (p : Plan) (schemas : List Schema) :
    (p.mapNodes f).assemble schemas = p.assemble schemas := by
  have hentries : ∀ slots : List Slot, slotEntries (slots.map (Slot.mapNode f)) schemas = slotEntries slots schemas := by
    intro slots
    rw [slotEntries, List.zipWith_map_left]
    rfl
  cases p with
  | leaf | forward | anyOf | allOf | array | tuple | indexable => rfl
  | object slots index => rw [mapNodes, assemble, assemble, hentries, List.length_map]
  | merged slots indexes => rw [mapNodes, assemble, assemble, hentries, List.length_map]

namespace Strict

section Renamed

variable (h : Graph.Renamed ρ g g') (hg : g.Closed) (hg' : g'.Closed)
  (hshown : ∀ n ∈ g.nodes, isShownById n = false)
include h hg hg' hshown

theorem plan_rename (hn : n ∈ g.nodes) (settings : ResolverSettings) :
    plan g' settings (n.rename ρ) = (plan g settings n).map (Plan.mapNodes (Node.rename ρ)) := by
  have hcounterparts := h.counterparts hg hg' hshown settings
  refine (plan_counterpart hcounterparts hg hn).resolve_right fun ⟨hs, hs'⟩ => ?_
  have hshape := h.shape?_eq hg hg' hn (hshown n hn)
  rw [(shape?_of_shapeOf hg hn hs).2, (shape?_of_shapeOf hg' (h.mem_nodes hn) hs').2] at hshape
  cases hshape

theorem mirrors_rename (settings : ResolverSettings) :
    Mirrors (· = ·) ρ g g' settings (Node.rename ρ) where
  refl _ := rfl
  injective := h.injective
  id _ _ := rfl
  text n hn := Node.displayText_rename (hshown n hn) ρ
  checkText n hn := checkText_rename (hshown n hn) ρ
  plan n hn := by
    rw [plan_rename h hg hg' hshown hn]
    cases plan g settings n with
    | error obstacle => exact .error obstacle
    | ok p =>
      refine .ok ⟨Plan.edges_mapNodes _ p, fun _ hschemas => ?_⟩
      rw [List.forall₂_eq_eq_eq] at hschemas
      rw [hschemas, Plan.assemble_mapNodes]

omit h hg hg' hshown in
theorem eq_of_alike {o o' : Outcome} (ho : o.Alike (· = ·) o') : o = o' := by
  obtain ⟨name, kind, result⟩ := o
  obtain ⟨name', kind', result'⟩ := o'
  obtain ⟨hname, hkind, hresult⟩ := ho
  obtain rfl : name' = name := hname
  obtain rfl : kind' = kind := hkind
  change SameEnd (· = ·) result result' at hresult
  cases hresult with
  | ok hs => rw [hs]
  | error failure => rfl

/-- A pass over the same declarations ends the same. -/
theorem pass_rename (settings : ResolverSettings) {subjects : List Subject}
    (hnodes : ∀ D ∈ subjects, D.node ∈ g.nodes) :
    pass g' settings (subjects.map (Subject.mapNode (Node.rename ρ))) = pass g settings subjects := by
  have hpass := mirrored_pass (mirrors_rename h hg hg' hshown settings) hg hnodes
  generalize pass g settings subjects = x at hpass ⊢
  generalize pass g' settings (subjects.map (Subject.mapNode (Node.rename ρ))) = x' at hpass ⊢
  cases hpass with
  | error breach => rfl
  | @ok x x' hx =>
    obtain ⟨houtcomes, hlog⟩ := hx
    have hsame : x.1 = x'.1 := List.forall₂_eq_eq_eq ▸ houtcomes.imp fun _ _ => eq_of_alike
    exact congrArg Except.ok (Prod.ext hsame.symm hlog)

/-- The ids of nodes, their order and nodes that nothing refers to carry no meaning: if no node is shown by
its id, a pass over any declarations returns the same outcomes with the same log, or breaks in the same
way, and so does the pass over all declarations of the graph. -/
theorem convert_renamed (settings : ResolverSettings) :
    (∀ subjects : List Subject, (∀ D ∈ subjects, D.node ∈ g.nodes) →
        pass g' settings (subjects.map (Subject.mapNode (Node.rename ρ))) = pass g settings subjects) ∧
      convert g' settings = convert g settings := by
  have hpass : ∀ subjects : List Subject, (∀ D ∈ subjects, D.node ∈ g.nodes) → _ :=
    fun subjects => pass_rename h hg hg' hshown settings
  refine ⟨hpass, ?_⟩
  rw [convert, convert, subjects_eq hg', subjects_eq hg, h.subjects_eq hg hg']
  exact hpass g.subjects fun _ => Graph.node_mem_nodes

end Renamed

end Strict

/-! ### A family among relatives -/

/-- The family under other ids and in another order, with an aunt who knows the parent. -/
def Graph.relatives : Graph where
  nodes := [
    .plain 20 TypeFlag.bigInt "bigint" [],
    .plain 7 TypeFlag.object "Aunt" [.plain "sibling" 40],
    .plain 30 TypeFlag.object "Child" [.plain "parent" 40],
    .plain 40 TypeFlag.object "Parent" [.plain "child" 30, .plain "serial" 20]]
  declarations := [⟨"Parent", .interface, 40⟩, ⟨"Child", .interface, 30⟩]

theorem Graph.renamed_family : family.Renamed (50 - 10 * ·) relatives where
  injective id _ id' _ h := by omega
  nodes := ⟨[.plain 7 TypeFlag.object "Aunt" [.plain "sibling" 40]], by decide⟩
  declarations := by decide

/-- The parent fails and the child passes, with the cut in its place in the log, under these ids too. -/
theorem Strict.convert_renamed_family :
    Graph.family.Closed ∧ Graph.relatives.Closed ∧ Graph.family.Renamed (50 - 10 * ·) .relatives ∧
      (∀ n ∈ Graph.family.nodes, isShownById n = false) ∧
      convert .relatives {} = convert .family {} ∧ (convert .family {}).isOk := by
  have hrelatives : Graph.relatives.Closed := ⟨by decide, by decide, by decide⟩
  have hshown : ∀ n ∈ Graph.family.nodes, isShownById n = false := by decide
  exact ⟨Graph.closed_family, hrelatives, Graph.renamed_family, hshown,
    (convert_renamed Graph.renamed_family Graph.closed_family hrelatives hshown {}).2, by decide +kernel⟩

end TypeSchema
