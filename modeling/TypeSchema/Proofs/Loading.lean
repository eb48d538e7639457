import TypeSchema.Proofs.Halts
import TypeSchema.Proofs.Paths
import TypeSchema.Proofs.Saved

/-!
# Loading documents

A file whose text denotes a value is settled when it is loaded: it is a valid graph or it is refused as a
document. It is not settled exactly if the reading of the value halts, `Graph.settled_load_iff`. Checks go on
behind documents that are refused, and other commands refuse them as bad arguments.

Nothing is claimed of texts that are not read, `LoadFault.isUnread`: those that are malformed, and those whose
value is foreign, such as texts with surrogates, bytes, sets or a collection that contains itself.
-/

namespace TypeSchema

/-- The file holds a text that denotes the value. -/
def Store.Denotes (s : Store) (p : Path) (value : Value) : Prop :=
  ∃ text, Document.readFile s p = .ok text ∧ Document.parse p text = .ok value

namespace Graph

variable {s : Store} {p : Path} {value : Value} {cause : Halt}

/-- What loading is to come to: a valid graph, or a document that is refused. -/
inductive Settled : Except LoadFault Graph → Prop
  | valid {g : Graph} : g.Valid → Settled (.ok g)
  | refused {fault : LoadFault} : fault.isOfDocument → Settled (.error fault)

/-- The value is a document whose reading halts. -/
def HaltsOn (value : Value) (cause : Halt) : Prop := ∃ entries, value = .map entries ∧ Halts entries cause

theorem ofValue_eq_halted_iff : ofValue p value = .error (.halted cause) ↔ HaltsOn value cause := by
  unfold ofValue Document.accept HaltsOn
  split
  · next entries =>
    simp only [Value.map.injEq, exists_eq_left', ← read_eq_halt_iff]
    split
    · next hread => simp [hread]
    · next hread => simp [hread]
    · next hread => simp [hread]
  · next hmap =>
    refine iff_of_false nofun ?_
    rintro ⟨entries, rfl, -⟩
    exact hmap entries rfl

theorem settled_or_halted (p : Path) (value : Value) :
    Settled (ofValue p value) ∨ ∃ cause, ofValue p value = .error (.halted cause) := by
  unfold ofValue Document.accept
  split
  · split
    · next hread => exact .inl (.valid (valid_of_read hread))
    · exact .inl (.refused rfl)
    · exact .inr ⟨_, rfl⟩
  · exact .inl (.refused rfl)

theorem load_of_denotes (h : s.Denotes p value) : load s p = ofValue p value := by
  obtain ⟨text, hread, hparse⟩ := h
  rw [load, hread, ok_bind, hparse, ok_bind]

theorem load_eq_halted_iff (h : s.Denotes p value) :
    load s p = .error (.halted cause) ↔ HaltsOn value cause := by
  rw [load_of_denotes h, ofValue_eq_halted_iff]

theorem settled_load_iff (h : s.Denotes p value) : Settled (load s p) ↔ ∀ cause, ¬HaltsOn value cause := by
  constructor
  · intro hsettled cause hhalts
    rw [(load_eq_halted_iff h).2 hhalts] at hsettled
    rcases hsettled with _ | ⟨⟨⟩⟩
  · intro hhalts
    rw [load_of_denotes h]
    refine (settled_or_halted p value).resolve_right ?_
    rintro ⟨cause, hcause⟩
    exact hhalts cause (ofValue_eq_halted_iff.1 hcause)

/-- A text that denotes no value is not refused as a document: its own fault comes out. -/
theorem load_of_parse_error {text : String} {fault : LoadFault} (hread : Document.readFile s p = .ok text)
    (hparse : Document.parse p text = .error fault) : load s p = .error fault ∧ ¬fault.isOfDocument := by
  constructor
  · rw [load, hread, ok_bind, hparse, error_bind]
  · unfold Document.parse at hparse
    split at hparse
    · cases hyaml : Yaml.parse text <;> rw [hyaml] at hparse <;> cases hparse
      exact Bool.false_ne_true
    · cases hjson : Json.parse text <;> rw [hjson] at hparse <;> cases hparse
      exact Bool.false_ne_true

theorem exists_of_settled (h : Settled (load s p)) : s.exists? p = .ok true := by
  rw [load, Document.readFile, Store.read] at h
  unfold Store.exists?
  cases hplace : s.locate p with
  | error fault =>
    rw [hplace] at h
    cases h with
    | refused hfault => cases hfault
  | ok place =>
    rw [hplace, ok_bind] at h
    cases hfile : Table.get? place s.files with
    | some text => simp [Store.isFile, hfile]
    | none =>
      rw [hfile] at h
      cases h with
      | refused hfault => split at hfault <;> cases hfault

end Graph

open TypeSchema.Graph (Settled HaltsOn)

namespace Command

variable {s : Store} {graph : String} {graphs : List String} {report report' : Report} {g : Graph}
  {fault : LoadFault}

/-! ### Checking documents -/

/-- What loading the document comes to. -/
def loaded (s : Store) (graph : String) : Except LoadFault Graph := Graph.load s (Path.ofText graph)

def isRefused : Except LoadFault Graph → Bool
  | .ok _ => false
  | .error fault => fault.isOfDocument

/-- What is told of a document that is accepted. -/
def acceptance (graph : String) : Except LoadFault Graph → String
  | .ok g => validLine graph g
  | .error _ => ""

/-- What is told of a document that is refused. -/
def refusal (graph : String) : Except LoadFault Graph → List String
  | .ok _ => []
  | .error fault => refusalLines graph fault

/-- All the documents were checked and told of, and the exit code is one if any of them is refused. -/
structure Checked (graphs : List String) (report report' : Report) : Prop where
  store : report'.store = report.store
  out : report'.out = report.out ++ String.join (graphs.map fun graph => acceptance graph (loaded report.store graph))
  err : report'.err = report.err ++ graphs.flatMap fun graph => refusal graph (loaded report.store graph)
  exit : report'.exit = if graphs.any fun graph => isRefused (loaded report.store graph) then 1 else report.exit

theorem Checked.nil (report : Report) : Checked [] report report := by
  refine ⟨rfl, ?_, ?_, rfl⟩ <;> simp [String.join]

theorem Checked.cons {report'' : Report} (h : Checked [graph] report report') (h' : Checked graphs report' report'') :
    Checked (graph :: graphs) report report'' where
  store := by rw [h'.store, h.store]
  out := by
    rw [h'.out, h.out, h.store]
    simp [String.append_assoc]
  err := by
    rw [h'.err, h.err, h.store]
    simp
  exit := by
    rw [h'.exit, h.exit, h.store, List.any_cons, List.any_cons, List.any_nil, Bool.or_false]
    cases isRefused (loaded report.store graph) <;>
      cases graphs.any fun graph => isRefused (loaded report.store graph) <;> rfl

theorem checkGraph_settled (h : Settled (loaded report.store graph)) :
    ∃ report', checkGraph report graph = .ok report' ∧ Checked [graph] report report' := by
  unfold checkGraph
  cases hload : loaded report.store graph with
  | ok g =>
    rw [show Graph.load report.store (Path.ofText graph) = .ok g from hload]
    refine ⟨_, rfl, rfl, ?_, ?_, ?_⟩ <;> simp [hload, acceptance, refusal, isRefused]
  | error fault =>
    have hfault : fault.isOfDocument := by
      rw [hload] at h
      cases h with
      | refused hfault => exact hfault
    rw [show Graph.load report.store (Path.ofText graph) = .error fault from hload]
    refine ⟨_, if_pos hfault, rfl, ?_, ?_, ?_⟩ <;> simp [hload, acceptance, refusal, isRefused, hfault]

/-- A fault that is no refusal ends the checks. -/
theorem checkGraph_fault (h : loaded report.store graph = .error fault) (hfault : ¬fault.isOfDocument) :
    checkGraph report graph = .error (.load fault) := by
  unfold checkGraph
  rw [show Graph.load report.store (Path.ofText graph) = .error fault from h]
  exact if_neg hfault

/-- A document that is settled does not stop the checks of those behind it. -/
theorem runValidate_settled (h : ∀ graph ∈ graphs, Settled (loaded report.store graph)) :
    ∃ report', runValidate graphs report = .ok report' ∧ Checked graphs report report' := by
  induction graphs generalizing report with
  | nil => exact ⟨report, rfl, .nil report⟩
  | cons graph rest ih =>
    obtain ⟨hgraph, hrest⟩ := List.forall_mem_cons.1 h
    obtain ⟨between, hbetween, hchecked⟩ := checkGraph_settled hgraph
    obtain ⟨report', hreport', hchecked'⟩ := @ih between (by rwa [hchecked.store])
    refine ⟨report', ?_, hchecked.cons hchecked'⟩
    rw [runValidate, List.foldlM_cons, hbetween]
    exact hreport'

/-- A document that is not settled ends the checks. -/
theorem runValidate_fault {before after : List String} (h : ∀ graph ∈ before, Settled (loaded report.store graph))
    (hload : loaded report.store graph = .error fault) (hfault : ¬fault.isOfDocument) :
    runValidate (before ++ graph :: after) report = .error (.load fault) := by
  obtain ⟨between, hbetween, hchecked⟩ := runValidate_settled h
  unfold runValidate at hbetween ⊢
  rw [← hchecked.store] at hload
  rw [List.foldlM_append, hbetween, ok_bind, List.foldlM_cons, checkGraph_fault hload hfault, error_bind]

theorem checkInputs_settled (h : ∀ graph ∈ graphs, Settled (loaded s graph)) : checkInputs s graphs = .ok () := by
  induction graphs with
  | nil => rfl
  | cons graph rest ih =>
    obtain ⟨hgraph, hrest⟩ := List.forall_mem_cons.1 h
    unfold checkInputs
    rw [Graph.exists_of_settled hgraph]
    exact ih hrest

theorem run_validate (h : checkInputs s graphs = .ok ()) :
    run s (.validate graphs) = runValidate graphs { store := s } := by
  unfold run
  dsimp only [inputs]
  rw [h, ok_bind]

/-! ### Working on a document -/

/-- The document that the command works on. -/
def graph? : Command → Option String
  | .convert graph .. | .classify graph | .inspect graph .. => some graph
  | .version | .exportFormat .. | .validate _ => none

/-- Nothing is wrong with the settings of the command. -/
def Configured (s : Store) : Command → Prop
  | .convert _ _ settings bundle _ => ∃ read, loadSettings s settings >>= (overrideBundle · bundle) = .ok read
  | .inspect _ _ settings => ∃ read, loadSettings s settings = .ok read
  | .version | .classify _ | .exportFormat .. | .validate _ => True

theorem loadGraph_fault (h : loaded s graph = .error fault) : loadGraph s graph = .error (.ofLoad fault) := by
  unfold loadGraph
  rw [show Graph.load s (Path.ofText graph) = .error fault from h]

/-- The path is shown as it is read, so that it leads to the same file. -/
theorem runConvert_fault (h : loaded s graph = .error fault) (out : String) (settings : Settings) :
    runConvert s graph out settings = .error (.ofLoad fault) := by
  have hconvert : convertFile (Path.ofText graph).text (Path.ofText out) settings s = .error (.load fault) := by
    unfold convertFile
    rw [Path.ofText_text, show Graph.load s (Path.ofText graph) = .error fault from h]
  unfold runConvert
  dsimp only
  rw [hconvert]
  rfl

theorem run_fault {c : Command} (hgraph : c.graph? = some graph) (hinputs : checkInputs s c.inputs = .ok ())
    (hconfigured : c.Configured s) (h : loaded s graph = .error fault) : run s c = .error (.ofLoad fault) := by
  cases c with
  | convert graph out settings bundle verbose =>
    cases hgraph
    obtain ⟨read, hread⟩ := hconfigured
    obtain ⟨settings', hsettings, hbundle⟩ := bind_eq_ok hread
    unfold run
    rw [hinputs, ok_bind]
    dsimp only
    rw [hsettings, ok_bind, hbundle, ok_bind, runConvert_fault h]
  | classify graph =>
    cases hgraph
    unfold run runClassify
    rw [hinputs, ok_bind]
    dsimp only
    rw [loadGraph_fault h, error_bind]
  | inspect graph name settings =>
    cases hgraph
    obtain ⟨read, hread⟩ := hconfigured
    unfold run runInspect
    rw [hinputs, ok_bind]
    dsimp only
    rw [hread, ok_bind, loadGraph_fault h, error_bind]
  | version | exportFormat | validate => cases hgraph

/-- Of all documents that denote values, those whose reading halts are not settled and come out as their
halt. If the text is well formed and a scalar of it has no value, that fault comes out. A document that is
settled is told of and does not stop the checks, which a halt, a fault of a scalar or a fault of the file ends;
every other command ends with what loading its document ended with. -/
theorem settled_unless_halted (s : Store) :
    (∀ p value, s.Denotes p value →
      (Settled (Graph.load s p) ↔ ∀ cause, ¬HaltsOn value cause) ∧
        ∀ cause, Graph.load s p = .error (.halted cause) ↔ HaltsOn value cause) ∧
    (∀ p text fault, Document.readFile s p = .ok text → Document.parse p text = .error fault →
      ¬fault.isUnread → Graph.load s p = .error fault ∧ ¬fault.isOfDocument) ∧
    (∀ graphs, (∀ graph ∈ graphs, Settled (loaded s graph)) →
      ∃ report, run s (.validate graphs) = .ok report ∧ Checked graphs { store := s } report) ∧
    (∀ before graph after fault, (∀ other ∈ before, Settled (loaded s other)) →
      checkInputs s (before ++ graph :: after) = .ok () → loaded s graph = .error fault → ¬fault.isUnread →
      ¬fault.isOfDocument → run s (.validate (before ++ graph :: after)) = .error (.load fault)) ∧
    ∀ c graph fault, graph? c = some graph → checkInputs s c.inputs = .ok () → c.Configured s →
      loaded s graph = .error fault → ¬fault.isUnread → run s c = .error (.ofLoad fault) := by
  refine ⟨fun p value h => ⟨Graph.settled_load_iff h, fun cause => Graph.load_eq_halted_iff h⟩,
    fun p text fault hread hparse _ => Graph.load_of_parse_error hread hparse, ?_, ?_,
    fun c graph fault hgraph hinputs hconfigured hload _ => run_fault hgraph hinputs hconfigured hload⟩
  · intro graphs h
    rw [run_validate (checkInputs_settled h)]
    exact runValidate_settled h
  · intro before graph after fault h hinputs hload _ hfault
    rw [run_validate hinputs]
    exact runValidate_fault h hload hfault

/-- A node whose flag word is one and a half. -/
def halfFlags : Value :=
  .fields [("nodes", .list [.fields [("id", .int 1), ("flags", .real ⟨0x3FF8000000000000⟩)]])]

def halfFlagsText : String := "\x7b\"nodes\":[\x7b\"id\":1,\"flags\":1.5\x7d]\x7d"

/-- A dump of that node, one of no nodes, and one that is no map. -/
def dumps : Store :=
  .ofFiles [("half.json", halfFlagsText), ("none.json", "\x7b\"nodes\":[]\x7d"), ("list.json", "[]")]

theorem denotes_half : dumps.Denotes (Path.ofText "half.json") halfFlags :=
  ⟨halfFlagsText, eq_ok_of_toOption (by decide +kernel), eq_ok_of_toOption (by decide +kernel)⟩

theorem haltsOn_half : HaltsOn halfFlags (.flags (.notNames "float")) :=
  Graph.ofValue_eq_halted_iff.1 (show Graph.ofValue (Path.ofText "half.json") halfFlags = _ from rfl)

theorem loaded_none : loaded dumps "none.json" = .ok ⟨[], []⟩ :=
  eq_ok_of_toOption (by decide +kernel)

theorem settled_none : Settled (loaded dumps "none.json") := by
  rw [loaded_none]
  exact .valid (Graph.valid_of_read (show Graph.read [(.text "nodes", .list [])] = _ from rfl))

theorem loaded_list : loaded dumps "list.json" = .error (.notMapping .graph "list.json") := by
  have hlist : dumps.Denotes (Path.ofText "list.json") (.list []) :=
    ⟨"[]", eq_ok_of_toOption (by decide +kernel), eq_ok_of_toOption (by decide +kernel)⟩
  rw [loaded, Graph.load_of_denotes hlist]
  rfl

/-- The dump that is no map is refused, but the one whose flag word is no word ends the checks. -/
theorem settled_unless_half :
    (∃ report, run dumps (.validate ["none.json", "list.json"]) = .ok report ∧ report.exit = 1) ∧
      run dumps (.validate ["none.json", "half.json", "list.json"]) =
        .error (.load (.halted (.flags (.notNames "float")))) ∧
      run dumps (.classify "list.json") = .error (.badDocument (.notMapping .graph "list.json")) ∧
      run dumps (.classify "half.json") = .error (.load (.halted (.flags (.notNames "float")))) := by
  obtain ⟨hvalues, -, hall, hstop, hcommands⟩ := settled_unless_halted dumps
  have hhalf : loaded dumps "half.json" = .error (.halted (.flags (.notNames "float"))) :=
    ((hvalues _ _ denotes_half).2 _).2 haltsOn_half
  have hlist : Settled (loaded dumps "list.json") := by
    rw [loaded_list]
    exact .refused rfl
  refine ⟨?_, ?_, ?_, ?_⟩
  · obtain ⟨report, hreport, hchecked⟩ := hall ["none.json", "list.json"] (by simp [settled_none, hlist])
    refine ⟨report, hreport, ?_⟩
    rw [hchecked.exit]
    simp [loaded_list, isRefused, LoadFault.isOfDocument]
  · exact hstop ["none.json"] "half.json" ["list.json"] _ (by simp [settled_none]) (by rfl) hhalf nofun nofun
  · exact hcommands (.classify "list.json") "list.json" _ rfl (by rfl) trivial loaded_list nofun
  · exact hcommands (.classify "half.json") "half.json" _ rfl (by rfl) trivial hhalf nofun

/-- Half flags come out as no refusal, and the dump behind them is not checked. -/
theorem half_not_settled :
    dumps.Denotes (Path.ofText "half.json") halfFlags ∧
      Graph.load dumps (Path.ofText "half.json") = .error (.halted (.flags (.notNames "float"))) ∧
      ¬Settled (Graph.load dumps (Path.ofText "half.json")) ∧
      run dumps (.validate ["half.json", "none.json"]) = .error (.load (.halted (.flags (.notNames "float")))) ∧
      run dumps (.classify "half.json") = .error (.load (.halted (.flags (.notNames "float")))) := by
  have hhalf : loaded dumps "half.json" = .error (.halted (.flags (.notNames "float"))) :=
    (Graph.load_eq_halted_iff denotes_half).2 haltsOn_half
  refine ⟨denotes_half, hhalf, ?_, ?_, ?_⟩
  · exact fun h => (Graph.settled_load_iff denotes_half).1 h _ haltsOn_half
  · rw [run_validate (by rfl)]
    exact @runValidate_fault "half.json" { store := dumps } _ [] ["none.json"] nofun hhalf nofun
  · exact @run_fault dumps _ _ (.classify "half.json") rfl (by rfl) trivial hhalf

end Command

end TypeSchema
