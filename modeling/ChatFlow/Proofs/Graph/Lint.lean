import ChatFlow.Graph.Lint
import ChatFlow.Proofs.Graph.Routing
import ChatFlow.Proofs.Graph.Saving
import Mathlib.Data.List.Nodup

/-!
# Branches of an action that no outcome takes

A branch of a business action is dead if none of the ports that an outcome may name selects its
edge. Routing decides that by comparing the handle of the edge with the port, and takes an edge
without a handle for any port. The warnings go by the handles that `ports` collects, which leaves
out the empty one as if the edge had none.

`dead_branches_reported_unless_unnamed` says what follows. A handle of a business action is reported
exactly if it is the handle of a dead branch and not empty, and a graph without such warnings has no
dead branches but those with an empty handle. `empty_handle_not_reported` is the smallest graph in
which one is passed over.
-/

namespace ChatFlow.FlowGraph

variable {g : FlowGraph} {id handle : String} {e : Edge} {seen handles : List String}

/-- Some outcome of a business action selects the edge. -/
def Takes (g : FlowGraph) (e : Edge) : Prop :=
  ∃ port ∈ actionPorts, e ∈ g.matchingEdges e.source (some port)

/-- The node is a business action that an edge with this handle leaves, and no outcome selects that
edge. -/
def DeadBranch (g : FlowGraph) (id handle : String) : Prop :=
  ∃ n ∈ g.nodes, n.id = id ∧ n.type? = some .businessAction ∧
    ∃ e ∈ g.edges, e.source = id ∧ e.sourceHandle = some handle ∧ ¬ g.Takes e

/-! ## What the router selects -/

theorem mem_matchingEdges {port : Option String} :
    e ∈ g.matchingEdges id port ↔ e ∈ g.edges ∧ e.Serves id port := by
  rw [matchingEdges, List.mem_filter, leaves_iff]

theorem takes_iff (he : e ∈ g.edges) :
    g.Takes e ↔ ∀ handle, e.sourceHandle = some handle → handle ∈ actionPorts := by
  simp only [Takes, mem_matchingEdges, Edge.Serves, he, true_and, reduceCtorEq, false_or]
  cases e.sourceHandle with
  | none => exact ⟨nofun, fun _ => ⟨successPort, by decide, .inl rfl⟩⟩
  | some handle =>
    constructor
    · rintro ⟨port, hport, h⟩ other hother
      obtain rfl := Option.some.inj hother
      rcases h with h | h
      · exact nomatch h
      · exact Option.some.inj h ▸ hport
    · intro h
      exact ⟨handle, h handle rfl, .inr rfl⟩

theorem not_takes_iff (he : e ∈ g.edges) (hhandle : e.sourceHandle = some handle) :
    ¬ g.Takes e ↔ handle ∉ actionPorts := by
  rw [takes_iff he, hhandle]
  simp

/-! ## What the linter collects -/

theorem mem_collected :
    handle ∈ handles.foldl (fun seen h => if h.isEmpty || h ∈ seen then seen else seen ++ [h]) seen ↔
      handle ∈ seen ∨ handle ≠ "" ∧ handle ∈ handles := by
  induction handles generalizing seen with
  | nil => simp
  | cons h rest ih =>
    rw [List.foldl_cons, ih]
    by_cases hempty : h = ""
    · subst hempty
      have hskip : ("".isEmpty || decide ("" ∈ seen)) = true := rfl
      rw [if_pos hskip, List.mem_cons]
      refine or_congr_right (and_congr_right fun hne => ?_)
      rw [or_iff_right hne]
    · by_cases hmem : h ∈ seen <;> grind [String.isEmpty_iff]

theorem nodup_collected (hseen : seen.Nodup) :
    (handles.foldl (fun seen h => if h.isEmpty || h ∈ seen then seen else seen ++ [h])
      seen).Nodup := by
  induction handles generalizing seen with
  | nil => exact hseen
  | cons h rest ih =>
    rw [List.foldl_cons]
    apply ih
    split
    · exact hseen
    · rename_i hnew
      have hnew : h ∉ seen := by
        intro hmem
        simp [hmem] at hnew
      exact hseen.append (List.nodup_singleton h) (by simpa using hnew)

theorem mem_ports : handle ∈ g.ports id ↔
    handle ≠ "" ∧ ∃ e ∈ g.edges, e.source = id ∧ e.sourceHandle = some handle := by
  rw [ports, mem_collected]
  simp [and_assoc]

theorem mem_deadPorts : handle ∈ g.deadPorts id ↔
    handle ≠ "" ∧ ∃ e ∈ g.edges, e.source = id ∧ e.sourceHandle = some handle ∧ ¬ g.Takes e := by
  rw [deadPorts, List.mem_filter, mem_ports, decide_eq_true_iff, and_assoc]
  refine and_congr_right fun _ => ?_
  constructor
  · rintro ⟨⟨e, he, hsource, hhandle⟩, hdead⟩
    exact ⟨e, he, hsource, hhandle, (not_takes_iff he hhandle).mpr hdead⟩
  · rintro ⟨e, he, hsource, hhandle, hdead⟩
    exact ⟨⟨e, he, hsource, hhandle⟩, (not_takes_iff he hhandle).mp hdead⟩

theorem mem_lint : .unknownPort id handle ∈ g.lint ↔
    ∃ n ∈ g.nodes, n.id = id ∧ n.type? = some .businessAction ∧ handle ∈ g.deadPorts id := by
  have hstart : Warning.unknownPort id handle ∉
      (if g.startNode?.isNone then [Warning.noStartNode] else []) := by
    split <;> simp
  rw [lint, List.mem_append, or_iff_right hstart, List.mem_flatMap]
  constructor
  · rintro ⟨n, hn, hwarning⟩
    obtain ⟨hmem, htype⟩ := List.mem_filter.mp hn
    obtain ⟨port, hport, heq⟩ := List.mem_map.mp hwarning
    obtain ⟨rfl, rfl⟩ := Warning.unknownPort.inj heq
    exact ⟨n, hmem, rfl, by simpa using htype, hport⟩
  · rintro ⟨n, hmem, rfl, htype, hport⟩
    exact ⟨n, List.mem_filter.mpr ⟨hmem, by simpa using htype⟩, List.mem_map_of_mem hport⟩

theorem nodup_lint (g : FlowGraph) : g.lint.Nodup := by
  have hnodes : (g.nodes.filter fun n => n.type? = some .businessAction).Pairwise
      fun n m => n.id ≠ m.id :=
    (List.pairwise_map.mp g.nodup_ids).filter _
  have hactions : ((g.nodes.filter fun n => n.type? = some .businessAction).flatMap fun n =>
      (g.deadPorts n.id).map (Warning.unknownPort n.id)).Nodup := by
    refine List.nodup_flatMap.mpr ⟨fun n _ => ?_, hnodes.imp fun {n m} hne => ?_⟩
    · have hports : (g.deadPorts n.id).Nodup := (nodup_collected List.nodup_nil).filter _
      exact hports.map fun _ _ heq => (Warning.unknownPort.inj heq).2
    · intro w hn hm
      obtain ⟨_, -, rfl⟩ := List.mem_map.mp hn
      obtain ⟨_, -, heq⟩ := List.mem_map.mp hm
      exact hne (Warning.unknownPort.inj heq).1.symm
  unfold lint
  split
  · refine List.nodup_cons.mpr ⟨fun hmem => ?_, hactions⟩
    obtain ⟨_, -, hwarning⟩ := List.mem_flatMap.mp hmem
    simp at hwarning
  · exact hactions

/-! ## The law of the warnings -/

/-- The handles that are reported are those of dead branches, each once, apart from the empty one.
Without such a warning, an outcome takes every branch of a business action whose handle is not
empty, and none that has the empty handle. -/
theorem dead_branches_reported_unless_unnamed (g : FlowGraph) :
    g.lint.Nodup ∧
    (∀ id handle, .unknownPort id handle ∈ g.lint ↔ handle ≠ "" ∧ g.DeadBranch id handle) ∧
    ((∀ id handle, .unknownPort id handle ∉ g.lint) →
      ∀ n ∈ g.nodes, n.type? = some .businessAction → ∀ e ∈ g.edges, e.source = n.id →
        (g.Takes e ↔ e.sourceHandle ≠ some "")) := by
  have hreported : ∀ id handle,
      .unknownPort id handle ∈ g.lint ↔ handle ≠ "" ∧ g.DeadBranch id handle := fun id handle => by
    rw [mem_lint, mem_deadPorts, DeadBranch]
    constructor
    · rintro ⟨n, hn, hid, htype, hne, hedge⟩
      exact ⟨hne, n, hn, hid, htype, hedge⟩
    · rintro ⟨hne, n, hn, hid, htype, hedge⟩
      exact ⟨n, hn, hid, htype, hne, hedge⟩
  refine ⟨nodup_lint g, hreported, fun hnone n hn htype e he hsource => ⟨?_, fun hne => ?_⟩⟩
  · rintro htakes hempty
    exact absurd ((takes_iff he).mp htakes "" hempty) (by decide)
  · by_contra hdead
    obtain ⟨handle, hhandle, -⟩ :
        ∃ handle, e.sourceHandle = some handle ∧ handle ∉ actionPorts := by
      simpa using mt (takes_iff he).mpr hdead
    refine hnone n.id handle ((hreported n.id handle).mpr ⟨?_, ?_⟩)
    · rintro rfl
      exact hne hhandle
    · exact ⟨n, hn, rfl, htype, e, he, hsource, hhandle, hdead⟩

/-- A booking with a branch for success, one with a handle of its own, and one for everything. -/
def booking (handle : String) : FlowGraph where
  nodes := [⟨"s", .start {}⟩, ⟨"book", .businessAction {}⟩, ⟨"e", .ending {}⟩]
  edges :=
    [{ source := "s", target := "book" },
      { source := "book", target := "e", sourceHandle := some "success" },
      { source := "book", target := "e", sourceHandle := some handle },
      { source := "book", target := "s" }]
  sound := rfl

theorem misspelt_handle_reported :
    (booking "failed").DeadBranch "book" "failed" ∧
      (booking "failure").Takes
        { source := "book", target := "e", sourceHandle := some "failure" } := by
  obtain ⟨-, hreported, -⟩ := dead_branches_reported_unless_unnamed (booking "failed")
  obtain ⟨-, -, htaken⟩ := dead_branches_reported_unless_unnamed (booking "failure")
  have hquiet : (booking "failure").lint = [] := by decide
  refine ⟨((hreported "book" "failed").mp (by decide)).2, ?_⟩
  have hnone : ∀ id handle, .unknownPort id handle ∉ (booking "failure").lint := by simp [hquiet]
  refine (htaken hnone ⟨"book", .businessAction {}⟩ (by decide) rfl _ (by decide) rfl).mpr ?_
  decide

/-- A cancellation as it is saved, with a branch whose handle is empty. -/
def cancellationAuthored : Value :=
  .object
    [("nodes", .list
      [.object [("id", .str "s"), ("type", .str "start")],
        .object [("id", .str "c"), ("type", .str "cancel-appointment")],
        .object [("id", .str "e"), ("type", .str "end")]]),
      ("edges", .list
        [.object [("source", .str "s"), ("target", .str "c")],
          .object [("source", .str "c"), ("target", .str "e"), ("sourceHandle", .str "")]])]

def cancellation : FlowGraph where
  nodes := [⟨"s", .start {}⟩, ⟨"c", .businessAction { action := "cancel-appointment" }⟩,
    ⟨"e", .ending {}⟩]
  edges :=
    [{ id := "e0", source := "s", target := "c" },
      { id := "e1", source := "c", target := "e", sourceHandle := some "" }]
  sound := by decide

/-- No outcome takes the branch, and there is no warning about it. -/
theorem empty_handle_not_reported :
    parse (.str "cancel") cancellationAuthored = .ok cancellation ∧
      cancellation.DeadBranch "c" "" ∧ cancellation.lint = [] := by
  refine ⟨by decide +kernel, ?_, by decide⟩
  have hempty : "" ∉ actionPorts := by decide
  exact ⟨_, .tail _ (.head _), rfl, rfl, _, .tail _ (.head _), rfl, rfl,
    (not_takes_iff (.tail _ (.head _)) rfl).mpr hempty⟩

end ChatFlow.FlowGraph
