import Mathlib.Data.List.Nodup
import ChatFlow.Proofs.Graph.Soundness

/-!
# The edges that decide

Routing collects the targets of all edges that serve a port, and only the first target counts.
`FirstEdge` says which edge that is in the authored list, and `head?_targets_eq_some` that it is the
one that is taken. `FirstStart` does the same for the start nodes of a graph.

As no two nodes have the same id, an id stands for its node: `node?_of_mem`.
-/

namespace ChatFlow

/-- An edge can be taken from a node through a port. Without a port any edge can be taken, and an
edge without a handle can be taken through any port. -/
def Edge.Serves (e : Edge) (id : String) (port : Option String) : Prop :=
  e.source = id ∧ (port = none ∨ e.sourceHandle = none ∨ e.sourceHandle = port)

namespace Defect

variable {seen ids : List String}

theorem nodup_of_duplicates_eq_nil (h : duplicates seen ids = []) :
    ids.Nodup ∧ ∀ id ∈ ids, id ∉ seen := by
  induction ids generalizing seen with
  | nil => simp
  | cons id rest ih =>
    have hid : id ∉ seen := by
      intro hmem
      simp [duplicates, hmem] at h
    simp only [duplicates, hid, if_false] at h
    obtain ⟨hnodup, hfresh⟩ := ih h
    refine ⟨List.nodup_cons.mpr ⟨fun hmem => hfresh id hmem (by simp), hnodup⟩, fun other hother => ?_⟩
    rcases List.mem_cons.mp hother with rfl | hother
    · exact hid
    · exact fun hmem => hfresh other hother (by simp [hmem])

end Defect

namespace FlowGraph

variable {g : FlowGraph} {id : String} {port : Option String}

/-! ## Nodes -/

theorem nodup_ids (g : FlowGraph) : (g.nodes.map Node.id).Nodup := by
  have hsound := g.sound
  simp only [Defect.ofParts, List.append_eq_nil_iff, List.map_eq_nil_iff] at hsound
  exact (Defect.nodup_of_duplicates_eq_nil hsound.1).1

theorem node?_of_mem {n : Node} (h : n ∈ g.nodes) : g.node? n.id = some n := by
  obtain ⟨m, hm⟩ := exists_node?_of_mem (List.mem_map_of_mem (f := Node.id) h)
  obtain ⟨hmem, hid⟩ := mem_of_node? hm
  obtain rfl : m = n := List.inj_on_of_nodup_map g.nodup_ids hmem h hid
  exact hm

/-- The first start node in authored order. -/
def FirstStart (g : FlowGraph) (n : Node) : Prop :=
  ∃ before after, g.nodes = before ++ n :: after ∧ n.type? = some .start ∧
    ∀ m ∈ before, m.type? ≠ some .start

theorem firstStart_of_startNode? {n : Node} (h : g.startNode? = some n) : g.FirstStart n := by
  obtain ⟨htype, before, after, hnodes, hbefore⟩ := List.find?_eq_some_iff_append.mp h
  exact ⟨before, after, hnodes, by simpa using htype, fun m hm => by simpa using hbefore m hm⟩

theorem type?_ne_start_of_startNode? (h : g.startNode? = none) {n : Node} (hn : n ∈ g.nodes) :
    n.type? ≠ some .start := by
  simpa using List.find?_eq_none.mp h n hn

/-! ## Edges -/

theorem leaves_iff {e : Edge} : leaves id port e = true ↔ e.Serves id port := by
  unfold leaves Edge.Serves
  cases port <;> simp [Option.isNone_iff_eq_none, or_comm]

/-- The first edge in authored order that can be taken. -/
def FirstEdge (g : FlowGraph) (id : String) (port : Option String) (e : Edge) : Prop :=
  ∃ before after, g.edges = before ++ e :: after ∧ e.Serves id port ∧
    ∀ e' ∈ before, ¬ e'.Serves id port

theorem head?_targets :
    (g.targets id port).head? = (g.edges.find? (leaves id port)).map Edge.target := by
  simp [targets, matchingEdges, List.head?_filter]

/-- A session that leaves a node takes the first edge that it can take. -/
theorem head?_targets_eq_some {target : String} (h : (g.targets id port).head? = some target) :
    ∃ e, g.FirstEdge id port e ∧ e.target = target := by
  rw [head?_targets] at h
  obtain ⟨e, he, rfl⟩ := Option.map_eq_some_iff.mp h
  obtain ⟨hserves, before, after, hedges, hbefore⟩ := List.find?_eq_some_iff_append.mp he
  refine ⟨e, ⟨before, after, hedges, leaves_iff.mp hserves, fun e' he' => ?_⟩, rfl⟩
  have hnot := hbefore e' he'
  rw [← leaves_iff]
  simpa using hnot

theorem not_serves_of_targets (h : g.targets id port = []) {e : Edge} (he : e ∈ g.edges) :
    ¬ e.Serves id port := by
  intro hserves
  have hmem : e.target ∈ g.targets id port :=
    List.mem_map_of_mem (List.mem_filter.mpr ⟨he, leaves_iff.mpr hserves⟩)
  simp [h] at hmem

theorem FirstEdge.exists_target {e : Edge} (h : g.FirstEdge id port e) :
    ∃ n ∈ g.nodes, n.id = e.target := by
  obtain ⟨before, after, hedges, -, -⟩ := h
  have hmem : e ∈ g.edges := by simp [hedges]
  simpa using List.mem_map.mp (target_mem hmem)

end FlowGraph

end ChatFlow
