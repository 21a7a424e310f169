import ChatFlow.Graph.Routing

/-!
# Sound graphs

What the rules for graphs give to whoever walks along the edges: the target of every edge is a node
(`exists_node?_of_mem_targets`), and so is the start node (`exists_node?_of_startNode?`). A walk
therefore never comes to an id without a node.
-/

namespace ChatFlow

namespace Defect

theorem mem_of_endpoints_eq_nil {ids : List String} {i : Nat} {edges : List Edge}
    (h : endpoints ids i edges = []) {e : Edge} (he : e ∈ edges) :
    e.source ∈ ids ∧ e.target ∈ ids := by
  induction edges generalizing i with
  | nil => simp at he
  | cons first rest ih =>
    simp only [endpoints, List.append_eq_nil_iff, ite_eq_left_iff, List.cons_ne_nil, imp_false,
      Decidable.not_not] at h
    obtain ⟨⟨hsource, htarget⟩, hrest⟩ := h
    rcases List.mem_cons.mp he with rfl | he
    · exact ⟨hsource, htarget⟩
    · exact ih hrest he

end Defect

namespace FlowGraph

variable {g : FlowGraph}

theorem exists_node?_of_mem {id : String} (h : id ∈ g.nodes.map Node.id) :
    ∃ n, g.node? id = some n := by
  obtain ⟨n, hn, rfl⟩ := List.mem_map.mp h
  have hsome : (g.nodes.find? (·.id == n.id)).isSome :=
    List.find?_isSome.mpr ⟨n, hn, by simp⟩
  exact Option.isSome_iff_exists.mp hsome

theorem target_mem {e : Edge} (he : e ∈ g.edges) : e.target ∈ g.nodes.map Node.id := by
  have hsound := g.sound
  simp only [Defect.ofParts, List.append_eq_nil_iff] at hsound
  exact (Defect.mem_of_endpoints_eq_nil hsound.2 he).2

/-- Wherever an edge leads, there is a node. -/
theorem exists_node?_of_mem_targets {id target : String} {port : Option String}
    (h : target ∈ g.targets id port) : ∃ n, g.node? target = some n := by
  obtain ⟨e, he, rfl⟩ := List.mem_map.mp h
  exact exists_node?_of_mem (target_mem (List.mem_filter.mp he).1)

theorem mem_of_startNode? {n : Node} (h : g.startNode? = some n) : n ∈ g.nodes :=
  List.mem_of_find?_eq_some h

theorem exists_node?_of_startNode? {n : Node} (h : g.startNode? = some n) :
    ∃ m, g.node? n.id = some m :=
  exists_node?_of_mem (List.mem_map_of_mem (mem_of_startNode? h))

end FlowGraph

end ChatFlow
