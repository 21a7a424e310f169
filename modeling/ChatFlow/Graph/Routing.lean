import ChatFlow.Graph.Basic

/-!
# Routing

A port is left along the edges whose source handle is that port, or that have none. Without a port,
all outgoing edges are taken into account. Edges keep their authored order, so that the first one
decides.
-/

namespace ChatFlow.FlowGraph

variable (g : FlowGraph)

def leaves (id : String) (port : Option String) (e : Edge) : Bool :=
  e.source == id && (port.isNone || e.sourceHandle == port || e.sourceHandle.isNone)

def matchingEdges (id : String) (port : Option String) : List Edge :=
  g.edges.filter (leaves id port)

/-- The ids of the nodes that are reached from a node through a port. -/
def targets (id : String) (port : Option String) : List String :=
  (g.matchingEdges id port).map Edge.target

/-- The handles that edges leaving a node name, each once, in the order of their first use. -/
def ports (id : String) : List String :=
  ((g.edges.filter (·.source == id)).filterMap Edge.sourceHandle).foldl
    (fun seen h => if h.isEmpty || h ∈ seen then seen else seen ++ [h]) []

end ChatFlow.FlowGraph
