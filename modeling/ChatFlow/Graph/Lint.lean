import ChatFlow.Graph.Routing

/-!
# Authoring warnings

A graph without a start node never runs, and an edge that leaves a business action through a port
which no outcome of an action has is never taken.
-/

namespace ChatFlow

def successPort : String := "success"

def failurePort : String := "failure"

/-- The port of an action that asks for a reason first. -/
def needReasonPort : String := "needReason"

/-- The ports that the outcome of a business action may name. -/
def actionPorts : List String := [successPort, failurePort, needReasonPort]

/-- What looks wrong in a graph without making it unusable. -/
inductive Warning
  | noStartNode
  | unknownPort (node port : String)
  deriving DecidableEq, Repr

namespace Warning

def message : Warning → String
  | noStartNode => "flow has no start node"
  | unknownPort node port =>
    "business node '" ++ node ++ "' has edge on unknown port '" ++ port ++ "'"

end Warning

namespace FlowGraph

/-- The ports of a node that no outcome of a business action has. -/
def deadPorts (g : FlowGraph) (id : String) : List String :=
  (g.ports id).filter (· ∉ actionPorts)

def lint (g : FlowGraph) : List Warning :=
  (if g.startNode?.isNone then [.noStartNode] else []) ++
    (g.nodes.filter fun n => n.type? = some .businessAction).flatMap fun n =>
      (g.deadPorts n.id).map (.unknownPort n.id)

end FlowGraph

end ChatFlow
