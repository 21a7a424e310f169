import ChatFlow.Schema.Reader
import ChatFlow.Graph.Payload

/-!
# Outcomes of business actions
-/

namespace ChatFlow

open Schema

/-- What an action has to say, and the variables it sets. -/
structure ActionOutputs where
  message : String := ""
  contextPatch : Fields := []
  deriving DecidableEq, Repr, Inhabited

/-- The port through which an action leaves its node, with its outputs. -/
structure ActionOutcome where
  port : String
  outputs : ActionOutputs := {}
  deriving DecidableEq, Repr, Inhabited

namespace ActionOutputs

def readFields (fs : Fields) : Checked ActionOutputs :=
  mk <$> textField fs ["message"] <*>
    field fs ["context_patch", "contextPatch", "context"] Reader.dictionary []

def toValue (o : ActionOutputs) : Value :=
  .object [("message", .str o.message), ("context_patch", .object o.contextPatch)]

end ActionOutputs

namespace ActionOutcome

def readFields (fs : Fields) : Checked ActionOutcome :=
  mk <$> required fs "port" ["nextNodeId", "next_node_id"] Reader.text <*>
    field fs ["outputs"] (Reader.record ActionOutputs.readFields) {}

def read : Reader ActionOutcome := Reader.record readFields

def toValue (o : ActionOutcome) : Value :=
  .object [("port", .str o.port), ("outputs", o.outputs.toValue)]

end ActionOutcome

end ChatFlow
