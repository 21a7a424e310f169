import ChatFlow.Graph.Payload

/-!
# Messages
-/

namespace ChatFlow

open Schema

/-- Who a message comes from. -/
inductive Sender
  | user
  | agent
  | system
  deriving DecidableEq, Repr, Inhabited

namespace Sender

def name : Sender → String
  | user => "user"
  | agent => "agent"
  | system => "system"

def ofName? (name : String) : Option Sender :=
  [user, agent, system].find? (·.name == name)

end Sender

structure Message where
  content : String
  sender : Sender := .agent
  hasAudio : Bool := false
  options : List ChoiceOption := []
  session : String := ""
  node : String := ""
  metadata : Fields := []
  deriving DecidableEq, Repr, Inhabited

namespace Message

def readFields (fs : Fields) : Checked Message :=
  mk <$> required fs "content" [] Reader.text <*>
    field fs ["sender_id"] (Reader.member Sender.ofName?) .agent <*>
    flagField fs ["has_audio"] <*>
    field fs ["options"] (Reader.list (Reader.record ChoiceOption.read)) [] <*>
    textField fs ["session_id"] <*> textField fs ["node_id"] <*>
    field fs ["metadata"] Reader.dictionary []

def read : Reader Message := Reader.record readFields

def toValue (m : Message) : Value :=
  .object [("content", .str m.content), ("sender_id", .str m.sender.name),
    ("has_audio", .bool m.hasAudio), ("options", .list (m.options.map ChoiceOption.toValue)),
    ("session_id", .str m.session), ("node_id", .str m.node), ("metadata", .object m.metadata)]

/-- The message as it leaves a session: it bears the session's id unless it bears one. -/
def stamp (session : String) (m : Message) : Message :=
  if m.session.isEmpty then { m with session := session } else m

end Message

end ChatFlow
