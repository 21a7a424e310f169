import ChatFlow.Graph.NodeType
import ChatFlow.Schema.Reader

/-!
# Node payloads

Every node type has a payload of its own. Reading a payload fills in what was left out and drops
unknown fields; the payloads of business actions and of unrecognised nodes keep them. `Body.read`
and `Body.fields` are the two directions.
-/

namespace ChatFlow

open Schema

/-- What every node carries. A delay, in milliseconds, replaces the configured one. -/
structure NodeData where
  label : String := ""
  delay : Option Int := none
  deriving DecidableEq, Repr, Inhabited

structure MessageData extends NodeData where
  message : String := ""
  waitForResponse : Bool := false
  variableName : String := ""
  deriving DecidableEq, Repr, Inhabited

structure AIResponseData extends NodeData where
  prompt : String := ""
  responseVariableName : String := ""
  deriving DecidableEq, Repr, Inhabited

structure InputData extends NodeData where
  question : String := ""
  variableName : String := ""
  deriving DecidableEq, Repr, Inhabited

structure ConditionOption where
  label : String := ""
  value : String := ""
  deriving DecidableEq, Repr, Inhabited

structure ConditionData extends NodeData where
  condition : String := ""
  options : List ConditionOption := []
  deriving DecidableEq, Repr, Inhabited

structure SpeechData extends NodeData where
  text : String := ""
  textVariableName : String := ""
  deriving DecidableEq, Repr, Inhabited

structure ListeningData extends NodeData where
  prompt : String := ""
  variableName : String := ""
  deriving DecidableEq, Repr, Inhabited

structure EndData extends NodeData where
  message : String := ""
  deriving DecidableEq, Repr, Inhabited

/-- One button or list item offered to the user. -/
structure ChoiceOption where
  text : String
  value : String := ""
  description : String := ""
  deriving DecidableEq, Repr, Inhabited

/-- The payload that buttons and lists share. -/
structure ChoiceData extends NodeData where
  message : String := ""
  options : List ChoiceOption := []
  waitForResponse : Bool := false
  variableName : String := ""
  listTitle : String := ""
  buttonText : String := ""
  deriving DecidableEq, Repr, Inhabited

/-- The configuration of a business action. The extra fields are handed on to its adapter. -/
structure ActionData extends NodeData where
  action : String := ""
  maxAttempts : Option Int := none
  requireReason : Bool := false
  requiredFields : Option (List String) := none
  successMessage : String := ""
  failureMessage : String := ""
  extra : Fields := []
  deriving DecidableEq, Repr, Inhabited

/-- The payload of a node that is not recognised. -/
structure GenericData extends NodeData where
  extra : Fields := []
  deriving DecidableEq, Repr, Inhabited

/-- The type of a node together with the payload that belongs to it. -/
inductive Body
  | start (data : NodeData)
  | message (data : MessageData)
  | aiResponse (data : AIResponseData)
  | input (data : InputData)
  | condition (data : ConditionData)
  | tts (data : SpeechData)
  | stt (data : ListeningData)
  | ending (data : EndData)
  | buttons (data : ChoiceData)
  | list (data : ChoiceData)
  | businessAction (data : ActionData)
  | other (type : String) (data : GenericData)
  deriving DecidableEq, Repr, Inhabited

/-- A text field, empty by default. -/
def textField (fs : Fields) (names : List String) : Checked String :=
  field fs names Reader.text ""

/-- A truth value field, false by default. -/
def flagField (fs : Fields) (names : List String) : Checked Bool :=
  field fs names Reader.boolean false

/-- A JSON value for an optional integer. -/
def Value.ofInt? (n : Option Int) : Value :=
  (n.map Value.int).getD .null

/-- A JSON value for an optional text. -/
def Value.ofText? (s : Option String) : Value :=
  (s.map Value.str).getD .null

namespace NodeData

def fieldNames : List (List String) := [["label"], ["delay"]]

def read (fs : Fields) : Checked NodeData :=
  mk <$> textField fs ["label"] <*> field fs ["delay"] (Reader.optional Reader.integer) none

def fields (d : NodeData) : Fields :=
  [("label", .str d.label), ("delay", .ofInt? d.delay)]

end NodeData

def waitNames : List String := ["wait_for_response", "waitForResponse"]

def variableNames : List String := ["variable_name", "variableName"]

namespace MessageData

def read (fs : Fields) : Checked MessageData :=
  mk <$> NodeData.read fs <*> textField fs ["message"] <*> flagField fs waitNames <*>
    textField fs variableNames

def fields (d : MessageData) : Fields :=
  d.toNodeData.fields ++ [("message", .str d.message),
    ("wait_for_response", .bool d.waitForResponse), ("variable_name", .str d.variableName)]

end MessageData

namespace AIResponseData

def read (fs : Fields) : Checked AIResponseData :=
  mk <$> NodeData.read fs <*> textField fs ["prompt"] <*>
    textField fs ["response_variable_name", "responseVariableName"]

def fields (d : AIResponseData) : Fields :=
  d.toNodeData.fields ++ [("prompt", .str d.prompt),
    ("response_variable_name", .str d.responseVariableName)]

end AIResponseData

namespace InputData

def read (fs : Fields) : Checked InputData :=
  mk <$> NodeData.read fs <*> textField fs ["question", "prompt"] <*> textField fs variableNames

def fields (d : InputData) : Fields :=
  d.toNodeData.fields ++ [("question", .str d.question), ("variable_name", .str d.variableName)]

end InputData

namespace ConditionOption

def read (fs : Fields) : Checked ConditionOption :=
  mk <$> textField fs ["label"] <*> textField fs ["value"]

def toValue (o : ConditionOption) : Value :=
  .object [("label", .str o.label), ("value", .str o.value)]

end ConditionOption

namespace ConditionData

def read (fs : Fields) : Checked ConditionData :=
  mk <$> NodeData.read fs <*> textField fs ["condition"] <*>
    field fs ["options"] (Reader.list (Reader.record ConditionOption.read)) []

def fields (d : ConditionData) : Fields :=
  d.toNodeData.fields ++ [("condition", .str d.condition),
    ("options", .list (d.options.map ConditionOption.toValue))]

end ConditionData

namespace SpeechData

def read (fs : Fields) : Checked SpeechData :=
  mk <$> NodeData.read fs <*> textField fs ["text"] <*>
    textField fs ["text_variable_name", "textVariableName"]

def fields (d : SpeechData) : Fields :=
  d.toNodeData.fields ++ [("text", .str d.text), ("text_variable_name", .str d.textVariableName)]

end SpeechData

namespace ListeningData

def read (fs : Fields) : Checked ListeningData :=
  mk <$> NodeData.read fs <*> textField fs ["prompt"] <*> textField fs variableNames

def fields (d : ListeningData) : Fields :=
  d.toNodeData.fields ++ [("prompt", .str d.prompt), ("variable_name", .str d.variableName)]

end ListeningData

namespace EndData

def read (fs : Fields) : Checked EndData :=
  mk <$> NodeData.read fs <*> textField fs ["message"]

def fields (d : EndData) : Fields :=
  d.toNodeData.fields ++ [("message", .str d.message)]

end EndData

namespace ChoiceOption

def read (fs : Fields) : Checked ChoiceOption :=
  mk <$> required fs "text" [] Reader.text <*> textField fs ["value"] <*>
    textField fs ["description"]

def toValue (o : ChoiceOption) : Value :=
  .object [("text", .str o.text), ("value", .str o.value), ("description", .str o.description)]

end ChoiceOption

namespace ChoiceData

def read (fs : Fields) : Checked ChoiceData :=
  mk <$> NodeData.read fs <*> textField fs ["message"] <*>
    field fs ["options", "buttons", "listItems", "list_items"]
      (Reader.list (Reader.record ChoiceOption.read)) [] <*>
    flagField fs waitNames <*> textField fs variableNames <*>
    textField fs ["list_title", "listTitle"] <*> textField fs ["button_text", "buttonText"]

def fields (d : ChoiceData) : Fields :=
  d.toNodeData.fields ++ [("message", .str d.message),
    ("options", .list (d.options.map ChoiceOption.toValue)),
    ("wait_for_response", .bool d.waitForResponse), ("variable_name", .str d.variableName),
    ("list_title", .str d.listTitle), ("button_text", .str d.buttonText)]

end ChoiceData

namespace ActionData

def limitNames : List String :=
  ["max_attempts", "maxAttempts", "max_reschedule_attempts", "max_cancel_attempts",
    "max_booking_attempts"]

def reasonNames : List String := ["require_reason", "requireReason"]

def requiredNames : List String := ["required_fields", "requiredFields"]

def fieldNames : List (List String) :=
  NodeData.fieldNames ++ [["action"], limitNames, reasonNames, requiredNames, ["success_message"],
    ["failure_message"]]

def read (fs : Fields) : Checked ActionData :=
  mk <$> NodeData.read fs <*> textField fs ["action"] <*>
    field fs limitNames (Reader.optional Reader.integer) none <*>
    flagField fs reasonNames <*>
    field fs requiredNames (Reader.optional (Reader.list Reader.text)) none <*>
    textField fs ["success_message"] <*> textField fs ["failure_message"] <*>
    pure (remaining fs fieldNames)

/-- The whole configuration, extra fields last. -/
def fields (d : ActionData) : Fields :=
  d.toNodeData.fields ++ [("action", .str d.action), ("max_attempts", .ofInt? d.maxAttempts),
    ("require_reason", .bool d.requireReason),
    ("required_fields", (d.requiredFields.map fun names => .list (names.map .str)).getD .null),
    ("success_message", .str d.successMessage),
    ("failure_message", .str d.failureMessage)] ++ d.extra

end ActionData

namespace GenericData

def read (fs : Fields) : Checked GenericData :=
  mk <$> NodeData.read fs <*> pure (remaining fs NodeData.fieldNames)

def fields (d : GenericData) : Fields :=
  d.toNodeData.fields ++ d.extra

end GenericData

namespace Body

def read (type : String) (fs : Fields) : Checked Body :=
  match NodeType.ofName? type with
  | some .start => start <$> NodeData.read fs
  | some .message => message <$> MessageData.read fs
  | some .aiResponse => aiResponse <$> AIResponseData.read fs
  | some .input => input <$> InputData.read fs
  | some .condition => condition <$> ConditionData.read fs
  | some .tts => tts <$> SpeechData.read fs
  | some .stt => stt <$> ListeningData.read fs
  | some .ending => ending <$> EndData.read fs
  | some .buttons => buttons <$> ChoiceData.read fs
  | some .list => list <$> ChoiceData.read fs
  | some .businessAction => businessAction <$> ActionData.read fs
  | none => other type <$> GenericData.read fs

/-- Whether a payload of the type keeps the fields that are not its own. -/
def keepsExtra : Option NodeType → Bool
  | some .businessAction => true
  | some _ => false
  | none => true

def fields : Body → Fields
  | start d => d.fields
  | message d => d.fields
  | aiResponse d => d.fields
  | input d => d.fields
  | condition d => d.fields
  | tts d => d.fields
  | stt d => d.fields
  | ending d => d.fields
  | buttons d => d.fields
  | list d => d.fields
  | businessAction d => d.fields
  | other _ d => d.fields

/-- What the payload has in common with all others. -/
def common : Body → NodeData
  | start d => d
  | message d => d.toNodeData
  | aiResponse d => d.toNodeData
  | input d => d.toNodeData
  | condition d => d.toNodeData
  | tts d => d.toNodeData
  | stt d => d.toNodeData
  | ending d => d.toNodeData
  | buttons d => d.toNodeData
  | list d => d.toNodeData
  | businessAction d => d.toNodeData
  | other _ d => d.toNodeData

/-- The node type; none for a node that is not recognised. -/
def type? : Body → Option NodeType
  | start _ => some .start
  | message _ => some .message
  | aiResponse _ => some .aiResponse
  | input _ => some .input
  | condition _ => some .condition
  | tts _ => some .tts
  | stt _ => some .stt
  | ending _ => some .ending
  | buttons _ => some .buttons
  | list _ => some .list
  | businessAction _ => some .businessAction
  | other _ _ => none

/-- The name of the node's type, recognised or not. -/
def typeName : Body → String
  | other type _ => type
  | body => (body.type?.map NodeType.name).getD ""

/-- The names of the payload classes, as they appear in issues. -/
def payloadNames : List String :=
  ["StartData", "MessageData", "AIResponseData", "InputData", "ConditionData", "TTSData",
    "STTData", "EndData", "ChoiceData", "BusinessActionData", "GenericData"]

def payloadName : Body → String
  | start _ => "StartData"
  | message _ => "MessageData"
  | aiResponse _ => "AIResponseData"
  | input _ => "InputData"
  | condition _ => "ConditionData"
  | tts _ => "TTSData"
  | stt _ => "STTData"
  | ending _ => "EndData"
  | buttons _ => "ChoiceData"
  | list _ => "ChoiceData"
  | businessAction _ => "BusinessActionData"
  | other _ _ => "GenericData"

/-- What a payload says about the variable that receives a reply: a value, which may come from an
extra field and need not be a text. -/
def replyVariable : Body → Value
  | message d => .str d.variableName
  | input d => .str d.variableName
  | stt d => .str d.variableName
  | buttons d => .str d.variableName
  | list d => .str d.variableName
  | businessAction d => (d.extra.get? "variable_name").getD (.str "")
  | other _ d => (d.extra.get? "variable_name").getD (.str "")
  | _ => .str ""

end Body

end ChatFlow
