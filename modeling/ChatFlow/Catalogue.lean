import ChatFlow.Action.Outcome
import ChatFlow.Execution.Basic
import ChatFlow.Graph.Basic

/-!
# The catalogue of records

Every kind of record that is exchanged with the outside can be checked by its name. `check` gives a
record back under canonical field names, with everything filled in that was left out.

Where a record may be of several kinds, the kind is found by trying: of the kinds that accept it,
the one that knows most of its fields counts, and of several such kinds the first.
-/

namespace ChatFlow.Catalogue

open Schema

variable {α : Type}

/-- One of the kinds that a record may be of. -/
structure Kind (α : Type) where
  name : String
  known : List String
  read : Fields → Checked α

namespace Kind

/-- How many fields of a record the kind knows. -/
def weight (k : Kind α) (fs : Fields) : Nat :=
  (k.known.filter (Table.has fs)).length

/-- The record as one of this kind, with the number of its known fields. -/
def accept? (k : Kind α) (fs : Fields) : Option (Nat × α) :=
  (k.read fs).value?.map (k.weight fs, ·)

/-- The better of two results; the earlier one where they are equal. -/
def better (best : Option (Nat × α)) (next : Nat × α) : Option (Nat × α) :=
  match best with
  | some b => if b.1 < next.1 then some next else some b
  | none => some next

/-- A record of any of the kinds. -/
def readAny (kinds : List (Kind α)) : Reader α
  | .object fs =>
    match (kinds.filterMap (accept? · fs)).foldl better none with
    | some (_, a) => .valid a
    | none => .faulty (kinds.flatMap fun k => ((k.read fs).issues.map (·.under (.field k.name))))
  | _ => .faulty (kinds.map fun k => ⟨[.field k.name], .notRecord⟩)

end Kind

def transitions : List (Kind Transition) :=
  [⟨"Advance", ["next_node_id"], fun fs => .advance <$> required fs "next_node_id" [] Reader.text⟩,
    ⟨"AdvanceVia", ["port"],
      fun fs => .advanceVia <$> field fs ["port"] (Reader.optional Reader.text) none⟩,
    ⟨"Suspend", ["reason", "choices"],
      fun fs => .suspend <$> required fs "reason" [] (Reader.member SuspendReason.ofName?) <*>
        field fs ["choices"] (Reader.list (Reader.record ChoiceOption.read)) []⟩,
    ⟨"Terminate", [], fun _ => .valid .terminate⟩,
    ⟨"Fail", ["error", "message"],
      fun fs => .fail <$> required fs "error" [] Reader.text <*> textField fs ["message"]⟩]

def effects : List (Kind Effect) :=
  [⟨"ChatMessage",
      ["content", "sender_id", "has_audio", "options", "session_id", "node_id", "metadata"],
      fun fs => .message <$> Message.readFields fs⟩,
    ⟨"ExternalCall", ["kind", "payload"], fun fs => .call <$> ExternalCall.readFields fs⟩]

/-- An effect under canonical field names. -/
def effectValue : Effect → Value
  | .message m => m.toValue
  | .call c => c.toValue

def readResult (fs : Fields) : Checked ExecutionResult :=
  ExecutionResult.mk <$> field fs ["effects"] (Reader.list (Kind.readAny effects)) [] <*>
    field fs ["transition"] (Kind.readAny transitions) (.advanceVia none) <*>
    field fs ["context_patch"] Reader.dictionary [] <*>
    field fs ["metadata"] Reader.dictionary []

/-- The result of a node under canonical field names. -/
def resultValue (r : ExecutionResult) : Value :=
  .object [("effects", .list (r.effects.map effectValue)),
    ("transition", .object r.transition.fields), ("context_patch", .object r.patch),
    ("metadata", .object r.metadata)]

/-- A record that is read and written back. -/
def entry (name : String) (read : Fields → Checked α) (write : α → Value) :
    String × (Fields → Checked Value) :=
  (name, fun fs => write <$> read fs)

/-- A record with a payload of fields. -/
def payload (name : String) (read : Fields → Checked α) (write : α → Fields) :
    String × (Fields → Checked Value) :=
  entry name read fun a => .object (write a)

/-- All kinds of records with their names. -/
def records : Table String (Fields → Checked Value) :=
  [payload "NodeData" NodeData.read NodeData.fields,
    payload "StartData" NodeData.read NodeData.fields,
    payload "MessageData" MessageData.read MessageData.fields,
    payload "AIResponseData" AIResponseData.read AIResponseData.fields,
    payload "InputData" InputData.read InputData.fields,
    entry "ConditionOption" ConditionOption.read ConditionOption.toValue,
    payload "ConditionData" ConditionData.read ConditionData.fields,
    payload "TTSData" SpeechData.read SpeechData.fields,
    payload "STTData" ListeningData.read ListeningData.fields,
    payload "EndData" EndData.read EndData.fields,
    entry "ChoiceOption" ChoiceOption.read ChoiceOption.toValue,
    payload "ChoiceData" ChoiceData.read ChoiceData.fields,
    payload "BusinessActionData" ActionData.read ActionData.fields,
    payload "GenericData" GenericData.read GenericData.fields,
    entry "Node" Node.readFields Node.toValue,
    entry "Edge" Edge.readFields Edge.toValue,
    ("FlowGraph", fun fs => FlowGraph.toValue <$> FlowGraph.read (.object fs)),
    entry "ConversationContext" Context.readFields Context.toValue,
    entry "ChatMessage" Message.readFields Message.toValue,
    entry "ExternalCall" ExternalCall.readFields ExternalCall.toValue,
    payload "AIResponse" (fun fs => required fs "text" [] Reader.text)
      fun text => [("text", .str text)],
    entry "ActionOutputs" ActionOutputs.readFields ActionOutputs.toValue,
    entry "ActionOutcome" ActionOutcome.readFields ActionOutcome.toValue,
    entry "ExecutionResult" readResult resultValue] ++
  transitions.map fun k => payload k.name k.read Transition.fields

/-- A value as a record of the named kind; none if there is no such kind. -/
def check (name : String) (v : Value) : Option (Checked Value) :=
  (records.get? name).map fun read => Reader.record read v

end ChatFlow.Catalogue
