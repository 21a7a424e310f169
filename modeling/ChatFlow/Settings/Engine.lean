import ChatFlow.Fault
import ChatFlow.Number.Basic

/-!
# Engine settings

Settings are kept as they are given: a number may stand where a text is due. `contentOf`,
`templateOf`, `pauseOf` and `reached` are the uses of a setting, and say what happens to one of the
wrong kind.
-/

namespace ChatFlow

/-- Delays, limits and standard texts of the engine. -/
structure EngineConfig where
  /-- Milliseconds before a node. -/
  nodeDelay : Value := .int 700
  /-- Milliseconds before the start node. -/
  startDelay : Value := .int 500
  /-- In voice mode speech is played back and replies are spoken. -/
  voiceMode : Value := .bool false
  /-- How many nodes may be executed without a suspension. -/
  maxSteps : Value := .int 50
  endOfFlowMessage : Value := .str "End of flow: this node has no further connections."
  endMessage : Value := .str "End of the conversation."
  messageText : Value := .str "Unconfigured message."
  inputQuestion : Value := .str "What would you like to ask?"
  sttPrompt : Value := .str "Please send a voice message..."
  ttsText : Value := .str "There is no text to synthesize."
  choiceMessage : Value := .str "Please select an option:"
  aiText : Value := .str "Unconfigured AI response."
  aiFailureMessage : Value := .str "Sorry, I couldn't generate a response right now."
  businessSuccessMessage : Value := .str "Your request was completed successfully."
  businessFailureMessage : Value :=
    .str "Sorry, we couldn't complete your request. Please try again later."
  contractViolationMessage : Value :=
    .str "Sorry, there is a technical problem with this conversation."
  stepLimitMessage : Value :=
    .str "Sorry, there was a problem processing your request. Please try a different query."
  missingStartMessage : Value := .str "This flow has no start node."
  deriving DecidableEq, Repr, Inhabited

namespace EngineConfig

def fields (c : EngineConfig) : Fields :=
  [("default_node_delay_ms", c.nodeDelay), ("start_delay_ms", c.startDelay),
    ("voice_mode", c.voiceMode), ("max_steps_per_turn", c.maxSteps),
    ("end_of_flow_message", c.endOfFlowMessage), ("default_end_message", c.endMessage),
    ("default_message_text", c.messageText), ("default_input_question", c.inputQuestion),
    ("default_stt_prompt", c.sttPrompt), ("default_tts_text", c.ttsText),
    ("default_choice_message", c.choiceMessage), ("default_ai_text", c.aiText),
    ("ai_failure_message", c.aiFailureMessage),
    ("business_success_message", c.businessSuccessMessage),
    ("business_failure_message", c.businessFailureMessage),
    ("contract_violation_message", c.contractViolationMessage),
    ("step_limit_message", c.stepLimitMessage), ("missing_start_message", c.missingStartMessage)]

def names : List String := (fields {}).keys

/-- The settings that given fields name, and the defaults of all others. -/
def ofFields (fs : Fields) : EngineConfig :=
  let d : EngineConfig := {}
  let get (name : String) (default : Value) := (fs.get? name).getD default
  { nodeDelay := get "default_node_delay_ms" d.nodeDelay
    startDelay := get "start_delay_ms" d.startDelay
    voiceMode := get "voice_mode" d.voiceMode
    maxSteps := get "max_steps_per_turn" d.maxSteps
    endOfFlowMessage := get "end_of_flow_message" d.endOfFlowMessage
    endMessage := get "default_end_message" d.endMessage
    messageText := get "default_message_text" d.messageText
    inputQuestion := get "default_input_question" d.inputQuestion
    sttPrompt := get "default_stt_prompt" d.sttPrompt
    ttsText := get "default_tts_text" d.ttsText
    choiceMessage := get "default_choice_message" d.choiceMessage
    aiText := get "default_ai_text" d.aiText
    aiFailureMessage := get "ai_failure_message" d.aiFailureMessage
    businessSuccessMessage := get "business_success_message" d.businessSuccessMessage
    businessFailureMessage := get "business_failure_message" d.businessFailureMessage
    contractViolationMessage := get "contract_violation_message" d.contractViolationMessage
    stepLimitMessage := get "step_limit_message" d.stepLimitMessage
    missingStartMessage := get "missing_start_message" d.missingStartMessage }

/-- Whether one text occurs inside another. -/
def occursIn (part : List Char) : List Char → Bool
  | [] => part.isEmpty
  | c :: r => part.isPrefixOf (c :: r) || occursIn part r

/-- The settings of a value that stands in the place of an object. A list or a text that holds none
of the names changes nothing. -/
def ofValue : Value → Except Fault EngineConfig
  | .object fs => .ok (ofFields fs)
  | .list vs =>
    if vs.any fun | .str s => s ∈ names | _ => false then .error .wrongKind else .ok {}
  | .str s =>
    if names.any fun name => occursIn name.toList s.toList then .error .wrongKind else .ok {}
  | _ => .error .wrongKind

/-- A setting as the content of a message. -/
def contentOf : Value → Except Fault String
  | .str s => .ok s
  | _ => .error (.invalid [⟨[.field "content"], .notText⟩])

/-- A setting as a text with placeholders; anything empty is the empty text. -/
def templateOf : Value → Except Fault String
  | .str s => .ok s
  | v => if v.isTruthy then .error .wrongKind else .ok ""

/-- A setting of milliseconds as a pause in seconds; none where there is nothing to wait for. -/
def pauseOf (v : Value) : Except Fault (Option Double) :=
  if !v.isTruthy then .ok none
  else
    match v.number? with
    | none => .error .wrongKind
    | some n =>
      if n.isPositive then
        match n.thousandth? with
        | some seconds => .ok (some seconds)
        | none => .error .overflow
      else .ok none

def reached (limit : Value) (steps : Nat) : Except Fault Bool :=
  match limit.number? with
  | none => .error .wrongKind
  | some n => .ok (n.reachedBy steps)

end EngineConfig

end ChatFlow
