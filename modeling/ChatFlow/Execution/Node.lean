import ChatFlow.Action.Outcome
import ChatFlow.Action.Precondition
import ChatFlow.Execution.Basic
import ChatFlow.Settings.Engine
import ChatFlow.Template.Basic

/-!
# Executing a node

`Executor.begin` executes a node as far as it goes without outside help. Nodes that generate a reply
or perform an action stop at an `Inquiry`; `Executor.conclude` goes on from the answer. An answer
may be an error: a generated reply then gives way to a standard text, and an action goes the way of
its failure port. An outcome through a port that no action has fails the session, and a reply whose
text is none cannot be said.
-/

namespace ChatFlow

/-- What a collaborator comes back with. -/
inductive Reply
  /-- A generated reply, with something as its text. -/
  | generated (text : Value)
  /-- A checked outcome of an action. -/
  | outcome (o : ActionOutcome)
  /-- Any other value; null where nothing is due. -/
  | value (v : Value)
  | raised (e : Fault)
  deriving DecidableEq, Repr

/-- A reply whose text is one. -/
def Reply.text (s : String) : Reply := .generated (.str s)

/-- A question that a node asks in order to be executed. -/
inductive Inquiry
  /-- For a text generated from a prompt. -/
  | generate (data : AIResponseData) (prompt : String)
  /-- For the outcome of an action under the variables at that time. -/
  | act (data : ActionData) (vars : Fields)
  deriving DecidableEq, Repr

/-- How far a node is executed without outside help. -/
inductive Progress
  | done (result : ExecutionResult)
  | asks (inquiry : Inquiry)
  deriving DecidableEq, Repr

/-- What executes nodes: the collaborators it has and the settings it keeps to. -/
structure Executor where
  hasResponder : Bool := false
  hasActions : Bool := false
  config : EngineConfig := {}
  deriving DecidableEq, Repr, Inhabited

namespace Executor

open EngineConfig

/-- The reply that stands for a generated one in a preview. -/
def simulatedReply (prompt : String) : String :=
  "[AI response] Simulated reply for: \"" ++ prompt ++ "\""

/-- A text of the agent, with its placeholders filled. -/
def agentText (node text : String) (vars : Fields) : Effect :=
  .message { content := Template.interpolate text vars, node := node }

/-- The authored text, or a setting in the place of an empty one. -/
def orTemplate (text : String) (setting : Value) : Except Fault String :=
  if text.isEmpty then templateOf setting else .ok text

/-- The authored text, or a setting in the place of a text of blanks. -/
def orTemplateIfBlank (text : String) (setting : Value) : Except Fault String :=
  if Text.isBlankText text then templateOf setting else .ok text

def askText (effect : Effect) (reason : SuspendReason) (choices : List ChoiceOption) :
    ExecutionResult :=
  { effects := [effect, .call { kind := .textInput }], transition := .suspend reason choices }

variable (x : Executor)

def message (node : String) (d : MessageData) (vars : Fields) :
    Except Fault ExecutionResult := do
  let text ← orTemplateIfBlank d.message x.config.messageText
  let effect := agentText node text vars
  return if d.waitForResponse then askText effect .textInput [] else { effects := [effect] }

def input (node : String) (d : InputData) (vars : Fields) : Except Fault ExecutionResult := do
  let text ← orTemplateIfBlank d.question x.config.inputQuestion
  return askText (agentText node text vars) .textInput []

/-- A condition always takes its first option and says so. -/
def condition (node : String) (d : ConditionData) : ExecutionResult :=
  match d.options with
  | [] => { transition := .advanceVia (some "true") }
  | first :: _ =>
    let note := "[Condition] " ++ ActionData.textOr d.condition "Unconfigured condition" ++ " → " ++
      ActionData.textOr first.label "Option 1"
    { effects := [.message { content := note, sender := .system, node := node }]
      transition := .advanceVia (some (ActionData.textOr first.value "handle-0"))
      metadata := [("condition_evaluated", .bool false)] }

/-- The text to speak: that of the named variable unless it is null or empty, or else the authored
one, or else the standard one. -/
def speechText (d : SpeechData) (vars : Fields) : Except Fault String :=
  let name := Template.cleanName d.textVariableName
  let authored := Template.interpolate d.text vars
  let text :=
    if name.isEmpty then authored
    else
      match vars.get? name with
      | none => authored
      | some .null => authored
      | some (.str "") => authored
      | some v => v.format
  if text.isEmpty then contentOf x.config.ttsText else .ok text

def speech (node : String) (d : SpeechData) (vars : Fields) (voice : Bool) :
    Except Fault ExecutionResult := do
  let text ← x.speechText d vars
  let effect : Effect := .message { content := text, node := node, hasAudio := true }
  return if voice then
    { effects := [effect, .call { kind := .speech, payload := [("text", .str text)] }]
      transition := .suspend .speechPlayback [] }
  else { effects := [effect] }

def listening (node : String) (d : ListeningData) (vars : Fields) (voice : Bool) :
    Except Fault ExecutionResult := do
  let text ← orTemplate d.prompt x.config.sttPrompt
  let effect := agentText node text vars
  return if voice then
    { effects := [effect, .call { kind := .voiceInput }], transition := .suspend .voiceInput [] }
  else askText effect .textInput []

/-- Buttons, or a list with the titles of its surface. -/
def choice (node : String) (d : ChoiceData) (metadata : Fields) (vars : Fields) :
    Except Fault ExecutionResult := do
  let text ← orTemplate d.message x.config.choiceMessage
  let effect : Effect := .message
    { content := Template.interpolate text vars
      node := node
      options := d.options
      metadata := metadata }
  return if d.waitForResponse then askText effect .choice d.options else { effects := [effect] }

def ending (node : String) (d : EndData) (vars : Fields) : Except Fault ExecutionResult := do
  let text ← orTemplate d.message x.config.endMessage
  return { effects := [agentText node text vars], transition := .terminate }

/-- The result of an action that leaves through a port with a message. -/
def route (node port text : String) (vars : Fields) (patch metadata : Fields) :
    ExecutionResult :=
  { effects := [agentText node text vars]
    transition := .advanceVia (some port)
    patch := patch
    metadata := Table.insert metadata "port" (.str port) }

def routeFailure (node : String) (d : ActionData) (vars : Fields) (reason : String) :
    Except Fault ExecutionResult := do
  let text ← orTemplate d.failureMessage x.config.businessFailureMessage
  return route node failurePort text vars [] [("error", .str reason)]

/-- The result of an action whose outcome breaks the contract of its adapter. -/
def violation (node port : String) : Except Fault ExecutionResult := do
  let text ← contentOf x.config.contractViolationMessage
  return {
    effects := [.message { content := text, sender := .system, node := node }]
    transition := .fail (EngineError.contractViolation node port actionPorts).message ""
    metadata := [("contract_violation", .bool true), ("port", .str port)] }

/-- An action up to the call of its adapter. -/
def beginAction (node : String) (d : ActionData) (vars : Fields) : Except Fault Progress := do
  let profile := ActionProfile.ofAction d.action
  match ← ActionData.check profile d vars node with
  | .exhausted _ _ =>
    return .done (route node failurePort (ActionData.textOr d.failureMessage profile.limitMessage)
      vars [] [("error", .str "limit_exceeded")])
  | .blocked b =>
    return .done (route node b.port b.message vars [] [("precondition", .str b.reason)])
  | .proceed =>
    if x.hasActions then return .asks (.act d vars)
    else return .done (← x.routeFailure node d vars
      (EngineError.configuration "No business action adapter configured" node false).message)

/-- An action from its outcome on. -/
def concludeOutcome (node : String) (d : ActionData) (vars : Fields) (o : ActionOutcome) :
    Except Fault ExecutionResult := do
  let profile := ActionProfile.ofAction d.action
  if o.port ∉ actionPorts then x.violation node o.port
  else
    let said := o.outputs.message
    let (patch, text) ←
      if o.port = successPort then do
        let patch := o.outputs.contextPatch.merge
          (← ActionData.successPatch profile d vars node)
        let text ← orTemplate (ActionData.textOr said d.successMessage)
          x.config.businessSuccessMessage
        pure (patch, text)
      else if o.port = needReasonPort then
        pure (o.outputs.contextPatch, ActionData.textOr said profile.needReasonMessage)
      else do
        let text ← orTemplate (ActionData.textOr said d.failureMessage)
          x.config.businessFailureMessage
        pure (o.outputs.contextPatch, text)
    return route node o.port text (vars.merge patch) patch [("action", .str profile.name)]

/-- The port that a contract violation names when there is no outcome to take one from. -/
def malformedPort : String := "<malformed>"

/-- An action from the answer of its adapter on. -/
def concludeAction (node : String) (d : ActionData) (vars : Fields) :
    Reply → Except Fault ExecutionResult
  | .outcome o => x.concludeOutcome node d vars o
  | .value v =>
    match ActionOutcome.read v with
    | .valid o => x.concludeOutcome node d vars o
    | .faulty _ => x.violation node malformedPort
  | .generated _ => x.violation node malformedPort
  | .raised (.invalid _) => x.violation node malformedPort
  | .raised e => x.routeFailure node d vars e.text

/-- The result of a reply: it is said, and kept in the node's variable. -/
def replied (node : String) (d : AIResponseData) (text : String) (metadata : Fields) :
    ExecutionResult :=
  let name := Template.cleanName d.responseVariableName
  { effects := [.message { content := text, node := node }]
    patch := if name.isEmpty then [] else [(name, .str text)]
    metadata := metadata }

/-- A generated reply up to the call for it. Without anything to call, the reply is simulated. -/
def beginReply (node : String) (d : AIResponseData) (vars : Fields) :
    Except Fault Progress := do
  if Text.isBlankText d.prompt then
    let text ← contentOf x.config.aiText
    return .done { effects := [.message { content := text, node := node }] }
  else
    let prompt := Template.interpolate d.prompt vars
    if x.hasResponder then return .asks (.generate d prompt)
    else return .done (replied node d (simulatedReply prompt) [("preview", .bool true)])

/-- A generated reply from the answer on. -/
def concludeReply (node : String) (d : AIResponseData) : Reply → Except Fault ExecutionResult
  | .generated said => do
    let text ← contentOf said
    return replied node d text []
  | reply => do
    let reason := match reply with
      | .raised e => e.text
      | _ => Fault.noSuchMember.text
    let text ← contentOf x.config.aiFailureMessage
    return { effects := [.message { content := text, node := node }]
             metadata := [("error", .str reason)] }

/-- A node up to its first question to the outside. -/
def begin (n : Node) (vars : Fields) (voice : Bool) : Except Fault Progress := do
  match n.body with
  | .start _ => return .done {}
  | .message d => return .done (← x.message n.id d vars)
  | .aiResponse d => x.beginReply n.id d vars
  | .input d => return .done (← x.input n.id d vars)
  | .condition d => return .done (condition n.id d)
  | .tts d => return .done (← x.speech n.id d vars voice)
  | .stt d => return .done (← x.listening n.id d vars voice)
  | .buttons d => return .done (← x.choice n.id d [] vars)
  | .list d => return .done (← x.choice n.id d
      [("list_title", .str d.listTitle), ("button_text", .str d.buttonText)] vars)
  | .businessAction d => x.beginAction n.id d vars
  | .ending d => return .done (← x.ending n.id d vars)
  | .other type _ => return .done { metadata := [("unrecognized_type", .str type)] }

/-- A node from the answer to its question on. -/
def conclude (node : String) (q : Inquiry) (reply : Reply) : Except Fault ExecutionResult :=
  match q with
  | .generate d _ => x.concludeReply node d reply
  | .act d vars => x.concludeAction node d vars reply

end Executor

end ChatFlow
