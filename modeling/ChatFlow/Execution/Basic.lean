import ChatFlow.Context.Basic
import ChatFlow.Message

/-!
# Results of executing a node

Executing a node changes nothing by itself. Its result lists the messages and requests to make, the
variables to set, and where the session goes from there.
-/

namespace ChatFlow

open Schema

/-- A request to the outside that a node makes. -/
inductive CallKind
  | textInput
  | voiceInput
  | speech
  deriving DecidableEq, Repr, Inhabited

namespace CallKind

def name : CallKind → String
  | textInput => "request_text_input"
  | voiceInput => "request_voice_input"
  | speech => "synthesize_speech"

def ofName? (name : String) : Option CallKind :=
  [textInput, voiceInput, speech].find? (·.name == name)

end CallKind

structure ExternalCall where
  kind : CallKind
  payload : Fields := []
  deriving DecidableEq, Repr, Inhabited

namespace ExternalCall

def readFields (fs : Fields) : Checked ExternalCall :=
  mk <$> required fs "kind" [] (Reader.member CallKind.ofName?) <*>
    field fs ["payload"] Reader.dictionary []

def toValue (c : ExternalCall) : Value :=
  .object [("kind", .str c.kind.name), ("payload", .object c.payload)]

end ExternalCall

/-- What a node asks the outside world to do. -/
inductive Effect
  | message (m : Message)
  | call (c : ExternalCall)
  deriving DecidableEq, Repr

/-- Where a session goes after a node. -/
inductive Transition
  /-- To the node of an id. -/
  | advance (node : String)
  /-- Along the first edge that leaves through a port. -/
  | advanceVia (port : Option String)
  /-- Nowhere, until an event from outside comes. -/
  | suspend (reason : SuspendReason) (choices : List ChoiceOption)
  | terminate
  | fail (error : String) (message : String)
  deriving DecidableEq, Repr, Inhabited

namespace Transition

def name : Transition → String
  | advance _ => "Advance"
  | advanceVia _ => "AdvanceVia"
  | suspend _ _ => "Suspend"
  | terminate => "Terminate"
  | fail _ _ => "Fail"

/-- What a transition says beside its kind. -/
def fields : Transition → Fields
  | advance node => [("next_node_id", .str node)]
  | advanceVia port => [("port", .ofText? port)]
  | suspend reason choices =>
    [("reason", .str reason.name), ("choices", .list (choices.map ChoiceOption.toValue))]
  | terminate => []
  | fail error message => [("error", .str error), ("message", .str message)]

end Transition

structure ExecutionResult where
  effects : List Effect := []
  transition : Transition := .advanceVia none
  patch : Fields := []
  metadata : Fields := []
  deriving DecidableEq, Repr, Inhabited

namespace ExecutionResult

def messages (r : ExecutionResult) : List Message :=
  r.effects.filterMap fun
    | .message m => some m
    | .call _ => none

def calls (r : ExecutionResult) : List ExternalCall :=
  r.effects.filterMap fun
    | .call c => some c
    | .message _ => none

/-- Whether the result waits for speech to be played back. -/
def awaitsPlayback (r : ExecutionResult) : Bool :=
  match r.transition with
  | .suspend .speechPlayback _ => true
  | _ => false

/-- The result without its requests, going on instead of waiting. -/
def withoutCalls (r : ExecutionResult) : ExecutionResult :=
  { r with effects := r.messages.map .message, transition := .advanceVia none }

end ExecutionResult

end ChatFlow
