import ChatFlow.Execution.Node
import ChatFlow.Graph.Routing

/-!
# Sessions: what surrounds them

A session runs one flow graph for one user. It reaches the outside only through requests, and each
request is answered by a `Reply`. This module holds what is fixed for a session, the requests it
can make and the operations it is asked to perform.
-/

namespace ChatFlow.Session

/-- What never changes in the life of a session. -/
structure Setup where
  graph : FlowGraph
  executor : Executor := {}
  tenant : String := ""
  id : String := ""
  hasHost : Bool := true
  /-- Whether there is a synthesizer to play speech back. -/
  hasSynthesizer : Bool := false

namespace Setup

variable (s : Setup)

def config : EngineConfig := s.executor.config

def voiceMode : Bool := s.config.voiceMode.isTruthy

end Setup

inductive Request
  | sleep (seconds : Double)
  | generate (prompt : String)
  | act (tenant : String) (vars config : Fields)
  | message (m : Message)
  | textInput
  | voiceInput
  | speech (text : String)
  deriving DecidableEq, Repr

/-- What a session can be asked to perform. -/
inductive Operation
  /-- Begin at the start node, whatever came before. -/
  | start (vars : Fields)
  | run
  | submit (reply : Value)
  /-- Take a spoken reply, which is shown as a message of the user first. -/
  | transcript (text : Value)
  /-- Go on after speech has been played back. -/
  | speechComplete
  deriving DecidableEq, Repr

/-- A message of the engine itself. -/
def notice (setting : Value) (node : String) : Except Fault Message := do
  return { content := ← EngineConfig.contentOf setting, sender := .system, node := node }

/-- How many items of a list have ports of their own. -/
def listPortLimit : Nat := 5

/-- The index of the first option that a reply, trimmed and in small letters, names by its text or
its value. -/
def findChoice? (options : List ChoiceOption) (reply : String) : Option Nat :=
  options.findIdx? fun o =>
    Text.lower o.text == reply || (!o.value.isEmpty && Text.lower o.value == reply)

/-- The port of the option at an index. -/
def choicePort (i : Nat) : String :=
  "handle-" ++ toString i

/-- The port that a reply to a choice leaves through. What names no option with a port of its own
goes the way of the first one. -/
def matchChoice (isList : Bool) (options : List ChoiceOption) (reply : Value) :
    Except Fault (Option String) :=
  if options.isEmpty then .ok none
  else
    match reply with
    | .str s =>
      let limit := if isList then listPortLimit else options.length
      match findChoice? options (Text.lower (Text.trim s)) with
      | some i => .ok (some (choicePort (if i < limit then i else 0)))
      | none => .ok (some (choicePort 0))
    | _ => .error .noSuchMember

/-- The name of an authored variable; anything empty names none. -/
def variableName : Value → Except Fault String
  | .str s => .ok (Template.cleanName s)
  | v => if v.isTruthy then .error .noSuchMember else .ok ""

/-- The name of the variable that receives a reply at a node; empty if there is none. -/
def replyVariable (n : Node) : Except Fault String :=
  variableName n.body.replyVariable

end ChatFlow.Session
