import ChatFlow.Script
import ChatFlow.Simulation.Stage

/-!
# Scripted collaborators

`Cast` holds what answers requests for generated texts and for actions, and makes the surroundings
of a stage from it. A single node can be executed with it outside any session (`Executor.execute`).
-/

namespace ChatFlow

open Session

/-- A single node, executed outside any session: the requests made and the result. -/
def Executor.execute (x : Executor) (answer : Request → Reply) (tenant : String) (node : Node)
    (vars : Fields) (voice : Bool) : List Request × Except Fault ExecutionResult :=
  match x.begin node vars voice with
  | .error e => ([], .error e)
  | .ok (.done r) => ([], .ok r)
  | .ok (.asks q) =>
    let s : Setup := { graph := default, tenant := tenant }
    let request := s.requestOf (.inquire ⟨0, 0⟩ node q)
    ([request], x.conclude node.id q (answer request))

namespace Simulation

/-- What generates texts. -/
inductive Responder
  | absent
  /-- Replies of a preview, which nobody sees being made. -/
  | preview
  | scripted (script : Script Reply)
  deriving Repr

/-- What performs actions. -/
inductive Adapter
  | absent
  | scripted (script : Script Reply)
  deriving Repr

/-- Whether and when a synthesizer reports its playbacks. -/
inductive Playback
  | absent
  /-- Playbacks are reported by cues only. -/
  | onCue
  /-- Each playback is reported while it is requested. -/
  | atOnce
  deriving DecidableEq, Repr

structure Cast where
  responder : Responder := .absent
  adapter : Adapter := .absent
  deriving Repr, Inhabited

namespace Cast

/-- What executes nodes with these collaborators. -/
def executor (c : Cast) (config : EngineConfig) : Executor where
  hasResponder := match c.responder with
    | .absent => false
    | _ => true
  hasActions := match c.adapter with
    | .absent => false
    | _ => true
  config := config

def next (s : Script Reply) : Reply × Script Reply :=
  s.take (.raised .noSuchMember)

/-- The answer to a request. What is only shown or waited for is answered by null. -/
def answer (c : Cast) : Request → Reply × Cast
  | .generate prompt =>
    match c.responder with
    | .absent => (.raised .noSuchMember, c)
    | .preview => (.text (Executor.simulatedReply prompt), c)
    | .scripted s =>
      let (r, s) := next s
      (r, { c with responder := .scripted s })
  | .act .. =>
    match c.adapter with
    | .absent => (.raised .noSuchMember, c)
    | .scripted s =>
      let (r, s) := next s
      (r, { c with adapter := .scripted s })
  | _ => (.value .null, c)

/-- Whether a request to these collaborators can be seen. -/
def isVisible (c : Cast) : Request → Bool
  | .generate _ =>
    match c.responder with
    | .preview => false
    | _ => true
  | _ => true

/-- The surroundings that these collaborators make. -/
def surroundings (c : Cast) (playback : Playback) (interruptions : List Interruption) :
    Surroundings Cast where
  answer := answer
  isVisible := c.isVisible
  playsAtOnce := playback = .atOnce
  hasSynthesizer := playback ≠ .absent
  interruptions := interruptions

/-- A stage without sessions for these collaborators. -/
def stage (c : Cast) (playback : Playback) (interruptions : List Interruption) : Stage Cast where
  around := c.surroundings playback interruptions
  inner := c

/-- Execute a single node with these collaborators: the requests that can be seen and the result. -/
def execute (c : Cast) (config : EngineConfig) (tenant : String) (node : Node)
    (vars : Fields) (voice : Bool) : List Request × Except Fault ExecutionResult :=
  let (requests, result) :=
    (c.executor config).execute (fun r => (c.answer r).1) tenant node vars voice
  (requests.filter c.isVisible, result)

end Cast

end Simulation

end ChatFlow
