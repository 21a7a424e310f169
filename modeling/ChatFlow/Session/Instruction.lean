import ChatFlow.Context.Event
import ChatFlow.Session.Basic

/-!
# Instructions of an operation

An operation is carried out as a list of instructions. Performing one instruction changes the
session through events, and then either puts further instructions in front of the others, or calls
a collaborator first, or ends the operation. Between two calls nothing else can come in.

A run of nodes is `enter`, then `visit`, `execute` and the effects of the result for one node after
the other. A run remembers the turn it began in; when it finds another one after a pause or an
inquiry, the session has been reset meanwhile and the run ends without a trace.
-/

namespace ChatFlow.Session

/-- A run of nodes: the turn it began in, and the number of nodes it has come to. -/
structure Run where
  turn : Int
  steps : Nat
  deriving DecidableEq, Repr

inductive Instruction
  /-- Put the cursor on the start node. -/
  | start (vars : Fields)
  /-- Resume with a reply of the user if the session waits for one. -/
  | accept (reply : Value)
  /-- Resume if the session waits for speech to be played back. -/
  | acceptPlayback
  | enter
  /-- Look at the node under the cursor, and pause before it. -/
  | visit (run : Run)
  | execute (run : Run) (node : Node)
  /-- Go on from the answer to a node's question. -/
  | conclude (run : Run) (node : Node) (inquiry : Inquiry) (reply : Reply)
  /-- Set the variables of a result and list its effects. -/
  | deliver (run : Run) (node : Node) (result : ExecutionResult)
  | send (m : Message)
  /-- Make a request of a node. -/
  | perform (call : ExternalCall)
  | leave (node : Node) (transition : Transition)
  /-- End the session where no edge leads on. -/
  | close
  /-- End the session because it took too many steps. -/
  | giveUp
  deriving DecidableEq, Repr

inductive Call
  /-- A call whose answer does not matter unless it is an error. -/
  | outward (request : Request)
  /-- The question of a node that is being executed. -/
  | inquire (run : Run) (node : Node) (inquiry : Inquiry)
  deriving DecidableEq, Repr

structure Memory where
  context : Context := .initial
  /-- Why the session failed last. -/
  lastError : Option String := none
  /-- Whether a run has ever been entered. -/
  hasRun : Bool := false
  deriving DecidableEq, Repr, Inhabited

/-- How an operation goes on after an instruction. -/
inductive Outcome
  /-- With these instructions and then the others. -/
  | proceed (todo : List Instruction)
  /-- With a call, then these instructions and then the others. -/
  | call (c : Call) (todo : List Instruction)
  /-- Not at all. -/
  | stop
  /-- Not at all, and the operation fails. -/
  | fail (e : Fault)
  deriving DecidableEq, Repr

/-- The effect of an instruction: events in order, the node that was executed if one was, the new
reason of failure if there is one, and how the operation goes on. -/
structure Performed where
  events : List Event := []
  executed : Option Node := none
  lastError : Option String := none
  entered : Bool := false
  outcome : Outcome
  deriving DecidableEq, Repr

namespace Performed

/-- An instruction that goes on with a value, or fails. -/
def ofExcept {α : Type} (events : List Event) (x : Except Fault α) (f : α → Outcome) : Performed :=
  match x with
  | .ok a => { events := events, outcome := f a }
  | .error e => { events := events, outcome := .fail e }

end Performed

/-- The instructions that carry out a result. A suspension is recorded before its requests are made,
so that every answer finds the session waiting. -/
def delivery (run : Run) (node : Node) (r : ExecutionResult) : List Instruction :=
  let calls := r.calls.map .perform
  let leaving := .leave node r.transition
  r.messages.map .send ++
    (match r.transition with
      | .suspend _ _ => leaving :: calls
      | _ => calls ++ [leaving]) ++
    [.visit run]

namespace Setup

variable (s : Setup)

def sending (m : Message) : Call :=
  .outward (.message (m.stamp s.id))

def requestOf : Call → Request
  | .outward r => r
  | .inquire _ _ (.generate _ prompt) => .generate prompt
  | .inquire _ _ (.act data vars) => .act s.tenant vars data.fields

/-- The node under the cursor, unless the cursor is nowhere or its id is empty. -/
def waitingNode? (c : Context) : Option Node :=
  match c.cursor with
  | some id => if id.isEmpty then none else s.graph.node? id
  | none => none

/-- The setting for the pause before a node. -/
def delayOf (n : Node) : Value :=
  match n.body with
  | .start _ => s.config.startDelay
  | body =>
    match body.common.delay with
    | some ms => .int ms
    | none => s.config.nodeDelay

/-- A result as this session can carry it out: without a synthesizer nothing would ever report that
speech has been played back, so it goes on as in text mode. -/
def feasible (r : ExecutionResult) : ExecutionResult :=
  if r.awaitsPlayback && !s.hasSynthesizer then r.withoutCalls else r

/-- The error that a session fails with after too many steps. -/
def tooManySteps : String := "max_steps_exceeded"

def visit (c : Context) (run : Run) : Performed :=
  if c.turn ≠ run.turn || c.status ≠ .running then { outcome := .stop }
  else
    match c.cursor with
    | none => { outcome := .stop }
    | some id =>
      if id ∈ c.processed then { outcome := .stop }
      else
        match s.graph.node? id with
        | none => { events := [.terminated], outcome := .stop }
        | some node =>
          match EngineConfig.reached s.config.maxSteps run.steps with
          | .error e => { outcome := .fail e }
          | .ok true =>
            .ofExcept [] (notice s.config.stepLimitMessage id) fun m =>
              .call (s.sending m) [.giveUp]
          | .ok false =>
            .ofExcept [] (EngineConfig.pauseOf (s.delayOf node)) fun
              | some seconds =>
                .call (.outward (.sleep seconds))
                  [.execute { run with steps := run.steps + 1 } node]
              | none => .proceed [.execute { run with steps := run.steps + 1 } node]

def execute (c : Context) (run : Run) (node : Node) : Performed :=
  if c.turn ≠ run.turn then { outcome := .stop }
  else
    { Performed.ofExcept [.processed node.id] (s.executor.begin node c.vars s.voiceMode) fun
        | .done r => .proceed [.deliver run node r]
        | .asks q => .call (.inquire run node q) []
      with executed := some node }

def leave (c : Context) (node : Node) : Transition → Performed
  | .advance id => { events := [.moved id], outcome := .proceed [] }
  | .advanceVia port =>
    match s.graph.targets node.id port with
    | id :: _ => { events := [.moved id], outcome := .proceed [] }
    | [] =>
      if c.cursor.isSome then
        .ofExcept [] (notice s.config.endOfFlowMessage node.id) fun m =>
          .call (s.sending m) [.close]
      else { outcome := .proceed [.close] }
  | .suspend reason choices => { events := [.suspended reason choices], outcome := .proceed [] }
  | .terminate => { events := [.terminated], outcome := .proceed [] }
  | .fail error _ => { events := [.failed error], lastError := some error, outcome := .proceed [] }

/-- Resume with a reply: it is kept in the node's variable, and decides on the port of a choice. -/
def accept (c : Context) (reply : Value) : Performed :=
  match s.waitingNode? c with
  | none => { outcome := .stop }
  | some node =>
    if !c.isSuspended || c.awaiting = some .speechPlayback then { outcome := .stop }
    else
      match replyVariable node with
      | .error e => { outcome := .fail e }
      | .ok name =>
        let kept : List Event := if name.isEmpty then [] else [.variablesSet [(name, reply)]]
        let port := if c.awaiting = some .choice then
            matchChoice (node.type? = some .list) c.choices reply
          else .ok none
        match port with
        | .error e => { events := kept, outcome := .fail e }
        | .ok port =>
          { events := kept ++ [.resumed]
            outcome := .proceed [.leave node (.advanceVia port), .enter] }

/-- Resume after speech has been played back. -/
def acceptPlayback (c : Context) : Performed :=
  match s.waitingNode? c with
  | none => { outcome := .stop }
  | some node =>
    if c.awaiting ≠ some .speechPlayback then { outcome := .stop }
    else
      { events := [.resumed], outcome := .proceed [.leave node (.advanceVia none), .enter] }

/-- Make a request of a node. Without a host, nobody is asked for input. -/
def performCall (call : ExternalCall) : Outcome :=
  match call.kind with
  | .textInput => if s.hasHost then .call (.outward .textInput) [] else .proceed []
  | .voiceInput => if s.hasHost then .call (.outward .voiceInput) [] else .proceed []
  | .speech =>
    if s.hasSynthesizer then
      match call.payload.get? "text" with
      | some (.str text) => .call (.outward (.speech text)) []
      | _ => .call (.outward (.speech "")) []
    else .fail .noSuchMember

def perform (c : Context) : Instruction → Performed
  | .start vars =>
    match s.graph.startNode? with
    | some n => { events := [.started (some n.id) vars], outcome := .proceed [.enter] }
    | none =>
      .ofExcept [.started none vars] (notice s.config.missingStartMessage "") fun m =>
        .call (s.sending m) []
  | .accept reply => s.accept c reply
  | .acceptPlayback => s.acceptPlayback c
  | .enter => { entered := true, outcome := .proceed [.visit ⟨c.turn, 0⟩] }
  | .visit run => s.visit c run
  | .execute run node => s.execute c run node
  | .conclude run node inquiry reply =>
    .ofExcept [] (s.executor.conclude node.id inquiry reply) fun r =>
      if c.turn ≠ run.turn then .stop else .proceed [.deliver run node r]
  | .deliver run node result =>
    let r := s.feasible result
    { events := if r.patch.isEmpty then [] else [.variablesSet r.patch]
      outcome := .proceed (delivery run node r) }
  | .send m => { outcome := .call (s.sending m) [] }
  | .perform call => { outcome := s.performCall call }
  | .leave node transition => s.leave c node transition
  | .close => { events := [.terminated], outcome := .proceed [] }
  | .giveUp =>
    { events := [.failed tooManySteps], lastError := some tooManySteps, outcome := .stop }

end Setup

end ChatFlow.Session
