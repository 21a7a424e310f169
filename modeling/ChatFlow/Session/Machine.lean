import ChatFlow.Session.Instruction

/-!
# Sessions as machines

A session carries out operations one at a time: the operation that holds the session goes on
instruction by instruction, and the others wait in the order in which they came. Whatever comes from
outside is a `Move`: a new operation, the answer to a call, a reset, a report of the synthesizer.
`State.step` makes one move and lists what happened.

Three things do not wait. A reply that comes while nodes are being run is dropped at once, so that
it never answers a question the user has not seen. A spoken reply is shown as a message before it is
submitted. A reset takes effect in the middle of whatever is going on.

A report that speech has been played back may come at any time, from inside the call that plays it
too. It is noted down, and becomes an operation of its own when the note `arrives`.
-/

namespace ChatFlow.Session

/-- The operation that holds a session: what it has left to do, and the call it waits for. -/
structure Holder where
  op : Nat
  agenda : List Instruction
  call : Option Call := none
  deriving DecidableEq, Repr

/-- A session at one moment. Operations are numbered in the order in which they begin. -/
structure State where
  memory : Memory := {}
  holder : Option Holder := none
  /-- The operations that wait for the session. -/
  queue : List (Nat × Instruction) := []
  /-- The spoken replies that are being shown. -/
  echoes : List (Nat × Value) := []
  /-- The reported playbacks that have not arrived yet. -/
  scheduled : List Nat := []
  /-- Whether the session listens to its synthesizer. -/
  subscribed : Bool := true
  nextOp : Nat := 0
  deriving DecidableEq, Repr, Inhabited

/-- What can come from outside, and the two ways in which a session goes on by itself. -/
inductive Move
  | begin (operation : Operation)
  | answer (op : Nat) (reply : Reply)
  /-- The operation that holds the session performs its next instruction. -/
  | tick
  /-- The first operation in the queue gets the session. -/
  | grant
  /-- A reported playback becomes an operation. -/
  | arrive
  | reset
  | restore (c : Context)
  /-- The synthesizer reports a playback. -/
  | notify
  /-- The synthesizer reports a playback from a place of its own; nobody listens there before the
  first run. -/
  | notifyFromAfar
  /-- The session no longer listens to its synthesizer. -/
  | unsubscribe
  deriving DecidableEq, Repr

inductive Happening
  /-- An event has led to a new context. -/
  | changed (event : Event) (c : Context)
  | restored (c : Context)
  /-- A node has been executed as far as it goes without outside help. -/
  | executed (node : Node)
  /-- An operation calls a collaborator. -/
  | called (op : Nat) (request : Request)
  /-- A reported playback is noted down. -/
  | scheduled (op : Nat)
  /-- An operation is over, with the context at its end or an error. -/
  | finished (op : Nat) (result : Except Fault Context)

namespace Memory

/-- The memory after events, and the contexts on the way. -/
def applyAll (m : Memory) : List Event → Memory × List Happening
  | [] => (m, [])
  | e :: rest =>
    let c := m.context.apply e
    let (m', log) := applyAll { m with context := c } rest
    (m', .changed e c :: log)

end Memory

namespace State

/-- Whether the session is free for another operation at once. -/
def isFree (st : State) : Bool :=
  st.holder.isNone && st.queue.isEmpty

/-- Whether the session waits for something from outside or has nothing to do. -/
def isSettled (st : State) : Bool :=
  match st.holder with
  | none => true
  | some h => h.call.isSome

/-- Give the session to an operation, or let it wait. -/
def acquire (st : State) (op : Nat) (first : Instruction) : State :=
  if st.isFree then { st with holder := some { op := op, agenda := [first] } }
  else { st with queue := st.queue ++ [(op, first)] }

/-- Submit a reply; it is dropped while nodes are being run. -/
def submit (st : State) (op : Nat) (reply : Value) : State × List Happening :=
  if st.memory.context.status = .running then (st, [.finished op (.ok st.memory.context)])
  else (st.acquire op (.accept reply), [])

def begin (s : Setup) (st : State) (operation : Operation) : State × List Happening :=
  let op := st.nextOp
  let st := { st with nextOp := op + 1 }
  match operation with
  | .start vars => (st.acquire op (.start vars), [])
  | .run => (st.acquire op .enter, [])
  | .submit reply => st.submit op reply
  | .transcript text =>
    match EngineConfig.contentOf text with
    | .error e => (st, [.finished op (.error e)])
    | .ok content =>
      ({ st with echoes := st.echoes ++ [(op, text)] },
        [.called op (.message (Message.stamp s.id { content := content, sender := .user }))])
  | .speechComplete => (st.acquire op .acceptPlayback, [])

def answer (st : State) (op : Nat) (reply : Reply) : State × List Happening :=
  match st.echoes.find? (·.1 == op) with
  | some (_, text) =>
    let st := { st with echoes := st.echoes.filter (·.1 ≠ op) }
    match reply with
    | .raised e => (st, [.finished op (.error e)])
    | _ => st.submit op text
  | none =>
    match st.holder with
    | some { op := holder, agenda := agenda, call := some call } =>
      if holder ≠ op then (st, [])
      else
        match call, reply with
        | .inquire run node inquiry, reply =>
          ({ st with holder := some ⟨op, .conclude run node inquiry reply :: agenda, none⟩ }, [])
        | .outward _, .raised e => ({ st with holder := none }, [.finished op (.error e)])
        | .outward _, _ => ({ st with holder := some ⟨op, agenda, none⟩ }, [])
    | _ => (st, [])

def tick (s : Setup) (st : State) : State × List Happening :=
  match st.holder with
  | some { op := op, agenda := [], call := none } =>
    ({ st with holder := none }, [.finished op (.ok st.memory.context)])
  | some { op := op, agenda := first :: rest, call := none } =>
    let p := s.perform st.memory.context first
    let (memory, log) := st.memory.applyAll p.events
    let memory :=
      { memory with
        lastError := p.lastError.or memory.lastError
        hasRun := memory.hasRun || p.entered }
    let st := { st with memory := memory }
    let log := log ++ p.executed.toList.map .executed
    match p.outcome with
    | .proceed todo => ({ st with holder := some ⟨op, todo ++ rest, none⟩ }, log)
    | .call c todo =>
      ({ st with holder := some ⟨op, todo ++ rest, some c⟩ }, log ++ [.called op (s.requestOf c)])
    | .stop => ({ st with holder := some ⟨op, [], none⟩ }, log)
    | .fail e => ({ st with holder := none }, log ++ [.finished op (.error e)])
  | _ => (st, [])

/-- Note down a reported playback. -/
def schedule (st : State) : State × List Happening :=
  ({ st with scheduled := st.scheduled ++ [st.nextOp], nextOp := st.nextOp + 1 },
    [.scheduled st.nextOp])

def step (s : Setup) (st : State) : Move → State × List Happening
  | .begin operation => st.begin s operation
  | .answer op reply => st.answer op reply
  | .tick => st.tick s
  | .grant =>
    match st.holder, st.queue with
    | none, (op, first) :: queue =>
      ({ st with holder := some { op := op, agenda := [first] }, queue := queue }, [])
    | _, _ => (st, [])
  | .arrive =>
    match st.scheduled with
    | op :: rest => ({ st with scheduled := rest }.acquire op .acceptPlayback, [])
    | [] => (st, [])
  | .reset =>
    let (memory, log) := st.memory.applyAll [.reset]
    ({ st with memory := memory }, log)
  | .restore c => ({ st with memory := { st.memory with context := c } }, [.restored c])
  | .notify => if st.subscribed then st.schedule else (st, [])
  | .notifyFromAfar => if st.subscribed && st.memory.hasRun then st.schedule else (st, [])
  | .unsubscribe => ({ st with subscribed := false }, [])

end State

end ChatFlow.Session
