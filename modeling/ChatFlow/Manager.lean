import ChatFlow.Context.Store
import ChatFlow.Registry
import ChatFlow.Simulation.Stage

/-!
# Managing sessions

A manager runs the sessions of many tenants, one for each key, and keeps the latest context of each
in a store. Starting a session under a key that is in use discards the session that was there: it is
reset, and hears no more of its synthesizer. All sessions share one stage, so a report of the
synthesizer reaches every one of them.
-/

namespace ChatFlow

open Session Simulation

/-- What is the same for all sessions of a manager. -/
structure ManagerSetup where
  executor : Executor := {}
  hasHost : Bool := true
  deriving Inhabited

structure Manager (σ : Type) where
  setup : ManagerSetup
  registry : Registry
  stage : Stage σ
  /-- The number of each live session on the stage, by its key. -/
  live : Table String Nat := []
  /-- The flow of each live session, by its key. -/
  flows : Table String FlowId := []
  store : ContextStore := {}

namespace Manager

variable {σ : Type}

/-- The session of a key that is being run. -/
def session? (m : Manager σ) (tenant session : String) : Option Nat :=
  m.live.get? (sessionKey tenant session)

def context? (m : Manager σ) (tenant session : String) : Option Context :=
  m.store.get? tenant session

def flow? (m : Manager σ) (tenant session : String) : Option FlowId :=
  m.flows.get? (sessionKey tenant session)

def sessions (m : Manager σ) (tenant : Option String) : List String :=
  keysOf tenant m.live.keys

def size (m : Manager σ) : Nat := m.live.length

/-- Store the contexts among what was seen, each under the key of its session. -/
def saveAll (m : Manager σ) (entries : List Entry) : Manager σ :=
  entries.foldl
    (fun m e =>
      match e with
      | .context i c =>
        match m.stage.sessions[i]? with
        | some (s, _) => { m with store := m.store.save s.tenant s.id c }
        | none => m
      | _ => m)
    m

/-- Play a cue for a session of the stage and store the contexts that come of it. -/
def play (m : Manager σ) (i : Nat) (c : Cue) : Manager σ × Played :=
  let (stage, played) := m.stage.play i c
  ({ m with stage := stage }.saveAll played.entries, played)

def idle : Played := ⟨[], none⟩

/-- Discard the session of a key: it is reset and stops listening. -/
def discard (m : Manager σ) (key : String) : Manager σ :=
  match m.live.get? key with
  | none => m
  | some i =>
    let m := { m with live := m.live.erase key }
    let m := (m.play i .reset).1
    (m.play i .close).1

/-- The setup of a session that runs a graph. -/
def setupFor (m : Manager σ) (tenant session : String) (graph : FlowGraph) : Setup where
  graph := graph
  executor := m.setup.executor
  tenant := tenant
  id := session
  hasHost := m.setup.hasHost
  hasSynthesizer := m.stage.around.hasSynthesizer

/-- Start a flow in a new session, which takes the place of any other under its key. -/
def start (m : Manager σ) (tenant session : String) (flow : FlowId) (vars : Fields) :
    Manager σ × Played :=
  match m.registry.get? flow with
  | none => (m, ⟨[], some (.error (.unknownFlow flow.toValue))⟩)
  | some graph =>
    let key := sessionKey tenant session
    let m := m.discard key
    let i := m.stage.sessions.length
    let m :=
      { m with
        stage := m.stage.addSession (m.setupFor tenant session graph)
        live := m.live.insert key i
        flows := m.flows.insert key flow }
    m.play i (.issue (.start vars))

/-- Play a cue for the session of a key; nothing happens if there is none. -/
def playFor (m : Manager σ) (tenant session : String) (c : Cue) : Manager σ × Played :=
  match m.session? tenant session with
  | none => (m, idle)
  | some i => m.play i c

/-- Discard the session of a key and forget it. -/
def finish (m : Manager σ) (tenant session : String) : Manager σ :=
  let key := sessionKey tenant session
  let m := m.discard key
  { m with flows := m.flows.erase key, store := m.store.delete tenant session }

def report (m : Manager σ) : Manager σ × Played :=
  m.play 0 .report

/-- Remove a flow; running sessions keep their graph. -/
def unregister (m : Manager σ) (flow : FlowId) : Manager σ :=
  { m with registry := m.registry.unregister flow }

end Manager

end ChatFlow
