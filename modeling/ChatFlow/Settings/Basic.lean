import ChatFlow.Backend.Config
import ChatFlow.Settings.Engine
import ChatFlow.Settings.Environment

/-!
# Settings

Settings are the defaults with a file laid over them. The last settings that were loaded are kept;
a file that cannot be read as settings leaves them as they were.
-/

namespace ChatFlow

structure Settings where
  appName : Value := .str "FlowEngine"
  debug : Value := .bool false
  engine : EngineConfig := {}
  backend : BackendConfig := {}
  flows : Value := .list []
  deriving DecidableEq, Repr, Inhabited

namespace Settings

/-- A value in the place of an object; anything empty is the empty object. -/
def orEmpty (v : Value) : Value :=
  if v.isTruthy then v else .object []

/-- A part of the settings: the default where the file does not have it. -/
def part {α : Type} (fs : Fields) (name : String) (default : α) (read : Value → Except Fault α) :
    Except Fault α :=
  match fs.get? name with
  | none => .ok default
  | some v => read (orEmpty v)

/-- The settings that the fields of a file describe. -/
def ofFields (fs : Fields) : Except Fault Settings := do
  let d : Settings := {}
  let engine ← part fs "engine" d.engine EngineConfig.ofValue
  let backend ← part fs "backend" d.backend BackendConfig.ofFile
  return {
    appName := (fs.get? "app_name").getD d.appName
    debug := (fs.get? "debug").getD d.debug
    engine := engine
    backend := backend
    flows := (fs.get? "flows").getD d.flows }

/-- The settings of a file, its variables not yet put in. -/
def ofFile (env : Environment.Variables) (content : Value) : Except Fault Settings :=
  match Environment.expand env (orEmpty content) with
  | .object fs => ofFields fs
  | _ => .error .noSuchMember

/-- The file that comes with the program. -/
def standardFile : Value :=
  .object
    [("app_name", .str "FlowEngine"), ("debug", .bool false),
      ("engine", .object
        [("default_node_delay_ms", .int 700), ("start_delay_ms", .int 500),
          ("voice_mode", .bool false), ("max_steps_per_turn", .int 50)]),
      ("backend", .object
        [("base_url", .str "$\x7bFLOW_BACKEND_URL\x7d"), ("auth_type", .str "bearer"),
          ("auth_credentials", .object [("token", .str "$\x7bFLOW_BACKEND_TOKEN\x7d")]),
          ("endpoints", .object
            [("ai", .str "/api/chatbot/ai"), ("actions", .str "/api/chatbot/actions")]),
          ("timeout_seconds", .int 30), ("retry_attempts", .int 3),
          ("retry_backoff_seconds", .int 1)]),
      ("flows", .list [])]

def fields (s : Settings) : Fields :=
  [("app_name", s.appName), ("debug", s.debug), ("engine", .object s.engine.fields),
    ("backend", .object s.backend.fields), ("flows", s.flows)]

/-- Where settings are read from. -/
inductive Source
  | file (content : Value)
  /-- A place where there is no file. -/
  | nowhere
  /-- The file that comes with the program. -/
  | standard
  deriving DecidableEq, Repr

def read (env : Environment.Variables) : Source → Except Fault Settings
  | .file content => ofFile env content
  | .nowhere => .ok {}
  | .standard => ofFile env standardFile

def pathVariable : String := "FLOW_ENGINE_CONFIG"

/-- Where settings are read from if nothing else is said. An environment that names a file names one
that is not there. -/
def defaultSource (env : Environment.Variables) : Source :=
  if env.has pathVariable then .nowhere else .standard

/-- The settings that were loaded last. -/
structure Cache where
  current : Option Settings := none
  deriving DecidableEq, Repr, Inhabited

namespace Cache

/-- Load settings; they are kept if they can be read. -/
def load (c : Cache) (env : Environment.Variables) (source : Source) :
    Except Fault Settings × Cache :=
  match read env source with
  | .ok s => (.ok s, ⟨some s⟩)
  | .error e => (.error e, c)

/-- The settings that are kept, or those of the default source. -/
def get (c : Cache) (env : Environment.Variables) : Except Fault Settings × Cache :=
  match c.current with
  | some s => (.ok s, c)
  | none => c.load env (defaultSource env)

end Cache

end Settings

end ChatFlow
