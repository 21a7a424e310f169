import ChatFlow.Graph.Authored
import ChatFlow.Value.Display

/-!
# Backend settings

The settings of the backend are kept as they are given. `authorization` makes the header that
identifies the caller.
-/

namespace ChatFlow

/-- How to reach a backend. -/
structure BackendConfig where
  baseUrl : Value := .str ""
  authType : Value := .str "bearer"
  authCredentials : Value := .object []
  endpoints : Value :=
    .object [("ai", .str "/api/chatbot/ai"), ("actions", .str "/api/chatbot/actions")]
  timeout : Value := .float (.ofInt 30)
  retryAttempts : Value := .int 3
  retryBackoff : Value := .float (.ofInt 1)
  deriving DecidableEq, Repr, Inhabited

namespace BackendConfig

def fields (c : BackendConfig) : Fields :=
  [("base_url", c.baseUrl), ("auth_type", c.authType), ("auth_credentials", c.authCredentials),
    ("endpoints", c.endpoints), ("timeout_seconds", c.timeout),
    ("retry_attempts", c.retryAttempts), ("retry_backoff_seconds", c.retryBackoff)]

def names : List String := (fields {}).keys

/-- The settings that given fields name, and the defaults of all others. -/
def overlay (fs : Fields) : BackendConfig :=
  let d : BackendConfig := {}
  let get (name : String) (default : Value) := (fs.get? name).getD default
  { baseUrl := get "base_url" d.baseUrl
    authType := get "auth_type" d.authType
    authCredentials := get "auth_credentials" d.authCredentials
    endpoints := get "endpoints" d.endpoints
    timeout := get "timeout_seconds" d.timeout
    retryAttempts := get "retry_attempts" d.retryAttempts
    retryBackoff := get "retry_backoff_seconds" d.retryBackoff }

/-- The settings of fields that name nothing else. -/
def ofFields (fs : Fields) : Except Fault BackendConfig :=
  if fs.keys.all (· ∈ names) then .ok (overlay fs) else .error .wrongKind

/-- The endpoints of a settings file, laid over the standard ones. -/
def mergeEndpoints (v : Value) : Except Fault Value :=
  match v with
  | .object fs =>
    let standard := match (BackendConfig.endpoints {}) with
      | .object d => d
      | _ => []
    .ok (.object (Table.merge standard fs))
  | _ => .error .wrongKind

/-- The settings of the backend in a settings file. Unknown names have no effect. -/
def ofFile : Value → Except Fault BackendConfig
  | .object fs => do
    let endpoints ← mergeEndpoints ((Table.get? fs "endpoints").getD (.object []))
    return { overlay fs with endpoints := endpoints }
  | _ => .error .noSuchMember

/-- A credential, or another value if it is not given. -/
def credential (c : BackendConfig) (name : String) (default : Value) : Except Fault Value :=
  match c.authCredentials with
  | .object fs => .ok ((Table.get? fs name).getD default)
  | _ => .error .noSuchMember

/-- The headers that identify the caller: a bearer token, or a key under a name of its own. -/
def authorization (c : BackendConfig) : Except Fault (Table Value Value) :=
  if c.authType = .str "bearer" then do
    let token ← c.credential "token" (.str "")
    return [(.str "Authorization", .str ("Bearer " ++ token.display))]
  else if c.authType = .str "api_key" then do
    let name ← c.credential "header_name" (.str "X-API-Key")
    let key ← c.credential "api_key" (.str "")
    match name with
    | .list _ => throw .wrongKind
    | .object _ => throw .wrongKind
    | _ => return [(name, key)]
  else return []

end BackendConfig

end ChatFlow
