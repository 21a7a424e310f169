import ChatFlow.Action.Outcome
import ChatFlow.Backend.Address
import ChatFlow.Backend.Config
import ChatFlow.Backend.Retry
import ChatFlow.Json.Reader

/-!
# The client of a backend

The client posts objects to named endpoints. A network error, a response that asks for patience and
an error of the server are transient, and the request is made again. A request that the backend
rejects, and a body that is not an object, are errors of the configuration. The connection is opened
with the first request and keeps its headers until it is closed.
-/

namespace ChatFlow.Backend

inductive Body
  | text (s : String)
  | value (v : Value)
  deriving DecidableEq, Repr

/-- The value of a body, if it has one. An absent value leaves the body empty. -/
def Body.value? : Body → Option Value
  | value .null => none
  | value v => some v
  | text s =>
    match s.toList with
    | '\uFEFF' :: rest => Json.parse (String.ofList rest)
    | _ => Json.parse s

/-- What comes back for a request. -/
inductive Delivery
  | response (status : Int) (body : Body)
  | unreachable (message : String)
  | raised (e : Fault)
  deriving DecidableEq, Repr

structure Sent where
  url : String
  headers : Table String String
  body : Fields
  deriving DecidableEq, Repr

/-- The name of a kind of values, as messages name it. -/
def kindName : Value → String
  | .null => "NoneType"
  | .bool _ => "bool"
  | .int _ => "int"
  | .float _ => "float"
  | .str _ => "str"
  | .list _ => "list"
  | .object _ => "dict"

/-- An error of the configuration, said of an endpoint. -/
def misconfigured (endpoint said : String) : Fault :=
  .engine (.misconfigured ("Backend '" ++ endpoint ++ "' " ++ said))

/-- The object that a delivery brings. -/
def receive (endpoint : String) : Delivery → Except Fault Fields
  | .unreachable m =>
    .error (.engine (.transient ("Request to '" ++ endpoint ++ "' failed: " ++ m) "" 0))
  | .raised e => .error e
  | .response status body =>
    if status = 429 ∨ 500 ≤ status then
      .error (.engine (.transient ("Backend '" ++ endpoint ++ "' returned " ++ toString status) ""
        status))
    else if 400 ≤ status then
      .error (misconfigured endpoint ("rejected the request (" ++ toString status ++ ")"))
    else
      match body.value? with
      | none => .error (misconfigured endpoint "returned a non-JSON body")
      | some (.object fs) => .ok fs
      | some v => .error (misconfigured endpoint ("returned " ++ kindName v ++ ", expected object"))

structure Connection where
  baseUrl : String
  headers : Table String String := []
  deriving DecidableEq, Repr

/-- A client with its settings, and its connection if one is open. -/
structure Client where
  config : BackendConfig := {}
  connection : Option Connection := none
  deriving DecidableEq, Repr, Inhabited

/-- What a request to an endpoint led to. -/
abbrev Exchange (α : Type) := Retry.Course Sent α

namespace Exchange

/-- A request that failed before anything was sent. -/
def failed {α : Type} (e : Fault) : Exchange α := { result := .error e }

/-- The exchange with its result read further. -/
def bind {α β : Type} (x : Exchange α) (f : α → Except Fault β) : Exchange β :=
  { acts := x.acts, result := x.result.bind f }

end Exchange

/-- A header as it is sent: both parts are texts of ASCII characters, and the name is in small
letters. -/
def header : Value × Value → Except Fault (String × String)
  | (.str name, .str value) =>
    if (name ++ value).toList.all (·.toNat < 0x80) then .ok (name.map Char.toLower, value)
    else .error .wrongValue
  | (.str _, _) => .error .wrongKind
  | _ => .error .noSuchMember

namespace Client

/-- The open connection, or a new one. -/
def connect (c : Client) : Except Fault Connection :=
  match c.connection with
  | some k => .ok k
  | none => do
    let headers ← c.config.authorization
    match c.config.baseUrl with
    | .str url => return { baseUrl := url, headers := Table.ofEntries (← headers.mapM header) }
    | _ => throw .wrongKind

def close (c : Client) : Client :=
  { c with connection := none }

/-- The path of a named endpoint; a name without one stands for itself. -/
def path (c : Client) (endpoint : String) : Except Fault String :=
  match c.config.endpoints with
  | .object fs =>
    match (Table.get? fs endpoint).getD (.str endpoint) with
    | .str s => .ok s
    | _ => .error .wrongKind
  | _ => .error .noSuchMember

variable {σ : Type}

/-- Post an object to an endpoint. `transport` delivers what comes back for each request. -/
def post (transport : Sent → σ → Delivery × σ) (c : Client) (endpoint : String) (payload : Fields)
    (s : σ) : Exchange Fields × Client × σ :=
  match Retry.attempts c.config.retryAttempts with
  | .error e => (.failed e, c, s)
  | .ok attempts =>
    match c.connect with
    | .error e => (.failed e, c, s)
    | .ok k =>
      let c := { c with connection := some k }
      match c.path endpoint with
      | .error e => (.failed e, c, s)
      | .ok path =>
        let request : Sent := ⟨Address.join k.baseUrl path, k.headers, payload⟩
        let call (request : Sent) (s : σ) :=
          let (d, s) := transport request s
          (receive endpoint d, s)
        let pauseBefore := Retry.pause c.config.retryBackoff
        let (x, s) := Retry.persist call pauseBefore request (attempts - 1) 0 s
        (x, c, s)

/-- The names under which a reply may be found, the first one that is there being meant. -/
def replyNames : List String := ["text", "response", "message"]

/-- The text of a reply. -/
def replyText (body : Fields) : Except Fault String :=
  match (Schema.presentName body replyNames).bind (Table.get? body) with
  | some (.str s) => .ok s
  | _ => .error (.engine (.misconfigured "AI endpoint response has no text"))

def generate (transport : Sent → σ → Delivery × σ) (c : Client) (prompt : String) (s : σ) :
    Exchange String × Client × σ :=
  let (x, c, s) := c.post transport "ai" [("prompt", .str prompt)] s
  (Exchange.bind x replyText, c, s)

/-- The outcome that a reply to an action holds. -/
def outcome (body : Fields) : Except Fault ActionOutcome :=
  match ActionOutcome.readFields body with
  | .valid o => .ok o
  | .faulty _ => .error (.engine (.misconfigured "Action endpoint response has no port"))

/-- What the backend is told of an action. -/
def actionPayload (tenant : String) (vars config : Fields) : Fields :=
  [("tenantId", .str tenant), ("action", (config.get? "action").getD (.str "")),
    ("context", .object vars), ("config", .object config)]

def execute (transport : Sent → σ → Delivery × σ) (c : Client) (tenant : String)
    (vars config : Fields) (s : σ) : Exchange ActionOutcome × Client × σ :=
  let (x, c, s) := c.post transport "actions" (actionPayload tenant vars config) s
  (Exchange.bind x outcome, c, s)

end Client

end ChatFlow.Backend
