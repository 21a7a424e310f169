import ChatFlow.Graph.Basic
import ChatFlow.Value.Display

/-!
# Errors

`EngineError` holds the errors that the engine raises on its own account, each with its wording.
`Fault` is everything that can end an operation: those errors, values that failed their checks,
unsound graphs, errors of collaborators, and values used against their kind.
-/

namespace ChatFlow

/-- An error of the engine, with the node it concerns. -/
inductive EngineError
  | general (message : String) (node : String) (retryable : Bool)
  /-- An authoring or deployment gap. -/
  | configuration (message : String) (node : String) (retryable : Bool)
  /-- A call to the outside failed and may be tried again. -/
  | transient (message : String) (node : String) (status : Int)
  | limitExceeded (node : String) (attempts limit : Int)
  /-- An adapter answered with a port that its node does not declare. -/
  | contractViolation (node : String) (port : String) (declared : List String)
  /-- No edge leaves the node through the port. -/
  | unreachable (node : String) (port : Option String)
  deriving DecidableEq, Repr

namespace EngineError

def message : EngineError → String
  | general m _ _ => m
  | configuration m _ _ => m
  | transient m _ _ => m
  | limitExceeded node attempts limit =>
    "Attempt limit reached (" ++ toString attempts ++ "/" ++ toString limit ++ ") for node '" ++
      node ++ "'"
  | contractViolation node port declared =>
    "Adapter returned undeclared port '" ++ port ++ "' for node '" ++ node ++ "' (declared: " ++
      ", ".intercalate declared ++ ")"
  | unreachable node port =>
    "No outgoing edge from '" ++ node ++ "' (port=" ++ port.getD "None" ++ ")"

def node : EngineError → String
  | general _ n _ => n
  | configuration _ n _ => n
  | transient _ n _ => n
  | limitExceeded n _ _ => n
  | contractViolation n _ _ => n
  | unreachable n _ => n

/-- Whether the same call may succeed later. -/
def retryable : EngineError → Bool
  | general _ _ r => r
  | configuration _ _ r => r
  | transient .. => true
  | _ => false

/-- An authoring or deployment gap that does not concern a node. -/
def misconfigured (message : String) : EngineError := .configuration message "" false

end EngineError

inductive GraphTrouble
  | missingId
  | invalidPart (issues : List Schema.Issue)
  /-- The parts do not make a sound graph. -/
  | unsound (errors : List String)
  deriving DecidableEq, Repr

namespace GraphTrouble

/-- The texts of the single errors; issues of a part have none here. -/
def errors : GraphTrouble → List String
  | missingId => ["'id'"]
  | invalidPart _ => []
  | unsound errors => errors

/-- The wording for the flow of the given id. -/
def message (flow : Value) (t : GraphTrouble) : String :=
  "Invalid flow graph '" ++ flow.display ++ "': " ++ "; ".intercalate t.errors

end GraphTrouble

/-- Everything that can end an operation. -/
inductive Fault
  | engine (e : EngineError)
  | invalid (issues : List Schema.Issue)
  /-- An authored graph was refused. -/
  | graph (flow : Value) (trouble : GraphTrouble)
  | unknownFlow (id : Value)
  /-- A collaborator failed for a reason of its own. -/
  | unexpected (message : String)
  | missingKey (key : String)
  /-- An operation does not exist for values of this kind. -/
  | wrongKind
  /-- A value of the right kind is not acceptable. -/
  | wrongValue
  /-- A value has no part or method of the name asked for. -/
  | noSuchMember
  | overflow
  deriving DecidableEq, Repr

namespace Fault

/-- The text of an error as it is kept in metadata. -/
def text : Fault → String
  | engine e => e.message
  | invalid issues => toString issues.length ++ " validation errors"
  | graph flow trouble => trouble.message flow
  | unknownFlow id => id.display
  | unexpected message => message
  | missingKey key => "'" ++ key ++ "'"
  | wrongKind => "wrong kind of value"
  | wrongValue => "unacceptable value"
  | noSuchMember => "no such member"
  | overflow => "number too large"

end Fault

end ChatFlow
