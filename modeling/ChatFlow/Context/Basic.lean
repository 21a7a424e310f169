import ChatFlow.Graph.Payload

/-!
# Conversation contexts

A context is the whole state of a session at one moment: an immutable value that is replaced on
every change.
-/

namespace ChatFlow

open Schema

/-- What a suspended session waits for. -/
inductive SuspendReason
  | textInput
  | voiceInput
  | speechPlayback
  | choice
  deriving DecidableEq, Repr, Inhabited

namespace SuspendReason

def name : SuspendReason → String
  | textInput => "text_input"
  | voiceInput => "voice_input"
  | speechPlayback => "speech_playback"
  | choice => "choice"

def ofName? (name : String) : Option SuspendReason :=
  [textInput, voiceInput, speechPlayback, choice].find? (·.name == name)

end SuspendReason

inductive SessionStatus
  | idle
  | running
  | suspended
  | ended
  | failed
  deriving DecidableEq, Repr, Inhabited

namespace SessionStatus

def name : SessionStatus → String
  | idle => "idle"
  | running => "running"
  | suspended => "suspended"
  | ended => "ended"
  | failed => "failed"

def ofName? (name : String) : Option SessionStatus :=
  [idle, running, suspended, ended, failed].find? (·.name == name)

end SessionStatus

/-- The state of a session. `cursor` is the node to execute or waiting at, `processed` the nodes
executed since the cursor last came to them, and `turn` grows with every reset. -/
structure Context where
  vars : Fields := []
  cursor : Option String := none
  processed : List String := []
  status : SessionStatus := .idle
  awaiting : Option SuspendReason := none
  choices : List ChoiceOption := []
  turn : Int := 0
  error : String := ""
  deriving DecidableEq, Repr, Inhabited

namespace Context

/-- The context of a session that has not started, in the given turn. -/
def initial (turn : Int := 0) : Context := { turn := turn }

def isSuspended (c : Context) : Bool := c.status = .suspended

def isFinished (c : Context) : Bool := c.status = .ended || c.status = .failed

def readFields (fs : Fields) : Checked Context :=
  mk <$> field fs ["variables"] Reader.dictionary [] <*>
    field fs ["current_node_id"] (Reader.optional Reader.text) none <*>
    field fs ["processed_nodes"] Reader.set [] <*>
    field fs ["status"] (Reader.member SessionStatus.ofName?) .idle <*>
    field fs ["awaiting"] (Reader.optional (Reader.member SuspendReason.ofName?)) none <*>
    field fs ["active_choices"] (Reader.tuple (Reader.record ChoiceOption.read)) [] <*>
    field fs ["turn"] Reader.integer 0 <*>
    textField fs ["error"]

def read : Reader Context := Reader.record readFields

/-- The processed nodes in the order of their code points. -/
def sortedProcessed (c : Context) : List String :=
  c.processed.mergeSort fun a b => a ≤ b

def toValue (c : Context) : Value :=
  .object [("variables", .object c.vars), ("current_node_id", .ofText? c.cursor),
    ("processed_nodes", .list (c.sortedProcessed.map .str)), ("status", .str c.status.name),
    ("awaiting", .ofText? (c.awaiting.map SuspendReason.name)),
    ("active_choices", .list (c.choices.map ChoiceOption.toValue)), ("turn", .int c.turn),
    ("error", .str c.error)]

end Context

end ChatFlow
