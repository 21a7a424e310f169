/-!
# Node types
-/

namespace ChatFlow

/-- The kinds of nodes that the engine knows how to execute. -/
inductive NodeType
  | start
  | message
  | aiResponse
  | input
  | condition
  | tts
  | stt
  | ending
  | businessAction
  | buttons
  | list
  deriving DecidableEq, Repr, Inhabited

namespace NodeType

def all : List NodeType :=
  [start, message, aiResponse, input, condition, tts, stt, ending, businessAction, buttons, list]

def name : NodeType → String
  | start => "start"
  | message => "message"
  | aiResponse => "ai-response"
  | input => "input"
  | condition => "condition"
  | tts => "tts"
  | stt => "stt"
  | ending => "end"
  | businessAction => "business-action"
  | buttons => "buttons"
  | list => "list"

def ofName? (name : String) : Option NodeType :=
  all.find? (·.name == name)

/-- The names that authors have used for the node types, canonical ones included. -/
def aliases : List (String × NodeType) :=
  [("start", start), ("startNode", start),
    ("message", message), ("messageNode", message), ("text", message),
    ("ai-response", aiResponse), ("aiNode", aiResponse), ("ai", aiResponse),
    ("input", input), ("inputNode", input),
    ("condition", condition), ("conditionNode", condition),
    ("tts", tts), ("ttsNode", tts), ("text-to-speech", tts),
    ("stt", stt), ("sttNode", stt), ("speech-to-text", stt),
    ("end", ending), ("endNode", ending),
    ("buttons", buttons), ("buttonsNode", buttons),
    ("list", list), ("listNode", list),
    ("business-action", businessAction)]

@[simp] theorem mem_all (t : NodeType) : t ∈ all := by cases t <;> decide

@[simp] theorem ofName?_name (t : NodeType) : ofName? t.name = some t := by cases t <;> decide

theorem name_of_ofName? {s : String} {t : NodeType} (h : ofName? s = some t) : t.name = s := by
  simpa using List.find?_some h

end NodeType

end ChatFlow
