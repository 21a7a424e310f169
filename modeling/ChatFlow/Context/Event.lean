import ChatFlow.Context.Basic

/-!
# Context events

Every change of a context is an event. `Context.apply` gives the next context and leaves the old
one as it was.
-/

namespace ChatFlow

/-- What can happen to a session. -/
inductive Event
  /-- The flow begins at a node; without one it has ended already. -/
  | started (node : Option String) (vars : Fields)
  /-- The cursor comes to a node, which may be executed again. -/
  | moved (node : String)
  /-- A node is about to be executed. -/
  | processed (node : String)
  | variablesSet (values : Fields)
  | suspended (reason : SuspendReason) (choices : List ChoiceOption)
  | resumed
  | terminated
  | failed (error : String)
  /-- The session is discarded, and a new turn begins. -/
  | reset
  deriving DecidableEq, Repr

namespace Context

def apply (c : Context) : Event → Context
  | .started node vars =>
    { vars := vars
      cursor := node
      status := if (node.getD "").isEmpty then .ended else .running
      turn := c.turn }
  | .moved node =>
    { c with
      cursor := some node
      processed := c.processed.filter (· ≠ node)
      status := .running
      awaiting := none
      choices := [] }
  | .processed node =>
    { c with processed := if node ∈ c.processed then c.processed else c.processed ++ [node] }
  | .variablesSet values => { c with vars := c.vars.merge values }
  | .suspended reason choices =>
    { c with status := .suspended, awaiting := some reason, choices := choices }
  | .resumed => { c with status := .running, awaiting := none, choices := [] }
  | .terminated => { c with cursor := none, status := .ended, awaiting := none, choices := [] }
  | .failed error =>
    { c with cursor := none, status := .failed, awaiting := none, choices := [], error := error }
  | .reset => initial (c.turn + 1)

end Context

/-- Whether an event leaves every context the very same value. -/
def Event.isIdle : Event → Bool
  | .variablesSet [] => true
  | _ => false

end ChatFlow
