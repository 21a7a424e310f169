import ChatFlow.Graph.Authored

/-!
# The registry of flows

The registry keeps the graph and the name of every flow under the flow's id, in the order in which
the ids were first registered. Registering an id again replaces its graph and name in place; numbers
that are equal are one id, which is listed as it was given first. A graph that is refused leaves the
registry as it was, and a list of flows is registered up to the first one that is refused.
-/

namespace ChatFlow

/-- What a flow can be registered under: a text, or any other value without parts. -/
inductive FlowId
  | text (s : String)
  | null
  | bool (b : Bool)
  | int (n : Int)
  | float (x : Double)
  deriving DecidableEq, Repr

namespace FlowId

/-- The id that a value amounts to; lists and objects are none. -/
def ofValue : Value → Except Fault FlowId
  | .str s => .ok (text s)
  | .null => .ok null
  | .bool b => .ok (bool b)
  | .int n => .ok (int n)
  | .float x => .ok (float x)
  | .list _ => .error .wrongKind
  | .object _ => .error .wrongKind

def toValue : FlowId → Value
  | text s => .str s
  | null => .null
  | bool b => .bool b
  | int n => .int n
  | float x => .float x

@[simp] theorem ofValue_toValue (id : FlowId) : ofValue id.toValue = .ok id := by
  cases id <;> rfl

/-- What an id is known by. A truth value is known as one or zero, and a number without fraction as
an integer. -/
def canonical : FlowId → FlowId
  | bool b => int (if b then 1 else 0)
  | float x => if x.isIntegral then int (x.truncate?.getD 0) else float x
  | id => id

theorem toValue_canonical (id : FlowId) :
    id.canonical.toValue = Authored.canonicalKey id.toValue := by
  cases id with
  | float x => by_cases h : x.isIntegral <;> simp [canonical, toValue, Authored.canonicalKey, h]
  | _ => rfl

end FlowId

/-- Flows under what their ids are known by. -/
structure Registry where
  graphs : Table FlowId FlowGraph := []
  names : Table FlowId Value := []
  /-- The ids as they were given when they came, in that order. -/
  given : Table FlowId FlowId := []
  deriving Inhabited

namespace Registry

/-- Register a graph. A name that is empty gives way to the id. -/
def register (r : Registry) (id : FlowId) (g : FlowGraph) (name : Value) : Registry :=
  let key := id.canonical
  { graphs := r.graphs.insert key g
    names := r.names.insert key (if name.isTruthy then name else id.toValue)
    given := if r.given.has key then r.given else r.given.insert key id }

def registerAuthored (r : Registry) (id authored name : Value) :
    Except Fault (Registry × FlowGraph) := do
  let g ← FlowGraph.parse id authored
  return (r.register (← FlowId.ofValue id) g name, g)

/-- The authored graph of an entry: under its own field, under the field of the editor, or the entry
itself. -/
def entryGraph (fs : Fields) : Value :=
  let graph := (fs.get? "graph").getD .null
  let editor := (fs.get? "react_flow_json").getD .null
  if graph.isTruthy then graph else if editor.isTruthy then editor else .object fs

/-- Register the flow of one entry of a list. -/
def registerEntry (r : Registry) : Value → Except Fault Registry
  | .object fs =>
    match Table.get? fs "id" with
    | none => .error (.missingKey "id")
    | some id => do
      let name := (Table.get? fs "name").getD (.str "")
      return (← r.registerAuthored id (entryGraph fs) name).1
  | _ => .error .noSuchMember

/-- Register entries one after the other up to the first that is refused. -/
def registerEntries (r : Registry) : List Value → Registry × Option Fault
  | [] => (r, none)
  | entry :: rest =>
    match r.registerEntry entry with
    | .ok r => r.registerEntries rest
    | .error e => (r, some e)

def registerAll (r : Registry) (config : Value) : Registry × Option Fault :=
  match Authored.elements config with
  | .ok entries => r.registerEntries entries
  | .error e => (r, some e)

def get? (r : Registry) (id : FlowId) : Option FlowGraph :=
  r.graphs.get? id.canonical

/-- The name of a flow, or its id if there is no such flow. -/
def name (r : Registry) (id : FlowId) : Value :=
  (r.names.get? id.canonical).getD id.toValue

def ids (r : Registry) : List FlowId :=
  r.given.map Prod.snd

def unregister (r : Registry) (id : FlowId) : Registry :=
  let key := id.canonical
  { graphs := r.graphs.erase key, names := r.names.erase key, given := r.given.erase key }

end Registry

end ChatFlow
