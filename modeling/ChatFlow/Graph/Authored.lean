import ChatFlow.Action.Profile
import ChatFlow.Fault

/-!
# Authored graphs

Editors have used several names for the node types, and save business actions under the name of the
action. `AuthoredNode.ofValue` settles both; `FlowGraph.parse` does so for all nodes of a graph,
reads nodes and edges, and checks the whole.

A payload may also be given as a list of pairs, and then its keys need not be texts. Those that are
not name no field, but they are not lost: they stand against a payload that keeps all it is given.
-/

namespace ChatFlow

open Schema

namespace Authored

/-- What was given as a payload: its fields, and what stands under keys that are no texts. -/
structure Payload where
  fields : Fields := []
  strays : List (Value × Value) := []
  deriving DecidableEq, Repr

/-- A value that can be a key. -/
def key : Value → Except Fault Value
  | .list _ => .error .wrongKind
  | .object _ => .error .wrongKind
  | k => .ok k

/-- A key and a value from something with two parts. -/
def pair : Value → Except Fault (Value × Value)
  | .list [k, v] => do return (← key k, v)
  | .list _ => .error .wrongValue
  | .str s =>
    match s.toList with
    | [k, v] => .ok (.str k.toString, .str v.toString)
    | _ => .error .wrongValue
  | .object [(k, _), (v, _)] => .ok (.str k, .str v)
  | .object _ => .error .wrongValue
  | _ => .error .wrongKind

/-- What a key is known by. A truth value is known as one or zero, and a number without fraction as
an integer. -/
def canonicalKey : Value → Value
  | .bool b => .int (if b then 1 else 0)
  | .float x => if x.isIntegral then .int (x.truncate?.getD 0) else .float x
  | k => k

/-- The entries with a key set to a value; the key stays as it was given first. -/
def enter : List (Value × Value) → Value → Value → List (Value × Value)
  | [], k, v => [(k, v)]
  | (l, w) :: rest, k, v =>
    if canonicalKey l = canonicalKey k then (l, v) :: rest else (l, w) :: enter rest k v

namespace Payload

def insert (p : Payload) (k v : Value) : Payload :=
  match k with
  | .str name => { p with fields := p.fields.insert name v }
  | _ => { p with strays := enter p.strays k v }

def ofEntries (entries : List (Value × Value)) : Payload :=
  entries.foldl (fun p e => p.insert e.1 e.2) {}

end Payload

/-- What a value in the place of a payload amounts to: nothing for an empty one, the fields of an
object, or what is given as pairs. -/
def payload (v : Value) : Except Fault Payload :=
  if !v.isTruthy then .ok {}
  else
    match v with
    | .object fields => .ok { fields }
    | .list pairs => do return Payload.ofEntries (← pairs.mapM pair)
    | .str _ => .error .wrongValue
    | _ => .error .wrongKind

/-- The place of what stands under a key. An integer of more than 64 bits goes by its text, as does
every other key that is no integer. -/
def keyStep : Value → Step
  | .bool b => .key (if b then 1 else 0)
  | .int n =>
    if Int64.minValue.toInt ≤ n ∧ n ≤ Int64.maxValue.toInt then .key n else .field (toString n)
  | k => .field k.display

/-- The elements of something that can be walked through. -/
def elements : Value → Except Fault (List Value)
  | .list vs => .ok vs
  | .object fields => .ok (fields.map fun e => .str e.1)
  | .str s => .ok (s.toList.map fun c => .str c.toString)
  | _ => .error .wrongKind

end Authored

/-- A node whose type is settled and whose payload is not read yet. -/
structure AuthoredNode where
  id : String
  type : String
  data : Fields
  /-- What the payload has under keys that are no texts. -/
  strays : List (Value × Value) := []
  deriving DecidableEq, Repr

namespace AuthoredNode

/-- The settled type of a node, with the name of its action if it was saved under that name. -/
def settleType (type : String) : String × Option String :=
  match Table.get? NodeType.aliases type with
  | some t => (t.name, none)
  | none =>
    let action := ActionProfile.normalize type
    match ActionProfile.ofName? action with
    | some _ => (NodeType.businessAction.name, some action)
    | none => (type, none)

/-- An authored node with its type settled. -/
def ofValue : Value → Except Fault AuthoredNode
  | .object fs => do
    let type := ((Table.get? fs "type").getD (.str "")).display
    let given ← Authored.payload ((Table.get? fs "data").getD .null)
    let (type, action) := settleType type
    let data := match action with
      | some name =>
        if given.fields.has "action" then given.fields
        else given.fields.insert "action" (.str name)
      | none => given.fields
    match Table.get? fs "id" with
    | some id => return ⟨id.display, type, data, given.strays⟩
    | none => throw (.missingKey "id")
  | _ => .error .noSuchMember

def toFields (n : AuthoredNode) : Fields :=
  [("id", .str n.id), ("type", .str n.type), ("data", .object n.data)]

/-- What stands against the keys of a payload. One that does not keep extra fields passes over keys
that are no texts. -/
def keyIssues (n : AuthoredNode) : List Issue :=
  if Body.keepsExtra (NodeType.ofName? n.type) then
    n.strays.map fun e => ⟨[Authored.keyStep e.1], .notName⟩
  else []

/-- The node with its payload read; what is wrong with its keys is reported last. -/
def read (n : AuthoredNode) : Checked Node :=
  (fun node _ => node) <$> Node.readFields n.toFields <*> Checked.ofIssues n.keyIssues

end AuthoredNode

namespace FlowGraph

/-- A checked part of a graph; a missing id and failed checks are blamed on the graph. -/
def part {α β : Type} (flow : Value) (settled : Except Fault β) (read : β → Checked α) :
    Except Fault α :=
  match settled with
  | .error (.missingKey _) => .error (.graph flow .missingId)
  | .error e => .error e
  | .ok b =>
    match read b with
    | .valid a => .ok a
    | .faulty issues => .error (.graph flow (.invalidPart issues))

def parseNode (flow : Value) (v : Value) : Except Fault Node :=
  part flow (AuthoredNode.ofValue v) AuthoredNode.read

/-- The fields of the edge at an index, with an id made up for it if it has none. -/
def edgeFields (i : Nat) : Value → Except Fault Fields
  | .object fs =>
    let id := ((Table.get? fs "id").getD (.str ("e" ++ toString i))).display
    .ok (Table.insert fs "id" (.str id))
  | _ => .error .wrongKind

def parseEdge (flow : Value) (i : Nat) (v : Value) : Except Fault Edge :=
  part flow (edgeFields i v) Edge.readFields

/-- The edges from an index on. -/
def parseEdges (flow : Value) (i : Nat) : List Value → Except Fault (List Edge)
  | [] => .ok []
  | v :: rest => do
    let e ← parseEdge flow i v
    return e :: (← parseEdges flow (i + 1) rest)

/-- The graph of checked parts. The rules for the whole are checked first, so that what is wrong is
blamed on the flow; then the graph is built, which checks them once more. -/
def assemble (flow : Value) (nodes : List Node) (edges : List Edge) : Except Fault FlowGraph :=
  match Defect.ofParts nodes edges with
  | [] => (build nodes edges).toExcept.mapError .invalid
  | defects => .error (.graph flow (.unsound (defects.map Defect.message)))

def parse (flow : Value) : Value → Except Fault FlowGraph
  | .object fs => do
    let nodes ← Authored.elements ((Table.get? fs "nodes").getD (.list []))
    let nodes ← nodes.mapM (parseNode flow)
    let edges ← Authored.elements ((Table.get? fs "edges").getD (.list []))
    let edges ← parseEdges flow 0 edges
    assemble flow nodes edges
  | _ => .error .noSuchMember

@[simp] theorem assemble_eq (flow : Value) (nodes : List Node) (edges : List Edge) :
    assemble flow nodes edges = match ofParts nodes edges with
      | .ok g => .ok g
      | .error defects => .error (.graph flow (.unsound (defects.map Defect.message))) := by
  unfold assemble build ofParts
  split
  · rename_i hsound
    simp only [hsound, dif_pos]
    rfl
  · rename_i hdefects
    simp only [dif_neg hdefects]

end FlowGraph

end ChatFlow
