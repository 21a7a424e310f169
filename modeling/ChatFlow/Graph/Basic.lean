import ChatFlow.Graph.Payload

/-!
# Flow graphs

A flow graph is a list of nodes with different ids and a list of edges between them, both in
authored order. `defects` finds every breach of that rule; a `FlowGraph` is a graph with none.
-/

namespace ChatFlow

open Schema

/-- A unit of conversation. -/
structure Node where
  id : String
  body : Body
  deriving DecidableEq, Repr, Inhabited

/-- A connection that leaves its source through a port. Without a source handle it serves every
port. -/
structure Edge where
  id : String := ""
  source : String
  target : String
  sourceHandle : Option String := none
  deriving DecidableEq, Repr, Inhabited

namespace Node

/-- The node's type; none if it is not recognised. -/
def type? (n : Node) : Option NodeType := n.body.type?

/-- Complaints about the value in the place of a node's type, which may be any text. -/
def checkType : Value → Checked Unit
  | .str _ => .valid ()
  | _ => .faulty [⟨[.field "type", .field "str-enum[NodeType]"], .notMember⟩,
      ⟨[.field "type", .field "str"], .notText⟩]

/-- Complaints about a value that cannot be a payload of any class. -/
def noPayload : Checked Unit :=
  .faulty (Body.payloadNames.map fun name => ⟨[.field "data", .field name], .notRecord⟩)

/-- A node from its fields. The payload is read first, and issues with it are reported alone. -/
def readFields (fs : Fields) : Checked Node :=
  let type := (fs.get? "type").getD .null
  let name := match type with
    | .str s => s
    | _ => ""
  let id := required fs "id" [] Reader.text
  let data := (fs.get? "data").getD .null
  let payload? := match data with
    | .null => some []
    | .object fields => some fields
    | _ => none
  match payload? with
  | none => (fun id _ _ => ⟨id, default⟩) <$> id <*> checkType type <*> noPayload
  | some payload => (Body.read name payload).andThen fun body =>
      (fun id _ => ⟨id, body⟩) <$> id <*> checkType type

def read : Reader Node := Reader.record readFields

def toValue (n : Node) : Value :=
  .object [("id", .str n.id), ("type", .str n.body.typeName), ("data", .object n.body.fields)]

end Node

namespace Edge

def readFields (fs : Fields) : Checked Edge :=
  mk <$> textField fs ["id"] <*> required fs "source" [] Reader.text <*>
    required fs "target" [] Reader.text <*>
    field fs ["source_handle", "sourceHandle"] (Reader.optional Reader.text) none

def read : Reader Edge := Reader.record readFields

def toValue (e : Edge) : Value :=
  .object [("id", .str e.id), ("source", .str e.source), ("target", .str e.target),
    ("source_handle", .ofText? e.sourceHandle)]

end Edge

/-- A breach of the rules for graphs. -/
inductive Defect
  | duplicateNode (id : String)
  | unknownSource (index : Nat) (id : String)
  | unknownTarget (index : Nat) (id : String)
  deriving DecidableEq, Repr

namespace Defect

def message : Defect → String
  | duplicateNode id => "duplicate node id '" ++ id ++ "'"
  | unknownSource i id => "edge[" ++ toString i ++ "] source '" ++ id ++ "' not in nodes"
  | unknownTarget i id => "edge[" ++ toString i ++ "] target '" ++ id ++ "' not in nodes"

/-- The ids that were seen before in the list, once for each further occurrence. -/
def duplicates (seen : List String) : List String → List String
  | [] => []
  | id :: rest => if id ∈ seen then id :: duplicates seen rest else duplicates (id :: seen) rest

/-- The endpoints of edges, counted from an index on, that are not among the ids. -/
def endpoints (ids : List String) (i : Nat) : List Edge → List Defect
  | [] => []
  | e :: rest =>
    (if e.source ∈ ids then [] else [unknownSource i e.source]) ++
      (if e.target ∈ ids then [] else [unknownTarget i e.target]) ++ endpoints ids (i + 1) rest

/-- All breaches: repeated ids in the order of the nodes, then missing endpoints in the order of
the edges. -/
def ofParts (nodes : List Node) (edges : List Edge) : List Defect :=
  let ids := nodes.map Node.id
  (duplicates [] ids).map duplicateNode ++ endpoints ids 0 edges

end Defect

/-- A graph whose node ids are different and whose edges all have both ends. -/
structure FlowGraph where
  nodes : List Node
  edges : List Edge
  sound : Defect.ofParts nodes edges = []

namespace FlowGraph

def empty : FlowGraph := ⟨[], [], rfl⟩

instance : Inhabited FlowGraph := ⟨empty⟩

/-- The graph of the given parts, or what is wrong with them. -/
def ofParts (nodes : List Node) (edges : List Edge) : Except (List Defect) FlowGraph :=
  if h : Defect.ofParts nodes edges = [] then .ok ⟨nodes, edges, h⟩
  else .error (Defect.ofParts nodes edges)

def node? (g : FlowGraph) (id : String) : Option Node :=
  g.nodes.find? (·.id == id)

def index (g : FlowGraph) : Table String Node :=
  Table.ofEntries (g.nodes.map fun n => (n.id, n))

/-- The first start node in authored order. -/
def startNode? (g : FlowGraph) : Option Node :=
  g.nodes.find? fun n => n.type? = some .start

/-- The graph of checked parts. Everything that is wrong with the whole is one complaint. -/
def build (nodes : List Node) (edges : List Edge) : Checked FlowGraph :=
  match ofParts nodes edges with
  | .ok g => .valid g
  | .error defects => .complain (.broken ("; ".intercalate (defects.map Defect.message)))

/-- A graph given in canonical form, with all its nodes and edges checked before the rules for the
whole graph. -/
def read : Reader FlowGraph :=
  Reader.record fun fs =>
    (Prod.mk <$> field fs ["nodes"] (Reader.list Node.read) [] <*>
      field fs ["edges"] (Reader.list Edge.read) []).andThen fun parts => build parts.1 parts.2

def toValue (g : FlowGraph) : Value :=
  .object [("nodes", .list (g.nodes.map Node.toValue)), ("edges", .list (g.edges.map Edge.toValue))]

theorem mem_of_node? {g : FlowGraph} {id : String} {n : Node} (h : g.node? id = some n) :
    n ∈ g.nodes ∧ n.id = id :=
  ⟨List.mem_of_find?_eq_some h, by simpa using List.find?_some h⟩

end FlowGraph

end ChatFlow
