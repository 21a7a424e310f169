import ChatFlow.Graph.Authored
import ChatFlow.Proofs.Execution.Result
import ChatFlow.Proofs.Schema.Reader

/-!
# Saved graphs

A graph that has been parsed can be saved in canonical form and parsed again, and is the same graph
then: `parsed_graph_survives_saving`. Parsing an authored graph settles everything that could be
settled differently the second time. The names of types and actions are settled
(`settleType_settled`), each field is written under its first name, and an extra field never bears
such a name, so that old names which stay among the extra fields are not taken up later
(`Body.Settled`, `Body.read_fields`).
-/

namespace ChatFlow

open Schema

/-! ## Payloads -/

theorem NodeData.read_fields_append (d : NodeData) (rest : Fields) :
    NodeData.read (d.fields ++ rest) = .valid d := by
  obtain ⟨label, delay⟩ := d
  cases delay <;> rfl

theorem NodeData.read_fields (d : NodeData) : NodeData.read d.fields = .valid d := by
  simpa using d.read_fields_append []

theorem MessageData.read_fields (d : MessageData) : MessageData.read d.fields = .valid d := by
  obtain ⟨⟨label, delay⟩, message⟩ := d
  cases delay <;> rfl

theorem AIResponseData.read_fields (d : AIResponseData) :
    AIResponseData.read d.fields = .valid d := by
  obtain ⟨⟨label, delay⟩, prompt⟩ := d
  cases delay <;> rfl

theorem InputData.read_fields (d : InputData) : InputData.read d.fields = .valid d := by
  obtain ⟨⟨label, delay⟩, question⟩ := d
  cases delay <;> rfl

theorem SpeechData.read_fields (d : SpeechData) : SpeechData.read d.fields = .valid d := by
  obtain ⟨⟨label, delay⟩, text⟩ := d
  cases delay <;> rfl

theorem ListeningData.read_fields (d : ListeningData) :
    ListeningData.read d.fields = .valid d := by
  obtain ⟨⟨label, delay⟩, prompt⟩ := d
  cases delay <;> rfl

theorem EndData.read_fields (d : EndData) : EndData.read d.fields = .valid d := by
  obtain ⟨⟨label, delay⟩, message⟩ := d
  cases delay <;> rfl

theorem ConditionOption.reads : Reads (Reader.record ConditionOption.read) toValue :=
  fun _ => rfl

theorem ConditionData.read_fields (d : ConditionData) :
    ConditionData.read d.fields = .valid d := by
  have hcommon : NodeData.read d.fields = .valid d.toNodeData := d.read_fields_append _
  have hcondition : textField d.fields ["condition"] = .valid d.condition :=
    field_of_get? reads_text rfl []
  have hoptions : field d.fields ["options"]
      (Reader.list (Reader.record ConditionOption.read)) [] = .valid d.options :=
    field_of_get? ConditionOption.reads.list rfl []
  simp [ConditionData.read, hcommon, hcondition, hoptions]

theorem ChoiceOption.reads : Reads (Reader.record ChoiceOption.read) toValue :=
  fun _ => rfl

theorem ChoiceData.read_fields (d : ChoiceData) : ChoiceData.read d.fields = .valid d := by
  have hcommon : NodeData.read d.fields = .valid d.toNodeData := d.read_fields_append _
  have hmessage : textField d.fields ["message"] = .valid d.message :=
    field_of_get? reads_text rfl []
  have hoptions : field d.fields ["options", "buttons", "listItems", "list_items"]
      (Reader.list (Reader.record ChoiceOption.read)) [] = .valid d.options :=
    field_of_get? ChoiceOption.reads.list rfl _
  have hwait : flagField d.fields waitNames = .valid d.waitForResponse :=
    field_of_get? reads_boolean rfl _
  have hvariable : textField d.fields variableNames = .valid d.variableName :=
    field_of_get? reads_text rfl _
  have htitle : textField d.fields ["list_title", "listTitle"] = .valid d.listTitle :=
    field_of_get? reads_text rfl _
  have hbutton : textField d.fields ["button_text", "buttonText"] = .valid d.buttonText :=
    field_of_get? reads_text rfl _
  simp [ChoiceData.read, hcommon, hmessage, hoptions, hwait, hvariable, htitle, hbutton]

/-- No extra field bears the name under which a declared one is written. -/
def Apart (declared : List (List String)) (extra : Fields) : Prop :=
  ∀ e ∈ extra, e.1 ∉ firstNames declared

theorem ActionData.read_fields {d : ActionData} (h : Apart fieldNames d.extra) :
    ActionData.read d.fields = .valid d := by
  have hcommon : NodeData.read d.fields = .valid d.toNodeData := by
    rw [ActionData.fields, List.append_assoc]
    exact d.read_fields_append _
  have haction : textField d.fields ["action"] = .valid d.action :=
    field_of_get? reads_text rfl []
  have hlimit : field d.fields limitNames (Reader.optional Reader.integer) none =
      .valid d.maxAttempts := field_of_get? (reads_integer.optional nofun) rfl _
  have hreason : flagField d.fields reasonNames = .valid d.requireReason :=
    field_of_get? reads_boolean rfl _
  have hrequired : field d.fields requiredNames (Reader.optional (Reader.list Reader.text)) none =
      .valid d.requiredFields := field_of_get? (reads_text.list.optional nofun) rfl _
  have hsuccess : textField d.fields ["success_message"] = .valid d.successMessage :=
    field_of_get? reads_text rfl []
  have hfailure : textField d.fields ["failure_message"] = .valid d.failureMessage :=
    field_of_get? reads_text rfl []
  have hextra : remaining d.fields fieldNames = d.extra := remaining_append (by decide) rfl h
  simp [ActionData.read, hcommon, haction, hlimit, hreason, hrequired, hsuccess, hfailure, hextra]

theorem GenericData.read_fields {d : GenericData} (h : Apart NodeData.fieldNames d.extra) :
    GenericData.read d.fields = .valid d := by
  have hcommon : NodeData.read d.fields = .valid d.toNodeData := d.read_fields_append _
  have hextra : remaining d.fields NodeData.fieldNames = d.extra :=
    remaining_append (by decide) rfl h
  simp [GenericData.read, hcommon, hextra]

theorem ActionData.apart_of_read {fs : Fields} {d : ActionData} (h : ActionData.read fs = .valid d) :
    Apart fieldNames d.extra := by
  obtain ⟨make, extra, hmake, hextra, rfl⟩ := Checked.ap_eq_valid.mp h
  obtain rfl : remaining fs fieldNames = extra := Checked.valid.inj hextra
  simp only [Checked.functor_map_eq_map, Checked.seq_eq_ap, Checked.ap_eq_valid,
    Checked.map_eq_valid] at hmake
  obtain ⟨_, _, ⟨_, _, ⟨_, _, ⟨_, _, ⟨_, _, ⟨_, _, ⟨_, _, rfl⟩, _, rfl⟩, _, rfl⟩, _, rfl⟩, _, rfl⟩,
    _, rfl⟩, _, rfl⟩ := hmake
  exact fun e he => not_mem_firstNames_of_remaining he

theorem GenericData.apart_of_read {fs : Fields} {d : GenericData}
    (h : GenericData.read fs = .valid d) : Apart NodeData.fieldNames d.extra := by
  obtain ⟨make, extra, hmake, hextra, rfl⟩ := Checked.ap_eq_valid.mp h
  obtain rfl : remaining fs NodeData.fieldNames = extra := Checked.valid.inj hextra
  obtain ⟨common, -, rfl⟩ := Checked.map_eq_valid.mp hmake
  exact fun e he => not_mem_firstNames_of_remaining he

/-! ## Types -/

namespace AuthoredNode

theorem settleType_name (t : NodeType) : settleType t.name = (t.name, none) := by
  cases t <;> rfl

theorem settleType_cases (type : String) :
    (∃ t : NodeType, (settleType type).1 = t.name) ∨ settleType type = (type, none) := by
  unfold settleType
  split
  · exact .inl ⟨_, rfl⟩
  · dsimp only
    split
    · exact .inl ⟨.businessAction, rfl⟩
    · exact .inr rfl

/-- A type that is settled is not settled any further. -/
theorem settleType_settled (type : String) :
    settleType (settleType type).1 = ((settleType type).1, none) := by
  rcases settleType_cases type with ⟨t, ht⟩ | hsame
  · rw [ht, settleType_name]
  · rw [hsame, hsame]

end AuthoredNode

namespace Body

/-- The body is as parsing leaves it: its type is settled and a type of its own, and old names that
stay among the extra fields are not taken for declared ones. -/
def Settled (b : Body) : Prop :=
  AuthoredNode.settleType b.typeName = (b.typeName, none) ∧
    match b with
    | .businessAction d => Apart ActionData.fieldNames d.extra
    | .other type d => NodeType.ofName? type = none ∧ Apart NodeData.fieldNames d.extra
    | _ => True

theorem settled_of_read {type : String} {fs : Fields} {b : Body}
    (htype : AuthoredNode.settleType type = (type, none)) (h : Body.read type fs = .valid b) :
    b.Settled ∧ b.typeName = type := by
  unfold Body.read at h
  split at h
  case h_11 hname =>
    obtain ⟨d, hd, rfl⟩ := Checked.map_eq_valid.mp h
    obtain rfl := NodeType.name_of_ofName? hname
    exact ⟨⟨htype, ActionData.apart_of_read hd⟩, rfl⟩
  case h_12 hname =>
    obtain ⟨d, hd, rfl⟩ := Checked.map_eq_valid.mp h
    exact ⟨⟨htype, hname, GenericData.apart_of_read hd⟩, rfl⟩
  all_goals
    rename_i hname
    obtain ⟨d, -, rfl⟩ := Checked.map_eq_valid.mp h
    obtain rfl := NodeType.name_of_ofName? hname
    exact ⟨⟨htype, trivial⟩, rfl⟩

theorem read_fields {b : Body} (h : b.Settled) : Body.read b.typeName b.fields = .valid b := by
  cases b with
  | businessAction d =>
    simp [Body.read, typeName, type?, Body.fields, ActionData.read_fields h.2]
  | other type d =>
    simp [Body.read, typeName, Body.fields, h.2.1, GenericData.read_fields h.2.2]
  | _ d =>
    simp [Body.read, typeName, type?, Body.fields, NodeData.read_fields, MessageData.read_fields,
      AIResponseData.read_fields, InputData.read_fields, ConditionData.read_fields,
      SpeechData.read_fields, ListeningData.read_fields, EndData.read_fields,
      ChoiceData.read_fields]

end Body

/-! ## Nodes, edges and graphs -/

theorem Authored.payload_object (fs : Fields) : payload (.object fs) = .ok { fields := fs } := by
  cases fs <;> rfl

theorem AuthoredNode.settled_of_ofValue {v : Value} {n : AuthoredNode} (h : ofValue v = .ok n) :
    settleType n.type = (n.type, none) := by
  unfold ofValue at h
  split at h
  · rename_i fs
    obtain ⟨given, -, h⟩ := bind_eq_ok.mp h
    have hsettled := settleType_settled ((Table.get? fs "type").getD (.str "")).display
    generalize settleType ((Table.get? fs "type").getD (.str "")).display = settled at h hsettled
    dsimp only at h
    cases hid : Table.get? fs "id" with
    | none => simp [hid, throw, throwThe, MonadExceptOf.throw] at h
    | some id =>
      rw [hid] at h
      obtain rfl := pure_eq_ok.mp h
      exact hsettled
  · cases h

theorem Node.readFields_toFields (a : AuthoredNode) :
    Node.readFields a.toFields =
      (Body.read a.type a.data).andThen fun body => .valid ⟨a.id, body⟩ :=
  rfl

theorem AuthoredNode.read_eq_valid {a : AuthoredNode} {n : Node} :
    a.read = .valid n ↔ Node.readFields a.toFields = .valid n ∧ a.keyIssues = [] := by
  simp [read, Checked.ap_eq_valid, Checked.map_eq_valid, Checked.ofIssues_eq_valid]

theorem Edge.readFields_saved (e : Edge) :
    Edge.readFields [("id", .str e.id), ("source", .str e.source), ("target", .str e.target),
      ("source_handle", .ofText? e.sourceHandle)] = .valid e := by
  obtain ⟨id, source, target, handle⟩ := e
  cases handle <;> rfl

namespace FlowGraph

variable {flow v : Value}

theorem part_eq_ok {α β : Type} {settled : Except Fault β} {read : β → Checked α} {a : α} :
    part flow settled read = .ok a ↔ ∃ b, settled = .ok b ∧ read b = .valid a := by
  unfold part
  split
  · simp
  · simp
  · rename_i b
    cases h : read b <;> simp [h]

theorem parseNode_toValue {n : Node} (h : n.body.Settled) : parseNode flow n.toValue = .ok n := by
  have hauthored :
      AuthoredNode.ofValue n.toValue = .ok ⟨n.id, n.body.typeName, n.body.fields, []⟩ := by
    simp [AuthoredNode.ofValue, Node.toValue, Table.get?, Value.display, Authored.payload_object,
      h.1, bind, Except.bind, pure, Except.pure]
  refine part_eq_ok.mpr ⟨_, hauthored, AuthoredNode.read_eq_valid.mpr ⟨?_, ?_⟩⟩
  · rw [Node.readFields_toFields, Body.read_fields h]
    rfl
  · simp [AuthoredNode.keyIssues]

theorem settled_of_parseNode {n : Node} (h : parseNode flow v = .ok n) : n.body.Settled := by
  obtain ⟨a, ha, hread⟩ := part_eq_ok.mp h
  obtain ⟨hread, -⟩ := AuthoredNode.read_eq_valid.mp hread
  rw [Node.readFields_toFields] at hread
  obtain ⟨body, hbody, hvalid⟩ := Checked.andThen_eq_valid.mp hread
  obtain rfl := Checked.valid.inj hvalid
  exact (Body.settled_of_read (AuthoredNode.settled_of_ofValue ha) hbody).1

theorem parseEdge_toValue (i : Nat) (e : Edge) : parseEdge flow i e.toValue = .ok e :=
  part_eq_ok.mpr ⟨_, rfl, Edge.readFields_saved e⟩

theorem parseEdges_map_toValue (i : Nat) (edges : List Edge) :
    parseEdges flow i (edges.map Edge.toValue) = .ok edges := by
  induction edges generalizing i with
  | nil => rfl
  | cons e rest ih => simp [parseEdges, parseEdge_toValue, ih, bind, Except.bind, pure, Except.pure]

theorem mapM_parseNode_toValue {nodes : List Node} (h : ∀ n ∈ nodes, n.body.Settled) :
    (nodes.map Node.toValue).mapM (parseNode flow) = .ok nodes := by
  induction nodes with
  | nil => rfl
  | cons n rest ih =>
    obtain ⟨hn, hrest⟩ := List.forall_mem_cons.mp h
    simp [List.mapM_cons, parseNode_toValue hn, ih hrest, bind, Except.bind, pure, Except.pure]

theorem settled_of_mapM {vs : List Value} {nodes : List Node}
    (h : vs.mapM (parseNode flow) = .ok nodes) : ∀ n ∈ nodes, n.body.Settled := by
  induction vs generalizing nodes with
  | nil =>
    obtain rfl := pure_eq_ok.mp h
    simp
  | cons v rest ih =>
    rw [List.mapM_cons] at h
    obtain ⟨n, hn, h⟩ := bind_eq_ok.mp h
    obtain ⟨nodes, hnodes, h⟩ := bind_eq_ok.mp h
    obtain rfl := pure_eq_ok.mp h
    exact List.forall_mem_cons.mpr ⟨settled_of_parseNode hn, ih hnodes⟩

theorem ofParts_eq_ok {nodes : List Node} {edges : List Edge} {g : FlowGraph} :
    ofParts nodes edges = .ok g ↔ g.nodes = nodes ∧ g.edges = edges := by
  obtain ⟨nodes', edges', sound⟩ := g
  unfold ofParts
  split
  · simp [eq_comm]
  · rename_i hunsound
    simp only [reduceCtorEq, false_iff]
    rintro ⟨rfl, rfl⟩
    exact hunsound sound

theorem assemble_eq_ok {nodes : List Node} {edges : List Edge} {g : FlowGraph} :
    assemble flow nodes edges = .ok g ↔ g.nodes = nodes ∧ g.edges = edges := by
  rw [assemble_eq, ← ofParts_eq_ok]
  cases ofParts nodes edges <;> simp

theorem settled_of_parse {g : FlowGraph} (h : parse flow v = .ok g) :
    ∀ n ∈ g.nodes, n.body.Settled := by
  unfold parse at h
  split at h
  · obtain ⟨items, -, h⟩ := bind_eq_ok.mp h
    obtain ⟨nodes, hnodes, h⟩ := bind_eq_ok.mp h
    obtain ⟨links, -, h⟩ := bind_eq_ok.mp h
    obtain ⟨edges, -, h⟩ := bind_eq_ok.mp h
    rw [(assemble_eq_ok.mp h).1]
    exact settled_of_mapM hnodes
  · cases h

/-- A graph that has been parsed is saved in canonical form: parsed again, under any id, it is the
same graph, with the same nodes, types, payloads and extra fields in the same order and with the
same edges. -/
theorem parsed_graph_survives_saving {g : FlowGraph} (h : parse flow v = .ok g) (other : Value) :
    parse other g.toValue = .ok g := by
  have hnodes : (g.nodes.map Node.toValue).mapM (parseNode other) = .ok g.nodes :=
    mapM_parseNode_toValue (settled_of_parse h)
  have hedges : parseEdges other 0 (g.edges.map Edge.toValue) = .ok g.edges :=
    parseEdges_map_toValue 0 g.edges
  have hparts : ofParts g.nodes g.edges = .ok g := ofParts_eq_ok.mpr ⟨rfl, rfl⟩
  simp [parse, toValue, Table.get?, Authored.elements, hnodes, hedges, hparts, bind, Except.bind]

/-- A graph as an editor has saved it: old names for types and fields, an action under its own name
with the limits of two editors, a type of its own, and edges without ids. -/
def clinicAuthored : Value :=
  .object
    [("nodes", .list
      [.object [("id", .int 1), ("type", .str "startNode")],
        .object [("id", .str "move"), ("type", .str "reschedule_appointment"),
          ("data", .object [("max_booking_attempts", .int 5), ("maxAttempts", .str " 2"),
            ("note", .list [.null])])],
        .object [("id", .str "poll"), ("type", .str "survey"),
          ("data", .object [("variable_name", .int 3), ("delay", .bool true)])]]),
      ("edges", .list
        [.object [("source", .str "1"), ("target", .str "move")],
          .object [("source", .str "move"), ("target", .str "poll"),
            ("sourceHandle", .str "success")]])]

def clinic : FlowGraph where
  nodes :=
    [⟨"1", .start {}⟩,
      ⟨"move", .businessAction
        { action := "reschedule-appointment"
          maxAttempts := some 2
          extra := [("max_booking_attempts", .int 5), ("note", .list [.null])] }⟩,
      ⟨"poll", .other "survey" { delay := some 1, extra := [("variable_name", .int 3)] }⟩]
  edges :=
    [{ id := "e0", source := "1", target := "move" },
      { id := "e1", source := "move", target := "poll", sourceHandle := some "success" }]
  sound := by decide

instance : DecidableEq FlowGraph := fun g h =>
  decidable_of_iff (g.nodes = h.nodes ∧ g.edges = h.edges) <| by
    cases g
    cases h
    simp

theorem clinic_survives_saving :
    parse (.str "clinic") clinicAuthored = .ok clinic ∧ parse .null clinic.toValue = .ok clinic := by
  have hparsed : parse (.str "clinic") clinicAuthored = .ok clinic := by decide +kernel
  exact ⟨hparsed, parsed_graph_survives_saving hparsed .null⟩

end FlowGraph

end ChatFlow
