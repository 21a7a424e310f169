import ChatFlow.Proofs.Graph.Saving
import ChatFlow.Proofs.Schema.Renaming
import Mathlib.Logic.Relation

/-!
# The words of authors

Authors have several words for the same thing: a type of nodes has many names, a kind of business
action many spellings, and a field of a payload or an edge may have more names than one. Which of
them an author uses makes no difference to the graph: `vocabulary_does_not_matter`.

A name of a type is gone once the type is settled (`Synonyms.settleType_eq`). A name of a field is
gone once the field is read, even where the fields that are left over are kept, for what is taken is
not left over (`Body.value?_read`). So each part of a graph is read as before or refused as before,
and only what is said about a refused one can tell the names apart. That is why readings are
compared by their results alone, with `Checked.value?` and `Except.toOption`.
-/

namespace ChatFlow

open Schema

/-! ## Names of types -/

/-- Two names for a type of nodes, or two spellings of a kind of business action. -/
inductive NodeType.Synonyms : String → String → Prop
  | aliases {a b : String} {t : NodeType} (ha : Table.get? NodeType.aliases a = some t)
      (hb : Table.get? NodeType.aliases b = some t) : Synonyms a b
  | spellings {a b : String} (ha : (ActionProfile.ofName? (ActionProfile.normalize a)).isSome)
      (hab : ActionProfile.normalize a = ActionProfile.normalize b) : Synonyms a b

theorem NodeType.alias_not_kind :
    ∀ e ∈ NodeType.aliases, ActionProfile.ofName? (ActionProfile.normalize e.1) = none := by
  decide +kernel

theorem NodeType.get?_aliases_of_kind {a : String}
    (ha : (ActionProfile.ofName? (ActionProfile.normalize a)).isSome) :
    Table.get? NodeType.aliases a = none := by
  cases h : Table.get? NodeType.aliases a with
  | none => rfl
  | some t =>
    obtain ⟨e, he, rfl⟩ := List.mem_map.mp (Table.mem_keys_iff.mpr ⟨t, h⟩)
    simp [alias_not_kind e he] at ha

theorem NodeType.Synonyms.settleType_eq {a b : String} (h : Synonyms a b) :
    AuthoredNode.settleType b = AuthoredNode.settleType a := by
  cases h with
  | aliases ha hb => simp [AuthoredNode.settleType, ha, hb]
  | spellings ha hab =>
    have hb := hab ▸ ha
    obtain ⟨profile, hprofile⟩ := Option.isSome_iff_exists.mp hb
    simp [AuthoredNode.settleType, get?_aliases_of_kind ha, get?_aliases_of_kind hb, hab, hprofile]

/-! ## Names of fields -/

/-- The fields of the payload of a type of nodes, each with all its names. -/
def Body.fieldNames : Option NodeType → List (List String)
  | some .start => NodeData.fieldNames
  | some .message => NodeData.fieldNames ++ [["message"], waitNames, variableNames]
  | some .aiResponse =>
    NodeData.fieldNames ++ [["prompt"], ["response_variable_name", "responseVariableName"]]
  | some .input => NodeData.fieldNames ++ [["question", "prompt"], variableNames]
  | some .condition => NodeData.fieldNames ++ [["condition"], ["options"]]
  | some .tts =>
    NodeData.fieldNames ++ [["text"], ["text_variable_name", "textVariableName"]]
  | some .stt => NodeData.fieldNames ++ [["prompt"], variableNames]
  | some .ending => NodeData.fieldNames ++ [["message"]]
  | some .buttons | some .list =>
    NodeData.fieldNames ++ [["message"], ["options", "buttons", "listItems", "list_items"],
      waitNames, variableNames, ["list_title", "listTitle"], ["button_text", "buttonText"]]
  | some .businessAction => ActionData.fieldNames
  | none => NodeData.fieldNames

/-- The fields of an edge, each with all its names. -/
def Edge.fieldNames : List (List String) :=
  [["id"], ["source"], ["target"], ["source_handle", "sourceHandle"]]

theorem Body.unambiguous_fieldNames (t : Option NodeType) : Unambiguous (Body.fieldNames t) := by
  cases t with
  | none => decide
  | some t => cases t <;> decide

theorem Edge.unambiguous_fieldNames : Unambiguous Edge.fieldNames := by decide

variable {fs fs' : Fields}

theorem NodeData.value?_read {declared : List (List String)} (h : Renames declared fs fs')
    (hdeclared : Unambiguous declared) (hnode : NodeData.fieldNames ⊆ declared) :
    (NodeData.read fs').value? = (NodeData.read fs).value? := by
  have hlabel : ["label"] ∈ declared := hnode (by simp [NodeData.fieldNames])
  have hdelay : ["delay"] ∈ declared := hnode (by simp [NodeData.fieldNames])
  simp [NodeData.read, textField, h.value?_field hdeclared hlabel,
    h.value?_field hdeclared hdelay]

theorem Body.value?_read {type : String}
    (h : Renames (Body.fieldNames (NodeType.ofName? type)) fs fs') :
    (Body.read type fs').value? = (Body.read type fs).value? := by
  have hdeclared := Body.unambiguous_fieldNames (NodeType.ofName? type)
  unfold Body.read
  generalize NodeType.ofName? type = t at h hdeclared
  have hnode : NodeData.fieldNames ⊆ Body.fieldNames t := by
    cases t with
    | none => decide
    | some t => cases t <;> decide
  have hcommon := NodeData.value?_read h hdeclared hnode
  have hfield : ∀ names ∈ Body.fieldNames t, ∀ {α : Type} (read : Reader α) (d : α),
      (field fs' names read d).value? = (field fs names read d).value? :=
    fun names hnames _ read d => h.value?_field hdeclared hnames read d
  have hremaining := h.remaining_eq hdeclared
  cases t with
  | none =>
    have hextra : remaining fs' NodeData.fieldNames = remaining fs NodeData.fieldNames := hremaining
    simp [GenericData.read, hcommon, hextra]
  | some t =>
    cases t with
    | businessAction =>
      have hextra : remaining fs' ActionData.fieldNames = remaining fs ActionData.fieldNames :=
        hremaining
      simp only [fieldNames, ActionData.fieldNames, List.forall_mem_append,
        List.forall_mem_cons] at hfield
      simp [ActionData.read, textField, flagField, hcommon, hextra, hfield]
    | _ =>
      simp only [fieldNames, List.forall_mem_append, List.forall_mem_cons] at hfield
      simp [MessageData.read, AIResponseData.read, InputData.read, ConditionData.read,
        SpeechData.read, ListeningData.read, EndData.read, ChoiceData.read, textField, flagField,
        hcommon, hfield]

/-! ## Nodes -/

namespace AuthoredNode

/-- The name of its type that an author has given to a node. -/
def authoredType (fs : Fields) : String :=
  ((Table.get? fs "type").getD (.str "")).display

/-- A payload that names its action, if the type of the node did so. -/
def withAction (action : Option String) (data : Fields) : Fields :=
  match action with
  | some name => if data.has "action" then data else data.insert "action" (.str name)
  | none => data

theorem ofValue_object {given : Authored.Payload}
    (hgiven : Authored.payload ((Table.get? fs "data").getD .null) = .ok given) :
    ofValue (.object fs) = match Table.get? fs "id" with
      | some id => .ok ⟨id.display, (settleType (authoredType fs)).1,
          withAction (settleType (authoredType fs)).2 given.fields, given.strays⟩
      | none => .error (.missingKey "id") := by
  simp only [ofValue, hgiven, bind, Except.bind]
  rfl

theorem settleType_action {type name : String} (h : (settleType type).2 = some name) :
    (settleType type).1 = NodeType.businessAction.name := by
  unfold settleType at h ⊢
  split
  · simp_all
  · dsimp only at h ⊢
    split <;> simp_all

theorem renames_withAction {type : String} {data data' : Fields}
    (h : Renames (Body.fieldNames (NodeType.ofName? (settleType type).1)) data data') :
    Renames (Body.fieldNames (NodeType.ofName? (settleType type).1))
      (withAction (settleType type).2 data) (withAction (settleType type).2 data') := by
  cases haction : (settleType type).2 with
  | none => exact h
  | some name =>
    have hdeclared := Body.unambiguous_fieldNames (NodeType.ofName? (settleType type).1)
    have hkey : ["action"] ∈ Body.fieldNames (NodeType.ofName? (settleType type).1) := by
      rw [settleType_action haction, NodeType.ofName?_name]
      decide
    have hhas : Table.has data' "action" = Table.has data "action" := by
      simp only [Table.has, h.get?_eq hdeclared hkey]
    simp only [withAction, hhas]
    split
    · exact h
    · exact h.insert hdeclared hkey _

theorem value?_read_congr {id type : String} {data data' : Fields} {strays : List (Value × Value)}
    (h : (Body.read type data').value? = (Body.read type data).value?) :
    (read ⟨id, type, data', strays⟩).value? = (read ⟨id, type, data, strays⟩).value? := by
  simp [read, Node.readFields_toFields, keyIssues, h]

end AuthoredNode

/-- One thing in an authored node is put in other words: its type, or a field of its payload. What
is not under a name stays as it is. -/
inductive AuthoredNode.Rewords (fs : Fields) : Fields → Prop
  | type {name : String} (h : NodeType.Synonyms (authoredType fs) name) :
      Rewords fs (Table.insert fs "type" (.str name))
  | field {v : Value} {given given' : Authored.Payload}
      (hgiven : Authored.payload ((Table.get? fs "data").getD .null) = .ok given)
      (hgiven' : Authored.payload v = .ok given')
      (h : Renames (Body.fieldNames (NodeType.ofName? (settleType (authoredType fs)).1))
        given.fields given'.fields)
      (hstrays : given'.strays = given.strays) :
      Rewords fs (Table.insert fs "data" v)

namespace FlowGraph

variable {flow : Value}

theorem toOption_part {α β : Type} (settled : Except Fault β) (read : β → Checked α) :
    (part flow settled read).toOption = settled.toOption.bind fun b => (read b).value? := by
  unfold part
  split
  · rfl
  · rfl
  · rename_i b
    show _ = (read b).value?
    cases read b <;> rfl

theorem toOption_parseNode_rewords (h : AuthoredNode.Rewords fs fs') :
    (parseNode flow (.object fs')).toOption = (parseNode flow (.object fs)).toOption := by
  rw [parseNode, parseNode, toOption_part, toOption_part]
  cases h with
  | type h =>
    rename_i name
    have hname : AuthoredNode.authoredType (Table.insert fs "type" (.str name)) = name := by
      simp [AuthoredNode.authoredType, Value.display]
    have hsame : AuthoredNode.ofValue (.object (Table.insert fs "type" (.str name))) =
        AuthoredNode.ofValue (.object fs) := by
      cases hgiven : Authored.payload ((Table.get? fs "data").getD .null) with
      | error e => simp [AuthoredNode.ofValue, hgiven, bind, Except.bind]
      | ok given =>
        have hgiven' : Authored.payload
            ((Table.get? (Table.insert fs "type" (.str name)) "data").getD .null) = .ok given := by
          simpa using hgiven
        rw [AuthoredNode.ofValue_object hgiven, AuthoredNode.ofValue_object hgiven', hname,
          h.settleType_eq]
        simp
    rw [hsame]
  | field hgiven hgiven' h hstrays =>
    rename_i v given given'
    have htype : AuthoredNode.authoredType (Table.insert fs "data" v) =
        AuthoredNode.authoredType fs := by simp [AuthoredNode.authoredType]
    have hset : Authored.payload ((Table.get? (Table.insert fs "data" v) "data").getD .null) =
        .ok given' := by simpa using hgiven'
    rw [AuthoredNode.ofValue_object hgiven, AuthoredNode.ofValue_object hset, htype, hstrays]
    have hid : Table.get? (Table.insert fs "data" v) "id" = Table.get? fs "id" := by simp
    rw [hid]
    cases Table.get? fs "id" with
    | none => rfl
    | some id =>
      exact AuthoredNode.value?_read_congr (Body.value?_read (AuthoredNode.renames_withAction h))

/-! ## Edges -/

theorem toOption_parseEdge_renames (h : Renames Edge.fieldNames fs fs') (i : Nat) :
    (parseEdge flow i (.object fs')).toOption = (parseEdge flow i (.object fs)).toOption := by
  have hdeclared := Edge.unambiguous_fieldNames
  rw [parseEdge, parseEdge, toOption_part, toOption_part]
  simp only [edgeFields, h.get?_eq hdeclared (by decide : ["id"] ∈ Edge.fieldNames)]
  generalize ((Table.get? fs "id").getD (.str ("e" ++ toString i))).display = id
  have hid := h.insert hdeclared (by decide : ["id"] ∈ Edge.fieldNames) (.str id)
  show (Edge.readFields _).value? = (Edge.readFields _).value?
  simp [Edge.readFields, textField,
    hid.value?_field hdeclared (by decide : ["id"] ∈ Edge.fieldNames),
    hid.value?_required hdeclared (by decide : ["source"] ∈ Edge.fieldNames),
    hid.value?_required hdeclared (by decide : ["target"] ∈ Edge.fieldNames),
    hid.value?_field hdeclared (by decide : ["source_handle", "sourceHandle"] ∈ Edge.fieldNames)]

/-! ## Graphs -/

theorem toOption_bind {α β : Type} (x : Except Fault α) (f : α → Except Fault β) :
    (x >>= f).toOption = x.toOption.bind fun a => (f a).toOption := by
  cases x <;> rfl

theorem toOption_mapM_congr {α β : Type} {f : α → Except Fault β} {a a' : α}
    (h : (f a').toOption = (f a).toOption) (before after : List α) :
    ((before ++ a' :: after).mapM f).toOption = ((before ++ a :: after).mapM f).toOption := by
  induction before with
  | nil => simp only [List.nil_append, List.mapM_cons, toOption_bind, h]
  | cons b rest ih => simp only [List.cons_append, List.mapM_cons, toOption_bind, ih]

theorem toOption_parseEdges_congr {v v' : Value}
    (h : ∀ i, (parseEdge flow i v').toOption = (parseEdge flow i v).toOption)
    (before after : List Value) (i : Nat) :
    (parseEdges flow i (before ++ v' :: after)).toOption =
      (parseEdges flow i (before ++ v :: after)).toOption := by
  induction before generalizing i with
  | nil => simp only [List.nil_append, parseEdges, toOption_bind, h]
  | cons w rest ih => simp only [List.cons_append, parseEdges, toOption_bind, ih]

theorem toOption_parse (flow : Value) (fs : Fields) :
    (parse flow (.object fs)).toOption =
      (Authored.elements ((Table.get? fs "nodes").getD (.list []))).toOption.bind fun nodes =>
      (nodes.mapM (parseNode flow)).toOption.bind fun nodes =>
      (Authored.elements ((Table.get? fs "edges").getD (.list []))).toOption.bind fun edges =>
      (parseEdges flow 0 edges).toOption.bind fun edges => (ofParts nodes edges).toOption := by
  simp only [parse, toOption_bind]
  refine congrArg _ (funext fun nodes => congrArg _ (funext fun nodes => ?_))
  refine congrArg _ (funext fun edges => congrArg _ (funext fun edges => ?_))
  rw [assemble_eq]
  cases ofParts nodes edges <;> rfl

theorem toOption_elements (vs : List Value) (v : Value) :
    (Authored.elements ((some (Value.list vs)).getD v)).toOption = some vs := rfl

/-- One thing in an authored graph is put in other words: a type, or the name of a field of a
payload or an edge. -/
inductive Rewords : Value → Value → Prop
  | node {fs n n' : Fields} {before after : List Value}
      (hnodes : Table.get? fs "nodes" = some (.list (before ++ .object n :: after)))
      (h : AuthoredNode.Rewords n n') :
      Rewords (.object fs)
        (.object (Table.insert fs "nodes" (.list (before ++ .object n' :: after))))
  | edge {fs e e' : Fields} {before after : List Value}
      (hedges : Table.get? fs "edges" = some (.list (before ++ .object e :: after)))
      (h : Renames Edge.fieldNames e e') :
      Rewords (.object fs)
        (.object (Table.insert fs "edges" (.list (before ++ .object e' :: after))))

theorem toOption_parse_rewords {authored authored' : Value} (h : Rewords authored authored') :
    (parse flow authored').toOption = (parse flow authored).toOption := by
  cases h with
  | node hnodes h =>
    rename_i fs n n' before after
    have hedges : Table.get? (Table.insert fs "nodes" (.list (before ++ .object n' :: after)))
        "edges" = Table.get? fs "edges" := by simp
    rw [toOption_parse, toOption_parse, hnodes, hedges, Table.get?_insert, if_pos rfl,
      toOption_elements, toOption_elements, Option.bind_some, Option.bind_some]
    exact congrArg (Option.bind · _)
      (toOption_mapM_congr (toOption_parseNode_rewords h) before after)
  | edge hedges h =>
    rename_i fs e e' before after
    have hnodes : Table.get? (Table.insert fs "edges" (.list (before ++ .object e' :: after)))
        "nodes" = Table.get? fs "nodes" := by simp
    rw [toOption_parse, toOption_parse, hedges, hnodes, Table.get?_insert, if_pos rfl]
    refine congrArg _ (funext fun nodes => congrArg _ (funext fun nodes => ?_))
    rw [toOption_elements, toOption_elements, Option.bind_some, Option.bind_some]
    exact congrArg (Option.bind · _)
      (toOption_parseEdges_congr (toOption_parseEdge_renames h) before after 0)

theorem toOption_eq_some {α : Type} {x : Except Fault α} {a : α} :
    x.toOption = some a ↔ x = .ok a := by
  cases x <;> simp [Except.toOption]

/-- The words of authors do not matter. If an authored graph is put in other words, in any number of
places, it is parsed to the same graph or refused as before. -/
theorem vocabulary_does_not_matter {authored authored' : Value}
    (h : Relation.ReflTransGen Rewords authored authored') (flow : Value) (g : FlowGraph) :
    parse flow authored = .ok g ↔ parse flow authored' = .ok g := by
  have hsame : (parse flow authored').toOption = (parse flow authored).toOption := by
    induction h with
    | refl => rfl
    | tail _ hstep ih => exact (toOption_parse_rewords hstep).trans ih
  rw [← toOption_eq_some, ← toOption_eq_some, hsame]

/-- The graph of a visit that is cancelled, in the words of its author. -/
def cancelling (start kind limit port : String) : Value :=
  .object
    [("nodes", .list
      [.object [("id", .str "s"), ("type", .str start)],
        .object [("id", .str "c"), ("type", .str kind),
          ("data", .object [(limit, .int 2), ("note", .bool true)])]]),
      ("edges", .list
        [.object [("source", .str "s"), ("target", .str "c"), (port, .str "out")]])]

theorem cancelling_reworded :
    Relation.ReflTransGen Rewords
      (cancelling "startNode" " Cancel_Appointment" "max_cancel_attempts" "sourceHandle")
      (cancelling "start" "cancel-appointment" "maxAttempts" "source_handle") := by
  have hspelled : ActionProfile.normalize " Cancel_Appointment" = "cancel-appointment" := by
    decide +kernel
  have hplain : ActionProfile.normalize "cancel-appointment" = "cancel-appointment" := by
    decide +kernel
  have hstart : Rewords
      (cancelling "startNode" " Cancel_Appointment" "max_cancel_attempts" "sourceHandle")
      (cancelling "start" " Cancel_Appointment" "max_cancel_attempts" "sourceHandle") :=
    @Rewords.node _ _ _ [] _ rfl
      (.type (@NodeType.Synonyms.aliases "startNode" "start" .start rfl rfl))
  have hkind : Rewords
      (cancelling "start" " Cancel_Appointment" "max_cancel_attempts" "sourceHandle")
      (cancelling "start" "cancel-appointment" "max_cancel_attempts" "sourceHandle") := by
    have hsame : NodeType.Synonyms " Cancel_Appointment" "cancel-appointment" :=
      .spellings (by rw [hspelled]; decide) (hspelled.trans hplain.symm)
    exact @Rewords.node _ _ _ [_] _ rfl (.type hsame)
  have hlimit : Rewords
      (cancelling "start" "cancel-appointment" "max_cancel_attempts" "sourceHandle")
      (cancelling "start" "cancel-appointment" "maxAttempts" "sourceHandle") := by
    refine @Rewords.node _ _ _ [_] _ rfl (.field rfl rfl ?_ rfl)
    have htype : NodeType.ofName? (AuthoredNode.settleType "cancel-appointment").1 =
        some .businessAction := by decide +kernel
    show Renames (Body.fieldNames
      (NodeType.ofName? (AuthoredNode.settleType "cancel-appointment").1)) _ _
    rw [htype]
    exact @Renames.mk _ _ ActionData.limitNames "max_cancel_attempts" "maxAttempts" (by decide)
      (by decide) (by decide) (by decide) (by decide) (by decide)
  have hport : Rewords
      (cancelling "start" "cancel-appointment" "maxAttempts" "sourceHandle")
      (cancelling "start" "cancel-appointment" "maxAttempts" "source_handle") :=
    @Rewords.edge _ _ _ [] _ rfl (@Renames.mk _ _ ["source_handle", "sourceHandle"]
      "sourceHandle" "source_handle" (by decide) (by decide) (by decide) (by decide) (by decide)
      (by decide))
  exact .head hstart (.head hkind (.head hlimit (.single hport)))

/-- It makes no difference whether a cancelled visit is put in the words of an editor or in those of
the engine. -/
theorem cancelling_parsed_alike :
    Relation.ReflTransGen Rewords
        (cancelling "startNode" " Cancel_Appointment" "max_cancel_attempts" "sourceHandle")
        (cancelling "start" "cancel-appointment" "maxAttempts" "source_handle") ∧
      ∃ g, parse (.str "visit")
          (cancelling "startNode" " Cancel_Appointment" "max_cancel_attempts" "sourceHandle") =
            .ok g ∧
        parse (.str "visit")
          (cancelling "start" "cancel-appointment" "maxAttempts" "source_handle") = .ok g := by
  have hparsed : (parse (.str "visit") (cancelling "start" "cancel-appointment" "maxAttempts"
      "source_handle")).toOption.isSome := by decide +kernel
  obtain ⟨g, hg⟩ := Option.isSome_iff_exists.mp hparsed
  have hplain := toOption_eq_some.mp hg
  exact ⟨cancelling_reworded, g,
    (vocabulary_does_not_matter cancelling_reworded (.str "visit") g).mpr hplain, hplain⟩

end FlowGraph

end ChatFlow
