import ChatFlow.Proofs.Graph.Defect
import ChatFlow.Proofs.Graph.Vocabulary

/-!
# Refused graphs

An authored graph is any object at all, with any values in the place of its parts. What is wrong with
it is blamed on the flow where a part lacks its id or does not pass its checks, and where the parts
do not fit together. But a part can also be of a shape that cannot be taken apart in the first place,
and then the error that comes of this is not one about the flow.

`Escapes` lists these cases, with the error for each: `refusal_escapes_iff`. The parts are looked at
one after the other, so only the first that is refused counts. `AuthoredNode.Misshapen`,
`Authored.NoPayload` and `Authored.NoPair` are the shapes in question, from the outside to the
inside.

A key that is no text is not among them. It is set apart from the fields, and where it counts at
all, it is one more issue of its node (`AuthoredNode.issues_read`), and those are blamed on the flow
(`parseNode_of_keyIssues`).
-/

namespace ChatFlow

open Schema

theorem mapM_eq_error {α β : Type} {f : α → Except Fault β} {xs : List α} {e : Fault} :
    xs.mapM f = .error e ↔ ∃ before x after, xs = before ++ x :: after ∧
      (∀ w ∈ before, ∃ y, f w = .ok y) ∧ f x = .error e := by
  induction xs with
  | nil => simp [pure, Except.pure]
  | cons x rest ih =>
    rw [List.mapM_cons, bind_eq_error]
    constructor
    · rintro (hx | ⟨y, hy, h⟩)
      · exact ⟨[], x, rest, rfl, by simp, hx⟩
      · rcases bind_eq_error.mp h with h | ⟨ys, -, h⟩
        · obtain ⟨before, x', after, rfl, hbefore, hx'⟩ := ih.mp h
          exact ⟨x :: before, x', after, rfl, List.forall_mem_cons.mpr ⟨⟨y, hy⟩, hbefore⟩, hx'⟩
        · simp [pure, Except.pure] at h
    · rintro ⟨_ | ⟨first, before⟩, x', after, heq, hbefore, hx'⟩
      · obtain ⟨rfl, rfl⟩ := List.cons.inj heq
        exact .inl hx'
      · obtain ⟨rfl, rfl⟩ := List.cons.inj heq
        obtain ⟨⟨y, hy⟩, hrest⟩ := List.forall_mem_cons.mp hbefore
        exact .inr ⟨y, hy, bind_eq_error.mpr (.inl (ih.mpr ⟨before, x', after, rfl, hrest, hx'⟩))⟩

theorem exists_mapM {α β : Type} {f : α → Except Fault β} {xs : List α} :
    (∃ ys, xs.mapM f = .ok ys) ↔ ∀ x ∈ xs, ∃ y, f x = .ok y := by
  induction xs with
  | nil => simp [pure, Except.pure]
  | cons x rest ih =>
    rw [List.forall_mem_cons, ← ih]
    simp only [List.mapM_cons, bind_eq_ok, pure_eq_ok]
    constructor
    · rintro ⟨_, y, hy, ys, hys, rfl⟩
      exact ⟨⟨y, hy⟩, ys, hys⟩
    · rintro ⟨⟨y, hy⟩, ys, hys⟩
      exact ⟨_, y, hy, ys, hys, rfl⟩

/-! ## Shapes -/

/-- The value can be walked through: it is a list, an object or a text. -/
def Value.Walkable : Value → Prop
  | .list _ | .object _ | .str _ => True
  | _ => False

namespace Authored

theorem elements_eq_error {v : Value} {e : Fault} :
    elements v = .error e ↔ ¬ v.Walkable ∧ e = .wrongKind := by
  cases v <;> simp [elements, Value.Walkable, eq_comm]

/-- A value that is no pair of a key and a value, and the error that comes of taking it for one. -/
inductive NoPair : Value → Fault → Prop
  | atom {v : Value} (h : ¬ v.Walkable) : NoPair v .wrongKind
  | text {s : String} (h : s.toList.length ≠ 2) : NoPair (.str s) .wrongValue
  | fields {fs : Fields} (h : fs.length ≠ 2) : NoPair (.object fs) .wrongValue
  | items {vs : List Value} (h : vs.length ≠ 2) : NoPair (.list vs) .wrongValue
  /-- A list and an object are no keys. -/
  | listKey {ks : List Value} {v : Value} : NoPair (.list [.list ks, v]) .wrongKind
  | objectKey {fs : Fields} {v : Value} : NoPair (.list [.object fs, v]) .wrongKind

/-- A value that does not amount to the fields of a payload, and the error that comes of taking it for
a payload. -/
inductive NoPayload : Value → Fault → Prop
  | atom {v : Value} (h : ¬ v.Walkable) (hv : v.isTruthy) : NoPayload v .wrongKind
  | text {s : String} (h : s ≠ "") : NoPayload (.str s) .wrongValue
  | pairs {before after : List Value} {v : Value} {e : Fault}
      (hbefore : ∀ w ∈ before, ∀ e, ¬ NoPair w e) (h : NoPair v e) :
      NoPayload (.list (before ++ v :: after)) e

theorem key_eq_error {k : Value} {e : Fault} :
    key k = .error e ↔ ((∃ items, k = .list items) ∨ ∃ fields, k = .object fields) ∧
      e = .wrongKind := by
  cases k <;> simp [key, eq_comm]

theorem length_ne_two {α : Type} {xs : List α} : xs.length ≠ 2 ↔ ∀ a b, xs ≠ [a, b] := by
  simp [List.length_eq_two]

theorem pair_eq_error {v : Value} {e : Fault} : pair v = .error e ↔ NoPair v e := by
  constructor
  · intro h
    unfold pair at h
    split at h
    · rw [bind_eq_error, key_eq_error] at h
      rcases h with ⟨⟨items, rfl⟩ | ⟨fields, rfl⟩, rfl⟩ | ⟨key, -, h⟩
      · exact .listKey
      · exact .objectKey
      · simp [pure, Except.pure] at h
    · rename_i vs hvs
      obtain rfl := Except.error.inj h
      exact .items (length_ne_two.mpr hvs)
    · split at h
      · cases h
      · rename_i s hs
        obtain rfl := Except.error.inj h
        exact .text (length_ne_two.mpr hs)
    · cases h
    · rename_i fs hfs
      obtain rfl := Except.error.inj h
      refine .fields (length_ne_two.mpr ?_)
      rintro ⟨k, a⟩ ⟨l, b⟩ rfl
      exact hfs k a l b rfl
    · obtain rfl := Except.error.inj h
      refine .atom ?_
      cases v <;> simp_all [Value.Walkable]
  · intro h
    cases h with
    | atom h => cases v <;> simp_all [pair, Value.Walkable]
    | text h =>
      simp [pair, length_ne_two.mp h]
    | fields h =>
      unfold pair
      split <;> simp_all
    | items h =>
      unfold pair
      split <;> simp_all
    | listKey => rfl
    | objectKey => rfl

theorem payload_eq_error {v : Value} {e : Fault} : payload v = .error e ↔ NoPayload v e := by
  constructor
  · intro h
    unfold payload at h
    split at h
    · cases h
    · rename_i htruthy
      split at h
      · cases h
      · rcases bind_eq_error.mp h with h | ⟨ps, -, h⟩
        · obtain ⟨before, w, after, rfl, hbefore, hw⟩ := mapM_eq_error.mp h
          refine .pairs (fun w hw e he => ?_) (pair_eq_error.mp hw)
          obtain ⟨p, hp⟩ := hbefore w hw
          simp [pair_eq_error.mpr he] at hp
        · simp [pure, Except.pure] at h
      · obtain rfl := Except.error.inj h
        exact .text (by simpa [Value.isTruthy] using htruthy)
      · obtain rfl := Except.error.inj h
        refine .atom ?_ (by simpa using htruthy)
        cases v <;> simp_all [Value.Walkable]
  · intro h
    cases h with
    | atom h hv =>
      cases v <;> simp_all [payload, Value.Walkable]
    | text h =>
      simp [payload, Value.isTruthy, h]
    | pairs hbefore h =>
      rename_i before after w
      have hread : (before ++ w :: after).mapM pair = .error e := by
        refine mapM_eq_error.mpr ⟨before, w, after, rfl, fun w hw => ?_, pair_eq_error.mpr h⟩
        cases hp : pair w with
        | ok p => exact ⟨p, rfl⟩
        | error e => exact absurd (pair_eq_error.mp hp) (hbefore w hw e)
      simp [payload, Value.isTruthy, hread, bind, Except.bind]

end Authored

/-- A value that is not of the shape of a node, and the error that comes of taking it for one. -/
inductive AuthoredNode.Misshapen : Value → Fault → Prop
  | noObject {v : Value} (h : ∀ fs, v ≠ .object fs) : Misshapen v .noSuchMember
  | noPayload {fs : Fields} {e : Fault}
      (h : Authored.NoPayload ((Table.get? fs "data").getD .null) e) : Misshapen (.object fs) e

namespace FlowGraph

/-- What is wrong with an authored graph without being blamed on its flow, and the error that comes of
it. -/
inductive Escapes (flow : Value) (fs : Fields) : Fault → Prop
  | nodes (h : ¬ ((Table.get? fs "nodes").getD (.list [])).Walkable) : Escapes flow fs .wrongKind
  /-- A node after nodes that can be read. -/
  | node {before after : List Value} {v : Value} {e : Fault}
      (hparts : parts fs "nodes" = .ok (before ++ v :: after))
      (hbefore : ∀ w ∈ before, ∃ n, parseNode flow w = .ok n) (h : AuthoredNode.Misshapen v e) :
      Escapes flow fs e
  /-- The edges after nodes that can be read. -/
  | edges {vs : List Value} (hparts : parts fs "nodes" = .ok vs)
      (hnodes : ∀ w ∈ vs, ∃ n, parseNode flow w = .ok n)
      (h : ¬ ((Table.get? fs "edges").getD (.list [])).Walkable) : Escapes flow fs .wrongKind
  /-- An edge after nodes and edges that can be read. -/
  | edge {vs before after : List Value} {v : Value} (hnodeParts : parts fs "nodes" = .ok vs)
      (hnodes : ∀ w ∈ vs, ∃ n, parseNode flow w = .ok n)
      (hparts : parts fs "edges" = .ok (before ++ v :: after))
      (hbefore : ∀ p ∈ before.zipIdx, ∃ e, parseEdge flow p.2 p.1 = .ok e)
      (h : ∀ fields, v ≠ .object fields) : Escapes flow fs .wrongKind

end FlowGraph

/-! ## Reading the parts -/

/-- The error blames the flow of the given id for its graph. -/
def Fault.Blames (flow : Value) (e : Fault) : Prop :=
  ∃ trouble, e = .graph flow trouble

namespace Authored

theorem NoPair.kind {v : Value} {e : Fault} (h : NoPair v e) : e = .wrongKind ∨ e = .wrongValue := by
  cases h <;> simp

theorem NoPayload.kind {v : Value} {e : Fault} (h : NoPayload v e) :
    e = .wrongKind ∨ e = .wrongValue := by
  cases h with
  | atom => exact .inl rfl
  | text => exact .inr rfl
  | pairs _ h => exact h.kind

end Authored

theorem AuthoredNode.Misshapen.kind {v : Value} {e : Fault} (h : Misshapen v e) :
    e = .wrongKind ∨ e = .wrongValue ∨ e = .noSuchMember := by
  cases h with
  | noObject => exact .inr (.inr rfl)
  | noPayload h => exact h.kind.imp_right .inl

/-- What is wrong with the keys of a node comes after what is wrong with its fields. -/
theorem AuthoredNode.issues_read (n : AuthoredNode) :
    n.read.issues = (Node.readFields n.toFields).issues ++ n.keyIssues := by
  unfold read
  cases Node.readFields n.toFields <;> cases n.keyIssues <;>
    simp [Checked.ofIssues, Checked.map, Checked.ap, Checked.issues]

namespace FlowGraph

variable {flow v : Value} {fs : Fields} {e : Fault}

theorem parseNode_of_keyIssues {n : AuthoredNode} (hn : AuthoredNode.ofValue v = .ok n)
    (hkeys : n.keyIssues ≠ []) :
    parseNode flow v = .error (.graph flow
      (.invalidPart ((Node.readFields n.toFields).issues ++ n.keyIssues))) := by
  unfold parseNode part
  rw [hn, ← AuthoredNode.issues_read]
  cases hread : n.read with
  | valid node => exact absurd (AuthoredNode.read_eq_valid.mp hread).2 hkeys
  | faulty issues => simp [hread, Checked.issues]

theorem part_eq_error {α β : Type} {settled : Except Fault β} {read : β → Checked α} :
    part flow settled read = .error e ∧ ¬ e.Blames flow ↔
      settled = .error e ∧ (∀ key, e ≠ .missingKey key) ∧ ¬ e.Blames flow := by
  unfold part
  split
  · simp only [Except.error.injEq]
    constructor
    · rintro ⟨rfl, h⟩
      exact absurd ⟨_, rfl⟩ h
    · rintro ⟨rfl, h, -⟩
      exact absurd rfl (h _)
  · rename_i f hkey
    simp only [Except.error.injEq]
    constructor
    · rintro ⟨rfl, h⟩
      exact ⟨rfl, hkey, h⟩
    · rintro ⟨rfl, -, h⟩
      exact ⟨rfl, h⟩
  · simp only [reduceCtorEq, false_and, iff_false]
    split
    · simp
    · rintro ⟨he, h⟩
      exact h ⟨_, (Except.error.inj he).symm⟩

theorem parseNode_eq_error :
    parseNode flow v = .error e ∧ ¬ e.Blames flow ↔ AuthoredNode.Misshapen v e := by
  rw [parseNode, part_eq_error]
  constructor
  · rintro ⟨h, hkey, -⟩
    cases v with
    | object fs =>
      refine .noPayload (Authored.payload_eq_error.mp ?_)
      cases hgiven : Authored.payload ((Table.get? fs "data").getD .null) with
      | error f => simpa [AuthoredNode.ofValue, hgiven, bind, Except.bind] using h
      | ok given =>
        rw [AuthoredNode.ofValue_object hgiven] at h
        split at h
        · cases h
        · exact absurd (Except.error.inj h).symm (hkey "id")
    | _ =>
      obtain rfl := Except.error.inj h
      exact .noObject (by simp)
  · intro h
    refine ⟨?_, ?_, ?_⟩
    · cases h with
      | noObject h => cases v <;> first | rfl | exact absurd rfl (h _)
      | noPayload h =>
        rw [← Authored.payload_eq_error] at h
        simp [AuthoredNode.ofValue, h, bind, Except.bind]
    · rcases h.kind with rfl | rfl | rfl <;> simp
    · rcases h.kind with rfl | rfl | rfl <;> simp [Fault.Blames]

theorem parseEdge_eq_error {i : Nat} :
    parseEdge flow i v = .error e ∧ ¬ e.Blames flow ↔ (∀ fs, v ≠ .object fs) ∧ e = .wrongKind := by
  rw [parseEdge, part_eq_error]
  constructor
  · rintro ⟨h, -, -⟩
    cases v with
    | object fs => cases h
    | _ => exact ⟨by simp, (Except.error.inj h).symm⟩
  · rintro ⟨h, rfl⟩
    refine ⟨?_, by simp, by simp [Fault.Blames]⟩
    cases v <;> first | rfl | exact absurd rfl (h _)

/-! ## The whole graph -/

theorem parseEdges_eq_error {vs : List Value} :
    parseEdges flow 0 vs = .error e ↔ ∃ before v after, vs = before ++ v :: after ∧
      (∀ p ∈ before.zipIdx, ∃ e, parseEdge flow p.2 p.1 = .ok e) ∧
      parseEdge flow before.length v = .error e := by
  rw [parseEdges_eq, mapM_eq_error]
  constructor
  · rintro ⟨_, ⟨v, i⟩, _, heq, hbefore, hv⟩
    obtain ⟨before, tail, rfl, rfl, htail⟩ := List.zipIdx_eq_append_iff.mp heq
    obtain ⟨_, after, rfl, hv', -⟩ := List.zipIdx_eq_cons_iff.mp htail.symm
    obtain ⟨rfl, rfl⟩ := Prod.mk.inj hv'
    exact ⟨before, v, after, rfl, hbefore, by simpa using hv⟩
  · rintro ⟨before, v, after, rfl, hbefore, hv⟩
    refine ⟨before.zipIdx, (v, before.length), after.zipIdx (before.length + 1), ?_, hbefore, hv⟩
    simp [List.zipIdx_append, List.zipIdx_cons]

theorem parse_object : parse flow (.object fs) = (do
    let nodes ← (← parts fs "nodes").mapM (parseNode flow)
    let edges ← parseEdges flow 0 (← parts fs "edges")
    assemble flow nodes edges) :=
  rfl

theorem escapes_iff : Escapes flow fs e ↔ parse flow (.object fs) = .error e ∧ ¬ e.Blames flow := by
  have hkind : ¬ Fault.Blames flow .wrongKind := by simp [Fault.Blames]
  rw [parse_object]
  simp only [bind_eq_error]
  constructor
  · intro h
    cases h with
    | nodes h => exact ⟨.inl (Authored.elements_eq_error.mpr ⟨h, rfl⟩), hkind⟩
    | node hparts hbefore h =>
      obtain ⟨hv, hblames⟩ := parseNode_eq_error.mpr h
      exact ⟨.inr ⟨_, hparts, .inl (mapM_eq_error.mpr ⟨_, _, _, rfl, hbefore, hv⟩)⟩, hblames⟩
    | edges hparts hnodes h =>
      obtain ⟨nodes, hnodes⟩ := exists_mapM.mpr hnodes
      exact ⟨.inr ⟨_, hparts, .inr ⟨nodes, hnodes,
        .inl (Authored.elements_eq_error.mpr ⟨h, rfl⟩)⟩⟩, hkind⟩
    | edge hnodeParts hnodes hparts hbefore h =>
      obtain ⟨nodes, hnodes⟩ := exists_mapM.mpr hnodes
      obtain ⟨hv, hblames⟩ := parseEdge_eq_error.mpr ⟨h, rfl⟩
      exact ⟨.inr ⟨_, hnodeParts, .inr ⟨nodes, hnodes, .inr ⟨_, hparts,
        .inl (parseEdges_eq_error.mpr ⟨_, _, _, rfl, hbefore, hv⟩)⟩⟩⟩, hblames⟩
  · rintro ⟨h | ⟨vs, hvs, h | ⟨nodes, hnodes, h | ⟨ws, hws, h | ⟨edges, -, h⟩⟩⟩⟩, hblames⟩
    · obtain ⟨hwalk, rfl⟩ := Authored.elements_eq_error.mp h
      exact .nodes hwalk
    · obtain ⟨before, v, after, rfl, hbefore, hv⟩ := mapM_eq_error.mp h
      exact .node hvs hbefore (parseNode_eq_error.mp ⟨hv, hblames⟩)
    · obtain ⟨hwalk, rfl⟩ := Authored.elements_eq_error.mp h
      exact .edges hvs (exists_mapM.mp ⟨nodes, hnodes⟩) hwalk
    · obtain ⟨before, v, after, rfl, hbefore, hv⟩ := parseEdges_eq_error.mp h
      obtain ⟨hfields, rfl⟩ := parseEdge_eq_error.mp ⟨hv, hblames⟩
      exact .edge hvs (exists_mapM.mp ⟨nodes, hnodes⟩) hws hbefore hfields
    · obtain ⟨-, rfl⟩ := assemble_eq_error.mp h
      exact absurd ⟨_, rfl⟩ hblames

theorem Escapes.kind (h : Escapes flow fs e) :
    e = .wrongKind ∨ e = .wrongValue ∨ e = .noSuchMember := by
  cases h with
  | node _ _ h => exact h.kind
  | _ => exact .inl rfl

/-- An authored object is accepted, or its flow is blamed, unless it is of one of the shapes that
cannot be taken apart. Then the error is of the kind that comes of using a value against its kind,
and says nothing of a flow. -/
theorem refusal_escapes_iff (flow : Value) (fs : Fields) :
    (((∃ g, parse flow (.object fs) = .ok g) ∨
      ∃ trouble, parse flow (.object fs) = .error (.graph flow trouble)) ↔
        ∀ e, ¬ Escapes flow fs e) ∧
    (∀ e, Escapes flow fs e ↔ parse flow (.object fs) = .error e ∧ ¬ e.Blames flow) ∧
    (∀ e, Escapes flow fs e → e = .wrongKind ∨ e = .wrongValue ∨ e = .noSuchMember) := by
  refine ⟨?_, fun _ => escapes_iff, fun _ => Escapes.kind⟩
  simp only [escapes_iff, not_and, not_not]
  constructor
  · rintro (⟨g, hg⟩ | ⟨trouble, h⟩) e he
    · simp [hg] at he
    · exact ⟨trouble, (Except.error.inj (h.symm.trans he)).symm⟩
  · intro h
    cases hparse : parse flow (.object fs) with
    | ok g => exact .inl ⟨g, rfl⟩
    | error e =>
      obtain ⟨trouble, rfl⟩ := h e hparse
      exact .inr ⟨trouble, rfl⟩

/-- A payload of its own kind keeps everything, and is refused for a key that is a number before the
edges are looked at. -/
example : parse (.str "clinic") (.object
    [("nodes", .list [.object [("id", .str "a"), ("type", .str "visit"),
        ("data", .list [.list [.int 1, .int 2]])]]),
      ("edges", .null)]) =
    .error (.graph (.str "clinic") (.invalidPart [⟨[.key 1], .notName⟩])) := by
  cbv

/-- A graph whose nodes are no list at all is refused without a word about its flow. -/
theorem null_nodes_escape :
    ¬ ((∃ g, parse (.str "clinic") (.object [("nodes", .null)]) = .ok g) ∨
      ∃ trouble, parse (.str "clinic") (.object [("nodes", .null)]) =
        .error (.graph (.str "clinic") trouble)) := by
  rintro (⟨g, hg⟩ | ⟨trouble, h⟩)
  · cases hg
  · cases h

end FlowGraph

end ChatFlow
