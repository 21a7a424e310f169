import ChatFlow.Proofs.Graph.Routing
import ChatFlow.Proofs.Graph.Saving

/-!
# Defects of graphs

An authored graph whose nodes and edges can all be read is refused only for breaking the rules for the
whole graph, and then every breach is reported: `every_breach_reported`. A `Breach` has a place in
the graph, so that of two nodes that repeat the same id each has its own, and an edge that leads
from nowhere to nowhere has two. `breaches` goes through all places in order and asks at each one
whether it is marred; `ofParts_eq` says that the check, which goes through the nodes with the set of
ids seen so far and then through the edges, finds exactly these.

`Reads` says that the parts of an authored graph can be read, one by one. `Reads.parse_eq` is what
is left of parsing then.
-/

namespace ChatFlow

open Schema

/-! ## Breaches -/

/-- A place in a graph where it can break its rules, with the id that is at fault there. -/
inductive Breach
  /-- A node bears the id of an earlier one. -/
  | repeated (index : Nat) (id : String)
  /-- An edge comes from no node. -/
  | source (index : Nat) (id : String)
  /-- An edge leads to no node. -/
  | target (index : Nat) (id : String)
  deriving DecidableEq, Repr

namespace Breach

/-- What is reported of a breach. -/
def defect : Breach → Defect
  | repeated _ id => .duplicateNode id
  | source i id => .unknownSource i id
  | target i id => .unknownTarget i id

/-- A graph with nodes of these ids and with these edges breaks its rules at a place. -/
def Mars (ids : List String) (edges : List Edge) : Breach → Prop
  | repeated j id => ids[j]? = some id ∧ id ∈ ids.take j
  | source i id => edges[i]?.map Edge.source = some id ∧ id ∉ ids
  | target i id => edges[i]?.map Edge.target = some id ∧ id ∉ ids

instance (ids : List String) (edges : List Edge) : DecidablePred (Mars ids edges)
  | repeated j id => inferInstanceAs (Decidable (ids[j]? = some id ∧ id ∈ ids.take j))
  | source i id => inferInstanceAs (Decidable (edges[i]?.map Edge.source = some id ∧ id ∉ ids))
  | target i id => inferInstanceAs (Decidable (edges[i]?.map Edge.target = some id ∧ id ∉ ids))

/-- The order of places: nodes come before edges, in authored order, and an edge has its source
before its target. -/
def Precedes : Breach → Breach → Prop
  | repeated j _, repeated k _ => j < k
  | repeated _ _, _ => True
  | source i _, source k _ => i < k
  | source i _, target k _ => i ≤ k
  | target i _, source k _ => i < k
  | target i _, target k _ => i < k
  | _, repeated _ _ => False

/-- The ends of the edge at an index. -/
def ends (i : Nat) (e : Edge) : List Breach :=
  [source i e.source, target i e.target]

/-- The places of nodes, counted from an index on. -/
def nodePlaces (j : Nat) (ids : List String) : List Breach :=
  (ids.zipIdx j).map fun p => repeated p.2 p.1

/-- The places of edges, counted from an index on. -/
def edgePlaces (i : Nat) (edges : List Edge) : List Breach :=
  (edges.zipIdx i).flatMap fun p => ends p.2 p.1

variable {ids : List String} {edges : List Edge} {b : Breach} {i j : Nat}

@[simp] theorem nodePlaces_cons (j : Nat) (id : String) (ids : List String) :
    nodePlaces j (id :: ids) = repeated j id :: nodePlaces (j + 1) ids := rfl

@[simp] theorem edgePlaces_cons (i : Nat) (e : Edge) (edges : List Edge) :
    edgePlaces i (e :: edges) = source i e.source :: target i e.target :: edgePlaces (i + 1) edges :=
  rfl

theorem mem_nodePlaces : b ∈ nodePlaces j ids ↔
    ∃ k id, b = repeated (j + k) id ∧ ids[k]? = some id := by
  induction ids generalizing j with
  | nil => simp [nodePlaces]
  | cons id rest ih =>
    rw [nodePlaces_cons, List.mem_cons, ih]
    constructor
    · rintro (rfl | ⟨k, id', rfl, hk⟩)
      · exact ⟨0, id, rfl, rfl⟩
      · exact ⟨k + 1, id', by rw [Nat.add_right_comm, Nat.add_assoc], hk⟩
    · rintro ⟨_ | k, id', rfl, hk⟩
      · exact .inl (by simp_all)
      · exact .inr ⟨k, id', by rw [Nat.add_right_comm, Nat.add_assoc], hk⟩

theorem mem_edgePlaces : b ∈ edgePlaces i edges ↔
    ∃ k e, b ∈ ends (i + k) e ∧ edges[k]? = some e := by
  induction edges generalizing i with
  | nil => simp [edgePlaces]
  | cons e rest ih =>
    have hsplit : b ∈ edgePlaces i (e :: rest) ↔ b ∈ ends i e ∨ b ∈ edgePlaces (i + 1) rest := by
      simp [ends, or_assoc]
    rw [hsplit, ih]
    constructor
    · rintro (hb | ⟨k, e', hb, hk⟩)
      · exact ⟨0, e, hb, rfl⟩
      · exact ⟨k + 1, e', by rwa [Nat.add_right_comm, Nat.add_assoc] at hb, hk⟩
    · rintro ⟨_ | k, e', hb, hk⟩
      · exact .inl (by simp_all)
      · exact .inr ⟨k, e', by rwa [Nat.add_right_comm, Nat.add_assoc], hk⟩

theorem pairwise_nodePlaces (j : Nat) (ids : List String) :
    (nodePlaces j ids).Pairwise Precedes := by
  induction ids generalizing j with
  | nil => exact .nil
  | cons id rest ih =>
    refine .cons (fun b hb => ?_) (ih (j + 1))
    obtain ⟨k, id', rfl, -⟩ := mem_nodePlaces.mp hb
    show j < j + 1 + k
    omega

theorem pairwise_edgePlaces (i : Nat) (edges : List Edge) :
    (edgePlaces i edges).Pairwise Precedes := by
  induction edges generalizing i with
  | nil => exact .nil
  | cons e rest ih =>
    have hlater : ∀ b ∈ edgePlaces (i + 1) rest,
        ∃ k id, i < k ∧ (b = source k id ∨ b = target k id) := by
      intro b hb
      obtain ⟨k, e', hmem, -⟩ := mem_edgePlaces.mp hb
      rcases List.mem_pair.mp hmem with rfl | rfl
      · exact ⟨_, _, by omega, .inl rfl⟩
      · exact ⟨_, _, by omega, .inr rfl⟩
    refine .cons (fun b hb => ?_) (.cons (fun b hb => ?_) (ih (i + 1)))
    · rcases List.mem_cons.mp hb with rfl | hb
      · exact Nat.le_refl i
      · obtain ⟨k, id, hk, rfl | rfl⟩ := hlater b hb
        · exact hk
        · exact Nat.le_of_lt hk
    · obtain ⟨k, id, hk, rfl | rfl⟩ := hlater b hb
      · exact hk
      · exact hk

end Breach

/-- The breaches of a graph: all places in order, as far as they are marred. -/
def breaches (ids : List String) (edges : List Edge) : List Breach :=
  (Breach.nodePlaces 0 ids ++ Breach.edgePlaces 0 edges).filter (Breach.Mars ids edges ·)

section breaches

open Breach

variable {ids : List String} {edges : List Edge}

theorem mem_breaches {b : Breach} : b ∈ breaches ids edges ↔ b.Mars ids edges := by
  rw [breaches, List.mem_filter, List.mem_append, mem_nodePlaces, mem_edgePlaces]
  refine ⟨fun h => by simpa using h.2, fun h => ⟨?_, by simpa using h⟩⟩
  cases b with
  | repeated j id => exact .inl ⟨j, id, by simp, h.1⟩
  | source i id =>
    obtain ⟨e, he, rfl⟩ := Option.map_eq_some_iff.mp h.1
    exact .inr ⟨i, e, by simp [ends], he⟩
  | target i id =>
    obtain ⟨e, he, rfl⟩ := Option.map_eq_some_iff.mp h.1
    exact .inr ⟨i, e, by simp [ends], he⟩

theorem pairwise_breaches (ids : List String) (edges : List Edge) :
    (breaches ids edges).Pairwise Precedes := by
  refine List.Pairwise.filter _ (List.pairwise_append.mpr
    ⟨pairwise_nodePlaces 0 ids, pairwise_edgePlaces 0 edges, fun a ha b hb => ?_⟩)
  obtain ⟨k, id, rfl, -⟩ := mem_nodePlaces.mp ha
  obtain ⟨i, e, hmem, -⟩ := mem_edgePlaces.mp hb
  rcases List.mem_pair.mp hmem with rfl | rfl
  · trivial
  · trivial

end breaches

namespace Defect

open Breach

theorem duplicates_eq {seen before rest : List String} {edges : List Edge}
    (hseen : ∀ id, id ∈ seen ↔ id ∈ before) :
    (duplicates seen rest).map duplicateNode =
      ((nodePlaces before.length rest).filter (Mars (before ++ rest) edges ·)).map defect := by
  -- the ids seen so far may be listed in any order, and an id that is repeated only once
  induction rest generalizing seen before with
  | nil => rfl
  | cons id rest ih =>
    have hnext := fun {seen'} => @ih seen' (before ++ [id])
    simp only [List.length_append, List.length_singleton, List.append_assoc,
      List.singleton_append] at hnext
    have hmars : Mars (before ++ id :: rest) edges (repeated before.length id) ↔ id ∈ seen := by
      simp [Mars, hseen]
    rw [nodePlaces_cons, List.filter_cons, duplicates]
    by_cases hid : id ∈ seen
    · rw [if_pos hid, if_pos (by simpa using hmars.mpr hid), List.map_cons, List.map_cons,
        hnext fun other => ?_]
      · rfl
      · rw [List.mem_append, ← hseen, List.mem_singleton]
        exact ⟨.inl, fun h => h.elim (fun hother => hother) fun heq => heq ▸ hid⟩
    · rw [if_neg hid, if_neg (by simpa using mt hmars.mp hid), hnext fun other => ?_]
      rw [List.mem_cons, List.mem_append, ← hseen, List.mem_singleton, or_comm]

theorem endpoints_eq {ids : List String} (before rest : List Edge) :
    endpoints ids before.length rest =
      ((edgePlaces before.length rest).filter (Mars ids (before ++ rest) ·)).map defect := by
  induction rest generalizing before with
  | nil => rfl
  | cons e rest ih =>
    have hnext := ih (before ++ [e])
    simp only [List.length_append, List.length_singleton, List.append_assoc,
      List.singleton_append] at hnext
    have hsource : Mars ids (before ++ e :: rest) (source before.length e.source) ↔
        e.source ∉ ids := by simp [Mars]
    have htarget : Mars ids (before ++ e :: rest) (target before.length e.target) ↔
        e.target ∉ ids := by simp [Mars]
    rw [edgePlaces_cons, List.filter_cons, List.filter_cons, endpoints, hnext]
    simp only [hsource, htarget, decide_not]
    by_cases hs : e.source ∈ ids <;> by_cases ht : e.target ∈ ids <;> simp [hs, ht, defect]

/-- The check finds the breaches, in order. -/
theorem ofParts_eq (nodes : List Node) (edges : List Edge) :
    ofParts nodes edges = (breaches (nodes.map Node.id) edges).map Breach.defect := by
  have hnodes : (duplicates [] (nodes.map Node.id)).map duplicateNode =
      ((nodePlaces 0 (nodes.map Node.id)).filter (Mars (nodes.map Node.id) edges ·)).map defect :=
    @duplicates_eq [] [] _ edges (by simp)
  have hedges : endpoints (nodes.map Node.id) 0 edges =
      ((edgePlaces 0 edges).filter (Mars (nodes.map Node.id) edges ·)).map defect :=
    endpoints_eq [] edges
  rw [ofParts, breaches, List.filter_append, List.map_append]
  exact congrArg₂ _ hnodes hedges

theorem ofParts_eq_nil_iff {nodes : List Node} {edges : List Edge} :
    ofParts nodes edges = [] ↔ (nodes.map Node.id).Nodup ∧
      ∀ e ∈ edges, e.source ∈ nodes.map Node.id ∧ e.target ∈ nodes.map Node.id := by
  constructor
  · intro h
    simp only [ofParts, List.append_eq_nil_iff, List.map_eq_nil_iff] at h
    exact ⟨(nodup_of_duplicates_eq_nil h.1).1, fun e he => mem_of_endpoints_eq_nil h.2 he⟩
  · rintro ⟨hnodup, hends⟩
    rw [ofParts_eq, List.map_eq_nil_iff, List.eq_nil_iff_forall_not_mem]
    intro b hb
    have hmars := mem_breaches.mp hb
    cases b with
    | repeated j id =>
      obtain ⟨hj, hbefore⟩ := hmars
      have hafter : id ∈ (nodes.map Node.id).drop j :=
        List.mem_of_getElem? (i := 0) (by simpa using hj)
      rw [← List.take_append_drop j (nodes.map Node.id)] at hnodup
      exact (List.nodup_append.mp hnodup).2.2 id hbefore id hafter rfl
    | source i id =>
      obtain ⟨e, he, rfl⟩ := Option.map_eq_some_iff.mp hmars.1
      exact hmars.2 (hends e (List.mem_of_getElem? he)).1
    | target i id =>
      obtain ⟨e, he, rfl⟩ := Option.map_eq_some_iff.mp hmars.1
      exact hmars.2 (hends e (List.mem_of_getElem? he)).2

end Defect

namespace FlowGraph

variable {flow : Value} {fs : Fields} {nodes : List Node} {edges : List Edge}

/-! ## The index of nodes -/

theorem get?_index (g : FlowGraph) (id : String) : g.index.get? id = g.node? id := by
  have hentries : ∀ nodes : List Node,
      Table.get? (nodes.map fun n => (n.id, n)) id = nodes.find? (·.id == id) := by
    intro nodes
    induction nodes with
    | nil => rfl
    | cons n rest ih =>
      by_cases hn : n.id = id
      · simp [Table.get?, hn]
      · simp [Table.get?, hn, ih]
  have hkeys : (Table.keys (g.nodes.map fun n => (n.id, n))).Nodup := by
    simpa [Table.keys, Function.comp_def] using g.nodup_ids
  rw [index, Table.ofEntries, Table.get?_merge hkeys, hentries, node?, Table.get?_nil,
    Option.or_none]

/-! ## Graphs with readable parts -/

theorem mapM_eq_ok {α β : Type} {f : α → Except Fault β} {xs : List α} {ys : List β} :
    xs.mapM f = .ok ys ↔ List.Forall₂ (fun x y => f x = .ok y) xs ys := by
  induction xs generalizing ys with
  | nil =>
    rw [List.mapM_nil, pure_eq_ok, List.forall₂_nil_left_iff, eq_comm]
  | cons x rest ih =>
    rw [List.mapM_cons, List.forall₂_cons_left_iff]
    constructor
    · intro h
      obtain ⟨y, hy, h⟩ := bind_eq_ok.mp h
      obtain ⟨ys', hys, h⟩ := bind_eq_ok.mp h
      exact ⟨y, ys', hy, ih.mp hys, (pure_eq_ok.mp h).symm⟩
    · rintro ⟨y, ys', hy, hys, rfl⟩
      exact bind_eq_ok.mpr ⟨y, hy, bind_eq_ok.mpr ⟨ys', ih.mpr hys, rfl⟩⟩

theorem parseEdges_eq (flow : Value) (i : Nat) (vs : List Value) :
    parseEdges flow i vs = (vs.zipIdx i).mapM fun p => parseEdge flow p.2 p.1 := by
  induction vs generalizing i with
  | nil => rfl
  | cons v rest ih =>
    rw [parseEdges, List.zipIdx_cons, List.mapM_cons, ih]

/-- The parts of an authored graph, under one of its fields. -/
def parts (fs : Fields) (name : String) : Except Fault (List Value) :=
  Authored.elements ((Table.get? fs name).getD (.list []))

/-- Every authored node and every authored edge of a graph can be read on its own, and these are the
nodes and edges that they stand for. -/
structure Reads (flow : Value) (fs : Fields) (nodes : List Node) (edges : List Edge) : Prop where
  nodes : ∃ vs, parts fs "nodes" = .ok vs ∧
    List.Forall₂ (fun v n => parseNode flow v = .ok n) vs nodes
  edges : ∃ vs, parts fs "edges" = .ok vs ∧
    List.Forall₂ (fun p e => parseEdge flow p.2 p.1 = .ok e) vs.zipIdx edges

theorem Reads.parse_eq (h : Reads flow fs nodes edges) :
    parse flow (.object fs) = assemble flow nodes edges := by
  obtain ⟨vs, hvs, hnodes⟩ := h.nodes
  obtain ⟨ws, hws, hedges⟩ := h.edges
  have hreadNodes : vs.mapM (parseNode flow) = .ok nodes := mapM_eq_ok.mpr hnodes
  have hreadEdges : parseEdges flow 0 ws = .ok edges := by
    rw [parseEdges_eq]
    exact mapM_eq_ok.mpr hedges
  unfold parts at hvs hws
  simp only [parse, hvs, hws, hreadNodes, hreadEdges, bind, Except.bind]

theorem ofParts_of_sound (h : Defect.ofParts nodes edges = []) :
    ofParts nodes edges = .ok ⟨nodes, edges, h⟩ :=
  dif_pos h

theorem ofParts_of_unsound (h : Defect.ofParts nodes edges ≠ []) :
    ofParts nodes edges = .error (Defect.ofParts nodes edges) :=
  dif_neg h

theorem exists_assemble :
    (∃ g, assemble flow nodes edges = .ok g) ↔ Defect.ofParts nodes edges = [] := by
  constructor
  · rintro ⟨g, hg⟩
    obtain ⟨rfl, rfl⟩ := assemble_eq_ok.mp hg
    exact g.sound
  · intro h
    exact ⟨⟨nodes, edges, h⟩, assemble_eq_ok.mpr ⟨rfl, rfl⟩⟩

theorem assemble_eq_error {f : Fault} : assemble flow nodes edges = .error f ↔
    Defect.ofParts nodes edges ≠ [] ∧
      f = .graph flow (.unsound ((Defect.ofParts nodes edges).map Defect.message)) := by
  rw [assemble_eq]
  by_cases h : Defect.ofParts nodes edges = []
  · simp [ofParts_of_sound h, h]
  · simp [ofParts_of_unsound h, h, eq_comm]

theorem exists_build :
    (∃ g, build nodes edges = .valid g) ↔ Defect.ofParts nodes edges = [] := by
  rw [build]
  by_cases h : Defect.ofParts nodes edges = []
  · simp [ofParts_of_sound h, h]
  · simp [ofParts_of_unsound h, h, Checked.complain]

/-- An authored graph whose parts can be read is accepted exactly if its nodes have different ids and
its edges have both ends among them. Then nothing is lost or added, and the index agrees with a
search for any id. Otherwise the flow is blamed, for every breach of the rules once and in order.
The rules are checked before the graph is built, and building it never finds anything more. -/
theorem every_breach_reported (h : Reads flow fs nodes edges) :
    ((∃ g, parse flow (.object fs) = .ok g) ↔ (nodes.map Node.id).Nodup ∧
      ∀ e ∈ edges, e.source ∈ nodes.map Node.id ∧ e.target ∈ nodes.map Node.id) ∧
    (∀ g, parse flow (.object fs) = .ok g →
      g.nodes = nodes ∧ g.edges = edges ∧ ∀ id, g.node? id = g.index.get? id) ∧
    (∀ f, parse flow (.object fs) = .error f →
      ∃ bs : List Breach, bs ≠ [] ∧ bs.Pairwise Breach.Precedes ∧
        (∀ b, b ∈ bs ↔ b.Mars (nodes.map Node.id) edges) ∧
        f = .graph flow (.unsound (bs.map fun b => b.defect.message))) ∧
    ((∃ g, build nodes edges = .valid g) ↔ Defect.ofParts nodes edges = []) := by
  rw [h.parse_eq]
  refine ⟨exists_assemble.trans Defect.ofParts_eq_nil_iff, fun g hg => ?_, fun f hf => ?_,
    exists_build⟩
  · obtain ⟨hnodes, hedges⟩ := assemble_eq_ok.mp hg
    exact ⟨hnodes, hedges, fun id => (g.get?_index id).symm⟩
  · obtain ⟨hdefects, rfl⟩ := assemble_eq_error.mp hf
    rw [Defect.ofParts_eq] at hdefects ⊢
    refine ⟨breaches (nodes.map Node.id) edges, by simpa using hdefects, pairwise_breaches _ _,
      fun b => mem_breaches, ?_⟩
    rw [List.map_map]
    rfl

/-- A graph with an id that three nodes bear, a loop, and two edges that lead astray. -/
def tangledAuthored : Fields :=
  [("nodes", .list
    [.object [("id", .str "a"), ("type", .str "startNode")],
      .object [("id", .str "b"), ("type", .str "message")],
      .object [("id", .str "a"), ("type", .str "end")],
      .object [("id", .str "a"), ("type", .str "list")]]),
    ("edges", .list
      [.object [("source", .str "b"), ("target", .str "b")],
        .object [("source", .str "x"), ("target", .str "y")],
        .object [("source", .str "a"), ("target", .str "x")]])]

def tangledNodes : List Node :=
  [⟨"a", .start {}⟩, ⟨"b", .message {}⟩, ⟨"a", .ending {}⟩, ⟨"a", .list {}⟩]

def tangledEdges : List Edge :=
  [{ id := "e0", source := "b", target := "b" }, { id := "e1", source := "x", target := "y" },
    { id := "e2", source := "a", target := "x" }]

theorem tangled_reported :
    Reads (.str "knot") tangledAuthored tangledNodes tangledEdges ∧
      ∃ bs : List Breach, bs ≠ [] ∧ bs.Pairwise Breach.Precedes ∧
        (∀ b, b ∈ bs ↔ b.Mars (tangledNodes.map Node.id) tangledEdges) ∧
        parse (.str "knot") (.object tangledAuthored) =
          .error (.graph (.str "knot") (.unsound (bs.map fun b => b.defect.message))) := by
  have hreads : Reads (.str "knot") tangledAuthored tangledNodes tangledEdges :=
    ⟨⟨_, rfl, .cons rfl (.cons rfl (.cons rfl (.cons rfl .nil)))⟩,
      ⟨_, rfl, .cons rfl (.cons rfl (.cons rfl .nil))⟩⟩
  obtain ⟨haccepted, -, hrefused, -⟩ := every_breach_reported hreads
  cases hparsed : parse (.str "knot") (.object tangledAuthored) with
  | ok g =>
    have hnodup := (haccepted.mp ⟨g, hparsed⟩).1
    exact absurd hnodup (by decide)
  | error f =>
    obtain ⟨bs, hbs, hordered, hall, rfl⟩ := hrefused f hparsed
    exact ⟨hreads, bs, hbs, hordered, hall, rfl⟩

example : breaches (tangledNodes.map Node.id) tangledEdges =
    [.repeated 2 "a", .repeated 3 "a", .source 1 "x", .target 1 "y", .target 2 "x"] := by
  decide

end FlowGraph

end ChatFlow
