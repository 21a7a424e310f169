import ChatFlow.Manager
import ChatFlow.Proofs.Context.Store
import ChatFlow.Proofs.Simulation.Play
import Mathlib.Data.List.Basic

/-!
# Runs of a manager

A run of a manager is a list of steps: somebody wants something of the session of an address, the
synthesizer reports a playback, or other flows are registered. `Manager.take` takes one step, and
`Manager.seen` is all that can be seen of the sessions meanwhile, the ones that are discarded
included. `Manager.Ends` says that whatever a step makes a session do comes to an end.

The second half is about the manager's parts: what is saved (`saveAll_eq`), what becomes of a
session that is discarded (`discard_eq`), and what a start puts in its place (`start_eq`).
-/

namespace ChatFlow

open Session Simulation

/-- What somebody can want of a session. -/
inductive Wish
  | start (flow : FlowId) (vars : Fields)
  | submit (reply : Value)
  | transcript (text : Value)
  | speechComplete
  | reset
  | finish
  deriving DecidableEq, Repr

/-- The cue by which a wish reaches the session that is there. A start and an end do not need
one. -/
def Wish.cue? : Wish → Option Cue
  | .start _ _ => none
  | .submit reply => some (.issue (.submit reply))
  | .transcript text => some (.issue (.transcript text))
  | .speechComplete => some (.issue .speechComplete)
  | .reset => some .reset
  | .finish => none

theorem Wish.not_isReport {wish : Wish} {c : Cue} (h : wish.cue? = some c) : ¬ c.IsReport := by
  cases wish <;> simp [Wish.cue?] at h <;> subst h <;> exact id

structure Demand where
  address : Address
  wish : Wish
  deriving DecidableEq, Repr

namespace Manager

/-- What can happen to a manager. -/
inductive Step
  | demand (d : Demand)
  /-- The synthesizer reports a playback. -/
  | report
  /-- Flows are registered or forgotten. -/
  | register (r : Registry)

variable {σ : Type}

/-- The context of the session of an address, if one is being run. -/
def current? (m : Manager σ) (a : Address) : Option Context :=
  (m.session? a.tenant a.session).bind m.stage.context?

/-- Do what is wanted. The result of a reset is the context after it. -/
def meet (m : Manager σ) (d : Demand) : Manager σ × Played :=
  let a := d.address
  match d.wish with
  | .start flow vars => m.start a.tenant a.session flow vars
  | .submit reply => m.playFor a.tenant a.session (.issue (.submit reply))
  | .transcript text => m.playFor a.tenant a.session (.issue (.transcript text))
  | .speechComplete => m.playFor a.tenant a.session (.issue .speechComplete)
  | .reset =>
    let (m, p) := m.playFor a.tenant a.session .reset
    (m, { p with result := (m.current? a).map .ok })
  | .finish => (m.finish a.tenant a.session, idle)

def take (m : Manager σ) : Step → Manager σ × Played
  | .demand d => m.meet d
  | .report => m.report
  | .register r => ({ m with registry := r }, idle)

/-- The manager after steps. -/
def after (m : Manager σ) (xs : List Step) : Manager σ :=
  xs.foldl (fun m x => (m.take x).1) m

/-- A manager that has not run anything. -/
structure Fresh (m : Manager σ) : Prop where
  sessions_eq : m.stage.sessions = []
  frames_eq : m.stage.frames = []
  arrivals_eq : m.stage.arrivals = []
  live_eq : m.live = []
  flows_eq : m.flows = []
  store_eq : m.store.contexts = []

/-- The manager when a flow is about to be started in a new session. -/
def enroll (m : Manager σ) (a : Address) (flow : FlowId) (graph : FlowGraph) : Manager σ :=
  let m := m.discard a.key
  { m with
    stage := m.stage.addSession (m.setupFor a.tenant a.session graph)
    live := m.live.insert a.key m.stage.sessions.length
    flows := m.flows.insert a.key flow }

/-- The number of the next new session at an address. -/
def newcomer (m : Manager σ) (a : Address) : Nat :=
  (m.discard a.key).stage.sessions.length

/-- Whatever a step makes a session do comes to an end. -/
def Ends (m : Manager σ) : Step → Prop
  | .demand ⟨a, .start flow vars⟩ => ∀ graph, m.registry.get? flow = some graph →
    (m.enroll a flow graph).stage.Ends (m.newcomer a) (.issue (.start vars))
  | .demand ⟨a, wish⟩ => ∀ c i, wish.cue? = some c → m.live.get? a.key = some i →
    m.stage.Ends i c
  | .report => m.stage.Ends 0 .report
  | .register _ => True

def EndAll (m : Manager σ) : List Step → Prop
  | [] => True
  | x :: rest => m.Ends x ∧ (m.take x).1.EndAll rest

theorem endAll_concat {m : Manager σ} {xs : List Step} {x : Step} :
    m.EndAll (xs ++ [x]) ↔ m.EndAll xs ∧ (m.after xs).Ends x := by
  induction xs generalizing m with
  | nil => simp [EndAll, after]
  | cons y rest ih => simp [EndAll, after, ih, and_assoc]

/-- What can be seen of a session that is discarded. -/
def discardSeen (m : Manager σ) (key : String) : List Entry :=
  match m.live.get? key with
  | none => []
  | some i =>
    let m := { m with live := m.live.erase key }
    let (m, p) := m.play i .reset
    p.entries ++ (m.play i .close).2.entries

/-- All that can be seen of sessions during a step. -/
def seen (m : Manager σ) : Step → List Entry
  | .demand ⟨a, .start flow vars⟩ =>
    (if (m.registry.get? flow).isSome then m.discardSeen a.key else []) ++
      (m.start a.tenant a.session flow vars).2.entries
  | .demand ⟨a, .finish⟩ => m.discardSeen a.key
  | x => (m.take x).2.entries

variable {m : Manager σ} {a : Address} {k : String} {i j : Nat} {s : Setup} {st : State} {c : Cue}
  {flow : FlowId} {vars : Fields} {graph : FlowGraph} {es : List Entry}

theorem start_eq (h : m.registry.get? flow = some graph) :
    m.start a.tenant a.session flow vars =
      (m.enroll a flow graph).play (m.newcomer a) (.issue (.start vars)) := by
  simp only [start, h]
  rfl

theorem live_enroll (m : Manager σ) (a : Address) (flow : FlowId) (graph : FlowGraph) :
    (m.enroll a flow graph).live.get? a.key = some (m.newcomer a) := by
  simp [enroll, newcomer]

theorem playFor_eq (m : Manager σ) (a : Address) (c : Cue) :
    m.playFor a.tenant a.session c =
      match m.live.get? a.key with
      | none => (m, idle)
      | some i => m.play i c := rfl

theorem Ends.cue {wish : Wish} (hends : m.Ends (.demand ⟨a, wish⟩)) (h : wish.cue? = some c)
    (hi : m.live.get? a.key = some i) : m.stage.Ends i c := by
  cases wish with
  | start flow vars | finish => cases h
  | submit reply | transcript text | speechComplete | reset => exact hends c i h hi

theorem start_unknown (h : m.registry.get? flow = none) :
    m.start a.tenant a.session flow vars =
      (m, ⟨[], some (.error (.unknownFlow flow.toValue))⟩) := by
  simp only [start, h]

/-! ## What is saved -/

/-- The key of a session of a stage. -/
def keyAt (w : Stage σ) (i : Nat) : Option String :=
  w.sessions[i]?.map fun e => sessionKey e.1.tenant e.1.id

/-- The context that an entry brings under a key. -/
def contextUnder? (w : Stage σ) (k : String) : Entry → Option Context
  | .context i c => if keyAt w i = some k then some c else none
  | _ => none

/-- The store after contexts have been saved. -/
def storeAfter (m : Manager σ) (w : Stage σ) (es : List Entry) : ContextStore :=
  ({ m with stage := w }.saveAll es).store

theorem saveAll_eq (m : Manager σ) (es : List Entry) :
    m.saveAll es = { m with store := m.storeAfter m.stage es } := by
  suffices hstore : ∀ m : Manager σ, ∃ store, m.saveAll es = { m with store := store } by
    obtain ⟨store, heq⟩ := hstore m
    rw [storeAfter, heq]
  induction es with
  | nil => exact fun m => ⟨m.store, rfl⟩
  | cons e es ih =>
    intro m
    cases e with
    | context i c =>
      simp only [saveAll, List.foldl_cons]
      split
      · rename_i s st _
        exact ih { m with store := m.store.save s.tenant s.id c }
      · exact ih m
    | called r => exact ih m
    | failed e => exact ih m

theorem play_eq (m : Manager σ) (i : Nat) (c : Cue) :
    m.play i c =
      ({ m with
        stage := (m.stage.play i c).1
        store := m.storeAfter (m.stage.play i c).1 (m.stage.play i c).2.entries },
        (m.stage.play i c).2) := by
  show (({ m with stage := (m.stage.play i c).1 } : Manager σ).saveAll
    (m.stage.play i c).2.entries, (m.stage.play i c).2) = _
  rw [saveAll_eq]
  rfl

/-- What becomes of a cue, if that is over within a number of steps. -/
def playWithin (n : Nat) (m : Manager σ) (i : Nat) (c : Cue) : Option (Manager σ × Played) :=
  (m.stage.playWithin n i c).map fun p => ({ m with stage := p.1 }.saveAll p.2.entries, p.2)

theorem play_of_within {n : Nat} {q : Manager σ × Played} (h : m.playWithin n i c = some q) :
    m.play i c = q := by
  obtain ⟨p, hp, rfl⟩ := Option.map_eq_some_iff.mp h
  rw [play, Stage.play_of_within hp]

theorem play_registry (m : Manager σ) (i : Nat) (c : Cue) :
    (m.play i c).1.registry = m.registry := by
  rw [play_eq]

theorem discard_registry (m : Manager σ) (k : String) : (m.discard k).registry = m.registry := by
  unfold discard
  split
  · rfl
  · simp only [play_registry]

theorem playFor_registry (m : Manager σ) (a : Address) (c : Cue) :
    (m.playFor a.tenant a.session c).1.registry = m.registry := by
  rw [playFor_eq]
  split
  · rfl
  · exact play_registry m _ c

theorem meet_registry (m : Manager σ) (d : Demand) : (m.meet d).1.registry = m.registry := by
  obtain ⟨a, wish⟩ := d
  cases wish with
  | start flow vars =>
    simp only [meet]
    cases hgraph : m.registry.get? flow with
    | none => rw [start_unknown hgraph]
    | some graph =>
      rw [start_eq hgraph, play_registry]
      exact discard_registry m a.key
  | finish => exact discard_registry m a.key
  | submit reply | transcript text | speechComplete | reset => exact playFor_registry m a _

theorem get?_storeAfter (m : Manager σ) (w : Stage σ) (es : List Entry) (k : String) :
    (m.storeAfter w es).contexts.get? k =
      (es.filterMap (contextUnder? w k)).getLast?.or (m.store.contexts.get? k) := by
  induction es generalizing m with
  | nil => rfl
  | cons e es ih =>
    cases e with
    | context i c =>
      cases hi : w.sessions[i]? with
      | none =>
        have hstep : m.storeAfter w (.context i c :: es) = m.storeAfter w es := by
          simp [storeAfter, saveAll, hi]
        rw [hstep, ih]
        simp [contextUnder?, keyAt, hi]
      | some entry =>
        obtain ⟨s, st⟩ := entry
        have hstep : m.storeAfter w (.context i c :: es) =
            { m with store := m.store.save s.tenant s.id c }.storeAfter w es := by
          simp [storeAfter, saveAll, hi]
        rw [hstep, ih]
        simp only [ContextStore.save, Table.get?_insert, List.filterMap_cons, contextUnder?, keyAt,
          hi, Option.map_some, Option.some.injEq]
        by_cases hk : sessionKey s.tenant s.id = k
        · simp only [hk, if_true, List.getLast?_cons]
          cases (es.filterMap (contextUnder? w k)).getLast? <;> rfl
        · simp only [hk, if_false]
    | called r | failed e => exact ih m

theorem get?_play (m : Manager σ) (i : Nat) (c : Cue) (k : String) :
    (m.play i c).1.store.contexts.get? k =
      ((m.stage.play i c).2.entries.filterMap (contextUnder? (m.stage.play i c).1 k)).getLast?.or
        (m.store.contexts.get? k) := by
  rw [play_eq]
  exact get?_storeAfter m _ _ k

theorem saved_eq_contextsOf {w : Stage σ} (hi : keyAt w i = some k)
    (hothers : ∀ j, j ≠ i → keyAt w j = some k → contextsOf j es = []) :
    es.filterMap (contextUnder? w k) = contextsOf i es := by
  unfold contextsOf
  refine List.filterMap_congr fun e he => ?_
  cases e with
  | context j c =>
    by_cases hj : j = i
    · subst hj
      simp [contextUnder?, Entry.contextOf?, hi]
    · by_cases hk : keyAt w j = some k
      · have hnone := List.filterMap_eq_nil_iff.mp (hothers j hj hk) _ he
        simp [Entry.contextOf?] at hnone
      · simp [contextUnder?, Entry.contextOf?, hk, hj]
  | called r | failed e => rfl

theorem saved_eq_nil {w : Stage σ} (hall : ∀ j, keyAt w j = some k → contextsOf j es = []) :
    es.filterMap (contextUnder? w k) = [] := by
  refine List.filterMap_eq_nil_iff.mpr fun e he => ?_
  cases e with
  | context j c =>
    by_cases hk : keyAt w j = some k
    · have hnone := List.filterMap_eq_nil_iff.mp (hall j hk) _ he
      simp [Entry.contextOf?] at hnone
    · simp [contextUnder?, hk]
  | called r | failed e => rfl

end Manager

/-! ## Sessions that are discarded -/

namespace Simulation.Stage

variable {σ : Type} {w : Stage σ} {i : Nat} {s : Setup} {st : State}

theorem addSession_old {e : Setup × State} (h : w.sessions[i]? = some e) (s : Setup) :
    (w.addSession s).sessions[i]? = some e := by
  rw [addSession, List.getElem?_append_left (List.getElem?_eq_some_iff.mp h).1]
  exact h

theorem addSession_new (w : Stage σ) (s : Setup) :
    (w.addSession s).sessions[w.sessions.length]? = some (s, {}) := by
  simp [addSession]

theorem addSession_cases {e : Setup × State} (h : (w.addSession s).sessions[i]? = some e) :
    w.sessions[i]? = some e ∨ i = w.sessions.length ∧ e = (s, {}) := by
  rcases Nat.lt_trichotomy i w.sessions.length with hlt | rfl | hgt
  · rw [addSession, List.getElem?_append_left hlt] at h
    exact .inl h
  · rw [addSession_new] at h
    exact .inr ⟨rfl, (Option.some.inj h).symm⟩
  · have hnone : (w.addSession s).sessions[i]? = none := by
      refine List.getElem?_eq_none ?_
      simp only [addSession, List.length_append, List.length_singleton]
      omega
    simp [hnone] at h

/-- The stage with another state of a session, after a cue has been played. -/
def replaced (w : Stage σ) (i : Nat) (s : Setup) (st : State) : Stage σ :=
  { w with sessions := w.sessions.set i (s, st), awaited := none, result := none, log := [] }

theorem AtRest.set (h : w.AtRest) (hst : st.AtRest) :
    ({ w with sessions := w.sessions.set i (s, st) } : Stage σ).AtRest := by
  refine ⟨fun e he => ?_, h.frames_eq, h.arrivals_eq⟩
  rcases List.mem_or_eq_of_mem_set he with he | rfl
  · exact h.sessions e he
  · exact hst

theorem replaced_self {e : Setup × State} (h : w.sessions[i]? = some e) :
    (w.replaced i s st).sessions[i]? = some (s, st) := by
  simp [replaced, (List.getElem?_eq_some_iff.mp h).1]

theorem replaced_other {j : Nat} (h : j ≠ i) :
    (w.replaced i s st).sessions[j]? = w.sessions[j]? := by
  simp [replaced, Ne.symm h]

theorem Lived.replaced (h : w.Lived) (hi : w.sessions[i]? = some (s, st)) (ms : List Move) :
    (w.replaced i s (st.steps s ms).1).Lived := by
  intro j s' st' hj
  by_cases hij : j = i
  · subst hij
    obtain ⟨rfl, rfl⟩ := Prod.mk.inj (Option.some.inj ((replaced_self hi).symm.trans hj))
    obtain ⟨log, course⟩ := h j s st hi
    exact ⟨_, course.trans (.of_steps ms (State.allows_of_forall fun _ _ _ => trivial))⟩
  · exact h j s' st' ((replaced_other hij).symm.trans hj)

theorem AtRest.replaced (h : w.AtRest) (hst : st.AtRest) : (w.replaced i s st).AtRest :=
  ⟨(h.set hst).sessions, h.frames_eq, h.arrivals_eq⟩

theorem atRest_with (h : st.AtRest) (memory : Memory) (subscribed : Bool) :
    ({ st with memory := memory, subscribed := subscribed } : State).AtRest :=
  ⟨h.holder, h.queue, h.echoes, h.scheduled⟩

theorem play_reset (h : w.AtRest) (hi : w.sessions[i]? = some (s, st)) :
    w.play i .reset = (w.replaced i s { st with memory := st.memory.reset },
      ⟨[.context i (.initial (st.memory.context.turn + 1))], none⟩) := by
  have hst : st.AtRest := h.sessions _ (List.mem_of_getElem? hi)
  have hmove : (w.readied i .reset).move i .reset =
      ({ w.readied i .reset with
        sessions := w.sessions.set i (s, { st with memory := st.memory.reset }) } : Stage σ).note
        (.context i (.initial (st.memory.context.turn + 1))) := by
    rw [move_eq (show (w.readied i .reset).sessions[i]? = _ from hi), State.reset_eq]
    rfl
  have hrest : ((w.readied i .reset).move i .reset).AtRest := by
    rw [hmove]
    exact ⟨(h.set (atRest_with hst st.memory.reset st.subscribed)).sessions, h.frames_eq,
      h.arrivals_eq⟩
  rw [play_of_settle rfl hrest.settle_eq, hmove]
  rfl

theorem play_close (h : w.AtRest) (hi : w.sessions[i]? = some (s, st)) :
    w.play i .close = (w.replaced i s { st with subscribed := false }, ⟨[], none⟩) := by
  have hst : st.AtRest := h.sessions _ (List.mem_of_getElem? hi)
  have hmove : (w.readied i .close).move i .unsubscribe =
      { w.readied i .close with
        sessions := w.sessions.set i (s, { st with subscribed := false }) } := by
    rw [move_eq (show (w.readied i .close).sessions[i]? = _ from hi)]
    rfl
  have hrest : ((w.readied i .close).move i .unsubscribe).AtRest := by
    rw [hmove]
    exact ⟨(h.set (atRest_with hst st.memory false)).sessions, h.frames_eq, h.arrivals_eq⟩
  rw [play_of_settle rfl hrest.settle_eq, hmove]
  rfl

end Simulation.Stage

namespace Manager

variable {σ : Type} {m : Manager σ} {a : Address} {k : String} {i : Nat} {s : Setup} {st : State}

/-- A session after it has been discarded. -/
def retire (st : State) : State :=
  { st with memory := st.memory.reset, subscribed := false }

theorem discard_none (h : m.live.get? k = none) : m.discard k = m := by
  simp only [discard, h]

/-- What becomes of a session at rest that is discarded, and what is seen of it. -/
theorem discard_eq (h : m.stage.AtRest) (hlive : m.live.get? k = some i)
    (hi : m.stage.sessions[i]? = some (s, st)) :
    m.discard k =
        { m with
          stage := m.stage.replaced i s (retire st)
          live := m.live.erase k
          store := m.store.save s.tenant s.id (.initial (st.memory.context.turn + 1)) } ∧
      m.discardSeen k = [.context i (.initial (st.memory.context.turn + 1))] := by
  have hst : st.AtRest := h.sessions _ (List.mem_of_getElem? hi)
  have hlt : i < m.stage.sessions.length := (List.getElem?_eq_some_iff.mp hi).1
  have hmiddle : (m.stage.replaced i s { st with memory := st.memory.reset }).sessions[i]? =
      some (s, { st with memory := st.memory.reset }) := Stage.replaced_self hi
  have hclose := Stage.play_close
    (h.replaced (i := i) (s := s) (Stage.atRest_with hst st.memory.reset st.subscribed)) hmiddle
  constructor
  · simp only [discard, hlive, play_eq, Stage.play_reset h hi, hclose]
    simp [storeAfter, saveAll, Stage.replaced, retire, hlt]
  · simp only [discardSeen, hlive, play_eq, Stage.play_reset h hi, hclose, List.append_nil]

end Manager

end ChatFlow
