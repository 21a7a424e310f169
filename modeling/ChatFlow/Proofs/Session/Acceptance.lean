import ChatFlow.Proofs.Session.Abandonment
import ChatFlow.Proofs.Session.Playback
import ChatFlow.Proofs.Session.Walk

/-!
# Accepted replies

A session at rest that waits for a reply can be answered: `reply_accepted_unless_nowhere`. Whatever
it has gone through, it waits at a node for what the node waits for (`Course.waitsAt`); any text then
resumes it (`State.Accepts`) and takes it out of the node, along an edge or to its end
(`State.Departs`).

A node with an empty id is the exception. A session comes to it and is suspended there like anywhere
else, but a reply looks for the node by an id that must not be empty, and is dropped
(`reply_dropped_at_empty_id`).
-/

namespace ChatFlow.Session

variable {s : Setup} {st st' : State} {c : Context} {n : Node} {op : Nat} {reply : Value}
  {port : Option String} {log : List Happening} {m : Move} {ms : List Move}

/-! ## Where a session waits -/

theorem Course.waitsAt_of_suspends (course : Course s Considerate {} log st) {e : Event}
    (he : e ∈ events (st.step s m).2) (hsuspends : e.Suspends) :
    ∃ n, s.WaitsAt (st.step s m).1.memory.context n := by
  obtain ⟨reason, choices, rfl⟩ : ∃ reason choices, e = .suspended reason choices := by
    cases e <;> first | exact ⟨_, _, rfl⟩ | exact hsuspends.elim
  rcases State.event_cases he with ⟨-, heq⟩ | ⟨rfl, op, i, rest, hholder, hstep, hmem⟩
  · simp at heq
  · obtain ⟨n, rfl, hevents, -⟩ := (perform_performs i).of_suspended hmem
    have hstands : s.StandsAt st.memory.context n :=
      (course.standing_considerate.held _ hholder).suits.1
    obtain ⟨port, hport⟩ | ⟨d, r, hyields, ht⟩ := (course.derives hholder).stems
    · simp at hport
    · have hwaits := (hyields.waits ht).1
      refine ⟨n, ?_⟩
      rw [hstep, State.carryOut_memory, Memory.after, hevents]
      exact ⟨rfl, hstands.cursor_eq, hstands.node_eq, hwaits.symm⟩

/-- A suspended session waits at a node, for what the node waits for. -/
theorem Course.waitsAt (course : Course s Considerate {} log st)
    (hs : st.memory.context.status = .suspended) : ∃ n, s.WaitsAt st.memory.context n := by
  induction course with
  | refl => simp [Context.initial] at hs
  | tail course m hm ih =>
    rename_i log st
    by_cases hsuspends : ∃ e ∈ events (st.step s m).2, e.Suspends
    · obtain ⟨e, he, hsuspends⟩ := hsuspends
      exact course.waitsAt_of_suspends he hsuspends
    · -- it was suspended before, and goes on waiting at the same place
      have hbefore := course.standing_considerate.healthy.sound
      have hsound := (course.tail m hm).standing_considerate.healthy.sound
      have hawaiting := hsound.suspended_iff.mp hs
      rw [State.step_context hm.1] at hs hawaiting ⊢
      obtain ⟨hsame, hcursor⟩ :=
        Context.foldl_waits (fun e he hs => hsuspends ⟨e, he, hs⟩) hawaiting
      obtain ⟨n, hn⟩ := ih (hbefore.suspended_iff.mpr (hsame ▸ hawaiting))
      exact ⟨n, hs, hcursor.trans hn.cursor_eq, hn.node_eq, hsame.trans hn.awaiting_eq⟩

theorem waitingNode?_eq_some_iff :
    s.waitingNode? c = some n ↔ c.cursor = some n.id ∧ s.graph.node? n.id = some n ∧ n.id ≠ "" := by
  constructor
  · intro h
    obtain ⟨hcursor, hnode⟩ := Setup.waitingNode?_eq_some h
    refine ⟨hcursor, hnode, fun hid => ?_⟩
    simp [Setup.waitingNode?, hcursor, hid] at h
  · rintro ⟨hcursor, hnode, hid⟩
    simp [Setup.waitingNode?, hcursor, hnode, hid]

theorem awaitsReply_iff (hs : c.status = .suspended) (hcursor : c.cursor = some n.id)
    (hnode : s.graph.node? n.id = some n) (hawaiting : c.awaiting ≠ some .speechPlayback) :
    s.AwaitsReply c n ↔ n.id ≠ "" := by
  constructor
  · intro hwaits
    exact (waitingNode?_eq_some_iff.mp hwaits.waiting).2.2
  · intro hid
    exact ⟨waitingNode?_eq_some_iff.mpr ⟨hcursor, hnode, hid⟩, hs, hawaiting⟩

theorem exists_replyVariable {text : String} (h : n.body.replyVariable = .str text) :
    ∃ name, replyVariable n = .ok name :=
  ⟨_, by rw [replyVariable, h]; rfl⟩

theorem replyVariable_of_waitsFor {voice : Bool} {reason : SuspendReason}
    (h : n.body.waitsFor voice = some reason) : ∃ text, n.body.replyVariable = .str text := by
  cases hbody : n.body <;> simp only [hbody, Body.waitsFor, reduceCtorEq] at h <;> exact ⟨_, rfl⟩

theorem perform_accept {name : String} (hwaits : s.AwaitsReply c n)
    (hname : replyVariable n = .ok name) (hport : replyPort c n reply = .ok port) :
    s.perform c (.accept reply) =
      { events := keeping name reply ++ [.resumed],
        outcome := .proceed [.leave n (.advanceVia port), .enter] } := by
  have hp := accept_performs (s := s) (c := c) reply
  have hsame : ∀ n', s.AwaitsReply c n' → n' = n := fun n' h =>
    Option.some.inj (h.waiting.symm.trans hwaits.waiting)
  generalize s.perform c (.accept reply) = p at hp
  cases hp with
  | takes hwaits' hname' hport' =>
    obtain rfl := hsame _ hwaits'
    obtain rfl := Except.ok.inj (hname.symm.trans hname')
    obtain rfl := Except.ok.inj (hport.symm.trans hport')
    rfl
  | drops h => exact absurd hwaits (h n)
  | misnames hwaits' hname' =>
    obtain rfl := hsame _ hwaits'
    simp [hname] at hname'
  | mismatches hwaits' hname' hport' =>
    obtain rfl := hsame _ hwaits'
    simp [hport] at hport'

/-! ## Replies to a session at rest -/

namespace State

/-- A session at rest accepts a reply: the reply is kept and resumes the session, and the operation
is about to leave the node through the port. -/
structure Accepts (s : Setup) (st : State) (reply : Value) (n : Node) (port : Option String) :
    Prop where
  holder_eq : (st.steps s [.begin (.submit reply), .tick]).1.holder =
    some ⟨st.nextOp, [.leave n (.advanceVia port), .enter], none⟩
  events_eq : ∃ name, replyVariable n = .ok name ∧
    events (st.steps s [.begin (.submit reply), .tick]).2 = keeping name reply ++ [.resumed]

/-- What comes of an operation that is about to leave a node through a port: the session follows the
first edge that serves the port; where no edge does, it says so and ends. If there is no text to say
so with, the operation fails. -/
inductive Departs (s : Setup) (st : State) (op : Nat) (n : Node) (port : Option String) : Prop
  | along {e : Edge} (he : s.graph.FirstEdge n.id port e)
      (h : events (st.step s .tick).2 = [.moved e.target])
  | ends {m : Message} (hdead : ∀ e ∈ s.graph.edges, ¬ e.Serves n.id port)
      (hm : notice s.config.endOfFlowMessage n.id = .ok m)
      (h : ∀ reply, ¬ Reply.Raises reply →
        events (st.steps s [.tick, .answer op reply, .tick]).2 = [.terminated])
  | mute {e : Fault} (hdead : ∀ e ∈ s.graph.edges, ¬ e.Serves n.id port)
      (hm : notice s.config.endOfFlowMessage n.id = .error e)
      (h : (st.step s .tick).2 = [.finished op (.error e)])

/-- A session at rest leaves a node through a port when the reply is submitted. -/
structure LeavesBy (s : Setup) (st : State) (reply : Value) (n : Node) (port : Option String) : Prop
    extends Accepts s st reply n port where
  departs : (st.steps s [.begin (.submit reply), .tick]).1.Departs s st.nextOp n port

theorem step_submit (hrest : st.isFree) (hs : st.memory.context.status = .suspended) :
    st.step s (.begin (.submit reply)) =
      ({ st with holder := some ⟨st.nextOp, [.accept reply], none⟩, nextOp := st.nextOp + 1 },
        []) := by
  have hfree : State.isFree { st with nextOp := st.nextOp + 1 } = true := hrest
  simp [step, State.begin, submit, acquire, hs, hfree]

theorem steps_submit (hrest : st.isFree) (hs : st.memory.context.status = .suspended) :
    st.steps s [.begin (.submit reply), .tick] =
      State.carryOut s { st with nextOp := st.nextOp + 1 } st.nextOp []
        (s.perform st.memory.context (.accept reply)) := by
  simp only [steps, step_submit hrest hs, List.nil_append, List.append_nil]
  rw [step, tick_eq_carryOut rfl rfl]
  rfl

theorem accepts_iff (hrest : st.isFree) (hs : st.memory.context.status = .suspended) :
    st.Accepts s reply n port ↔ s.AwaitsReply st.memory.context n ∧
      (∃ name, replyVariable n = .ok name) ∧ replyPort st.memory.context n reply = .ok port := by
  have hsteps : st.steps s [.begin (.submit reply), .tick] = _ := steps_submit hrest hs
  constructor
  · rintro ⟨hholder, -⟩
    have hp := accept_performs (s := s) (c := st.memory.context) reply
    generalize s.perform st.memory.context (.accept reply) = p at hp hsteps
    rw [hsteps] at hholder
    cases hp with
    | takes hwaits hname hport =>
      simp only [carryOut, List.append_nil, Option.some.injEq, Holder.mk.injEq, List.cons.injEq,
        Instruction.leave.injEq, Transition.advanceVia.injEq, and_true, true_and] at hholder
      obtain ⟨rfl, rfl⟩ := hholder
      exact ⟨hwaits, ⟨_, hname⟩, hport⟩
    | drops | misnames | mismatches => simp [carryOut] at hholder
  · rintro ⟨hwaits, ⟨name, hname⟩, hport⟩
    rw [perform_accept hwaits hname hport] at hsteps
    exact ⟨by rw [hsteps]; rfl, name, hname, by rw [hsteps, events_carryOut]⟩

theorem steps_dropped (hrest : st.isFree) (hs : st.memory.context.status = .suspended)
    (h : ∀ n, ¬ s.AwaitsReply st.memory.context n) :
    st.steps s [.begin (.submit reply), .tick, .tick] =
      ({ st with nextOp := st.nextOp + 1 }, [.finished st.nextOp (.ok st.memory.context)]) := by
  have hperform : s.perform st.memory.context (.accept reply) = { outcome := .stop } := by
    have hp := accept_performs (s := s) (c := st.memory.context) reply
    generalize s.perform st.memory.context (.accept reply) = p at hp ⊢
    cases hp with
    | drops => rfl
    | takes hwaits | misnames hwaits | mismatches hwaits => exact absurd hwaits (h _)
  have hfree : st.holder = none := by simpa using (Bool.and_eq_true_iff.mp hrest).1
  have hstops : st.steps s [.begin (.submit reply), .tick] =
      ({ st with holder := some ⟨st.nextOp, [], none⟩, nextOp := st.nextOp + 1 }, []) := by
    rw [steps_submit hrest hs, hperform]
    simp [carryOut, after_silent, Memory.log, Memory.applyAll]
  show st.steps s ([.begin (.submit reply), .tick] ++ [.tick]) = _
  rw [steps_append, hstops, steps, step, tick_over rfl]
  simp [steps, hfree]

/-! ## The way out of a node -/

theorem events_closing {r : Request} {rest : List Instruction} {answer : Reply}
    (hnumbered : st.Numbered) (hholder : st.holder = some ⟨op, .close :: rest, some (.outward r)⟩)
    (hanswer : ¬ Reply.Raises answer) :
    events (st.steps s [.answer op answer, .tick]).2 = [.terminated] := by
  simp only [steps, step, answer_outward hnumbered hholder hanswer]
  rw [tick_eq_carryOut rfl rfl, List.append_nil, List.nil_append, events_carryOut]
  rfl

theorem departs (hnumbered : st.Numbered)
    (hholder : st.holder = some ⟨op, [.leave n (.advanceVia port), .enter], none⟩)
    (hcursor : st.memory.context.cursor ≠ none) : st.Departs s op n port := by
  cases htargets : s.graph.targets n.id port with
  | cons target later =>
    obtain ⟨e, he, rfl⟩ := FlowGraph.head?_targets_eq_some (congrArg List.head? htargets)
    refine .along he ?_
    rw [step, tick_eq_carryOut hholder rfl, events_carryOut]
    simp [Setup.perform, Setup.leave, htargets]
  | nil =>
    have hdead : ∀ e ∈ s.graph.edges, ¬ e.Serves n.id port :=
      fun e he => FlowGraph.not_serves_of_targets htargets he
    have hsome : st.memory.context.cursor.isSome = true := Option.isSome_iff_ne_none.mpr hcursor
    cases hm : notice s.config.endOfFlowMessage n.id with
    | ok m =>
      have hperform : s.perform st.memory.context (.leave n (.advanceVia port)) =
          { outcome := .call (s.sending m) [.close] } := by
        simp [Setup.perform, Setup.leave, htargets, hsome, hm]
      have htick := tick_eq_carryOut hholder hperform
      refine .ends hdead hm fun reply hreply => ?_
      have hnext : (st.step s .tick).1.Numbered := hnumbered.step .tick
      have hcalls : (st.step s .tick).1.holder =
          some ⟨op, [.close, .enter], some (s.sending m)⟩ := by
        rw [step, htick]
        rfl
      show events ((st.step s .tick).2 ++
        ((st.step s .tick).1.steps s [.answer op reply, .tick]).2) = [.terminated]
      rw [events_append, events_closing hnext hcalls hreply, step, htick, events_carryOut]
      rfl
    | error e =>
      refine .mute hdead hm ?_
      rw [step, tick_fail hholder]
      simp [Setup.perform, Setup.leave, htargets, hsome, hm]

theorem Accepts.leavesBy (h : st.Accepts s reply n port) (hnumbered : st.Numbered)
    (hcursor : st.memory.context.cursor ≠ none) : st.LeavesBy s reply n port := by
  obtain ⟨name, -, hevents⟩ := h.events_eq
  have hnext : (st.steps s [.begin (.submit reply), .tick]).1.Numbered :=
    (hnumbered.step (.begin (.submit reply))).step .tick
  refine ⟨h, departs hnext h.holder_eq ?_⟩
  have course : Course s (fun _ m => ∀ c, m ≠ .restore c) st _
      (st.steps s [.begin (.submit reply), .tick]).1 :=
    Course.of_steps _ (allows_of_forall (by simp))
  rw [course.context_eq fun _ c hm => hm c rfl, hevents, List.foldl_append]
  show ((keeping name reply).foldl Context.apply st.memory.context).cursor ≠ none
  rwa [cursor_keeping]

theorem leavesBy_iff (hnumbered : st.Numbered) (hrest : st.isFree)
    (hs : st.memory.context.status = .suspended) :
    st.LeavesBy s reply n port ↔ s.AwaitsReply st.memory.context n ∧
      (∃ name, replyVariable n = .ok name) ∧ replyPort st.memory.context n reply = .ok port := by
  rw [← accepts_iff hrest hs]
  constructor
  · exact LeavesBy.toAccepts
  · intro haccepts
    have hwaits := ((accepts_iff hrest hs).mp haccepts).1
    obtain ⟨hcursor, -⟩ := waitingNode?_eq_some_iff.mp hwaits.waiting
    exact haccepts.leavesBy hnumbered (by simp [hcursor])

end State

/-- A session at rest that waits for a reply accepts any text, unless the id of the node is empty.
Whatever it has gone through, as long as it was not reset while a message was delivered and no saved
context was adopted, it waits at a node for what the node waits for. If the id is not empty, the text
resumes the session, which leaves the node through the port that the text chooses. If it is, the
operation that the text begins is over at once, and leaves the session as it was. -/
theorem reply_accepted_unless_nowhere (hms : State.Allows s Considerate {} ms)
    (hrest : (State.steps s {} ms).1.isFree)
    (hs : (State.steps s {} ms).1.memory.context.status = .suspended)
    (hawaiting : (State.steps s {} ms).1.memory.context.awaiting ≠ some .speechPlayback)
    (text : String) :
    let st := (State.steps s {} ms).1
    ∃ n port, s.WaitsAt st.memory.context n ∧ s.Chooses n (.replied (.str text)) port ∧
      (n.id ≠ "" → st.LeavesBy s (.str text) n port) ∧
      (n.id = "" → st.steps s [.begin (.submit (.str text)), .tick, .tick] =
        ({ st with nextOp := st.nextOp + 1 },
          [.finished st.nextOp (.ok st.memory.context)])) := by
  intro st
  have course : Course s Considerate {} _ st := Course.of_steps ms hms
  have hsound : st.memory.context.Sound s.graph := course.standing_considerate.healthy.sound
  obtain ⟨n, hn⟩ := course.waitsAt hs
  obtain ⟨reason, hreason⟩ := Option.ne_none_iff_exists'.mp (hsound.suspended_iff.mp hs)
  obtain ⟨name, hname⟩ := replyVariable_of_waitsFor (hn.awaiting_eq.symm.trans hreason)
  obtain ⟨port, hport⟩ := replyPort_text st.memory.context n text
  refine ⟨n, port, hn, hn.chooses hsound hawaiting hport, fun hid => ?_, fun hid => ?_⟩
  · have hwaits := (awaitsReply_iff hs hn.cursor_eq hn.node_eq hawaiting).mpr hid
    exact (State.leavesBy_iff (course.numbered State.numbered_new) hrest hs).mpr
      ⟨hwaits, exists_replyVariable hname, hport⟩
  · refine State.steps_dropped hrest hs fun n' hwaits => ?_
    obtain ⟨hcursor, -, hid'⟩ := waitingNode?_eq_some_iff.mp hwaits.waiting
    exact hid' ((Option.some.inj (hcursor.symm.trans hn.cursor_eq)).trans hid)

/-- The first question has been asked, and the operation that has asked it is over. -/
def toReply : List Move :=
  toDelivered ++ [.tick, .tick, .answer 0 (.value .null), .tick, .tick]

theorem first_question_answered :
    ∃ n port, n.id = "q" ∧
      (State.steps questioning {} toReply).1.LeavesBy questioning (.str "Ana") n port := by
  have hms : State.Allows questioning Considerate {} toReply :=
    State.allows_of_forall (by simp [toReply, toDelivered, toQuestion, Considerate])
  obtain ⟨n, port, hwaits, -, hleaves, -⟩ :=
    reply_accepted_unless_nowhere hms (by decide) (by decide) (by decide) "Ana"
  have hcursor : (State.steps questioning {} toReply).1.memory.context.cursor = some "q" := by
    decide
  have hid : n.id = "q" := Option.some.inj (hwaits.cursor_eq.symm.trans hcursor)
  exact ⟨n, port, hid, hleaves (by simp [hid])⟩

/-- The same session, but for the id of the node with the first question, which is its only one. -/
def questioningNowhere : Setup :=
  { questioning with
    graph :=
      { nodes := [⟨"s", .start {}⟩, ⟨"", .input { question := "Name?", variableName := "name" }⟩]
        edges := [{ source := "s", target := "" }]
        sound := by decide } }

/-- At a node with an empty id, the session waits for an input, and a reply leaves it as it was. -/
theorem reply_dropped_at_empty_id :
    let st := (State.steps questioningNowhere {} toReply).1
    let after := st.steps questioningNowhere [.begin (.submit (.str "Ana")), .tick, .tick]
    State.Allows questioningNowhere Unbroken {} toReply ∧ st.isFree ∧
      st.memory.context.status = .suspended ∧ st.memory.context.awaiting = some .textInput ∧
      after.1.holder = none ∧ after.1.memory = st.memory ∧ .resumed ∉ events after.2 := by
  refine ⟨State.allows_of_forall (by simp [toReply, toDelivered, toQuestion, Unbroken]), ?_⟩
  decide

end ChatFlow.Session
