import ChatFlow.Proofs.Execution.Failure
import ChatFlow.Proofs.Session.Abandonment
import ChatFlow.Proofs.Session.Silence
import ChatFlow.Proofs.Session.Visit

/-!
# Failures of collaborators

What becomes of an operation when the collaborator that it has called fails:
`failure_contained_iff`.

A node that has asked a question copes with it (`ExecutionResult.MakesUp`): the failure is an answer
like any other, the node says a standard text and is left, and no trace of the failure reaches the
operation. Every other failure goes through: the operation is over with the error, and the session
stays as it was when the call was made. That is harmless after a request, since the session has been
suspended before. But a session whose message is not delivered is left running, and unless the
message was about the limit of steps, it is left at a node that has been executed: from then on it
drops every reply, and a run does nothing.
-/

namespace ChatFlow.Session

variable {s : Setup} {allows : State → Move → Prop} {st st' : State} {log : List Happening}
  {op : Nat} {agenda rest : List Instruction} {m : Memory} {i : Instruction} {p : Performed}

/-! ## The operation -/

namespace State

theorem steps_raised_inquire {run : Run} {node : Node} {q : Inquiry} {e : Fault}
    {r : ExecutionResult} (hnumbered : st.Numbered)
    (hholder : st.holder = some ⟨op, [], some (.inquire run node q)⟩)
    (hr : s.executor.conclude node.id q (.raised e) = .ok r) :
    st.steps s [.answer op (.raised e), .tick] =
      ({ st with holder := some ⟨op,
          if st.memory.context.turn = run.turn then [.deliver run node r] else [], none⟩ }, []) := by
  let st₁ : State := { st with holder := some ⟨op, [.conclude run node q (.raised e)], none⟩ }
  have hanswer : st.answer op (.raised e) = (st₁, []) := answer_inquire hnumbered hholder _
  by_cases hturn : st.memory.context.turn = run.turn
  · have hp : s.perform st₁.memory.context (.conclude run node q (.raised e)) =
        { outcome := .proceed [.deliver run node r] } := by
      simp [Setup.perform, hr, st₁, hturn]
    simp [steps, step, hanswer, tick_proceed rfl hp, hturn, st₁]
  · have hp : s.perform st₁.memory.context (.conclude run node q (.raised e)) =
        { outcome := .stop } := by
      simp [Setup.perform, hr, st₁, hturn]
    simp [steps, step, hanswer, tick_stop rfl hp, hturn, st₁]

theorem answer_raised_echo {k : Nat} {text : Value} {e : Fault} (h : (k, text) ∈ st.echoes) :
    st.answer k (.raised e) =
      ({ st with echoes := st.echoes.filter (·.1 ≠ k) }, [.finished k (.error e)]) := by
  have hfound : ∃ echo, st.echoes.find? (·.1 == k) = some echo := by
    rw [← Option.isSome_iff_exists, List.find?_isSome]
    exact ⟨_, h, by simp⟩
  obtain ⟨echo, hfound⟩ := hfound
  simp [answer, hfound]

end State

/-! ## The session -/

/-- What is known of a session when an operation comes to the end of its run. The session is closed
at a node that has been executed. It is not running when a node makes its request, nor when it is said
that there is no start node. -/
def Setup.Poised (s : Setup) (c : Context) (call : Option Call) : List Instruction → Prop
  | .close :: _ => ∃ n, s.StandsAt c n
  | .perform _ :: _ => c.status ≠ .running
  | .visit _ :: _ => call ≠ none → c.status ≠ .running
  | [] => ∀ m, call = some (.outward (.message m)) → c.status ≠ .running
  | _ => True

theorem poised_of_onward {c : Context} (h : Onward agenda) : s.Poised c none agenda := by
  cases h with
  | visit run => exact fun hne => absurd rfl hne
  | enter => trivial

theorem poised_delivery {c : Context} {run : Run} {node : Node} {r : ExecutionResult}
    (hr : r.Suits node) : s.Poised c none (delivery run node r) := by
  cases hr with
  | silent => trivial
  | speaks m hm t ht =>
    cases t with
    | suspend reason choices => exact ht.elim
    | _ => trivial
  | asks => trivial

theorem Setup.Standing.poised_after (h : s.Standing m none (i :: rest))
    (hpoised : s.Poised m.context none (i :: rest)) (hp : Performs s m.context i p) :
    p.outcome.Leads (s.Poised (m.after p).context) rest := by
  have hphase := h.phase
  have hready := h.suits.1
  cases hp with
  | lacksStart hn =>
    cases hphase with
    | opening hi => exact fun _ _ => by simp [Memory.after, Context.apply]
  | enters => exact fun hne => absurd rfl hne
  | skips =>
    cases hphase with
    | opening hi => exact hi.elim
    | telling => exact fun hne => absurd rfl hne
  | inquires =>
    cases hphase with
    | opening hi => exact hi.elim
    | executing => exact fun _ hcall => by simp at hcall
  | delivers =>
    cases hphase with
    | opening hi => exact hi.elim
    | delivering hr =>
      show s.Poised _ none (delivery _ _ _ ++ [])
      rw [List.append_nil]
      exact poised_delivery (feasible_suits hr)
  | sends =>
    cases hphase with
    | opening hi => exact hi.elim
    | saying | questioning => trivial
  | requests hr =>
    cases hphase with
    | opening hi => exact hi.elim
    | telling => exact fun _ => hpoised
  | jumps =>
    cases hphase with
    | opening hi => exact hi.elim
    | leaving hc ht => exact ht.elim
  | moves | terminates | fails =>
    cases hphase with
    | opening hi => exact hi.elim
    | leaving hc ht ho => exact poised_of_onward ho
  | finishes =>
    cases hphase with
    | opening hi => exact hi.elim
    | closing hc ho => exact poised_of_onward ho
  | closes | closesLost => exact ⟨_, hready⟩
  | suspends =>
    cases hphase with
    | opening hi => exact hi.elim
    | leaving hc ht => exact ht.elim
    | suspending =>
      show SessionStatus.suspended ≠ .running
      decide
  | drops | ignores | halts | loses | abandons | discards | givesUp =>
    exact fun _ hcall => by simp at hcall
  | _ => trivial

theorem poised_considerate (s : Setup) :
    Stable s Considerate
      (fun m call agenda => s.Standing m call agenda ∧ s.Poised m.context call agenda)
      s.Healthy where
  opens {m i} hfree hi := by
    refine ⟨(standing_considerate s).opens hfree hi, ?_⟩
    cases i with
    | start | accept | acceptPlayback | enter => trivial
    | _ => exact hi.elim
  ends h := h.1.healthy
  performs h hp :=
    ((standing_considerate s).performs h.1 hp).and (h.1.poised_after h.2 hp)
  fails hm hholder hp houtcome h := (standing_considerate s).fails hm hholder hp houtcome h.1
  answers {m r agenda} h := by
    refine ⟨(standing_considerate s).answers h.1, ?_⟩
    have hpoised := h.2
    unfold Setup.Poised at hpoised ⊢
    split
    · exact hpoised
    · exact hpoised
    · exact fun hne => absurd rfl hne
    · exact fun _ hcall => by simp at hcall
    · trivial
  raises _ _ h := h.1.healthy
  concludes reply h := ⟨(standing_considerate s).concludes reply h.1, trivial⟩
  resets {st holder} hm hholder h := by
    refine ⟨(standing_considerate s).resets hm hholder h.1, ?_⟩
    obtain ⟨call, hcall, hmessage⟩ := hm.2 rfl holder hholder
    have hrest : st.memory.reset.context.status ≠ .running := by
      simp [Memory.reset, Context.initial]
    have hphase := h.1.phase
    rw [hcall] at hphase ⊢
    cases hagenda : holder.agenda with
    | nil => exact fun _ _ => hrest
    | cons i rest =>
      cases i with
      | perform => exact hrest
      | visit => exact fun _ => hrest
      | close =>
        -- a session is only closed after a message, and then it is not reset
        rw [hagenda] at hphase
        cases hphase with
        | closing hc ho =>
          cases hc with
          | message msg => exact absurd rfl (hmessage msg)
      | _ => trivial
  resetsFree _ _ _ := .reset _
  restores hm _ _ := absurd rfl (hm.1 _)
  restoresFree hm _ _ := absurd rfl (hm.1 _)

theorem Course.poised (course : Course s Considerate {} log st) {h : Holder}
    (hholder : st.holder = some h) :
    s.Standing st.memory h.call h.agenda ∧ s.Poised st.memory.context h.call h.agenda :=
  ((poised_considerate s).course course (State.keeps_new s.healthy_new)).held h hholder

theorem Setup.Still.of_standsAt {c : Context} {n : Node} (h : s.StandsAt c n)
    (hsound : c.Sound s.graph) : s.Still c := by
  refine ⟨h.ne_suspended, fun _ => ⟨n, h⟩, fun _ _ hawaiting => ?_⟩
  exact h.ne_suspended (hsound.suspended_iff.mpr (by simp [hawaiting]))

theorem Course.running_iff_of_call (course : Course s Considerate {} log st) {r : Request}
    (hholder : st.holder = some ⟨op, agenda, some (.outward r)⟩)
    (hr : ∀ seconds, r ≠ .sleep seconds) :
    st.memory.context.status = .running ↔ (∃ msg, r = .message msg) ∧ agenda ≠ [] := by
  obtain ⟨hstanding, hpoised⟩ := course.poised hholder
  have hready := hstanding.suits.1
  cases hstanding.phase with
  | announcing => exact iff_of_false (hpoised _ rfl) fun h => h.2 rfl
  | pausing => exact absurd rfl (hr _)
  | leaving hc ht ho =>
    cases hc
    exact iff_of_true (running_of_leave hready) ⟨⟨_, rfl⟩, by simp⟩
  | suspending hc hcall =>
    cases hc
    exact iff_of_true (running_of_leave hready) ⟨⟨_, rfl⟩, by simp⟩
  | requested hfrom =>
    refine iff_of_false (hpoised (by simp)) ?_
    rintro ⟨⟨msg, rfl⟩, -⟩
    exact hfrom
  | closing hc ho =>
    cases hc
    exact iff_of_true hready ⟨⟨_, rfl⟩, by simp⟩
  | givingUp hc =>
    cases hc
    exact iff_of_true hready ⟨⟨_, rfl⟩, by simp⟩

theorem Course.standsAt_of_call (course : Course s Considerate {} log st) {r : Request}
    (hholder : st.holder = some ⟨op, agenda, some (.outward r)⟩)
    (hr : ∀ seconds, r ≠ .sleep seconds) (hrunning : st.memory.context.status = .running)
    (hagenda : agenda ≠ [.giveUp]) : ∃ n, s.StandsAt st.memory.context n := by
  obtain ⟨hstanding, hpoised⟩ := course.poised hholder
  have hready := hstanding.suits.1
  cases hstanding.phase with
  | announcing => exact absurd hrunning (hpoised _ rfl)
  | pausing => exact absurd rfl (hr _)
  | leaving => exact ⟨_, hready⟩
  | suspending => exact ⟨_, hready⟩
  | requested => exact absurd hrunning (hpoised (by simp))
  | closing => exact hpoised
  | givingUp => exact absurd rfl hagenda

/-- Until it is started again or reset, a session stays as it is: replies are dropped, and a run does
nothing. -/
def Setup.Wedges (s : Setup) (st : State) : Prop :=
  ∀ later st', Course s Unrestored st later st' → (∀ e ∈ events later, ¬ e.BeginsAnew) →
    st'.memory.context = st.memory.context ∧ events later = [] ∧
      ∀ k r, .called k r ∈ later → ∃ mv, s.Shows mv r

theorem Course.wedges (course : Course s Unrestored {} log st) (hholder : st.holder = none)
    (hstill : s.Still st.memory.context) : s.Wedges st := by
  intro later st' course' hbegins
  have hquiet : st.Quiet st.memory.context :=
    ⟨rfl, fun h hh => by simp [hholder] at hh, fun h hh => by simp [hholder] at hh⟩
  obtain ⟨hquiet', hevents, hcalls⟩ :=
    course.stays (fun _ c hm => absurd rfl (hm c)) hstill hquiet course' hbegins
  exact ⟨hquiet'.context_eq, hevents, hcalls⟩

/-- An operation is over with the error of the collaborator that it has called, and the session stays
as it was. -/
def State.Escapes (s : Setup) (st : State) (op : Nat) (e : Fault) : Prop :=
  st.step s (.answer op (.raised e)) = ({ st with holder := none }, [.finished op (.error e)])

/-- The failure of a collaborator is contained exactly if a node has asked it a question.

Then the node makes up for it, unless the session has been reset meanwhile. The failure of any other
call, and the failure to show a spoken reply, ends the operation with the error. That leaves the
session running exactly if a message was not delivered after which something was left to do, and
wedged unless the message was about the limit of steps. No session is left running but by an
operation that has failed. -/
theorem failure_contained_iff (hwords : s.config.WordsFailures)
    (course : Course s Anything {} log st) (e : Fault) :
    (∀ k text, (k, text) ∈ st.echoes → st.step s (.answer k (.raised e)) =
      ({ st with echoes := st.echoes.filter (·.1 ≠ k) }, [.finished k (.error e)])) ∧
    (∀ op agenda call, st.holder = some ⟨op, agenda, some call⟩ →
      ((∀ x ∈ (st.steps s [.answer op (.raised e), .tick]).2, ¬ x.isFailure) ↔
        ∃ run node q, call = .inquire run node q) ∧
      (∀ run node q, call = .inquire run node q → ∃ r : ExecutionResult, r.MakesUp node.id e q ∧
        st.steps s [.answer op (.raised e), .tick] =
          ({ st with holder := some ⟨op,
            if st.memory.context.turn = run.turn then [.deliver run node r] else [], none⟩ }, [])) ∧
      ∀ r, call = .outward r → st.Escapes s op e ∧
        (Course s Considerate {} log st → (∀ seconds, r ≠ .sleep seconds) →
          (st.memory.context.status = .running ↔ (∃ msg, r = .message msg) ∧ agenda ≠ []) ∧
          (st.memory.context.status = .running → agenda ≠ [.giveUp] →
            s.Wedges (st.step s (.answer op (.raised e))).1))) ∧
    (Course s Considerate {} log st → (∀ x ∈ log, ¬ x.isFailure) → st.holder = none →
      st.memory.context.status ≠ .running) := by
  have hnumbered : st.Numbered := course.numbered State.numbered_new
  refine ⟨fun k text hecho => State.answer_raised_echo hecho, fun op agenda call hholder => ?_,
    fun course hlog hnone => course.ne_running hlog hnone⟩
  have hphase : Phase (some call) agenda := course.phase hholder
  cases call with
  | inquire run node q =>
    obtain rfl : agenda = [] := by
      cases hphase with
      | asking => rfl
      | leaving hc | suspending hc | closing hc | givingUp hc => nomatch hc
    obtain ⟨r, hr, hmakes⟩ := Executor.conclude_raised hwords node.id q e
    have hsteps := State.steps_raised_inquire (e := e) hnumbered hholder hr
    refine ⟨iff_of_true (by simp [hsteps]) ⟨run, node, q, rfl⟩, fun run' node' q' heq => ?_,
      fun r heq => by simp at heq⟩
    obtain ⟨rfl, rfl, rfl⟩ := Call.inquire.inj heq
    exact ⟨r, hmakes, hsteps⟩
  | outward r =>
    have hescapes : st.Escapes s op e := State.answer_raised hnumbered hholder
    have hfails : .finished op (.error e) ∈ (st.steps s [.answer op (.raised e), .tick]).2 := by
      rw [State.steps, show st.step s _ = _ from hescapes]
      exact List.mem_append_left _ (List.mem_singleton_self _)
    refine ⟨iff_of_false (fun h => h _ hfails rfl) (by simp), fun run node q heq => by simp at heq,
      fun r' heq => ?_⟩
    obtain rfl := Call.outward.inj heq
    refine ⟨hescapes, fun course hr => ⟨course.running_iff_of_call hholder hr,
      fun hrunning hagenda => ?_⟩⟩
    obtain ⟨n, hn⟩ := course.standsAt_of_call hholder hr hrunning hagenda
    have hsound := (course.poised hholder).1.healthy.sound
    have hunrestored : Course s Unrestored {} log st := course.mono fun _ _ hm => hm.1
    have hafter := Course.tail hunrestored (.answer op (.raised e)) fun c hc => by simp at hc
    rw [show st.step s _ = _ from hescapes] at hafter ⊢
    exact hafter.wedges rfl (.of_standsAt hn hsound)

/-- The first question cannot be delivered: the operation fails, and although nothing is left to wait
for, the session is running and takes neither a reply nor a run. -/
theorem undelivered_question_leaves_running :
    let asking := (State.steps questioning {} toQuestion).1
    let failed := (asking.step questioning (.answer 0 (.raised (.unexpected "boom")))).1
    (asking.step questioning (.answer 0 (.raised (.unexpected "boom")))).2 =
        [.finished 0 (.error (.unexpected "boom"))] ∧
      failed.holder = none ∧ failed.queue = [] ∧ failed.echoes = [] ∧ failed.scheduled = [] ∧
      failed.memory.context.status = .running ∧
      (failed.steps questioning
        [.begin (.submit (.str "Ana")), .begin .run, .tick, .tick, .tick]).1.memory.context =
          failed.memory.context :=
  ⟨rfl, rfl, rfl, rfl, rfl, rfl, rfl⟩

theorem undelivered_question_wedges :
    let asking := (State.steps questioning {} toQuestion).1
    asking.Escapes questioning 0 (.unexpected "boom") ∧
      questioning.Wedges
        (asking.step questioning (.answer 0 (.raised (.unexpected "boom")))).1 := by
  have course : Course questioning Considerate {} _ (State.steps questioning {} toQuestion).1 :=
    Course.of_steps toQuestion (State.allows_of_forall (by simp [toQuestion, Considerate]))
  have hholder : (State.steps questioning {} toQuestion).1.holder = some ⟨0,
      [.leave ⟨"q", .input { question := "Name?", variableName := "name" }⟩ (.suspend .textInput []),
        .perform { kind := .textInput }, .visit ⟨0, 2⟩],
      some (.outward (.message { content := "Name?", node := "q" }))⟩ := rfl
  obtain ⟨-, hcalls, -⟩ := failure_contained_iff ⟨⟨_, rfl⟩, ⟨_, rfl⟩, ⟨_, rfl⟩⟩
    (course.mono fun _ _ _ => trivial) (.unexpected "boom")
  obtain ⟨-, -, houtward⟩ := hcalls 0 _ _ hholder
  obtain ⟨hescapes, hleaves⟩ := houtward _ rfl
  obtain ⟨hrunning, hwedges⟩ := hleaves course (by simp)
  exact ⟨hescapes, hwedges (hrunning.mpr ⟨⟨_, rfl⟩, by simp⟩) (by simp)⟩

end ChatFlow.Session
