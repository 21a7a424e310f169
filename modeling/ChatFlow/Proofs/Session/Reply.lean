import ChatFlow.Proofs.Session.Numbering
import ChatFlow.Proofs.Session.Standing

/-!
# Replies and questions

A session that waits for a reply has asked its question: the message of the node has been sent, then
the suspension has been recorded, and nothing but variables has changed since (`Course.asked`).

A reply that is taken may have been given earlier. `reply_answers_seen_question_iff` says when it
answers the question that the user had seen: exactly if the session has not been started or resumed
between the moment the reply was given and the moment it is taken. A reply given while nodes are run
is never taken.
-/

namespace ChatFlow

namespace Event

/-- The event sets variables and does nothing else. -/
def SetsVariables : Event → Prop
  | .variablesSet _ => True
  | _ => False

/-- The session is started or goes on. -/
def Begins : Event → Prop
  | .started _ _ => True
  | .resumed => True
  | _ => False

/-- The session waits. -/
def Suspends : Event → Prop
  | .suspended _ _ => True
  | _ => False

variable {e : Event}

theorem SetsVariables.not_suspends (h : e.SetsVariables) : ¬ e.Suspends := by
  cases e <;> simp_all [SetsVariables, Suspends]

end Event

namespace Context

variable {c : Context} {es : List Event}

theorem foldl_setsVariables (h : ∀ e ∈ es, e.SetsVariables) :
    (es.foldl apply c).status = c.status ∧ (es.foldl apply c).cursor = c.cursor := by
  induction es generalizing c with
  | nil => exact ⟨rfl, rfl⟩
  | cons e rest ih =>
    have hrest := ih (c := c.apply e) fun e' he' => h e' (List.mem_cons_of_mem _ he')
    cases e with
    | variablesSet values => exact hrest
    | _ => exact (h _ List.mem_cons_self).elim

theorem foldl_ne_suspended (hs : c.status ≠ .suspended) (h : ∀ e ∈ es, ¬ e.Suspends) :
    (es.foldl apply c).status ≠ .suspended := by
  induction es generalizing c with
  | nil => exact hs
  | cons e rest ih =>
    refine ih ?_ fun e' he' => h e' (List.mem_cons_of_mem _ he')
    cases e with
    | started node vars =>
      simp only [apply]
      split <;> simp
    | suspended reason choices => exact absurd trivial (h _ List.mem_cons_self)
    | processed node => exact hs
    | variablesSet values => exact hs
    | _ => simp [apply, initial]

theorem foldl_ne_suspended_of_begins (hbegins : ∃ e ∈ es, e.Begins)
    (h : ∀ e ∈ es, ¬ e.Suspends) : (es.foldl apply c).status ≠ .suspended := by
  obtain ⟨e, he, hbegins⟩ := hbegins
  obtain ⟨before, after, rfl⟩ := List.append_of_mem he
  rw [List.foldl_append, List.foldl_cons]
  refine foldl_ne_suspended ?_ fun e' he' =>
    h e' (List.mem_append_right _ (List.mem_cons_of_mem _ he'))
  cases e with
  | started node vars =>
    simp only [apply]
    split <;> simp
  | resumed => simp [apply]
  | _ => exact hbegins.elim

end Context

namespace Session

variable {s : Setup} {st st' : State} {log : List Happening} {id : String}

/-! ## Questions that have been asked -/

/-- A message of a node has been sent, and the context has not changed since. -/
def Sent (id : String) (log : List Happening) : Prop :=
  ∃ before op m after, log = before ++ .called op (.message m) :: after ∧ m.node = id ∧
    events after = []

/-- The question of a node has been sent, the suspension at the node has been recorded after it, and
nothing but variables has changed since. -/
def Asked (id : String) (log : List Happening) : Prop :=
  ∃ before e c after, log = before ++ .changed e c :: after ∧ Sent id before ∧ e.Suspends ∧
    c.cursor = some id ∧ ∀ e ∈ events after, e.SetsVariables

theorem Sent.append (h : Sent id log) {more : List Happening} (hmore : events more = []) :
    Sent id (log ++ more) := by
  obtain ⟨before, op, m, after, rfl, hm, hafter⟩ := h
  exact ⟨before, op, m, after ++ more, by simp, hm, by simp [hafter, hmore]⟩

theorem Asked.append (h : Asked id log) {more : List Happening}
    (hmore : ∀ e ∈ events more, e.SetsVariables) : Asked id (log ++ more) := by
  obtain ⟨before, e, c, after, rfl, hsent, he, hc, hafter⟩ := h
  refine ⟨before, e, c, after ++ more, by simp, hsent, he, hc, fun e' he' => ?_⟩
  rw [events_append] at he'
  rcases List.mem_append.mp he' with he' | he'
  · exact hafter e' he'
  · exact hmore e' he'

theorem Sent.asked (h : Sent id log) {e : Event} (he : e.Suspends) {c : Context}
    (hc : c.cursor = some id) : Asked id (log ++ [.changed e c]) :=
  ⟨log, e, c, [], rfl, h, he, hc, by simp⟩

/-- An operation is about to record that a node waits. -/
def Questions (id : String) (agenda : List Instruction) : Prop :=
  ∃ node reason choices rest, agenda = .leave node (.suspend reason choices) :: rest ∧ node.id = id

/-- A session that waits has asked, and one that is about to wait has sent its question. -/
structure Conversation (log : List Happening) (st : State) : Prop where
  asked : st.memory.context.status = .suspended →
    ∃ id, st.memory.context.cursor = some id ∧ Asked id log
  sent : ∀ h id, st.holder = some h → Questions id h.agenda → Sent id log

variable {m : Memory} {i : Instruction} {rest agenda : List Instruction} {p : Performed} {op : Nat}

theorem not_questions_of_opens (hi : i.Opens) : ¬ Questions id [i] := by
  rintro ⟨node, reason, choices, rest, heq, -⟩
  obtain ⟨rfl, -⟩ := List.cons.inj heq
  exact hi

theorem not_questions_of_onward (ho : Onward agenda) : ¬ Questions id agenda := by
  rintro ⟨node, reason, choices, rest, rfl, -⟩
  cases ho

theorem not_questions_nil : ¬ Questions id [] := by
  rintro ⟨node, reason, choices, rest, heq, -⟩
  cases heq

theorem not_questions_cons (hi : ∀ node reason choices, i ≠ .leave node (.suspend reason choices)) :
    ¬ Questions id (i :: rest) := by
  rintro ⟨node, reason, choices, rest, heq, -⟩
  exact hi node reason choices (List.cons.inj heq).1

theorem not_questions_delivery {run : Run} {node : Node} {r : ExecutionResult}
    (hr : r.Suits node) : ¬ Questions id (delivery run node r) := by
  cases hr with
  | silent port metadata => exact not_questions_cons (by simp)
  | speaks m hm t ht patch metadata =>
    cases t with
    | suspend reason choices => exact ht.elim
    | _ => exact not_questions_cons (by simp)
  | asks m hm call reason hcall => exact not_questions_cons (by simp)

theorem Phase.questions_after (h : Phase none (i :: rest)) {c : Context} (hp : Performs s c i p) :
    p.outcome.Leads (fun _ agenda => ∀ id, Questions id agenda →
      ∃ msg, msg.node = id ∧ p = { outcome := .call (s.sending msg) [] }) rest := by
  cases hp with
  | sends =>
    rename_i msg
    cases h with
    | opening hi => exact hi.elim
    | saying ht =>
      refine fun id hq => absurd hq (not_questions_cons fun node reason choices heq => ?_)
      cases heq
      exact ht
    | questioning hm hcall =>
      rintro id ⟨node, reason, choices, rest, heq, rfl⟩
      cases heq
      exact ⟨msg, hm, rfl⟩
  | delivers =>
    cases h with
    | opening hi => exact hi.elim
    | delivering hr =>
      intro id hq
      rw [List.append_nil] at hq
      exact absurd hq (not_questions_delivery (feasible_suits hr))
  | lacksStart =>
    cases h with
    | opening hi => exact fun _ hq => absurd hq not_questions_nil
  | inquires =>
    cases h with
    | opening hi => exact hi.elim
    | executing => exact fun _ hq => absurd hq not_questions_nil
  | requests =>
    cases h with
    | opening hi => exact hi.elim
    | telling => exact fun _ hq => absurd hq (not_questions_cons (by simp))
  | skips =>
    cases h with
    | opening hi => exact hi.elim
    | telling => exact fun _ hq => absurd hq (not_questions_cons (by simp))
  | jumps =>
    cases h with
    | opening hi => exact hi.elim
    | leaving hc ht ho => exact ht.elim
  | moves =>
    cases h with
    | opening hi => exact hi.elim
    | leaving hc ht ho => exact fun _ hq => absurd hq (not_questions_of_onward ho)
  | suspends =>
    cases h with
    | opening hi => exact hi.elim
    | leaving hc ht ho => exact ht.elim
    | suspending hc hcall => exact fun _ hq => absurd hq (not_questions_cons (by simp))
  | terminates =>
    cases h with
    | opening hi => exact hi.elim
    | leaving hc ht ho => exact fun _ hq => absurd hq (not_questions_of_onward ho)
  | fails =>
    cases h with
    | opening hi => exact hi.elim
    | leaving hc ht ho => exact fun _ hq => absurd hq (not_questions_of_onward ho)
  | finishes =>
    cases h with
    | opening hi => exact hi.elim
    | closing hc ho => exact fun _ hq => absurd hq (not_questions_of_onward ho)
  | drops => exact fun _ hq => absurd hq not_questions_nil
  | ignores => exact fun _ hq => absurd hq not_questions_nil
  | halts => exact fun _ hq => absurd hq not_questions_nil
  | loses => exact fun _ hq => absurd hq not_questions_nil
  | abandons => exact fun _ hq => absurd hq not_questions_nil
  | discards => exact fun _ hq => absurd hq not_questions_nil
  | givesUp => exact fun _ hq => absurd hq not_questions_nil
  | lacksWords => trivial
  | misnames => trivial
  | mismatches => trivial
  | breaksOff => trivial
  | stumbles => trivial
  | misleads => trivial
  | cannotSpeak => trivial
  | closesMute => trivial
  | _ => exact fun _ hq => absurd hq (not_questions_cons (by simp))

theorem keeping_setsVariables (name : String) (reply : Value) :
    ∀ e ∈ keeping name reply, e.SetsVariables := by
  intro e he
  unfold keeping at he
  split at he
  · simp at he
  · obtain rfl := List.mem_singleton.mp he
    trivial

theorem Setup.Standing.suspended_after (h : s.Standing m none (i :: rest))
    (hp : Performs s m.context i p) (hs : (m.after p).context.status = .suspended) :
    m.context.status = .suspended ∧ (∀ e ∈ p.events, e.SetsVariables) ∨
      ∃ node reason choices, i = .leave node (.suspend reason choices) ∧
        p = { events := [.suspended reason choices], outcome := .proceed [] } ∧
        m.context.cursor = some node.id := by
  have hready := h.suits.1
  cases hp with
  | starts hn =>
    rename_i vars n
    have hne : (if n.id.isEmpty then SessionStatus.ended else .running) ≠ .suspended := by
      split <;> simp
    exact absurd hs hne
  | takes hwaits hname hport => simp [Memory.after, List.foldl_append, Context.apply] at hs
  | mismatches hwaits hname hport =>
    exact .inl ⟨hwaits.suspended, keeping_setsVariables _ _⟩
  | executes hturn hr => exact absurd hs (hready hturn).ne_suspended
  | inquires hturn hq => exact absurd hs (hready hturn).ne_suspended
  | stumbles hturn => exact absurd hs (hready hturn).ne_suspended
  | delivers =>
    rename_i run node result
    refine .inl ⟨?_, fun e he => ?_⟩
    · by_cases hpatch : (s.feasible result).patch.isEmpty
      · simpa [Memory.after, hpatch] using hs
      · simpa [Memory.after, hpatch, Context.apply] using hs
    · dsimp only at he
      split at he
      · simp at he
      · obtain rfl := List.mem_singleton.mp he
        trivial
  | suspends =>
    have hstands : s.StandsAt m.context _ := hready
    exact .inr ⟨_, _, _, rfl, rfl, hstands.cursor_eq⟩
  | lacksStart => simp [Memory.after, Context.apply] at hs
  | lacksWords => simp [Memory.after, Context.apply] at hs
  | resumes => simp [Memory.after, Context.apply] at hs
  | loses => simp [Memory.after, Context.apply] at hs
  | jumps => simp [Memory.after, Context.apply] at hs
  | moves => simp [Memory.after, Context.apply] at hs
  | terminates => simp [Memory.after, Context.apply] at hs
  | fails => simp [Memory.after, Context.apply] at hs
  | finishes => simp [Memory.after, Context.apply] at hs
  | givesUp => simp [Memory.after, Context.apply] at hs
  | _ => exact .inl ⟨hs, by simp⟩

/-! ## Moves -/

namespace State

variable {h : Holder}

theorem holder_of_acquire {k : Nat} (hh : (st.acquire k i).holder = some h)
    (hq : Questions id h.agenda) (hi : i.Opens) : st.holder = some h := by
  unfold acquire at hh
  split at hh
  · obtain rfl : _ = h := Option.some.inj hh
    exact absurd hq (not_questions_of_opens hi)
  · exact hh

theorem holder_of_submit {k : Nat} {reply : Value} (hh : (st.submit k reply).1.holder = some h)
    (hq : Questions id h.agenda) : st.holder = some h := by
  unfold submit at hh
  split at hh
  · exact hh
  · exact holder_of_acquire hh hq trivial

theorem agenda_step {mv : Move} (hqueue : ∀ e ∈ st.queue, e.2.Opens) (htick : mv ≠ .tick)
    (hh : (st.step s mv).1.holder = some h) (hq : Questions id h.agenda) :
    ∃ h', st.holder = some h' ∧ h'.agenda = h.agenda := by
  -- an operation that has just got the session is not about to ask
  cases mv with
  | begin operation =>
    cases operation with
    | start vars =>
      simp only [step, State.begin] at hh
      have hbefore := holder_of_acquire hh hq trivial
      exact ⟨h, hbefore, rfl⟩
    | run =>
      simp only [step, State.begin] at hh
      have hbefore := holder_of_acquire hh hq trivial
      exact ⟨h, hbefore, rfl⟩
    | submit reply =>
      simp only [step, State.begin] at hh
      have hbefore := holder_of_submit hh hq
      exact ⟨h, hbefore, rfl⟩
    | transcript text =>
      simp only [step, State.begin] at hh
      split at hh <;> exact ⟨h, hh, rfl⟩
    | speechComplete =>
      simp only [step, State.begin] at hh
      have hbefore := holder_of_acquire hh hq trivial
      exact ⟨h, hbefore, rfl⟩
  | answer k reply =>
    simp only [step, answer] at hh
    split at hh
    · split at hh
      · exact ⟨h, hh, rfl⟩
      · have hbefore := holder_of_submit hh hq
        exact ⟨h, hbefore, rfl⟩
    · split at hh
      · rename_i holder agenda call hholder
        split at hh
        · exact ⟨h, hh, rfl⟩
        · split at hh
          · obtain rfl : _ = h := Option.some.inj hh
            exact absurd hq (not_questions_cons (by simp))
          · simp at hh
          · obtain rfl : _ = h := Option.some.inj hh
            exact ⟨_, hholder, rfl⟩
      · exact ⟨h, hh, rfl⟩
  | tick => exact absurd rfl htick
  | grant =>
    simp only [step] at hh
    split at hh
    · rename_i k first queue hnone hcons
      obtain rfl : _ = h := Option.some.inj hh
      exact absurd hq (not_questions_of_opens (hqueue (k, first) (by simp [hcons])))
    · exact ⟨h, hh, rfl⟩
  | arrive =>
    simp only [step] at hh
    split at hh
    · have hbefore := holder_of_acquire hh hq trivial
      exact ⟨h, hbefore, rfl⟩
    · exact ⟨h, hh, rfl⟩
  | reset => exact ⟨h, hh, rfl⟩
  | restore c => exact ⟨h, hh, rfl⟩
  | notify =>
    simp only [step] at hh
    split at hh <;> exact ⟨h, hh, rfl⟩
  | notifyFromAfar =>
    simp only [step] at hh
    split at hh <;> exact ⟨h, hh, rfl⟩
  | unsubscribe => exact ⟨h, hh, rfl⟩

end State

theorem stamp_node (session : String) (msg : Message) :
    (msg.stamp session).node = msg.node := by
  unfold Message.stamp
  split <;> rfl

theorem Conversation.carryOut (h : Conversation log st)
    (hstanding : s.Standing st.memory none (i :: rest))
    (hholder : st.holder = some ⟨op, i :: rest, none⟩) (hp : Performs s st.memory.context i p) :
    Conversation (log ++ (st.carryOut s op rest p).2) (st.carryOut s op rest p).1 := by
  refine ⟨fun hs => ?_, fun holder id hh hq => ?_⟩
  · rw [State.carryOut_memory] at hs ⊢
    rcases hstanding.suspended_after hp hs with
      ⟨hbefore, hvars⟩ | ⟨node, reason, choices, rfl, rfl, hcursor⟩
    · obtain ⟨id, hid, hasked⟩ := h.asked hbefore
      refine ⟨id, ?_, hasked.append (by simpa using hvars)⟩
      exact (Context.foldl_setsVariables hvars).2.trans hid
    · have hsent := h.sent _ node.id hholder ⟨node, reason, choices, rest, rfl, rfl⟩
      exact ⟨node.id, hcursor, hsent.asked (e := .suspended reason choices) trivial hcursor⟩
  · have hleads := hstanding.phase.questions_after hp
    unfold State.carryOut at hh ⊢
    cases houtcome : p.outcome with
    | proceed todo =>
      simp only [houtcome, Outcome.Leads] at hh hleads
      obtain rfl : _ = holder := Option.some.inj hh
      obtain ⟨msg, -, rfl⟩ := hleads id hq
      simp at houtcome
    | call call todo =>
      simp only [houtcome, Outcome.Leads] at hh hleads
      obtain rfl : _ = holder := Option.some.inj hh
      obtain ⟨msg, hmsg, rfl⟩ := hleads id hq
      obtain ⟨rfl, rfl⟩ : s.sending msg = call ∧ [] = todo := by simpa using houtcome
      refine ⟨log, op, msg.stamp s.id, [], ?_, (stamp_node s.id msg).trans hmsg, rfl⟩
      simp [Memory.log, Memory.applyAll, Setup.sending, Setup.requestOf]
    | stop =>
      simp only [houtcome, Outcome.Leads] at hh hleads
      obtain rfl : _ = holder := Option.some.inj hh
      exact absurd hq not_questions_nil
    | fail e =>
      simp only [houtcome] at hh
      simp at hh

theorem Conversation.step (h : Conversation log st) (hkeeps : st.Keeps s.Standing s.Healthy)
    {mv : Move} (hm : Orderly st mv) :
    Conversation (log ++ (st.step s mv).2) (st.step s mv).1 := by
  by_cases htick : mv = .tick
  · subst htick
    simp only [State.step]
    rcases State.tick_cases s st with heq | ⟨op, hholder, heq⟩ | ⟨op, i, rest, hholder, heq⟩
    · simpa [heq] using h
    · rw [heq]
      refine ⟨fun hs => ?_, by simp⟩
      obtain ⟨id, hid, hasked⟩ := h.asked hs
      exact ⟨id, hid, hasked.append (by simp)⟩
    · rw [heq]
      exact h.carryOut (hkeeps.held _ hholder) hholder (perform_performs i)
  · have hsent : ∀ holder id, (st.step s mv).1.holder = some holder →
        Questions id holder.agenda → Sent id log := by
      intro holder id hh hq
      obtain ⟨holder', hholder, hagenda⟩ := State.agenda_step hkeeps.queued htick hh hq
      exact h.sent holder' id hholder (hagenda ▸ hq)
    by_cases hreset : mv = .reset
    · subst hreset
      refine ⟨fun hs => by simp [State.reset_eq, Memory.reset, Context.initial] at hs,
        fun holder id hh hq => ?_⟩
      -- an operation that is about to record a suspension does not look for a reset
      obtain ⟨call, hcall, hguarded⟩ := hm.2 rfl holder hh
      have hphase := (hkeeps.held holder hh).phase
      rw [hcall] at hphase
      obtain ⟨node, reason, choices, rest, hagenda, -⟩ := hq
      rw [hagenda] at hphase
      cases hphase with
      | leaving hc ht ho => exact ht.elim
      | suspending hc hcall =>
        cases hc
        cases hguarded
    · have hlines : (st.step s mv).1.memory = st.memory ∧ events (st.step s mv).2 = [] :=
        State.step_lines_up htick hreset hm.1
      obtain ⟨hmemory, hevents⟩ := hlines
      refine ⟨fun hs => ?_, fun holder id hh hq => (hsent holder id hh hq).append hevents⟩
      rw [hmemory] at hs ⊢
      obtain ⟨id, hid, hasked⟩ := h.asked hs
      exact ⟨id, hid, hasked.append (by simp [hevents])⟩

/-- A session that waits has asked its question, along every course. -/
theorem Course.conversation (course : Course s Orderly {} log st) : Conversation log st := by
  induction course with
  | refl => exact ⟨by simp [Context.initial], by simp⟩
  | tail course mv hm ih => exact ih.step course.standing hm

/-! ## Between a reply and its acceptance -/

theorem Setup.Standing.still (h : s.Standing m none (i :: rest)) (hp : Performs s m.context i p)
    (hs : m.context.status ≠ .running) :
    (∀ e ∈ p.events, e.SetsVariables) ∨ ∃ e ∈ p.events, e.Begins := by
  have hready := h.suits.1
  cases hp with
  | starts => exact .inr ⟨_, List.mem_cons_self, trivial⟩
  | lacksStart => exact .inr ⟨_, List.mem_cons_self, trivial⟩
  | lacksWords => exact .inr ⟨_, List.mem_cons_self, trivial⟩
  | takes => exact .inr ⟨.resumed, by simp, trivial⟩
  | resumes => exact .inr ⟨_, List.mem_cons_self, trivial⟩
  | mismatches => exact .inl (keeping_setsVariables _ _)
  | loses hturn hrunning hcursor hnode => exact absurd hrunning hs
  | executes hturn hr => exact absurd (hready hturn).running hs
  | inquires hturn hq => exact absurd (hready hturn).running hs
  | stumbles hturn => exact absurd (hready hturn).running hs
  | delivers => exact absurd (running_of_deliver hready) hs
  | jumps => exact absurd (running_of_leave hready) hs
  | moves => exact absurd (running_of_leave hready) hs
  | suspends => exact absurd (running_of_leave hready) hs
  | terminates => exact absurd (running_of_leave hready) hs
  | fails => exact absurd (running_of_leave hready) hs
  | finishes => exact absurd hready hs
  | givesUp => exact absurd hready hs
  | _ => exact .inl (by simp)

theorem State.Keeps.still (hkeeps : st.Keeps s.Standing s.Healthy) {mv : Move}
    (hm : Orderly st mv) (hs : st.memory.context.status ≠ .running)
    (hevents : ∀ e ∈ events (st.step s mv).2, ¬ e.Begins) :
    (∀ e ∈ events (st.step s mv).2, e.SetsVariables) ∨
      events (st.step s mv).2 = [.reset] ∧ (st.step s mv).1.memory.context.status = .idle := by
  by_cases htick : mv = .tick
  · subst htick
    simp only [step] at hevents ⊢
    rcases tick_cases s st with heq | ⟨op, -, heq⟩ | ⟨op, i, rest, hholder, heq⟩
    · exact .inl (by simp [heq])
    · exact .inl (by simp [heq])
    · rw [heq, events_carryOut] at hevents ⊢
      rcases (hkeeps.held _ hholder).still (perform_performs i) hs with hvars | ⟨e, he, hbegins⟩
      · exact .inl hvars
      · exact absurd hbegins (hevents e he)
  · by_cases hreset : mv = .reset
    · subst hreset
      exact .inr ⟨rfl, rfl⟩
    · have hlines : (st.step s mv).1.memory = st.memory ∧ events (st.step s mv).2 = [] :=
        step_lines_up htick hreset hm.1
      exact .inl (by simp [hlines.2])

/-- A session that is not running and is neither started nor resumed does not come to wait: it is
as it was, but for variables, or waits no longer. -/
theorem Course.still {before : List Happening} (hreach : Course s Orderly {} before st)
    (course : Course s Orderly st log st') (hs : st.memory.context.status ≠ .running)
    (hlog : ∀ e ∈ events log, ¬ e.Begins) :
    st'.memory.context.status ≠ .running ∧ (∀ e ∈ events log, ¬ e.Suspends) ∧
      ((∀ e ∈ events log, e.SetsVariables) ∨ st'.memory.context.status ≠ .suspended) := by
  induction course with
  | refl => exact ⟨hs, by simp, .inl (by simp)⟩
  | @tail log st' course mv hm ih =>
    have hearlier : ∀ e ∈ events log, ¬ e.Begins := fun e he => hlog e (by simp [he])
    have hlast : ∀ e ∈ events (st'.step s mv).2, ¬ e.Begins := fun e he => hlog e (by simp [he])
    obtain ⟨hrest, hnone, hwaits⟩ := ih hearlier
    have hcontext : (st'.step s mv).1.memory.context =
        (events (st'.step s mv).2).foldl Context.apply st'.memory.context :=
      State.step_context hm.1
    rcases (hreach.trans course).standing.still hm hrest hlast with hvars | ⟨hreset, hidle⟩
    · have hkept := (Context.foldl_setsVariables (c := st'.memory.context) hvars).1
      rw [← hcontext] at hkept
      refine ⟨hkept ▸ hrest, fun e he => ?_, ?_⟩
      · rw [events_append] at he
        rcases List.mem_append.mp he with he | he
        · exact hnone e he
        · exact (hvars e he).not_suspends
      · rcases hwaits with hearly | hne
        · refine .inl fun e he => ?_
          rw [events_append] at he
          rcases List.mem_append.mp he with he | he
          · exact hearly e he
          · exact hvars e he
        · exact .inr (hkept ▸ hne)
    · refine ⟨by simp [hidle], fun e he => ?_, .inr (by simp [hidle])⟩
      rw [events_append, hreset] at he
      rcases List.mem_append.mp he with he | he
      · exact hnone e he
      · obtain rfl := List.mem_singleton.mp he
        exact id

theorem State.count_holder_pos {h : Holder} (hholder : st.holder = some h) :
    0 < st.operations.count h.op := by
  simp only [operations, hholder, Option.toList_some, List.map_cons, List.map_nil,
    List.count_append, List.count_cons, beq_self_eq_true, if_true]
  omega

theorem dropped_reply_never_holds (hnumbered : st.Numbered) {reply : Value} {h : Holder}
    {allows : State → Move → Prop} (hrunning : st.memory.context.status = .running)
    (hlater : Course s allows (st.step s (.begin (.submit reply))).1 log st')
    (hholder : st'.holder = some h) : h.op ≠ st.nextOp := by
  intro hop
  have hstep : (st.step s (.begin (.submit reply))).1 = { st with nextOp := st.nextOp + 1 } := by
    simp [State.step, State.begin, State.submit, hrunning]
  rw [hstep] at hlater
  have hunused : st.operations.count st.nextOp = 0 := by
    have hcount := hnumbered st.nextOp
    simpa using hcount
  have hzero := hlater.count_eq_zero (Nat.lt_succ_self st.nextOp) hunused
  have hpos := State.count_holder_pos hholder
  rw [hop] at hpos
  omega

/-- A reply that is taken at a node was not given while nodes were run. The question of the node had
been asked when the reply was given, and the session has waited for its answer ever since, exactly if
no operation has started or resumed the session in between. -/
theorem reply_answers_seen_question_iff {before : List Happening}
    (hreach : Course s Orderly {} before st) {reply : Value}
    (hlater : Course s Orderly (st.step s (.begin (.submit reply))).1 log st')
    (hholder : st'.holder = some ⟨st.nextOp, [.accept reply], none⟩) {node : Node}
    (hwaits : s.AwaitsReply st'.memory.context node) :
    st.memory.context.status ≠ .running ∧ Asked node.id (before ++ log) ∧
      ((Asked node.id before ∧ ∀ e ∈ events log, ¬ e.Suspends) ↔
        ∀ e ∈ events log, ¬ e.Begins) := by
  have hrest : st.memory.context.status ≠ .running := fun hrunning =>
    dropped_reply_never_holds (hreach.numbered State.numbered_new) hrunning hlater hholder rfl
  have hstep : st.step s (.begin (.submit reply)) =
      (({ st with nextOp := st.nextOp + 1 } : State).acquire st.nextOp (.accept reply), []) := by
    simp [State.step, State.begin, State.submit, hrest]
  have hbegin : Orderly st (.begin (.submit reply)) := ⟨by simp, by simp⟩
  have hgiven : Course s Orderly {} before (st.step s (.begin (.submit reply))).1 := by
    have hcourse := hreach.tail (.begin (.submit reply)) hbegin
    rw [hstep, List.append_nil] at hcourse
    rw [hstep]
    exact hcourse
  have hmemory : (st.step s (.begin (.submit reply))).1.memory = st.memory := by
    simp [hstep]
  have hcontext := hlater.context_eq fun _ _ hm => hm.1 _ rfl
  rw [hmemory] at hcontext
  obtain ⟨hcursor, -⟩ := Setup.waitingNode?_eq_some hwaits.waiting
  -- the context that the reply meets is what the events since then have made of the old one
  refine ⟨hrest, ?_, fun hseen e he hbegins => ?_, fun hlog => ?_⟩
  · obtain ⟨id, hid, hasked⟩ := (hgiven.trans hlater).conversation.asked hwaits.suspended
    obtain rfl : node.id = id := Option.some.inj (hcursor.symm.trans hid)
    exact hasked
  · have hne := Context.foldl_ne_suspended_of_begins (c := st.memory.context)
      ⟨e, he, hbegins⟩ hseen.2
    rw [← hcontext] at hne
    exact hne hwaits.suspended
  · obtain ⟨-, hnone, hvars | hne⟩ := hgiven.still hlater (by rw [hmemory]; exact hrest) hlog
    · obtain ⟨hstatus, hplace⟩ := Context.foldl_setsVariables (c := st.memory.context) hvars
      rw [← hcontext] at hstatus hplace
      obtain ⟨id, hid, hasked⟩ :=
        hreach.conversation.asked (hstatus.symm.trans hwaits.suspended)
      obtain rfl : node.id = id :=
        Option.some.inj (hcursor.symm.trans (hplace.trans hid))
      exact ⟨hasked, hnone⟩
    · exact absurd hwaits.suspended hne

/-- The first question is asked and a reply to it waits for the session. -/
def toFirstReply : List Move :=
  toQuestion ++ [.answer 0 (.value .null), .tick, .tick, .begin (.submit (.str "Ana"))]

/-- From there, once a second reply is given, to the moment when that reply gets the session. -/
def toSecondReply : List Move :=
  [.answer 0 (.value .null), .tick, .tick, .grant, .tick, .tick, .tick, .tick, .tick, .tick, .tick,
    .answer 1 (.value .null), .tick, .tick, .answer 1 (.value .null), .tick, .tick, .grant]

/-- The session when the second reply is given. -/
def answered : State := (State.steps questioning {} toFirstReply).1

/-- The session when the second reply gets it. -/
def answeredTwice : State :=
  ((answered.step questioning (.begin (.submit (.str "Ana Maria")))).1.steps questioning
    toSecondReply).1

theorem second_reply_outruns_question :
    ∃ log, Asked "r" ((State.steps questioning {} toFirstReply).2 ++ log) ∧
      ¬ (Asked "r" (State.steps questioning {} toFirstReply).2 ∧
        ∀ e ∈ events log, ¬ e.Suspends) := by
  have hreach : Course questioning Orderly {} _ answered :=
    Course.of_steps toFirstReply
      (State.allows_of_forall (by simp [toFirstReply, toQuestion, Orderly]))
  have hlater : Course questioning Orderly
      (answered.step questioning (.begin (.submit (.str "Ana Maria")))).1 _ answeredTwice :=
    Course.of_steps toSecondReply (State.allows_of_forall (by simp [toSecondReply, Orderly]))
  have hholder : answeredTwice.holder =
      some ⟨answered.nextOp, [.accept (.str "Ana Maria")], none⟩ := by decide
  have hwaits : questioning.AwaitsReply answeredTwice.memory.context
      ⟨"r", .input { question := "Town?", variableName := "town" }⟩ :=
    ⟨by decide, by decide, by decide⟩
  obtain ⟨-, hasked, hiff⟩ := reply_answers_seen_question_iff hreach hlater hholder hwaits
  refine ⟨_, hasked, fun hseen => ?_⟩
  exact hiff.mp hseen .resumed (by decide) trivial

/-- Whether something is a message of a node, or leaves the session at that node. -/
def Happening.isAbout (id : String) : Happening → Bool
  | .called _ (.message m) => m.node == id
  | .changed _ c => c.cursor == some id
  | _ => false

/-- Two replies to the first question: nothing had been heard of the second question when the second
reply was given, and still it is kept as the answer to that question. -/
theorem second_reply_answers_second_question :
    (∀ x ∈ (State.steps questioning {} toFirstReply).2, ¬ x.isAbout "r") ∧
      answeredTwice.holder = some ⟨answered.nextOp, [.accept (.str "Ana Maria")], none⟩ ∧
      (answeredTwice.tick questioning).1.memory.context.vars =
        [("name", .str "Ana"), ("town", .str "Ana Maria")] := by
  decide

end Session

end ChatFlow
