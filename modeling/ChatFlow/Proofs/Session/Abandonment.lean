import ChatFlow.Proofs.Session.Numbering
import ChatFlow.Proofs.Session.Phase
import ChatFlow.Proofs.Session.Turn

/-!
# Abandoned operations

What becomes of an operation that waits for a call while the session is reset.

A run that pauses, or that waits for the answer to a question, notices the reset: whatever it is told
in the end, it is over without a trace (`stale_run_ends_quietly`). An operation that waits for a
message to be delivered or for a request of a node does not look for a reset, and
`ends_quietly_iff` says exactly when it ends without a trace all the same: when the call fails, when
it was a request, or when nothing was left to do.

Both rest on `Course.waits`: as long as its call is not answered, an operation stands still.
-/

namespace ChatFlow.Session

variable {s : Setup} {allows : State → Move → Prop} {st st' : State} {log : List Happening} {op : Nat}
  {agenda : List Instruction} {call : Call}

/-- The call of an operation is not answered, and no earlier turn is adopted. -/
def Meanwhile (op : Nat) (st : State) (m : Move) : Prop :=
  (∀ reply, m ≠ .answer op reply) ∧ ∀ c, m = .restore c → st.memory.context.turn ≤ c.turn

/-! ## While a call is not answered -/

namespace State

theorem acquire_holder {i : Instruction} {k : Nat} {h : Holder} (hholder : st.holder = some h) :
    (st.acquire k i).holder = some h := by
  simp [acquire, isFree, hholder]

theorem submit_holder {reply : Value} {k : Nat} {h : Holder} (hholder : st.holder = some h) :
    (st.submit k reply).1.holder = some h := by
  unfold submit
  split
  · exact hholder
  · exact acquire_holder hholder

theorem answer_holder {reply : Reply} {k : Nat} (hk : k ≠ op)
    (hholder : st.holder = some ⟨op, agenda, some call⟩) :
    (st.answer k reply).1.holder = some ⟨op, agenda, some call⟩ := by
  unfold answer
  split
  · dsimp only
    split
    · exact hholder
    · exact submit_holder hholder
  · rw [hholder]
    simp only [ne_eq, Ne.symm hk, not_false_eq_true, if_true]
    exact hholder

theorem step_holder {m : Move} (hm : ∀ reply, m ≠ .answer op reply)
    (hholder : st.holder = some ⟨op, agenda, some call⟩) :
    (st.step s m).1.holder = some ⟨op, agenda, some call⟩ := by
  cases m with
  | begin operation =>
    cases operation with
    | start vars => exact acquire_holder hholder
    | run => exact acquire_holder hholder
    | submit reply => exact submit_holder hholder
    | transcript text =>
      simp only [step, State.begin]
      split <;> exact hholder
    | speechComplete => exact acquire_holder hholder
  | answer k reply =>
    have hk : k ≠ op := by
      rintro rfl
      exact hm reply rfl
    exact answer_holder hk hholder
  | tick =>
    have hidle : st.tick s = (st, []) := tick_idle (by simp [hholder])
    simp only [step, hidle]
    exact hholder
  | grant =>
    simp only [step, hholder]
  | arrive =>
    simp only [step]
    split
    · exact acquire_holder hholder
    · exact hholder
  | reset => exact hholder
  | restore c => exact hholder
  | notify =>
    simp only [step]
    split <;> exact hholder
  | notifyFromAfar =>
    simp only [step]
    split <;> exact hholder
  | unsubscribe => exact hholder

theorem step_memory {m : Move} (hholder : st.holder = some ⟨op, agenda, some call⟩)
    (hreset : m ≠ .reset) (hrestore : ∀ c, m ≠ .restore c) :
    (st.step s m).1.memory = st.memory ∧ events (st.step s m).2 = [] := by
  by_cases htick : m = .tick
  · subst htick
    have hidle : st.tick s = (st, []) := tick_idle (by simp [hholder])
    simp [step, hidle]
  · exact step_lines_up htick hreset hrestore

end State

/-- What is known of an operation that waits for a call, after some time. -/
structure Waits (op : Nat) (agenda : List Instruction) (call : Call) (st : State)
    (log : List Happening) (st' : State) : Prop where
  holder_eq : st'.holder = some ⟨op, agenda, some call⟩
  lastError_eq : st'.memory.lastError = st.memory.lastError
  turn_le : st.memory.context.turn + resets log ≤ st'.memory.context.turn
  context_eq : (∀ c, .restored c ∉ log) →
    st'.memory.context = if resets log = 0 then st.memory.context
      else .initial (st.memory.context.turn + resets log)

/-- Until its call is answered, an operation stands still: only resets change anything. -/
theorem Course.waits (course : Course s (Meanwhile op) st log st')
    (hholder : st.holder = some ⟨op, agenda, some call⟩) : Waits op agenda call st log st' := by
  induction course with
  | refl => exact ⟨hholder, rfl, by simp, fun _ => rfl⟩
  | @tail log st' course m hm ih =>
    have hnext := State.step_holder (s := s) hm.1 ih.holder_eq
    -- a reset adds one to both sides of `turn_le`, a saved context can only raise the right one
    by_cases hreset : m = .reset
    · subst hreset
      have hone : resets (st'.step s .reset).2 = 1 := rfl
      have hle := ih.turn_le
      refine ⟨hnext, ih.lastError_eq, ?_, fun hlog => ?_⟩
      · rw [resets_append, hone]
        show _ ≤ st'.memory.context.turn + 1
        omega
      · have hturn : st'.memory.context.turn = st.memory.context.turn + resets log := by
          rw [ih.context_eq fun c hc => hlog c (List.mem_append_left _ hc)]
          split
          · omega
          · rfl
        rw [resets_append, hone, if_neg (by omega)]
        have hsum : st'.memory.context.turn + 1 =
            st.memory.context.turn + ((resets log + 1 : Nat) : Int) := by omega
        show Context.initial (st'.memory.context.turn + 1) = _
        rw [hsum]
    · by_cases hrestore : ∃ c, m = .restore c
      · obtain ⟨c, rfl⟩ := hrestore
        have hzero : resets (st'.step s (.restore c)).2 = 0 := rfl
        have hle := hm.2 c rfl
        have hturn := ih.turn_le
        refine ⟨hnext, ih.lastError_eq, ?_, fun hlog => ?_⟩
        · rw [resets_append, hzero]
          show _ ≤ c.turn
          omega
        · exact absurd (List.mem_append_right _ (List.mem_singleton.mpr rfl)) (hlog c)
      · have hother : ∀ c, m ≠ .restore c := fun c heq => hrestore ⟨c, heq⟩
        obtain ⟨hmemory, hevents⟩ := State.step_memory (s := s) ih.holder_eq hreset hother
        have hzero : resets (st'.step s m).2 = 0 := by simp [resets, hevents]
        refine ⟨hnext, by rw [hmemory, ih.lastError_eq], ?_, fun hlog => ?_⟩
        · rw [resets_append, hzero, hmemory]
          exact ih.turn_le
        · rw [resets_append, hzero, hmemory]
          exact ih.context_eq fun c hc => hlog c (List.mem_append_left _ hc)

/-! ## The end of an operation -/

/-- Once its call is answered, an operation is over without a further event, message or request: in
two steps at most the session is free, and nothing else has changed. -/
def State.EndsQuietly (s : Setup) (st : State) (op : Nat) (reply : Reply) : Prop :=
  ∃ result, st.steps s [.answer op reply, .tick, .tick] =
    ({ st with holder := none }, [.finished op result])

/-- Whether a reply is an error. -/
def Reply.Raises : Reply → Prop
  | .raised _ => True
  | _ => False

namespace State

theorem answer_inquire {run : Run} {node : Node} {q : Inquiry} (hnumbered : st.Numbered)
    (hholder : st.holder = some ⟨op, agenda, some (.inquire run node q)⟩) (reply : Reply) :
    st.answer op reply =
      ({ st with holder := some ⟨op, .conclude run node q reply :: agenda, none⟩ }, []) := by
  have hecho := hnumbered.not_mem_echoes hholder
  simp [answer, hecho, hholder]

theorem answer_raised {r : Request} {e : Fault} (hnumbered : st.Numbered)
    (hholder : st.holder = some ⟨op, agenda, some (.outward r)⟩) :
    st.answer op (.raised e) = ({ st with holder := none }, [.finished op (.error e)]) := by
  have hecho := hnumbered.not_mem_echoes hholder
  simp [answer, hecho, hholder]

theorem answer_outward {r : Request} {reply : Reply} (hnumbered : st.Numbered)
    (hholder : st.holder = some ⟨op, agenda, some (.outward r)⟩) (hreply : ¬ Reply.Raises reply) :
    st.answer op reply = ({ st with holder := some ⟨op, agenda, none⟩ }, []) := by
  have hecho := hnumbered.not_mem_echoes hholder
  cases reply with
  | raised e => exact absurd trivial hreply
  | generated text => simp [answer, hecho, hholder]
  | outcome o => simp [answer, hecho, hholder]
  | value v => simp [answer, hecho, hholder]

theorem tick_free : State.tick s { st with holder := none } = ({ st with holder := none }, []) :=
  tick_idle (by simp)

theorem ticks_over (hholder : st.holder = some ⟨op, [], none⟩) :
    st.steps s [.tick, .tick] =
      ({ st with holder := none }, [.finished op (.ok st.memory.context)]) := by
  simp [steps, step, tick_over hholder, tick_free]

theorem endsQuietly_of_raises {r : Request} {reply : Reply} (hnumbered : st.Numbered)
    (hholder : st.holder = some ⟨op, agenda, some (.outward r)⟩) (hreply : Reply.Raises reply) :
    st.EndsQuietly s op reply := by
  cases reply with
  | raised e =>
    exact ⟨.error e, by simp [steps, step, answer_raised hnumbered hholder, tick_free]⟩
  | generated text => exact hreply.elim
  | outcome o => exact hreply.elim
  | value v => exact hreply.elim

theorem endsQuietly_of_nil {reply : Reply}
    (hanswer : st.answer op reply = ({ st with holder := some ⟨op, [], none⟩ }, [])) :
    st.EndsQuietly s op reply := by
  let st₁ : State := { st with holder := some ⟨op, [], none⟩ }
  have hover : st₁.steps s [.tick, .tick] =
      ({ st with holder := none }, [.finished op (.ok st.memory.context)]) := ticks_over rfl
  refine ⟨.ok st.memory.context, ?_⟩
  rw [steps]
  simp only [step, hanswer]
  exact hover

theorem endsQuietly_of_stop {reply : Reply} {i : Instruction} {rest : List Instruction}
    {outcome : Outcome} (hanswer : st.answer op reply =
      ({ st with holder := some ⟨op, i :: rest, none⟩ }, []))
    (hperform : s.perform st.memory.context i = { outcome := outcome })
    (hstops : outcome = .stop ∨ ∃ e, outcome = .fail e) : st.EndsQuietly s op reply := by
  let st₁ : State := { st with holder := some ⟨op, i :: rest, none⟩ }
  rcases hstops with rfl | ⟨e, rfl⟩
  · have htick : st₁.tick s = ({ st with holder := some ⟨op, [], none⟩ }, []) :=
      tick_stop rfl hperform
    exact ⟨.ok st.memory.context, by simp [steps, step, hanswer, htick, tick_over, st₁]⟩
  · have htick : st₁.tick s = ({ st with holder := none }, [.finished op (.error e)]) :=
      tick_fail rfl hperform
    exact ⟨.error e, by simp [steps, step, hanswer, htick, tick_free, st₁]⟩

end State

/-! ## Runs that look for a reset -/

theorem perform_execute_stale {c : Context} {run : Run} {node : Node} (h : c.turn ≠ run.turn) :
    s.perform c (.execute run node) = { outcome := .stop } := by
  simp [Setup.perform, Setup.execute, h]

theorem Setup.perform_conclude_stale (s : Setup) {c : Context} {run : Run} (node : Node)
    (q : Inquiry) (reply : Reply) (h : c.turn ≠ run.turn) :
    ∃ outcome, s.perform c (.conclude run node q reply) = { outcome := outcome } ∧
      (outcome = .stop ∨ ∃ e, outcome = .fail e) := by
  simp only [Setup.perform]
  cases s.executor.conclude node.id q reply with
  | error e => exact ⟨.fail e, rfl, .inr ⟨e, rfl⟩⟩
  | ok r => exact ⟨.stop, by simp [h], .inl rfl⟩

/-- A run that pauses before a node, or waits for the answer to its question, while its session is
reset is over without a trace, whatever it is told in the end: the session is as new, in a turn of
its own for every reset. -/
theorem stale_run_ends_quietly {before : List Happening} (hreach : Course s Forward {} before st)
    (hholder : st.holder = some ⟨op, agenda, some call⟩) (hcall : call.Guarded)
    (hmeanwhile : Course s (Meanwhile op) st log st') (hreset : 0 < resets log) (reply : Reply) :
    st'.EndsQuietly s op reply ∧ st'.memory.lastError = st.memory.lastError ∧
      ((∀ c, .restored c ∉ log) →
        st'.memory.context = .initial (st.memory.context.turn + resets log)) := by
  have hwaits := hmeanwhile.waits hholder
  have hnumbered : st'.Numbered := hmeanwhile.numbered (hreach.numbered State.numbered_new)
  have hbounded := hreach.bounded hholder
  have hlt : st.memory.context.turn < st'.memory.context.turn := by
    have hle := hwaits.turn_le
    omega
  refine ⟨?_, hwaits.lastError_eq, fun hlog => ?_⟩
  · cases hcall with
    | sleep seconds =>
      -- of all phases, only one sleeps, and all it has left to do is to execute the node
      obtain ⟨run, node, rfl⟩ : ∃ run node, agenda = [.execute run node] := by
        cases hreach.phase hholder with
        | pausing => exact ⟨_, _, rfl⟩
        | leaving hc ht ho => nomatch hc
        | suspending hc hcall => nomatch hc
        | requested hr => exact hr.elim
        | closing hc ho => nomatch hc
        | givingUp hc => nomatch hc
      have hrun : run.turn ≤ st.memory.context.turn := hbounded.agenda _ List.mem_cons_self run rfl
      have hstop : s.perform st'.memory.context (.execute run node) = { outcome := .stop } :=
        perform_execute_stale (by omega)
      by_cases hreply : Reply.Raises reply
      · exact State.endsQuietly_of_raises hnumbered hwaits.holder_eq hreply
      · exact State.endsQuietly_of_stop (State.answer_outward hnumbered hwaits.holder_eq hreply)
          hstop (.inl rfl)
    | inquire run node q =>
      have hrun : run.turn ≤ st.memory.context.turn := hbounded.call run rfl
      have hstale : st'.memory.context.turn ≠ run.turn := by omega
      obtain ⟨outcome, hperform, hstops⟩ := s.perform_conclude_stale node q reply hstale
      exact State.endsQuietly_of_stop (State.answer_inquire hnumbered hwaits.holder_eq reply)
        hperform hstops
  · rw [hwaits.context_eq hlog, if_neg (by omega)]

/-- The session while it waits for the generated text. -/
def awaitsText : State := (State.steps generating {} toGenerating).1

theorem late_text_is_discarded :
    (awaitsText.step generating .reset).1.EndsQuietly generating 0 (.text "late") ∧
      (awaitsText.step generating .reset).1.memory.context = .initial 1 := by
  have hreach : Course generating Forward {} _ awaitsText :=
    Course.of_steps toGenerating (State.allows_of_forall (by simp [toGenerating, Forward]))
  have hholder : awaitsText.holder = some ⟨0, [], some (.inquire ⟨0, 2⟩
      ⟨"a", .aiResponse { prompt := "hi" }⟩ (.generate { prompt := "hi" } "hi"))⟩ := rfl
  have hmeanwhile : Course generating (Meanwhile 0) awaitsText _
      (awaitsText.step generating .reset).1 :=
    Course.single .reset (by simp [Meanwhile])
  obtain ⟨hquiet, -, hcontext⟩ := stale_run_ends_quietly hreach hholder (.inquire _ _ _)
    hmeanwhile (by decide) (.text "late")
  exact ⟨hquiet, hcontext (by simp [State.reset_eq])⟩

/-- If an earlier turn is adopted in the middle of a run, a reset can lead back to the turn of the
run. The run then goes on. -/
theorem restored_turn_revives_run :
    let waiting := (State.steps generating {} (.reset :: toGenerating)).1
    let revived := (waiting.steps generating [.restore {}, .reset]).1
    ∃ run node q, waiting.holder = some ⟨0, [], some (.inquire run node q)⟩ ∧
      (revived.steps generating [.answer 0 (.text "late"), .tick, .tick, .tick]).2 =
        [.called 0 (.message { content := "late", node := "a" })] :=
  ⟨⟨1, 2⟩, ⟨"a", .aiResponse { prompt := "hi" }⟩, .generate { prompt := "hi" } "hi", rfl, rfl⟩

/-! ## Operations that do not look for a reset -/

/-- What makes an operation end without a trace although it does not look for a reset: its call
fails, or was a request of a node, or nothing was left to do. -/
def Harmless (r : Request) (agenda : List Instruction) (reply : Reply) : Prop :=
  Reply.Raises reply ∨ r.FromNode ∨ agenda = []

theorem perform_visit_initial {turn : Int} {run : Run} :
    s.perform (.initial turn) (.visit run) = { outcome := .stop } := by
  simp [Setup.perform, Setup.visit, Context.initial]

theorem events_tick {i : Instruction} {rest : List Instruction}
    (hholder : st.holder = some ⟨op, i :: rest, none⟩) :
    events (st.tick s).2 = (s.perform st.memory.context i).events := by
  rw [State.tick_eq_carryOut hholder rfl]
  exact State.events_carryOut

theorem Setup.leave_initial (s : Setup) (turn : Int) (node : Node) {t : Transition}
    (ht : t.Leaves) :
    (s.perform (.initial turn) (.leave node t)).events ≠ [] ∨
      s.perform (.initial turn) (.leave node t) = { outcome := .proceed [.close] } := by
  cases t with
  | advance id => exact ht.elim
  | advanceVia port =>
    simp only [Setup.perform, Setup.leave]
    cases s.graph.targets node.id port with
    | nil => exact .inr rfl
    | cons id rest => exact .inl (by simp)
  | suspend reason choices => exact ht.elim
  | terminate => exact .inl (by simp [Setup.perform, Setup.leave])
  | fail error text => exact .inl (by simp [Setup.perform, Setup.leave])

theorem events_of_not_harmless {turn : Int} {i : Instruction} {rest : List Instruction} {m : Message}
    {reply : Reply} (hanswer : st.answer op reply =
      ({ st with holder := some ⟨op, i :: rest, none⟩ }, []))
    (hcontext : st.memory.context = .initial turn)
    (hphase : Phase (some (.outward (.message m))) (i :: rest)) :
    events (st.steps s [.answer op reply, .tick, .tick]).2 ≠ [] := by
  let st₁ : State := { st with holder := some ⟨op, i :: rest, none⟩ }
  have hfirst : events (st₁.tick s).2 = (s.perform st.memory.context i).events := events_tick rfl
  have hat_once : (s.perform (.initial turn) i).events ≠ [] →
      events (st.steps s [.answer op reply, .tick, .tick]).2 ≠ [] := by
    intro hne hempty
    simp only [State.steps, State.step, hanswer, events_append, List.append_eq_nil_iff] at hempty
    rw [hcontext] at hfirst
    exact hne (hfirst.symm.trans hempty.2.1)
  cases hphase with
  | leaving hc ht ho =>
    rename_i node t
    rcases s.leave_initial turn node ht with hne | hclose
    · exact hat_once hne
    · have hp : s.perform st₁.memory.context (.leave node t) = { outcome := .proceed [.close] } := by
        show s.perform st.memory.context _ = _
        rw [hcontext]
        exact hclose
      let st₂ : State := { st with holder := some ⟨op, .close :: rest, none⟩ }
      have htick : st₁.tick s = (st₂, []) := State.tick_proceed rfl hp
      have hsecond : events (st₂.tick s).2 = (s.perform st₂.memory.context .close).events :=
        events_tick rfl
      simp [State.steps, State.step, hanswer, htick, hsecond, Setup.perform, st₁]
  | suspending hc hcall => exact hat_once (by simp [Setup.perform, Setup.leave])
  | requested hr => exact hr.elim
  | closing hc ho => exact hat_once (by simp [Setup.perform])
  | givingUp hc => exact hat_once (by simp [Setup.perform])

/-- An operation that waits for a message to be delivered, or for a request of a node, while its
session is reset ends without a trace exactly if its call fails, or was a request, or nothing was
left to do. In every other case it goes on in the session that is as new. -/
theorem ends_quietly_iff {before : List Happening} (hreach : Course s Anything {} before st)
    {r : Request} (hholder : st.holder = some ⟨op, agenda, some (.outward r)⟩)
    (hr : ∀ seconds, r ≠ .sleep seconds) (hmeanwhile : Course s (Meanwhile op) st log st')
    (hlog : ∀ c, .restored c ∉ log) (hreset : 0 < resets log) (reply : Reply) :
    st'.memory.context = .initial (st.memory.context.turn + resets log) ∧
      st'.memory.lastError = st.memory.lastError ∧
      (st'.EndsQuietly s op reply ↔ Harmless r agenda reply) ∧
      (¬ Harmless r agenda reply →
        events (st'.steps s [.answer op reply, .tick, .tick]).2 ≠ []) := by
  have hwaits := hmeanwhile.waits hholder
  have hnumbered : st'.Numbered := hmeanwhile.numbered (hreach.numbered State.numbered_new)
  have hcontext : st'.memory.context = .initial (st.memory.context.turn + resets log) := by
    rw [hwaits.context_eq hlog, if_neg (by omega)]
  have hphase : Phase (some (.outward r)) agenda := hreach.phase hholder
  have hquiet : Harmless r agenda reply → st'.EndsQuietly s op reply := by
    intro hharmless
    by_cases hraises : Reply.Raises reply
    · exact State.endsQuietly_of_raises hnumbered hwaits.holder_eq hraises
    · have hanswer := State.answer_outward hnumbered hwaits.holder_eq hraises
      rcases hharmless with hraises' | hnode | rfl
      · exact absurd hraises' hraises
      · cases hphase with
        | announcing => exact hnode.elim
        | pausing => exact hnode.elim
        | leaving hc ht ho => cases hc; exact hnode.elim
        | suspending hc hcall => cases hc; exact hnode.elim
        | requested hr =>
          exact State.endsQuietly_of_stop hanswer (by rw [hcontext]; exact perform_visit_initial)
            (.inl rfl)
        | closing hc ho => cases hc; exact hnode.elim
        | givingUp hc => cases hc; exact hnode.elim
      · exact State.endsQuietly_of_nil hanswer
  have hloud : ¬ Harmless r agenda reply →
      events (st'.steps s [.answer op reply, .tick, .tick]).2 ≠ [] := by
    intro hharmful
    have hanswer := State.answer_outward hnumbered hwaits.holder_eq
      fun hraises => hharmful (.inl hraises)
    -- what is neither a pause nor the request of a node is a message
    obtain ⟨m, rfl⟩ : ∃ m, r = .message m := by
      cases hphase with
      | announcing => exact ⟨_, rfl⟩
      | pausing => exact absurd rfl (hr _)
      | leaving hc ht ho => cases hc; exact ⟨_, rfl⟩
      | suspending hc hcall => cases hc; exact ⟨_, rfl⟩
      | requested hr => exact absurd (.inr (.inl hr)) hharmful
      | closing hc ho => cases hc; exact ⟨_, rfl⟩
      | givingUp hc => cases hc; exact ⟨_, rfl⟩
    cases agenda with
    | nil => exact absurd (.inr (.inr rfl)) hharmful
    | cons i rest => exact events_of_not_harmless hanswer hcontext hphase
  refine ⟨hcontext, hwaits.lastError_eq, ⟨fun hends => ?_, hquiet⟩, hloud⟩
  obtain ⟨result, hends⟩ := hends
  exact Classical.byContradiction fun hharmful => hloud hharmful (by rw [hends]; rfl)

/-- The session while the question is delivered. -/
def delivering : State := (State.steps questioning {} toQuestion).1

theorem question_survives_reset :
    ¬ (delivering.step questioning .reset).1.EndsQuietly questioning 0 (.value .null) := by
  have hreach : Course questioning Anything {} _ delivering :=
    Course.of_steps toQuestion (State.allows_of_forall (by simp [Anything]))
  have hholder : delivering.holder = some ⟨0,
      [.leave ⟨"q", .input { question := "Name?", variableName := "name" }⟩
        (.suspend .textInput []), .perform { kind := .textInput }, .visit ⟨0, 2⟩],
      some (.outward (.message { content := "Name?", node := "q" }))⟩ := rfl
  have hmeanwhile : Course questioning (Meanwhile 0) delivering _
      (delivering.step questioning .reset).1 :=
    Course.single .reset (by simp [Meanwhile])
  obtain ⟨-, -, hiff, -⟩ := ends_quietly_iff hreach hholder (by simp) hmeanwhile
    (by simp [State.reset_eq]) (by decide) (.value .null)
  rw [hiff]
  simp [Harmless, Reply.Raises, Request.FromNode]

/-- A session that is reset while its question is delivered waits for the answer afterwards, without
a node that the answer could belong to. -/
theorem question_suspends_reset_session :
    (delivering.steps questioning [.reset, .answer 0 (.value .null), .tick]).1.memory.context =
      { Context.initial 1 with status := .suspended, awaiting := some .textInput } := by
  decide

end ChatFlow.Session
