import ChatFlow.Proofs.Session.Trace
import ChatFlow.Proofs.Session.Turn

/-!
# Voice mode without a synthesizer

A session in voice mode that has no synthesizer behaves as a session in text mode, unless its graph
asks for spoken replies: `voice_without_synthesizer_is_text`.

A node that speaks has another result in voice mode: it makes a request and waits. The session takes
both back, but not before it delivers the result. So all that tells the two sessions apart is a
result that has still to be delivered, and `State.asText` turns one session into the other. An
instruction has the same effect in both (`perform_asText`), and so has every move
(`State.step_asText`).
-/

namespace ChatFlow

/-- No node asks for a spoken reply. -/
def FlowGraph.AsksNoVoice (g : FlowGraph) : Prop :=
  ∀ n ∈ g.nodes, ∀ d, n.body ≠ .stt d

/-! ## Results -/

namespace ExecutionResult

/-- The result as in text mode: it goes on instead of waiting for a playback. -/
def asText (r : ExecutionResult) : ExecutionResult :=
  if r.awaitsPlayback then r.withoutCalls else r

variable {r : ExecutionResult}

theorem asText_of_not_awaits (h : r.awaitsPlayback = false) : r.asText = r := by
  simp [asText, h]

@[simp] theorem awaitsPlayback_asText (r : ExecutionResult) : r.asText.awaitsPlayback = false := by
  unfold asText
  split
  · rfl
  · rename_i hawaits
    simpa using hawaits

end ExecutionResult

def Progress.asText : Progress → Progress
  | .done r => .done r.asText
  | .asks q => .asks q

namespace Executor

variable {x : Executor} {n : Node} {vars : Fields} {r : ExecutionResult}

theorem not_awaits_of_begin (h : x.begin n vars false = .ok (.done r)) :
    r.awaitsPlayback = false := by
  cases begin_results h with
  | waits hbody ht =>
    rename_i reason choices
    cases reason with
    | speechPlayback => cases hn : n.body <;> simp [hn, Body.waitsFor] at hbody
    | _ => simp [ExecutionResult.awaitsPlayback, ht]
  | ends hbody htext => rfl
  | _ => simp [ExecutionResult.awaitsPlayback, *]

theorem begin_asText (hvoice : ∀ d, n.body ≠ .stt d) :
    (x.begin n vars true).map Progress.asText = x.begin n vars false := by
  by_cases htts : ∃ d, n.body = .tts d
  · obtain ⟨d, hbody⟩ := htts
    simp only [Executor.begin, hbody, speech]
    cases x.speechText d vars with
    | error e => rfl
    | ok text => rfl
  · have hsame : x.begin n vars true = x.begin n vars false := by
      cases hbody : n.body with
      | tts d => exact absurd ⟨d, hbody⟩ htts
      | stt d => exact absurd hbody (hvoice d)
      | _ => simp [Executor.begin, hbody]
    rw [hsame]
    cases hbegin : x.begin n vars false with
    | error e => rfl
    | ok p =>
      cases p with
      | asks q => rfl
      | done r =>
        exact congrArg (fun r => Except.ok (Progress.done r))
          (ExecutionResult.asText_of_not_awaits (not_awaits_of_begin hbegin))

end Executor

namespace Session

/-- The session with another setting for its mode, and with a synthesizer or without. -/
def Setup.inMode (s : Setup) (voiceMode : Value) (hasSynthesizer : Bool) : Setup :=
  { s with
    executor := { s.executor with config := { s.executor.config with voiceMode := voiceMode } }
    hasSynthesizer := hasSynthesizer }

/-! ## Between a result and its delivery -/

/-- The instruction as in text mode. -/
def Instruction.asText : Instruction → Instruction
  | .deliver run n r => .deliver run n r.asText
  | i => i

def Outcome.asText : Outcome → Outcome
  | .proceed todo => .proceed (todo.map Instruction.asText)
  | .call c todo => .call c (todo.map Instruction.asText)
  | .stop => .stop
  | .fail e => .fail e

def Performed.asText (p : Performed) : Performed :=
  { p with outcome := p.outcome.asText }

def Holder.asText (h : Holder) : Holder :=
  { h with agenda := h.agenda.map Instruction.asText }

/-- The session as in text mode. -/
def State.asText (st : State) : State :=
  { st with
    holder := st.holder.map Holder.asText
    queue := st.queue.map fun e => (e.1, e.2.asText) }

variable {s : Setup} {voice text : Value} {b : Bool} {c : Context} {i : Instruction}
  {rest : List Instruction} {p : Performed} {op : Nat} {st : State}

@[simp] theorem delivery_asText (run : Run) (n : Node) (r : ExecutionResult) :
    (delivery run n r).map Instruction.asText = delivery run n r := by
  refine (List.map_congr_left fun i hi => ?_).trans (List.map_id _)
  rcases delivery_cases hi with ⟨m, rfl⟩ | ⟨call, rfl⟩ | rfl | rfl <;> rfl

theorem Performs.asText_eq (hp : Performs s c i p) (hexecute : ∀ run n, i ≠ .execute run n)
    (hconclude : ∀ run n q reply, i ≠ .conclude run n q reply) : p.asText = p := by
  cases hp with
  | executes => exact absurd rfl (hexecute _ _)
  | concludes => exact absurd rfl (hconclude _ _ _ _)
  | delivers => simp [Performed.asText, Outcome.asText]
  | _ => rfl

theorem ofExcept_map {α β : Type} (es : List Event) (x : Except Fault α) (g : α → β)
    (f : β → Outcome) :
    Performed.ofExcept es (x.map g) f = Performed.ofExcept es x fun a => f (g a) := by
  cases x <;> rfl

theorem execute_asText (hvoice : voice.isTruthy = true) (htext : text.isTruthy = false)
    (run : Run) {n : Node} (hn : ∀ d, n.body ≠ .stt d) :
    (s.inMode text b).execute c run n = ((s.inMode voice false).execute c run n).asText := by
  have hspoken : (s.inMode voice false).voiceMode = true := hvoice
  have hwritten : (s.inMode text b).voiceMode = false := htext
  have hbegin : (s.inMode text b).executor.begin n c.vars false =
      ((s.inMode voice false).executor.begin n c.vars true).map Progress.asText :=
    (Executor.begin_asText hn).symm
  unfold Setup.execute
  rw [hspoken, hwritten, hbegin, ofExcept_map]
  split
  · rfl
  · cases (s.inMode voice false).executor.begin n c.vars true with
    | error e => rfl
    | ok p => cases p <;> rfl

theorem feasible_asText (s : Setup) (voice text : Value) (b : Bool) (r : ExecutionResult) :
    (s.inMode voice false).feasible r = (s.inMode text b).feasible r.asText := by
  have hspoken : (s.inMode voice false).feasible r = r.asText := by
    simp [Setup.feasible, Setup.inMode, ExecutionResult.asText]
  rw [hspoken]
  simp [Setup.feasible]

/-- No node is executed that asks for a spoken reply, and no request to speak is made. -/
structure Voiceless (agenda : List Instruction) : Prop where
  executes : ∀ run n, .execute run n ∈ agenda → ∀ d, n.body ≠ .stt d
  performs : ∀ call, .perform call ∈ agenda → call.kind ≠ .speech

/-- An instruction has the same effect in both modes. -/
theorem perform_asText (hvoice : voice.isTruthy = true) (htext : text.isTruthy = false)
    (h : Voiceless (i :: rest)) :
    (s.inMode text b).perform c i.asText = ((s.inMode voice false).perform c i).asText := by
  cases i with
  | execute run n => exact execute_asText hvoice htext run (h.executes run n List.mem_cons_self)
  | conclude run n q reply =>
    show (s.inMode voice false).perform c (.conclude run n q reply) = _
    simp only [Setup.perform]
    cases hr : (s.inMode voice false).executor.conclude n.id q reply with
    | error e => rfl
    | ok r =>
      have hsame := ExecutionResult.asText_of_not_awaits (Executor.conclude_results hr).not_awaits
      by_cases hturn : c.turn = run.turn <;>
        simp [hturn, Performed.asText, Outcome.asText, Instruction.asText, hsame]
  | deliver run n r =>
    simp only [Instruction.asText, Setup.perform, Performed.asText, Outcome.asText,
      feasible_asText s voice text b r, delivery_asText]
  | perform call =>
    have hkind := h.performs call List.mem_cons_self
    simp only [Instruction.asText, Setup.perform, Performed.asText, Setup.performCall]
    cases hcall : call.kind with
    | speech => exact absurd hcall hkind
    | textInput | voiceInput =>
      cases hhost : s.hasHost <;> simp [Setup.inMode, hhost, Outcome.asText]
  | _ =>
    have hperforms := perform_performs (s := s.inMode voice false) (c := c)
    refine Eq.trans ?_ (Performs.asText_eq (hperforms _) ?_ ?_).symm
    · rfl
    · simp
    · simp

/-! ## Single moves -/

namespace State

theorem acquire_asText (st : State) (op : Nat) (i : Instruction) :
    st.asText.acquire op i.asText = (st.acquire op i).asText := by
  have hfree : st.asText.isFree = st.isFree := by simp [isFree, asText]
  unfold acquire
  rw [hfree]
  split <;> simp [asText, Holder.asText]

theorem submit_asText (st : State) (op : Nat) (reply : Value) :
    st.asText.submit op reply = ((st.submit op reply).1.asText, (st.submit op reply).2) := by
  have hsame : st.asText.memory = st.memory := rfl
  unfold submit
  rw [hsame]
  split
  · rfl
  · exact Prod.ext (acquire_asText st op (.accept reply)) rfl

theorem begin_asText (operation : Operation) :
    st.asText.begin (s.inMode text b) operation =
      ((st.begin (s.inMode voice false) operation).1.asText,
        (st.begin (s.inMode voice false) operation).2) := by
  let next : State := { st with nextOp := st.nextOp + 1 }
  cases operation with
  | start vars => exact Prod.ext (acquire_asText next _ (.start vars)) rfl
  | run => exact Prod.ext (acquire_asText next _ .enter) rfl
  | submit reply => exact submit_asText next _ reply
  | transcript said =>
    simp only [State.begin]
    split <;> rfl
  | speechComplete => exact Prod.ext (acquire_asText next _ .acceptPlayback) rfl

theorem answer_asText (reply : Reply) :
    st.asText.answer op reply = ((st.answer op reply).1.asText, (st.answer op reply).2) := by
  have hechoes : st.asText.echoes = st.echoes := rfl
  unfold answer
  rw [hechoes]
  cases st.echoes.find? (·.1 == op) with
  | some e =>
    have hdone := submit_asText { st with echoes := st.echoes.filter (·.1 ≠ op) } op
    cases reply with
    | raised e => rfl
    | _ => exact hdone e.2
  | none =>
    cases hholder : st.holder with
    | none => simp [asText, hholder]
    | some h =>
      obtain ⟨k, agenda, call⟩ := h
      have hheld : st.asText.holder = some ⟨k, agenda.map Instruction.asText, call⟩ := by
        simp [asText, hholder, Holder.asText]
      rw [hheld]
      cases call with
      | none => rfl
      | some call =>
        by_cases hop : k = op
        · subst hop
          cases call with
          | inquire run n q => simp [asText, Holder.asText, Instruction.asText]
          | outward r => cases reply <;> simp [asText, Holder.asText]
        · simp [hop]

theorem carryOut_asText :
    st.asText.carryOut (s.inMode text b) op (rest.map Instruction.asText) p.asText =
      ((st.carryOut (s.inMode voice false) op rest p).1.asText,
        (st.carryOut (s.inMode voice false) op rest p).2) := by
  obtain ⟨events, executed, lastError, entered, outcome⟩ := p
  cases outcome with
  | call call todo =>
    have hrequest : (s.inMode text b).requestOf call = (s.inMode voice false).requestOf call := by
      cases call <;> rfl
    simp [carryOut, Performed.asText, Outcome.asText, asText, Holder.asText, hrequest,
      Memory.after, Memory.log]
  | _ =>
    simp [carryOut, Performed.asText, Outcome.asText, asText, Holder.asText, Memory.after,
      Memory.log]

theorem tick_asText (hvoice : voice.isTruthy = true) (htext : text.isTruthy = false)
    (hheld : ∀ h, st.holder = some h → Voiceless h.agenda) :
    st.asText.tick (s.inMode text b) =
      ((st.tick (s.inMode voice false)).1.asText, (st.tick (s.inMode voice false)).2) := by
  have hholder : st.asText.holder = st.holder.map Holder.asText := rfl
  cases h : st.holder with
  | none =>
    rw [tick_idle (by simp [hholder, h]), tick_idle (by simp [h])]
  | some holder =>
    obtain ⟨op, agenda, call⟩ := holder
    rw [h] at hholder
    cases call with
    | some call =>
      rw [tick_idle (by simp [hholder, Holder.asText]), tick_idle (by simp [h])]
    | none =>
      cases agenda with
      | nil =>
        rw [tick_over hholder, tick_over h]
        rfl
      | cons i rest =>
        have hperform : (s.inMode text b).perform st.asText.memory.context i.asText =
            ((s.inMode voice false).perform st.memory.context i).asText :=
          perform_asText hvoice htext (hheld _ h)
        rw [tick_eq_carryOut hholder hperform, tick_eq_carryOut h rfl]
        exact carryOut_asText

theorem step_asText (hvoice : voice.isTruthy = true) (htext : text.isTruthy = false)
    (hheld : ∀ h, st.holder = some h → Voiceless h.agenda) (m : Move) :
    st.asText.step (s.inMode text b) m =
      ((st.step (s.inMode voice false) m).1.asText, (st.step (s.inMode voice false) m).2) := by
  cases m with
  | begin operation => exact begin_asText operation
  | answer op reply => exact answer_asText reply
  | tick => exact tick_asText hvoice htext hheld
  | grant =>
    cases hholder : st.holder <;> cases hqueue : st.queue <;>
      simp [step, asText, hholder, hqueue, Holder.asText]
  | arrive =>
    cases hscheduled : st.scheduled with
    | nil => simp [step, asText, hscheduled]
    | cons op rest =>
      have harrived : st.asText.scheduled = op :: rest := hscheduled
      simp only [step, hscheduled, harrived]
      exact Prod.ext (acquire_asText { st with scheduled := rest } op .acceptPlayback) rfl
  | reset => rfl
  | restore c => rfl
  | notify | notifyFromAfar =>
    have hmemory : st.asText.memory = st.memory := rfl
    have hsubscribed : st.asText.subscribed = st.subscribed := rfl
    simp only [step, hsubscribed, hmemory]
    split <;> rfl
  | unsubscribe => rfl

end State

/-! ## Whole sessions -/

theorem seated_stable (s : Setup) (allows : State → Move → Prop) :
    Stable s allows (fun _ _ agenda => ∀ run n, .execute run n ∈ agenda → n ∈ s.graph.nodes)
      (fun _ => True) where
  opens _ hi := by
    rintro run n hn
    obtain rfl := List.mem_singleton.mp hn
    exact hi.elim
  ends _ := trivial
  performs {m i rest p} h hp := by
    have hrest : ∀ run n, .execute run n ∈ rest → n ∈ s.graph.nodes :=
      fun run n hn => h run n (List.mem_cons_of_mem _ hn)
    have hlater : ∀ todo : List Instruction, (∀ run n, .execute run n ∈ todo → n ∈ s.graph.nodes) →
        ∀ run n, .execute run n ∈ todo ++ rest → n ∈ s.graph.nodes :=
      fun todo htodo run n hn => (List.mem_append.mp hn).elim (htodo run n) (hrest run n)
    cases hp with
    | pauses hcomes | hurries hcomes =>
      refine hlater _ fun run n hn => ?_
      obtain ⟨-, rfl⟩ := Instruction.execute.inj (List.mem_singleton.mp hn)
      exact (FlowGraph.mem_of_node? hcomes.node_eq).1
    | delivers =>
      refine hlater _ fun run n hn => ?_
      rcases delivery_cases hn with ⟨m, hm⟩ | ⟨call, hm⟩ | hm | hm <;> cases hm
    | drops | ignores | halts | loses | abandons | discards | givesUp =>
      exact fun run n hn => by simp at hn
    | lacksWords | misnames | mismatches | breaksOff | stumbles | misleads | cannotSpeak
    | closesMute => trivial
    | _ => exact hlater _ (by simp)
  fails _ _ _ _ _ := trivial
  answers h := h
  raises _ _ _ := trivial
  concludes reply h := by
    rintro run n hn
    exact h run n (by simpa using hn)
  resets _ _ h := h
  resetsFree _ _ _ := trivial
  restores _ _ h := h
  restoresFree _ _ _ := trivial

namespace State

theorem voiceless (htext : text.isTruthy = false) (hgraph : s.graph.AsksNoVoice)
    {log : List Happening} (course : Course (s.inMode text b) Anything {} log st.asText)
    {h : Holder} (hholder : st.holder = some h) : Voiceless h.agenda := by
  have hheld : st.asText.holder = some h.asText := by simp [asText, hholder]
  have hmode : (s.inMode text b).voiceMode = false := htext
  have hseated := ((seated_stable _ _).course course (keeps_new trivial)).held _ hheld
  have hmute := (((mute_stable hmode _).course course (keeps_new trivial)).held _ hheld).2
  refine ⟨fun run n hn => hgraph n ?_, fun call hcall => ?_⟩
  · exact hseated run n (List.mem_map.mpr ⟨_, hn, rfl⟩)
  · exact hmute.agenda_ne call (List.mem_map.mpr ⟨_, hcall, rfl⟩)

theorem steps_asText (st : State) (hvoice : voice.isTruthy = true) (htext : text.isTruthy = false)
    (hgraph : s.graph.AsksNoVoice) {log : List Happening}
    (course : Course (s.inMode text b) Anything {} log st.asText) (ms : List Move) :
    st.asText.steps (s.inMode text b) ms =
      ((st.steps (s.inMode voice false) ms).1.asText, (st.steps (s.inMode voice false) ms).2) := by
  induction ms generalizing st log with
  | nil => rfl
  | cons m rest ih =>
    have hstep : st.asText.step (s.inMode text b) m = ((st.step (s.inMode voice false) m).1.asText,
        (st.step (s.inMode voice false) m).2) :=
      step_asText hvoice htext (fun _ hholder => voiceless htext hgraph course hholder) m
    have hnext := Course.tail course m trivial
    rw [hstep] at hnext
    simp only [steps, hstep, ih _ hnext]

/-- Where a node that speaks is about to be executed, its text is sent as an audio message, and then
the node is left through no port. -/
def SpeaksOn (s : Setup) (st : State) : Prop :=
  ∀ op run n d said rest, st.holder = some ⟨op, .execute run n :: rest, none⟩ →
    st.memory.context.turn = run.turn → n.body = .tts d →
    s.executor.speechText d st.memory.context.vars = .ok said →
    let c := st.memory.context.apply (.processed n.id)
    let m : Message := { content := said, node := n.id, hasAudio := true }
    st.steps s [.tick, .tick, .tick] =
      ({ st with
          memory := { st.memory with context := c }
          holder := some ⟨op, .leave n (.advanceVia none) :: .visit run :: rest,
            some (s.sending m)⟩ },
        [.changed (.processed n.id) c, .executed n, .called op (.message (m.stamp s.id))])

theorem speaksOn (hvoice : voice.isTruthy = true) (s : Setup) (st : State) :
    st.SpeaksOn (s.inMode voice false) := by
  intro op run n d said rest hholder hturn hbody hsaid c m
  have hmode : (s.inMode voice false).voiceMode = true := hvoice
  let r : ExecutionResult :=
    { effects := [.message m, .call { kind := .speech, payload := [("text", .str said)] }]
      transition := .suspend .speechPlayback [] }
  have hbegin : (s.inMode voice false).executor.begin n st.memory.context.vars true =
      .ok (.done r) := by
    simp only [Executor.begin, hbody, Executor.speech, hsaid]
    rfl
  have hexecute : (s.inMode voice false).perform st.memory.context (.execute run n) =
      { events := [.processed n.id], executed := some n,
        outcome := .proceed [.deliver run n r] } := by
    simp only [Setup.perform, Setup.execute, hturn, hmode, hbegin, ne_eq, not_true_eq_false,
      if_false]
    rfl
  have hdeliver : (s.inMode voice false).perform c (.deliver run n r) =
      { outcome := .proceed [.send m, .leave n (.advanceVia none), .visit run] } := rfl
  let executed : State :=
    { st with
      memory := { st.memory with context := c }
      holder := some ⟨op, .deliver run n r :: rest, none⟩ }
  have hfirst : st.tick (s.inMode voice false) =
      (executed, [.changed (.processed n.id) c, .executed n]) := by
    rw [tick_eq_carryOut hholder hexecute]
    simp [carryOut, Memory.after, Memory.log, Memory.applyAll, c, executed]
  let delivering : State :=
    { executed with
      holder := some ⟨op, .send m :: .leave n (.advanceVia none) :: .visit run :: rest, none⟩ }
  have hsecond : executed.tick (s.inMode voice false) = (delivering, []) := by
    rw [tick_proceed rfl hdeliver]
    rfl
  have hthird : delivering.tick (s.inMode voice false) =
      ({ delivering with
          holder := some ⟨op, .leave n (.advanceVia none) :: .visit run :: rest,
            some (s.sending m)⟩ },
        [.called op (.message (m.stamp s.id))]) := by
    rw [tick_eq_carryOut rfl rfl]
    simp [carryOut, Setup.perform, Memory.after, Memory.log, Memory.applyAll, delivering,
      Setup.sending, Setup.requestOf, Setup.inMode]
  simp only [steps, step, hfirst, hsecond, hthird]
  rfl

end State

open State

/-- In a graph whose nodes ask for no spoken reply, a session in voice mode that has no synthesizer
does the same as one in text mode, with a synthesizer or without, whatever comes: the same contexts
are made, the same messages are sent, the same pauses are taken, the same questions and requests are
put, and operations come to the same ends, in the same order. Speech is never asked for. A node that
speaks says its text and goes on by its default edge. -/
theorem voice_without_synthesizer_is_text (s : Setup) {voice text : Value}
    (hvoice : voice.isTruthy = true) (htext : text.isTruthy = false)
    (hgraph : s.graph.AsksNoVoice) (b : Bool) (ms : List Move) :
    let spoken := State.steps (s.inMode voice false) {} ms
    let written := State.steps (s.inMode text b) {} ms
    spoken.2 = written.2 ∧ spoken.1.memory = written.1.memory ∧
      (∀ op said, .called op (.speech said) ∉ spoken.2) ∧
      (∀ h call, spoken.1.holder = some h → .perform call ∈ h.agenda → call.kind ≠ .speech) ∧
      spoken.1.SpeaksOn (s.inMode voice false) := by
  intro spoken written
  have hmode : (s.inMode text b).voiceMode = false := htext
  have hcourse : Course (s.inMode text b) Anything {} written.2 written.1 :=
    .of_steps ms (allows_of_forall fun _ _ _ => trivial)
  have hwritten : written = (spoken.1.asText, spoken.2) :=
    steps_asText {} hvoice htext hgraph (Course.refl (s := s.inMode text b)) ms
  rw [hwritten] at hcourse ⊢
  exact ⟨rfl, rfl, hcourse.never_speaks hmode,
    fun h call hholder => (voiceless htext hgraph hcourse hholder).performs call,
    speaksOn hvoice s spoken.1⟩

/-- A session that speaks and then asks the user a question. -/
def greeting : Setup where
  graph :=
    { nodes := [⟨"s", .start {}⟩, ⟨"t", .tts { text := "Hello" }⟩, ⟨"q", .input {}⟩]
      edges := [{ source := "s", target := "t" }, { source := "t", target := "q" }]
      sound := by decide }
  executor := { config := { startDelay := .int 0, nodeDelay := .int 0 } }

/-- The greeting is sent as an audio message and not spoken. -/
theorem greeting_goes_on :
    let spoken := State.steps (greeting.inMode (.bool true) false) {} toQuestion
    greeting.graph.AsksNoVoice ∧
      spoken.2 = (State.steps (greeting.inMode (.bool false) true) {} toQuestion).2 ∧
      spoken.1.holder.map Holder.call = some (some (.outward
        (.message { content := "Hello", node := "t", hasAudio := true }))) := by
  have hgraph : greeting.graph.AsksNoVoice := by
    intro n hn d
    simp only [greeting, List.mem_cons, List.not_mem_nil, or_false] at hn
    rcases hn with rfl | rfl | rfl <;> simp
  exact ⟨hgraph, (voice_without_synthesizer_is_text greeting rfl rfl hgraph true toQuestion).1,
    by decide +kernel⟩

end Session

end ChatFlow
