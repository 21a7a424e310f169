import ChatFlow.Proofs.Session.Origin
import ChatFlow.Proofs.Session.WellFormed
import ChatFlow.Proofs.Session.Winding

/-!
# Requests and waiting

A session asks the outside for something exactly when it waits for it:
`requests_made_while_waiting`. Whenever an operation requests an input or a playback, the session is
suspended at the node that was executed last, and waits for what the node waits for; and whenever a
session is suspended, the next thing that the operation does is to make the one request that belongs
to it, and after that it makes no call any more.

Resets are only excluded while a message is delivered, and a saved context may be adopted whenever no
operation holds the session. `restored_session_asks_nowhere` shows that the latter is needed: a
context that is adopted while a question is delivered takes the node from under the request.
-/

namespace ChatFlow.Session

open ExecutionResult

/-- An operation that holds the session is not reset while a message is delivered, and no saved
context is adopted while an operation holds the session. -/
def Undisturbed (st : State) (m : Move) : Prop :=
  (m = .reset → ∀ h, st.holder = some h →
    ∃ call, h.call = some call ∧ ∀ msg, call ≠ .outward (.message msg)) ∧
    ∀ c, m = .restore c → st.holder = none

/-- The kind of request that a call to the outside makes, if it makes one for a node. -/
def Request.kind? : Request → Option CallKind
  | .textInput => some .textInput
  | .voiceInput => some .voiceInput
  | .speech _ => some .speech
  | _ => none

def Happening.executed? : Happening → Option Node
  | .executed n => some n
  | _ => none

/-- The node that was executed last. -/
def lastExecuted (log : List Happening) : Option Node :=
  (log.filterMap Happening.executed?).getLast?

/-- The calls of an operation in order. -/
def callsBy (op : Nat) (log : List Happening) : List Request :=
  log.filterMap fun
    | .called k r => if k = op then some r else none
    | _ => none

/-- The requests that are due when a session is suspended: one of the kind that belongs to what it
waits for, or none if it takes a host that is not there. -/
inductive Setup.Owed (s : Setup) (reason : SuspendReason) : List Request → Prop
  | asks {r : Request} (h : r.kind? = some reason.request)
      (hhost : reason.request ≠ .speech → s.hasHost = true) : Owed s reason [r]
  | nobody (hhost : s.hasHost = false) (h : reason.request ≠ .speech) : Owed s reason []

variable {s : Setup} {st st' : State} {log later : List Happening} {c : Context} {m : Memory}
  {i : Instruction} {rest agenda : List Instruction} {p : Performed} {op : Nat} {last : Option Node}

/-! ## Where an operation makes its requests -/

/-- A run faces a node unless the session has been reset since. -/
def Setup.StillFaces (s : Setup) (c : Context) (run : Run) (n : Node) : Prop :=
  run.turn ≤ c.turn ∧ (c.turn = run.turn → s.Faces c n)

/-- What an operation does next belongs to the node that was executed last. -/
def Setup.Minds (s : Setup) (last : Option Node) (c : Context) : List Instruction → Prop
  | .execute run n :: _ => s.StillFaces c run n
  | .conclude run n _ _ :: _ => last = some n ∧ s.StillFaces c run n
  | .deliver _ n _ :: _ => last = some n ∧ s.Faces c n
  | .send _ :: .leave n _ :: _ => last = some n ∧ s.Faces c n
  | .leave n (.suspend _ _) :: _ => last = some n ∧ s.Faces c n
  | .perform call :: _ => ∃ n reason, last = some n ∧ s.WaitsAt c n ∧ c.awaiting = some reason ∧
      call.kind = reason.request ∧ (reason = .speechPlayback → s.hasSynthesizer = true)
  | _ => True

/-- What an operation waits for, and what it does next, belongs to the node that was executed
last. -/
structure Setup.Attends (s : Setup) (last : Option Node) (c : Context) (call : Option Call)
    (agenda : List Instruction) : Prop where
  minds : s.Minds last c agenda
  asks : ∀ run n q, call = some (.inquire run n q) → last = some n ∧ s.StillFaces c run n

theorem Setup.StillFaces.reset {run : Run} {n : Node} (h : s.StillFaces m.context run n) :
    s.StillFaces m.reset.context run n := by
  have hlater : m.reset.context.turn = m.context.turn + 1 := rfl
  have hle := h.1
  exact ⟨by omega, fun hturn => by omega⟩

theorem Setup.Faces.variablesSet {n : Node} (h : s.Faces c n) (values : Fields) :
    s.Faces (c.apply (.variablesSet values)) n :=
  ⟨h.running, h.cursor_eq, h.node_eq⟩

theorem Setup.Faces.of_processed {n : Node} (h : s.Faces c n) (id : String) :
    s.Faces (c.apply (.processed id)) n :=
  ⟨h.running, h.cursor_eq, h.node_eq⟩

theorem Setup.Comes.stillFaces {run : Run} {n : Node} (h : s.Comes c run n) (steps : Nat) :
    s.StillFaces c { run with steps := steps } n :=
  ⟨Int.le_of_eq h.turn_eq.symm, fun _ => ⟨h.running, h.cursor_eq, h.node_eq⟩⟩

theorem attends_none (h : s.Minds last c agenda) : s.Attends last c none agenda :=
  ⟨h, by simp⟩

theorem attends_outward {r : Request} (h : s.Minds last c agenda) :
    s.Attends last c (some (.outward r)) agenda :=
  ⟨h, by simp⟩

theorem minds_of_onward (h : Onward agenda) : s.Minds last c agenda := by
  cases h <;> trivial

theorem minds_delivery {run : Run} {n : Node} {r : ExecutionResult} (hr : r.Suits n)
    (h : last = some n ∧ s.Faces c n) : s.Minds last c (delivery run n r) := by
  cases hr with
  | silent port metadata => trivial
  | speaks m hm t ht patch metadata =>
    cases t with
    | suspend reason choices => exact ht.elim
    | _ => exact h
  | asks m hm call reason hcall => exact h

theorem Setup.Attends.performs (h : s.Attends last c none (i :: rest))
    (hderives : s.Derives none (i :: rest)) (hp : Performs s c i p) :
    p.outcome.Leads (s.Attends (p.executed.or last) (p.events.foldl Context.apply c)) rest := by
  have hminds := h.minds
  have hphase := hderives.phase
  have hstems := hderives.stems
  cases hp with
  | pauses hcomes hreached => exact attends_outward (hcomes.stillFaces _)
  | hurries hcomes hreached => exact attends_none (hcomes.stillFaces _)
  | executes hturn hr hbegin =>
    exact attends_none ⟨rfl, (hminds.2 hturn).of_processed _⟩
  | inquires hturn hq =>
    cases hphase with
    | opening hi => exact hi.elim
    | executing =>
      refine ⟨trivial, fun run n q hcall => ?_⟩
      obtain ⟨rfl, rfl, rfl⟩ := Call.inquire.inj (Option.some.inj hcall)
      exact ⟨rfl, hminds.1, fun _ => (hminds.2 hturn).of_processed _⟩
  | concludes hturn hr hconclude => exact attends_none ⟨hminds.1, hminds.2.2 hturn⟩
  | delivers =>
    rename_i run n r
    cases hphase with
    | opening hi => exact hi.elim
    | delivering hr =>
      show s.Attends last _ none (delivery run n (s.feasible r) ++ [])
      rw [List.append_nil]
      refine attends_none (minds_delivery (feasible_suits hr) ⟨hminds.1, ?_⟩)
      dsimp only
      split
      · exact hminds.2
      · exact hminds.2.variablesSet _
  | sends =>
    cases hphase with
    | opening hi => exact hi.elim
    | saying ht =>
      rename_i t
      cases t with
      | suspend reason choices => exact ht.elim
      | _ => exact attends_outward trivial
    | questioning hm hcall => exact attends_outward hminds
  | suspends =>
    cases hphase with
    | opening hi => exact hi.elim
    | leaving hc ht ho => exact ht.elim
    | suspending hc hcall =>
      rename_i n reason run call
      obtain ⟨hlast, hfaces⟩ : last = some n ∧ s.Faces c n := hminds
      obtain ⟨port, hport⟩ | ⟨d, r, hyields, ht⟩ := hstems
      · simp at hport
      · obtain ⟨hwaits, hsynth⟩ := hyields.waits ht
        exact attends_none ⟨n, reason, hlast,
          ⟨rfl, hfaces.cursor_eq, hfaces.node_eq, hwaits.symm⟩, rfl, hcall, hsynth⟩
  | lacksStart =>
    cases hphase with
    | opening hi => exact attends_outward trivial
  | requests | skips =>
    cases hphase with
    | opening hi => exact hi.elim
    | telling => exact ⟨trivial, by simp⟩
  | moves | terminates | fails | jumps =>
    cases hphase with
    | opening hi => exact hi.elim
    | leaving hc ht ho => exact attends_none (minds_of_onward ho)
  | finishes =>
    cases hphase with
    | opening hi => exact hi.elim
    | closing hc ho => exact attends_none (minds_of_onward ho)
  | exceeds | closes => exact attends_outward trivial
  | starts | takes | resumes | enters | closesLost | drops | ignores | halts | loses | abandons
  | discards | givesUp => exact attends_none trivial
  | lacksWords | misnames | mismatches | breaksOff | stumbles | misleads | cannotSpeak
  | closesMute => trivial

theorem lastExecuted_append :
    lastExecuted (log ++ later) = (lastExecuted later).or (lastExecuted log) := by
  simp [lastExecuted, List.filterMap_append, List.getLast?_append]

theorem lastExecuted_eq_none (h : ∀ x ∈ log, x.executed? = none) : lastExecuted log = none := by
  simp [lastExecuted, List.filterMap_eq_nil_iff.mpr h]

theorem lastExecuted_carryOut (s : Setup) (st : State) (op : Nat) (rest : List Instruction)
    (p : Performed) : lastExecuted (st.carryOut s op rest p).2 = p.executed := by
  obtain ⟨last, hlog, hlast⟩ := State.carryOut_log s st op rest p
  have hnone : lastExecuted last = none := by
    rcases hlast with rfl | ⟨call, todo, -, rfl⟩ | ⟨e, -, rfl⟩ <;> rfl
  have hevents : lastExecuted (st.memory.applyAll p.events).2 = none := by
    refine lastExecuted_eq_none fun x hx => ?_
    obtain ⟨e, c, rfl⟩ := Memory.changed_of_mem_applyAll hx
    rfl
  rw [hlog, Memory.log, lastExecuted_append, lastExecuted_append, hnone, hevents]
  cases p.executed <;> rfl

theorem Course.attends (course : Course s Undisturbed {} log st) {h : Holder}
    (hholder : st.holder = some h) :
    s.Attends (lastExecuted log) st.memory.context h.call h.agenda := by
  refine course.along (P := fun log st => ∀ h, st.holder = some h →
    s.Attends (lastExecuted log) st.memory.context h.call h.agenda) (by simp) ?_ h hholder
  intro log st mv st' more course hm hmakes ih holder hholder'
  cases hmakes with
  | passes hmemory hsame hlog =>
    have hnone : lastExecuted more = none := by
      refine lastExecuted_eq_none fun x hx => ?_
      cases hlog x hx <;> rfl
    rw [lastExecuted_append, hnone, hmemory]
    exact ih holder (hsame ▸ hholder')
  | opens hnone hi hmemory hafter hknown =>
    obtain rfl : _ = holder := by simpa [hafter] using hholder'
    rename_i i
    refine attends_none ?_
    cases i <;> trivial
  | hears hbefore hmemory hafter =>
    obtain rfl : _ = holder := by simpa [hafter] using hholder'
    rw [List.append_nil, hmemory]
    exact attends_none (ih _ hbefore).minds
  | learns hbefore hmemory hafter =>
    obtain rfl : _ = holder := by simpa [hafter] using hholder'
    rw [List.append_nil, hmemory]
    exact attends_none ((ih _ hbefore).asks _ _ _ rfl)
  | breaks hbefore hmemory hafter => simp [hafter] at hholder'
  | ends hbefore hmemory hafter => simp [hafter] at hholder'
  | acts hbefore =>
    rename_i op i rest
    have hleads := (ih _ hbefore).performs (course.derives hbefore) (perform_performs i)
    rw [lastExecuted_append, lastExecuted_carryOut, State.carryOut_memory]
    unfold State.carryOut at hholder'
    cases houtcome : (s.perform st.memory.context i).outcome with
    | fail e => simp [houtcome] at hholder'
    | proceed todo | call call todo | stop =>
      rw [houtcome] at hleads
      obtain rfl : _ = holder := by simpa [houtcome] using hholder'
      exact hleads
  | resets hmemory hsame =>
    have hbefore : st.holder = some holder := hsame ▸ hholder'
    have hattends := ih holder hbefore
    have hphase := (course.derives hbefore).phase
    obtain ⟨call, hcall, hmessage⟩ := hm.1 rfl holder hbefore
    have hlast : lastExecuted (log ++ [.changed .reset (.initial (st.memory.context.turn + 1))]) =
        lastExecuted log := by
      rw [lastExecuted_append]
      rfl
    rw [hlast, hmemory]
    rw [hcall] at hphase hattends ⊢
    have hdelivers : ¬ Delivers (some call) := by
      rintro (hnone | ⟨msg⟩)
      exact hmessage msg rfl
    generalize holder.agenda = agenda at hphase hattends ⊢
    cases hphase with
    | announcing => exact absurd rfl (hmessage _)
    | pausing => exact attends_outward hattends.minds.reset
    | asking =>
      refine ⟨trivial, fun run n q heq => ?_⟩
      obtain ⟨hlast, hfaces⟩ := hattends.asks run n q heq
      exact ⟨hlast, hfaces.reset⟩
    | leaving hc ht ho => exact absurd hc hdelivers
    | suspending hc hcall => exact absurd hc hdelivers
    | requested hr => exact attends_outward trivial
    | closing hc ho => exact absurd hc hdelivers
    | givingUp hc => exact absurd hc hdelivers
  | restores hmemory hsame =>
    exact absurd (hholder'.symm.trans (hsame.trans (hm.2 _ rfl))) (by simp)

/-! ## One request for each suspension -/

theorem kind?_of_requests {call : ExternalCall} {r : Request} (h : s.Requests call r) :
    r.kind? = some call.kind := by
  unfold Setup.Requests at h
  split at h
  · rename_i hkind
    rw [h.2, hkind]
    rfl
  · rename_i hkind
    rw [h.2, hkind]
    rfl
  · rename_i hkind
    obtain ⟨-, text, rfl⟩ := h
    rw [hkind]
    rfl

theorem Performs.of_request (hp : Performs s c i p) {call : Call} {todo : List Instruction}
    {kind : CallKind} (h : p.outcome = .call call todo)
    (hkind : (s.requestOf call).kind? = some kind) :
    ∃ ec, i = .perform ec ∧ ec.kind = kind ∧ p.events = [] := by
  cases hp with
  | requests hr =>
    obtain ⟨rfl, -⟩ := Outcome.call.inj h
    have hsome := kind?_of_requests hr
    exact ⟨_, rfl, Option.some.inj (hsome.symm.trans hkind), rfl⟩
  | inquires hturn hq =>
    obtain ⟨rfl, -⟩ := Outcome.call.inj h
    rename_i q
    cases q <;> simp [Setup.requestOf, Request.kind?] at hkind
  | lacksStart | exceeds | pauses | sends | closes =>
    obtain ⟨rfl, -⟩ := Outcome.call.inj h
    simp [Setup.sending, Setup.requestOf, Request.kind?] at hkind
  | _ => cases h

theorem Performs.of_suspended (hp : Performs s c i p) {reason : SuspendReason}
    {choices : List ChoiceOption} (h : .suspended reason choices ∈ p.events) :
    ∃ n, i = .leave n (.suspend reason choices) ∧ p.events = [.suspended reason choices] ∧
      p.executed = none ∧ p.outcome = .proceed [] := by
  cases hp with
  | suspends =>
    obtain ⟨rfl, rfl⟩ : _ ∧ _ := by simpa using h
    exact ⟨_, rfl, rfl, rfl, rfl⟩
  | takes | mismatches =>
    unfold keeping at h
    split at h <;> simp at h
  | delivers => simp at h
  | _ => simp at h

theorem hasHost_of_requests {call : ExternalCall} {r : Request} (h : s.Requests call r)
    (hkind : call.kind ≠ .speech) : s.hasHost = true := by
  unfold Setup.Requests at h
  split at h
  · exact h.1
  · exact h.1
  · rename_i hspeech
    exact absurd hspeech hkind

theorem Performs.owed {call : ExternalCall} {reason : SuspendReason}
    (hp : Performs s c (.perform call) p) (hkind : call.kind = reason.request)
    (hsynth : reason = .speechPlayback → s.hasSynthesizer = true) :
    ∃ requests, s.Owed reason requests ∧
      ((requests = [] ∧ p = { outcome := .proceed [] }) ∨
        ∃ r, requests = [r] ∧ p = { outcome := .call (.outward r) [] }) := by
  cases hp with
  | requests hr =>
    rename_i r
    have hasks : r.kind? = some reason.request := (kind?_of_requests hr).trans (congrArg some hkind)
    exact ⟨[r], .asks hasks fun h => hasHost_of_requests hr (hkind ▸ h), .inr ⟨r, rfl, rfl⟩⟩
  | skips hhost hinput => exact ⟨[], .nobody hhost (hkind ▸ hinput), .inl ⟨rfl, rfl⟩⟩
  | cannotSpeak hmute hspeech =>
    obtain rfl : reason = .speechPlayback := by
      cases reason <;> simp_all [SuspendReason.request]
    simp [hsynth rfl] at hmute

/-- The operation that suspended the session is about to make the requests that are due. -/
structure State.About (s : Setup) (op : Nat) (requests : List Request) (st : State) : Prop where
  holder_eq : ∃ call run, st.holder = some ⟨op, [.perform call, .visit run], none⟩ ∧
    ((requests = [] ∧ s.perform st.memory.context (.perform call) = { outcome := .proceed [] }) ∨
      ∃ r, requests = [r] ∧
        s.perform st.memory.context (.perform call) = { outcome := .call (.outward r) [] })
  rest : st.memory.context.status ≠ .running

theorem callsBy_append : callsBy op (log ++ later) = callsBy op log ++ callsBy op later :=
  List.filterMap_append

theorem callsBy_eq_nil (h : ∀ r, .called op r ∉ log) : callsBy op log = [] := by
  refine List.filterMap_eq_nil_iff.mpr fun x hx => ?_
  cases x with
  | called k r =>
    refine if_neg ?_
    rintro rfl
    exact h r hx
  | _ => rfl

theorem callsBy_map (op : Nat) (requests : List Request) :
    callsBy op (requests.map (.called op)) = requests := by
  induction requests with
  | nil => rfl
  | cons r rest ih =>
    simp only [List.map_cons, callsBy, List.filterMap_cons, if_true]
    exact congrArg (r :: ·) ih

theorem State.About.tick {requests : List Request} (h : State.About s op requests st) :
    (st.step s .tick).1.WindsUp op ∧ (st.step s .tick).2 = requests.map (.called op) := by
  obtain ⟨⟨call, run, hholder, hperform⟩, hrest⟩ := h
  rcases hperform with ⟨rfl, hp⟩ | ⟨r, rfl, hp⟩
  · have htick := State.tick_proceed hholder hp
    simp only [State.step, htick]
    exact ⟨.holds rfl (.visit run) (by simp) hrest, rfl⟩
  · have htick := State.tick_eq_carryOut hholder hp
    simp only [State.step, htick, State.carryOut, State.after_silent]
    exact ⟨.holds rfl (.visit run) (by simp) hrest, rfl⟩

theorem State.About.wait {requests : List Request} (h : State.About s op requests st)
    (hnumbered : st.Numbered) {mv : Move} (hm : Undisturbed st mv) (htick : mv ≠ .tick)
    (hmakes : Makes s st mv st' log) :
    State.About s op requests st' ∧ (∀ r, .called op r ∉ log) ∧
      ∀ result, .finished op result ∉ log := by
  obtain ⟨⟨call, run, hholder, hperform⟩, hrest⟩ := h
  cases hmakes with
  | passes hmemory hsame hlog =>
    refine ⟨⟨⟨call, run, hsame.trans hholder, by rwa [hmemory]⟩, by rwa [hmemory]⟩,
      fun r hr => ?_, fun result hresult => ?_⟩
    · have hlt : op < st.nextOp := hnumbered.holder_lt hholder
      cases hlog _ hr with
      | shows hm hcontent => exact absurd hlt (Nat.lt_irrefl _)
    · cases hlog _ hresult with
      | ended hother hknown => exact absurd rfl (hother _ hholder)
  | ends | acts => exact absurd rfl htick
  | opens hnone => simp [hholder] at hnone
  | hears hbefore | learns hbefore | breaks hbefore => simp [hholder] at hbefore
  | resets =>
    obtain ⟨c, hc, -⟩ := hm.1 rfl _ hholder
    simp at hc
  | restores => exact absurd (hm.2 _ rfl) (by simp [hholder])

/-- In every continuation, an operation that is about to make its requests either makes them and no
other call, or it is still about to make them. -/
theorem Course.asks_once {requests : List Request} (course : Course s Undisturbed {} log st)
    (h : State.About s op requests st) (course' : Course s Undisturbed st later st') :
    (callsBy op later = requests ∧ st'.WindsUp op) ∨
      (callsBy op later = [] ∧ (∀ result, .finished op result ∉ later) ∧
        State.About s op requests st') := by
  induction course' with
  | refl => exact .inr ⟨rfl, by simp, h⟩
  | @tail later st₁ course' m hm ih =>
    have hwhole := course.trans course'
    rcases ih with ⟨hcalls, hwinds⟩ | ⟨hcalls, hopen, habout⟩
    · obtain ⟨hwinds', hsilent⟩ :=
        hwhole.windsUp (fun _ _ hm => hm.2 _ rfl) hwinds (.single m hm)
      exact .inl ⟨by rw [callsBy_append, hcalls, callsBy_eq_nil hsilent, List.append_nil], hwinds'⟩
    · by_cases htick : m = .tick
      · subst htick
        obtain ⟨hwinds, hlog⟩ := habout.tick
        exact .inl ⟨by rw [callsBy_append, hcalls, hlog, callsBy_map, List.nil_append], hwinds⟩
      · obtain ⟨habout', hsilent, hopen'⟩ := habout.wait (hwhole.numbered State.numbered_new) hm
          htick (hwhole.makes m)
        refine .inr ⟨by rw [callsBy_append, hcalls, callsBy_eq_nil hsilent, List.append_nil],
          fun result hresult => ?_, habout'⟩
        rcases List.mem_append.mp hresult with hresult | hresult
        · exact hopen result hresult
        · exact hopen' result hresult

theorem Makes.of_request {m : Move} {r : Request} {kind : CallKind} (hmakes : Makes s st m st' log)
    (hr : .called op r ∈ log) (hkind : r.kind? = some kind) :
    ∃ call rest, st.holder = some ⟨op, .perform call :: rest, none⟩ ∧ call.kind = kind ∧
      st'.memory.context = st.memory.context := by
  cases hmakes with
  | passes hmemory hsame hlog =>
    cases hlog _ hr with
    | shows hm hcontent => simp [Request.kind?] at hkind
  | acts hbefore =>
    rename_i holder i rest
    obtain ⟨rfl, call, todo, houtcome, rfl⟩ := State.called_of_mem_carryOut hr
    obtain ⟨ec, rfl, rfl, hevents⟩ := (perform_performs i).of_request houtcome hkind
    exact ⟨ec, rest, hbefore, rfl, by simp [State.carryOut_memory, Memory.after, hevents]⟩
  | breaks | ends | resets | restores => simp at hr
  | opens | hears | learns => simp at hr

theorem Makes.of_suspended {m : Move} {reason : SuspendReason} {choices : List ChoiceOption}
    (hmakes : Makes s st m st' log) (h : .changed (.suspended reason choices) c ∈ log) :
    ∃ op n rest, st.holder = some ⟨op, .leave n (.suspend reason choices) :: rest, none⟩ ∧
      st'.holder = some ⟨op, rest, none⟩ ∧
      st'.memory.context = st.memory.context.apply (.suspended reason choices) := by
  cases hmakes with
  | passes hmemory hsame hlog => cases hlog _ h
  | acts hbefore =>
    rename_i holder i rest
    have hmem : .suspended reason choices ∈ (s.perform st.memory.context i).events := by
      simpa using event_mem_events (State.changed_of_mem_carryOut h)
    obtain ⟨n, rfl, hevents, -, houtcome⟩ := (perform_performs i).of_suspended hmem
    refine ⟨holder, n, rest, hbefore, ?_, ?_⟩
    · simp [State.carryOut, houtcome]
    · simp [State.carryOut_memory, Memory.after, hevents]
  | breaks | ends | resets | restores => simp at h
  | opens | hears | learns => simp at h

theorem Course.about_of_suspended (course : Course s Undisturbed {} log st) {mv : Move}
    (hm : Undisturbed st mv) {reason : SuspendReason} {choices : List ChoiceOption}
    (h : .changed (.suspended reason choices) c ∈ (st.step s mv).2) :
    (reason = .speechPlayback → s.hasSynthesizer = true) ∧
      ∃ op requests, s.Owed reason requests ∧ State.About s op requests (st.step s mv).1 := by
  obtain ⟨op, n, rest, hbefore, hafter, hcontext⟩ := (course.makes mv).of_suspended h
  have hphase := (course.derives hbefore).phase
  have hnext : Course s Undisturbed {} (log ++ (st.step s mv).2) (st.step s mv).1 :=
    .tail course mv hm
  have hminds := (hnext.attends hafter).minds
  cases hphase with
  | opening hi => exact hi.elim
  | leaving hc ht ho => exact ht.elim
  | suspending hc hcall =>
    rename_i run call
    obtain ⟨n', reason', -, hwaits, hawaiting, hkind, hsynth⟩ := hminds
    obtain rfl : reason = reason' := by
      rw [hcontext] at hawaiting
      exact Option.some.inj hawaiting
    obtain ⟨requests, howed, hperform⟩ := (perform_call_performs
      (s := s) (c := (st.step s mv).1.memory.context) call).owed hkind hsynth
    refine ⟨hsynth, op, requests, howed, ⟨call, run, hafter, hperform⟩, ?_⟩
    simp [hwaits.suspended]

/-- A session asks the outside for something exactly when it waits for it. Where an operation makes a
request, the session is suspended at the node that was executed last, and waits for what the node
waits for, which is what the request asks for. Where the session is suspended, a playback is only
waited for if there is a synthesizer, and the next thing that the operation does is to make the
requests that are due; in every continuation it either has made these and no other call, or has not
made any call and is not over. -/
theorem requests_made_while_waiting (course : Course s Undisturbed {} log st) {m : Move}
    (hm : Undisturbed st m) :
    (∀ op r kind, .called op r ∈ (st.step s m).2 → r.kind? = some kind →
      ∃ n reason, lastExecuted log = some n ∧ s.WaitsAt (st.step s m).1.memory.context n ∧
        (st.step s m).1.memory.context.awaiting = some reason ∧ kind = reason.request) ∧
    ∀ reason choices c, .changed (.suspended reason choices) c ∈ (st.step s m).2 →
      (reason = .speechPlayback → s.hasSynthesizer = true) ∧
        ∃ op requests, s.Owed reason requests ∧
          ((st.step s m).1.step s .tick).2 = requests.map (.called op) ∧
          ∀ later st', Course s Undisturbed (st.step s m).1 later st' →
            callsBy op later = requests ∨
              callsBy op later = [] ∧ ∀ result, .finished op result ∉ later := by
  refine ⟨fun op r kind hr hkind => ?_, fun reason choices c hmem => ?_⟩
  · obtain ⟨call, rest, hholder, rfl, hcontext⟩ := (course.makes m).of_request hr hkind
    obtain ⟨n, reason, hlast, hwaits, hawaiting, hrequest, -⟩ := (course.attends hholder).minds
    rw [hcontext]
    exact ⟨n, reason, hlast, hwaits, hawaiting, hrequest⟩
  · obtain ⟨hsynth, op, requests, howed, habout⟩ := course.about_of_suspended hm hmem
    refine ⟨hsynth, op, requests, howed, habout.tick.2, fun later st' course' => ?_⟩
    have hnext : Course s Undisturbed {} (log ++ (st.step s m).2) (st.step s m).1 :=
      .tail course m hm
    rcases hnext.asks_once habout course' with ⟨hcalls, -⟩ | ⟨hcalls, hopen, -⟩
    · exact .inl hcalls
    · exact .inr ⟨hcalls, hopen⟩

/-- The first question has been delivered. -/
def toDelivered : List Move :=
  toQuestion ++ [.answer 0 (.value .null)]

theorem delivered_question_requested :
    let st := (State.steps questioning {} toDelivered).1
    st.memory.context.status = .running ∧
      ∃ op requests, questioning.Owed .textInput requests ∧
        ((st.step questioning .tick).1.step questioning .tick).2 = requests.map (.called op) := by
  have course : Course questioning Undisturbed {} _ (State.steps questioning {} toDelivered).1 :=
    Course.of_steps toDelivered
      (State.allows_of_forall (by simp [toDelivered, toQuestion, Undisturbed]))
  have hm : Undisturbed (State.steps questioning {} toDelivered).1 .tick := by simp [Undisturbed]
  obtain ⟨-, howed⟩ := requests_made_while_waiting course hm
  obtain ⟨-, op, requests, hrequests, hlog, -⟩ := howed .textInput [] _ (.head _)
  exact ⟨rfl, op, requests, hrequests, hlog⟩

/-- A saved context is adopted while the first question is delivered. Nothing is ever reset, but the
input is requested where the session waits at no node. -/
theorem restored_session_asks_nowhere :
    let ms : List Move := toQuestion ++ [.restore {}, .answer 0 (.value .null), .tick]
    let st := (State.steps questioning {} ms).1
    .reset ∉ ms ∧ (st.step questioning .tick).2 = [.called 0 .textInput] ∧
      (st.step questioning .tick).1.memory.context.status = .suspended ∧
      (st.step questioning .tick).1.memory.context.cursor = none := by
  exact ⟨by decide, rfl, rfl, rfl⟩

end ChatFlow.Session
