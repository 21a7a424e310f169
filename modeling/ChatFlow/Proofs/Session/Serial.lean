import ChatFlow.Proofs.Session.Resumption

/-!
# Operations one by one

However operations come while others are under way, a session goes as if each of them had begun only
when it got the session: `operations_serialise`. What is seen of the session is the same, and the
operations that get it are those that asked for it, in the order in which they did. A reply that is
dropped because nodes are being run does not ask, and nothing is seen of it.

The serial session mirrors the other one move by move (`State.Mirrors.step`). What waits has no
effect until it gets the session, so the serial session need not know of it. The two part at one
place only: a reply that waited gets the session while its context is running, because the operation
before it broke off. The serial session drops such a reply at once, and the other one when it is
looked at (`Matched.late`).
-/

namespace ChatFlow.Session

/-- What can be seen of a session, whichever operation it comes of. -/
inductive Sight
  | context (c : Context)
  | request (r : Request)
  /-- A request or the question of a node is answered. -/
  | reply (r : Reply)

def Happening.sight? : Happening → Option Sight
  | .changed _ c => some (.context c)
  | .restored c => some (.context c)
  | .called _ r => some (.request r)
  | _ => none

/-- The operation that begins with an instruction. -/
def Instruction.operation? : Instruction → Option Operation
  | .start vars => some (.start vars)
  | .enter => some .run
  | .accept reply => some (.submit reply)
  | .acceptPlayback => some .speechComplete
  | _ => none

theorem Instruction.Opens.operation?_eq_some {i : Instruction} (h : i.Opens) :
    ∃ operation, i.operation? = some operation := by
  cases i with
  | start | accept | acceptPlayback | enter => exact ⟨_, rfl⟩
  | _ => exact h.elim

def Move.operation? : Move → Option Operation
  | .begin operation => some operation
  | _ => none

/-- The operations that are begun, in order. -/
def begun (ms : List Move) : List Operation :=
  ms.filterMap Move.operation?

theorem begun_append (ms ms' : List Move) : begun (ms ++ ms') = begun ms ++ begun ms' :=
  List.filterMap_append

/-- Nothing is reset and no saved context is adopted, and no reply is spoken. -/
def Concurrent (_ : State) (m : Move) : Prop :=
  m ≠ .reset ∧ (∀ c, m ≠ .restore c) ∧ ∀ text, m ≠ .begin (.transcript text)

/-- No operation begins before the last one is over, and nothing else comes but answers. -/
def OneByOne (st : State) : Move → Prop
  | .begin _ => st.holder = none ∧ st.queue = []
  | .answer _ _ => True
  | .tick => True
  | _ => False

namespace State

/-- The answer that the operation which holds the session gets by a move. -/
def hears? (st : State) : Move → Option Sight
  | .answer op reply =>
    match st.holder with
    | some h => if h.op = op ∧ h.call.isSome then some (.reply reply) else none
    | none => none
  | _ => none

/-- What is seen of a move. -/
def sees (s : Setup) (st : State) (m : Move) : List Sight :=
  (st.hears? m).toList ++ (st.step s m).2.filterMap Happening.sight?

/-- What is seen of moves, in order. -/
def seen (s : Setup) (st : State) : List Move → List Sight
  | [] => []
  | m :: rest => st.sees s m ++ (st.step s m).1.seen s rest

/-- The operation that has got the session between two states. -/
def gets? (st st' : State) : Option Operation :=
  match st.holder, st'.holder with
  | none, some h => h.agenda.head?.bind Instruction.operation?
  | _, _ => none

/-- The operations that get the session, in order. -/
def obtained (s : Setup) (st : State) : List Move → List Operation
  | [] => []
  | m :: rest => (st.gets? (st.step s m).1).toList ++ (st.step s m).1.obtained s rest

/-- The operation that asks for the session by a move. A reply that comes while nodes are being run
does not. -/
def asks? (st : State) : Move → Option Operation
  | .begin (.transcript _) => none
  | .begin (.submit reply) =>
    if st.memory.context.status = .running then none else some (.submit reply)
  | .begin operation => some operation
  | .arrive => if st.scheduled.isEmpty then none else some .speechComplete
  | _ => none

/-- The operations that ask for the session, in order. -/
def asked (s : Setup) (st : State) : List Move → List Operation
  | [] => []
  | m :: rest => (st.asks? m).toList ++ (st.step s m).1.asked s rest

/-- The operations that have asked for the session and not got it yet. -/
def waiting (st : State) : List Operation :=
  st.queue.filterMap fun e => e.2.operation?

end State

/-- The moves `serial` do one by one what the moves `ms` do at once. -/
structure Serialises (s : Setup) (serial ms : List Move) : Prop where
  oneByOne : State.Allows s OneByOne {} serial
  begun_eq : begun serial = State.obtained s {} ms
  seen_eq : State.seen s {} serial = State.seen s {} ms
  memory_eq : (State.steps s {} serial).1.memory = (State.steps s {} ms).1.memory
  free : (State.steps s {} ms).1.holder = none → (State.steps s {} serial).1.holder = none

namespace State

variable {s : Setup} {st serial : State} {m : Move} {op : Nat} {i : Instruction}

/-! ## First come, first served -/

theorem step_echoes (hm : Concurrent st m) (h : st.echoes = []) : (st.step s m).1.echoes = [] := by
  cases m with
  | begin operation =>
    cases operation with
    | transcript text => exact absurd rfl (hm.2.2 text)
    | _ => simpa [step, State.begin] using h
  | answer op reply =>
    simp only [step, answer, h, List.find?_nil]
    split
    · split
      · exact h
      · split <;> rfl
    · exact h
  | tick =>
    rcases tick_cases s st with heq | ⟨op, -, heq⟩ | ⟨op, i, rest, -, heq⟩
    · simpa [step, heq] using h
    · simpa [step, heq] using h
    · simp only [step, heq, carryOut]
      cases (s.perform st.memory.context i).outcome <;> exact h
  | arrive =>
    simp only [step]
    split <;> simpa using h
  | grant | notify | notifyFromAfar =>
    simp only [step]
    split <;> exact h
  | reset => exact h
  | restore c => exact h
  | unsubscribe => exact h

theorem gets?_of_holder {st' : State} (h : st'.holder = st.holder) : st.gets? st' = none := by
  unfold gets?
  rw [h]
  cases st.holder <;> rfl

theorem gets?_of_held {st' : State} {h : Holder} (hholder : st.holder = some h) :
    st.gets? st' = none := by
  simp [gets?, hholder]

theorem asks_acquire {st₁ : State} (hholder : st₁.holder = st.holder)
    (hqueue : st₁.queue = st.queue) :
    st.waiting ++ i.operation?.toList =
      (st.gets? (st₁.acquire op i)).toList ++ (st₁.acquire op i).waiting := by
  unfold acquire
  split
  · rename_i hfree
    obtain ⟨hnone, hempty⟩ : st.holder = none ∧ st.queue = [] := by
      simpa [isFree, hholder, hqueue] using hfree
    simp [gets?, waiting, hnone, hqueue, hempty]
  · have hwaits : st.gets? { st₁ with queue := st₁.queue ++ [(op, i)] } = none :=
      gets?_of_holder hholder
    rw [hwaits]
    cases hoperation : i.operation? <;> simp [waiting, hqueue, hoperation]

theorem asks_step (hm : Concurrent st m) (h : st.echoes = []) :
    st.waiting ++ (st.asks? m).toList =
      (st.gets? (st.step s m).1).toList ++ (st.step s m).1.waiting := by
  have hstays : ∀ st' : State, st'.holder = st.holder → st'.queue = st.queue →
      st.waiting ++ [] = (st.gets? st').toList ++ st'.waiting := by
    intro st' hholder hqueue
    simp [gets?_of_holder hholder, waiting, hqueue]
  have hholds : ∀ st' : State, ∀ h, st.holder = some h → st'.queue = st.queue →
      st.waiting ++ [] = (st.gets? st').toList ++ st'.waiting := by
    intro st' h hholder hqueue
    simp [gets?_of_held hholder, waiting, hqueue]
  cases m with
  | begin operation =>
    cases operation with
    | transcript text => exact absurd rfl (hm.2.2 text)
    | submit reply =>
      simp only [step, State.begin, submit, asks?]
      split
      · exact hstays _ rfl rfl
      · exact asks_acquire (i := .accept reply) rfl rfl
    | start vars => exact asks_acquire (i := .start vars) rfl rfl
    | run => exact asks_acquire (i := .enter) rfl rfl
    | speechComplete => exact asks_acquire (i := .acceptPlayback) rfl rfl
  | answer op reply =>
    simp only [step, answer, h, List.find?_nil]
    split
    · rename_i holder agenda call hholder
      split
      · exact hstays _ rfl rfl
      · split <;> exact hholds _ _ hholder rfl
    · exact hstays _ rfl rfl
  | tick =>
    rcases tick_cases s st with heq | ⟨op, hholder, heq⟩ | ⟨op, i, rest, hholder, heq⟩
    · rw [step, heq]
      exact hstays _ rfl rfl
    · rw [step, heq]
      exact hholds _ _ hholder rfl
    · refine hholds _ _ hholder ?_
      simp only [step, heq, carryOut]
      cases (s.perform st.memory.context i).outcome <;> rfl
  | grant =>
    simp only [step, asks?]
    split
    · rename_i op first queue hholder hqueue
      cases hoperation : first.operation? <;>
        simp [gets?, waiting, hholder, hqueue, hoperation]
    · exact hstays _ rfl rfl
  | arrive =>
    cases hscheduled : st.scheduled with
    | nil =>
      simp only [step, asks?, hscheduled]
      exact hstays _ rfl rfl
    | cons op rest =>
      simp only [step, asks?, hscheduled]
      exact asks_acquire (i := .acceptPlayback) rfl rfl
  | notify | notifyFromAfar =>
    simp only [step]
    split <;> exact hstays _ rfl rfl
  | reset => exact absurd rfl hm.1
  | restore c => exact absurd rfl (hm.2.1 c)
  | unsubscribe => exact hstays _ rfl rfl

/-! ## The serial session mirrors the other one -/

/-- How the operation that holds the serial session corresponds to the one that holds the other. -/
inductive Matched (c : Context) : Option Holder → Option Holder → Prop
  | free : Matched c none none
  | held {op op' : Nat} {agenda : List Instruction} {call : Option Call} :
      Matched c (some ⟨op', agenda, call⟩) (some ⟨op, agenda, call⟩)
  /-- The serial session is done with a reply that came to nothing. -/
  | done {op : Nat} : Matched c none (some ⟨op, [], none⟩)
  /-- The serial session has dropped a reply that will come to nothing. -/
  | late {op : Nat} {reply : Value} (hrunning : c.status = .running) :
      Matched c none (some ⟨op, [.accept reply], none⟩)

theorem Matched.of_none {c : Context} {serial : Option Holder} (h : Matched c serial none) :
    serial = none := by
  cases h
  rfl

theorem Matched.of_call {c : Context} {serial : Option Holder} {agenda : List Instruction}
    {call : Call} (h : Matched c serial (some ⟨op, agenda, some call⟩)) :
    ∃ op', serial = some ⟨op', agenda, some call⟩ := by
  cases h
  exact ⟨_, rfl⟩

theorem Matched.of_done {c : Context} {serial : Option Holder}
    (h : Matched c serial (some ⟨op, [], none⟩)) :
    serial = none ∨ ∃ op', serial = some ⟨op', [], none⟩ := by
  cases h with
  | held => exact .inr ⟨_, rfl⟩
  | done => exact .inl rfl

theorem Matched.of_busy {c : Context} {serial : Option Holder} {rest : List Instruction}
    (h : Matched c serial (some ⟨op, i :: rest, none⟩)) :
    (∃ op', serial = some ⟨op', i :: rest, none⟩) ∨
      serial = none ∧ c.status = .running ∧ rest = [] ∧ ∃ reply, i = .accept reply := by
  cases h with
  | held => exact .inl ⟨_, rfl⟩
  | late hrunning => exact .inr ⟨rfl, hrunning, rfl, _, rfl⟩

/-- The serial session is where the other one is. -/
structure Mirrors (serial st : State) : Prop where
  memory : serial.memory = st.memory
  holder : Matched st.memory.context serial.holder st.holder
  queue : serial.queue = []
  echoes : serial.echoes = []

/-- With its own moves, the serial session gets to where the other one got, and the same is seen. -/
def Reaches (s : Setup) (serial st st' : State) (sights : List Sight) : Prop :=
  ∃ ms, serial.Allows s OneByOne ms ∧ begun ms = (st.gets? st').toList ∧
    serial.seen s ms = sights ∧ (serial.steps s ms).1.Mirrors st'

variable {st' : State} {log : List Happening} {sights : List Sight} {rest : List Instruction}
  {p : Performed}

theorem Reaches.stays (hgets : st.gets? st' = none) (h : serial.Mirrors st') :
    Reaches s serial st st' [] :=
  ⟨[], trivial, by simp [begun, hgets], rfl, h⟩

theorem Reaches.moves (m' : Move) (hm' : OneByOne serial m')
    (hbegun : m'.operation? = st.gets? st') (hsees : serial.sees s m' = sights)
    (h : (serial.step s m').1.Mirrors st') : Reaches s serial st st' sights := by
  refine ⟨[m'], ⟨hm', trivial⟩, ?_, by simp [seen, hsees], by simpa [steps] using h⟩
  cases hoperation : m'.operation? <;> simp [begun, hoperation, ← hbegun]

theorem Mirrors.carryOut (s : Setup) (h : serial.Mirrors st) (op op' : Nat)
    (rest : List Instruction) (p : Performed) :
    (serial.carryOut s op' rest p).1.Mirrors (st.carryOut s op rest p).1 ∧
      (serial.carryOut s op' rest p).2.filterMap Happening.sight? =
        (st.carryOut s op rest p).2.filterMap Happening.sight? := by
  obtain ⟨hmemory, -, hqueue, hechoes⟩ := h
  unfold State.carryOut
  rw [hmemory]
  cases p.outcome with
  | fail e => exact ⟨⟨rfl, .free, hqueue, hechoes⟩, by simp [List.filterMap_cons, Happening.sight?]⟩
  | proceed todo | stop => exact ⟨⟨rfl, .held, hqueue, hechoes⟩, rfl⟩
  | call call todo => exact ⟨⟨rfl, .held, hqueue, hechoes⟩, by simp [Happening.sight?]⟩

/-- What becomes of the operation that holds a session when its call is answered. -/
def afterAnswer (op : Nat) (agenda : List Instruction) :
    Call → Reply → Option Holder × List Happening
  | .inquire run node q, reply => (some ⟨op, .conclude run node q reply :: agenda, none⟩, [])
  | .outward _, .raised e => (none, [.finished op (.error e)])
  | .outward _, _ => (some ⟨op, agenda, none⟩, [])

theorem answer_eq {agenda : List Instruction} {call : Call} (reply : Reply)
    (hechoes : st.echoes = []) (hholder : st.holder = some ⟨op, agenda, some call⟩) :
    st.answer op reply = ({ st with holder := (afterAnswer op agenda call reply).1 },
      (afterAnswer op agenda call reply).2) := by
  obtain ⟨memory, holder, queue, echoes, scheduled, subscribed, nextOp⟩ := st
  obtain rfl : echoes = [] := hechoes
  obtain rfl : holder = some ⟨op, agenda, some call⟩ := hholder
  cases call with
  | inquire run node q => simp [answer, afterAnswer]
  | outward r => cases reply <;> simp [answer, afterAnswer]

theorem afterAnswer_matched (c : Context) (op op' : Nat) (agenda : List Instruction) (call : Call)
    (reply : Reply) :
    Matched c (afterAnswer op' agenda call reply).1 (afterAnswer op agenda call reply).1 := by
  cases call with
  | inquire run node q => exact .held
  | outward r =>
    cases reply with
    | raised e => exact .free
    | _ => exact .held

theorem afterAnswer_unseen (op : Nat) (agenda : List Instruction) (call : Call) (reply : Reply) :
    (afterAnswer op agenda call reply).2.filterMap Happening.sight? = [] := by
  cases call with
  | inquire run node q => rfl
  | outward r => cases reply <;> rfl

theorem exists_of_hears {sight : Sight} (h : st.hears? m = some sight) :
    ∃ op agenda call reply, m = .answer op reply ∧ st.holder = some ⟨op, agenda, some call⟩ := by
  cases m with
  | answer op reply =>
    simp only [hears?] at h
    split at h
    · rename_i holder hholder
      split at h
      · rename_i hopen
        obtain ⟨k, agenda, call⟩ := holder
        obtain ⟨rfl, hcall⟩ := hopen
        obtain ⟨call, rfl⟩ := Option.isSome_iff_exists.mp hcall
        exact ⟨_, _, _, _, rfl, hholder⟩
      · nomatch h
    · nomatch h
  | _ => nomatch h

theorem Mirrors.hears (h : serial.Mirrors st) (hechoes : st.echoes = []) {sight : Sight}
    (hhears : st.hears? m = some sight) :
    Reaches s serial st (st.step s m).1 (st.sees s m) := by
  obtain ⟨op, agenda, call, reply, rfl, hholder⟩ := exists_of_hears hhears
  obtain ⟨op', hserial⟩ := (hholder ▸ h.holder).of_call
  refine .moves (.answer op' reply) trivial (gets?_of_held hholder).symm ?_ ?_
  · simp only [sees, step, answer_eq reply h.echoes hserial, answer_eq reply hechoes hholder,
      afterAnswer_unseen]
    simp [hears?, hserial, hholder]
  · simp only [step, answer_eq reply h.echoes hserial, answer_eq reply hechoes hholder]
    exact ⟨h.memory, afterAnswer_matched _ _ _ _ _ _, h.queue, h.echoes⟩

theorem perform_accept_running {c : Context} (hrunning : c.status = .running) (reply : Value) :
    s.perform c (.accept reply) = { outcome := .stop } := by
  simp only [Setup.perform, Setup.accept]
  split
  · rfl
  · simp [Context.isSuspended, hrunning]

theorem begin_free {operation : Operation} (hholder : st.holder = none) (hqueue : st.queue = [])
    (hi : i.operation? = some operation)
    (hrunning : ∀ reply, i = .accept reply → st.memory.context.status ≠ .running) :
    st.begin s operation =
      ({ st with holder := some ⟨st.nextOp, [i], none⟩, nextOp := st.nextOp + 1 }, []) := by
  have hfree : ({ st with nextOp := st.nextOp + 1 } : State).isFree := by
    simp [isFree, hholder, hqueue]
  cases i with
  | accept reply =>
    obtain rfl := Option.some.inj hi
    simp [State.begin, submit, acquire, hfree, hrunning reply rfl]
  | start vars | acceptPlayback | enter =>
    obtain rfl := Option.some.inj hi
    simp [State.begin, acquire, hfree]
  | _ => simp [Instruction.operation?] at hi

theorem Mirrors.makes (h : serial.Mirrors st) (hm : Concurrent st m) (hhears : st.hears? m = none)
    (hmakes : Makes s st m st' log) :
    Reaches s serial st st' (log.filterMap Happening.sight?) := by
  cases hmakes with
  | passes hmemory hholder hlog =>
    have hunseen : log.filterMap Happening.sight? = [] := by
      refine List.filterMap_eq_nil_iff.mpr fun x hx => ?_
      cases hlog x hx with
      | shows hbegin => exact absurd hbegin (hm.2.2 _)
      | ended | noted => rfl
    rw [hunseen]
    refine .stays (gets?_of_holder hholder) ⟨h.memory.trans hmemory.symm, ?_, h.queue, h.echoes⟩
    rw [hmemory, hholder]
    exact h.holder
  | @opens _ _ op i hnone hi hmemory hholder =>
    have hfree : serial.holder = none := (hnone ▸ h.holder).of_none
    obtain ⟨operation, hoperation⟩ := hi.operation?_eq_some
    have hgets : st.gets? st' = some operation := by
      simp [gets?, hnone, hholder, hoperation]
    by_cases hlate : (∃ reply, i = .accept reply) ∧ st.memory.context.status = .running
    · obtain ⟨⟨reply, rfl⟩, hrunning⟩ := hlate
      obtain rfl := Option.some.inj hoperation
      have hdropped : serial.begin s (.submit reply) =
          ({ serial with nextOp := serial.nextOp + 1 },
            [.finished serial.nextOp (.ok serial.memory.context)]) := by
        simp [State.begin, submit, h.memory, hrunning]
      refine .moves (.begin (.submit reply)) ⟨hfree, h.queue⟩ hgets.symm ?_ ?_
      · simp only [sees, hears?, step, hdropped]
        rfl
      · simp only [step, hdropped]
        refine ⟨h.memory.trans hmemory.symm, ?_, h.queue, h.echoes⟩
        rw [hfree, hholder]
        exact .late (hmemory ▸ hrunning)
    · have hnot : ∀ reply, i = .accept reply → serial.memory.context.status ≠ .running := by
        rintro reply rfl hrunning
        exact hlate ⟨⟨reply, rfl⟩, h.memory ▸ hrunning⟩
      have hbegin := begin_free (s := s) hfree h.queue hoperation hnot
      refine .moves (.begin operation) ⟨hfree, h.queue⟩ hgets.symm ?_ ?_
      · simp only [sees, hears?, step, hbegin]
        rfl
      · simp only [step, hbegin]
        refine ⟨h.memory.trans hmemory.symm, ?_, h.queue, h.echoes⟩
        rw [hholder]
        exact .held
  | hears hbefore | learns hbefore | breaks hbefore => simp [hears?, hbefore] at hhears
  | ends hbefore hmemory hholder =>
    have hgets : st.gets? st' = none := gets?_of_held hbefore
    have hfree : Matched st'.memory.context none st'.holder := by
      rw [hholder]
      exact .free
    have hsame : serial.memory = st'.memory := h.memory.trans hmemory.symm
    rcases (hbefore ▸ h.holder).of_done with hserial | ⟨op', hserial⟩
    · exact .stays hgets ⟨hsame, hserial ▸ hfree, h.queue, h.echoes⟩
    · refine .moves .tick trivial hgets.symm ?_ ?_
      · simp only [sees, hears?, step, tick_over hserial]
        rfl
      · simp only [step, tick_over hserial]
        exact ⟨hsame, hfree, h.queue, h.echoes⟩
  | @acts op i rest hbefore =>
    have hgets : ∀ next, st.gets? next = none := fun _ => gets?_of_held hbefore
    rcases (hbefore ▸ h.holder).of_busy with ⟨op', hserial⟩ | ⟨hserial, hrunning, rfl, reply, rfl⟩
    · have hsame : s.perform serial.memory.context i = s.perform st.memory.context i := by
        rw [h.memory]
      obtain ⟨hmirrors, hsights⟩ :=
        h.carryOut s op op' rest (s.perform st.memory.context i)
      refine .moves .tick trivial (hgets _).symm ?_ ?_
      · simp only [sees, hears?, step, tick_eq_carryOut hserial hsame, hsights]
        rfl
      · simpa only [step, tick_eq_carryOut hserial hsame] using hmirrors
    · rw [← tick_eq_carryOut hbefore rfl, tick_stop hbefore (perform_accept_running hrunning reply)]
      refine .stays (hgets _) ⟨h.memory, ?_, h.queue, h.echoes⟩
      rw [hserial]
      exact .done
  | resets => exact absurd rfl hm.1
  | restores => exact absurd rfl (hm.2.1 _)

theorem Mirrors.step (h : serial.Mirrors st) (hm : Concurrent st m) (hechoes : st.echoes = [])
    (hmakes : Makes s st m (st.step s m).1 (st.step s m).2) :
    Reaches s serial st (st.step s m).1 (st.sees s m) := by
  cases hhears : st.hears? m with
  | some sight => exact h.hears hechoes hhears
  | none => simpa [sees, hhears] using h.makes hm hhears hmakes

/-! ## All moves -/

theorem seen_append (s : Setup) (st : State) (ms ms' : List Move) :
    st.seen s (ms ++ ms') = st.seen s ms ++ (st.steps s ms).1.seen s ms' := by
  induction ms generalizing st with
  | nil => rfl
  | cons m rest ih => simp [seen, steps, ih]

theorem asked_eq {ms : List Move} (hms : st.Allows s Concurrent ms) (hechoes : st.echoes = []) :
    st.waiting ++ st.asked s ms = st.obtained s ms ++ (st.steps s ms).1.waiting := by
  induction ms generalizing st with
  | nil => simp [asked, obtained, steps]
  | cons m rest ih =>
    have hrest := ih hms.2 (step_echoes hms.1 hechoes)
    simp only [asked, obtained, steps, ← List.append_assoc, asks_step hms.1 hechoes (s := s)]
    simp only [List.append_assoc, hrest]

/-- The serial session mirrors the other one wherever it goes. -/
theorem Mirrors.steps {ms : List Move} (course : Course s Concurrent {} log st)
    (hechoes : st.echoes = []) (h : serial.Mirrors st) (hms : st.Allows s Concurrent ms) :
    ∃ ms', serial.Allows s OneByOne ms' ∧ begun ms' = st.obtained s ms ∧
      serial.seen s ms' = st.seen s ms ∧ (serial.steps s ms').1.Mirrors (st.steps s ms).1 := by
  induction ms generalizing st serial log with
  | nil => exact ⟨[], trivial, rfl, rfl, h⟩
  | cons m rest ih =>
    obtain ⟨ms₁, hallows₁, hbegun₁, hseen₁, hmirrors₁⟩ :=
      h.step hms.1 hechoes (course.makes m)
    obtain ⟨ms₂, hallows₂, hbegun₂, hseen₂, hmirrors₂⟩ :=
      ih (course.tail m hms.1) (step_echoes hms.1 hechoes) hmirrors₁ hms.2
    refine ⟨ms₁ ++ ms₂, allows_append.mpr ⟨hallows₁, hallows₂⟩, ?_, ?_, ?_⟩
    · rw [begun_append, hbegun₁, hbegun₂]
      rfl
    · rw [seen_append, hseen₁, hseen₂]
      rfl
    · rw [steps_append]
      exact hmirrors₂

end State

/-- However operations come while others are under way, the session serialises them. The operations
that ask for the session get it in the order in which they do, and a reply that comes while nodes
are being run does not ask. The same contexts, messages, requests, questions and answers are seen,
in the same order, as when just the operations that got the session are begun one by one in that
order, each when the one before it is over. -/
theorem operations_serialise {s : Setup} {ms : List Move}
    (hms : State.Allows s Concurrent {} ms) :
    State.asked s {} ms = State.obtained s {} ms ++ (State.steps s {} ms).1.waiting ∧
      ∃ serial, Serialises s serial ms := by
  refine ⟨by simpa [State.waiting] using State.asked_eq hms rfl, ?_⟩
  have hnew : State.Mirrors {} {} := ⟨rfl, .free, rfl, rfl⟩
  obtain ⟨serial, hallows, hbegun, hseen, hmirrors⟩ := hnew.steps .refl rfl hms
  refine ⟨serial, hallows, hbegun, hseen, hmirrors.memory, fun hfree => ?_⟩
  exact (hfree ▸ hmirrors.holder).of_none

/-- Two replies and the end of a playback wait while a session asks for input. Then it is started
again, a third reply comes while nodes are being run, and a playback is reported. -/
def toRestart : List Move :=
  toDelivered ++ .tick :: toThirdAnswer ++
    [.begin (.start []), .tick, .begin (.submit (.str "Cy")), .notify, .arrive]

theorem waiting_replies_serialise :
    State.asked asking {} toRestart = State.obtained asking {} toRestart ++ [.speechComplete] ∧
      ∃ serial, Serialises asking serial toRestart ∧ begun serial =
        [.start [], .submit (.str "Ana"), .submit (.str "Bo"), .speechComplete, .start []] := by
  have hms : State.Allows asking Concurrent {} toRestart :=
    State.allows_of_forall
      (by simp [toRestart, toDelivered, toQuestion, toThirdAnswer, Concurrent])
  have hwaiting : (State.steps asking {} toRestart).1.waiting = [.speechComplete] := by
    decide +kernel
  obtain ⟨hasked, serial, hserial⟩ := operations_serialise hms
  exact ⟨hwaiting ▸ hasked, serial, hserial, hserial.begun_eq.trans (by decide +kernel)⟩

end ChatFlow.Session
