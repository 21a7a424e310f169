import ChatFlow.Proofs.Session.Instruction

/-!
# Courses of a session

A course is what a session goes through when it makes moves one after the other, each of them
allowed where it is made. `State.steps` makes given moves, and `Course.of_steps` says that this is a
course.

`State.carryOut` is what performing one instruction comes to, and `State.step_lines_up` says that
every other move but a reset and a saved context only lines up operations. So a context is what the
events so far have made of the first one (`Course.context_eq`).
-/

namespace ChatFlow.Session

/-- A session comes from one state to another; the list holds all that happens on the way. -/
inductive Course (s : Setup) (allows : State → Move → Prop) (st : State) :
    List Happening → State → Prop
  | refl : Course s allows st [] st
  | tail {log : List Happening} {st' : State} (course : Course s allows st log st') (m : Move)
      (h : allows st' m) : Course s allows st (log ++ (st'.step s m).2) (st'.step s m).1

/-- Every move is allowed. -/
def Anything : State → Move → Prop := fun _ _ => True

namespace State

/-- Make moves one after the other. -/
def steps (s : Setup) (st : State) : List Move → State × List Happening
  | [] => (st, [])
  | m :: rest =>
    let later := (st.step s m).1.steps s rest
    (later.1, (st.step s m).2 ++ later.2)

/-- Whether each of the moves is allowed where it is made. -/
def Allows (s : Setup) (allows : State → Move → Prop) (st : State) : List Move → Prop
  | [] => True
  | m :: rest => allows st m ∧ (st.step s m).1.Allows s allows rest

theorem allows_of_forall {s : Setup} {allows : State → Move → Prop} {st : State} {ms : List Move}
    (h : ∀ m ∈ ms, ∀ st, allows st m) : st.Allows s allows ms := by
  induction ms generalizing st with
  | nil => trivial
  | cons m rest ih => exact ⟨h m List.mem_cons_self st, ih fun m' hm' => h m' (List.mem_cons_of_mem _ hm')⟩

theorem Allows.mono {s : Setup} {allows allows' : State → Move → Prop} {st : State} {ms : List Move}
    (himp : ∀ st m, allows st m → allows' st m) (h : st.Allows s allows ms) :
    st.Allows s allows' ms := by
  induction ms generalizing st with
  | nil => trivial
  | cons m rest ih => exact ⟨himp _ _ h.1, ih h.2⟩

theorem Allows.and {s : Setup} {allows allows' : State → Move → Prop} {st : State} {ms : List Move}
    (h : st.Allows s allows ms) (h' : st.Allows s allows' ms) :
    st.Allows s (fun st m => allows st m ∧ allows' st m) ms := by
  induction ms generalizing st with
  | nil => trivial
  | cons m rest ih => exact ⟨⟨h.1, h'.1⟩, ih h.2 h'.2⟩

instance decidableAllows {s : Setup} {allows : State → Move → Prop}
    [∀ st m, Decidable (allows st m)] : ∀ st ms, Decidable (State.Allows s allows st ms)
  | _, [] => isTrue trivial
  | st, m :: rest =>
    have : Decidable ((st.step s m).1.Allows s allows rest) := decidableAllows _ rest
    inferInstanceAs (Decidable (allows st m ∧ (st.step s m).1.Allows s allows rest))

theorem steps_append (s : Setup) (st : State) (ms ms' : List Move) :
    st.steps s (ms ++ ms') =
      (((st.steps s ms).1.steps s ms').1,
        (st.steps s ms).2 ++ ((st.steps s ms).1.steps s ms').2) := by
  induction ms generalizing st with
  | nil => simp [steps]
  | cons m rest ih => simp [steps, ih, List.append_assoc]

theorem allows_append {s : Setup} {allows : State → Move → Prop} {st : State} {ms ms' : List Move} :
    st.Allows s allows (ms ++ ms') ↔
      st.Allows s allows ms ∧ (st.steps s ms).1.Allows s allows ms' := by
  induction ms generalizing st with
  | nil => simp [Allows, steps]
  | cons m rest ih => simp [Allows, steps, ih, and_assoc]

end State

namespace Course

variable {s : Setup} {allows allows' : State → Move → Prop} {st st' st'' : State}
  {log log' : List Happening}

theorem single (m : Move) (h : allows st m) :
    Course s allows st (st.step s m).2 (st.step s m).1 := by
  simpa using Course.tail .refl m h

theorem trans (course : Course s allows st log st') (course' : Course s allows st' log' st'') :
    Course s allows st (log ++ log') st'' := by
  induction course' with
  | refl => simpa using course
  | tail _ m h ih =>
    rw [← List.append_assoc]
    exact .tail ih m h

theorem mono (himp : ∀ st m, allows st m → allows' st m) (course : Course s allows st log st') :
    Course s allows' st log st' := by
  induction course with
  | refl => exact .refl
  | tail _ m hm ih => exact .tail ih m (himp _ m hm)

theorem keeps {P : State → Prop} (hstep : ∀ st m, allows st m → P st → P (st.step s m).1)
    (course : Course s allows st log st') (h : P st) : P st' := by
  induction course with
  | refl => exact h
  | tail _ m hm ih => exact hstep _ m hm ih

theorem of_steps (ms : List Move) (h : st.Allows s allows ms) :
    Course s allows st (st.steps s ms).2 (st.steps s ms).1 := by
  induction ms generalizing st with
  | nil => exact .refl
  | cons m rest ih => exact (single m h.1).trans (ih h.2)

end Course

/-! ## Events and contexts -/

/-- The event that has led to a new context. -/
def Happening.event? : Happening → Option Event
  | .changed e _ => some e
  | _ => none

/-- The events of a course in order. -/
def events (log : List Happening) : List Event :=
  log.filterMap Happening.event?

/-- How often a session was reset. -/
def resets (log : List Happening) : Nat :=
  (events log).count .reset

@[simp] theorem events_nil : events [] = [] := rfl

@[simp] theorem events_append (log log' : List Happening) :
    events (log ++ log') = events log ++ events log' :=
  List.filterMap_append

@[simp] theorem events_called (op : Nat) (r : Request) : events [.called op r] = [] := rfl

@[simp] theorem events_finished (op : Nat) (x : Except Fault Context) :
    events [.finished op x] = [] := rfl

@[simp] theorem events_executed (o : Option Node) : events (o.toList.map .executed) = [] := by
  cases o <;> rfl

@[simp] theorem resets_nil : resets [] = 0 := rfl

@[simp] theorem resets_append (log log' : List Happening) :
    resets (log ++ log') = resets log + resets log' := by
  simp [resets]

namespace Memory

/-- The memory after an instruction. -/
def after (m : Memory) (p : Performed) : Memory where
  context := p.events.foldl Context.apply m.context
  lastError := p.lastError.or m.lastError
  hasRun := m.hasRun || p.entered

/-- The memory after a reset. -/
def reset (m : Memory) : Memory :=
  { m with context := .initial (m.context.turn + 1) }

theorem applyAll_fst (m : Memory) (es : List Event) :
    (m.applyAll es).1 = { m with context := es.foldl Context.apply m.context } := by
  induction es generalizing m with
  | nil => rfl
  | cons e rest ih => simp [applyAll, ih]

@[simp] theorem events_applyAll (m : Memory) (es : List Event) :
    events (m.applyAll es).2 = es := by
  induction es generalizing m with
  | nil => rfl
  | cons e rest ih => exact congrArg (e :: ·) (ih _)

end Memory

/-- What an instruction brings about by itself. -/
def Memory.log (m : Memory) (p : Performed) : List Happening :=
  (m.applyAll p.events).2 ++ p.executed.toList.map .executed

@[simp] theorem Memory.events_log (m : Memory) (p : Performed) : events (m.log p) = p.events := by
  simp [Memory.log]

namespace State

variable {s : Setup} {st : State} {op : Nat} {i : Instruction}

/-- What becomes of a session when the operation that holds it has performed an instruction. -/
def carryOut (s : Setup) (st : State) (op : Nat) (rest : List Instruction) (p : Performed) :
    State × List Happening :=
  let next := { st with memory := st.memory.after p }
  let log := st.memory.log p
  match p.outcome with
  | .proceed todo => ({ next with holder := some ⟨op, todo ++ rest, none⟩ }, log)
  | .call call todo =>
    ({ next with holder := some ⟨op, todo ++ rest, some call⟩ },
      log ++ [.called op (s.requestOf call)])
  | .stop => ({ next with holder := some ⟨op, [], none⟩ }, log)
  | .fail e => ({ next with holder := none }, log ++ [.finished op (.error e)])

theorem tick_eq_carryOut {rest : List Instruction} {p : Performed}
    (hholder : st.holder = some ⟨op, i :: rest, none⟩)
    (hp : s.perform st.memory.context i = p) : st.tick s = st.carryOut s op rest p := by
  have hmemory : { (st.memory.applyAll p.events).1 with
      lastError := p.lastError.or (st.memory.applyAll p.events).1.lastError
      hasRun := (st.memory.applyAll p.events).1.hasRun || p.entered } = st.memory.after p := by
    simp [Memory.applyAll_fst, Memory.after]
  unfold carryOut
  cases houtcome : p.outcome <;> simp [tick, hholder, hp, hmemory, houtcome, Memory.log]

theorem after_silent {outcome : Outcome} (m : Memory) : m.after { outcome := outcome } = m := by
  simp [Memory.after]

theorem tick_proceed {rest todo : List Instruction}
    (hholder : st.holder = some ⟨op, i :: rest, none⟩)
    (hp : s.perform st.memory.context i = { outcome := .proceed todo }) :
    st.tick s = ({ st with holder := some ⟨op, todo ++ rest, none⟩ }, []) := by
  rw [tick_eq_carryOut hholder hp]
  simp [carryOut, after_silent, Memory.log, Memory.applyAll]

theorem tick_stop {rest : List Instruction} (hholder : st.holder = some ⟨op, i :: rest, none⟩)
    (hp : s.perform st.memory.context i = { outcome := .stop }) :
    st.tick s = ({ st with holder := some ⟨op, [], none⟩ }, []) := by
  rw [tick_eq_carryOut hholder hp]
  simp [carryOut, after_silent, Memory.log, Memory.applyAll]

theorem tick_fail {rest : List Instruction} {e : Fault}
    (hholder : st.holder = some ⟨op, i :: rest, none⟩)
    (hp : s.perform st.memory.context i = { outcome := .fail e }) :
    st.tick s = ({ st with holder := none }, [.finished op (.error e)]) := by
  rw [tick_eq_carryOut hholder hp]
  simp [carryOut, after_silent, Memory.log, Memory.applyAll]

theorem tick_over (hholder : st.holder = some ⟨op, [], none⟩) :
    st.tick s = ({ st with holder := none }, [.finished op (.ok st.memory.context)]) := by
  simp [tick, hholder]

theorem tick_idle (h : ∀ op agenda, st.holder ≠ some ⟨op, agenda, none⟩) :
    st.tick s = (st, []) := by
  unfold tick
  split
  · rename_i op hholder
    exact absurd hholder (h op [])
  · rename_i op first rest hholder
    exact absurd hholder (h op (first :: rest))
  · rfl

/-! ## Moves that only line up operations -/

@[simp] theorem acquire_memory : (st.acquire op i).memory = st.memory := by
  unfold acquire
  split <;> rfl

@[simp] theorem submit_memory {reply : Value} : (st.submit op reply).1.memory = st.memory := by
  unfold submit
  split <;> simp

@[simp] theorem acquire_echoes : (st.acquire op i).echoes = st.echoes := by
  unfold acquire
  split <;> rfl

@[simp] theorem submit_echoes {reply : Value} : (st.submit op reply).1.echoes = st.echoes := by
  unfold submit
  split <;> simp

@[simp] theorem events_submit {reply : Value} : events (st.submit op reply).2 = [] := by
  unfold submit
  split <;> simp

@[simp] theorem begin_memory (operation : Operation) :
    (st.begin s operation).1.memory = st.memory := by
  cases operation with
  | transcript text =>
    simp only [State.begin]
    split <;> rfl
  | _ => simp [State.begin]

@[simp] theorem events_begin (operation : Operation) : events (st.begin s operation).2 = [] := by
  cases operation with
  | transcript text =>
    simp only [State.begin]
    split <;> simp
  | _ => simp [State.begin]

@[simp] theorem answer_memory (reply : Reply) : (st.answer op reply).1.memory = st.memory := by
  unfold answer
  split
  · dsimp only
    split <;> simp
  · split
    · split
      · rfl
      · split <;> rfl
    · rfl

@[simp] theorem events_answer (reply : Reply) : events (st.answer op reply).2 = [] := by
  unfold answer
  split
  · dsimp only
    split <;> simp
  · split
    · split
      · rfl
      · split <;> rfl
    · rfl

/-! ## Single moves -/

theorem tick_cases (s : Setup) (st : State) :
    st.tick s = (st, []) ∨
      (∃ op, st.holder = some ⟨op, [], none⟩ ∧
        st.tick s = ({ st with holder := none }, [.finished op (.ok st.memory.context)])) ∨
      ∃ op i rest, st.holder = some ⟨op, i :: rest, none⟩ ∧
        st.tick s = st.carryOut s op rest (s.perform st.memory.context i) := by
  cases hholder : st.holder with
  | none => exact .inl (tick_idle (by simp [hholder]))
  | some h =>
    obtain ⟨op, agenda, call⟩ := h
    cases call with
    | some call => exact .inl (tick_idle (by simp [hholder]))
    | none =>
      cases agenda with
      | nil => exact .inr (.inl ⟨op, rfl, tick_over hholder⟩)
      | cons i rest => exact .inr (.inr ⟨op, i, rest, rfl, tick_eq_carryOut hholder rfl⟩)

@[simp] theorem carryOut_memory {rest : List Instruction} {p : Performed} :
    (st.carryOut s op rest p).1.memory = st.memory.after p := by
  unfold carryOut
  cases p.outcome <;> rfl

@[simp] theorem events_carryOut {rest : List Instruction} {p : Performed} :
    events (st.carryOut s op rest p).2 = p.events := by
  unfold carryOut
  cases p.outcome <;> simp

theorem reset_eq : st.step s .reset =
    ({ st with memory := st.memory.reset },
      [.changed .reset (.initial (st.memory.context.turn + 1))]) := rfl

theorem step_lines_up {m : Move} (htick : m ≠ .tick) (hreset : m ≠ .reset)
    (hrestore : ∀ c, m ≠ .restore c) :
    (st.step s m).1.memory = st.memory ∧ events (st.step s m).2 = [] := by
  cases m with
  | begin operation => exact ⟨begin_memory operation, events_begin operation⟩
  | answer op reply => exact ⟨answer_memory reply, events_answer reply⟩
  | tick => exact absurd rfl htick
  | grant =>
    simp only [step]
    split <;> exact ⟨rfl, rfl⟩
  | arrive =>
    simp only [step]
    split
    · exact ⟨acquire_memory, rfl⟩
    · exact ⟨rfl, rfl⟩
  | reset => exact absurd rfl hreset
  | restore c => exact absurd rfl (hrestore c)
  | notify =>
    simp only [step]
    split <;> exact ⟨rfl, rfl⟩
  | notifyFromAfar =>
    simp only [step]
    split <;> exact ⟨rfl, rfl⟩
  | unsubscribe => exact ⟨rfl, rfl⟩

@[simp] theorem acquire_subscribed : (st.acquire op i).subscribed = st.subscribed := by
  unfold acquire
  split <;> rfl

@[simp] theorem submit_subscribed {reply : Value} :
    (st.submit op reply).1.subscribed = st.subscribed := by
  unfold submit
  split <;> simp

theorem step_subscribed {m : Move} (hm : m ≠ .unsubscribe) :
    (st.step s m).1.subscribed = st.subscribed := by
  cases m with
  | begin operation =>
    cases operation with
    | transcript text =>
      simp only [step, State.begin]
      split <;> rfl
    | _ => simp [step, State.begin]
  | answer op reply =>
    simp only [step, answer]
    split
    · split <;> simp
    · split
      · split
        · rfl
        · split <;> rfl
      · rfl
  | tick =>
    rcases tick_cases s st with heq | ⟨op, -, heq⟩ | ⟨op, i, rest, -, heq⟩
    · simp [step, heq]
    · simp [step, heq]
    · simp only [step, heq, carryOut]
      cases (s.perform st.memory.context i).outcome <;> rfl
  | arrive =>
    simp only [step]
    split
    · simp
    · rfl
  | grant | notify | notifyFromAfar =>
    simp only [step]
    split <;> rfl
  | reset => rfl
  | restore c => rfl
  | unsubscribe => exact absurd rfl hm

theorem event_cases {m : Move} {e : Event} (h : e ∈ events (st.step s m).2) :
    m = .reset ∧ e = .reset ∨ m = .tick ∧ ∃ op i rest, st.holder = some ⟨op, i :: rest, none⟩ ∧
      st.step s m = st.carryOut s op rest (s.perform st.memory.context i) ∧
      e ∈ (s.perform st.memory.context i).events := by
  by_cases htick : m = .tick
  · subst htick
    rcases tick_cases s st with heq | ⟨op, -, heq⟩ | ⟨op, i, rest, hholder, heq⟩
    · simp [step, heq] at h
    · simp [step, heq] at h
    · exact .inr ⟨rfl, op, i, rest, hholder, heq, by simpa [step, heq] using h⟩
  · by_cases hreset : m = .reset
    · subst hreset
      exact .inl ⟨rfl, List.mem_singleton.mp h⟩
    · by_cases hrestore : ∃ c, m = .restore c
      · obtain ⟨c, rfl⟩ := hrestore
        simp [step, events, Happening.event?] at h
      · have hlines : (st.step s m).1.memory = st.memory ∧ events (st.step s m).2 = [] :=
          step_lines_up htick hreset fun c heq => hrestore ⟨c, heq⟩
        simp [hlines.2] at h

theorem step_context {m : Move} (hrestore : ∀ c, m ≠ .restore c) :
    (st.step s m).1.memory.context =
      (events (st.step s m).2).foldl Context.apply st.memory.context := by
  by_cases htick : m = .tick
  · subst htick
    rcases tick_cases s st with h | ⟨op, -, h⟩ | ⟨op, i, rest, -, h⟩
    · simp [step, h]
    · simp [step, h]
    · simp [step, h, Memory.after]
  · by_cases hreset : m = .reset
    · subst hreset
      rfl
    · have hlines : (st.step s m).1.memory = st.memory ∧ events (st.step s m).2 = [] :=
        step_lines_up htick hreset hrestore
      obtain ⟨hmemory, hevents⟩ := hlines
      simp [hmemory, hevents]

end State

theorem Course.subscribed {s : Setup} {allows : State → Move → Prop} {st : State}
    {log : List Happening} (hallows : ∀ st m, allows st m → m ≠ .unsubscribe)
    (course : Course s allows {} log st) : st.subscribed = true :=
  course.keeps (P := fun st => st.subscribed = true)
    (fun st m hm h => (State.step_subscribed (hallows st m hm)).trans h) rfl

/-- Unless a saved context is adopted, the context is what all events have made of the first one. -/
theorem Course.context_eq {s : Setup} {allows : State → Move → Prop} {st st' : State}
    {log : List Happening} (hallows : ∀ st c, ¬ allows st (.restore c))
    (course : Course s allows st log st') :
    st'.memory.context = (events log).foldl Context.apply st.memory.context := by
  induction course with
  | refl => rfl
  | tail _ m hm ih =>
    have hrestore : ∀ c, m ≠ .restore c := by
      rintro c rfl
      exact hallows _ c hm
    rw [State.step_context hrestore, ih, events_append, List.foldl_append]

/-! ## Two small sessions -/

/-- A session whose second node asks for a generated text. -/
def generating : Setup where
  graph :=
    { nodes := [⟨"s", .start {}⟩, ⟨"a", .aiResponse { prompt := "hi" }⟩]
      edges := [{ source := "s", target := "a" }]
      sound := by decide }
  executor := { hasResponder := true, config := { startDelay := .int 0, nodeDelay := .int 0 } }

/-- From the start to the question of the second node. -/
def toGenerating : List Move :=
  [.begin (.start []), .tick, .tick, .tick, .tick, .tick, .tick, .tick, .tick]

/-- A session that asks the user two questions. -/
def questioning : Setup where
  graph :=
    { nodes :=
        [⟨"s", .start {}⟩, ⟨"q", .input { question := "Name?", variableName := "name" }⟩,
          ⟨"r", .input { question := "Town?", variableName := "town" }⟩]
      edges := [{ source := "s", target := "q" }, { source := "q", target := "r" }]
      sound := by decide }
  executor := { config := { startDelay := .int 0, nodeDelay := .int 0 } }

/-- From the start to the delivery of the first question. -/
def toQuestion : List Move :=
  [.begin (.start []), .tick, .tick, .tick, .tick, .tick, .tick, .tick, .tick, .tick, .tick]

end ChatFlow.Session
