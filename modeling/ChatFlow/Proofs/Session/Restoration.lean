import ChatFlow.Proofs.Session.Move

/-!
# Sessions that are restored

All that a session at rest hands on to its future is its context: `restored_session_behaves_alike`.
A new session that adopts the context goes on as the old one would have, whatever comes.

Three things tell the two sessions apart, and none of them matters. Operations are numbered from the
beginning, so those of the old session have higher numbers; but numbers are only names. And the
memory holds, beside the context, why the session failed last, which no instruction looks at, and
whether a run has ever been entered, which decides only whether a report from afar is heard. So
`State.recast` changes all three at once, and every move goes the same way before and after it
(`State.Resembles.step`).
-/

namespace ChatFlow.Session

/-! ## Other numbers and another memory -/

def Holder.shift (n : Nat) (h : Holder) : Holder :=
  { h with op := h.op + n }

def Move.shift (n : Nat) : Move → Move
  | .answer op reply => .answer (op + n) reply
  | m => m

def Happening.shift (n : Nat) : Happening → Happening
  | .called op r => .called (op + n) r
  | .scheduled op => .scheduled (op + n)
  | .finished op result => .finished (op + n) result
  | x => x

namespace State

/-- The same session with higher numbers for all operations, and with another memory. -/
def recast (n : Nat) (memory : Memory) (st : State) : State where
  memory := memory
  holder := st.holder.map (Holder.shift n)
  queue := st.queue.map fun e => (e.1 + n, e.2)
  echoes := st.echoes.map fun e => (e.1 + n, e.2)
  scheduled := st.scheduled.map (· + n)
  subscribed := st.subscribed
  nextOp := st.nextOp + n

variable {s : Setup} {st old new : State} {n op : Nat} {memory : Memory} {i : Instruction}
  {rest : List Instruction} {p : Performed}

theorem acquire_recast :
    (st.recast n memory).acquire (op + n) i = (st.acquire op i).recast n memory := by
  have hfree : (st.recast n memory).isFree = st.isFree := by simp [isFree, recast]
  unfold acquire
  rw [hfree]
  split <;> simp [recast, Holder.shift]

theorem submit_recast {reply : Value} (hcontext : memory.context = st.memory.context) :
    (st.recast n memory).submit (op + n) reply =
      ((st.submit op reply).1.recast n memory, (st.submit op reply).2.map (Happening.shift n)) := by
  have hsame : (st.recast n memory).memory.context = st.memory.context := hcontext
  unfold submit
  rw [hsame, acquire_recast]
  split <;> rfl

theorem begin_recast (operation : Operation) (hcontext : memory.context = st.memory.context) :
    (st.recast n memory).begin s operation = ((st.begin s operation).1.recast n memory,
      (st.begin s operation).2.map (Happening.shift n)) := by
  have hop : (st.recast n memory).nextOp = st.nextOp + n := rfl
  have hnext : ({ st.recast n memory with nextOp := st.nextOp + n + 1 } : State) =
      ({ st with nextOp := st.nextOp + 1 } : State).recast n memory := by
    simp only [recast, Nat.add_right_comm]
  simp only [State.begin, hop, hnext]
  cases operation with
  | start vars | run | speechComplete => simp [acquire_recast]
  | submit reply => exact submit_recast hcontext
  | transcript text =>
    simp only
    split
    · simp [Happening.shift]
    · simp [recast, Happening.shift, Nat.add_right_comm]

theorem find?_recast (es : List (Nat × Value)) :
    (es.map fun e => (e.1 + n, e.2)).find? (·.1 == op + n) =
      (es.find? (·.1 == op)).map fun e => (e.1 + n, e.2) := by
  have hsame : (fun e : Nat × Value => e.1 == op + n) ∘ (fun e : Nat × Value => (e.1 + n, e.2)) =
      fun e => e.1 == op := by
    funext e
    exact Bool.eq_iff_iff.mpr (by simp)
  rw [List.find?_map, hsame]

theorem filter_recast (es : List (Nat × Value)) :
    (es.map fun e => (e.1 + n, e.2)).filter (·.1 ≠ op + n) =
      (es.filter (·.1 ≠ op)).map fun e => (e.1 + n, e.2) := by
  have hsame : (fun e : Nat × Value => decide (e.1 ≠ op + n)) ∘
      (fun e : Nat × Value => (e.1 + n, e.2)) = fun e => decide (e.1 ≠ op) := by
    funext e
    simp
  rw [List.filter_map, hsame]

theorem answer_recast (reply : Reply) (hcontext : memory.context = st.memory.context) :
    (st.recast n memory).answer (op + n) reply = ((st.answer op reply).1.recast n memory,
      (st.answer op reply).2.map (Happening.shift n)) := by
  have hechoes : (st.recast n memory).echoes = st.echoes.map fun e => (e.1 + n, e.2) := rfl
  unfold answer
  rw [hechoes, find?_recast, filter_recast]
  cases st.echoes.find? (·.1 == op) with
  | some e =>
    have hdone : ({ st.recast n memory with
        echoes := (st.echoes.filter (·.1 ≠ op)).map fun e => (e.1 + n, e.2) } : State) =
          ({ st with echoes := st.echoes.filter (·.1 ≠ op) } : State).recast n memory := rfl
    simp only [Option.map_some, hdone]
    cases reply with
    | raised e => rfl
    | _ => exact submit_recast hcontext
  | none =>
    cases hholder : st.holder with
    | none => simp [recast, hholder]
    | some h =>
      obtain ⟨k, agenda, call⟩ := h
      have hshifted : (st.recast n memory).holder = some ⟨k + n, agenda, call⟩ := by
        simp [recast, hholder, Holder.shift]
      rw [hshifted]
      cases call with
      | none => rfl
      | some call =>
        by_cases hop : k = op
        · subst hop
          cases call with
          | inquire run node q => simp [recast, Holder.shift]
          | outward r => cases reply <;> simp [recast, Holder.shift, Happening.shift]
        · simp [hop]

theorem log_recast (hcontext : memory.context = st.memory.context) :
    memory.log p = (st.memory.log p).map (Happening.shift n) := by
  have happlied : ∀ (es : List Event) (m m' : Memory), m.context = m'.context →
      (m.applyAll es).2 = (m'.applyAll es).2 := by
    intro es
    induction es with
    | nil => exact fun _ _ _ => rfl
    | cons e rest ih =>
      intro m m' h
      simp only [Memory.applyAll, h]
      exact congrArg _ (ih _ _ rfl)
  have hunnumbered : (st.memory.log p).map (Happening.shift n) = st.memory.log p := by
    refine (List.map_congr_left fun x hx => ?_).trans (List.map_id _)
    rcases Memory.mem_log hx with ⟨e, c, rfl⟩ | ⟨node, rfl⟩ <;> rfl
  rw [hunnumbered, Memory.log, Memory.log, happlied _ _ _ hcontext]

theorem carryOut_recast (hcontext : memory.context = st.memory.context) :
    (st.recast n memory).carryOut s (op + n) rest p =
      ((st.carryOut s op rest p).1.recast n (memory.after p),
        (st.carryOut s op rest p).2.map (Happening.shift n)) := by
  have hlog : (st.recast n memory).memory.log p = (st.memory.log p).map (Happening.shift n) :=
    log_recast hcontext
  unfold carryOut
  rw [hlog]
  cases p.outcome <;> simp [recast, Holder.shift, Happening.shift]

/-- The session has run before it is sent a report from afar. -/
def Attentive (st : State) (m : Move) : Prop :=
  m = .notifyFromAfar → st.memory.hasRun

theorem step_recast {m : Move} (hcontext : memory.context = st.memory.context)
    (hrun : st.memory.hasRun → memory.hasRun) (htick : m ≠ .tick) (hreset : m ≠ .reset)
    (hrestore : ∀ c, m ≠ .restore c) (hheard : st.Attentive m) :
    (st.recast n memory).step s (m.shift n) =
      ((st.step s m).1.recast n memory, (st.step s m).2.map (Happening.shift n)) := by
  have hschedule : (st.recast n memory).schedule =
      (st.schedule.1.recast n memory, st.schedule.2.map (Happening.shift n)) := by
    simp [schedule, recast, Happening.shift, Nat.add_right_comm]
  have hsubscribed : (st.recast n memory).subscribed = st.subscribed := rfl
  cases m with
  | begin operation => exact begin_recast operation hcontext
  | answer op reply => exact answer_recast reply hcontext
  | tick => exact absurd rfl htick
  | grant =>
    cases hholder : st.holder <;> cases hqueue : st.queue <;>
      simp [Move.shift, step, recast, hholder, hqueue, Holder.shift]
  | arrive =>
    cases hscheduled : st.scheduled with
    | nil => simp [Move.shift, step, recast, hscheduled]
    | cons op rest =>
      have hnext : ({ st.recast n memory with scheduled := rest.map (· + n) } : State) =
          ({ st with scheduled := rest } : State).recast n memory := rfl
      have harrived : (st.recast n memory).scheduled = (op + n) :: rest.map (· + n) := by
        simp [recast, hscheduled]
      simp [Move.shift, step, hscheduled, harrived, hnext, acquire_recast]
  | reset => exact absurd rfl hreset
  | restore c => exact absurd rfl (hrestore c)
  | notify =>
    simp only [Move.shift, step, hsubscribed, hschedule]
    split <;> rfl
  | notifyFromAfar =>
    have hboth : (st.recast n memory).memory.hasRun = true := hrun (hheard rfl)
    simp only [Move.shift, step, hsubscribed, hboth, hheard rfl, hschedule]
    split <;> rfl
  | unsubscribe => rfl

/-- The session `old` is the session `new` with numbers that are higher by `n`. It remembers the
same context, and it has run if the other one has. -/
inductive Resembles (n : Nat) : State → State → Prop
  | recast (new : State) (memory : Memory) (hcontext : memory.context = new.memory.context)
      (hrun : new.memory.hasRun → memory.hasRun) : Resembles n (new.recast n memory) new

namespace Resembles

variable {m : Move}

theorem tick (h : Resembles n old new) :
    Resembles n (old.tick s).1 (new.tick s).1 ∧
      (old.tick s).2 = (new.tick s).2.map (Happening.shift n) := by
  obtain ⟨new, memory, hcontext, hrun⟩ := h
  have hholder : (new.recast n memory).holder = new.holder.map (Holder.shift n) := rfl
  cases hnew : new.holder with
  | none =>
    rw [tick_idle (by simp [hholder, hnew]), tick_idle (by simp [hnew])]
    exact ⟨.recast _ _ hcontext hrun, rfl⟩
  | some h =>
    obtain ⟨op, agenda, call⟩ := h
    rw [hnew] at hholder
    cases call with
    | some call =>
      rw [tick_idle (by simp [hholder, Holder.shift]), tick_idle (by simp [hnew])]
      exact ⟨.recast _ _ hcontext hrun, rfl⟩
    | none =>
      cases agenda with
      | nil =>
        have hsame : (new.recast n memory).memory.context = new.memory.context := hcontext
        rw [tick_over hholder, tick_over hnew, hsame]
        exact ⟨.recast { new with holder := none } _ hcontext hrun, rfl⟩
      | cons i rest =>
        have hsame : s.perform (new.recast n memory).memory.context i =
            s.perform new.memory.context i := congrArg (s.perform · i) hcontext
        rw [tick_eq_carryOut hholder hsame, tick_eq_carryOut hnew rfl, carryOut_recast hcontext]
        refine ⟨.recast _ _ ?_ ?_, rfl⟩
        · simp [Memory.after, hcontext]
        · simpa [Memory.after] using Or.imp_left hrun

theorem step (h : Resembles n old new) (hheard : new.Attentive m) :
    Resembles n (old.step s (m.shift n)).1 (new.step s m).1 ∧
      (old.step s (m.shift n)).2 = (new.step s m).2.map (Happening.shift n) := by
  by_cases htick : m = .tick
  · subst htick
    exact h.tick
  obtain ⟨new, memory, hcontext, hrun⟩ := h
  by_cases hreset : m = .reset
  · subst hreset
    have hturn : (new.recast n memory).memory.context.turn = new.memory.context.turn :=
      congrArg Context.turn hcontext
    refine ⟨.recast { new with memory := new.memory.reset } memory.reset ?_ hrun, ?_⟩
    · simp [Memory.reset, hcontext]
    · simp [Move.shift, reset_eq, Happening.shift, hturn]
  by_cases hrestore : ∃ c, m = .restore c
  · obtain ⟨c, rfl⟩ := hrestore
    exact ⟨.recast { new with memory := { new.memory with context := c } } _ rfl hrun, rfl⟩
  · have hother : ∀ c, m ≠ .restore c := fun c heq => hrestore ⟨c, heq⟩
    have hkept : (new.step s m).1.memory = new.memory := (step_lines_up htick hreset hother).1
    rw [step_recast hcontext hrun htick hreset hother hheard]
    exact ⟨.recast _ _ (hkept ▸ hcontext) (hkept ▸ hrun), rfl⟩

/-- Whatever comes, both sessions go the same way. -/
theorem steps {ms : List Move} (h : Resembles n old new) (hms : new.Allows s Attentive ms) :
    Resembles n (old.steps s (ms.map (Move.shift n))).1 (new.steps s ms).1 ∧
      (old.steps s (ms.map (Move.shift n))).2 = (new.steps s ms).2.map (Happening.shift n) := by
  induction ms generalizing old new with
  | nil => exact ⟨h, rfl⟩
  | cons m rest ih =>
    obtain ⟨hnext, hlog⟩ := h.step hms.1
    obtain ⟨hend, hlater⟩ := ih hnext hms.2
    exact ⟨hend, by simp only [List.map_cons, State.steps, hlog, hlater, List.map_append]⟩

end Resembles

/-- No operation is under way, and no report of a playback has still to arrive. -/
structure AtRest (st : State) : Prop where
  holder : st.holder = none
  queue : st.queue = []
  echoes : st.echoes = []
  scheduled : st.scheduled = []

/-- A new session that has adopted a saved context. -/
def adopting (c : Context) : State :=
  { memory := { context := c } }

theorem AtRest.resembles (h : st.AtRest) (hsubscribed : st.subscribed = true) :
    Resembles st.nextOp st (adopting st.memory.context) := by
  have heq : (adopting st.memory.context).recast st.nextOp st.memory = st := by
    obtain ⟨memory, holder, queue, echoes, scheduled, subscribed, nextOp⟩ := st
    obtain ⟨rfl, rfl, rfl, rfl⟩ := h
    simp [recast, adopting, show subscribed = true from hsubscribed]
  have hresembles : Resembles st.nextOp ((adopting st.memory.context).recast st.nextOp st.memory)
      (adopting st.memory.context) := .recast _ _ rfl (by simp [adopting])
  rwa [heq] at hresembles

end State

open State

/-- A saved context is all that matters. Let a session that was never told not to listen to its
synthesizer be at rest, whatever else it has gone through, and let a new session adopt its context.
Whatever comes then, the same things happen in both in the same order: contexts, messages, pauses,
requests, questions of nodes and the ends of operations. Only the numbers of the operations are
higher in the old session, by the number of operations that it had before, and so it remains. A
report from afar alone can tell the sessions apart, and only before the new one has run. -/
theorem restored_session_behaves_alike {s : Setup} {st : State} {log : List Happening}
    {ms : List Move} (course : Course s (fun _ m => m ≠ .unsubscribe) {} log st) (hrest : st.AtRest)
    (hms : State.Allows s Attentive (State.step s {} (.restore st.memory.context)).1 ms) :
    let fresh := (State.step s {} (.restore st.memory.context)).1
    let n := st.nextOp
    (st.steps s (ms.map (Move.shift n))).2 = (fresh.steps s ms).2.map (Happening.shift n) ∧
      Resembles n (st.steps s (ms.map (Move.shift n))).1 (fresh.steps s ms).1 := by
  have hsubscribed : st.subscribed = true := course.subscribed fun _ _ hm => hm
  obtain ⟨hend, hlog⟩ := (hrest.resembles hsubscribed).steps hms
  exact ⟨hlog, hend⟩

/-- From the start until the first question has been delivered and the user may reply. -/
def toPrompt : List Move :=
  toQuestion ++ [.answer 0 (.value .null), .tick, .tick, .answer 0 (.value .null), .tick, .tick]

/-- The user replies, and the session goes on to its second question. -/
def fromReply : List Move :=
  [.begin (.submit (.str "Ana"))] ++ List.replicate 10 .tick ++ [.answer 0 (.value .null), .tick]

theorem prompted_session_can_be_restored :
    let st := (State.steps questioning {} toPrompt).1
    let fresh := (State.step questioning {} (.restore st.memory.context)).1
    st.memory.context.status = .suspended ∧
      (st.steps questioning (fromReply.map (Move.shift 1))).2 =
        (fresh.steps questioning fromReply).2.map (Happening.shift 1) ∧
      events (fresh.steps questioning fromReply).2 =
        [.variablesSet [("name", .str "Ana")], .resumed, .moved "r", .processed "r",
          .suspended .textInput []] := by
  have course : Course questioning (fun _ m => m ≠ .unsubscribe) {} _
      (State.steps questioning {} toPrompt).1 :=
    Course.of_steps toPrompt (State.allows_of_forall (by simp [toPrompt, toQuestion]))
  have hrest : (State.steps questioning {} toPrompt).1.AtRest := by constructor <;> decide
  have hms : State.Allows questioning Attentive (State.step questioning {}
      (.restore (State.steps questioning {} toPrompt).1.memory.context)).1 fromReply :=
    State.allows_of_forall (by simp [fromReply, Attentive])
  obtain ⟨hlog, -⟩ := restored_session_behaves_alike course hrest hms
  exact ⟨by decide, hlog, by decide⟩

/-- Before it has run, the new session does not hear a report from afar that the old one hears. -/
example :
    let st := (State.steps questioning {} toPrompt).1
    let fresh := (State.step questioning {} (.restore st.memory.context)).1
    (st.step questioning .notifyFromAfar).2 = [.scheduled 1] ∧
      (fresh.step questioning .notifyFromAfar).2 = [] :=
  ⟨rfl, rfl⟩

end ChatFlow.Session
