import ChatFlow.Proofs.Session.Course

/-!
# What holds while a session is held

Most facts about sessions speak of the operation that holds the session: of the memory, the call it
waits for and what it has left to do. `Stable s allows held free` lists what has to be checked so
that such a fact `held`, and the fact `free` about the memory of a session that nobody holds, are
never lost: one condition for each way in which an operation goes on, and two for what comes from
outside. `Stable.course` carries them along every course.
-/

namespace ChatFlow.Session

/-- What an outcome has to satisfy so that the operation that goes on keeps a fact. -/
def Outcome.Leads (held : Option Call → List Instruction → Prop) (rest : List Instruction) :
    Outcome → Prop
  | .proceed todo => held none (todo ++ rest)
  | .call c todo => held (some c) (todo ++ rest)
  | .stop => held none []
  | .fail _ => True

namespace Outcome.Leads

variable {held held' : Option Call → List Instruction → Prop} {rest : List Instruction}
  {outcome : Outcome}

theorem mono (hheld : ∀ call agenda, held call agenda → held' call agenda)
    (h : outcome.Leads held rest) : outcome.Leads held' rest := by
  cases outcome with
  | proceed todo => exact hheld _ _ h
  | call c todo => exact hheld _ _ h
  | stop => exact hheld _ _ h
  | fail e => trivial

theorem and (h : outcome.Leads held rest) (h' : outcome.Leads held' rest) :
    outcome.Leads (fun call agenda => held call agenda ∧ held' call agenda) rest := by
  cases outcome with
  | proceed todo => exact ⟨h, h'⟩
  | call c todo => exact ⟨h, h'⟩
  | stop => exact ⟨h, h'⟩
  | fail e => trivial

end Outcome.Leads

theorem State.leads_of_carryOut {s : Setup} {st : State} {op : Nat} {rest : List Instruction}
    {p : Performed} {held : Option Call → List Instruction → Prop}
    (hleads : p.outcome.Leads held rest) {h : Holder}
    (hh : (st.carryOut s op rest p).1.holder = some h) : h.op = op ∧ held h.call h.agenda := by
  unfold State.carryOut at hh
  cases houtcome : p.outcome with
  | proceed todo | call call todo | stop =>
    rw [houtcome] at hh hleads
    obtain rfl := Option.some.inj hh
    exact ⟨rfl, hleads⟩
  | fail e => simp [houtcome] at hh

theorem State.goes_of_carryOut (s : Setup) (st : State) (op : Nat) (rest : List Instruction)
    {p : Performed} {held : Option Call → List Instruction → Prop}
    (hleads : p.outcome.Leads held rest) (hfail : ∀ e, p.outcome ≠ .fail e) :
    ∃ call agenda, (st.carryOut s op rest p).1.holder = some ⟨op, agenda, call⟩ ∧
      held call agenda := by
  unfold State.carryOut
  cases houtcome : p.outcome with
  | proceed todo | call call todo | stop =>
    rw [houtcome] at hleads
    exact ⟨_, _, rfl, hleads⟩
  | fail e => exact absurd houtcome (hfail e)

/-- The conditions under which facts about a held and a free session are kept. -/
structure Stable (s : Setup) (allows : State → Move → Prop)
    (held : Memory → Option Call → List Instruction → Prop) (free : Memory → Prop) : Prop where
  /-- An operation gets the session. -/
  opens {m : Memory} {i : Instruction} : free m → i.Opens → held m none [i]
  /-- An operation is over. -/
  ends {m : Memory} : held m none [] → free m
  /-- An instruction is performed. -/
  performs {m : Memory} {i : Instruction} {rest : List Instruction} {p : Performed} :
    held m none (i :: rest) → Performs s m.context i p →
      p.outcome.Leads (held (m.after p)) rest
  /-- An instruction is performed and fails. -/
  fails {st : State} {op : Nat} {i : Instruction} {rest : List Instruction} {p : Performed}
    {e : Fault} : allows st .tick → st.holder = some ⟨op, i :: rest, none⟩ →
      s.perform st.memory.context i = p → p.outcome = .fail e →
      held st.memory none (i :: rest) → free (st.memory.after p)
  /-- A call is answered. -/
  answers {m : Memory} {r : Request} {agenda : List Instruction} :
    held m (some (.outward r)) agenda → held m none agenda
  /-- A call is answered by an error. -/
  raises {st : State} {op : Nat} {r : Request} {agenda : List Instruction} {e : Fault} :
    allows st (.answer op (.raised e)) → st.holder = some ⟨op, agenda, some (.outward r)⟩ →
      held st.memory (some (.outward r)) agenda → free st.memory
  /-- The question of a node is answered. -/
  concludes {m : Memory} {run : Run} {node : Node} {q : Inquiry} {agenda : List Instruction}
    (reply : Reply) :
    held m (some (.inquire run node q)) agenda → held m none (.conclude run node q reply :: agenda)
  /-- A session that is held is reset. -/
  resets {st : State} {h : Holder} : allows st .reset → st.holder = some h →
    held st.memory h.call h.agenda → held st.memory.reset h.call h.agenda
  /-- A session that is free is reset. -/
  resetsFree {st : State} : allows st .reset → st.holder = none → free st.memory →
    free st.memory.reset
  /-- A saved context is adopted while the session is held. -/
  restores {st : State} {h : Holder} {c : Context} : allows st (.restore c) →
    st.holder = some h → held st.memory h.call h.agenda →
      held { st.memory with context := c } h.call h.agenda
  /-- A saved context is adopted while the session is free. -/
  restoresFree {st : State} {c : Context} : allows st (.restore c) → st.holder = none →
    free st.memory → free { st.memory with context := c }

/-- The facts hold of a session, and the operations in its queue have not begun. -/
structure State.Keeps (held : Memory → Option Call → List Instruction → Prop)
    (free : Memory → Prop) (st : State) : Prop where
  held : ∀ h, st.holder = some h → held st.memory h.call h.agenda
  free : st.holder = none → free st.memory
  queued : ∀ e ∈ st.queue, e.2.Opens

namespace Stable

variable {s : Setup} {allows : State → Move → Prop}
  {held : Memory → Option Call → List Instruction → Prop} {free : Memory → Prop}
  {st st' : State} {op : Nat} {i : Instruction}

theorem keeps_acquire (hs : Stable s allows held free) (h : st.Keeps held free) (hi : i.Opens) :
    (st.acquire op i).Keeps held free := by
  unfold State.acquire
  split
  · rename_i hfree
    have hnone : st.holder = none := by
      simpa using (Bool.and_eq_true_iff.mp hfree).1
    refine ⟨fun h' hh' => ?_, by simp, h.queued⟩
    obtain rfl : _ = h' := by simpa using hh'
    exact hs.opens (h.free hnone) hi
  · refine ⟨h.held, h.free, fun e he => ?_⟩
    rcases List.mem_append.mp he with he | he
    · exact h.queued e he
    · obtain rfl := List.mem_singleton.mp he
      exact hi

theorem keeps_submit (hs : Stable s allows held free) (h : st.Keeps held free) (reply : Value) :
    (st.submit op reply).1.Keeps held free := by
  unfold State.submit
  split
  · exact h
  · exact hs.keeps_acquire h trivial

theorem keeps_begin (hs : Stable s allows held free) (h : st.Keeps held free)
    (operation : Operation) : (st.begin s operation).1.Keeps held free := by
  have hnext : State.Keeps held free { st with nextOp := st.nextOp + 1 } :=
    ⟨h.held, h.free, h.queued⟩
  cases operation with
  | start vars => exact hs.keeps_acquire hnext trivial
  | run => exact hs.keeps_acquire hnext trivial
  | submit reply => exact hs.keeps_submit hnext reply
  | transcript text =>
    simp only [State.begin]
    split
    · exact hnext
    · exact ⟨h.held, h.free, h.queued⟩
  | speechComplete => exact hs.keeps_acquire hnext trivial

theorem keeps_answer (hs : Stable s allows held free) {reply : Reply}
    (hm : allows st (.answer op reply)) (h : st.Keeps held free) :
    (st.answer op reply).1.Keeps held free := by
  unfold State.answer
  split
  · rename_i text _
    have hechoes : State.Keeps held free
        { st with echoes := st.echoes.filter (·.1 ≠ op) } := ⟨h.held, h.free, h.queued⟩
    dsimp only
    split
    · exact hechoes
    · exact hs.keeps_submit hechoes _
  · split
    · rename_i holder agenda call hholder
      have hheld := h.held _ hholder
      split
      · exact h
      · rename_i hop
        obtain rfl : holder = op := by simpa using hop
        cases call with
        | inquire run node q =>
          refine ⟨fun h' hh' => ?_, by simp, h.queued⟩
          obtain rfl : _ = h' := by simpa using hh'
          exact hs.concludes reply hheld
        | outward r =>
          have hanswered : State.Keeps held free
              { st with holder := some ⟨holder, agenda, none⟩ } := by
            refine ⟨fun h' hh' => ?_, by simp, h.queued⟩
            obtain rfl : _ = h' := by simpa using hh'
            exact hs.answers hheld
          cases reply with
          | raised e =>
            have hfree : free st.memory := hs.raises hm hholder hheld
            exact ⟨by simp, fun _ => hfree, h.queued⟩
          | generated text => exact hanswered
          | outcome o => exact hanswered
          | value v => exact hanswered
    · exact h

theorem keeps_tick (hs : Stable s allows held free) (hm : allows st .tick)
    (h : st.Keeps held free) : (st.tick s).1.Keeps held free := by
  rcases State.tick_cases s st with heq | ⟨op, hholder, heq⟩ | ⟨op, i, rest, hholder, heq⟩
  · rw [heq]
    exact h
  · rw [heq]
    exact ⟨by simp, fun _ => hs.ends (h.held _ hholder), h.queued⟩
  · have hheld := h.held _ hholder
    have hleads := hs.performs hheld (perform_performs (s := s) (c := st.memory.context) i)
    rw [heq]
    unfold State.carryOut
    cases houtcome : (s.perform st.memory.context i).outcome with
    | proceed todo =>
      rw [houtcome] at hleads
      refine ⟨fun h' hh' => ?_, by simp, h.queued⟩
      obtain rfl : _ = h' := by simpa using hh'
      exact hleads
    | call call todo =>
      rw [houtcome] at hleads
      refine ⟨fun h' hh' => ?_, by simp, h.queued⟩
      obtain rfl : _ = h' := by simpa using hh'
      exact hleads
    | stop =>
      rw [houtcome] at hleads
      refine ⟨fun h' hh' => ?_, by simp, h.queued⟩
      obtain rfl : _ = h' := by simpa using hh'
      exact hleads
    | fail e =>
      have hfree := hs.fails hm hholder rfl houtcome hheld
      exact ⟨by simp, fun _ => hfree, h.queued⟩

theorem keeps_grant (hs : Stable s allows held free) (h : st.Keeps held free) :
    (st.step s .grant).1.Keeps held free := by
  simp only [State.step]
  split
  · rename_i op first queue hholder hqueue
    refine ⟨fun h' hh' => ?_, by simp, fun e he => h.queued e (by simp [hqueue, he])⟩
    obtain rfl : _ = h' := by simpa using hh'
    exact hs.opens (h.free hholder) (h.queued (op, first) (by simp [hqueue]))
  · exact h

theorem mono {allows' : State → Move → Prop} (hallows : ∀ st m, allows' st m → allows st m)
    (hs : Stable s allows held free) : Stable s allows' held free where
  opens := hs.opens
  ends := hs.ends
  performs := hs.performs
  fails hm := hs.fails (hallows _ _ hm)
  answers := hs.answers
  raises hm := hs.raises (hallows _ _ hm)
  concludes := hs.concludes
  resets hm := hs.resets (hallows _ _ hm)
  resetsFree hm := hs.resetsFree (hallows _ _ hm)
  restores hm := hs.restores (hallows _ _ hm)
  restoresFree hm := hs.restoresFree (hallows _ _ hm)

theorem step (hs : Stable s allows held free) {m : Move} (hm : allows st m)
    (h : st.Keeps held free) : (st.step s m).1.Keeps held free := by
  cases m with
  | begin operation => exact hs.keeps_begin h operation
  | answer op reply => exact hs.keeps_answer hm h
  | tick => exact hs.keeps_tick hm h
  | grant => exact hs.keeps_grant h
  | arrive =>
    simp only [State.step]
    split
    · exact hs.keeps_acquire ⟨h.held, h.free, h.queued⟩ trivial
    · exact h
  | reset =>
    rw [State.reset_eq]
    exact ⟨fun h' hh' => hs.resets hm hh' (h.held h' hh'),
      fun hnone => hs.resetsFree hm hnone (h.free hnone), h.queued⟩
  | restore c =>
    exact ⟨fun h' hh' => hs.restores hm hh' (h.held h' hh'),
      fun hnone => hs.restoresFree hm hnone (h.free hnone), h.queued⟩
  | notify =>
    simp only [State.step]
    split
    · exact ⟨h.held, h.free, h.queued⟩
    · exact h
  | notifyFromAfar =>
    simp only [State.step]
    split
    · exact ⟨h.held, h.free, h.queued⟩
    · exact h
  | unsubscribe => exact ⟨h.held, h.free, h.queued⟩

/-- What has been checked for single instructions is kept along every course. -/
theorem course (hs : Stable s allows held free) {log : List Happening}
    (course : Course s allows st log st') (h : st.Keeps held free) : st'.Keeps held free :=
  course.keeps (fun _ _ hm h => hs.step hm h) h

end Stable

theorem State.keeps_new {held : Memory → Option Call → List Instruction → Prop}
    {free : Memory → Prop} (h : free {}) : State.Keeps held free {} :=
  ⟨by simp, fun _ => h, by simp⟩

end ChatFlow.Session
