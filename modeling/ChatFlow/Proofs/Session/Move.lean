import ChatFlow.Proofs.Session.Numbering
import ChatFlow.Proofs.Session.Phase

/-!
# What a move can do

`Makes s st m st' log`: with the move `m`, the session comes from `st` to `st'`, and `log` happens on
the way. There is one constructor for each way a move can go, and `Course.makes` says that these are
all the ways. What operations do that do not hold the session comes under `Aside`: they change
neither the memory nor the holder, and all that is seen of them is that they are over, or that a
spoken reply is shown.

`Course.along` is the induction that every statement about the log of a course needs, and
`Course.silent_of_not_mem` that an operation that is over is not heard of again.
-/

namespace ChatFlow.Session

/-- What can be seen of the operations that do not hold the session. -/
inductive Aside (s : Setup) (st : State) (m : Move) : Happening → Prop
  | shows {text : Value} {content : String} (hm : m = .begin (.transcript text))
      (hcontent : EngineConfig.contentOf text = .ok content) :
      Aside s st m (.called st.nextOp
        (.message (Message.stamp s.id { content := content, sender := .user })))
  | ended {op : Nat} {result : Except Fault Context}
      (hop : ∀ h, st.holder = some h → h.op ≠ op)
      (hknown : op = st.nextOp ∨ op ∈ st.operations) : Aside s st m (.finished op result)
  | noted : Aside s st m (.scheduled st.nextOp)

/-- The ways in which a move can go. -/
inductive Makes (s : Setup) (st : State) : Move → State → List Happening → Prop
  /-- The operation that holds the session, if there is one, stays where it is. -/
  | passes {m : Move} {st' : State} {log : List Happening} (hmemory : st'.memory = st.memory)
      (hholder : st'.holder = st.holder) (hlog : ∀ x ∈ log, Aside s st m x) : Makes s st m st' log
  /-- An operation gets the session. -/
  | opens {m : Move} {st' : State} {op : Nat} {i : Instruction} (hnone : st.holder = none)
      (hi : i.Opens) (hmemory : st'.memory = st.memory)
      (hholder : st'.holder = some ⟨op, [i], none⟩)
      (hknown : op = st.nextOp ∨ op ∈ st.operations) : Makes s st m st' []
  /-- A call is answered. -/
  | hears {st' : State} {op : Nat} {agenda : List Instruction} {r : Request} {reply : Reply}
      (hbefore : st.holder = some ⟨op, agenda, some (.outward r)⟩)
      (hmemory : st'.memory = st.memory) (hholder : st'.holder = some ⟨op, agenda, none⟩) :
      Makes s st (.answer op reply) st' []
  /-- The question of a node is answered. -/
  | learns {st' : State} {op : Nat} {agenda : List Instruction} {run : Run} {node : Node}
      {q : Inquiry} {reply : Reply}
      (hbefore : st.holder = some ⟨op, agenda, some (.inquire run node q)⟩)
      (hmemory : st'.memory = st.memory)
      (hholder : st'.holder = some ⟨op, .conclude run node q reply :: agenda, none⟩) :
      Makes s st (.answer op reply) st' []
  /-- A call is answered by an error. -/
  | breaks {st' : State} {op : Nat} {agenda : List Instruction} {r : Request} {e : Fault}
      (hbefore : st.holder = some ⟨op, agenda, some (.outward r)⟩)
      (hmemory : st'.memory = st.memory) (hholder : st'.holder = none)
      (hgone : op ∉ st'.operations) :
      Makes s st (.answer op (.raised e)) st' [.finished op (.error e)]
  /-- The operation that holds the session has nothing left to do. -/
  | ends {st' : State} {op : Nat} (hbefore : st.holder = some ⟨op, [], none⟩)
      (hmemory : st'.memory = st.memory) (hholder : st'.holder = none)
      (hgone : op ∉ st'.operations) :
      Makes s st .tick st' [.finished op (.ok st.memory.context)]
  /-- The operation that holds the session performs its next instruction. -/
  | acts {op : Nat} {i : Instruction} {rest : List Instruction}
      (hbefore : st.holder = some ⟨op, i :: rest, none⟩) :
      Makes s st .tick (st.carryOut s op rest (s.perform st.memory.context i)).1
        (st.carryOut s op rest (s.perform st.memory.context i)).2
  | resets {st' : State} (hmemory : st'.memory = st.memory.reset)
      (hholder : st'.holder = st.holder) :
      Makes s st .reset st' [.changed .reset (.initial (st.memory.context.turn + 1))]
  | restores {c : Context} {st' : State} (hmemory : st'.memory = { st.memory with context := c })
      (hholder : st'.holder = st.holder) : Makes s st (.restore c) st' [.restored c]

theorem Memory.changed_of_mem_applyAll {m : Memory} {es : List Event} {x : Happening}
    (hx : x ∈ (m.applyAll es).2) : ∃ e c, x = .changed e c := by
  induction es generalizing m with
  | nil => simp [Memory.applyAll] at hx
  | cons e rest ih =>
    rcases List.mem_cons.mp hx with rfl | hx
    · exact ⟨_, _, rfl⟩
    · exact ih hx

theorem Memory.mem_log {m : Memory} {p : Performed} {x : Happening} (hx : x ∈ m.log p) :
    (∃ e c, x = .changed e c) ∨ ∃ n, x = .executed n := by
  rcases List.mem_append.mp hx with hx | hx
  · exact .inl (Memory.changed_of_mem_applyAll hx)
  · obtain ⟨node, -, rfl⟩ := List.mem_map.mp hx
    exact .inr ⟨node, rfl⟩

namespace State

variable {s : Setup} {st st₁ : State} {m : Move} {op : Nat} {i : Instruction}

theorem acquire_makes (hi : i.Opens) (hknown : op = st.nextOp ∨ op ∈ st.operations)
    (hmemory : st₁.memory = st.memory) (hholder : st₁.holder = st.holder) :
    Makes s st m (st₁.acquire op i) [] := by
  by_cases hfree : st₁.isFree
  · have hnone : st.holder = none := by
      rw [← hholder]
      simpa using (Bool.and_eq_true_iff.mp hfree).1
    have hgets : (st₁.acquire op i).holder = some ⟨op, [i], none⟩ := by simp [acquire, hfree]
    exact .opens hnone hi (by simp [acquire, hfree, hmemory]) hgets hknown
  · exact .passes (by simp [acquire, hfree, hmemory]) (by simp [acquire, hfree, hholder]) (by simp)

theorem submit_makes {reply : Value} (hop : ∀ h, st.holder = some h → h.op ≠ op)
    (hknown : op = st.nextOp ∨ op ∈ st.operations) (hmemory : st₁.memory = st.memory)
    (hholder : st₁.holder = st.holder) :
    Makes s st m (st₁.submit op reply).1 (st₁.submit op reply).2 := by
  unfold submit
  split
  · refine .passes hmemory hholder fun x hx => ?_
    obtain rfl := List.mem_singleton.mp hx
    exact .ended hop hknown
  · exact acquire_makes trivial hknown hmemory hholder

theorem Numbered.holder_lt (h : st.Numbered) {holder : Holder} (hholder : st.holder = some holder) :
    holder.op < st.nextOp := by
  have hcount := h holder.op
  simp only [operations, hholder, Option.toList_some, List.map_cons, List.map_nil,
    List.count_append, List.count_cons, beq_self_eq_true, if_true] at hcount
  split at hcount <;> omega

theorem Numbered.not_mem_released (h : st.Numbered) {holder : Holder}
    (hholder : st.holder = some holder) :
    holder.op ∉ ({ st with holder := none } : State).operations := by
  have hcount := h holder.op
  rw [← List.count_eq_zero]
  simp only [operations, hholder, Option.toList_some, Option.toList_none, List.map_cons,
    List.map_nil, List.count_append, List.count_cons, List.count_nil, beq_self_eq_true,
    if_true] at hcount ⊢
  split at hcount <;> omega

theorem begin_makes (hnumbered : st.Numbered) (operation : Operation) :
    Makes s st (.begin operation) (st.begin s operation).1 (st.begin s operation).2 := by
  have hfresh : ∀ h, st.holder = some h → h.op ≠ st.nextOp := fun h hholder =>
    Nat.ne_of_lt (hnumbered.holder_lt hholder)
  cases operation with
  | start vars => exact acquire_makes trivial (.inl rfl) rfl rfl
  | run => exact acquire_makes trivial (.inl rfl) rfl rfl
  | submit reply => exact submit_makes hfresh (.inl rfl) rfl rfl
  | transcript text =>
    simp only [State.begin]
    split
    · refine .passes rfl rfl fun x hx => ?_
      obtain rfl := List.mem_singleton.mp hx
      exact .ended hfresh (.inl rfl)
    · rename_i content hcontent
      refine .passes rfl rfl fun x hx => ?_
      obtain rfl := List.mem_singleton.mp hx
      exact .shows rfl hcontent
  | speechComplete => exact acquire_makes trivial (.inl rfl) rfl rfl

theorem answer_makes (hnumbered : st.Numbered) (reply : Reply) :
    Makes s st (.answer op reply) (st.answer op reply).1 (st.answer op reply).2 := by
  unfold answer
  split
  · rename_i text hfound
    have hother : ∀ h, st.holder = some h → h.op ≠ op := by
      rintro h hholder rfl
      simp [hnumbered.not_mem_echoes hholder] at hfound
    have hknown : op ∈ st.operations := by
      have hmem := List.mem_map_of_mem (f := Prod.fst) (List.mem_of_find?_eq_some hfound)
      have hop := List.find?_some hfound
      simp only [beq_iff_eq] at hop
      subst hop
      simp [operations, hmem]
    dsimp only
    split
    · refine .passes rfl rfl fun x hx => ?_
      obtain rfl := List.mem_singleton.mp hx
      exact .ended hother (.inr hknown)
    · exact submit_makes hother (.inr hknown) rfl rfl
  · split
    · rename_i holder agenda call hholder
      split
      · exact .passes rfl rfl (by simp)
      · rename_i hop
        obtain rfl : holder = op := by simpa using hop
        split
        · exact .learns hholder rfl rfl
        · exact .breaks hholder rfl rfl (hnumbered.not_mem_released hholder)
        · exact .hears hholder rfl rfl
    · exact .passes rfl rfl (by simp)

theorem carryOut_log (s : Setup) (st : State) (op : Nat) (rest : List Instruction)
    (p : Performed) : ∃ last, (st.carryOut s op rest p).2 = st.memory.log p ++ last ∧
      (last = [] ∨ (∃ call todo, p.outcome = .call call todo ∧
        last = [.called op (s.requestOf call)]) ∨
        ∃ e, p.outcome = .fail e ∧ last = [.finished op (.error e)]) := by
  unfold carryOut
  cases houtcome : p.outcome with
  | proceed todo => exact ⟨[], by simp, .inl rfl⟩
  | call call todo => exact ⟨_, rfl, .inr (.inl ⟨call, todo, rfl, rfl⟩)⟩
  | stop => exact ⟨[], by simp, .inl rfl⟩
  | fail e => exact ⟨_, rfl, .inr (.inr ⟨e, rfl, rfl⟩)⟩

theorem called_of_mem_carryOut {rest : List Instruction} {p : Performed} {k : Nat} {r : Request}
    (h : .called k r ∈ (st.carryOut s op rest p).2) :
    k = op ∧ ∃ call todo, p.outcome = .call call todo ∧ r = s.requestOf call := by
  obtain ⟨last, hlog, hlast⟩ := carryOut_log s st op rest p
  rw [hlog] at h
  rcases List.mem_append.mp h with h | h
  · rcases Memory.mem_log h with ⟨e, c, heq⟩ | ⟨n, heq⟩ <;> simp at heq
  · rcases hlast with rfl | ⟨call, todo, houtcome, rfl⟩ | ⟨e, -, rfl⟩
    · simp at h
    · obtain ⟨rfl, rfl⟩ : k = op ∧ r = s.requestOf call := by simpa using h
      exact ⟨rfl, call, todo, houtcome, rfl⟩
    · simp at h

theorem schedule_makes : Makes s st m st.schedule.1 st.schedule.2 := by
  refine .passes rfl rfl fun x hx => ?_
  obtain rfl := List.mem_singleton.mp hx
  exact .noted

theorem step_makes (hnumbered : st.Numbered) (hqueued : ∀ e ∈ st.queue, e.2.Opens) (m : Move) :
    Makes s st m (st.step s m).1 (st.step s m).2 := by
  cases m with
  | begin operation => exact begin_makes hnumbered operation
  | answer op reply => exact answer_makes hnumbered reply
  | tick =>
    simp only [step]
    rcases tick_cases s st with heq | ⟨op, hholder, heq⟩ | ⟨op, i, rest, hholder, heq⟩
    · rw [heq]
      exact .passes rfl rfl (by simp)
    · rw [heq]
      exact .ends hholder rfl rfl (hnumbered.not_mem_released hholder)
    · rw [heq]
      exact .acts hholder
  | grant =>
    simp only [step]
    split
    · rename_i op first queue hnone hqueue
      exact .opens hnone (hqueued (op, first) (by simp [hqueue])) rfl rfl
        (.inr (by simp [operations, hqueue]))
    · exact .passes rfl rfl (by simp)
  | arrive =>
    simp only [step]
    split
    · rename_i op rest hscheduled
      exact acquire_makes trivial (.inr (by simp [operations, hscheduled])) rfl rfl
    · exact .passes rfl rfl (by simp)
  | reset => exact .resets rfl rfl
  | restore c => exact .restores rfl rfl
  | notify =>
    simp only [step]
    split
    · exact schedule_makes
    · exact .passes rfl rfl (by simp)
  | notifyFromAfar =>
    simp only [step]
    split
    · exact schedule_makes
    · exact .passes rfl rfl (by simp)
  | unsubscribe => exact .passes rfl rfl (by simp [step])

end State

/-- The operation that a happening is part of. -/
def Happening.op? : Happening → Option Nat
  | .called op _ => some op
  | .scheduled op => some op
  | .finished op _ => some op
  | _ => none

theorem Aside.op?_ne {s : Setup} {st : State} {m : Move} {x : Happening} (hx : Aside s st m x)
    (hnumbered : st.Numbered) {h : Holder} (hholder : st.holder = some h) : x.op? ≠ some h.op := by
  have hlt : h.op < st.nextOp := hnumbered.holder_lt hholder
  intro heq
  cases hx with
  | shows | noted => exact absurd (Option.some.inj heq) (Nat.ne_of_gt hlt)
  | ended hother => exact hother h hholder (Option.some.inj heq).symm

theorem Makes.known {s : Setup} {st st' : State} {m : Move} {log : List Happening}
    (h : Makes s st m st' log) {x : Happening} (hx : x ∈ log) {op : Nat} (hop : x.op? = some op) :
    op = st.nextOp ∨ op ∈ st.operations := by
  have hholds : ∀ h, st.holder = some h → h.op ∈ st.operations := fun h hholder => by
    simp [State.operations, hholder]
  cases h with
  | passes hmemory hholder hlog =>
    cases hlog x hx with
    | shows hm hcontent => exact .inl (Option.some.inj hop).symm
    | ended hother hknown =>
      obtain rfl := Option.some.inj hop
      exact hknown
    | noted => exact .inl (Option.some.inj hop).symm
  | breaks hbefore =>
    obtain rfl := List.mem_singleton.mp hx
    obtain rfl := Option.some.inj hop
    exact .inr (hholds _ hbefore)
  | ends hbefore =>
    obtain rfl := List.mem_singleton.mp hx
    obtain rfl := Option.some.inj hop
    exact .inr (hholds _ hbefore)
  | acts hbefore =>
    rename_i holder i rest
    obtain ⟨last, hlog, hlast⟩ :=
      State.carryOut_log s st holder rest (s.perform st.memory.context i)
    rw [hlog] at hx
    rcases List.mem_append.mp hx with hx | hx
    · rcases Memory.mem_log hx with ⟨e, c, rfl⟩ | ⟨n, rfl⟩ <;> simp [Happening.op?] at hop
    · rcases hlast with rfl | ⟨call, todo, -, rfl⟩ | ⟨e, -, rfl⟩
      · simp at hx
      · obtain rfl := List.mem_singleton.mp hx
        obtain rfl := Option.some.inj hop
        exact .inr (hholds _ hbefore)
      · obtain rfl := List.mem_singleton.mp hx
        obtain rfl := Option.some.inj hop
        exact .inr (hholds _ hbefore)
  | resets =>
    obtain rfl := List.mem_singleton.mp hx
    simp [Happening.op?] at hop
  | restores =>
    obtain rfl := List.mem_singleton.mp hx
    simp [Happening.op?] at hop
  | opens | hears | learns => simp at hx

namespace Course

variable {s : Setup} {allows : State → Move → Prop} {st st' : State} {log later : List Happening}

theorem queued (course : Course s allows {} log st) : ∀ e ∈ st.queue, e.2.Opens :=
  ((Phase.stable s allows).course course (State.keeps_new trivial)).queued

theorem makes (course : Course s allows {} log st) (m : Move) :
    Makes s st m (st.step s m).1 (st.step s m).2 :=
  State.step_makes (course.numbered State.numbered_new) course.queued m

/-- What holds of a new session, and is kept however an allowed move goes, holds along every
course. -/
theorem along {P : List Happening → State → Prop} (hnew : P [] {})
    (hstep : ∀ log st m st' more, Course s allows {} log st → allows st m → Makes s st m st' more →
      P log st → P (log ++ more) st')
    (course : Course s allows {} log st) : P log st := by
  induction course with
  | refl => exact hnew
  | tail course m hm ih => exact hstep _ _ m _ _ course hm (course.makes m) ih

theorem silent_of_not_mem (course : Course s allows {} log st)
    (course' : Course s allows st later st') {op : Nat} (hop : op < st.nextOp)
    (hgone : op ∉ st.operations) : op ∉ st'.operations ∧ ∀ x ∈ later, x.op? ≠ some op := by
  suffices hkept : op < st'.nextOp ∧ op ∉ st'.operations ∧ ∀ x ∈ later, x.op? ≠ some op from
    hkept.2
  induction course' with
  | refl => exact ⟨hop, hgone, by simp⟩
  | @tail later st₁ course' m hm ih =>
    obtain ⟨hlt, hnone, hsilent⟩ := ih
    have hnext := State.nextOp_le_step s st₁ m
    refine ⟨by omega, ?_, fun x hx heq => ?_⟩
    · rw [← List.count_eq_zero] at hnone ⊢
      exact (Course.single m hm).count_eq_zero hlt hnone
    · rcases List.mem_append.mp hx with hx | hx
      · exact hsilent x hx heq
      · rcases ((course.trans course').makes m).known hx heq with rfl | hmem
        · omega
        · exact hnone hmem

end Course

end ChatFlow.Session
