import ChatFlow.Proofs.Session.Course

/-!
# The numbers of operations

An operation is known by its number. `State.count_step_le` says that a move uses a number once more
only when it gives it out, so no two operations ever share a number (`Course.numbered`), and a number
that has been given out and is not in use is never used again (`Course.count_eq_zero`).
-/

namespace ChatFlow.Session

namespace State

/-- The numbers of the operations that are not over: of the one that holds the session, and of those
that wait for it, for a message to be shown, or for a note to arrive. -/
def operations (st : State) : List Nat :=
  st.holder.toList.map Holder.op ++ st.queue.map Prod.fst ++ st.echoes.map Prod.fst ++ st.scheduled

/-- No number is in use twice, and none that has not been given out. -/
def Numbered (st : State) : Prop :=
  ∀ k, st.operations.count k ≤ if k < st.nextOp then 1 else 0

variable {s : Setup} {st : State} {op : Nat} {i : Instruction}

theorem count_acquire (k : Nat) :
    (st.acquire op i).operations.count k = st.operations.count k + if op = k then 1 else 0 := by
  unfold acquire
  split
  · rename_i hfree
    have hnone : st.holder = none := by
      simpa using (Bool.and_eq_true_iff.mp hfree).1
    simp only [operations, hnone, Option.toList_some, Option.toList_none, List.map_cons,
      List.map_nil, List.count_append, List.count_cons, List.count_nil, beq_iff_eq]
    omega
  · simp only [operations, List.map_append, List.map_cons, List.map_nil, List.count_append,
      List.count_cons, List.count_nil, beq_iff_eq]
    omega

@[simp] theorem acquire_nextOp : (st.acquire op i).nextOp = st.nextOp := by
  unfold acquire
  split <;> rfl

theorem count_submit_le (reply : Value) (k : Nat) :
    (st.submit op reply).1.operations.count k ≤
      st.operations.count k + if op = k then 1 else 0 := by
  unfold submit
  split
  · exact Nat.le_add_right _ _
  · exact Nat.le_of_eq (count_acquire k)

@[simp] theorem submit_nextOp {reply : Value} : (st.submit op reply).1.nextOp = st.nextOp := by
  unfold submit
  split <;> simp

/-! ## Numbers that are given out -/

/-- Once, if the number is given out between two states. -/
def given (st st' : State) (k : Nat) : Nat :=
  if st.nextOp ≤ k ∧ k < st'.nextOp then 1 else 0

theorem given_succ {st' : State} (h : st'.nextOp = st.nextOp + 1) (k : Nat) :
    given st st' k = if st.nextOp = k then 1 else 0 := by
  unfold given
  by_cases hk : st.nextOp = k
  · rw [if_pos hk, if_pos (by omega)]
  · rw [if_neg hk, if_neg (by omega)]

theorem count_begin_le (operation : Operation) (k : Nat) :
    (st.begin s operation).1.operations.count k ≤
      st.operations.count k + if st.nextOp = k then 1 else 0 := by
  cases operation with
  | start vars => exact Nat.le_of_eq (count_acquire k)
  | run => exact Nat.le_of_eq (count_acquire k)
  | submit reply => exact count_submit_le reply k
  | transcript text =>
    simp only [State.begin]
    split
    · exact Nat.le_add_right _ _
    · simp only [operations, List.map_append, List.map_cons, List.map_nil, List.count_append,
        List.count_cons, List.count_nil, beq_iff_eq]
      omega
  | speechComplete => exact Nat.le_of_eq (count_acquire k)

@[simp] theorem begin_nextOp (operation : Operation) :
    (st.begin s operation).1.nextOp = st.nextOp + 1 := by
  cases operation with
  | transcript text =>
    simp only [State.begin]
    split <;> rfl
  | _ => simp [State.begin]

theorem count_echoes_filter {echoes : List (Nat × Value)} (h : ∃ e ∈ echoes, e.1 = op) (k : Nat) :
    ((echoes.filter (·.1 ≠ op)).map Prod.fst).count k + (if op = k then 1 else 0) ≤
      (echoes.map Prod.fst).count k := by
  by_cases hk : op = k
  · subst hk
    obtain ⟨e, he, hop⟩ := h
    have hnone : ((echoes.filter (·.1 ≠ op)).map Prod.fst).count op = 0 := by
      rw [List.count_eq_zero]
      intro hmem
      obtain ⟨e', he', hop'⟩ := List.mem_map.mp hmem
      have hne : e'.1 ≠ op := by simpa using (List.mem_filter.mp he').2
      exact hne hop'
    have hmem : op ∈ echoes.map Prod.fst := List.mem_map.mpr ⟨e, he, hop⟩
    have hpos := List.count_pos_iff.mpr hmem
    simp only [hnone, if_true]
    omega
  · simp only [hk, if_false, Nat.add_zero]
    exact (List.filter_sublist.map Prod.fst).count_le k

theorem count_answer_le (reply : Reply) (k : Nat) :
    (st.answer op reply).1.operations.count k ≤ st.operations.count k := by
  unfold answer
  split
  · rename_i found text hfound
    have hshown : ∃ e ∈ st.echoes, e.1 = op :=
      ⟨_, List.mem_of_find?_eq_some hfound, by simpa using List.find?_some hfound⟩
    have hfilter := count_echoes_filter hshown k
    let st₁ : State := { st with echoes := st.echoes.filter (·.1 ≠ op) }
    have hrest : st₁.operations.count k + (if op = k then 1 else 0) ≤ st.operations.count k := by
      simp only [operations, List.count_append, st₁]
      omega
    have hsubmit : (st₁.submit op text).1.operations.count k ≤
        st₁.operations.count k + if op = k then 1 else 0 := count_submit_le text k
    dsimp only
    split
    · show st₁.operations.count k ≤ _
      omega
    · show (st₁.submit op text).1.operations.count k ≤ _
      omega
  · split
    · rename_i holder agenda call hholder
      split
      · exact Nat.le_refl _
      · rename_i hop
        obtain rfl : holder = op := by simpa using hop
        have heq : st.operations.count k =
            (if holder = k then 1 else 0) + ((st.queue.map Prod.fst).count k +
              (st.echoes.map Prod.fst).count k + st.scheduled.count k) := by
          simp only [operations, hholder, Option.toList_some, List.map_cons, List.map_nil,
            List.count_append, List.count_cons, List.count_nil, beq_iff_eq]
          omega
        rw [heq]
        split
        · simp only [operations, Option.toList_some, List.map_cons, List.map_nil,
            List.count_append, List.count_cons, List.count_nil, beq_iff_eq]
          omega
        · simp only [operations, Option.toList_none, List.map_nil, List.count_append,
            List.count_nil]
          omega
        · simp only [operations, Option.toList_some, List.map_cons, List.map_nil,
            List.count_append, List.count_cons, List.count_nil, beq_iff_eq]
          omega
    · exact Nat.le_refl _

@[simp] theorem answer_nextOp (reply : Reply) : (st.answer op reply).1.nextOp = st.nextOp := by
  unfold answer
  split
  · dsimp only
    split <;> simp
  · split
    · split
      · rfl
      · split <;> rfl
    · rfl

theorem count_tick_le (s : Setup) (st : State) (k : Nat) :
    (st.tick s).1.operations.count k ≤ st.operations.count k := by
  rcases tick_cases s st with h | ⟨op, hholder, h⟩ | ⟨op, i, rest, hholder, h⟩
  · simp [h]
  · rw [h]
    simp only [operations, hholder, Option.toList_none, Option.toList_some, List.map_nil,
      List.map_cons, List.count_append, List.count_nil]
    omega
  · rw [h]
    unfold carryOut
    cases (s.perform st.memory.context i).outcome <;>
      simp only [operations, hholder, Option.toList_none, Option.toList_some, List.map_nil,
        List.map_cons, List.count_append, List.count_nil] <;>
      omega

@[simp] theorem tick_nextOp (s : Setup) (st : State) : (st.tick s).1.nextOp = st.nextOp := by
  rcases tick_cases s st with h | ⟨op, -, h⟩ | ⟨op, i, rest, -, h⟩
  · rw [h]
  · rw [h]
  · rw [h]
    unfold carryOut
    cases (s.perform st.memory.context i).outcome <;> rfl

theorem count_schedule (k : Nat) :
    st.schedule.1.operations.count k =
      st.operations.count k + if st.nextOp = k then 1 else 0 := by
  simp only [schedule, operations, List.count_append, List.count_cons, List.count_nil, beq_iff_eq]
  omega

theorem nextOp_le_step (s : Setup) (st : State) (m : Move) :
    st.nextOp ≤ (st.step s m).1.nextOp := by
  cases m with
  | begin operation => simp [step]
  | answer op reply => simp [step]
  | tick => simp [step]
  | grant =>
    simp only [step]
    split <;> exact Nat.le_refl _
  | arrive =>
    simp only [step]
    split <;> simp
  | reset => exact Nat.le_refl _
  | restore c => exact Nat.le_refl _
  | notify =>
    simp only [step]
    split <;> simp [schedule]
  | notifyFromAfar =>
    simp only [step]
    split <;> simp [schedule]
  | unsubscribe => exact Nat.le_refl _

/-- A move uses a number once more only when it gives it out. -/
theorem count_step_le (s : Setup) (st : State) (m : Move) (k : Nat) :
    (st.step s m).1.operations.count k ≤
      st.operations.count k + given st (st.step s m).1 k := by
  cases m with
  | begin operation =>
    have hnext : (st.step s (.begin operation)).1.nextOp = st.nextOp + 1 := begin_nextOp operation
    rw [given_succ hnext]
    exact count_begin_le operation k
  | answer op reply => exact Nat.le_trans (count_answer_le reply k) (Nat.le_add_right _ _)
  | tick => exact Nat.le_trans (count_tick_le s st k) (Nat.le_add_right _ _)
  | grant =>
    refine Nat.le_trans ?_ (Nat.le_add_right _ _)
    simp only [step]
    split
    · rename_i op first queue hholder hqueue
      simp only [operations, hholder, hqueue, Option.toList_none, Option.toList_some,
        List.map_nil, List.map_cons, List.count_append, List.count_cons, List.count_nil]
      omega
    · exact Nat.le_refl _
  | arrive =>
    refine Nat.le_trans ?_ (Nat.le_add_right _ _)
    simp only [step]
    split
    · rename_i op rest hscheduled
      rw [count_acquire]
      simp only [operations, hscheduled, List.count_append, List.count_cons, beq_iff_eq]
      omega
    · exact Nat.le_refl _
  | reset => exact Nat.le_add_right _ _
  | restore c => exact Nat.le_add_right _ _
  | notify =>
    simp only [step]
    split
    · rw [given_succ rfl]
      exact Nat.le_of_eq (count_schedule k)
    · exact Nat.le_add_right _ _
  | notifyFromAfar =>
    simp only [step]
    split
    · rw [given_succ rfl]
      exact Nat.le_of_eq (count_schedule k)
    · exact Nat.le_add_right _ _
  | unsubscribe => exact Nat.le_add_right _ _

theorem Numbered.step (h : st.Numbered) (m : Move) : (st.step s m).1.Numbered := by
  -- a number that is in use has been given out, and no move gives out a number twice
  intro k
  have hk := h k
  have hstep := count_step_le s st m k
  have hnext := nextOp_le_step s st m
  unfold given at hstep
  split at hk <;> split at hstep <;> split <;> omega

theorem Numbered.not_mem_echoes (h : st.Numbered) {holder : Holder}
    (hholder : st.holder = some holder) : st.echoes.find? (·.1 == holder.op) = none := by
  have hcount := h holder.op
  have hzero : (st.echoes.map Prod.fst).count holder.op = 0 := by
    simp only [operations, hholder, Option.toList_some, List.map_cons, List.map_nil,
      List.count_append, List.count_cons, beq_self_eq_true, if_true] at hcount
    split at hcount <;> omega
  rw [List.find?_eq_none]
  intro e he hop
  have hmem : holder.op ∈ st.echoes.map Prod.fst :=
    List.mem_map.mpr ⟨e, he, by simpa using hop⟩
  exact List.count_eq_zero.mp hzero hmem

end State

variable {s : Setup} {allows : State → Move → Prop} {st st' : State} {log : List Happening}

/-- No two operations ever share a number. -/
theorem Course.numbered (course : Course s allows st log st') (h : st.Numbered) : st'.Numbered :=
  course.keeps (fun _ m _ h => h.step m) h

/-- A number that has been given out and is not in use is never used again. -/
theorem Course.count_eq_zero (course : Course s allows st log st') {k : Nat} (hk : k < st.nextOp)
    (h : st.operations.count k = 0) : st'.operations.count k = 0 := by
  have hkept : k < st'.nextOp ∧ st'.operations.count k = 0 := by
    refine course.keeps (P := fun st => k < st.nextOp ∧ st.operations.count k = 0) ?_ ⟨hk, h⟩
    rintro st m - ⟨hlt, hzero⟩
    have hstep := State.count_step_le s st m k
    have hnext := State.nextOp_le_step s st m
    have hgiven : State.given st (st.step s m).1 k = 0 := by
      unfold State.given
      rw [if_neg (by omega)]
    exact ⟨by omega, by omega⟩
  exact hkept.2

theorem State.numbered_new : State.Numbered {} := by
  intro k
  simp [State.operations]

end ChatFlow.Session
