import ChatFlow.Proofs.Session.Bound
import ChatFlow.Proofs.Simulation.Account

/-!
# Stages settle

A stage settles whenever its sessions take a limited number of steps and nobody lets anything happen
in the middle of a request: `Stage.settles_of_limited`.

`State.load` prices what a session has left to do. An instruction counts twice what it weighs, so
that it pays for the call it may make, and an operation that has not got the session yet counts as
much as any that can begin, and a little more for every place that it has to wait in. Together with
the requests that are being answered and the reports that are to arrive, this goes down with
everything that happens on the stage (`Stage.toil_lt`).
-/

namespace ChatFlow.Session

/-- The steps of a run are limited by a number. -/
def Setup.Limited (s : Setup) : Prop :=
  ∃ most, s.config.maxSteps = .int most

/-- The most steps of a run, if they are limited by a number. -/
def Setup.most (s : Setup) : Int :=
  match s.config.maxSteps with
  | .int most => most
  | _ => 0

variable {s : Setup} {st : State} {op : Nat} {i : Instruction} {log : List Happening}

theorem effort_pays_most (h : s.Limited) : (effortWeights s s.most).Pays s (fun _ => 1) 1 := by
  obtain ⟨most, hmost⟩ := h
  have heq : s.most = most := by simp [Setup.most, hmost]
  rw [heq]
  exact effort_pays hmost

namespace State

/-- What an operation weighs at most when it begins. -/
def beginning (s : Setup) : Nat := 13 * s.most.toNat + 8

theorem opens_le (hi : i.Opens) : (effortWeights s s.most).instruction i ≤ beginning s := by
  cases i with
  | start vars | accept reply | acceptPlayback => exact Nat.le_refl _
  | enter => exact Nat.add_le_add_left (by decide) _
  | _ => exact hi.elim

/-- What a session has left to do. -/
def load (s : Setup) (st : State) : Nat :=
  2 * (effortWeights s s.most).left st + st.holder.toList.length +
    (2 * beginning s + 2) * st.queue.length + (2 * beginning s + 3) * st.scheduled.length +
    (2 * beginning s + 4) * st.echoes.length

theorem load_acquire (hi : i.Opens) :
    (st.acquire op i).load s ≤ st.load s + (2 * beginning s + 2) := by
  unfold acquire
  split
  · rename_i hfree
    have hnone : st.holder = none := by
      simpa using (Bool.and_eq_true_iff.mp hfree).1
    have hweight := opens_le (s := s) hi
    simp [load, Weights.left, hnone]
    omega
  · simp only [load, Weights.left, List.length_append, List.length_singleton, Nat.mul_add]
    omega

theorem load_submit (reply : Value) :
    (st.submit op reply).1.load s ≤ st.load s + (2 * beginning s + 2) := by
  unfold submit
  split
  · exact Nat.le_add_right _ _
  · exact load_acquire trivial

theorem calls_submit (reply : Value) : calls (st.submit op reply).2 = [] := by
  unfold submit
  split <;> rfl

theorem load_carryOut (hlimited : s.Limited) {rest : List Instruction}
    (hholder : st.holder = some ⟨op, i :: rest, none⟩) :
    (st.carryOut s op rest (s.perform st.memory.context i)).1.load s +
      (calls (st.carryOut s op rest (s.perform st.memory.context i)).2).length < st.load s := by
  have hpays := (effort_pays_most hlimited).performs
    (perform_performs (s := s) (c := st.memory.context) i)
  have hleft := (effortWeights s s.most).left_carryOut s st op rest
    (s.perform st.memory.context i)
  have hbefore : (effortWeights s s.most).left st =
      (effortWeights s s.most).instruction i + (effortWeights s s.most).agenda rest := by
    simp [Weights.left_eq hholder]
  obtain ⟨last, hlog, hlast⟩ := carryOut_log s st op rest (s.perform st.memory.context i)
  have hcalls : (calls (st.carryOut s op rest (s.perform st.memory.context i)).2).length ≤ 1 := by
    have hnone : calls (st.memory.log (s.perform st.memory.context i)) = [] :=
      List.filterMap_eq_nil_iff.mpr fun x hx => by
        rcases Memory.mem_log hx with ⟨e, c, rfl⟩ | ⟨n, rfl⟩ <;> rfl
    rw [hlog, calls_append, hnone]
    rcases hlast with rfl | ⟨call, todo, -, rfl⟩ | ⟨e, -, rfl⟩ <;> simp
  generalize hafter : st.carryOut s op rest (s.perform st.memory.context i) = after at *
  have hothers : after.1.queue = st.queue ∧ after.1.scheduled = st.scheduled ∧
      after.1.echoes = st.echoes ∧ after.1.holder.toList.length ≤ 1 := by
    rw [← hafter, carryOut]
    cases (s.perform st.memory.context i).outcome <;> exact ⟨rfl, rfl, rfl, by simp⟩
  obtain ⟨hqueue, hscheduled, hechoes, hholds⟩ := hothers
  have hone : st.holder.toList.length = 1 := by simp [hholder]
  simp only [load, hqueue, hscheduled, hechoes]
  omega

theorem load_tick (hlimited : s.Limited) (hbusy : st.isSettled = false) :
    (st.step s .tick).1.load s + (calls (st.step s .tick).2).length < st.load s := by
  obtain ⟨op, agenda, hholder⟩ : ∃ op agenda, st.holder = some ⟨op, agenda, none⟩ := by
    unfold isSettled at hbusy
    split at hbusy
    · simp at hbusy
    · rename_i h hholder
      obtain ⟨op, agenda, call⟩ := h
      obtain rfl : call = none := by simpa using hbusy
      exact ⟨op, agenda, hholder⟩
  cases agenda with
  | nil =>
    simp only [step, tick_over hholder]
    simp [load, Weights.left, hholder]
  | cons i rest =>
    simp only [step, tick_eq_carryOut hholder rfl]
    exact load_carryOut hlimited hholder

theorem load_grant (hqueued : ∀ e ∈ st.queue, e.2.Opens) (hfree : st.holder = none)
    (hqueue : st.queue ≠ []) :
    (st.step s .grant).1.load s < st.load s ∧ (st.step s .grant).2 = [] := by
  obtain ⟨⟨op, first⟩, queue, heq⟩ := List.exists_cons_of_ne_nil hqueue
  have hweight : (effortWeights s s.most).instruction first ≤ beginning s :=
    opens_le (hqueued (op, first) (by simp [heq]))
  simp only [step, hfree, heq]
  simp [load, Weights.left, hfree, heq, Nat.mul_add]
  omega

theorem load_arrive : (st.step s .arrive).1.load s ≤ st.load s := by
  simp only [step]
  split
  · rename_i op rest hscheduled
    refine Nat.le_trans (load_acquire trivial) ?_
    simp only [load, Weights.left, hscheduled, List.length_cons, Nat.mul_add]
    omega
  · exact Nat.le_refl _

theorem load_answer (hlimited : s.Limited) (reply : Reply) :
    (st.step s (.answer op reply)).1.load s ≤ st.load s ∧
      calls (st.step s (.answer op reply)).2 = [] := by
  simp only [step, answer]
  split
  · rename_i text hfound
    have hshorter : (st.echoes.filter (·.1 ≠ op)).length < st.echoes.length := by
      have hop := List.find?_some hfound
      refine List.length_filter_lt_length_iff_exists.mpr
        ⟨_, List.mem_of_find?_eq_some hfound, by simpa using hop⟩
    have hechoes : ({ st with echoes := st.echoes.filter (·.1 ≠ op) } : State).load s +
        (2 * beginning s + 4) ≤ st.load s := by
      have hmul := Nat.mul_le_mul_left (2 * beginning s + 4) hshorter
      simp only [load, Weights.left]
      rw [Nat.succ_eq_add_one, Nat.mul_add] at hmul
      omega
    split
    · exact ⟨Nat.le_trans (Nat.le_add_right _ _) hechoes, rfl⟩
    · refine ⟨Nat.le_trans (load_submit text) ?_, calls_submit text⟩
      omega
  · split
    · rename_i holder agenda call hholder
      split
      · exact ⟨Nat.le_refl _, rfl⟩
      · have hpays := effort_pays_most hlimited
        split
        · rename_i run n q
          have hconcludes := hpays.concludes run n q reply
          refine ⟨?_, rfl⟩
          simp [load, Weights.left, hholder]
          omega
        · refine ⟨?_, rfl⟩
          simp [load, Weights.left, hholder]
        · refine ⟨?_, rfl⟩
          simp [load, Weights.left, hholder, Nat.mul_add]
    · exact ⟨Nat.le_refl _, rfl⟩

end State

end ChatFlow.Session

namespace ChatFlow.Simulation

open Session

namespace Stage

variable {σ : Type} {w w' : Stage σ} {i : Nat} {s : Setup} {st : State} {m : Move} {most : Nat}

/-- What is left to do on a stage. -/
def toil (w : Stage σ) : Nat :=
  w.sessions.foldr (fun e n => e.2.load e.1 + n) 0 + w.frames.length + w.arrivals.length

/-- Nothing comes in the middle of a request, every session takes a limited number of steps, and no
playback is reported before the request for it is answered, unless nobody speaks. -/
structure Limited (w : Stage σ) : Prop where
  uninterrupted : w.around.interruptions = []
  limited : ∀ e ∈ w.sessions, e.1.Limited
  patient : w.around.playsAtOnce = true → ∀ e ∈ w.sessions, e.1.voiceMode = false

theorem foldr_add_set {α : Type} (f : α → Nat) {l : List α} {a : α} (b : α) (h : l[i]? = some a) :
    (l.set i b).foldr (fun x n => f x + n) 0 + f a = l.foldr (fun x n => f x + n) 0 + f b := by
  induction l generalizing i with
  | nil => simp at h
  | cons c l ih =>
    cases i with
    | zero =>
      obtain rfl : c = a := by simpa using h
      simp only [List.set_cons_zero, List.foldr_cons]
      omega
    | succ i =>
      have hrest := ih (i := i) (by simpa using h)
      simp only [List.set_cons_succ, List.foldr_cons]
      omega

theorem toil_move (h : w.sessions[i]? = some (s, st)) (m : Move) :
    (w.move i m).toil + st.load s =
      w.toil + (st.step s m).1.load s + (calls (st.step s m).2).length +
        notes (st.step s m).2 := by
  have hrecorded := move_recorded h m
  obtain ⟨new, hnew, hcalls, -⟩ := hrecorded.frames_eq
  have hlength : new.length = (calls (st.step s m).2).length := by
    simpa using congrArg List.length hcalls
  have hsum := foldr_add_set (fun e : Setup × State => e.2.load e.1) (s, (st.step s m).1) h
  simp only [toil, hrecorded.sessions_eq, hnew, hrecorded.arrivals_eq, List.length_append,
    List.length_replicate, hlength] at hsum ⊢
  omega

theorem Limited.carries {P : Move → Prop} (h : w.Limited) (hcarries : Carries P w w') :
    w'.Limited := by
  have hsetup : ∀ e' ∈ w'.sessions, ∃ e ∈ w.sessions, e.1 = e'.1 := by
    intro e' he'
    obtain ⟨i, hi⟩ := List.mem_iff_getElem?.mp he'
    obtain ⟨hlt, -⟩ := List.getElem?_eq_some_iff.mp hi
    have hlt' : i < w.sessions.length := hcarries.length_eq ▸ hlt
    obtain ⟨ms, -, hafter, -⟩ := hcarries.goes i _ _ (List.getElem?_eq_getElem hlt')
    refine ⟨_, List.getElem_mem hlt', ?_⟩
    rw [hi] at hafter
    exact (congrArg Prod.fst (Option.some.inj hafter)).symm
  refine ⟨hcarries.around_eq ▸ h.uninterrupted, fun e' he' => ?_, fun honce e' he' => ?_⟩
  · obtain ⟨e, he, heq⟩ := hsetup e' he'
    exact heq ▸ h.limited e he
  · obtain ⟨e, he, heq⟩ := hsetup e' he'
    exact heq ▸ h.patient (hcarries.around_eq ▸ honce) e he

theorem notes_step (hreport : ¬ m.IsReport) : notes (st.step s m).2 = 0 := by
  by_cases harrive : m = .arrive
  · subst harrive
    rw [State.step_arrive.2, notes_nil]
  · exact (State.step_scheduled hreport harrive).2

theorem toil_answer (hlimited : w.Limited) {f : Frame} {rest : List Frame}
    (hframes : w.frames = f :: rest) (inner : σ) (reply : Reply) :
    ({ w with frames := rest, inner := inner }.move f.session (.answer f.op reply)).toil
      < w.toil := by
  have hpopped : ({ w with frames := rest, inner := inner } : Stage σ).toil < w.toil := by
    simp [toil, hframes]
  cases hi : w.sessions[f.session]? with
  | none => rwa [move_none (by exact hi)]
  | some entry =>
    obtain ⟨s, st⟩ := entry
    have hsession : s.Limited := hlimited.limited _ (List.mem_of_getElem? hi)
    obtain ⟨hload, hcalls⟩ : (st.step s (.answer f.op reply)).1.load s ≤ st.load s ∧
        calls (st.step s (.answer f.op reply)).2 = [] := State.load_answer hsession reply
    have hmove := toil_move (w := { w with frames := rest, inner := inner }) hi (.answer f.op reply)
    rw [hcalls, notes_step (m := .answer f.op reply) id, List.length_nil] at hmove
    omega

/-- Whatever happens on a stage leaves less to do. -/
theorem toil_lt (hbooks : Accounted [] [] w) (hlimited : w.Limited) (h : Goes w w') :
    w'.toil < w.toil := by
  have hunbroken : ∀ {f : Frame} {rest : List Frame}, w.frames = f :: rest → f.beats = [] :=
    fun hframes => hbooks.unbroken hlimited.uninterrupted _ (by simp [hframes])
  cases h with
  | ticks hi hbusy =>
    rename_i i s st
    have hsession : s.Limited := hlimited.limited _ (List.mem_of_getElem? hi)
    have hload := State.load_tick hsession hbusy
    have hmove := toil_move hi .tick
    rw [notes_step (m := .tick) id] at hmove
    omega
  | grants hi hfree hqueue =>
    obtain ⟨log, course⟩ := hbooks.lived _ _ _ hi
    obtain ⟨hload, hlog⟩ := State.load_grant course.queued hfree hqueue
    have hmove := toil_move hi .grant
    rw [hlog, calls_nil, notes_nil, List.length_nil] at hmove
    omega
  | arrives harrivals =>
    rename_i i rest
    have hpopped : ({ w with arrivals := rest } : Stage σ).toil < w.toil := by
      simp [toil, harrivals]
    cases hi : w.sessions[i]? with
    | none => rwa [move_none (by exact hi)]
    | some entry =>
      obtain ⟨s, st⟩ := entry
      have hload : (st.step s .arrive).1.load s ≤ st.load s := State.load_arrive
      have hmove := toil_move (w := { w with arrivals := rest }) hi .arrive
      rw [State.step_arrive.2, calls_nil, notes_nil, List.length_nil] at hmove
      omega
  | plays hframes hbeats | refuses hframes hbeats | fails hframes hbeats =>
    -- Nothing comes in the middle of a request, so there is no beat to play.
    rw [hunbroken hframes] at hbeats
    cases hbeats
  | answers hframes hbeats =>
    rename_i f rest
    have hdue : Accounted [f] [] { w with frames := rest } := hbooks.popped hframes
    have hpopped : ({ w with frames := rest } : Stage σ).Limited :=
      ⟨hlimited.uninterrupted, hlimited.limited, hlimited.patient⟩
    rw [answer_eq, hdue.heard_eq fun honce s st hi =>
      hpopped.patient honce _ (List.mem_of_getElem? hi)]
    exact toil_answer hlimited hframes _ _

/-- Where nothing comes in the middle of a request and the steps of a run are limited by a number,
every stage settles. -/
theorem settles_of_limited (hbooks : Accounted [] [] w) (hlimited : w.Limited) :
    (settle w).isSome = true := by
  generalize hn : w.toil = n
  induction n using Nat.strongRecOn generalizing w with
  | ind n ih =>
    rw [settle]
    cases hnext : w.next? with
    | none => rfl
    | some next =>
      have hgoes := goes_of_next hnext
      have hcarries : Carries (fun _ => True) w next :=
        hgoes.carries (fun _ _ => trivial) fun _ _ _ _ _ _ => trivial
      exact ih _ (hn ▸ toil_lt hbooks hlimited hgoes) (hbooks.goes hgoes)
        (hlimited.carries hcarries) rfl

end Stage

end ChatFlow.Simulation
