import ChatFlow.Proofs.Session.Move
import ChatFlow.Proofs.Session.Origin
import Mathlib.Data.List.Induction

/-!
# What a session leaves behind

Whoever runs sessions keeps track of them by what happens in them. This module says that this is
enough. The last new context is the context of the session (`Course.context_eq_last`). An operation
waits for an answer only after it has called somebody, and not after the answer
(`State.awaits_of_step`, `State.not_awaits_answered`). Every report of a playback that has not
arrived has been noted down (`length_scheduled_report`, `step_arrive`). And in text mode nobody is
ever asked to speak (`Course.mute`).
-/

namespace ChatFlow.Session

variable {s : Setup} {allows : State → Move → Prop} {st st' : State} {m : Move} {op : Nat}
  {log more : List Happening}

/-! ## Contexts -/

def Happening.context? : Happening → Option Context
  | .changed _ c => some c
  | .restored c => some c
  | _ => none

/-- The new contexts among happenings. -/
def contexts (log : List Happening) : List Context :=
  log.filterMap Happening.context?

@[simp] theorem contexts_nil : contexts [] = [] := rfl

@[simp] theorem contexts_append (log log' : List Happening) :
    contexts (log ++ log') = contexts log ++ contexts log' :=
  List.filterMap_append

theorem contexts_eq_nil (h : ∀ x ∈ log, x.context? = none) : contexts log = [] :=
  List.filterMap_eq_nil_iff.mpr h

/-- The context at the end of a list, or the one before it. -/
def latest (c : Context) (cs : List Context) : Context :=
  cs.getLast?.getD c

@[simp] theorem latest_nil (c : Context) : latest c [] = c := rfl

@[simp] theorem latest_singleton (c c' : Context) : latest c [c'] = c' := rfl

theorem latest_append (c : Context) (cs cs' : List Context) :
    latest c (cs ++ cs') = latest (latest c cs) cs' := by
  cases cs' using List.reverseRecOn with
  | nil => simp [latest]
  | append_singleton cs' last => simp [latest, ← List.append_assoc]

theorem Memory.latest_applyAll (m : Memory) (es : List Event) :
    latest m.context (contexts (m.applyAll es).2) = es.foldl Context.apply m.context := by
  induction es generalizing m with
  | nil => rfl
  | cons e rest ih =>
    have hrest := ih { m with context := m.context.apply e }
    show latest m.context ([m.context.apply e] ++ _) = _
    rw [latest_append, latest_singleton]
    exact hrest

theorem State.contexts_carryOut (s : Setup) (st : State) (op : Nat) (rest : List Instruction)
    (p : Performed) :
    contexts (st.carryOut s op rest p).2 = contexts (st.memory.applyAll p.events).2 := by
  obtain ⟨last, hlog, hlast⟩ := State.carryOut_log s st op rest p
  have hnone : contexts last = [] := by
    rcases hlast with rfl | ⟨call, todo, -, rfl⟩ | ⟨e, -, rfl⟩ <;> rfl
  have hexecuted : contexts (p.executed.toList.map .executed) = [] :=
    contexts_eq_nil (by simp [Happening.context?])
  rw [hlog, Memory.log, contexts_append, contexts_append, hnone, hexecuted]
  simp

theorem Makes.context_eq (h : Makes s st m st' log) :
    st'.memory.context = latest st.memory.context (contexts log) := by
  cases h with
  | passes hmemory hholder hlog =>
    have hnone : contexts log = [] := contexts_eq_nil fun x hx => by cases hlog x hx <;> rfl
    rw [hmemory, hnone, latest_nil]
  | opens hnone hi hmemory | hears hbefore hmemory | learns hbefore hmemory =>
    rw [hmemory, contexts_nil, latest_nil]
  | breaks hbefore hmemory | ends hbefore hmemory =>
    rw [hmemory]
    rfl
  | acts hbefore =>
    rw [State.contexts_carryOut, Memory.latest_applyAll, State.carryOut_memory]
    rfl
  | resets hmemory =>
    rw [hmemory]
    rfl
  | restores hmemory =>
    rw [hmemory]
    rfl

theorem Course.context_eq_last (course : Course s allows {} log st)
    (course' : Course s allows st more st') :
    st'.memory.context = latest st.memory.context (contexts more) := by
  induction course' with
  | refl => rfl
  | tail course' m hm ih =>
    rw [((course.trans course').makes m).context_eq, ih, contexts_append, latest_append]

/-! ## Answers that are waited for -/

namespace State

/-- An operation waits for the answer to a call. -/
def Awaits (st : State) (op : Nat) : Prop :=
  (∃ h, st.holder = some h ∧ h.op = op ∧ h.call.isSome = true) ∨ ∃ e ∈ st.echoes, e.1 = op

theorem called_of_echo {e : Nat × Value} (he : e ∈ (st.step s m).1.echoes) :
    e ∈ st.echoes ∨ ∃ r, .called e.1 r ∈ (st.step s m).2 := by
  cases m with
  | begin operation =>
    cases operation with
    | transcript text =>
      simp only [step, State.begin] at he ⊢
      split at he
      · exact .inl he
      · rename_i content hcontent
        rcases List.mem_append.mp he with he | he
        · exact .inl he
        · obtain rfl := List.mem_singleton.mp he
          exact .inr ⟨_, List.mem_singleton_self _⟩
    | _ => exact .inl (by simpa [step, State.begin] using he)
  | answer op reply =>
    refine .inl ?_
    simp only [step, answer] at he
    split at he
    · have hkept : e ∈ st.echoes.filter (·.1 ≠ op) := by
        split at he
        · exact he
        · simpa using he
      exact (List.mem_filter.mp hkept).1
    · split at he
      · split at he
        · exact he
        · split at he <;> exact he
      · exact he
  | tick =>
    refine .inl ?_
    rcases tick_cases s st with heq | ⟨op, -, heq⟩ | ⟨op, i, rest, -, heq⟩
    · simpa [step, heq] using he
    · simpa [step, heq] using he
    · simp only [step, heq, carryOut] at he
      cases hp : (s.perform st.memory.context i).outcome <;> simpa [hp] using he
  | arrive =>
    refine .inl ?_
    simp only [step] at he
    split at he
    · simpa using he
    · exact he
  | grant | notify | notifyFromAfar =>
    refine .inl ?_
    simp only [step] at he
    split at he <;> exact he
  | reset | restore c | unsubscribe => exact .inl he

theorem awaits_of_step (hmakes : Makes s st m (st.step s m).1 (st.step s m).2)
    (h : (st.step s m).1.Awaits op) :
    st.Awaits op ∨ ∃ r, .called op r ∈ (st.step s m).2 := by
  rcases h with ⟨h, hh, rfl, hcall⟩ | ⟨e, he, rfl⟩
  · generalize (st.step s m).1 = st' at hmakes hh
    generalize (st.step s m).2 = log at hmakes ⊢
    cases hmakes with
    | passes hmemory hholder | resets hmemory hholder | restores hmemory hholder =>
      exact .inl (.inl ⟨h, hholder ▸ hh, rfl, hcall⟩)
    | opens hnone hi hmemory hholder =>
      obtain rfl := Option.some.inj (hholder.symm.trans hh)
      simp at hcall
    | hears hbefore hmemory hholder | learns hbefore hmemory hholder =>
      obtain rfl := Option.some.inj (hholder.symm.trans hh)
      simp at hcall
    | breaks hbefore hmemory hholder | ends hbefore hmemory hholder =>
      simp [hholder] at hh
    | acts hbefore =>
      rename_i holder i rest
      unfold carryOut at hh ⊢
      cases hp : (s.perform st.memory.context i).outcome with
      | call c todo =>
        simp only [hp, Option.some.injEq] at hh ⊢
        obtain rfl := hh
        exact .inr ⟨s.requestOf c, by simp⟩
      | proceed todo | stop =>
        simp only [hp, Option.some.injEq] at hh
        obtain rfl := hh
        simp at hcall
      | fail e => simp [hp] at hh
  · rcases called_of_echo he with he | hcalled
    · exact .inl (.inr ⟨e, he, rfl⟩)
    · exact .inr hcalled

theorem not_awaits_answered (hnumbered : st.Numbered) (op : Nat) (reply : Reply) :
    ¬ (st.step s (.answer op reply)).1.Awaits op := by
  simp only [step, answer]
  split
  · rename_i text hfound
    have hother : ∀ h, st.holder = some h → h.op ≠ op := by
      rintro h hholder rfl
      simp [hnumbered.not_mem_echoes hholder] at hfound
    have hgone : ¬ ({ st with echoes := st.echoes.filter (·.1 ≠ op) } : State).Awaits op := by
      rintro (⟨h, hholder, hop, -⟩ | ⟨e, he, rfl⟩)
      · exact hother h hholder hop
      · simp at he
    split
    · exact hgone
    · unfold submit
      split
      · exact hgone
      · unfold acquire
        split
        · rintro (⟨h, hholder, -, hcall⟩ | ⟨e, he, rfl⟩)
          · obtain rfl := Option.some.inj hholder
            simp at hcall
          · simp at he
        · exact hgone
  · rename_i hechoes
    have hnone : ∀ e ∈ st.echoes, e.1 ≠ op := by
      simpa [List.find?_eq_none] using hechoes
    have hechoed : ¬ ∃ e ∈ st.echoes, e.1 = op := by
      rintro ⟨e, he, hop⟩
      exact hnone e he hop
    split
    · rename_i holder agenda call hholder
      split
      · rename_i hne
        rintro (⟨h, hh, rfl, -⟩ | hecho)
        · obtain rfl := Option.some.inj (hholder.symm.trans hh)
          exact hne rfl
        · exact hechoed hecho
      · split
        · rintro (⟨h, hh, -, hcall⟩ | hecho)
          · obtain rfl := Option.some.inj hh
            simp at hcall
          · exact hechoed hecho
        · rintro (⟨h, hh, -, hcall⟩ | hecho)
          · simp at hh
          · exact hechoed hecho
        · rintro (⟨h, hh, -, hcall⟩ | hecho)
          · obtain rfl := Option.some.inj hh
            simp at hcall
          · exact hechoed hecho
    · rename_i hfree
      rintro (⟨⟨holder, agenda, call⟩, hh, -, hcall⟩ | hecho)
      · obtain ⟨call, rfl⟩ := Option.isSome_iff_exists.mp hcall
        exact hfree _ _ _ hh
      · exact hechoed hecho

end State

/-! ## Reports that have not arrived -/

def Happening.isNote : Happening → Bool
  | .scheduled _ => true
  | _ => false

/-- How many reports of a playback are noted down. -/
def notes (log : List Happening) : Nat :=
  log.countP Happening.isNote

@[simp] theorem notes_nil : notes [] = 0 := rfl

theorem notes_eq_zero (h : ∀ x ∈ log, x.isNote = false) : notes log = 0 :=
  List.countP_eq_zero.mpr fun x hx => by simp [h x hx]

/-- The moves by which the synthesizer reports a playback. -/
def Move.IsReport : Move → Prop
  | .notify => True
  | .notifyFromAfar => True
  | _ => False

namespace State

@[simp] theorem notes_submit {reply : Value} : notes (st.submit op reply).2 = 0 := by
  unfold submit
  split <;> rfl

@[simp] theorem acquire_scheduled {i : Instruction} :
    (st.acquire op i).scheduled = st.scheduled := by
  unfold acquire
  split <;> rfl

@[simp] theorem submit_scheduled {reply : Value} :
    (st.submit op reply).1.scheduled = st.scheduled := by
  unfold submit
  split <;> simp

theorem step_scheduled (hreport : ¬ m.IsReport) (harrive : m ≠ .arrive) :
    (st.step s m).1.scheduled = st.scheduled ∧ notes (st.step s m).2 = 0 := by
  cases m with
  | begin operation =>
    cases operation with
    | transcript text =>
      simp only [step, State.begin]
      split <;> exact ⟨rfl, rfl⟩
    | _ => simp [step, State.begin]
  | answer op reply =>
    simp only [step, answer]
    split
    · split
      · exact ⟨rfl, rfl⟩
      · simp
    · split
      · split
        · exact ⟨rfl, rfl⟩
        · split <;> exact ⟨rfl, rfl⟩
      · exact ⟨rfl, rfl⟩
  | tick =>
    rcases tick_cases s st with heq | ⟨op, -, heq⟩ | ⟨op, i, rest, -, heq⟩
    · simp [step, heq]
    · simp [step, heq, notes, Happening.isNote]
    · simp only [step, heq]
      refine ⟨?_, notes_eq_zero fun x hx => ?_⟩
      · unfold carryOut
        cases (s.perform st.memory.context i).outcome <;> rfl
      · obtain ⟨last, hlog, hlast⟩ :=
          carryOut_log s st op rest (s.perform st.memory.context i)
        rw [hlog] at hx
        rcases List.mem_append.mp hx with hx | hx
        · rcases Memory.mem_log hx with ⟨e, c, rfl⟩ | ⟨n, rfl⟩ <;> rfl
        · rcases hlast with rfl | ⟨call, todo, -, rfl⟩ | ⟨e, -, rfl⟩
          · simp at hx
          · obtain rfl := List.mem_singleton.mp hx
            rfl
          · obtain rfl := List.mem_singleton.mp hx
            rfl
  | grant =>
    simp only [step]
    split <;> exact ⟨rfl, rfl⟩
  | arrive => exact absurd rfl harrive
  | notify | notifyFromAfar => exact absurd trivial hreport
  | reset | restore c | unsubscribe => exact ⟨rfl, rfl⟩

theorem length_scheduled_report (hreport : m.IsReport) :
    (st.step s m).1.scheduled.length = st.scheduled.length + notes (st.step s m).2 := by
  cases m with
  | notify | notifyFromAfar =>
    simp only [step]
    split
    · simp [schedule, notes, Happening.isNote]
    · simp
  | _ => exact hreport.elim

theorem step_arrive : (st.step s .arrive).1.scheduled = st.scheduled.tail ∧
    (st.step s .arrive).2 = [] := by
  simp only [step]
  split
  · rename_i op rest hscheduled
    simp [hscheduled]
  · rename_i hscheduled
    simp [hscheduled]

end State

/-! ## Text mode -/

/-- The operation neither asks to speak nor is about to. -/
structure Mute (call : Option Call) (agenda : List Instruction) : Prop where
  call_ne : ∀ text, call ≠ some (.outward (.speech text))
  agenda_ne : ∀ c, .perform c ∈ agenda → c.kind ≠ .speech

theorem Setup.Yields.mute {n : Node} {d : Decision} {r : ExecutionResult} (htext : s.voiceMode = false)
    (hr : r.Suits n) (h : s.Yields n d r) : ∀ c ∈ r.calls, c.kind ≠ .speech := by
  cases hr with
  | silent port metadata => simp [ExecutionResult.calls]
  | speaks m hm t ht patch metadata => simp [ExecutionResult.calls]
  | asks m hm call reason hcall =>
    have hwaits : n.body.waitsFor s.voiceMode = some reason := (h.waits rfl).1
    intro c hc
    obtain rfl : c = call := by simpa [ExecutionResult.calls] using hc
    rw [htext] at hwaits
    rw [hcall]
    cases reason with
    | speechPlayback =>
      cases hbody : n.body <;> simp [hbody, Body.waitsFor] at hwaits
    | _ => simp [SuspendReason.request]

theorem mem_delivery {run : Run} {n : Node} {r : ExecutionResult} {c : ExternalCall}
    (h : .perform c ∈ delivery run n r) : c ∈ r.calls := by
  unfold delivery at h
  split at h <;> simpa using h

theorem Setup.Derives.mute_after {c : Context} {i : Instruction} {rest : List Instruction}
    {p : Performed} (htext : s.voiceMode = false) (h : s.Derives none (i :: rest))
    (hmute : Mute none (i :: rest)) (hp : Performs s c i p) : p.outcome.Leads Mute rest := by
  have hrest : ∀ todo : List Instruction, (∀ c, .perform c ∉ todo) →
      ∀ c, .perform c ∈ todo ++ rest → c.kind ≠ .speech := fun todo htodo c hc =>
    (List.mem_append.mp hc).elim (fun hc => absurd hc (htodo c))
      fun hc => hmute.agenda_ne c (List.mem_cons_of_mem _ hc)
  cases hp with
  | delivers =>
    cases h.phase with
    | opening hi => exact hi.elim
    | delivering hr =>
      obtain ⟨d, hd⟩ : ∃ d, s.Yields _ d (s.feasible _) := h.stems
      refine ⟨by simp, fun c hc => ?_⟩
      rcases List.mem_append.mp hc with hc | hc
      · exact hd.mute htext (feasible_suits hr) c (mem_delivery hc)
      · simp at hc
  | requests hr =>
    rename_i call r
    have hkind : call.kind ≠ .speech := hmute.agenda_ne call List.mem_cons_self
    refine ⟨fun text hcall => ?_, hrest [] (by simp)⟩
    obtain rfl := Call.outward.inj (Option.some.inj hcall)
    cases hcallKind : call.kind <;> simp_all [Setup.Requests]
  | drops | ignores | halts | loses | abandons | discards | givesUp =>
    exact ⟨by simp, by simp⟩
  | lacksWords | misnames | mismatches | breaksOff | stumbles | misleads | cannotSpeak
  | closesMute => trivial
  | _ => exact ⟨by simp [Setup.sending], hrest _ (by simp)⟩

theorem mute_stable (htext : s.voiceMode = false) (allows : State → Move → Prop) :
    Stable s allows (fun _ call agenda => s.Derives call agenda ∧ Mute call agenda)
      (fun _ => True) where
  opens {m i} _ hi := by
    refine ⟨(derives_stable s allows).opens (m := m) trivial hi, by simp, fun c hc => ?_⟩
    obtain rfl := List.mem_singleton.mp hc
    exact hi.elim
  ends _ := trivial
  performs {m i rest p} h hp :=
    ((derives_stable s allows).performs h.1 hp).and (h.1.mute_after htext h.2 hp)
  fails _ _ _ _ _ := trivial
  answers {m _ _} h := ⟨(derives_stable s allows).answers (m := m) h.1, by simp, h.2.agenda_ne⟩
  raises _ _ _ := trivial
  concludes {m _ _ _ _} reply h := by
    refine ⟨(derives_stable s allows).concludes (m := m) reply h.1, by simp, fun c hc => ?_⟩
    exact h.2.agenda_ne c (by simpa using hc)
  resets _ _ h := h
  resetsFree _ _ _ := trivial
  restores _ _ h := h
  restoresFree _ _ _ := trivial

/-- In text mode nobody is asked to speak. -/
theorem Course.mute (htext : s.voiceMode = false) (course : Course s allows {} log st) (m : Move)
    (op : Nat) (text : String) : .called op (.speech text) ∉ (st.step s m).2 := by
  intro hcalled
  have hmakes := course.makes m
  generalize (st.step s m).1 = st' at hmakes
  generalize (st.step s m).2 = more at hmakes hcalled
  cases hmakes with
  | passes hmemory hholder hlog => cases hlog _ hcalled
  | acts hbefore =>
    obtain ⟨-, call, todo, houtcome, hr⟩ := State.called_of_mem_carryOut hcalled
    have hkeeps := (mute_stable htext allows).course course (State.keeps_new trivial)
    obtain ⟨hderives, hmute⟩ := hkeeps.held _ hbefore
    have hleads := hderives.mute_after htext hmute
      (perform_performs (s := s) (c := st.memory.context) _)
    rw [houtcome] at hleads
    cases call with
    | outward r =>
      obtain rfl : Request.speech text = r := hr
      exact hleads.call_ne text rfl
    | inquire run n q => cases q <;> simp [Setup.requestOf] at hr
  | opens | hears | learns => simp at hcalled
  | breaks | ends | resets | restores => simp at hcalled

theorem Course.never_speaks (htext : s.voiceMode = false) (course : Course s allows {} log st)
    (op : Nat) (text : String) : .called op (.speech text) ∉ log := by
  induction course with
  | refl => simp
  | tail course m hm ih => exact List.not_mem_append ih (course.mute htext m op text)

end ChatFlow.Session
