import ChatFlow.Proofs.Session.Resumption

/-!
# Playbacks

The end of a playback is not lost, as long as the synthesizer reports it before the call to play it
is over: `playback_awaited_unless_lost`. Whenever the session waits for a playback and nobody holds
it, an operation that the synthesizer has caused is on its way, and as soon as that gets the session
it resumes it.

The report comes while the session is held, and the operation that it causes may have to wait behind
replies and restarts. What is balanced is said by `State.Expects`: from the moment the session is
suspended for a playback, either the playback is about to be requested, or it is requested and not
yet reported, or a reported playback is on its way. That one is lost only when it is performed, and
then the session waits no more (`State.Brings.stays`, `State.Expects.step`).

A node with an empty id is the exception. A session comes to it and is suspended there like anywhere
else, but when it is to be resumed, an empty cursor counts as none: the end of the playback is
ignored, and the session waits for ever (`playback_lost_at_empty_id`).
-/

namespace ChatFlow.Session

variable {s : Setup} {st st' : State} {m : Move} {ms : List Move} {op k : Nat} {i : Instruction}
  {rest agenda : List Instruction} {log more : List Happening} {told : Bool}

/-- Nothing is reset, no saved context is adopted, and the session listens to its synthesizer. -/
def Unbroken (_ : State) (m : Move) : Prop :=
  m ≠ .reset ∧ (∀ c, m ≠ .restore c) ∧ m ≠ .unsubscribe

theorem Unbroken.undisturbed (h : Unbroken st m) : Undisturbed st m :=
  ⟨fun hreset => absurd hreset h.1, fun c hrestore => absurd hrestore (h.2.1 c)⟩

theorem Unbroken.considerate (h : Unbroken st m) : Considerate st m :=
  ⟨h.2.1, fun hreset => absurd hreset h.1⟩

/-! ## Reports -/

/-- The synthesizer reports a playback. -/
def Move.reports : Move → Bool
  | .notify => true
  | .notifyFromAfar => true
  | _ => false

namespace State

/-- The operation that holds the session waits for the synthesizer. -/
def speaks (st : State) : Bool :=
  match st.holder with
  | some ⟨_, _, some (.outward (.speech _))⟩ => true
  | _ => false

/-- No call to play a text is over before the synthesizer has reported a playback, from inside the
call or from afar. With `told`, it has done so in the call that is open. -/
def Reported (s : Setup) (told : Bool) (st : State) : List Move → Prop
  | [] => True
  | m :: rest =>
    let next := (st.step s m).1
    (st.speaks → ¬ next.speaks → told) ∧ next.Reported s (next.speaks && (told || m.reports)) rest

end State

instance decidableReported {s : Setup} : ∀ told st ms, Decidable (State.Reported s told st ms)
  | _, _, [] => isTrue trivial
  | told, st, m :: rest =>
    have : Decidable ((st.step s m).1.Reported s ((st.step s m).1.speaks && (told || m.reports))
        rest) := decidableReported _ _ rest
    inferInstanceAs (Decidable
      ((st.speaks → ¬ (st.step s m).1.speaks → told) ∧
        (st.step s m).1.Reported s ((st.step s m).1.speaks && (told || m.reports)) rest))

/-! ## Reports are heard -/

theorem hasRun_stable (s : Setup) (allows : State → Move → Prop) :
    Stable s allows (fun m => Runs fun _ => m.hasRun = true) (fun _ => True) where
  opens {m i} _ hi := by
    refine ⟨by simp, fun j hj run hrun => ?_⟩
    obtain rfl := List.mem_singleton.mp hj
    simp [hi.run?_eq] at hrun
  ends _ := trivial
  performs {m i rest p} h hp := by
    have hentered : p.entered = true → ∀ steps : Nat, (m.after p).hasRun = true :=
      fun hentered _ => by simp [Memory.after, hentered]
    have hbefore : Runs (fun _ => (m.after p).hasRun = true) none (i :: rest) :=
      h.mono fun _ hrun => by simp [Memory.after, hrun]
    exact Runs.performs hentered (fun _ _ hrun => hrun) hbefore hp
  fails _ _ _ _ _ := trivial
  answers h := h.answer
  raises _ _ _ := trivial
  concludes _ h := h.conclude
  resets _ _ h := h
  resetsFree _ _ _ := trivial
  restores _ _ h := h
  restoresFree _ _ _ := trivial

theorem State.speaks_iff : st.speaks ↔
    ∃ op agenda text, st.holder = some ⟨op, agenda, some (.outward (.speech text))⟩ := by
  unfold State.speaks
  split
  · rename_i hholder
    simp [hholder]
  · rename_i hother
    simp only [Bool.false_eq_true, false_iff, not_exists]
    exact fun op agenda text hholder => hother op agenda text hholder

variable {allows : State → Move → Prop}

theorem Course.hasRun_of_speaks (course : Course s allows {} log st) (hspeaks : st.speaks) :
    st.memory.hasRun = true := by
  obtain ⟨op, agenda, text, hholder⟩ := State.speaks_iff.mp hspeaks
  have hruns : Runs (fun _ => st.memory.hasRun = true) (some (.outward (.speech text))) agenda :=
    ((hasRun_stable s allows).course course (State.keeps_new trivial)).held _ hholder
  have hphase : Phase (some (.outward (.speech text))) agenda := course.phase hholder
  cases hphase with
  | requested hr => exact hruns.agenda _ List.mem_cons_self _ rfl
  | leaving hc | suspending hc | closing hc | givingUp hc => nomatch hc

theorem Course.noted (course : Course s Unbroken {} log st) (hspeaks : st.speaks)
    (hreports : m.reports) : st.step s m = st.schedule := by
  have hsubscribed : st.subscribed = true := course.subscribed fun _ _ hm => hm.2.2
  cases m with
  | notify => simp [State.step, hsubscribed]
  | notifyFromAfar => simp [State.step, hsubscribed, course.hasRun_of_speaks hspeaks]
  | _ => simp [Move.reports] at hreports

/-! ## Reported playbacks are not forgotten -/

theorem Phase.of_resumes {call : Option Call} (h : Phase call agenda) (hi : i ∈ agenda)
    (hresumes : i.resumes) : agenda = [i] ∧ call = none := by
  cases h with
  | opening hopens => exact ⟨by rw [List.mem_singleton.mp hi], rfl⟩
  | leaving hc ht ho | closing hc ho =>
    cases ho <;> simp only [List.mem_cons, List.not_mem_nil, or_false] at hi <;>
      rcases hi with rfl | rfl <;> nomatch hresumes
  | _ =>
    simp only [List.mem_cons, List.not_mem_nil, or_false] at hi <;>
      rcases hi with rfl | rfl | rfl | rfl <;> nomatch hresumes

namespace State

theorem mem_lined_playback :
    (k, .acceptPlayback) ∈ st.lined ↔ (k, .acceptPlayback) ∈ st.queue ∨ k ∈ st.scheduled := by
  simp [lined]

theorem brings_of_queue {e : Nat × Instruction} (h : e ∈ st.queue) : st.Brings e.1 e.2 :=
  .inr (List.mem_append_left _ (List.mem_append_left _ h))

theorem brings_of_scheduled (h : k ∈ st.scheduled) : st.Brings k .acceptPlayback :=
  .inr (List.mem_append_right _ (List.mem_map_of_mem h))

theorem brings_acquire : (st.acquire op i).Brings op i := by
  unfold acquire
  split
  · exact .inl ⟨_, rfl, rfl, List.mem_cons_self⟩
  · exact brings_of_queue (e := (op, i)) (by simp)

theorem lined_acquire (st : State) (op : Nat) (i : Instruction) :
    st.queue ⊆ (st.acquire op i).queue ∧ st.scheduled ⊆ (st.acquire op i).scheduled := by
  unfold acquire
  split <;> simp

theorem lined_submit (st : State) (op : Nat) (reply : Value) :
    st.queue ⊆ (st.submit op reply).1.queue ∧ st.scheduled ⊆ (st.submit op reply).1.scheduled := by
  unfold submit
  split
  · simp
  · exact lined_acquire st op _

theorem lined_step (hgrant : m ≠ .grant) (harrive : m ≠ .arrive) :
    st.queue ⊆ (st.step s m).1.queue ∧ st.scheduled ⊆ (st.step s m).1.scheduled := by
  have hstays : st.queue ⊆ st.queue ∧ st.scheduled ⊆ st.scheduled :=
    ⟨List.Subset.refl _, List.Subset.refl _⟩
  cases m with
  | begin operation =>
    cases operation with
    | transcript text =>
      simp only [step, State.begin]
      split <;> exact hstays
    | submit reply => exact lined_submit { st with nextOp := st.nextOp + 1 } _ _
    | start vars | run | speechComplete =>
      exact lined_acquire { st with nextOp := st.nextOp + 1 } _ _
  | answer op reply =>
    simp only [step, answer]
    split
    · split
      · exact hstays
      · exact lined_submit { st with echoes := st.echoes.filter (·.1 ≠ op) } _ _
    · split
      · split
        · exact hstays
        · split <;> exact hstays
      · exact hstays
  | tick =>
    rcases tick_cases s st with heq | ⟨op, -, heq⟩ | ⟨op, i, rest, -, heq⟩
    · simpa only [step, heq] using hstays
    · simpa only [step, heq] using hstays
    · simp only [step, heq, carryOut]
      cases (s.perform st.memory.context i).outcome <;> exact hstays
  | notify | notifyFromAfar =>
    simp only [step]
    split
    · exact ⟨List.Subset.refl _, List.subset_append_left _ _⟩
    · exact hstays
  | grant => exact absurd rfl hgrant
  | arrive => exact absurd rfl harrive
  | reset | restore c | unsubscribe => exact hstays

theorem queued_step {e : Nat × Instruction} (h : e ∈ st.queue) (m : Move) :
    (st.step s m).1.Brings e.1 e.2 := by
  by_cases hgrant : m = .grant
  · subst hgrant
    simp only [step]
    split
    · rename_i op first queue hholder hqueue
      rcases List.mem_cons.mp (hqueue ▸ h) with rfl | hwaits
      · exact .inl ⟨_, rfl, rfl, List.mem_cons_self⟩
      · exact brings_of_queue hwaits
    · exact brings_of_queue h
  · by_cases harrive : m = .arrive
    · subst harrive
      simp only [step]
      split
      · rename_i op later hscheduled
        exact brings_of_queue ((lined_acquire { st with scheduled := later } op _).1 h)
      · exact brings_of_queue h
    · exact brings_of_queue ((lined_step hgrant harrive).1 h)

theorem scheduled_step (h : k ∈ st.scheduled) (m : Move) :
    (st.step s m).1.Brings k .acceptPlayback := by
  by_cases hgrant : m = .grant
  · subst hgrant
    simp only [step]
    split <;> exact brings_of_scheduled h
  · by_cases harrive : m = .arrive
    · subst harrive
      simp only [step]
      split
      · rename_i op later hscheduled
        rcases List.mem_cons.mp (hscheduled ▸ h) with rfl | hlater
        · exact brings_acquire
        · exact brings_of_scheduled ((lined_acquire { st with scheduled := later } op _).2 hlater)
      · exact brings_of_scheduled h
    · exact brings_of_scheduled ((lined_step hgrant harrive).2 h)

theorem holder_step (hholder : st.holder = some ⟨op, agenda, none⟩) (hm : m ≠ .tick)
    (hmakes : Makes s st m st' log) : st'.holder = some ⟨op, agenda, none⟩ := by
  cases hmakes with
  | passes hmemory hsame | resets hmemory hsame | restores hmemory hsame =>
    exact hsame.trans hholder
  | opens hnone => simp [hholder] at hnone
  | hears hbefore | learns hbefore | breaks hbefore => simp [hholder] at hbefore
  | ends | acts => exact absurd rfl hm

theorem Brings.stays (h : st.Brings k .acceptPlayback)
    (hphase : ∀ h, st.holder = some h → Phase h.call h.agenda)
    (hmakes : Makes s st m (st.step s m).1 (st.step s m).2) :
    (st.step s m).1.Brings k .acceptPlayback ∨
      m = .tick ∧ st.holder = some ⟨k, [.acceptPlayback], none⟩ := by
  rcases h with ⟨⟨op, agenda, call⟩, hholder, rfl, hmem⟩ | hlined
  · obtain ⟨rfl, rfl⟩ : agenda = [.acceptPlayback] ∧ call = none := by
      exact (hphase _ hholder).of_resumes hmem rfl
    by_cases hm : m = .tick
    · exact .inr ⟨hm, hholder⟩
    · exact .inl (.inl ⟨_, holder_step hholder hm hmakes, rfl, List.mem_cons_self⟩)
  · rcases mem_lined_playback.mp hlined with hqueue | hscheduled
    · exact .inl (queued_step hqueue m)
    · exact .inl (scheduled_step hscheduled m)

theorem Brings.mem_operations (h : st.Brings op i) : op ∈ st.operations := by
  rcases h with ⟨holder, hholder, rfl, -⟩ | hlined
  · simp [operations, hholder]
  · simp only [lined, List.mem_append, List.mem_map, Prod.mk.injEq] at hlined
    simp only [operations, List.mem_append, List.mem_map]
    grind

end State

/-! ## What is expected of the synthesizer -/

theorem waitingNode?_eq_none_iff {c : Context} (h : c.Sound s.graph)
    (hawaiting : c.awaiting = some .speechPlayback) :
    s.waitingNode? c = none ↔ c.cursor = some "" := by
  have hs : c.status = .suspended := h.suspended_iff.mpr (by simp [hawaiting])
  obtain ⟨id, hid⟩ := Option.ne_none_iff_exists'.mp (h.cursor_ne (.inr hs))
  obtain ⟨n, hn⟩ := h.node_of_cursor id hid
  simp [Setup.waitingNode?, hid, hn]

theorem resumed_by_playback {c : Context} (h : c.Sound s.graph)
    (hawaiting : c.awaiting = some .speechPlayback) :
    ((s.perform c .acceptPlayback).events.foldl Context.apply c).awaiting = none ↔
      c.cursor ≠ some "" := by
  have hp : Performs s c .acceptPlayback (s.perform c .acceptPlayback) := acceptPlayback_performs
  rw [ne_eq, ← waitingNode?_eq_none_iff h hawaiting]
  generalize s.perform c .acceptPlayback = p at hp ⊢
  cases hp with
  | resumes hnode => simp [hnode, Context.apply]
  | ignores hignored =>
    have hnone : s.waitingNode? c = none :=
      Option.eq_none_iff_forall_ne_some.mpr fun node hnode => hignored node hnode hawaiting
    simp [hnone, hawaiting]

namespace State

/-- What is under way while a session waits for a playback. -/
inductive Expects (s : Setup) (told : Bool) (log : List Happening) (st : State) : Prop
  /-- The session waits for nothing of the kind. -/
  | idle (h : st.memory.context.awaiting ≠ some .speechPlayback) : Expects s told log st
  /-- The session waits where it will not be resumed. -/
  | stuck (h : st.memory.context.cursor = some "") : Expects s told log st
  /-- The playback is about to be requested. -/
  | due {op : Nat} {requests : List Request} (howed : s.Owed .speechPlayback requests)
      (h : State.About s op requests st) : Expects s told log st
  /-- The playback is requested, and not yet reported. -/
  | asked (h : st.speaks) (htold : told = false) : Expects s told log st
  /-- The playback is reported, and the session is to be resumed. -/
  | reported {k : Nat} (hk : .scheduled k ∈ log) (h : st.Brings k .acceptPlayback) :
      Expects s told log st

theorem About.speaks {requests : List Request} (h : State.About s op requests st)
    (howed : s.Owed .speechPlayback requests) : (st.step s .tick).1.speaks := by
  obtain ⟨⟨call, run, hholder, hperform⟩, -⟩ := h
  cases howed with
  | nobody hhost hkind => exact absurd rfl hkind
  | @asks r hkind hhost =>
    obtain ⟨text, rfl⟩ : ∃ text, r = .speech text := by
      cases r <;> simp_all [Request.kind?, SuspendReason.request]
    rcases hperform with ⟨hnil, -⟩ | ⟨r, hr, hp⟩
    · simp at hnil
    · obtain rfl : r = .speech text := by simpa using hr.symm
      simp [step, tick_eq_carryOut hholder hp, carryOut, State.speaks]

theorem about_of_awaiting (course : Course s Unbroken {} log st) (hm : Unbroken st m)
    (hsuspends : ∃ e ∈ events (st.step s m).2, e.Suspends)
    (hawaiting : (st.step s m).1.memory.context.awaiting = some .speechPlayback) :
    ∃ op requests, s.Owed .speechPlayback requests ∧ State.About s op requests (st.step s m).1 := by
  obtain ⟨e, he, hsuspends⟩ := hsuspends
  obtain ⟨reason, choices, rfl⟩ : ∃ reason choices, e = .suspended reason choices := by
    cases e <;> first | exact ⟨_, _, rfl⟩ | exact hsuspends.elim
  obtain rfl : reason = .speechPlayback :=
    Option.some.inj ((awaiting_of_suspended he).symm.trans hawaiting)
  obtain ⟨c, hchanged⟩ :
      ∃ c, .changed (.suspended .speechPlayback choices) c ∈ (st.step s m).2 := by
    obtain ⟨x, hx, hevent⟩ := List.mem_filterMap.mp he
    cases x <;> simp only [Happening.event?, Option.some.injEq, reduceCtorEq] at hevent
    exact ⟨_, hevent ▸ hx⟩
  have hundisturbed := course.mono fun _ _ hm => hm.undisturbed
  exact (hundisturbed.about_of_suspended hm.undisturbed hchanged).2

theorem Expects.waits (course : Course s Unbroken {} log st) (hm : Unbroken st m)
    (htold : told = true → st.speaks) (hreport : st.speaks → ¬ (st.step s m).1.speaks → told)
    (hawaiting : (st.step s m).1.memory.context.awaiting = some .speechPlayback)
    (hsame : (st.step s m).1.memory.context.awaiting = st.memory.context.awaiting)
    (hcursor : (st.step s m).1.memory.context.cursor = st.memory.context.cursor)
    (h : st.Expects s told log) :
    (st.step s m).1.Expects s ((st.step s m).1.speaks && (told || m.reports))
      (log ++ (st.step s m).2) := by
  have hmakes := course.makes m
  cases h with
  | idle h => exact absurd (hsame.symm.trans hawaiting) h
  | stuck h => exact .stuck (hcursor.trans h)
  | due howed h =>
    by_cases htick : m = .tick
    · subst htick
      have hbefore : st.speaks = false := by
        obtain ⟨⟨call, run, hholder, -⟩, -⟩ := h
        simp [State.speaks, hholder]
      have huntold : told = false := by simpa [hbefore] using htold
      exact .asked (h.speaks howed) (by simp [huntold, Move.reports])
    · have hnumbered := course.numbered State.numbered_new
      exact .due howed (h.wait hnumbered hm.undisturbed htick hmakes).1
  | asked h huntold =>
    by_cases hreports : m.reports
    · rw [course.noted h hreports]
      have hnoted : st.nextOp ∈ st.schedule.1.scheduled := by simp [schedule]
      exact .reported (by simp [schedule]) (brings_of_scheduled hnoted)
    · by_cases hspeaks : (st.step s m).1.speaks
      · exact .asked hspeaks (by simp [huntold, hreports])
      · simp [hreport h hspeaks] at huntold
  | reported hk h =>
    rename_i k
    rcases h.stays (fun _ hholder => course.phase hholder) hmakes with hstays | ⟨rfl, hholder⟩
    · exact .reported (List.mem_append_left _ hk) hstays
    · -- it is performed, and the session waits no more
      have hkeeps := (course.mono fun _ _ hm => hm.considerate).standing_considerate
      have hresumed := resumed_by_playback hkeeps.healthy.sound (hsame.symm.trans hawaiting)
      refine .stuck (hcursor.trans (Decidable.not_not.mp fun hne => ?_))
      have hnext : (st.step s .tick).1.memory.context.awaiting = none := by
        rw [State.step, tick_eq_carryOut hholder rfl, carryOut_memory]
        exact hresumed.mpr hne
      simp [hnext] at hawaiting

/-- What a session expects stays under way until it waits no more. -/
theorem Expects.step (course : Course s Unbroken {} log st) (hm : Unbroken st m)
    (htold : told = true → st.speaks) (hreport : st.speaks → ¬ (st.step s m).1.speaks → told)
    (h : st.Expects s told log) :
    (st.step s m).1.Expects s ((st.step s m).1.speaks && (told || m.reports))
      (log ++ (st.step s m).2) := by
  by_cases hidle : (st.step s m).1.memory.context.awaiting ≠ some .speechPlayback
  · exact .idle hidle
  have hawaiting := Decidable.not_not.mp hidle
  by_cases hsuspends : ∃ e ∈ events (st.step s m).2, e.Suspends
  · obtain ⟨op, requests, howed, habout⟩ := about_of_awaiting course hm hsuspends hawaiting
    exact .due howed habout
  · have hcontext : (st.step s m).1.memory.context = _ := step_context hm.2.1
    obtain ⟨hsame, hcursor⟩ := Context.foldl_waits
      (fun e he hs => hsuspends ⟨e, he, hs⟩) (c := st.memory.context)
      (by rw [← hcontext, hawaiting]; simp)
    rw [← hcontext] at hsame hcursor
    exact h.waits course hm htold hreport hawaiting hsame hcursor

theorem Expects.steps (course : Course s Unbroken {} log st) (hms : st.Allows s Unbroken ms)
    (hreported : st.Reported s told ms) (htold : told = true → st.speaks)
    (h : st.Expects s told log) :
    ∃ told', (st.steps s ms).1.Expects s told' (log ++ (st.steps s ms).2) := by
  induction ms generalizing st log told with
  | nil => exact ⟨told, by simpa [State.steps] using h⟩
  | cons m rest ih =>
    have hnext := h.step course hms.1 htold hreported.1
    have htold' : ((st.step s m).1.speaks && (told || m.reports)) = true →
        (st.step s m).1.speaks := fun h => (Bool.and_eq_true_iff.mp h).1
    obtain ⟨told', hend⟩ := ih (course.tail m hms.1) hms.2 hreported.2 htold' hnext
    exact ⟨told', by simpa only [State.steps, List.append_assoc] using hend⟩

end State

/-- As long as every playback is reported while it is requested, its end is only lost at a node with
an empty id. When a session waits for a playback and nobody holds it, an operation that was noted
down for a report is still on its way to resume it; without such an operation, the node that the
session waits at has an empty id. When an operation looks at the end of a playback, the session
waits no more, unless the id is empty. In a graph without empty ids this does not happen. -/
theorem playback_awaited_unless_lost (hms : State.Allows s Unbroken {} ms)
    (hreported : State.Reported s false {} ms)
    (hawaiting : (State.steps s {} ms).1.memory.context.awaiting = some .speechPlayback) :
    let st := (State.steps s {} ms).1
    let log := (State.steps s {} ms).2
    let c := st.memory.context
    (st.holder = none → c.cursor ≠ some "" →
      ∃ k, .scheduled k ∈ log ∧ st.Brings k .acceptPlayback) ∧
    (st.holder = none → (∀ k, .scheduled k ∈ log → k ∉ st.operations) → c.cursor = some "") ∧
    (∀ k, st.holder = some ⟨k, [.acceptPlayback], none⟩ →
      ((st.step s .tick).1.memory.context.awaiting = none ↔ c.cursor ≠ some "")) ∧
    ((∀ n ∈ s.graph.nodes, n.id ≠ "") → c.cursor ≠ some "") := by
  have course : Course s Unbroken {} _ (State.steps s {} ms).1 := Course.of_steps ms hms
  have hsound : (State.steps s {} ms).1.memory.context.Sound s.graph :=
    (course.mono fun _ _ hm => hm.considerate).standing_considerate.healthy.sound
  obtain ⟨told, hexpects⟩ := State.Expects.steps .refl hms hreported (by simp)
    (.idle (by simp [Context.initial]))
  have hunderway : (State.steps s {} ms).1.holder = none →
      (State.steps s {} ms).1.memory.context.cursor ≠ some "" →
        ∃ k, .scheduled k ∈ (State.steps s {} ms).2 ∧
          (State.steps s {} ms).1.Brings k .acceptPlayback := by
    intro hfree hcursor
    cases hexpects with
    | idle h => exact absurd hawaiting h
    | stuck h => exact absurd h hcursor
    | due howed h =>
      obtain ⟨⟨call, run, hholder, -⟩, -⟩ := h
      simp [hfree] at hholder
    | asked h =>
      obtain ⟨op, agenda, text, hholder⟩ := State.speaks_iff.mp h
      simp [hfree] at hholder
    | reported hk h => exact ⟨_, hk, h⟩
  refine ⟨hunderway, fun hfree hover => ?_, fun k hholder => ?_, fun hids hcursor => ?_⟩
  · refine Decidable.byContradiction fun hcursor => ?_
    obtain ⟨k, hk, hbrings⟩ := hunderway hfree hcursor
    exact hover k hk hbrings.mem_operations
  · rw [State.step, State.tick_eq_carryOut hholder rfl, State.carryOut_memory]
    exact resumed_by_playback hsound hawaiting
  · obtain ⟨n, hn⟩ := hsound.node_of_cursor "" hcursor
    obtain ⟨hmem, hid⟩ := FlowGraph.mem_of_node? hn
    exact hids n hmem hid

/-- A session in voice mode whose second node speaks. -/
def speaking : Setup where
  graph :=
    { nodes := [⟨"s", .start {}⟩, ⟨"t", .tts { text := "Hello" }⟩]
      edges := [{ source := "s", target := "t" }]
      sound := by decide }
  executor :=
    { config := { startDelay := .int 0, nodeDelay := .int 0, voiceMode := .bool true } }
  hasSynthesizer := true

/-- The same session, but for the id of the second node. -/
def speakingNowhere : Setup :=
  { speaking with
    graph :=
      { nodes := [⟨"s", .start {}⟩, ⟨"", .tts { text := "Hello" }⟩]
        edges := [{ source := "s", target := "" }]
        sound := by decide } }

/-- From the start until the operation that requests the playback is over. The playback is reported
while it is requested. -/
def toPlayback : List Move :=
  .begin (.start []) :: List.replicate 10 .tick ++
    [.answer 0 (.value .null), .tick, .tick, .notifyFromAfar, .answer 0 (.value .null), .tick,
      .tick]

theorem reported_playback_is_underway :
    let st := (State.steps speaking {} toPlayback).1
    st.memory.context.awaiting = some .speechPlayback ∧ st.holder = none ∧
      ∃ k, .scheduled k ∈ (State.steps speaking {} toPlayback).2 ∧
        st.Brings k .acceptPlayback := by
  have hms : State.Allows speaking Unbroken {} toPlayback :=
    State.allows_of_forall (by simp [toPlayback, Unbroken])
  obtain ⟨hunderway, -⟩ := playback_awaited_unless_lost hms (by decide) (by decide)
  exact ⟨by decide, by decide, hunderway (by decide) (by decide)⟩

/-- At a node with an empty id, the end of the playback arrives and is looked at, and the session
waits for it with nothing under way. -/
theorem playback_lost_at_empty_id :
    let ms := toPlayback ++ [.arrive, .tick, .tick]
    let st := (State.steps speakingNowhere {} ms).1
    State.Allows speakingNowhere Unbroken {} ms ∧ State.Reported speakingNowhere false {} ms ∧
      st.memory.context.awaiting = some .speechPlayback ∧ st.holder = none ∧
      st.operations = [] := by
  refine ⟨State.allows_of_forall (by simp [toPlayback, Unbroken]), ?_⟩
  decide

end ChatFlow.Session
