import ChatFlow.Proofs.Simulation.Play

/-!
# Who hears a report

A synthesizer that reports a playback does not say whose it was, so the report reaches every session
that listens. A session that waits for a playback is resumed, whoever has spoken
(`play_report_resumes`), and for every other one nothing happens at all (`play_report_ignored`).

On the way, a session that has not been resumed has nothing to do but to look at reports
(`State.Heeds`), so it makes no request and nobody answers it (`Stage.Heeding`).
-/

namespace ChatFlow.Session

/-- A session with a context is resumed when a playback is over. -/
def Setup.AwaitsPlayback (s : Setup) (c : Context) : Prop :=
  c.awaiting = some .speechPlayback ∧ (s.waitingNode? c).isSome

instance {s : Setup} {c : Context} : Decidable (s.AwaitsPlayback c) :=
  inferInstanceAs (Decidable (_ ∧ _))

/-- The moves of a session that nobody addresses. -/
def Move.Unasked : Move → Prop
  | .tick => True
  | .grant => True
  | .arrive => True
  | .notify => True
  | .notifyFromAfar => True
  | _ => False

theorem Move.IsReport.unasked {m : Move} (h : m.IsReport) : m.Unasked := by
  cases m <;> trivial

variable {s : Setup} {st : State} {c : Context} {m : Move} {op : Nat}

theorem acceptPlayback_awaited (h : s.AwaitsPlayback c) :
    ∃ todo, s.perform c .acceptPlayback = { events := [.resumed], outcome := .proceed todo } := by
  obtain ⟨hawaiting, hnode⟩ := h
  obtain ⟨node, hnode⟩ := Option.isSome_iff_exists.mp hnode
  exact ⟨_, by simp only [Setup.perform, Setup.acceptPlayback, hnode, hawaiting]; rfl⟩

theorem acceptPlayback_ignored (h : ¬ s.AwaitsPlayback c) :
    s.perform c .acceptPlayback = { outcome := .stop } := by
  simp only [Setup.perform, Setup.acceptPlayback]
  cases hnode : s.waitingNode? c with
  | none => rfl
  | some node =>
    have hawaiting : c.awaiting ≠ some .speechPlayback := fun hawaiting =>
      h ⟨hawaiting, by simp [hnode]⟩
    simp [hawaiting]

namespace State

/-- A session has a context and has nothing to do but to look whether it waits for a playback. -/
structure Heeds (st : State) (c : Context) : Prop where
  context_eq : st.memory.context = c
  holder : ∀ h, st.holder = some h → h.call = none ∧ (h.agenda = [] ∨ h.agenda = [.acceptPlayback])
  queue : ∀ e ∈ st.queue, e.2 = .acceptPlayback

/-- A report is still to be looked at. -/
def Pressed (st : State) : Prop :=
  (∃ op, st.holder = some ⟨op, [.acceptPlayback], none⟩) ∨ st.queue ≠ [] ∨ st.scheduled ≠ []

theorem AtRest.heeds (h : st.AtRest) : st.Heeds st.memory.context :=
  ⟨rfl, by simp [h.holder], by simp [h.queue]⟩

theorem AtRest.not_pressed (h : st.AtRest) : ¬ st.Pressed := by
  simp [Pressed, h.holder, h.queue, h.scheduled]

theorem Heeds.acquire (h : st.Heeds c) (op : Nat) : (st.acquire op .acceptPlayback).Heeds c := by
  unfold State.acquire
  split
  · refine ⟨h.context_eq, fun holder hholder => ?_, h.queue⟩
    obtain rfl := Option.some.inj hholder
    exact ⟨rfl, .inr rfl⟩
  · refine ⟨h.context_eq, h.holder, fun e he => ?_⟩
    rcases List.mem_append.mp he with he | he
    · exact h.queue e he
    · rw [List.mem_singleton.mp he]

theorem pressed_acquire (st : State) (op : Nat) : (st.acquire op .acceptPlayback).Pressed := by
  unfold acquire
  split
  · exact .inl ⟨op, rfl⟩
  · exact .inr (.inl (by simp))

/-- What an unasked move leaves of a session that has nothing to do but to look at reports. -/
structure Lingers (s : Setup) (st : State) (c : Context) (m : Move) : Prop where
  heeds : (st.step s m).1.Heeds c
  contexts_eq : contexts (st.step s m).2 = []
  calls_eq : calls (st.step s m).2 = []
  pressed : s.AwaitsPlayback c → st.Pressed → (st.step s m).1.Pressed

theorem Heeds.looks (h : st.Heeds c) (hholder : st.holder = some ⟨op, [.acceptPlayback], none⟩) :
    Lingers s st c .tick ∨
      s.AwaitsPlayback c ∧ contexts (st.step s .tick).2 = [c.apply .resumed] := by
  obtain ⟨rfl, -, hqueue⟩ := h
  by_cases hawaits : s.AwaitsPlayback st.memory.context
  · obtain ⟨todo, hp⟩ := acceptPlayback_awaited hawaits
    refine .inr ⟨hawaits, ?_⟩
    rw [step, tick_eq_carryOut hholder hp, contexts_carryOut]
    rfl
  · have hstep : st.step s .tick = ({ st with holder := some ⟨op, [], none⟩ }, []) := by
      rw [step, tick_eq_carryOut hholder (acceptPlayback_ignored hawaits)]
      simp [carryOut, Memory.after, Memory.log, Memory.applyAll]
    refine .inl ⟨?_, by simp [hstep], by rw [hstep]; rfl, fun hwaits => absurd hwaits hawaits⟩
    rw [hstep]
    refine ⟨rfl, fun holder hholder => ?_, hqueue⟩
    obtain rfl := Option.some.inj hholder
    exact ⟨rfl, .inl rfl⟩

theorem Heeds.lingers_same (h : st.Heeds c) (hstep : st.step s m = (st, [])) :
    Lingers s st c m := by
  refine ⟨?_, ?_, ?_, fun _ hp => ?_⟩ <;> rw [hstep]
  · exact h
  · rfl
  · rfl
  · exact hp

theorem Heeds.lingers_tick (h : st.Heeds c) :
    Lingers s st c .tick ∨
      s.AwaitsPlayback c ∧ contexts (st.step s .tick).2 = [c.apply .resumed] := by
  cases hholder : st.holder with
  | none =>
    have hidle : ∀ op agenda, st.holder ≠ some ⟨op, agenda, none⟩ := by simp [hholder]
    exact .inl (h.lingers_same (tick_idle hidle))
  | some holder =>
    obtain ⟨op, agenda, call⟩ := holder
    have hheld := h.holder ⟨op, agenda, call⟩ hholder
    obtain ⟨rfl, rfl | rfl⟩ : call = none ∧ (agenda = [] ∨ agenda = [.acceptPlayback]) := hheld
    · refine .inl ⟨?_, ?_, ?_, fun _ hp => ?_⟩ <;> rw [State.step, tick_over hholder]
      · exact ⟨h.context_eq, by simp, h.queue⟩
      · rfl
      · rfl
      · rcases hp with ⟨op', hagain⟩ | hp
        · simp [hholder] at hagain
        · exact .inr hp
    · exact h.looks hholder

theorem Heeds.lingers_grant (h : st.Heeds c) : Lingers s st c .grant := by
  cases hholder : st.holder with
  | some holder => exact h.lingers_same (by simp [State.step, hholder])
  | none =>
    cases hqueue : st.queue with
    | nil => exact h.lingers_same (by simp [State.step, hholder, hqueue])
    | cons e queue =>
      obtain ⟨op, first⟩ := e
      have hall := h.queue
      rw [hqueue] at hall
      obtain rfl : first = .acceptPlayback := hall _ List.mem_cons_self
      have hstep : st.step s .grant =
          ({ st with holder := some ⟨op, [.acceptPlayback], none⟩, queue := queue }, []) := by
        simp [State.step, hholder, hqueue]
      refine ⟨?_, ?_, ?_, fun _ _ => ?_⟩ <;> rw [hstep]
      · refine ⟨h.context_eq, fun holder hheld => ?_, fun e he => hall e (.tail _ he)⟩
        obtain rfl := Option.some.inj hheld
        exact ⟨rfl, .inr rfl⟩
      · rfl
      · rfl
      · exact .inl ⟨op, rfl⟩

theorem Heeds.lingers_arrive (h : st.Heeds c) : Lingers s st c .arrive := by
  cases hscheduled : st.scheduled with
  | nil => exact h.lingers_same (by simp [State.step, hscheduled])
  | cons op rest =>
    have hstep : st.step s .arrive =
        ({ st with scheduled := rest }.acquire op .acceptPlayback, []) := by
      simp [State.step, hscheduled]
    have hheeds : ({ st with scheduled := rest } : State).Heeds c :=
      ⟨h.context_eq, h.holder, h.queue⟩
    refine ⟨?_, ?_, ?_, fun _ _ => ?_⟩ <;> rw [hstep]
    · exact hheeds.acquire op
    · rfl
    · rfl
    · exact pressed_acquire _ op

theorem pressed_schedule (st : State) : st.schedule.1.Pressed := by
  simp [Pressed, schedule]

theorem Heeds.lingers_report (h : st.Heeds c) (hm : m.IsReport) : Lingers s st c m := by
  have hcases : st.step s m = (st, []) ∨ st.step s m = st.schedule := by
    cases m with
    | notify | notifyFromAfar =>
      simp only [State.step]
      split
      · exact .inr rfl
      · exact .inl rfl
    | _ => exact hm.elim
  rcases hcases with hsame | hnoted
  · exact h.lingers_same hsame
  · refine ⟨?_, ?_, ?_, fun _ _ => ?_⟩ <;> rw [hnoted]
    · exact ⟨h.context_eq, h.holder, h.queue⟩
    · rfl
    · rfl
    · exact pressed_schedule st

theorem Heeds.step (h : st.Heeds c) (hm : m.Unasked) :
    Lingers s st c m ∨ s.AwaitsPlayback c ∧ contexts (st.step s m).2 = [c.apply .resumed] := by
  cases m with
  | tick => exact h.lingers_tick
  | grant => exact .inl h.lingers_grant
  | arrive => exact .inl h.lingers_arrive
  | notify | notifyFromAfar => exact .inl (h.lingers_report trivial)
  | begin | answer | reset | restore | unsubscribe => exact hm.elim

end State

end ChatFlow.Session

namespace ChatFlow.Simulation

open Session

namespace Stage

variable {σ : Type} {w w' : Stage σ} {i j : Nat} {s : Setup} {st : State} {c : Context} {m : Move}
  {pressed : Prop}

/-! ## Reports that reach all sessions -/

theorem session_foldl_move (is : List Nat) (his : is.Nodup) (w : Stage σ) (m : Move) (j : Nat) :
    (is.foldl (fun w i => w.move i m) w).sessions[j]? =
      if j ∈ is then w.sessions[j]?.map fun e => (e.1, (e.2.step e.1 m).1)
      else w.sessions[j]? := by
  induction is generalizing w with
  | nil => simp
  | cons i rest ih =>
    obtain ⟨hi, hrest⟩ := List.nodup_cons.mp his
    rw [List.foldl_cons, ih hrest]
    by_cases hij : j = i
    · subst hij
      rw [if_neg hi, if_pos List.mem_cons_self]
      cases hj : w.sessions[j]? with
      | none => rw [move_none hj, hj]; rfl
      | some e => exact session_move_self hj m
    · rw [session_move_other hij]
      simp [hij]

theorem session_moveAll (hj : w.sessions[j]? = some (s, st)) (m : Move) :
    (w.moveAll m).sessions[j]? = some (s, (st.step s m).1) := by
  have hlt : j < w.sessions.length := (List.getElem?_eq_some_iff.mp hj).1
  rw [moveAll, session_foldl_move _ List.nodup_range, if_pos (List.mem_range.mpr hlt), hj]
  rfl

/-! ## Sessions that have not been resumed -/

/-- Nothing is seen of a session with a context, and nobody works for it. With `pressed`, a report
is still to be looked at. -/
structure Heeding (j : Nat) (s : Setup) (c : Context) (pressed : Prop) (w : Stage σ) : Prop where
  session : ∃ st, w.sessions[j]? = some (s, st) ∧ st.Heeds c ∧ (pressed → st.Pressed)
  frames : ∀ f ∈ w.frames, f.session ≠ j
  shown_eq : w.shown j = []

/-- A session that has waited for a playback with a context has been resumed. -/
structure Roused (j : Nat) (s : Setup) (c : Context) (w : Stage σ) : Prop where
  awaited : s.AwaitsPlayback c
  session : ∃ st, w.sessions[j]? = some (s, st)
  shown_eq : ∃ rest, w.shown j = c.apply .resumed :: rest

theorem Roused.carries {P : Move → Prop} (h : Roused j s c w) (hcarries : Carries P w w') :
    Roused j s c w' := by
  obtain ⟨st, hj⟩ := h.session
  obtain ⟨rest, hshown⟩ := h.shown_eq
  obtain ⟨ms, -, hafter, hmore⟩ := hcarries.goes j s st hj
  exact ⟨h.awaited, ⟨_, hafter⟩, _, by rw [hmore, hshown, List.cons_append]⟩

namespace Heeding

theorem move_other (h : Heeding j s c pressed w) (hij : i ≠ j) (m : Move) :
    Heeding j s c pressed (w.move i m) := by
  cases hi : w.sessions[i]? with
  | none => rwa [move_none hi]
  | some entry =>
    obtain ⟨s', st'⟩ := entry
    obtain ⟨st, hsession, hheeds⟩ := h.session
    refine ⟨⟨st, (session_move_other (Ne.symm hij) m).trans hsession, hheeds⟩, fun f hf => ?_,
      (shown_move_other (Ne.symm hij) m).trans h.shown_eq⟩
    rcases frame_cases hi hf with hf | ⟨hsession, -⟩
    · exact h.frames f hf
    · exact hsession ▸ hij

theorem move (h : Heeding j s c pressed w) (hp : pressed → s.AwaitsPlayback c)
    (hm : m.Unasked) (i : Nat) :
    Heeding j s c pressed (w.move i m) ∨ Roused j s c (w.move i m) := by
  by_cases hij : i = j
  · subst hij
    obtain ⟨st, hsession, hheeds, hpressed⟩ := h.session
    have hafter := session_move_self hsession m
    have hshown := shown_move_self hsession m
    rw [h.shown_eq, List.nil_append] at hshown
    rcases hheeds.step (s := s) hm with hlingers | ⟨hawaits, hresumed⟩
    · refine .inl ⟨⟨_, hafter, hlingers.heeds, fun h => hlingers.pressed (hp h) (hpressed h)⟩, ?_,
        hshown.trans hlingers.contexts_eq⟩
      rw [frames_move_quiet hsession hlingers.calls_eq]
      exact h.frames
    · exact .inr ⟨hawaits, ⟨_, hafter⟩, [], hshown.trans hresumed⟩
  · exact .inl (h.move_other hij m)

theorem reportAll (h : Heeding j s c pressed w) (hp : pressed → s.AwaitsPlayback c)
    (hm : m.IsReport) : Heeding j s c pressed (w.moveAll m) ∨ Roused j s c (w.moveAll m) :=
  moveAll_keeps (Q := fun w => Heeding j s c pressed w ∨ Roused j s c w)
    (fun i _ h => h.elim (fun h => h.move hp hm.unasked i)
      fun h => .inr (h.carries (carries_move (P := fun _ => True) trivial))) (.inl h)

theorem popped (h : Heeding j s c pressed w) {f : Frame} {rest : List Frame}
    (hframes : w.frames = f :: rest) :
    f.session ≠ j ∧ Heeding j s c pressed { w with frames := rest } :=
  ⟨h.frames f (by simp [hframes]), h.session,
    fun g hg => h.frames g (hframes ▸ List.mem_cons_of_mem _ hg), h.shown_eq⟩

theorem goes (h : Heeding j s c pressed w) (hp : pressed → s.AwaitsPlayback c)
    (hgoes : Goes w w') : Heeding j s c pressed w' ∨ Roused j s c w' := by
  have hplayed : ∀ {f : Frame} {rest : List Frame} (beats : List Beat), w.frames = f :: rest →
      Heeding j s c pressed { w with frames := { f with beats := beats } :: rest } :=
    fun beats hframes => by
      obtain ⟨hother, hpopped⟩ := h.popped hframes
      refine ⟨h.session, fun g hg => ?_, h.shown_eq⟩
      rcases List.mem_cons.mp hg with rfl | hg
      · exact hother
      · exact hpopped.frames g hg
  cases hgoes with
  | ticks => exact h.move (m := .tick) hp trivial _
  | grants => exact h.move (m := .grant) hp trivial _
  | @arrives i rest harrivals =>
    have hrest : Heeding j s c pressed { w with arrivals := rest } :=
      ⟨h.session, h.frames, h.shown_eq⟩
    exact hrest.move (m := .arrive) hp trivial i
  | plays hframes hbeats hcue =>
    rcases cue_cases hcue with ⟨m, -, rfl⟩ | ⟨m, -, hreport, rfl⟩
    · exact .inl ((hplayed _ hframes).move_other (h.popped hframes).1 m)
    · exact (hplayed _ hframes).reportAll hp hreport
  | @refuses f rest cue beats e hframes hbeats =>
    have hkept := hplayed beats hframes
    exact .inl ⟨hkept.session, hkept.frames, by rw [shown_note, hkept.shown_eq]; rfl⟩
  | fails hframes hbeats =>
    exact .inl ((h.popped hframes).2.move_other (h.popped hframes).1 _)
  | @answers f rest hframes hbeats =>
    obtain ⟨hother, hpopped⟩ := h.popped hframes
    have hheard : Heeding j s c pressed (({ w with frames := rest } : Stage σ).heard f.request) ∨
        Roused j s c (({ w with frames := rest } : Stage σ).heard f.request) :=
      heard_keeps (Q := fun w => Heeding j s c pressed w ∨ Roused j s c w) (.inl hpopped)
        (hpopped.reportAll hp trivial) _
    rw [answer_eq]
    rcases hheard with hheard | hroused
    · have hasked : ∀ inner, Heeding j s c pressed
          { ({ w with frames := rest } : Stage σ).heard f.request with inner := inner } :=
        fun _ => ⟨hheard.session, hheard.frames, hheard.shown_eq⟩
      exact .inl ((hasked _).move_other hother _)
    · have hasked : ∀ inner, Roused j s c
          { ({ w with frames := rest } : Stage σ).heard f.request with inner := inner } :=
        fun _ => ⟨hroused.awaited, hroused.session, hroused.shown_eq⟩
      exact .inr ((hasked _).carries (carries_move (P := fun _ => True) trivial))

theorem settles (h : Heeding j s c pressed w) (hp : pressed → s.AwaitsPlayback c)
    (hsettle : settle w = some w') : Heeding j s c pressed w' ∨ Roused j s c w' :=
  (settle_keeps (Q := fun w => Heeding j s c pressed w ∨ Roused j s c w)
    (fun _ _ h hgoes => h.elim (fun h => h.goes hp hgoes) fun h =>
      .inr (h.carries (hgoes.carries (P := fun _ => True) (fun _ _ => trivial)
        fun _ _ _ _ _ _ => trivial))) (.inl h) hsettle).1

end Heeding

theorem moveAll_notify (w : Stage σ) (j : Nat) :
    (w.moveAll .notify).frames = w.frames ∧ (w.moveAll .notify).shown j = w.shown j := by
  refine moveAll_keeps (Q := fun v => v.frames = w.frames ∧ v.shown j = w.shown j)
    (fun i v hv => ?_) ⟨rfl, rfl⟩
  cases hi : v.sessions[i]? with
  | none => rwa [move_none hi]
  | some entry =>
    obtain ⟨s, st⟩ := entry
    have hlog : calls (st.step s .notify).2 = [] ∧ contexts (st.step s .notify).2 = [] := by
      simp only [State.step]
      split <;> exact ⟨rfl, rfl⟩
    refine ⟨(frames_move_quiet hi hlog.1).trans hv.1, ?_⟩
    rw [(move_recorded hi .notify).shown_eq, hlog.2, ite_self, List.append_nil]
    exact hv.2

theorem AtRest.reported (hrest : w.AtRest) (i : Nat) (hj : w.sessions[j]? = some (s, st)) :
    Heeding j s st.memory.context (st.subscribed = true)
      ((w.readied i .report).moveAll .notify) := by
  have hquiet : st.AtRest := hrest.sessions _ (List.mem_of_getElem? hj)
  obtain ⟨hframes, hshown⟩ := moveAll_notify (w.readied i .report) j
  have hnone : ((w.readied i .report).moveAll .notify).frames = [] :=
    hframes.trans hrest.frames_eq
  have hready : (w.readied i .report).sessions[j]? = some (s, st) := hj
  have hnoted := hquiet.heeds.lingers_report (s := s) (m := .notify) trivial
  refine ⟨⟨_, session_moveAll hready .notify, hnoted.heeds, fun hlistens => ?_⟩, ?_, hshown⟩
  · simp only [State.step, hlistens, if_true]
    exact State.pressed_schedule st
  · simp [hnone]

theorem play_report_resumes (hbooks : Accounted [] [] w) (hrest : w.AtRest)
    (hsynth : w.around.hasSynthesizer = true) (hends : w.Ends i .report)
    (hj : w.sessions[j]? = some (s, st)) (hlistens : st.subscribed = true)
    (hawaits : s.AwaitsPlayback st.memory.context) :
    ∃ rest, contextsOf j (w.play i .report).2.entries =
      st.memory.context.apply .resumed :: rest := by
  have hcue : (w.readied i .report).cue i .report =
      .ok ((w.readied i .report).moveAll .notify) := by
    have hready : (w.readied i .report).around.hasSynthesizer = true := hsynth
    simp [cue, hready]
  obtain ⟨w', hsettle⟩ := Option.isSome_iff_exists.mp (hends _ hcue)
  obtain ⟨-, hquiet⟩ := ((hbooks.readied i .report).cue hcue).settles hsettle
  rw [play_of_settle hcue hsettle]
  rcases (hrest.reported i hj).settles (fun _ => hawaits) hsettle with hheeding | hroused
  · -- A stage that has settled has no session with a report left to take in.
    obtain ⟨st', hafter, -, hpressed⟩ := hheeding.session
    have hst : st'.AtRest := hquiet.sessions _ (List.mem_of_getElem? hafter)
    exact absurd (hpressed hlistens) hst.not_pressed
  · exact hroused.shown_eq

theorem play_report_ignored (hrest : w.AtRest) (hends : w.Ends i .report)
    (hj : w.sessions[j]? = some (s, st))
    (hignores : st.subscribed = false ∨ ¬ s.AwaitsPlayback st.memory.context) :
    contextsOf j (w.play i .report).2.entries = [] ∧
      ∃ st', (w.play i .report).1.sessions[j]? = some (s, st') ∧
        st'.memory.context = st.memory.context := by
  rcases hignores with hdeaf | hignores
  · obtain ⟨hsame, hnothing⟩ := play_still hrest hj hdeaf hends (.inr trivial)
    exact ⟨hnothing, st, hsame, rfl⟩
  · generalize hplayed : w.play i .report = p
    cases hplayed ▸ play_outcome hends with
    | @played v v' hcue hsettle =>
      have hall : v = (w.readied i .report).moveAll .notify := by
        simp only [cue] at hcue
        split at hcue
        · exact (Except.ok.inj hcue).symm
        · cases hcue
      subst hall
      have hunpressed : Heeding j s st.memory.context False
          ((w.readied i .report).moveAll .notify) := by
        obtain ⟨⟨st', hafter, hheeds, -⟩, hframes, hshown⟩ := hrest.reported i hj
        exact ⟨⟨st', hafter, hheeds, False.elim⟩, hframes, hshown⟩
      rcases hunpressed.settles False.elim hsettle with hheeding | hroused
      · obtain ⟨st', hafter, hheeds, -⟩ := hheeding.session
        exact ⟨hheeding.shown_eq, st', hafter, hheeds.context_eq⟩
      · exact absurd hroused.awaited hignores
    | refused hcue => exact ⟨rfl, st, hj, rfl⟩

end Stage

end ChatFlow.Simulation
