import ChatFlow.Proofs.Simulation.Play

/-!
# A session that is alone

In text mode a session is never disturbed by others: as long as a cue for it is played, everything
that happens on the stage happens in this session, and all others stay as they were (`Stage.Alone`).
So two stages on which the same session is alone go on alike, whatever others they have and whatever
the number of the session is (`Stage.Alike`). `Stage.play_twins` says so of whole cues, including
that one comes to an end if the other does.
-/

namespace ChatFlow.Simulation

open Session

/-- What can be seen by one who does not know the numbers of the sessions. -/
def Entry.unnumbered : Entry → Entry
  | .context _ c => .context 0 c
  | .called r => .called r
  | .failed e => .failed e

/-- What came of a cue, for one who does not know the numbers of the sessions. -/
def Played.unnumbered (p : Played) : Played :=
  { p with entries := p.entries.map Entry.unnumbered }

/-- Every answer depends on the request alone, and nothing else comes in the middle of a request. -/
structure Surroundings.Steady {σ : Type} (around : Surroundings σ) : Prop where
  uninterrupted : around.interruptions = []
  answer_eq : ∀ x y r, (around.answer x r).1 = (around.answer y r).1

namespace Stage

variable {σ : Type} {base base' w w' v : Stage σ} {i j : Nat} {s : Setup} {st : State} {m : Move}
  {c : Cue}

/-! ## One session -/

/-- On the way from a stage at rest, nothing happens but in one session. -/
structure Alone (base : Stage σ) (i : Nat) (s : Setup) (st : State) (w : Stage σ) : Prop where
  books : Accounted [] [] w
  around_eq : w.around = base.around
  mine : w.sessions[i]? = some (s, st)
  others : ∀ k, k ≠ i → w.sessions[k]? = base.sessions[k]?
  arrivals_eq : w.arrivals = []
  frames : ∀ f ∈ w.frames, f.session = i

theorem Alone.move (h : Alone base i s st w) (hm : ¬ m.IsReport) :
    Alone base i s (st.step s m).1 (w.move i m) := by
  refine ⟨h.books.move i m, around_move.trans h.around_eq, session_move_self h.mine m,
    fun k hk => (session_move_other hk m).trans (h.others k hk), ?_, fun f hf => ?_⟩
  · rw [(move_recorded h.mine m).arrivals_eq, notes_step hm]
    simpa using h.arrivals_eq
  · exact (frame_cases h.mine hf).elim (h.frames f) And.left

theorem findIdx?_alone {α : Type} {p : α → Bool} {l : List α} {a : α} (hi : l[i]? = some a)
    (hothers : ∀ k b, k ≠ i → l[k]? = some b → p b = false) :
    l.findIdx? p = if p a then some i else none := by
  obtain ⟨hlt, rfl⟩ := List.getElem?_eq_some_iff.mp hi
  split
  · rename_i ha
    refine List.findIdx?_eq_some_iff_getElem.mpr ⟨hlt, ha, fun k hk => ?_⟩
    have hlt' : k < l.length := Nat.lt_trans hk hlt
    simp [hothers k _ (Nat.ne_of_lt hk) (List.getElem?_eq_getElem hlt')]
  · rename_i ha
    refine List.findIdx?_eq_none_iff.mpr fun b hb => ?_
    obtain ⟨k, hk⟩ := List.mem_iff_getElem?.mp hb
    by_cases hki : k = i
    · subst hki
      obtain rfl := Option.some.inj (hi.symm.trans hk)
      simpa using ha
    · exact hothers k b hki hk

theorem Alone.next_eq (h : Alone base i s st w) (hbase : base.AtRest) :
    w.next? = if st.isSettled then
        if st.holder.isNone && !st.queue.isEmpty then some (w.move i .grant) else w.resume
      else some (w.move i .tick) := by
  have hrest : ∀ k e, k ≠ i → w.sessions[k]? = some e → e.2.AtRest := fun k e hk he =>
    hbase.sessions e (List.mem_of_getElem? ((h.others k hk).symm.trans he))
  -- The others are at rest, so both searches find this session or none.
  have hbusy : w.sessions.findIdx? (fun e => !e.2.isSettled) =
      if !st.isSettled then some i else none :=
    findIdx?_alone h.mine fun k e hk he => by simp [State.isSettled, (hrest k e hk he).holder]
  have hqueue : w.sessions.findIdx? (fun e => e.2.holder.isNone && !e.2.queue.isEmpty) =
      if st.holder.isNone && !st.queue.isEmpty then some i else none :=
    findIdx?_alone h.mine fun k e hk he => by simp [(hrest k e hk he).queue]
  unfold next?
  rw [hbusy, h.arrivals_eq, grantOrResume, hqueue]
  cases st.isSettled <;> simp
  split <;> simp_all

/-- The stage when its last request has been taken up by whoever answers it. -/
def asked (w : Stage σ) (f : Frame) (rest : List Frame) : Stage σ :=
  { w with frames := rest, inner := (w.around.answer w.inner f.request).2 }

/-- The answer to a request. -/
def replyTo (w : Stage σ) (f : Frame) : Reply :=
  (w.around.answer w.inner f.request).1

theorem Alone.popped (h : Alone base i s st w) {f : Frame} {rest : List Frame}
    (hframes : w.frames = f :: rest) :
    f.session = i ∧ Accounted [f] [] { w with frames := rest } := by
  exact ⟨h.frames f (by simp [hframes]), h.books.popped hframes⟩

theorem Alone.resume_eq (h : Alone base i s st w) (hquiet : base.around.interruptions = [])
    (htext : s.voiceMode = false) {f : Frame} {rest : List Frame} (hframes : w.frames = f :: rest) :
    w.resume = some ((w.asked f rest).move i (.answer f.op (w.replyTo f))) := by
  obtain ⟨rfl, hdue⟩ := h.popped hframes
  have hbeats : f.beats = [] := h.books.unbroken (h.around_eq ▸ hquiet) f (by simp [hframes])
  have hsilent :
      ({ w with frames := rest } : Stage σ).heard f.request = { w with frames := rest } :=
    hdue.heard_eq fun _ s' st' hi => by
      obtain ⟨rfl, -⟩ := Prod.mk.inj (Option.some.inj (h.mine.symm.trans hi))
      exact htext
  unfold resume
  simp only [hframes, hbeats, answer_eq, hsilent]
  rfl

theorem Alone.answered (h : Alone base i s st w) {f : Frame} {rest : List Frame}
    (hframes : w.frames = f :: rest) (reply : Reply) :
    Alone base i s (st.step s (.answer f.op reply)).1
      ((w.asked f rest).move i (.answer f.op reply)) := by
  obtain ⟨rfl, hdue⟩ := h.popped hframes
  have hasked : Accounted [f] [] (w.asked f rest) := hdue.congr rfl rfl rfl rfl
  have hmine : (w.asked f rest).sessions[f.session]? = some (s, st) := h.mine
  refine ⟨hasked.answered reply, around_move.trans h.around_eq, session_move_self hmine _,
    fun k hk => (session_move_other hk _).trans (h.others k hk), ?_, fun g hg => ?_⟩
  · refine (move_recorded hmine _).arrivals_eq.trans ?_
    rw [notes_step (m := .answer f.op reply) id]
    simpa [asked] using h.arrivals_eq
  · rcases frame_cases hmine hg with hg | ⟨hsession, -⟩
    · exact h.frames g (hframes ▸ List.mem_cons_of_mem _ hg)
    · exact hsession

/-! ## The same session on two stages -/

/-- Two stages agree in all that concerns a session that is alone, which may have a number of its
own on each. -/
structure Alike (i j : Nat) (w v : Stage σ) : Prop where
  around_eq : w.around = v.around
  frames_eq : w.frames.map Frame.call = v.frames.map Frame.call
  awaited_eq : ∃ op : Option Nat, w.awaited = op.map (i, ·) ∧ v.awaited = op.map (j, ·)
  result_eq : w.result = v.result
  log_eq : w.log.map Entry.unnumbered = v.log.map Entry.unnumbered

theorem Alike.note (h : Alike i j w v) {e e' : Entry} (he : e.unnumbered = e'.unnumbered) :
    Alike i j (w.note e) (v.note e') :=
  ⟨h.around_eq, h.frames_eq, h.awaited_eq, h.result_eq, by simp [Stage.note, he, h.log_eq]⟩

theorem Alike.record (h : Alike i j w v) (x : Happening) :
    Alike i j (Stage.record i w x) (Stage.record j v x) := by
  cases x with
  | changed event c | restored c => exact h.note rfl
  | executed n => exact h
  | called op r =>
    have hvisible : w.around.isVisible r = v.around.isVisible r := by rw [h.around_eq]
    have hframes : ∀ beats beats' yields yields',
        List.map Frame.call (⟨i, op, r, beats, yields⟩ :: w.frames) =
          List.map Frame.call (⟨j, op, r, beats', yields'⟩ :: v.frames) := by
      simp [Frame.call, h.frames_eq]
    simp only [Stage.record, takeUp, hvisible]
    split
    · refine Alike.note ?_ rfl
      exact ⟨h.around_eq, hframes _ _ _ _, h.awaited_eq, h.result_eq, h.log_eq⟩
    · exact ⟨h.around_eq, hframes _ _ _ _, h.awaited_eq, h.result_eq, h.log_eq⟩
  | scheduled op => exact ⟨h.around_eq, h.frames_eq, h.awaited_eq, h.result_eq, h.log_eq⟩
  | finished op result =>
    obtain ⟨awaited, hw, hv⟩ := h.awaited_eq
    have hsame : w.awaited = some (i, op) ↔ v.awaited = some (j, op) := by
      cases awaited <;> simp [hw, hv]
    simp only [Stage.record, hsame]
    split
    · exact ⟨h.around_eq, h.frames_eq, h.awaited_eq, rfl, h.log_eq⟩
    · cases result with
      | error e => exact h.note rfl
      | ok c => exact h

theorem Alike.move (h : Alike i j w v) (hi : w.sessions[i]? = some (s, st))
    (hj : v.sessions[j]? = some (s, st)) (m : Move) : Alike i j (w.move i m) (v.move j m) := by
  rw [move_eq hi, move_eq hj]
  have hset : Alike i j { w with sessions := w.sessions.set i (s, (st.step s m).1) }
      { v with sessions := v.sessions.set j (s, (st.step s m).1) } :=
    ⟨h.around_eq, h.frames_eq, h.awaited_eq, h.result_eq, h.log_eq⟩
  generalize (st.step s m).2 = log
  generalize { w with sessions := w.sessions.set i (s, (st.step s m).1) } = w at hset
  generalize { v with sessions := v.sessions.set j (s, (st.step s m).1) } = v at hset
  induction log generalizing w v with
  | nil => exact hset
  | cons x log ih => exact ih _ _ (hset.record x)

/-- The same session is alone on two stages that agree in all that concerns it. -/
structure Twins (base base' : Stage σ) (i j : Nat) (s : Setup) (w v : Stage σ) : Prop where
  alone : ∃ st, Alone base i s st w ∧ Alone base' j s st v
  alike : Alike i j w v

theorem Twins.next (h : Twins base base' i j s w v) (hbase : base.AtRest) (hbase' : base'.AtRest)
    (hsteady : base.around.Steady) (htext : s.voiceMode = false) :
    (w.next? = none ∧ v.next? = none) ∨
      ∃ w' v', w.next? = some w' ∧ v.next? = some v' ∧ Twins base base' i j s w' v' := by
  obtain ⟨⟨st, hw, hv⟩, halike⟩ := h
  have hmoves : ∀ m : Move, ¬ m.IsReport →
      Twins base base' i j s (w.move i m) (v.move j m) := fun m hm =>
    ⟨⟨_, hw.move hm, hv.move hm⟩, halike.move hw.mine hv.mine m⟩
  have hquiet' : base'.around.interruptions = [] := by
    rw [← hv.around_eq, ← halike.around_eq, hw.around_eq]
    exact hsteady.uninterrupted
  rw [hw.next_eq hbase, hv.next_eq hbase']
  split
  · split
    · exact .inr ⟨_, _, rfl, rfl, hmoves .grant id⟩
    · cases hframes : w.frames with
      | nil =>
        have hnone : v.frames = [] := by simpa [hframes] using halike.frames_eq
        exact .inl ⟨by simp [resume, hframes], by simp [resume, hnone]⟩
      | cons f rest =>
        obtain ⟨g, rest', hframes', hcall, hrest⟩ :
            ∃ g rest', v.frames = g :: rest' ∧ g.call = f.call ∧
              rest'.map Frame.call = rest.map Frame.call := by
          have hmap := halike.frames_eq
          rw [hframes, List.map_cons] at hmap
          exact List.map_eq_cons_iff.mp hmap.symm
        obtain ⟨hop, hrequest⟩ := Prod.mk.inj hcall
        have hreply : v.replyTo g = w.replyTo f := by
          unfold replyTo
          rw [← halike.around_eq, hrequest, hw.around_eq]
          exact hsteady.answer_eq _ _ _
        have hasked : Alike i j (w.asked f rest) (v.asked g rest') :=
          ⟨halike.around_eq, hrest.symm, halike.awaited_eq, halike.result_eq, halike.log_eq⟩
        have hanswered := hv.answered hframes' (w.replyTo f)
        have hnext := hv.resume_eq hquiet' htext hframes'
        rw [hop] at hanswered
        rw [hop, hreply] at hnext
        exact .inr ⟨_, _, hw.resume_eq hsteady.uninterrupted htext hframes, hnext,
          ⟨_, hw.answered hframes _, hanswered⟩, hasked.move hw.mine hv.mine _⟩
  · exact .inr ⟨_, _, rfl, rfl, hmoves .tick id⟩

theorem Twins.settle (hbase : base.AtRest) (hbase' : base'.AtRest) (hsteady : base.around.Steady)
    (htext : s.voiceMode = false) (h : Twins base base' i j s w v)
    (hsettle : Stage.settle w = some w') :
    ∃ v', Stage.settle v = some v' ∧ Twins base base' i j s w' v' := by
  -- The induction is on the steps of the first stage; the second keeps up with each of them.
  refine settle.partial_correctness (fun w w' => ∀ v, Twins base base' i j s w v →
    ∃ v', Stage.settle v = some v' ∧ Twins base base' i j s w' v') ?_ w w' hsettle v h
  intro settle' ih w w' hsettle v h
  rw [Stage.settle]
  rcases h.next hbase hbase' hsteady htext with ⟨hw, hv⟩ | ⟨next, next', hw, hv, htwins⟩
  · rw [hw] at hsettle
    obtain rfl := Option.some.inj hsettle
    rw [hv]
    exact ⟨v, rfl, h⟩
  · rw [hw] at hsettle
    rw [hv]
    exact ih next w' hsettle next' htwins

/-! ## The same cue on two stages -/

theorem cue_alone (hc : ¬ c.IsReport) :
    (∃ m : Move, ¬ m.IsReport ∧ ∀ (i : Nat) (w : Stage σ), w.cue i c = .ok (w.move i m)) ∨
      ∃ e, ∀ (i : Nat) (w : Stage σ), w.cue i c = .error e := by
  cases c with
  | report | reportFromAfar => exact absurd trivial hc
  | refuse e => exact .inr ⟨e, fun _ _ => rfl⟩
  | issue operation => exact .inl ⟨.begin operation, id, fun _ _ => rfl⟩
  | reset => exact .inl ⟨.reset, id, fun _ _ => rfl⟩
  | restore c => exact .inl ⟨.restore c, id, fun _ _ => rfl⟩
  | close => exact .inl ⟨.unsubscribe, id, fun _ _ => rfl⟩

theorem issuedBy_alone (c : Cue) (st : State) :
    ∃ op : Option Nat, ∀ (i : Nat) (w : Stage σ), w.sessions[i]? = some (s, st) →
      w.issuedBy i c = op.map (i, ·) := by
  cases c with
  | issue operation => exact ⟨some st.nextOp, fun i w hi => by simp [issuedBy, state?, hi]⟩
  | reset | restore c | report | reportFromAfar | close | refuse e =>
    exact ⟨none, fun _ _ _ => rfl⟩

/-- In text mode, the same cue for the same session comes to the same on two stages, whatever their
other sessions: if it comes to an end on one, it does so on the other, the same is seen of it, and
it leaves the session in the same state. It does not touch the others. -/
theorem play_twins (hw : w.AtRest) (hlived : w.Lived) (hv : v.AtRest) (hlived' : v.Lived)
    (haround : v.around = w.around) (hsteady : w.around.Steady) (htext : s.voiceMode = false)
    (hi : w.sessions[i]? = some (s, st)) (hj : v.sessions[j]? = some (s, st))
    (hc : ¬ c.IsReport) (hends : w.Ends i c) :
    v.Ends j c ∧ (v.play j c).2.unnumbered = (w.play i c).2.unnumbered ∧
      (∃ st', (w.play i c).1.sessions[i]? = some (s, st') ∧
        (v.play j c).1.sessions[j]? = some (s, st')) ∧
      ∀ k, k ≠ i → (w.play i c).1.sessions[k]? = w.sessions[k]? := by
  rcases cue_alone (σ := σ) hc with ⟨m, hm, hmoves⟩ | ⟨e, hrefused⟩
  · obtain ⟨op, hissued⟩ := issuedBy_alone (σ := σ) (s := s) c st
    have hreadied : ∀ {w : Stage σ} {i : Nat}, w.AtRest → w.Lived →
        w.sessions[i]? = some (s, st) → Alone w i s st (w.readied i c) :=
      fun hrest hlived hi => ⟨(hrest.accounted hlived).readied _ c, rfl, hi, fun _ _ => rfl,
        hrest.arrivals_eq, fun f hf => by
          have hnone : f ∈ [] := hrest.frames_eq ▸ hf
          cases hnone⟩
    have halike : Alike i j (w.readied i c) (v.readied j c) := by
      refine ⟨haround.symm, ?_, ⟨op, hissued i w hi, hissued j v hj⟩, rfl, rfl⟩
      simp [readied, hw.frames_eq, hv.frames_eq]
    have htwins : Twins w v i j s ((w.readied i c).move i m) ((v.readied j c).move j m) :=
      ⟨⟨_, (hreadied hw hlived hi).move hm, (hreadied hv hlived' hj).move hm⟩,
        halike.move hi hj m⟩
    obtain ⟨w', hsettle⟩ := Option.isSome_iff_exists.mp (hends _ (hmoves i _))
    obtain ⟨v', hsettle', ⟨st', hlast, hlast'⟩, hagree⟩ :=
      Twins.settle hw hv hsteady htext htwins hsettle
    rw [play_of_settle (hmoves i _) hsettle, play_of_settle (hmoves j _) hsettle']
    refine ⟨fun u hu => ?_, ?_, ⟨st', hlast.mine, hlast'.mine⟩, hlast.others⟩
    · obtain rfl := Except.ok.inj ((hmoves j _).symm.trans hu)
      simp [hsettle']
    · simp [Played.unnumbered, hagree.result_eq, List.map_reverse, hagree.log_eq]
  · rw [play_of_refused (hrefused i _), play_of_refused (hrefused j _)]
    refine ⟨fun u hu => ?_, rfl, ⟨st, hi, hj⟩, fun _ _ => rfl⟩
    rw [hrefused] at hu
    cases hu

end Stage

end ChatFlow.Simulation
