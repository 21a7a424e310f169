import ChatFlow.Proofs.Session.Restoration
import ChatFlow.Proofs.Simulation.Stage

/-!
# The books of a stage

Operations wait for answers, and sessions for reports to arrive. The books of a stage are in order
when all of this is still to come: every call that waits for an answer is on the stage, and every
report that a session has noted down is among the arrivals (`Stage.Accounted`). The books stay in
order (`Stage.Accounted.goes`), so nothing is left undone when a stage has settled: every session is
at rest (`Stage.Accounted.settles`).
-/

namespace ChatFlow.Simulation

open Session

namespace Stage

variable {σ : Type} {w w' : Stage σ} {i j op : Nat} {s : Setup} {st : State} {m : Move}
  {P : Move → Prop} {due : List Frame}

/-- The sessions of a stage have come to where they are by moves. -/
def Lived (w : Stage σ) : Prop :=
  ∀ (i : Nat) (s : Setup) (st : State), w.sessions[i]? = some (s, st) →
    ∃ log, Course s Anything {} log st

/-- Whatever a session waits for is still to come: the answer to a call that is on the stage or
among those that are due, and a report that is to arrive or is late. -/
structure Accounted (due : List Frame) (late : List Nat) (w : Stage σ) : Prop where
  lived : w.Lived
  asked : ∀ i s st op, w.sessions[i]? = some (s, st) → st.Awaits op →
    ∃ f ∈ due ++ w.frames, f.session = i ∧ f.op = op
  noted : ∀ i s st, w.sessions[i]? = some (s, st) →
    st.scheduled.length ≤ (late ++ w.arrivals).count i
  voiced : ∀ f ∈ due ++ w.frames, ∀ text, f.request = .speech text →
    ∃ s st, w.sessions[f.session]? = some (s, st) ∧ s.voiceMode = true
  unbroken : w.around.interruptions = [] → ∀ f ∈ due ++ w.frames, f.beats = []

theorem Lived.carries (h : w.Lived) (hcarries : Carries P w w') : w'.Lived := by
  intro i s st hi
  obtain ⟨hlt, -⟩ := List.getElem?_eq_some_iff.mp hi
  have hlt' : i < w.sessions.length := hcarries.length_eq ▸ hlt
  obtain ⟨s', st', hold⟩ : ∃ s' st', w.sessions[i]? = some (s', st') :=
    ⟨_, _, List.getElem?_eq_getElem hlt'⟩
  obtain ⟨log, course⟩ := h i s' st' hold
  obtain ⟨ms, -, hnew, -⟩ := hcarries.goes i s' st' hold
  obtain ⟨rfl, rfl⟩ := Prod.mk.inj (Option.some.inj (hnew.symm.trans hi))
  have hallows : st'.Allows s' Anything ms := State.allows_of_forall fun _ _ _ => trivial
  exact ⟨_, course.trans (.of_steps ms hallows)⟩

theorem session_before (h : (w.move i m).sessions[j]? = some (s, st)) :
    ∃ st', w.sessions[j]? = some (s, st') ∧ (j ≠ i → st' = st) ∧
      (j = i → st = (st'.step s m).1) := by
  by_cases hij : j = i
  · subst hij
    cases hold : w.sessions[j]? with
    | none => simp [move_none hold, hold] at h
    | some entry =>
      obtain ⟨s', st'⟩ := entry
      obtain ⟨rfl, rfl⟩ := Prod.mk.inj (Option.some.inj ((session_move_self hold m).symm.trans h))
      exact ⟨st', rfl, fun hne => absurd rfl hne, fun _ => rfl⟩
  · exact ⟨st, (session_move_other hij m).symm.trans h, fun _ => rfl, fun heq => absurd heq hij⟩

theorem length_scheduled_le (s : Setup) (st : State) (m : Move) :
    (st.step s m).1.scheduled.length ≤ st.scheduled.length + notes (st.step s m).2 := by
  by_cases harrive : m = .arrive
  · subst harrive
    rw [State.step_arrive.1, List.length_tail]
    omega
  · by_cases hreport : m.IsReport
    · exact Nat.le_of_eq (State.length_scheduled_report hreport)
    · rw [(State.step_scheduled hreport harrive).1]
      exact Nat.le_add_right _ _

namespace Accounted

variable {late : List Nat}

theorem asked_move (h : Accounted due late w) (hi : w.sessions[i]? = some (s, st)) {s' : Setup}
    {st' : State} (hj : (w.move i m).sessions[j]? = some (s', st')) (hawaits : st'.Awaits op) :
    ∃ f ∈ due ++ (w.move i m).frames, f.session = j ∧ f.op = op := by
  obtain ⟨st₀, hbefore, hother, hself⟩ := session_before hj
  have hearlier : st₀.Awaits op → ∃ f ∈ due ++ (w.move i m).frames, f.session = j ∧ f.op = op :=
    fun hawaits => by
      obtain ⟨f, hf, heq⟩ := h.asked j s' st₀ op hbefore hawaits
      refine ⟨f, List.mem_append.mpr ?_, heq⟩
      exact (List.mem_append.mp hf).imp_right (frame_stays hi)
  by_cases hij : j = i
  · subst hij
    obtain rfl := hself rfl
    obtain ⟨rfl, rfl⟩ := Prod.mk.inj (Option.some.inj (hi.symm.trans hbefore))
    obtain ⟨log, course⟩ := h.lived j s st hi
    rcases State.awaits_of_step (course.makes m) hawaits with hawaits | ⟨r, hcalled⟩
    · exact hearlier hawaits
    · obtain ⟨f, hf, heq⟩ := frame_of_called hi hcalled
      exact ⟨f, List.mem_append_right _ hf, heq⟩
  · obtain rfl := hother hij
    exact hearlier hawaits

theorem noted_move (h : Accounted due late w) (hi : w.sessions[i]? = some (s, st)) {s' : Setup}
    {st' : State} (hj : (w.move i m).sessions[j]? = some (s', st')) :
    st'.scheduled.length ≤ (late ++ (w.move i m).arrivals).count j := by
  obtain ⟨st₀, hbefore, hother, hself⟩ := session_before hj
  have hnoted := h.noted j s' st₀ hbefore
  have harrivals : (w.move i m).arrivals =
      w.arrivals ++ List.replicate (notes (st.step s m).2) i := (move_recorded hi m).arrivals_eq
  rw [harrivals, ← List.append_assoc, List.count_append]
  by_cases hij : j = i
  · subst hij
    obtain rfl := hself rfl
    obtain ⟨rfl, rfl⟩ := Prod.mk.inj (Option.some.inj (hi.symm.trans hbefore))
    have hlength := length_scheduled_le s st m
    rw [List.count_replicate_self]
    omega
  · obtain rfl := hother hij
    exact Nat.le_trans hnoted (Nat.le_add_right _ _)

theorem voiced_move (h : Accounted due late w) (hi : w.sessions[i]? = some (s, st)) {f : Frame}
    (hf : f ∈ due ++ (w.move i m).frames) {text : String} (hspeech : f.request = .speech text) :
    ∃ s st, (w.move i m).sessions[f.session]? = some (s, st) ∧ s.voiceMode = true := by
  have hearlier : f ∈ due ++ w.frames →
      ∃ s st, (w.move i m).sessions[f.session]? = some (s, st) ∧ s.voiceMode = true := fun hf => by
    obtain ⟨s', st', hsession, hvoice⟩ := h.voiced f hf text hspeech
    obtain ⟨ms, -, hafter, -⟩ :=
      (carries_move (P := fun _ => True) trivial : Carries _ w (w.move i m)).goes _ _ _ hsession
    exact ⟨s', _, hafter, hvoice⟩
  rcases List.mem_append.mp hf with hf | hf
  · exact hearlier (List.mem_append_left _ hf)
  · rcases frame_cases hi hf with hf | ⟨rfl, hcalled, -⟩
    · exact hearlier (List.mem_append_right _ hf)
    · refine ⟨s, _, session_move_self hi m, ?_⟩
      by_contra htext
      obtain ⟨log, course⟩ := h.lived _ s st hi
      rw [hspeech] at hcalled
      exact course.mute (Bool.eq_false_iff.mpr htext) m f.op text hcalled

theorem move (h : Accounted due late w) (i : Nat) (m : Move) : Accounted due late (w.move i m) := by
  cases hi : w.sessions[i]? with
  | none => rwa [move_none hi]
  | some entry =>
    obtain ⟨s, st⟩ := entry
    refine ⟨h.lived.carries (carries_move (P := fun _ => True) trivial),
      fun j s' st' op hj hawaits => h.asked_move hi hj hawaits, fun j s' st' => h.noted_move hi,
      fun f hf text => h.voiced_move hi hf, fun hnone f hf => ?_⟩
    rw [around_move] at hnone
    rcases List.mem_append.mp hf with hf | hf
    · exact h.unbroken hnone f (List.mem_append_left _ hf)
    · rcases frame_cases hi hf with hf | ⟨-, -, hbeats⟩
      · exact h.unbroken hnone f (List.mem_append_right _ hf)
      · exact hbeats hnone

theorem moveAll (h : Accounted due late w) (m : Move) : Accounted due late (w.moveAll m) :=
  moveAll_keeps (fun i _ h => h.move i m) h

theorem answered (h : Accounted (f :: due) late w) (reply : Reply) :
    Accounted due late (w.move f.session (.answer f.op reply)) := by
  have hmoved := h.move f.session (.answer f.op reply)
  refine ⟨hmoved.lived, fun i s st op hi hawaits => ?_, hmoved.noted,
    fun g hg => hmoved.voiced g (List.mem_cons_of_mem _ hg),
    fun hnone g hg => hmoved.unbroken hnone g (List.mem_cons_of_mem _ hg)⟩
  obtain ⟨g, hg, rfl, rfl⟩ := hmoved.asked i s st op hi hawaits
  rcases List.mem_cons.mp hg with rfl | hg
  · -- Numbers are given once, so the operation that has its answer does not wait any more.
    obtain ⟨st₀, hbefore, -, hself⟩ := session_before hi
    obtain rfl := hself rfl
    obtain ⟨log, course⟩ := h.lived _ s st₀ hbefore
    exact absurd hawaits (State.not_awaits_answered (course.numbered State.numbered_new) _ _)
  · exact ⟨g, hg, rfl, rfl⟩

theorem arrived (h : Accounted due (i :: late) w) : Accounted due late (w.move i .arrive) := by
  have hmoved := h.move i .arrive
  refine ⟨hmoved.lived, hmoved.asked, fun j s st hj => ?_, hmoved.voiced, hmoved.unbroken⟩
  obtain ⟨st₀, hbefore, hother, hself⟩ := session_before hj
  have hnoted := h.noted j s st₀ hbefore
  have harrivals : (w.move i .arrive).arrivals = w.arrivals := by
    cases hi : w.sessions[i]? with
    | none => rw [move_none hi]
    | some entry =>
      rw [(move_recorded hi .arrive).arrivals_eq, State.step_arrive.2]
      simp
  rw [harrivals]
  by_cases hij : j = i
  · subst hij
    obtain rfl := hself rfl
    rw [List.cons_append, List.count_cons_self] at hnoted
    rw [State.step_arrive.1, List.length_tail]
    omega
  · obtain rfl := hother hij
    rwa [List.cons_append, List.count_cons_of_ne (Ne.symm hij)] at hnoted

theorem of_frames {frames due' : List Frame} (h : Accounted due late w)
    (hasked : ∀ f ∈ due ++ w.frames, ∃ g ∈ due' ++ frames, g.session = f.session ∧ g.op = f.op)
    (hknown : ∀ g ∈ due' ++ frames, ∃ f ∈ due ++ w.frames, g.session = f.session ∧
      g.request = f.request ∧ (f.beats = [] → g.beats = [])) :
    Accounted due' late { w with frames := frames } := by
  refine ⟨h.lived, fun i s st op hi hawaits => ?_, h.noted, fun g hg text hspeech => ?_,
    fun hnone g hg => ?_⟩
  · obtain ⟨f, hf, rfl, rfl⟩ := h.asked i s st op hi hawaits
    exact hasked f hf
  · obtain ⟨f, hf, hsession, hrequest, -⟩ := hknown g hg
    obtain ⟨s, st, hi, hvoice⟩ := h.voiced f hf text (hrequest ▸ hspeech)
    exact ⟨s, st, hsession ▸ hi, hvoice⟩
  · obtain ⟨f, hf, -, -, hbeats⟩ := hknown g hg
    exact hbeats (h.unbroken hnone f hf)

theorem heard_eq {f : Frame} (h : Accounted [f] late w)
    (hquiet : w.around.playsAtOnce = true →
      ∀ s st, w.sessions[f.session]? = some (s, st) → s.voiceMode = false) :
    w.heard f.request = w := by
  unfold heard
  split
  · rename_i text hspeech
    split
    · rename_i honce
      obtain ⟨s, st, hi, hvoice⟩ := h.voiced f (by simp) text hspeech
      exact absurd hvoice (by simp [hquiet honce s st hi])
    · rfl
  · rfl

theorem popped {f : Frame} {rest : List Frame} (h : Accounted [] late w)
    (hframes : w.frames = f :: rest) : Accounted [f] late { w with frames := rest } := by
  refine h.of_frames ?_ ?_ <;> simp [hframes] <;> grind

theorem played {f : Frame} {rest : List Frame} {beat : Beat} {beats : List Beat}
    (h : Accounted [] late w) (hframes : w.frames = f :: rest) (hbeats : f.beats = beat :: beats) :
    Accounted [] late { w with frames := { f with beats := beats } :: rest } := by
  refine h.of_frames ?_ ?_ <;> simp [hframes, hbeats] <;> grind

theorem goes (h : Accounted [] [] w) (hgoes : Goes w w') : Accounted [] [] w' := by
  cases hgoes with
  | ticks | grants => exact h.move _ _
  | arrives harrivals =>
    rename_i i rest
    have hlate : Accounted [] [i] { w with arrivals := rest } :=
      ⟨h.lived, h.asked, fun j s st hj => by simpa [harrivals] using h.noted j s st hj, h.voiced,
        h.unbroken⟩
    exact hlate.arrived
  | plays hframes hbeats hcue =>
    have hplayed := h.played hframes hbeats
    rcases cue_cases hcue with ⟨m, -, rfl⟩ | ⟨m, -, -, rfl⟩
    · exact hplayed.move _ m
    · exact hplayed.moveAll m
  | refuses hframes hbeats =>
    have hplayed := h.played hframes hbeats
    exact ⟨hplayed.lived, hplayed.asked, hplayed.noted, hplayed.voiced, hplayed.unbroken⟩
  | fails hframes hbeats => exact (h.popped hframes).answered _
  | answers hframes hbeats =>
    rename_i f rest
    have hdue : Accounted [f] [] { w with frames := rest } := h.popped hframes
    have hheard : Accounted [f] [] (({ w with frames := rest } : Stage σ).heard f.request) :=
      heard_keeps hdue (hdue.moveAll _) _
    have htold : ∀ inner, Accounted [f] []
        { ({ w with frames := rest } : Stage σ).heard f.request with inner := inner } := fun _ =>
      ⟨hheard.lived, hheard.asked, hheard.noted, hheard.voiced, hheard.unbroken⟩
    rw [answer_eq]
    exact (htold _).answered _

end Accounted

/-! ## Stages at rest -/

/-- Every session is at rest, and nothing is under way. -/
structure AtRest (w : Stage σ) : Prop where
  sessions : ∀ e ∈ w.sessions, e.2.AtRest
  frames_eq : w.frames = []
  arrivals_eq : w.arrivals = []

theorem Accounted.atRest (h : Accounted [] [] w) (hstops : w.next? = none) : w.AtRest := by
  obtain ⟨hsettled, hqueue, harrivals, hframes⟩ := settled_of_next hstops
  refine ⟨fun e he => ?_, hframes, harrivals⟩
  obtain ⟨i, hi⟩ := List.mem_iff_getElem?.mp he
  obtain ⟨s, st⟩ := e
  have hasked : ∀ op, ¬ st.Awaits op := fun op hawaits => by
    obtain ⟨f, hf, -⟩ := h.asked i s st op hi hawaits
    simp [hframes] at hf
  have hholder : st.holder = none := by
    cases hh : st.holder with
    | none => rfl
    | some holder =>
      have hcall := hsettled _ he
      simp only [State.isSettled, hh] at hcall
      exact absurd (.inl ⟨holder, hh, rfl, hcall⟩) (hasked holder.op)
  refine ⟨hholder, hqueue _ he hholder, ?_, ?_⟩
  · exact List.eq_nil_iff_forall_not_mem.mpr fun e he => hasked e.1 (.inr ⟨e, he, rfl⟩)
  · have hnoted := h.noted i s st hi
    rw [harrivals] at hnoted
    simpa using hnoted

theorem AtRest.accounted (h : w.AtRest) (hlived : w.Lived) : Accounted [] [] w := by
  have hsession : ∀ {i : Nat} {s : Setup} {st : State}, w.sessions[i]? = some (s, st) →
      st.AtRest := fun hi => h.sessions _ (List.mem_of_getElem? hi)
  refine ⟨hlived, fun i s st op hi hawaits => ?_, fun i s st hi => ?_, ?_, ?_⟩
  · rcases hawaits with ⟨holder, hholder, -⟩ | ⟨e, he, -⟩
    · simp [(hsession hi).holder] at hholder
    · simp [(hsession hi).echoes] at he
  · simp [(hsession hi).scheduled]
  · simp [h.frames_eq]
  · simp [h.frames_eq]

theorem AtRest.next_eq (h : w.AtRest) : w.next? = none := by
  have hbusy : w.sessions.findIdx? (fun e => !e.2.isSettled) = none :=
    List.findIdx?_eq_none_iff.mpr fun e he => by simp [State.isSettled, (h.sessions e he).holder]
  have hqueue : w.sessions.findIdx? (fun e => e.2.holder.isNone && !e.2.queue.isEmpty) = none :=
    List.findIdx?_eq_none_iff.mpr fun e he => by simp [(h.sessions e he).queue]
  unfold next?
  rw [hbusy, h.arrivals_eq]
  simp [grantOrResume, hqueue, resume, h.frames_eq]

theorem AtRest.settle_eq (h : w.AtRest) : settle w = some w := by
  rw [settle, h.next_eq]

/-- When a stage whose books are in order has settled, they still are, and everybody is at rest. -/
theorem Accounted.settles (h : Accounted [] [] w) (hsettles : settle w = some w') :
    Accounted [] [] w' ∧ w'.AtRest := by
  obtain ⟨hlast, hstops⟩ := settle_keeps (fun _ _ h hgoes => h.goes hgoes) h hsettles
  exact ⟨hlast, hlast.atRest hstops⟩

end Stage

end ChatFlow.Simulation
