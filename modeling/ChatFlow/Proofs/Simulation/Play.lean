import ChatFlow.Proofs.Simulation.Ending

/-!
# Cues that are played to the end

A cue that comes to an end finds the sessions at rest and leaves them at rest. In between, each of
them has gone through a course of its own, whose contexts are what was seen of it
(`Stage.play_leaves`), and a session that has stopped listening has not been touched, unless the cue
was for it (`Stage.play_still`).

Whether a cue comes to an end, and to which, can be found out by going on for a while:
`Stage.play_of_within`.
-/

namespace ChatFlow.Simulation

open Session

/-- The cue is a report, which reaches all sessions. -/
def Cue.IsReport : Cue → Prop
  | .report => True
  | .reportFromAfar => True
  | _ => False

namespace Stage

variable {σ : Type} {w w' : Stage σ} {i j : Nat} {s : Setup} {st : State} {m : Move}
  {P : Move → Prop} {c : Cue} {e : Setup × State}

/-- The stage as a cue finds it. -/
def readied (w : Stage σ) (i : Nat) (c : Cue) : Stage σ :=
  { w with awaited := w.issuedBy i c, result := none, log := [] }

/-- The stage as a cue leaves it. -/
def cleared (w : Stage σ) : Stage σ :=
  { w with awaited := none, result := none, log := [] }

/-- The cue comes to an end, or is refused. -/
def Ends (w : Stage σ) (i : Nat) (c : Cue) : Prop :=
  ∀ v, (w.readied i c).cue i c = .ok v → (settle v).isSome = true

/-- What becomes of a cue that comes to an end. -/
inductive Outcome (w : Stage σ) (i : Nat) (c : Cue) : Stage σ × Played → Prop
  | played {v v' : Stage σ} (hcue : (w.readied i c).cue i c = .ok v)
      (hsettle : settle v = some v') : Outcome w i c (v'.cleared, ⟨v'.log.reverse, v'.result⟩)
  | refused {e : Fault} (hcue : (w.readied i c).cue i c = .error e) :
      Outcome w i c (w.cleared, ⟨[], some (.error e)⟩)

theorem play_of_settle {v v' : Stage σ} (hcue : (w.readied i c).cue i c = .ok v)
    (hsettle : settle v = some v') :
    w.play i c = (v'.cleared, ⟨v'.log.reverse, v'.result⟩) := by
  simp only [readied] at hcue
  simp [play, hcue, hsettle, cleared]

theorem play_of_refused {e : Fault} (hcue : (w.readied i c).cue i c = .error e) :
    w.play i c = (w.cleared, ⟨[], some (.error e)⟩) := by
  simp only [readied] at hcue
  simp [play, hcue, cleared]

theorem play_outcome (h : w.Ends i c) : Outcome w i c (w.play i c) := by
  cases hcue : (w.readied i c).cue i c with
  | ok v =>
    obtain ⟨v', hsettle⟩ := Option.isSome_iff_exists.mp (h v hcue)
    rw [play_of_settle hcue hsettle]
    exact .played hcue hsettle
  | error e =>
    rw [play_of_refused hcue]
    exact .refused hcue

/-! ## Books -/

theorem Accounted.congr {due : List Frame} {late : List Nat} (h : Accounted due late w)
    (haround : w'.around = w.around) (hsessions : w'.sessions = w.sessions)
    (hframes : w'.frames = w.frames) (harrivals : w'.arrivals = w.arrivals) :
    Accounted due late w' := by
  refine ⟨fun i s st hi => h.lived i s st (hsessions ▸ hi), ?_, ?_, ?_, ?_⟩
  · rw [hsessions, hframes]
    exact h.asked
  · rw [hsessions, harrivals]
    exact h.noted
  · rw [hsessions, hframes]
    exact h.voiced
  · rw [haround, hframes]
    exact h.unbroken

theorem Accounted.readied (h : Accounted [] [] w) (i : Nat) (c : Cue) :
    Accounted [] [] (w.readied i c) :=
  h.congr rfl rfl rfl rfl

theorem Accounted.cue (h : Accounted [] [] w) (hcue : w.cue i c = .ok w') :
    Accounted [] [] w' := by
  rcases cue_cases hcue with ⟨m, -, rfl⟩ | ⟨m, -, -, rfl⟩
  · exact h.move i m
  · exact h.moveAll m

theorem Accounted.carries (h : Accounted [] [] w) (hsettle : settle w = some w') :
    Carries (fun m => w.around.interruptions = [] → m.Driven) w w' := by
  refine (settle_keeps (Q := fun v => Accounted [] [] v ∧
    Carries (fun m => w.around.interruptions = [] → m.Driven) w v) ?_
    ⟨h, .of_eq rfl rfl fun _ => rfl⟩ hsettle).1.2
  rintro v v' ⟨hbooks, hcarries⟩ hgoes
  refine ⟨hbooks.goes hgoes, hcarries.trans (hgoes.carries (fun m hm _ => hm) ?_)⟩
  intro f hf c hc m _ hnone
  have hbeats := hbooks.unbroken (hcarries.around_eq ▸ hnone) f hf
  simp [hbeats] at hc

/-- From one stage to another, the sessions have gone through courses of their own, whose contexts
are among the entries. -/
structure Leaves (P : Move → Prop) (w w' : Stage σ) (entries : List Entry) : Prop where
  around_eq : w'.around = w.around
  length_eq : w'.sessions.length = w.sessions.length
  goes : ∀ i s st, w.sessions[i]? = some (s, st) → ∃ ms, (∀ m ∈ ms, P m) ∧
    w'.sessions[i]? = some (s, (st.steps s ms).1) ∧
    contextsOf i entries = contexts (st.steps s ms).2

/-- What a cue leaves behind when it has come to an end. -/
theorem play_leaves (hbooks : Accounted [] [] w) (hrest : w.AtRest) (hends : w.Ends i c) :
    Accounted [] [] (w.play i c).1 ∧ (w.play i c).1.AtRest ∧
      Leaves (fun m => w.around.interruptions = [] → c.Gives m ∨ m.Driven) w (w.play i c).1
        (w.play i c).2.entries := by
  generalize hplayed : w.play i c = p
  cases hplayed ▸ play_outcome hends with
  | @played v v' hcue hsettle =>
    have hcued : Accounted [] [] v := (hbooks.readied i c).cue hcue
    obtain ⟨hlast, hquiet⟩ := hcued.settles hsettle
    have hbegins : Carries (fun m => w.around.interruptions = [] → c.Gives m ∨ m.Driven)
        (w.readied i c) v := by
      rcases cue_cases hcue with ⟨m, hm, rfl⟩ | ⟨m, hm, -, rfl⟩
      · exact carries_move fun _ => .inl hm
      · exact carries_moveAll fun _ => .inl hm
    have haround : v.around = w.around := hbegins.around_eq
    have hgoes := hcued.carries hsettle
    rw [haround] at hgoes
    have hall := hbegins.trans (hgoes.mono fun m hm hnone => .inr (hm hnone))
    refine ⟨hlast.congr rfl rfl rfl rfl, ⟨hquiet.sessions, hquiet.frames_eq, hquiet.arrivals_eq⟩,
      hall.around_eq, hall.length_eq, fun j s st hj => ?_⟩
    obtain ⟨ms, hms, hsession, hshown⟩ := hall.goes j s st hj
    exact ⟨ms, hms, hsession, by simpa [shown, Stage.readied, contextsOf] using hshown⟩
  | refused hcue =>
    refine ⟨hbooks.congr rfl rfl rfl rfl, ⟨hrest.sessions, hrest.frames_eq, hrest.arrivals_eq⟩,
      rfl, rfl, fun j s st hj => ⟨[], by simp, hj, rfl⟩⟩

theorem ends_of_limited (hbooks : Accounted [] [] w) (hlimited : w.Limited) (i : Nat) (c : Cue) :
    w.Ends i c := by
  intro v hcue
  refine settles_of_limited ((hbooks.readied i c).cue hcue) ?_
  have hready : (w.readied i c).Limited :=
    ⟨hlimited.uninterrupted, hlimited.limited, hlimited.patient⟩
  rcases cue_cases hcue with ⟨m, -, rfl⟩ | ⟨m, -, -, rfl⟩
  · exact hready.carries (carries_move (P := fun _ => True) trivial)
  · exact hready.carries (carries_moveAll (P := fun _ => True) trivial)

theorem play_issue {o : Operation} (hends : w.Ends i (.issue o))
    (hi : w.sessions[i]? = some (s, st)) :
    ∃ ms, (w.play i (.issue o)).1.sessions[i]? = some (s, (st.steps s (.begin o :: ms)).1) ∧
      contextsOf i (w.play i (.issue o)).2.entries = contexts (st.steps s (.begin o :: ms)).2 := by
  generalize hplayed : w.play i (.issue o) = p
  cases hplayed ▸ play_outcome hends with
  | @played v v' hcue hsettle =>
    obtain rfl := Except.ok.inj hcue
    have hready : (w.readied i (.issue o)).sessions[i]? = some (s, st) := hi
    obtain ⟨ms, -, hsession, hshown⟩ := (settle_carries hsettle).goes i s _
      (session_move_self hready (.begin o))
    have hbefore : (w.readied i (.issue o)).shown i = [] := rfl
    rw [shown_move_self hready, hbefore, List.nil_append, ← contexts_append] at hshown
    exact ⟨ms, hsession, hshown⟩
  | refused hcue => cases hcue

/-! ## Sessions that no longer listen -/

/-- A session is as it was, and nothing on the stage concerns it. -/
structure Still (j : Nat) (e : Setup × State) (w : Stage σ) : Prop where
  session : w.sessions[j]? = some e
  frames : ∀ f ∈ w.frames, f.session ≠ j
  arrivals : j ∉ w.arrivals
  shown_eq : w.shown j = []

namespace Still

theorem move (h : Still j e w) (hij : i ≠ j) (m : Move) : Still j e (w.move i m) := by
  cases hi : w.sessions[i]? with
  | none => rwa [move_none hi]
  | some entry =>
    obtain ⟨s, st⟩ := entry
    refine ⟨(session_move_other (Ne.symm hij) m).trans h.session, fun f hf => ?_, ?_, ?_⟩
    · rcases frame_cases hi hf with hf | ⟨hsession, -⟩
      · exact h.frames f hf
      · exact hsession ▸ hij
    · rw [(move_recorded hi m).arrivals_eq]
      intro hmem
      rcases List.mem_append.mp hmem with hmem | hmem
      · exact h.arrivals hmem
      · exact hij (List.eq_of_mem_replicate hmem).symm
    · exact (shown_move_other (Ne.symm hij) m).trans h.shown_eq

theorem report (h : Still j e w) (hdeaf : e.2.subscribed = false) (hm : m.IsReport) (i : Nat) :
    Still j e (w.move i m) := by
  by_cases hij : i = j
  · subst hij
    have hstep : e.2.step e.1 m = (e.2, []) := by
      cases m with
      | notify | notifyFromAfar => simp [State.step, hdeaf]
      | _ => exact hm.elim
    have hsame : w.sessions.set i (e.1, e.2) = w.sessions := by
      obtain ⟨hlt, heq⟩ := List.getElem?_eq_some_iff.mp h.session
      rw [← heq]
      exact List.set_getElem_self hlt
    rw [move_eq h.session, hstep]
    simpa [hsame] using h
  · exact h.move hij m

theorem reportAll (h : Still j e w) (hdeaf : e.2.subscribed = false) (hm : m.IsReport) :
    Still j e (w.moveAll m) :=
  moveAll_keeps (Q := Still j e) (fun i _ h => h.report hdeaf hm i) h

theorem cue (h : Still j e w) (hdeaf : e.2.subscribed = false) (hij : i ≠ j ∨ c.IsReport)
    (hcue : w.cue i c = .ok w') : Still j e w' := by
  rcases cue_cases hcue with ⟨m, hm, rfl⟩ | ⟨m, -, hreport, rfl⟩
  · rcases hij with hij | hreport
    · exact h.move hij m
    · cases c with
      | report | reportFromAfar => exact h.report hdeaf (hm ▸ trivial) i
      | _ => exact hreport.elim
  · exact h.reportAll hdeaf hreport

theorem goes (h : Still j e w) (hrest : e.2.AtRest) (hdeaf : e.2.subscribed = false)
    (hgoes : Goes w w') : Still j e w' := by
  have hpopped : ∀ {f : Frame} {rest : List Frame}, w.frames = f :: rest → f.session ≠ j ∧
      Still j e { w with frames := rest } := fun hframes =>
    ⟨h.frames _ (hframes ▸ List.mem_cons_self), h.session,
      fun g hg => h.frames g (hframes ▸ List.mem_cons_of_mem _ hg), h.arrivals, h.shown_eq⟩
  have hplayed : ∀ {f : Frame} {rest : List Frame} (beats : List Beat), w.frames = f :: rest →
      Still j e { w with frames := { f with beats := beats } :: rest } := fun beats hframes => by
    obtain ⟨hother, hstill⟩ := hpopped hframes
    refine ⟨h.session, fun g hg => ?_, h.arrivals, h.shown_eq⟩
    rcases List.mem_cons.mp hg with rfl | hg
    · exact hother
    · exact hstill.frames g hg
  cases hgoes with
  | @ticks i s st hi hbusy =>
    refine h.move ?_ _
    rintro rfl
    obtain rfl := Option.some.inj (h.session.symm.trans hi)
    have hholder : st.holder = none := hrest.holder
    simp [State.isSettled, hholder] at hbusy
  | @grants i s st hi hfree hqueue =>
    refine h.move ?_ _
    rintro rfl
    obtain rfl := Option.some.inj (h.session.symm.trans hi)
    exact hqueue hrest.queue
  | @arrives i rest harrivals =>
    have hnot : j ∉ i :: rest := harrivals ▸ h.arrivals
    rw [List.mem_cons, not_or] at hnot
    have hstill : Still j e { w with arrivals := rest } :=
      ⟨h.session, h.frames, hnot.2, h.shown_eq⟩
    exact hstill.move (Ne.symm hnot.1) _
  | plays hframes hbeats hcue =>
    exact (hplayed _ hframes).cue hdeaf (.inl (hpopped hframes).1) hcue
  | @refuses f rest c beats error hframes hbeats =>
    have hstill := hplayed beats hframes
    exact ⟨hstill.session, hstill.frames, hstill.arrivals, by
      rw [shown_note, hstill.shown_eq]
      rfl⟩
  | fails hframes hbeats => exact (hpopped hframes).2.move (hpopped hframes).1 _
  | @answers f rest hframes hbeats =>
    have hheard : Still j e (({ w with frames := rest } : Stage σ).heard f.request) :=
      heard_keeps (hpopped hframes).2 ((hpopped hframes).2.reportAll hdeaf trivial) _
    have hstill : ∀ inner, Still j e
        { ({ w with frames := rest } : Stage σ).heard f.request with inner := inner } :=
      fun _ => ⟨hheard.session, hheard.frames, hheard.arrivals, hheard.shown_eq⟩
    rw [answer_eq]
    exact (hstill _).move (hpopped hframes).1 _

end Still

theorem play_still (hrest : w.AtRest) (hj : w.sessions[j]? = some e)
    (hdeaf : e.2.subscribed = false) (hends : w.Ends i c) (hij : i ≠ j ∨ c.IsReport) :
    (w.play i c).1.sessions[j]? = some e ∧ contextsOf j (w.play i c).2.entries = [] := by
  have hquiet : e.2.AtRest := hrest.sessions e (List.mem_of_getElem? hj)
  have hstill : Still j e (w.readied i c) := by
    refine ⟨hj, ?_, ?_, rfl⟩
    · simp [readied, hrest.frames_eq]
    · simp [readied, hrest.arrivals_eq]
  generalize hplayed : w.play i c = p
  cases hplayed ▸ play_outcome hends with
  | played hcue hsettle =>
    obtain ⟨hlast, -⟩ := settle_keeps (fun _ _ h hgoes => h.goes hquiet hdeaf hgoes)
      (hstill.cue hdeaf hij hcue) hsettle
    exact ⟨hlast.session, hlast.shown_eq⟩
  | refused hcue => exact ⟨hj, rfl⟩

/-! ## Going on for a while -/

/-- The stage when it has settled, if that comes about within a number of steps. -/
def advance : Nat → Stage σ → Option (Stage σ)
  | 0, _ => none
  | n + 1, w =>
    match w.next? with
    | some next => advance n next
    | none => some w

theorem settle_of_advance {n : Nat} (h : advance n w = some w') : settle w = some w' := by
  induction n generalizing w with
  | zero => cases h
  | succ n ih =>
    cases hnext : w.next? with
    | some next =>
      have hgoes : settle w = settle next := by rw [settle, hnext]
      simp only [advance, hnext] at h
      exact hgoes.trans (ih h)
    | none =>
      have hstops : settle w = some w := by rw [settle, hnext]
      simp only [advance, hnext] at h
      exact hstops.trans h

/-- What becomes of a cue, if that is over within a number of steps. -/
def playWithin (n : Nat) (w : Stage σ) (i : Nat) (c : Cue) : Option (Stage σ × Played) :=
  match (w.readied i c).cue i c with
  | .ok v => (advance n v).map fun v' => (v'.cleared, ⟨v'.log.reverse, v'.result⟩)
  | .error e => some (w.cleared, ⟨[], some (.error e)⟩)

theorem play_of_within {n : Nat} {p : Stage σ × Played} (h : w.playWithin n i c = some p) :
    w.play i c = p := by
  unfold playWithin at h
  split at h
  · rename_i v hcue
    obtain ⟨v', hadvance, rfl⟩ := Option.map_eq_some_iff.mp h
    exact play_of_settle hcue (settle_of_advance hadvance)
  · rename_i e hcue
    rw [← Option.some.inj h]
    exact play_of_refused hcue

end Stage

end ChatFlow.Simulation
