import ChatFlow.Proofs.Session.Trace
import ChatFlow.Simulation.Stage

/-!
# What happens on a stage

All that a stage does to its sessions, it does by moves, one at a time: `Stage.move_recorded` says
what a move leaves on the stage, and `Stage.Goes` lists the ways in which a stage goes on. So a
session on a stage goes through a course of its own, and the contexts that are shown for it are
those of this course (`Stage.Carries`).
-/

namespace ChatFlow.Session

def Happening.call? : Happening → Option (Nat × Request)
  | .called op r => some (op, r)
  | _ => none

/-- The calls among happenings. -/
def calls (log : List Happening) : List (Nat × Request) :=
  log.filterMap Happening.call?

@[simp] theorem calls_append (log log' : List Happening) :
    calls (log ++ log') = calls log ++ calls log' :=
  List.filterMap_append

@[simp] theorem calls_nil : calls [] = [] := rfl

@[simp] theorem calls_called (op : Nat) (r : Request) : calls [.called op r] = [(op, r)] := rfl

@[simp] theorem calls_finished (op : Nat) (x : Except Fault Context) :
    calls [.finished op x] = [] := rfl

/-- The moves by which sessions go on when no cue tells them otherwise. -/
def Move.Driven : Move → Prop
  | .tick => True
  | .grant => True
  | .arrive => True
  | .answer _ _ => True
  | .notify => True
  | _ => False

theorem mem_calls {log : List Happening} {op : Nat} {r : Request} :
    (op, r) ∈ calls log ↔ .called op r ∈ log := by
  unfold calls
  rw [List.mem_filterMap]
  constructor
  · rintro ⟨x, hx, hcall⟩
    cases x <;> simp [Happening.call?] at hcall
    obtain ⟨rfl, rfl⟩ := hcall
    exact hx
  · exact fun h => ⟨_, h, rfl⟩

end ChatFlow.Session

namespace ChatFlow.Simulation

open Session

/-! ## What is shown -/

/-- The context of a session that an entry shows. -/
def Entry.contextOf? (i : Nat) : Entry → Option Context
  | .context j c => if j = i then some c else none
  | _ => none

/-- The contexts of a session among what was seen. -/
def contextsOf (i : Nat) (es : List Entry) : List Context :=
  es.filterMap (Entry.contextOf? i)

def Frame.call (f : Frame) : Nat × Request :=
  (f.op, f.request)

/-- The moves that a cue consists of. -/
def Cue.Gives : Cue → Move → Prop
  | .issue operation, m => m = .begin operation
  | .reset, m => m = .reset
  | .restore c, m => m = .restore c
  | .report, m => m = .notify
  | .reportFromAfar, m => m = .notifyFromAfar
  | .close, m => m = .unsubscribe
  | .refuse _, _ => False

namespace Stage

variable {σ : Type} {w w' w'' : Stage σ} {i j op : Nat} {s : Setup} {st : State} {m : Move}
  {log more : List Happening} {P : Move → Prop} {c : Cue} {f : Frame} {due rest : List Frame}
  {r : Request} {x : Happening} {e : Fault}

/-- The contexts of a session that have been shown, in order. -/
def shown (w : Stage σ) (i : Nat) : List Context :=
  contextsOf i w.log.reverse

/-- What happenings of a session leave on the stage. -/
structure Recorded (i : Nat) (log : List Happening) (w w' : Stage σ) : Prop where
  around_eq : w'.around = w.around
  sessions_eq : w'.sessions = w.sessions
  awaited_eq : w'.awaited = w.awaited
  shown_eq : ∀ j, w'.shown j = w.shown j ++ if j = i then contexts log else []
  arrivals_eq : w'.arrivals = w.arrivals ++ List.replicate (notes log) i
  frames_eq : ∃ new, w'.frames = new ++ w.frames ∧ new.map Frame.call = (calls log).reverse ∧
    ∀ f ∈ new, f.session = i ∧ (w.around.interruptions = [] → f.beats = [])

theorem shown_note (w : Stage σ) (entry : Entry) (j : Nat) :
    (w.note entry).shown j = w.shown j ++ (entry.contextOf? j).toList := by
  simp only [shown, note, contextsOf, List.reverse_cons, List.filterMap_append]
  cases h : entry.contextOf? j <;> simp [h]

theorem takeUp_recorded (w : Stage σ) (i op : Nat) (r : Request) :
    Recorded i [.called op r] w (w.takeUp i op r) := by
  unfold takeUp
  split
  · refine ⟨rfl, rfl, rfl, fun j => ?_, by simp [note, notes, Happening.isNote], ?_⟩
    · rw [shown_note]
      simp [shown, contexts, Happening.context?, Entry.contextOf?]
    · exact ⟨[_], rfl, rfl, by simp +contextual [beatsAt]⟩
  · refine ⟨rfl, rfl, rfl, fun j => ?_, by simp [notes, Happening.isNote], ?_⟩
    · simp [shown, contexts, Happening.context?]
    · exact ⟨[_], rfl, rfl, by simp⟩

theorem recorded_note {entry : Entry}
    (hshown : ∀ j, (entry.contextOf? j).toList = if j = i then contexts [x] else [])
    (hnote : x.isNote = false) (hcall : x.call? = none) : Recorded i [x] w (w.note entry) := by
  refine ⟨rfl, rfl, rfl, fun j => ?_, by simp [note, notes, hnote], [], rfl, ?_, by simp⟩
  · rw [shown_note, hshown]
  · simp [calls, hcall]

theorem recorded_silent (hlog : w'.log = w.log) (haround : w'.around = w.around)
    (hsessions : w'.sessions = w.sessions) (hawaited : w'.awaited = w.awaited)
    (harrivals : w'.arrivals = w.arrivals) (hframes : w'.frames = w.frames)
    (hcontext : x.context? = none) (hnote : x.isNote = false) (hcall : x.call? = none) :
    Recorded i [x] w w' := by
  refine ⟨haround, hsessions, hawaited, fun j => ?_, ?_, [], ?_, ?_, by simp⟩
  · simp [shown, hlog, contexts, hcontext]
  · simp [harrivals, notes, hnote]
  · simp [hframes]
  · simp [calls, hcall]

theorem record_recorded (w : Stage σ) (i : Nat) (x : Happening) :
    Recorded i [x] w (record i w x) := by
  cases x with
  | changed event c | restored c =>
    refine recorded_note (fun j => ?_) rfl rfl
    by_cases h : i = j
    · subst h
      simp [Entry.contextOf?, contexts, Happening.context?]
    · simp [Entry.contextOf?, h, Ne.symm h]
  | executed n => exact recorded_silent rfl rfl rfl rfl rfl rfl rfl rfl rfl
  | called op r => exact takeUp_recorded w i op r
  | scheduled op =>
    refine ⟨rfl, rfl, rfl, fun j => ?_, rfl, [], rfl, rfl, by simp⟩
    simp [record, shown, contexts, Happening.context?]
  | finished op result =>
    simp only [record]
    split
    · exact recorded_silent rfl rfl rfl rfl rfl rfl rfl rfl rfl
    · split
      · exact recorded_note (by simp [Entry.contextOf?, contexts, Happening.context?]) rfl rfl
      · exact recorded_silent rfl rfl rfl rfl rfl rfl rfl rfl rfl

theorem Recorded.refl (w : Stage σ) (i : Nat) : Recorded i [] w w :=
  ⟨rfl, rfl, rfl, by simp, by simp, [], by simp [calls]⟩

theorem Recorded.trans (h : Recorded i log w w') (h' : Recorded i more w' w'') :
    Recorded i (log ++ more) w w'' := by
  obtain ⟨new, hnew, hcalls, hmine⟩ := h.frames_eq
  obtain ⟨new', hnew', hcalls', hmine'⟩ := h'.frames_eq
  refine ⟨h'.around_eq.trans h.around_eq, h'.sessions_eq.trans h.sessions_eq,
    h'.awaited_eq.trans h.awaited_eq, fun j => ?_, ?_, new' ++ new, ?_, ?_, fun f hf => ?_⟩
  · rw [h'.shown_eq, h.shown_eq]
    split <;> simp
  · simp [h'.arrivals_eq, h.arrivals_eq, notes, List.replicate_append_replicate]
  · simp [hnew', hnew]
  · simp [hcalls', hcalls]
  · rcases List.mem_append.mp hf with hf | hf
    · exact ⟨(hmine' f hf).1, fun hnone => (hmine' f hf).2 (h.around_eq ▸ hnone)⟩
    · exact hmine f hf

theorem foldl_recorded (w : Stage σ) (i : Nat) (log : List Happening) :
    Recorded i log w (log.foldl (record i) w) := by
  induction log generalizing w with
  | nil => exact .refl w i
  | cons x log ih => exact (record_recorded w i x).trans (ih _)

/-! ## Moves on a stage -/

theorem move_eq (h : w.sessions[i]? = some (s, st)) (m : Move) :
    w.move i m = (st.step s m).2.foldl (record i)
      { w with sessions := w.sessions.set i (s, (st.step s m).1) } := by
  simp [move, h]

theorem move_none (h : w.sessions[i]? = none) (m : Move) : w.move i m = w := by
  simp [move, h]

theorem move_recorded (h : w.sessions[i]? = some (s, st)) (m : Move) :
    Recorded i (st.step s m).2 { w with sessions := w.sessions.set i (s, (st.step s m).1) }
      (w.move i m) :=
  move_eq h m ▸ foldl_recorded _ i _

theorem frame_of_called (h : w.sessions[i]? = some (s, st)) {op : Nat} {r : Request}
    (hcalled : .called op r ∈ (st.step s m).2) :
    ∃ f ∈ (w.move i m).frames, f.session = i ∧ f.op = op := by
  obtain ⟨new, hnew, hcalls, hmine⟩ := (move_recorded h m).frames_eq
  have hmem : (op, r) ∈ new.map Frame.call := by
    rw [hcalls, List.mem_reverse]
    exact mem_calls.mpr hcalled
  obtain ⟨f, hf, hcall⟩ := List.mem_map.mp hmem
  exact ⟨f, hnew ▸ List.mem_append_left _ hf, (hmine f hf).1, congrArg Prod.fst hcall⟩

theorem frame_stays (h : w.sessions[i]? = some (s, st)) {f : Frame} (hf : f ∈ w.frames) :
    f ∈ (w.move i m).frames := by
  obtain ⟨new, hnew, -⟩ := (move_recorded h m).frames_eq
  exact hnew ▸ List.mem_append_right _ hf

theorem frame_cases (h : w.sessions[i]? = some (s, st)) {f : Frame}
    (hf : f ∈ (w.move i m).frames) :
    f ∈ w.frames ∨ f.session = i ∧ .called f.op f.request ∈ (st.step s m).2 ∧
      (w.around.interruptions = [] → f.beats = []) := by
  obtain ⟨new, hnew, hcalls, hmine⟩ := (move_recorded h m).frames_eq
  rw [hnew] at hf
  rcases List.mem_append.mp hf with hmade | hf
  · refine .inr ⟨(hmine f hmade).1, ?_, (hmine f hmade).2⟩
    have hcall : f.call ∈ (calls (st.step s m).2).reverse := hcalls ▸ List.mem_map_of_mem hmade
    exact mem_calls.mp (List.mem_reverse.mp hcall)
  · exact .inl hf

theorem frames_move_quiet (h : w.sessions[i]? = some (s, st))
    (hcalls : calls (st.step s m).2 = []) : (w.move i m).frames = w.frames := by
  obtain ⟨new, hnew, hnone, -⟩ := (move_recorded h m).frames_eq
  obtain rfl : new = [] := by simpa [hcalls] using hnone
  exact hnew

theorem session_move_self (h : w.sessions[i]? = some (s, st)) (m : Move) :
    (w.move i m).sessions[i]? = some (s, (st.step s m).1) := by
  obtain ⟨hi, -⟩ := List.getElem?_eq_some_iff.mp h
  rw [(move_recorded h m).sessions_eq]
  simp [hi]

theorem session_move_other (hij : j ≠ i) (m : Move) :
    (w.move i m).sessions[j]? = w.sessions[j]? := by
  cases h : w.sessions[i]? with
  | none => rw [move_none h]
  | some entry =>
    obtain ⟨s, st⟩ := entry
    rw [(move_recorded h m).sessions_eq]
    simp [Ne.symm hij]

theorem shown_move_self (h : w.sessions[i]? = some (s, st)) (m : Move) :
    (w.move i m).shown i = w.shown i ++ contexts (st.step s m).2 := by
  rw [(move_recorded h m).shown_eq, if_pos rfl]
  rfl

theorem shown_move_other (hij : j ≠ i) (m : Move) : (w.move i m).shown j = w.shown j := by
  cases h : w.sessions[i]? with
  | none => rw [move_none h]
  | some entry =>
    obtain ⟨s, st⟩ := entry
    rw [(move_recorded h m).shown_eq, if_neg hij]
    simp [shown]

@[simp] theorem around_move : (w.move i m).around = w.around := by
  cases h : w.sessions[i]? with
  | none => rw [move_none h]
  | some entry => exact (move_recorded h m).around_eq

@[simp] theorem length_sessions_move : (w.move i m).sessions.length = w.sessions.length := by
  cases h : w.sessions[i]? with
  | none => rw [move_none h]
  | some entry => simp [(move_recorded h m).sessions_eq]

theorem moveAll_keeps {Q : Stage σ → Prop} (hmove : ∀ i w, Q w → Q (w.move i m)) (h : Q w) :
    Q (w.moveAll m) := by
  unfold moveAll
  induction List.range w.sessions.length generalizing w with
  | nil => exact h
  | cons i rest ih => exact ih (hmove i w h)

theorem cue_cases (h : w.cue i c = .ok w') :
    (∃ m, c.Gives m ∧ w' = w.move i m) ∨ ∃ m, c.Gives m ∧ m.IsReport ∧ w' = w.moveAll m := by
  cases c with
  | report | reportFromAfar =>
    simp only [cue] at h
    split at h
    · exact .inr ⟨_, rfl, trivial, (Except.ok.inj h).symm⟩
    · cases h
  | refuse e => cases h
  | issue operation | reset | restore c | close => exact .inl ⟨_, rfl, (Except.ok.inj h).symm⟩

/-! ## How a stage goes on -/

/-- The sessions hear what is reported while a request is answered. -/
def heard (w : Stage σ) (r : Request) : Stage σ :=
  match r with
  | .speech _ => if w.around.playsAtOnce then w.moveAll .notify else w
  | _ => w

theorem heard_keeps {Q : Stage σ → Prop} (h : Q w) (hreport : Q (w.moveAll .notify)) (r : Request) :
    Q (w.heard r) := by
  unfold heard
  split
  · split
    · exact hreport
    · exact h
  · exact h

/-- The ways in which a stage goes on. -/
inductive Goes (w : Stage σ) : Stage σ → Prop
  | ticks {i : Nat} {s : Setup} {st : State} (h : w.sessions[i]? = some (s, st))
      (hbusy : st.isSettled = false) : Goes w (w.move i .tick)
  | arrives {i : Nat} {rest : List Nat} (h : w.arrivals = i :: rest) :
      Goes w ({ w with arrivals := rest }.move i .arrive)
  | grants {i : Nat} {s : Setup} {st : State} (h : w.sessions[i]? = some (s, st))
      (hfree : st.holder = none) (hqueue : st.queue ≠ []) : Goes w (w.move i .grant)
  | plays {f : Frame} {rest : List Frame} {c : Cue} {beats : List Beat} {w' : Stage σ}
      (h : w.frames = f :: rest) (hbeats : f.beats = .cue c :: beats)
      (hcue : { w with frames := { f with beats := beats } :: rest }.cue f.session c = .ok w') :
      Goes w w'
  | refuses {f : Frame} {rest : List Frame} {c : Cue} {beats : List Beat} {e : Fault}
      (h : w.frames = f :: rest) (hbeats : f.beats = .cue c :: beats) :
      Goes w ({ w with frames := { f with beats := beats } :: rest }.note (.failed e))
  | fails {f : Frame} {rest : List Frame} {e : Fault} {beats : List Beat}
      (h : w.frames = f :: rest) (hbeats : f.beats = .fail e :: beats) :
      Goes w ({ w with frames := rest }.move f.session (.answer f.op (.raised e)))
  | answers {f : Frame} {rest : List Frame} (h : w.frames = f :: rest) (hbeats : f.beats = []) :
      Goes w ({ w with frames := rest }.answer f)

theorem answer_eq (w : Stage σ) (f : Frame) :
    w.answer f =
      let v := w.heard f.request
      let told := v.around.answer v.inner f.request
      { v with inner := told.2 }.move f.session (.answer f.op told.1) := by
  unfold answer heard
  cases f.request <;> rfl

theorem resume_goes (h : w.resume = some w') : Goes w w' := by
  unfold resume at h
  split at h
  · cases h
  · rename_i f rest hframes
    split at h
    · rename_i c beats hbeats
      simp only at h
      split at h
      · rename_i hcue
        obtain rfl := Option.some.inj h
        exact .plays hframes hbeats hcue
      · obtain rfl := Option.some.inj h
        exact .refuses hframes hbeats
    · rename_i hbeats
      obtain rfl := Option.some.inj h
      exact .fails hframes hbeats
    · rename_i hbeats
      obtain rfl := Option.some.inj h
      exact .answers hframes hbeats

theorem grantOrResume_goes (h : w.grantOrResume = some w') : Goes w w' := by
  unfold grantOrResume at h
  split at h
  · rename_i i hfound
    obtain ⟨hi, hfree, -⟩ := List.findIdx?_eq_some_iff_getElem.mp hfound
    obtain rfl := Option.some.inj h
    simp only [Bool.and_eq_true, Option.isNone_iff_eq_none, Bool.not_eq_true',
      List.isEmpty_eq_false_iff] at hfree
    exact .grants (List.getElem?_eq_getElem hi) hfree.1 hfree.2
  · exact resume_goes h

theorem goes_of_next (h : w.next? = some w') : Goes w w' := by
  unfold next? at h
  split at h
  · rename_i i hfound
    obtain ⟨hi, hbusy, -⟩ := List.findIdx?_eq_some_iff_getElem.mp hfound
    obtain rfl := Option.some.inj h
    exact .ticks (List.getElem?_eq_getElem hi) (by simpa using hbusy)
  · split at h
    · rename_i i rest harrivals
      split at h
      · obtain rfl := Option.some.inj h
        exact .arrives harrivals
      · exact grantOrResume_goes h
    · exact grantOrResume_goes h

theorem settled_of_next (h : w.next? = none) :
    (∀ e ∈ w.sessions, e.2.isSettled = true) ∧
      (∀ e ∈ w.sessions, e.2.holder = none → e.2.queue = []) ∧ w.arrivals = [] ∧ w.frames = [] := by
  have hnone : w.grantOrResume = none → (∀ e ∈ w.sessions, e.2.holder = none → e.2.queue = []) ∧
      w.frames = [] := by
    intro h
    unfold grantOrResume at h
    split at h
    · cases h
    · rename_i hfound
      refine ⟨fun e he hfree => ?_, ?_⟩
      · have hqueue := List.findIdx?_eq_none_iff.mp hfound e he
        simpa [hfree] using hqueue
      · unfold resume at h
        split at h
        · assumption
        · split at h
          · dsimp only at h
            split at h <;> cases h
          · cases h
          · cases h
  unfold next? at h
  split at h
  · cases h
  · rename_i hfound
    have hsettled : ∀ e ∈ w.sessions, e.2.isSettled = true := fun e he => by
      simpa using List.findIdx?_eq_none_iff.mp hfound e he
    split at h
    · rename_i i rest harrivals
      split at h
      · cases h
      · rename_i hopen
        obtain ⟨-, hframes⟩ := hnone h
        simp [isOpen, hframes] at hopen
    · rename_i harrivals
      obtain ⟨hqueue, hframes⟩ := hnone h
      exact ⟨hsettled, hqueue, harrivals, hframes⟩

theorem settle_keeps {Q : Stage σ → Prop} (hnext : ∀ w w', Q w → Goes w w' → Q w') (hw : Q w)
    (h : settle w = some w') : Q w' ∧ w'.next? = none := by
  refine settle.partial_correctness (fun w w' => Q w → Q w' ∧ w'.next? = none) ?_ w w' h hw
  intro settle' ih w w' h hw
  split at h
  · rename_i next hgoes
    exact ih next w' h (hnext w next hw (goes_of_next hgoes))
  · rename_i hstops
    obtain rfl := Option.some.inj h
    exact ⟨hw, hstops⟩

/-! ## The courses of the sessions -/

/-- Every session goes on by moves of its own, and the contexts that are shown for it come of
them. -/
structure Carries (P : Move → Prop) (w w' : Stage σ) : Prop where
  around_eq : w'.around = w.around
  length_eq : w'.sessions.length = w.sessions.length
  goes : ∀ i s st, w.sessions[i]? = some (s, st) → ∃ ms, (∀ m ∈ ms, P m) ∧
    w'.sessions[i]? = some (s, (st.steps s ms).1) ∧
    w'.shown i = w.shown i ++ contexts (st.steps s ms).2

theorem Carries.of_eq (haround : w'.around = w.around) (hsessions : w'.sessions = w.sessions)
    (hshown : ∀ i, w'.shown i = w.shown i) : Carries P w w' :=
  ⟨haround, by rw [hsessions], fun i s st h => ⟨[], by simp, hsessions ▸ h, by
    simp [hshown, State.steps]⟩⟩

theorem Carries.trans (h : Carries P w w') (h' : Carries P w' w'') : Carries P w w'' := by
  refine ⟨h'.around_eq.trans h.around_eq, h'.length_eq.trans h.length_eq, fun i s st hi => ?_⟩
  obtain ⟨ms, hms, hsession, hshown⟩ := h.goes i s st hi
  obtain ⟨ms', hms', hsession', hshown'⟩ := h'.goes i s _ hsession
  refine ⟨ms ++ ms', fun m hm => ?_, ?_, ?_⟩
  · exact (List.mem_append.mp hm).elim (hms m) (hms' m)
  · rw [State.steps_append]
    exact hsession'
  · rw [hshown', hshown, State.steps_append, contexts_append, List.append_assoc]

theorem Carries.mono {P' : Move → Prop} (himp : ∀ m, P m → P' m) (h : Carries P w w') :
    Carries P' w w' :=
  ⟨h.around_eq, h.length_eq, fun i s st hi => by
    obtain ⟨ms, hms, hrest⟩ := h.goes i s st hi
    exact ⟨ms, fun m hm => himp m (hms m hm), hrest⟩⟩

theorem carries_move (hm : P m) : Carries P w (w.move i m) := by
  refine ⟨around_move, length_sessions_move, fun j s st hj => ?_⟩
  by_cases hij : j = i
  · subst hij
    refine ⟨[m], by simpa using hm, ?_, ?_⟩
    · simpa [State.steps] using session_move_self hj m
    · simpa [State.steps] using shown_move_self hj m
  · refine ⟨[], by simp, ?_, ?_⟩
    · simpa [State.steps] using (session_move_other hij m).trans hj
    · simpa [State.steps] using shown_move_other (w := w) hij m

theorem carries_moveAll (hm : P m) : Carries P w (w.moveAll m) :=
  moveAll_keeps (Q := Carries P w) (fun _ _ h => h.trans (carries_move hm))
    (.of_eq rfl rfl fun _ => rfl)

theorem Goes.carries (hdriven : ∀ m : Move, m.Driven → P m)
    (hcues : ∀ f ∈ w.frames, ∀ c, .cue c ∈ f.beats → ∀ m, c.Gives m → P m) (h : Goes w w') :
    Carries P w w' := by
  have htick : P .tick := hdriven .tick trivial
  have hgrant : P .grant := hdriven .grant trivial
  have harrive : P .arrive := hdriven .arrive trivial
  have hanswer : ∀ op reply, P (.answer op reply) := fun op reply => hdriven _ trivial
  have hframes : ∀ frames, Carries P w { w with frames := frames } := fun _ =>
    .of_eq rfl rfl fun _ => rfl
  cases h with
  | ticks => exact carries_move htick
  | grants => exact carries_move hgrant
  | @arrives i rest h =>
    have hrest : Carries P w { w with arrivals := rest } := .of_eq rfl rfl fun _ => rfl
    exact hrest.trans (carries_move harrive)
  | plays h hbeats hcue =>
    have hmem := hcues _ (h ▸ List.mem_cons_self) _ (hbeats ▸ List.mem_cons_self)
    rcases cue_cases hcue with ⟨m, hm, rfl⟩ | ⟨m, hm, -, rfl⟩
    · exact (hframes _).trans (carries_move (hmem m hm))
    · exact (hframes _).trans (carries_moveAll (hmem m hm))
  | refuses h hbeats =>
    exact .of_eq rfl rfl fun i => (shown_note _ _ i).trans (by simp [Entry.contextOf?, shown])
  | fails h hbeats => exact (hframes _).trans (carries_move (hanswer _ _))
  | @answers f rest h hbeats =>
    have hheard : Carries P w (({ w with frames := rest } : Stage σ).heard f.request) :=
      heard_keeps (hframes rest)
        ((hframes rest).trans (carries_moveAll (hdriven .notify trivial))) _
    have hinner : ∀ v : Stage σ, ∀ inner, Carries P v { v with inner := inner } := fun _ _ =>
      .of_eq rfl rfl fun _ => rfl
    rw [answer_eq]
    exact (hheard.trans (hinner _ _)).trans (carries_move (hanswer _ _))

theorem settle_carries (h : settle w = some w') : Carries (fun _ => True) w w' :=
  (settle_keeps (Q := Carries (fun _ => True) w)
    (fun _ _ hv hgoes => hv.trans (hgoes.carries (fun _ _ => trivial) fun _ _ _ _ _ _ => trivial))
    (.of_eq rfl rfl fun _ => rfl) h).1

end Stage

end ChatFlow.Simulation
