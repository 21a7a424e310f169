import ChatFlow.Proofs.Execution.Route
import ChatFlow.Proofs.Session.Abandonment
import ChatFlow.Proofs.Session.Visit
import ChatFlow.Simulation.Cast

/-!
# Sessions with the responder of a preview

A session without a responder makes up the replies that its nodes would ask for. The responder of a
preview makes up the same replies when it is asked, and nobody can tell the two sessions apart:
`preview_is_simulation`.

Where the one session has made up a reply, the other one asks for it, is answered at once and comes
to the same result but for its metadata (`State.attend_matches`). The metadata stays with the result
until this is delivered, and nothing depends on it (`State.step_unmarked`), so both sessions go the
same way from there.
-/

namespace ChatFlow

namespace Executor

/-- The executor with a responder to ask for texts, or without one. -/
def withResponder (x : Executor) (b : Bool) : Executor :=
  { x with hasResponder := b }

variable {x : Executor} {n : Node} {vars : Fields} {voice : Bool}

theorem begin_ne_generate {d : AIResponseData} {prompt : String} :
    (x.withResponder false).begin n vars voice ≠ .ok (.asks (.generate d prompt)) := by
  intro h
  rcases begin_asks h with ⟨d', prompt', hbody, -⟩ | ⟨d', -, hq⟩
  · have hreply : (x.withResponder false).beginReply n.id d' vars =
        .ok (.asks (.generate d prompt)) := by
      simpa [Executor.begin, hbody] using h
    unfold beginReply at hreply
    split at hreply
    · obtain ⟨text, -, hr⟩ := bind_eq_ok.mp hreply
      exact absurd hr pure_done_ne_asks
    · exact absurd hreply pure_done_ne_asks
  · cases hq

theorem begin_withResponder (x : Executor) (n : Node) (vars : Fields) (voice : Bool) :
    (x.withResponder true).begin n vars voice = (x.withResponder false).begin n vars voice ∨
      ∃ d prompt,
        (x.withResponder true).begin n vars voice = .ok (.asks (.generate d prompt)) ∧
        (x.withResponder false).begin n vars voice =
          .ok (.done (replied n.id d (simulatedReply prompt) [("preview", .bool true)])) := by
  cases hbody : n.body with
  | aiResponse d =>
    by_cases hblank : Text.isBlankText d.prompt = true
    · exact .inl (by simp [Executor.begin, hbody, beginReply, hblank, withResponder])
    · refine .inr ⟨d, Template.interpolate d.prompt vars, ?_, ?_⟩
      · simp [Executor.begin, hbody, beginReply, hblank, withResponder]
        rfl
      · simp [Executor.begin, hbody, beginReply, hblank, withResponder]
        rfl
  | _ => exact .inl (by simp only [Executor.begin, hbody] <;> rfl)

end Executor

namespace Session

/-- The session with a responder to ask for texts, or without one. -/
def Setup.withResponder (s : Setup) (b : Bool) : Setup :=
  { s with executor := s.executor.withResponder b }

variable {s : Setup} {st st' : State} {m : Move} {ms : List Move} {c : Context} {i : Instruction}
  {rest : List Instruction} {p : Performed} {op : Nat} {log : List Happening}

/-! ## A responder whose reply is there at once -/

/-- The prompt that an operation has asked for a reply to. -/
def Call.prompt? : Call → Option String
  | .inquire _ _ (.generate _ prompt) => some prompt
  | _ => none

/-- The responder of a preview. -/
def previewer : Simulation.Cast := { responder := .preview }

namespace State

/-- The moves by which the responder of a preview replies. Its reply is there as soon as it is asked
for, so that nothing else can come before it. -/
def replying (st : State) : List Move :=
  match st.holder with
  | some ⟨op, _, some call⟩ =>
    match call.prompt? with
    | some prompt => [.answer op (previewer.answer (.generate prompt)).1, .tick]
    | none => []
  | _ => []

/-- Make a move, and let the responder of a preview reply to what is asked then. -/
def attend (s : Setup) (st : State) (m : Move) : State × List Happening :=
  st.steps s (m :: (st.step s m).1.replying)

/-- Make moves one after the other while the responder of a preview attends the session. -/
def attendAll (s : Setup) (st : State) : List Move → State × List Happening
  | [] => (st, [])
  | m :: rest =>
    let later := (st.attend s m).1.attendAll s rest
    (later.1, (st.attend s m).2 ++ later.2)

end State

/-- Whether a happening can be seen by others than the responder. -/
def Happening.isOpen : Happening → Bool
  | .called _ (.generate _) => false
  | _ => true

/-! ## Up to metadata -/

/-- The instruction without the metadata of the result that it delivers. -/
def Instruction.unmarked : Instruction → Instruction
  | .deliver run n r => .deliver run n { r with metadata := [] }
  | i => i

def Holder.unmarked (h : Holder) : Holder :=
  { h with agenda := h.agenda.map Instruction.unmarked }

/-- The session without the metadata of the results that it has still to deliver. -/
def State.unmarked (st : State) : State :=
  { st with holder := st.holder.map Holder.unmarked }

theorem perform_unmarked (i : Instruction) : s.perform c i.unmarked = s.perform c i := by
  cases i with
  | deliver run n r =>
    have hfeasible : s.feasible { r with metadata := [] } =
        { s.feasible r with metadata := [] } := by
      unfold Setup.feasible
      by_cases h : (r.awaitsPlayback && !s.hasSynthesizer) = true
      · rw [if_pos h, if_pos (by exact h)]
        rfl
      · rw [if_neg h, if_neg (by exact h)]
    simp only [Instruction.unmarked, Setup.perform, hfeasible]
    rfl
  | _ => rfl

@[simp] theorem Instruction.unmarked_unmarked (i : Instruction) :
    i.unmarked.unmarked = i.unmarked := by
  cases i <;> rfl

@[simp] theorem Holder.unmarked_unmarked (h : Holder) : h.unmarked.unmarked = h.unmarked := by
  simp [Holder.unmarked]

/-- Two moves come to the same, up to metadata of results that have still to be delivered. -/
def Matches (x y : State × List Happening) : Prop :=
  x.1.unmarked = y.1.unmarked ∧ x.2 = y.2

namespace State

@[simp] theorem unmarked_unmarked (st : State) : st.unmarked.unmarked = st.unmarked := by
  simp [unmarked, Function.comp_def]

theorem acquire_unmarked (st : State) (op : Nat) (i : Instruction) :
    (st.unmarked.acquire op i).unmarked = (st.acquire op i).unmarked := by
  have hfree : st.unmarked.isFree = st.isFree := by simp [isFree, unmarked]
  unfold acquire
  rw [hfree]
  split <;> simp [unmarked, Function.comp_def]

theorem submit_unmarked (st : State) (op : Nat) (reply : Value) :
    Matches (st.unmarked.submit op reply) (st.submit op reply) := by
  have hsame : st.unmarked.memory = st.memory := rfl
  unfold submit
  rw [hsame]
  split
  · exact ⟨unmarked_unmarked st, rfl⟩
  · exact ⟨acquire_unmarked st op (.accept reply), rfl⟩

theorem begin_unmarked (operation : Operation) :
    Matches (st.unmarked.begin s operation) (st.begin s operation) := by
  let next : State := { st with nextOp := st.nextOp + 1 }
  cases operation with
  | start vars => exact ⟨acquire_unmarked next _ (.start vars), rfl⟩
  | run => exact ⟨acquire_unmarked next _ .enter, rfl⟩
  | submit reply => exact submit_unmarked next _ reply
  | transcript said =>
    simp only [State.begin]
    split <;> exact ⟨by simp [unmarked, Function.comp_def], rfl⟩
  | speechComplete => exact ⟨acquire_unmarked next _ .acceptPlayback, rfl⟩

theorem answer_unmarked (reply : Reply) :
    Matches (st.unmarked.answer op reply) (st.answer op reply) := by
  have hechoes : st.unmarked.echoes = st.echoes := rfl
  unfold answer
  rw [hechoes]
  cases st.echoes.find? (·.1 == op) with
  | some e =>
    have hdone := submit_unmarked { st with echoes := st.echoes.filter (·.1 ≠ op) } op e.2
    cases reply with
    | raised fault => exact ⟨by simp [unmarked, Function.comp_def], rfl⟩
    | _ => exact hdone
  | none =>
    cases hholder : st.holder with
    | none =>
      have hnone : st.unmarked.holder = none := by simp [unmarked, hholder]
      rw [hnone]
      exact ⟨unmarked_unmarked st, rfl⟩
    | some h =>
      obtain ⟨k, agenda, call⟩ := h
      have hheld : st.unmarked.holder = some ⟨k, agenda.map Instruction.unmarked, call⟩ := by
        simp [unmarked, hholder, Holder.unmarked]
      rw [hheld]
      cases call with
      | none => exact ⟨unmarked_unmarked st, rfl⟩
      | some call =>
        by_cases hop : k = op
        · subst hop
          cases call with
          | inquire run n q => simp [Matches, unmarked, Holder.unmarked, Function.comp_def]
          | outward r =>
            cases reply <;> simp [Matches, unmarked, Holder.unmarked, Function.comp_def]
        · simp [Matches, hop, unmarked, Function.comp_def]

theorem carryOut_unmarked :
    Matches (st.unmarked.carryOut s op (rest.map Instruction.unmarked) p)
      (st.carryOut s op rest p) := by
  obtain ⟨events, executed, lastError, entered, outcome⟩ := p
  cases outcome <;>
    simp [Matches, carryOut, unmarked, Holder.unmarked, Function.comp_def, Memory.after, Memory.log]

theorem tick_unmarked : Matches (st.unmarked.tick s) (st.tick s) := by
  have hholder : st.unmarked.holder = st.holder.map Holder.unmarked := rfl
  cases h : st.holder with
  | none =>
    rw [tick_idle (by simp [hholder, h]), tick_idle (by simp [h])]
    exact ⟨unmarked_unmarked st, rfl⟩
  | some holder =>
    obtain ⟨op, agenda, call⟩ := holder
    rw [h] at hholder
    cases call with
    | some call =>
      rw [tick_idle (by simp [hholder, Holder.unmarked]), tick_idle (by simp [h])]
      exact ⟨unmarked_unmarked st, rfl⟩
    | none =>
      cases agenda with
      | nil =>
        rw [tick_over hholder, tick_over h]
        exact ⟨rfl, rfl⟩
      | cons i rest =>
        rw [tick_eq_carryOut hholder (perform_unmarked i), tick_eq_carryOut h rfl]
        exact carryOut_unmarked

theorem step_unmarked (st : State) (m : Move) : Matches (st.unmarked.step s m) (st.step s m) := by
  cases m with
  | begin operation => exact begin_unmarked operation
  | answer op reply => exact answer_unmarked reply
  | tick => exact tick_unmarked
  | grant =>
    cases hholder : st.holder <;> cases hqueue : st.queue <;>
      simp [step, Matches, unmarked, hholder, hqueue]
  | arrive =>
    cases hscheduled : st.scheduled with
    | nil => simp [step, Matches, unmarked, hscheduled, Function.comp_def]
    | cons op rest =>
      have harrived : st.unmarked.scheduled = op :: rest := hscheduled
      simp only [step, hscheduled, harrived]
      exact ⟨acquire_unmarked { st with scheduled := rest } op .acceptPlayback, rfl⟩
  | notify | notifyFromAfar =>
    have hmemory : st.unmarked.memory = st.memory := rfl
    have hsubscribed : st.unmarked.subscribed = st.subscribed := rfl
    simp only [step, hsubscribed, hmemory]
    split <;> simp [Matches, schedule, unmarked, Function.comp_def]
  | _ => simp [step, Matches, unmarked, Function.comp_def]

end State

/-! ## With and without a responder -/

/-- The effect of executing a node whose reply is asked for, or made up. -/
def replies (n : Node) (outcome : Outcome) : Performed :=
  { events := [.processed n.id], executed := some n, outcome := outcome }

theorem perform_withResponder (s : Setup) (c : Context) (i : Instruction) :
    (s.withResponder true).perform c i = (s.withResponder false).perform c i ∨
      ∃ run n d prompt, i = .execute run n ∧ c.turn = run.turn ∧
        (s.withResponder true).perform c i =
          replies n (.call (.inquire run n (.generate d prompt)) []) ∧
        (s.withResponder false).perform c i =
          replies n (.proceed [.deliver run n (Executor.replied n.id d
            (Executor.simulatedReply prompt) [("preview", .bool true)])]) := by
  cases i with
  | execute run n =>
    by_cases hturn : c.turn = run.turn
    · rcases Executor.begin_withResponder s.executor n c.vars s.voiceMode with
        heq | ⟨d, prompt, hasks, hdone⟩
      · left
        have hsame : (s.withResponder true).executor.begin n c.vars
            (s.withResponder true).voiceMode =
          (s.withResponder false).executor.begin n c.vars (s.withResponder false).voiceMode := heq
        simp only [Setup.perform, Setup.execute, hsame]
      · right
        have hwith : (s.withResponder true).executor.begin n c.vars
            (s.withResponder true).voiceMode = _ := hasks
        have hwithout : (s.withResponder false).executor.begin n c.vars
            (s.withResponder false).voiceMode = _ := hdone
        refine ⟨run, n, d, prompt, rfl, hturn, ?_, ?_⟩
        · simp [Setup.perform, Setup.execute, hturn, hwith, replies]
        · simp [Setup.perform, Setup.execute, hturn, hwithout, replies]
    · left
      simp [Setup.perform, Setup.execute, hturn]
  | conclude _ n q reply => cases q <;> exact .inl rfl
  | _ => exact .inl rfl

namespace State

theorem tick_withResponder (s : Setup) (st : State) :
    st.tick (s.withResponder true) = st.tick (s.withResponder false) ∨
      ∃ op rest run n d prompt, st.memory.context.turn = run.turn ∧
        st.tick (s.withResponder true) = st.carryOut (s.withResponder true) op rest
          (replies n (.call (.inquire run n (.generate d prompt)) [])) ∧
        st.tick (s.withResponder false) = st.carryOut (s.withResponder false) op rest
          (replies n (.proceed [.deliver run n (Executor.replied n.id d
            (Executor.simulatedReply prompt) [("preview", .bool true)])])) := by
  by_cases hbusy : ∃ op i rest, st.holder = some ⟨op, i :: rest, none⟩
  · obtain ⟨op, i, rest, hholder⟩ := hbusy
    rcases perform_withResponder s st.memory.context i with
      heq | ⟨run, n, d, prompt, rfl, hturn, hasks, hdone⟩
    · left
      rw [tick_eq_carryOut hholder heq, tick_eq_carryOut hholder rfl]
      unfold carryOut
      cases hcall : ((s.withResponder false).perform st.memory.context i).outcome with
      | call call todo => cases call <;> rfl
      | _ => rfl
    · exact .inr ⟨op, rest, run, n, d, prompt, hturn, tick_eq_carryOut hholder hasks,
        tick_eq_carryOut hholder hdone⟩
  · left
    unfold tick
    split
    · rfl
    · rename_i op first rest hholder
      exact absurd ⟨op, first, rest, hholder⟩ hbusy
    · rfl

theorem attend_replies {run : Run} {n : Node} {d : AIResponseData} {prompt : String}
    (hnumbered : st.Numbered) (hturn : st.memory.context.turn = run.turn)
    (hasks : st.tick s = st.carryOut s op rest
      (replies n (.call (.inquire run n (.generate d prompt)) []))) :
    let p := replies n (.call (.inquire run n (.generate d prompt)) [])
    st.attend s .tick =
      ({ st with
          memory := st.memory.after p
          holder := some ⟨op, .deliver run n (Executor.replied n.id d
            (Executor.simulatedReply prompt) []) :: rest, none⟩ },
        st.memory.log p ++ [.called op (.generate prompt)]) := by
  intro p
  let asked : State :=
    { st with
      memory := st.memory.after p
      holder := some ⟨op, rest, some (.inquire run n (.generate d prompt))⟩ }
  have hfirst : st.step s .tick = (asked, st.memory.log p ++ [.called op (.generate prompt)]) :=
    hasks
  have hnext : asked.Numbered := by
    have hnext := hnumbered.step (s := s) .tick
    rwa [hfirst] at hnext
  let reply : Reply := .text (Executor.simulatedReply prompt)
  let answered : State :=
    { asked with
      holder := some ⟨op, .conclude run n (.generate d prompt) reply :: rest, none⟩ }
  have hreplying : asked.replying = [.answer op reply, .tick] := rfl
  have hsecond : asked.step s (.answer op reply) = (answered, []) := answer_inquire hnext rfl reply
  have hperform : s.perform answered.memory.context (.conclude run n (.generate d prompt) reply) =
      { outcome := .proceed [.deliver run n (Executor.replied n.id d
        (Executor.simulatedReply prompt) [])] } := by
    have hsame : answered.memory.context.turn = run.turn := hturn
    have hconclude : s.executor.conclude n.id (.generate d prompt) reply =
        .ok (Executor.replied n.id d (Executor.simulatedReply prompt) []) := rfl
    simp [Setup.perform, hconclude, hsame]
  have hthird : answered.step s .tick = _ := tick_proceed rfl hperform
  simp only [attend, hfirst, hreplying, steps, hsecond, hthird, List.append_nil]
  rfl

/-- With the responder of a preview a session goes the same way as without one, up to the request
for the reply. -/
theorem attend_matches (hnumbered : st.Numbered)
    (hquiet : (st.step (s.withResponder false) m).1.replying = [])
    (hopen : ∀ x ∈ (st.step (s.withResponder false) m).2, x.isOpen = true) :
    (st.attend (s.withResponder true) m).1.unmarked =
        (st.step (s.withResponder false) m).1.unmarked ∧
      (st.attend (s.withResponder true) m).2.filter Happening.isOpen =
        (st.step (s.withResponder false) m).2 := by
  by_cases heq : st.step (s.withResponder true) m = st.step (s.withResponder false) m
  · simp only [attend, steps, heq, hquiet, List.append_nil]
    exact ⟨trivial, List.filter_eq_self.mpr hopen⟩
  · -- only a tick performs an instruction, and the setups differ in nothing else
    have htick : m = .tick := by
      cases m with
      | tick => rfl
      | _ => exact absurd rfl heq
    subst htick
    rcases tick_withResponder s st with
      hsame | ⟨op, rest, run, n, d, prompt, hturn, hasks, hdone⟩
    · exact absurd hsame heq
    · rw [attend_replies hnumbered hturn hasks]
      have hstep : st.step (s.withResponder false) .tick = _ := hdone
      rw [hstep] at hopen ⊢
      have hlog : ∀ x ∈ st.memory.log
          (replies n (.call (.inquire run n (.generate d prompt)) [])), x.isOpen = true := hopen
      refine ⟨rfl, ?_⟩
      rw [List.filter_append, List.filter_eq_self.mpr hlog]
      exact List.append_nil _

end State

/-! ## Whole sessions -/

theorem Performs.unprompted (hp : Performs (s.withResponder false) c i p) {call : Call}
    {todo : List Instruction} (h : p.outcome = .call call todo) (op : Nat) :
    call.prompt? = none ∧
      (Happening.called op ((s.withResponder false).requestOf call)).isOpen = true := by
  cases hp with
  | inquires hturn hq =>
    obtain ⟨rfl, -⟩ := Outcome.call.inj h
    rename_i q
    cases q with
    | generate d prompt => exact absurd hq Executor.begin_ne_generate
    | act d vars => exact ⟨rfl, rfl⟩
  | requests hr =>
    obtain ⟨rfl, -⟩ := Outcome.call.inj h
    have hnode := Phase.fromNode_of_requests hr
    rename_i r
    cases r with
    | generate prompt => exact hnode.elim
    | _ => exact ⟨rfl, rfl⟩
  | pauses | lacksStart | exceeds | sends | closes =>
    obtain ⟨rfl, -⟩ := Outcome.call.inj h
    exact ⟨rfl, rfl⟩
  | _ => nomatch h

/-- No call for a reply is waited for. -/
def State.Unprompted (st : State) : Prop :=
  ∀ h call, st.holder = some h → h.call = some call → call.prompt? = none

theorem State.replying_eq_nil (h : st.Unprompted) : st.replying = [] := by
  unfold replying
  split
  · rename_i op agenda call hholder
    rw [h _ call hholder rfl]
  · rfl

theorem Memory.isOpen_of_mem_log {m : Memory} {x : Happening} (hx : x ∈ m.log p) :
    x.isOpen = true := by
  rcases Memory.mem_log hx with ⟨e, c, rfl⟩ | ⟨n, rfl⟩ <;> rfl

theorem State.carryOut_unprompted (hp : Performs (s.withResponder false) c i p) (st : State)
    (op : Nat) (rest : List Instruction) :
    (st.carryOut (s.withResponder false) op rest p).1.Unprompted ∧
      ∀ x ∈ (st.carryOut (s.withResponder false) op rest p).2, x.isOpen = true := by
  constructor
  · have hleads : p.outcome.Leads
        (fun call _ => ∀ asked, call = some asked → asked.prompt? = none) rest := by
      cases houtcome : p.outcome with
      | call call todo =>
        rintro asked ⟨⟩
        exact (hp.unprompted houtcome op).1
      | fail e => trivial
      | _ => exact fun asked h => nomatch h
    exact fun h call hholder hcall => (State.leads_of_carryOut hleads hholder).2 call hcall
  · intro x hx
    obtain ⟨last, hlog, hlast⟩ := State.carryOut_log (s.withResponder false) st op rest p
    rw [hlog] at hx
    rcases List.mem_append.mp hx with hx | hx
    · exact Memory.isOpen_of_mem_log hx
    · rcases hlast with rfl | ⟨call, todo, houtcome, rfl⟩ | ⟨e, -, rfl⟩
      · cases hx
      · obtain rfl := List.mem_singleton.mp hx
        exact (hp.unprompted houtcome op).2
      · obtain rfl := List.mem_singleton.mp hx
        rfl

theorem Makes.unprompted (h : Makes (s.withResponder false) st m st' log) (hst : st.Unprompted) :
    st'.Unprompted ∧ ∀ x ∈ log, x.isOpen = true := by
  have hnone : ∀ {st' : State} {agenda : List Instruction} {op : Nat},
      st'.holder = some ⟨op, agenda, none⟩ → st'.Unprompted := by
    intro st' agenda op hholder h call hh hcall
    obtain rfl := Option.some.inj (hholder.symm.trans hh)
    cases hcall
  have hfree : ∀ {st' : State}, st'.holder = none → st'.Unprompted := by
    intro st' hholder h call hh
    cases hholder.symm.trans hh
  have hsame : st'.holder = st.holder → st'.Unprompted :=
    fun hholder h call hh => hst h call (hholder ▸ hh)
  cases h with
  | passes hmemory hholder hlog =>
    refine ⟨hsame hholder, fun x hx => ?_⟩
    cases hlog x hx <;> rfl
  | opens _ _ _ hholder | hears _ _ hholder | learns _ _ hholder =>
    exact ⟨hnone hholder, by simp⟩
  | breaks _ _ hholder | ends _ _ hholder => exact ⟨hfree hholder, by simp [Happening.isOpen]⟩
  | acts hbefore => exact State.carryOut_unprompted (perform_performs _) st _ _
  | resets _ hholder | restores _ hholder => exact ⟨hsame hholder, by simp [Happening.isOpen]⟩

namespace State

theorem Unprompted.congr (h : st'.Unprompted) (hsame : st.unmarked = st'.unmarked) :
    st.Unprompted := by
  intro holder call hholder hcall
  have hmap : st'.holder.map Holder.unmarked = some holder.unmarked := by
    rw [← Option.map_some (f := Holder.unmarked), ← hholder]
    exact (congrArg State.holder hsame).symm
  obtain ⟨holder', hholder', hunmarked⟩ := Option.map_eq_some_iff.mp hmap
  exact h holder' call hholder' ((congrArg Holder.call hunmarked).trans hcall)

theorem step_congr (hsame : st.unmarked = st'.unmarked) (m : Move) :
    Matches (st.step s m) (st'.step s m) := by
  obtain ⟨hstate, hlog⟩ := step_unmarked (s := s) st m
  obtain ⟨hstate', hlog'⟩ := step_unmarked (s := s) st' m
  rw [hsame] at hstate hlog
  exact ⟨hstate.symm.trans hstate', hlog.symm.trans hlog'⟩

theorem attendAll_matches (course : Course (s.withResponder false) Anything {} log st')
    (hquiet : st'.Unprompted) (hnumbered : st.Numbered) (hsame : st.unmarked = st'.unmarked)
    (ms : List Move) :
    (st.attendAll (s.withResponder true) ms).1.unmarked =
        (st'.steps (s.withResponder false) ms).1.unmarked ∧
      (st.attendAll (s.withResponder true) ms).2.filter Happening.isOpen =
        (st'.steps (s.withResponder false) ms).2 := by
  induction ms generalizing st st' log with
  | nil => exact ⟨hsame, rfl⟩
  | cons m rest ih =>
    -- the states agree up to metadata, so the move is first made from both without a responder
    obtain ⟨hnext, hopen⟩ := (course.makes m).unprompted hquiet
    obtain ⟨hstate, hlog⟩ := step_congr (s := s.withResponder false) hsame m
    rw [← hlog] at hopen
    obtain ⟨hattend, hseen⟩ :=
      attend_matches hnumbered (replying_eq_nil (hnext.congr hstate)) hopen
    have hattends : Course (s.withResponder true) Anything st
        (st.attend (s.withResponder true) m).2 (st.attend (s.withResponder true) m).1 :=
      Course.of_steps _ (allows_of_forall fun _ _ _ => trivial)
    obtain ⟨hend, hrest⟩ := ih (course.tail m trivial) hnext (hattends.numbered hnumbered)
      (hattend.trans hstate)
    refine ⟨hend, ?_⟩
    simp only [attendAll, steps, List.filter_append, hseen, hrest, hlog]

end State

/-- A session whose replies are made up by the responder of a preview does the same as a session
without a responder, whatever comes: the same contexts are made, the same messages are sent, the
same actions, pauses and inputs are asked for, and operations come to the same ends, in the same
order. All that the one has and the other has not are the requests for replies, and all that differs
between the two sessions is the metadata of results that have still to be delivered. -/
theorem preview_is_simulation (s : Setup) (ms : List Move) :
    let simulated := State.steps (s.withResponder false) {} ms
    let previewed := State.attendAll (s.withResponder true) {} ms
    previewed.2.filter Happening.isOpen = simulated.2 ∧
      previewed.1.memory = simulated.1.memory ∧
      previewed.1.unmarked = simulated.1.unmarked := by
  intro simulated previewed
  have hquiet : State.Unprompted {} := fun h call hholder => nomatch hholder
  obtain ⟨hstate, hlog⟩ := State.attendAll_matches
    (Course.refl (s := s.withResponder false)) hquiet State.numbered_new rfl ms
  have hmemory : previewed.1.unmarked.memory = simulated.1.unmarked.memory :=
    congrArg State.memory hstate
  exact ⟨hlog, hmemory, hstate⟩

/-- The reply is made up from the prompt, and said. -/
example :
    let st := (State.attendAll generating {} (toGenerating ++ [.tick, .tick])).1
    st.holder.map Holder.call = some (some (.outward (.message
      { content := "[AI response] Simulated reply for: \"hi\"", node := "a" }))) := by
  decide

end Session

end ChatFlow
