import ChatFlow.Proofs.Session.Closing

/-!
# Silence

A session that ends or fails says so once, and then keeps silent: `one_closing_message_then_silence`.

A session that has finished, or that has been left running at a node that has been executed, is
still (`Setup.Still`). It keeps its context, whatever comes, until it is started again or reset
(`State.Quiet`): no reply and no playback resumes it, and a run stops at once. No collaborator is
called but to show a spoken reply.
-/

namespace ChatFlow

/-- Whether a session begins anew with an event. -/
def Event.BeginsAnew : Event → Prop
  | .started _ _ => True
  | .reset => True
  | _ => False

instance : DecidablePred Event.BeginsAnew
  | .started _ _ | .reset => isTrue trivial
  | .moved _ | .processed _ | .variablesSet _ | .suspended _ _ | .resumed | .terminated
  | .failed _ => isFalse id

theorem Context.status_of_isFinished {c : Context} (h : c.isFinished) :
    c.status ≠ .running ∧ c.status ≠ .suspended := by
  have hs : c.status = .ended ∨ c.status = .failed := by simpa [Context.isFinished] using h
  rcases hs with hs | hs <;> simp [hs]

namespace Session

open EngineConfig

/-- A session has finished, and the operation that holds it has nothing to do with it unless it
starts it. -/
structure State.Quiet (c : Context) (st : State) : Prop where
  context_eq : st.memory.context = c
  agenda : ∀ h, st.holder = some h → Winding h.agenda ∨ ∃ i, i.Opens ∧ h.agenda = [i]
  call : ∀ h, st.holder = some h → ∀ run n q, h.call ≠ some (.inquire run n q)

/-- The request is to show the spoken reply that a move brings. -/
def Setup.Shows (s : Setup) (mv : Move) (r : Request) : Prop :=
  ∃ text content, mv = .begin (.transcript text) ∧ contentOf text = .ok content ∧
    r = .message (Message.stamp s.id { content := content, sender := .user })

/-- A session neither waits for anything nor is on its way to a node: it has finished, or it has been
left running at a node that has been executed. -/
structure Setup.Still (s : Setup) (c : Context) : Prop where
  suspended : c.status ≠ .suspended
  executed : c.status = .running → ∃ n, s.StandsAt c n
  playback : ∀ n, s.waitingNode? c = some n → c.awaiting ≠ some .speechPlayback

variable {s : Setup} {st st' : State} {log later : List Happening} {c : Context} {i : Instruction}
  {rest : List Instruction} {p : Performed} {op : Nat}

theorem Setup.Still.of_finished (hfinished : c.isFinished) (hcursor : c.cursor = none) : s.Still c := by
  obtain ⟨hrunning, hsuspended⟩ := Context.status_of_isFinished hfinished
  refine ⟨hsuspended, fun h => absurd h hrunning, fun n hn => ?_⟩
  obtain ⟨hcursor', -⟩ := Setup.waitingNode?_eq_some hn
  simp [hcursor] at hcursor'

theorem Setup.Still.winding (h : s.Still c) (hwinding : Winding (i :: rest))
    (hp : Performs s c i p) :
    p.events = [] ∧ ((∃ todo, p.outcome = .proceed todo ∧ Winding (todo ++ rest)) ∨
      p.outcome = .stop) := by
  by_cases hrunning : c.status = .running
  · obtain ⟨n, hn⟩ := h.executed hrunning
    have hfresh : ∀ run n', ¬ s.Comes c run n' := by
      intro run n' hcomes
      have hid : n'.id = n.id := Option.some.inj (hcomes.cursor_eq.symm.trans hn.cursor_eq)
      exact hcomes.fresh (hid ▸ hn.processed)
    cases hwinding with
    | visit run =>
      cases hp with
      | halts hstay => exact ⟨rfl, .inr rfl⟩
      | loses hturn hrunning hcursor hnode =>
        obtain rfl := Option.some.inj (hcursor.symm.trans hn.cursor_eq)
        simp [hn.node_eq] at hnode
      | exceeds hcomes | pauses hcomes | hurries hcomes | breaksOff hcomes =>
        exact absurd hcomes (hfresh _ _)
    | enter =>
      cases hp with
      | enters => exact ⟨rfl, .inl ⟨_, rfl, .visit _⟩⟩
  · obtain ⟨hevents, -, houtcome⟩ := hwinding.performs hrunning hp
    exact ⟨hevents, houtcome⟩

theorem Performs.quiet (hp : Performs s c i p)
    (hagenda : Winding (i :: rest) ∨ ∃ j, j.Opens ∧ i :: rest = [j]) (hstill : s.Still c) :
    (∃ e ∈ p.events, e.BeginsAnew) ∨ p.events = [] ∧
      ((∃ todo, p.outcome = .proceed todo ∧ Winding (todo ++ rest)) ∨ p.outcome = .stop) := by
  rcases hagenda with hwinding | ⟨j, hi, hone⟩
  · exact .inr (hstill.winding hwinding hp)
  obtain ⟨rfl, rfl⟩ := List.cons.inj hone
  cases hp with
  | starts | lacksStart | lacksWords => exact .inl ⟨_, List.mem_singleton_self _, trivial⟩
  | drops | ignores => exact .inr ⟨rfl, .inr rfl⟩
  | takes hwaits | misnames hwaits | mismatches hwaits =>
    exact absurd hwaits.suspended hstill.suspended
  | resumes hnode hawaiting => exact absurd hawaiting (hstill.playback _ hnode)
  | enters => exact .inr ⟨rfl, .inl ⟨_, rfl, .visit _⟩⟩
  | _ => exact hi.elim

theorem State.quiet_of_holder {agenda : List Instruction} {call : Option Call}
    (hcontext : st.memory.context = c) (hholder : st.holder = some ⟨op, agenda, call⟩)
    (hagenda : Winding agenda ∨ ∃ i, i.Opens ∧ agenda = [i])
    (hcall : ∀ run n q, call ≠ some (.inquire run n q)) : st.Quiet c := by
  refine ⟨hcontext, fun h hh => ?_, fun h hh => ?_⟩
  · obtain rfl := Option.some.inj (hholder.symm.trans hh)
    exact hagenda
  · obtain rfl := Option.some.inj (hholder.symm.trans hh)
    exact hcall

theorem State.quiet_carryOut (s : Setup) (op : Nat) (hcontext : st.memory.context = c)
    (hevents : p.events = [])
    (houtcome : (∃ todo, p.outcome = .proceed todo ∧ Winding (todo ++ rest)) ∨ p.outcome = .stop) :
    (st.carryOut s op rest p).1.Quiet c ∧ ∀ k r, .called k r ∉ (st.carryOut s op rest p).2 := by
  have hafter : (st.carryOut s op rest p).1.memory.context = c := by
    simp [Memory.after, hevents, hcontext]
  constructor
  · rcases houtcome with ⟨todo, houtcome, hwinding⟩ | houtcome
    · have hholder : (st.carryOut s op rest p).1.holder = some ⟨op, todo ++ rest, none⟩ := by
        simp only [State.carryOut, houtcome]
      exact State.quiet_of_holder hafter hholder (.inl hwinding) (by simp)
    · have hholder : (st.carryOut s op rest p).1.holder = some ⟨op, [], none⟩ := by
        simp only [State.carryOut, houtcome]
      exact State.quiet_of_holder hafter hholder (.inl .over) (by simp)
  · intro k r hr
    obtain ⟨-, call, todo, hcall, -⟩ := State.called_of_mem_carryOut hr
    rcases houtcome with ⟨todo', houtcome, -⟩ | houtcome <;> simp [houtcome] at hcall

/-- A session that is still stays as it is, unless it is started or reset. -/
theorem State.Quiet.stays {mv : Move} (h : st.Quiet c) (hstill : s.Still c)
    (hrestore : ∀ c', mv ≠ .restore c') (hmakes : Makes s st mv st' log) :
    (∃ e ∈ events log, e.BeginsAnew) ∨
      st'.Quiet c ∧ events log = [] ∧ ∀ k r, .called k r ∈ log → s.Shows mv r := by
  have hcontext := h.context_eq
  cases hmakes with
  | passes hmemory hsame hlog =>
    refine .inr ⟨⟨hmemory ▸ hcontext, hsame ▸ h.agenda, hsame ▸ h.call⟩, ?_, fun k r hr => ?_⟩
    · refine List.filterMap_eq_nil_iff.mpr fun x hx => ?_
      cases hlog x hx <;> rfl
    · cases hlog _ hr with
      | shows hmv hcontent => exact ⟨_, _, hmv, hcontent, rfl⟩
  | opens hnone hi hmemory hafter =>
    exact .inr ⟨State.quiet_of_holder (hmemory ▸ hcontext) hafter (.inr ⟨_, hi, rfl⟩) (by simp), rfl,
      by simp⟩
  | hears hbefore hmemory hafter =>
    exact .inr ⟨State.quiet_of_holder (hmemory ▸ hcontext) hafter (h.agenda _ hbefore) (by simp),
      rfl, by simp⟩
  | learns hbefore => exact absurd rfl (h.call _ hbefore _ _ _)
  | breaks hbefore hmemory hafter | ends hbefore hmemory hafter =>
    exact .inr ⟨⟨hmemory ▸ hcontext, by simp [hafter], by simp [hafter]⟩, rfl, by simp⟩
  | acts hbefore =>
    rename_i op i rest
    have hp : Performs s st.memory.context i _ := perform_performs i
    rw [hcontext] at hp
    rcases hp.quiet (h.agenda _ hbefore) hstill with ⟨e, he, hbegins⟩ | ⟨hevents, hleads⟩
    · rw [hcontext]
      exact .inl ⟨e, by simpa using he, hbegins⟩
    · rw [hcontext]
      obtain ⟨hquiet, hnone⟩ := State.quiet_carryOut s op hcontext hevents hleads
      exact .inr ⟨hquiet, by simp [hevents], fun k r hr => absurd hr (hnone k r)⟩
  | resets => exact .inl ⟨.reset, List.mem_singleton_self _, trivial⟩
  | restores => exact absurd rfl (hrestore _)

theorem State.Quiet.makes {mv : Move} (h : st.Quiet c) (hfinished : c.isFinished)
    (hcursor : c.cursor = none) (hm : Gentle st mv) (hmakes : Makes s st mv st' log) :
    (∃ e ∈ events log, e.BeginsAnew) ∨
      st'.Quiet c ∧ events log = [] ∧ ∀ k r, .called k r ∈ log → s.Shows mv r :=
  h.stays (.of_finished hfinished hcursor) hm.1.1 hmakes

/-- As long as a session that is still is not started or reset, it stays as it is, and a collaborator
is only called to show a spoken reply. -/
theorem Course.stays {allows : State → Move → Prop} (hrestore : ∀ st c, ¬ allows st (.restore c))
    (hstill : s.Still c) (course : Course s allows {} log st) (h : st.Quiet c)
    (course' : Course s allows st later st') (hbegins : ∀ e ∈ events later, ¬ e.BeginsAnew) :
    st'.Quiet c ∧ events later = [] ∧ ∀ k r, .called k r ∈ later → ∃ mv, s.Shows mv r := by
  induction course' with
  | refl => exact ⟨h, rfl, by simp⟩
  | @tail later st₁ course' mv hm ih =>
    rw [events_append] at hbegins ⊢
    obtain ⟨hquiet, hevents, hcalls⟩ := ih fun e he => hbegins e (List.mem_append_left _ he)
    have hunrestored : ∀ c', mv ≠ .restore c' := by
      rintro c' rfl
      exact hrestore _ _ hm
    rcases hquiet.stays hstill hunrestored ((course.trans course').makes mv) with
      ⟨e, he, hbegin⟩ | ⟨hquiet', hevents', hcalls'⟩
    · exact absurd hbegin (hbegins e (List.mem_append_right _ he))
    · refine ⟨hquiet', by rw [hevents, hevents', List.append_nil], fun k r hr => ?_⟩
      rcases List.mem_append.mp hr with hr | hr
      · exact hcalls k r hr
      · exact ⟨mv, hcalls' k r hr⟩

theorem Course.quiet (hfinished : c.isFinished) (hcursor : c.cursor = none)
    (course : Course s Gentle {} log st) (h : st.Quiet c) (course' : Course s Gentle st later st')
    (hbegins : ∀ e ∈ events later, ¬ e.BeginsAnew) : st'.Quiet c ∧ events later = [] := by
  obtain ⟨hquiet, hevents, -⟩ :=
    course.stays (fun _ c hm => hm.1.1 c rfl) (.of_finished hfinished hcursor) h course' hbegins
  exact ⟨hquiet, hevents⟩

/-- A session that ends or fails has one closing message, and is silent from then on.

The operation that finishes it says the closing message of one of the five ways to finish, and what
it has said before was said at nodes that go on; it makes no call any more. Until the session is
started again or reset, its context stays the same, and a collaborator is only called to show a
spoken reply. -/
theorem one_closing_message_then_silence (hids : ∀ n ∈ s.graph.nodes, n.id ≠ "")
    (htext : ∃ text, s.config.missingStartMessage = .str text) (course : Course s Gentle {} log st)
    {m : Move} (hm : Gentle st m) {e : Event} (he : .changed e c ∈ (st.step s m).2)
    (hfinished : c.isFinished) :
    ∃ op passed closing, st.holder.map Holder.op = some op ∧
      saidBy op (log ++ (st.step s m).2) = passed ++ [closing.stamp s.id] ∧
      (∀ m ∈ passed, s.Passing m) ∧ s.Closes st.memory.context e closing ∧
      ∀ later st', Course s Gentle (st.step s m).1 later st' →
        (∀ r, .called op r ∉ later) ∧
        ((∀ e ∈ events later, ¬ e.BeginsAnew) → events later = [] ∧ st'.memory.context = c ∧
          ∀ m', Gentle st' m' → (∃ e ∈ events (st'.step s m').2, e.BeginsAnew) ∨
            (st'.step s m').1.memory.context = c ∧
              ∀ k r, .called k r ∈ (st'.step s m').2 → s.Shows m' r) := by
  obtain ⟨op, passed, closing, hholder, hsaid, hpassing, hcloses, ⟨agenda, call, hafter, hwinding,
    hcall⟩, hcontext, hcursor⟩ := course.closes hids htext (course.makes m) he hfinished
  refine ⟨op, passed, closing, hholder, hsaid, hpassing, hcloses, fun later st' course' => ?_⟩
  have hnext : Course s Gentle {} (log ++ (st.step s m).2) (st.step s m).1 := .tail course m hm
  have hrestore : ∀ st c, Gentle st (.restore c) → st.holder = none :=
    fun st c hm => absurd rfl (hm.1.1 c)
  have hrest : c.status ≠ .running := (Context.status_of_isFinished hfinished).1
  have hwinds : (st.step s m).1.WindsUp op := .holds hafter hwinding hcall (hcontext ▸ hrest)
  have hquiet : (st.step s m).1.Quiet c :=
    State.quiet_of_holder hcontext hafter (.inl hwinding) hcall
  refine ⟨(hnext.windsUp hrestore hwinds course').2, fun hbegins => ?_⟩
  obtain ⟨hquiet', hevents⟩ := hnext.quiet hfinished hcursor hquiet course' hbegins
  refine ⟨hevents, hquiet'.context_eq, fun m' hm' => ?_⟩
  rcases hquiet'.makes hfinished hcursor hm' ((hnext.trans course').makes m') with
    hbegin | ⟨hquiet'', -, hshows⟩
  · exact .inl hbegin
  · exact .inr ⟨hquiet''.context_eq, hshows⟩

/-- A session whose second node leads nowhere. -/
def trailing : Setup where
  graph :=
    { nodes := [⟨"s", .start {}⟩, ⟨"m", .message { message := "Hello" }⟩]
      edges := [{ source := "s", target := "m" }]
      sound := by decide }
  executor := { config := { startDelay := .int 0, nodeDelay := .int 0 } }

/-- From the start until the end of the flow has been announced. -/
def toAnnouncement : List Move :=
  toQuestion ++ [.answer 0 (.value .null), .tick, .answer 0 (.value .null)]

theorem announced_end_is_last :
    let st := (State.steps trailing {} toAnnouncement).1
    let log := (State.steps trailing {} toAnnouncement).2
    (st.step trailing .tick).1.memory.context.status = .ended ∧
      ∃ passed closing, saidBy 0 (log ++ (st.step trailing .tick).2) =
          passed ++ [closing.stamp trailing.id] ∧
        trailing.Closes st.memory.context .terminated closing ∧
        ∀ later st', Course trailing Gentle (st.step trailing .tick).1 later st' →
          ∀ r, .called 0 r ∉ later := by
  have course : Course trailing Gentle {} _ (State.steps trailing {} toAnnouncement).1 :=
    Course.of_steps toAnnouncement
      (State.allows_of_forall (by simp [toAnnouncement, toQuestion, Gentle, Considerate]))
  have hm : Gentle (State.steps trailing {} toAnnouncement).1 .tick := by
    simp [Gentle, Considerate]
  obtain ⟨op, passed, closing, hholder, hsaid, -, hcloses, hlater⟩ :=
    one_closing_message_then_silence (by decide) ⟨_, rfl⟩ course hm (.head _) rfl
  obtain rfl : 0 = op := Option.some.inj hholder
  exact ⟨rfl, passed, closing, hsaid, hcloses,
    fun later st' course' => (hlater later st' course').1⟩

end Session

end ChatFlow
