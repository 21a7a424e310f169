import ChatFlow.Proofs.Session.Bound
import ChatFlow.Proofs.Session.Closing

/-!
# The limit of steps

The limit decides between two ways in which a run can go that nobody disturbs
(`run_keeps_step_limit`). Either the walk comes to a stop by itself, after no more nodes than the
limit allows, and the limit is not reported; or exactly as many nodes are executed as the limit
allows, and the session fails with a message about the next node, which is not executed.

`Setup.Paces` holds of an operation as long as its walk goes on: the session is running, and the run
has counted the nodes that have been executed. What comes of it is said once, for every instruction,
by `Setup.Paces.performs`.
-/

namespace ChatFlow

/-- Whether a walk does not go on after an event. -/
def Event.Halts : Event → Prop
  | .suspended _ _ => True
  | .terminated => True
  | .failed _ => True
  | _ => False

/-- The cursor of a running session is where nothing has been executed since it came there. -/
structure Context.Arrived (c : Context) : Prop where
  running : c.status = .running
  fresh : ∃ id, c.cursor = some id ∧ id ∉ c.processed

theorem Context.arrived_of_moved (c : Context) (id : String) : (c.apply (.moved id)).Arrived :=
  ⟨rfl, id, rfl, by simp [apply]⟩

/-- The node under the cursor has been executed, if the cursor is anywhere. -/
def Context.Done (c : Context) : Prop := ∀ id, c.cursor = some id → id ∈ c.processed

theorem Context.Done.not_arrived {c : Context} (h : c.Done) : ¬ c.Arrived := by
  rintro ⟨-, id, hcursor, hfresh⟩
  exact hfresh (h id hcursor)

theorem Context.done_of_processed {c : Context} {id : String} (hcursor : c.cursor = some id) :
    (c.apply (.processed id)).Done := by
  intro id' hcursor'
  obtain rfl : id = id' := Option.some.inj (hcursor.symm.trans hcursor')
  simp only [apply]
  split
  · assumption
  · simp

theorem contractViolation_message_ne_tooManySteps (node port : String) (ports : List String) :
    (EngineError.contractViolation node port ports).message ≠ Session.Setup.tooManySteps := by
  -- the wording is closed by a bracket, whatever stands inside
  have hclosed : ∀ inside : String, inside ++ ")" ≠ Session.Setup.tooManySteps := by
    intro inside h
    have hlast : (inside ++ ")").toList.getLast? = Session.Setup.tooManySteps.toList.getLast? :=
      congrArg (fun text : String => text.toList.getLast?) h
    rw [String.toList_append, List.getLast?_append] at hlast
    have hends : some ')' = some 'd' := hlast
    exact absurd hends (by decide)
  exact hclosed _

namespace Session

open EngineConfig

/-- The operation holds the session, and neither a collaborator nor a reset nor a saved context
comes in its way. -/
def Unhindered (op : Nat) (st : State) (m : Move) : Prop :=
  Holds op st m ∧ m ≠ .reset ∧ (∀ c, m ≠ .restore c) ∧ ∀ e, m ≠ .answer op (.raised e)

/-- The session is running at a node of the graph that has not been executed. -/
structure Setup.Ahead (s : Setup) (c : Context) (n : Node) : Prop where
  running : c.status = .running
  cursor_eq : c.cursor = some n.id
  fresh : n.id ∉ c.processed
  node_eq : s.graph.node? n.id = some n

/-- What an operation is about to do while its walk goes on, after some nodes. -/
inductive Setup.Paces (s : Setup) (most : Int) (steps : Nat) (c : Context) :
    Option Call → List Instruction → Prop
  | entering (hc : c.Arrived) (h : steps = 0) : Paces s most steps c none [.enter]
  | visiting (hc : c.Arrived) : Paces s most steps c none [.visit ⟨c.turn, steps⟩]
  | executing {call : Option Call} {n : Node} (hcursor : c.cursor = some n.id)
      (hcall : ∀ run n q, call ≠ some (.inquire run n q)) (h : (steps : Int) < most) :
      Paces s most steps c call [.execute ⟨c.turn, steps + 1⟩ n]
  | asking (hc : c.Done) {n : Node} {q : Inquiry} :
      Paces s most steps c (some (.inquire ⟨c.turn, steps⟩ n q)) []
  | concluding (hc : c.Done) {n : Node} {q : Inquiry} {reply : Reply} :
      Paces s most steps c none [.conclude ⟨c.turn, steps⟩ n q reply]
  | delivering (hc : c.Done) {n : Node} {r : ExecutionResult} (hr : r.Suits n) :
      Paces s most steps c none [.deliver ⟨c.turn, steps⟩ n r]
  | saying {m : Message} {rest : List Instruction}
      (h : Paces s most steps c (some (s.sending m)) rest) : Paces s most steps c none (.send m :: rest)
  | leaving (hc : c.Done) {call : Option Call} (hcall : Delivers call) {n : Node} {t : Transition}
      (ht : t.Leaves) : Paces s most steps c call [.leave n t, .visit ⟨c.turn, steps⟩]
  | suspending {call : Option Call} (hcall : Delivers call) {n : Node} {reason : SuspendReason}
      {choices : List ChoiceOption} {request : ExternalCall} :
      Paces s most steps c call
        [.leave n (.suspend reason choices), .perform request, .visit ⟨c.turn, steps⟩]
  | closing {call : Option Call} (hcall : Delivers call) :
      Paces s most steps c call [.close, .visit ⟨c.turn, steps⟩]

/-- What an operation has left to do after its walk has come to a stop. -/
structure Rests (call : Option Call) (agenda : List Instruction) : Prop where
  call : ∀ run n q, call ≠ some (.inquire run n q)
  agenda : Winding agenda ∨ ∃ request run, agenda = [.perform request, .visit run]

variable {s : Setup} {most : Int} {steps : Nat} {c : Context} {i : Instruction}
  {rest agenda : List Instruction} {p : Performed}

/-- What can come of an instruction while a walk goes on. -/
inductive Setup.Paced (s : Setup) (most : Int) (steps : Nat) (c : Context)
    (rest : List Instruction) (p : Performed) : Prop
  | goesOn (hevents : ∀ e ∈ p.events, ¬ e.Halts)
      (hsteps : steps + p.executed.toList.length ≤ most.toNat)
      (hleads : p.outcome.Leads (s.Paces most (steps + p.executed.toList.length)
        (p.events.foldl Context.apply c)) rest) (hfail : ∀ e, p.outcome ≠ .fail e)
  /-- The limit is reached at a further node. -/
  | reports {n : Node} {m : Message} (hn : s.Ahead c n) (hsteps : steps = most.toNat)
      (hm : notice s.config.stepLimitMessage n.id = .ok m)
      (hp : p = { outcome := .call (s.sending m) [.giveUp] }) (hrest : rest = [])
  | halts {e : Event} (he : e.Halts) (hne : e ≠ .failed Setup.tooManySteps)
      (hevents : p.events = [e]) (hexecuted : p.executed = none)
      (hstatus : (c.apply e).status ≠ .running) (hleads : p.outcome.Leads Rests rest)
      (hfail : ∀ e, p.outcome ≠ .fail e)
  /-- The operation fails, but not at a node that is too many. -/
  | breaks {e : Fault} (houtcome : p.outcome = .fail e) (hevents : ∀ e ∈ p.events, ¬ e.Halts)
      (hsteps : steps + p.executed.toList.length ≤ most.toNat)
      (hwithin : steps + p.executed.toList.length < most.toNat ∨
        ¬ (p.events.foldl Context.apply c).Arrived)

theorem Setup.Paces.of_delivery (hc : c.Done) {n : Node} {r : ExecutionResult} (hr : r.Suits n) :
    s.Paces most steps c none (delivery ⟨c.turn, steps⟩ n r) := by
  cases hr with
  | silent port metadata => exact .leaving hc .nothing (Transition.advanceVia_leaves port)
  | speaks m hm t ht patch metadata =>
    cases t with
    | advance id | suspend reason choices => exact ht.elim
    | advanceVia port | terminate | fail error text => exact .saying (.leaving hc (.message _) ht)
  | asks m hm call reason hcall => exact .saying (.suspending (.message _))

theorem perform_visit_ne_fail {run : Run} {n : Node} (h : s.Comes c run n)
    (hmax : s.config.maxSteps = .int most) {text : String}
    (htext : s.config.stepLimitMessage = .str text) (hfull : most ≤ run.steps) (e : Fault) :
    (s.perform c (.visit run)).outcome ≠ .fail e := by
  have hreached : reached s.config.maxSteps run.steps = .ok true := by
    rw [hmax, reached_int]
    simpa using hfull
  have hnotice : notice s.config.stepLimitMessage n.id =
      .ok { content := text, sender := .system, node := n.id } := by
    rw [htext]
    rfl
  simp [Setup.perform, Setup.visit, h.turn_eq, h.running, h.cursor_eq, h.fresh, h.node_eq, hreached,
    hnotice]

theorem Setup.Paces.performs (h : s.Paces most steps c none (i :: rest))
    (hderives : s.Derives none (i :: rest)) (hmax : s.config.maxSteps = .int most)
    (htext : ∃ text, s.config.stepLimitMessage = .str text) (hle : steps ≤ most.toNat) :
    s.Paced most steps c rest (s.perform c i) := by
  obtain ⟨p, hperform⟩ : ∃ p, s.perform c i = p := ⟨_, rfl⟩
  rw [hperform]
  have hp : Performs s c i p := hperform ▸ perform_performs i
  cases h with
  | entering harrived hsteps =>
    obtain rfl := hsteps
    cases hp with
    | enters => exact .goesOn (by simp) (by simp) (.visiting harrived) (by simp)
  | visiting harrived =>
    obtain ⟨id, hcursor, hfresh⟩ := harrived.fresh
    cases hp with
    | halts hstay => exact absurd (hstay rfl harrived.running id hcursor) hfresh
    | loses hturn hrunning hcursor' hnode =>
      exact .halts (e := .terminated) trivial (by simp) rfl rfl (by simp [Context.apply])
        ⟨by simp, .inl .over⟩ (by simp)
    | exceeds hcomes hreached hm =>
      rw [hmax, reached_int] at hreached
      have hfull : most ≤ steps := by simpa using hreached
      exact .reports ⟨hcomes.running, hcomes.cursor_eq, hcomes.fresh, hcomes.node_eq⟩
        (by omega) hm rfl rfl
    | pauses hcomes hreached | hurries hcomes hreached =>
      rw [hmax, reached_int] at hreached
      have hroom : (steps : Int) < most := by simpa using hreached
      exact .goesOn (by simp) (by simpa using hle) (.executing hcomes.cursor_eq (by simp) hroom)
        (by simp)
    | breaksOff hcomes =>
      rename_i n e
      obtain ⟨text, htext⟩ := htext
      have hroom : ¬ most ≤ steps := fun hfull =>
        perform_visit_ne_fail hcomes hmax htext hfull e (by rw [hperform])
      exact .breaks rfl (by simp) (by simpa using hle) (.inl (by simp; omega))
  | executing hcursor hcall hroom =>
    have hdone := Context.done_of_processed hcursor
    cases hp with
    | abandons hturn => exact absurd rfl hturn
    | executes hturn hr =>
      exact .goesOn (by simp [Event.Halts]) (by simp; omega) (.delivering hdone hr) (by simp)
    | inquires hturn hq =>
      exact .goesOn (by simp [Event.Halts]) (by simp; omega) (.asking hdone) (by simp)
    | stumbles hturn =>
      exact .breaks rfl (by simp [Event.Halts]) (by simp; omega) (.inr hdone.not_arrived)
  | concluding hdone =>
    cases hp with
    | concludes hturn hr =>
      exact .goesOn (by simp) (by simpa using hle) (.delivering hdone hr) (by simp)
    | discards hturn => exact absurd rfl hturn
    | misleads => exact .breaks rfl (by simp) (by simpa using hle) (.inr hdone.not_arrived)
  | delivering hdone hr =>
    have hturn := hp.turn_eq
    cases hp with
    | delivers =>
      refine .goesOn ?_ (by simpa using hle) ?_ (by simp)
      · split <;> simp [Event.Halts]
      · show s.Paces most steps _ none (delivery _ _ _ ++ [])
        rw [List.append_nil, ← hturn]
        refine .of_delivery ?_ (feasible_suits hr)
        split <;> exact hdone
  | saying h =>
    cases hp with
    | sends => exact .goesOn (by simp) (by simpa using hle) h (by simp)
  | leaving hdone hcall ht =>
    cases hp with
    | jumps => exact ht.elim
    | moves hid =>
      exact .goesOn (by simp [Event.Halts]) (by simpa using hle)
        (.visiting (Context.arrived_of_moved c _)) (by simp)
    | closes hnone hcursor hm =>
      exact .goesOn (by simp) (by simpa using hle) (.closing (.message _)) (by simp)
    | closesMute hnone hcursor =>
      exact .breaks rfl (by simp) (by simpa using hle) (.inr hdone.not_arrived)
    | closesLost hnone hcursor =>
      exact .goesOn (by simp) (by simpa using hle) (.closing .nothing) (by simp)
    | suspends => exact ht.elim
    | terminates =>
      exact .halts (e := .terminated) trivial (by simp) rfl rfl (by simp [Context.apply])
        ⟨by simp, .inl (.visit _)⟩ (by simp)
    | fails =>
      rename_i n error text
      rcases hderives.stems with ⟨port, hport⟩ | ⟨d, r, hyields, ht'⟩
      · simp at hport
      obtain ⟨a, vars, reply, port, said, -, -, -, rfl, -, -⟩ := hyields.violates ht'
      refine .halts (e := .failed _) trivial ?_ rfl rfl (by simp [Context.apply])
        ⟨by simp, .inl (.visit _)⟩ (by simp)
      exact fun heq => contractViolation_message_ne_tooManySteps _ _ _ (Event.failed.inj heq)
  | suspending hcall =>
    cases hp with
    | suspends =>
      exact .halts (e := .suspended _ _) trivial (by simp) rfl rfl (by simp [Context.apply])
        ⟨by simp, .inr ⟨_, _, rfl⟩⟩ (by simp)
  | closing hcall =>
    cases hp with
    | finishes =>
      exact .halts (e := .terminated) trivial (by simp) rfl rfl (by simp [Context.apply])
        ⟨by simp, .inl (.visit _)⟩ (by simp)

theorem Rests.performs (h : Rests none (i :: rest)) (hp : Performs s c i p)
    (hrest : c.status ≠ .running) :
    p.events = [] ∧ p.executed = none ∧ p.outcome.Leads Rests rest := by
  rcases h.agenda with hwinding | ⟨request, run, heq⟩
  · obtain ⟨hevents, hexecuted, hgoes⟩ := hwinding.performs hrest hp
    refine ⟨hevents, hexecuted, ?_⟩
    rcases hgoes with ⟨todo, houtcome, htodo⟩ | houtcome
    · rw [houtcome]
      exact ⟨by simp, .inl htodo⟩
    · rw [houtcome]
      exact ⟨by simp, .inl .over⟩
  · obtain ⟨rfl, rfl⟩ := List.cons.inj heq
    cases hp with
    | requests hr => exact ⟨rfl, rfl, by simp, .inl (.visit _)⟩
    | skips hhost hkind => exact ⟨rfl, rfl, by simp, .inl (.visit _)⟩
    | cannotSpeak hsynth hkind => exact ⟨rfl, rfl, trivial⟩

/-! ## Along a run -/

theorem Setup.Paces.answers {r : Request} (h : s.Paces most steps c (some (.outward r)) agenda) :
    s.Paces most steps c none agenda := by
  cases h with
  | executing hcursor hcall hroom => exact .executing hcursor (by simp) hroom
  | leaving hdone hcall ht => exact .leaving hdone .nothing ht
  | suspending hcall => exact .suspending .nothing
  | closing hcall => exact .closing .nothing

theorem Setup.Paces.concludes {run : Run} {n : Node} {q : Inquiry} (reply : Reply)
    (h : s.Paces most steps c (some (.inquire run n q)) agenda) :
    s.Paces most steps c none (.conclude run n q reply :: agenda) := by
  cases h with
  | executing hcursor hcall hroom => exact absurd rfl (hcall _ _ _)
  | asking hdone => exact .concluding hdone
  | leaving hdone hcall ht => nomatch hcall
  | suspending hcall => nomatch hcall
  | closing hcall => nomatch hcall

/-- The limit has been reported: as many nodes as it allows have been executed, the walk has not come
to a stop, and the operation says so about the next node. Then it does no more than the events. -/
inductive Setup.Reports (s : Setup) (most : Int) (op : Nat) (c : Context) (es : List Event) :
    List Happening → Prop
  | intro {before after : List Happening} {n : Node} {m : Message}
      (hexecuted : executedIn before = most.toNat) (hwalk : ∀ e ∈ events before, ¬ e.Halts)
      (hnext : s.Ahead ((events before).foldl Context.apply c) n)
      (hm : notice s.config.stepLimitMessage n.id = .ok m) (hevents : events after = es)
      (hnone : executedIn after = 0) (hcalls : callsBy op after = []) :
      Reports s most op c es (before ++ .called op (.message (m.stamp s.id)) :: after)

/-- The session has failed because of too many steps. -/
structure Memory.Exhausted (m : Memory) : Prop where
  failed : m.context.status = .failed
  error_eq : m.context.error = Setup.tooManySteps
  explained : m.lastError = some Setup.tooManySteps
  cursor_eq : m.context.cursor = none

/-- What a run has come to, from a context on. -/
inductive Setup.Reaches (s : Setup) (most : Int) (op : Nat) (c : Context) (log : List Happening)
    (st : State) : Prop
  | goesOn {call : Option Call} {agenda : List Instruction}
      (hholder : st.holder = some ⟨op, agenda, call⟩)
      (hpaces : s.Paces most (executedIn log) st.memory.context call agenda)
      (hle : executedIn log ≤ most.toNat) (hevents : ∀ e ∈ events log, ¬ e.Halts)
  | reports {call : Option Call} (hholder : st.holder = some ⟨op, [.giveUp], call⟩)
      (hcall : ∀ run n q, call ≠ some (.inquire run n q)) (hreports : s.Reports most op c [] log)
  | fails (hreports : s.Reports most op c [.failed Setup.tooManySteps] log)
      (hmemory : st.memory.Exhausted)
      (hover : ∀ h, st.holder = some h → h.op = op → h = ⟨op, [], none⟩)
  | halts {e : Event} (he : e ∈ events log) (hhalts : e.Halts)
      (hnot : .failed Setup.tooManySteps ∉ events log) (hle : executedIn log ≤ most.toNat)
      (hrest : ∀ h, st.holder = some h → h.op = op →
        st.memory.context.status ≠ .running ∧ Rests h.call h.agenda)
  | breaks {e : Fault} (he : .finished op (.error e) ∈ log) (hevents : ∀ e ∈ events log, ¬ e.Halts)
      (hle : executedIn log ≤ most.toNat)
      (hwithin : executedIn log < most.toNat ∨ ¬ st.memory.context.Arrived)
      (hover : st.holder = none)

variable {allows : State → Move → Prop} {st st' : State} {mv : Move} {op : Nat}
  {call : Option Call} {log later more : List Happening} {c₀ : Context}

theorem Setup.Reports.append {es es' : List Event} (h : s.Reports most op c₀ es log)
    (hevents : events more = es') (hnone : executedIn more = 0) (hcalls : callsBy op more = []) :
    s.Reports most op c₀ (es ++ es') (log ++ more) := by
  cases h with
  | intro hexecuted hwalk hnext hm hevents' hnone' hcalls' =>
    rw [List.append_assoc, List.cons_append]
    exact .intro hexecuted hwalk hnext hm (by simp [hevents', hevents]) (by simp [hnone', hnone])
      (by simp [callsBy_append, hcalls', hcalls])

theorem Setup.Reports.executedIn_eq {es : List Event} (h : s.Reports most op c₀ es log) :
    executedIn log = most.toNat := by
  cases h with
  | intro hexecuted hwalk hnext hm hevents hnone hcalls =>
    rw [executedIn_append, hexecuted]
    exact congrArg (most.toNat + ·) hnone

theorem executedIn_of_asides (hlog : ∀ x ∈ more, Aside s st mv x) : executedIn more = 0 :=
  executedIn_eq_zero fun x hx => by cases hlog x hx <;> rfl

theorem events_of_asides (hlog : ∀ x ∈ more, Aside s st mv x) : events more = [] :=
  List.filterMap_eq_nil_iff.mpr fun x hx => by cases hlog x hx <;> rfl

theorem callsBy_of_asides (hlog : ∀ x ∈ more, Aside s st mv x) (hnumbered : st.Numbered)
    {h : Holder} (hholder : st.holder = some h) : callsBy h.op more = [] :=
  callsBy_eq_nil fun _ hr => (hlog _ hr).op?_ne hnumbered hholder rfl

theorem Setup.Reaches.carryOut (hstart : st.memory.context = (events log).foldl Context.apply c₀)
    (hevents : ∀ e ∈ events log, ¬ e.Halts) (hle : executedIn log ≤ most.toNat)
    (hpaced : s.Paced most (executedIn log) st.memory.context rest p) :
    s.Reaches most op c₀ (log ++ (st.carryOut s op rest p).2) (st.carryOut s op rest p).1 := by
  cases hpaced with
  | goesOn hevents' hsteps hleads hfail =>
    obtain ⟨call, agenda, hafter, hpaces⟩ := State.goes_of_carryOut s st op rest hleads hfail
    refine .goesOn hafter ?_ (by simpa using hsteps) ?_
    · rw [executedIn_append, executedIn_carryOut, State.carryOut_memory]
      exact hpaces
    · rw [events_append, State.events_carryOut]
      exact List.forall_mem_append.mpr ⟨hevents, hevents'⟩
  | reports hn hsteps hm hp hrest =>
    subst hp hrest
    exact .reports rfl (by simp [Setup.sending])
      (.intro hsteps hevents (hstart ▸ hn) hm rfl rfl rfl)
  | halts he hne hevents' hexecuted hstatus hleads hfail =>
    rename_i e
    refine .halts (e := e) (by simp [hevents']) he ?_ (by simpa [hexecuted] using hle)
      fun h hh hop => ⟨?_, (State.leads_of_carryOut hleads hh).2⟩
    · rw [events_append, State.events_carryOut, hevents']
      intro hmem
      rcases List.mem_append.mp hmem with hmem | hmem
      · exact hevents _ hmem trivial
      · exact hne (List.mem_singleton.mp hmem).symm
    · rw [State.carryOut_memory]
      simpa [Memory.after, hevents'] using hstatus
  | breaks houtcome hevents' hsteps hwithin =>
    rename_i e
    refine .breaks (e := e) ?_ ?_ (by simpa using hsteps) ?_ ?_
    · simp [State.carryOut, houtcome]
    · rw [events_append, State.events_carryOut]
      exact List.forall_mem_append.mpr ⟨hevents, hevents'⟩
    · rw [executedIn_append, executedIn_carryOut, State.carryOut_memory]
      exact hwithin
    · simp only [State.carryOut, houtcome]

theorem Setup.Reaches.passes (h : s.Reaches most op c₀ later st) (hnumbered : st.Numbered)
    (hholder : st.holder = some ⟨op, agenda, call⟩) (hmemory : st'.memory = st.memory)
    (hsame : st'.holder = st.holder) (hlog : ∀ x ∈ more, Aside s st mv x) :
    s.Reaches most op c₀ (later ++ more) st' := by
  have hexecuted := executedIn_of_asides hlog
  have hevents := events_of_asides hlog
  have hcalls := callsBy_of_asides hlog hnumbered hholder
  cases h with
  | goesOn hholder hpaces hle hwalk =>
    exact .goesOn (hsame.trans hholder) (by simpa [hexecuted, hmemory] using hpaces)
      (by simpa [hexecuted] using hle) (by simpa [hevents] using hwalk)
  | reports hholder hcall hreports =>
    exact .reports (hsame.trans hholder) hcall (hreports.append hevents hexecuted hcalls)
  | fails hreports hexhausted hover =>
    exact .fails (by simpa using hreports.append hevents hexecuted hcalls) (hmemory ▸ hexhausted)
      (hsame ▸ hover)
  | halts he hhalts hnot hle hrest =>
    exact .halts (by simpa [hevents] using he) hhalts (by simpa [hevents] using hnot)
      (by simpa [hexecuted] using hle) (by rw [hsame, hmemory]; exact hrest)
  | breaks he hwalk hle hwithin hover => simp [hholder] at hover

theorem Setup.Reaches.acts (hmax : s.config.maxSteps = .int most)
    (htext : ∃ text, s.config.stepLimitMessage = .str text)
    (hstart : st.memory.context = (events later).foldl Context.apply c₀)
    (h : s.Reaches most op c₀ later st) (hderives : s.Derives none (i :: rest))
    (hholder : st.holder = some ⟨op, i :: rest, none⟩) :
    s.Reaches most op c₀
      (later ++ (st.carryOut s op rest (s.perform st.memory.context i)).2)
      (st.carryOut s op rest (s.perform st.memory.context i)).1 := by
  cases h with
  | goesOn hholder' hpaces hle hwalk =>
    obtain ⟨-, rfl, rfl⟩ := Holder.mk.inj (Option.some.inj (hholder.symm.trans hholder'))
    exact .carryOut hstart hwalk hle (hpaces.performs hderives hmax htext hle)
  | reports hholder' hcall hreports =>
    obtain ⟨-, hagenda, -⟩ := Holder.mk.inj (Option.some.inj (hholder.symm.trans hholder'))
    obtain ⟨rfl, rfl⟩ := List.cons.inj hagenda
    have hexecuted : executedIn (st.carryOut s op [] (s.perform st.memory.context .giveUp)).2 =
        0 := by
      rw [executedIn_carryOut]
      rfl
    have hcalls : callsBy op (st.carryOut s op [] (s.perform st.memory.context .giveUp)).2 =
        [] := rfl
    refine .fails (hreports.append State.events_carryOut hexecuted hcalls) ?_ ?_
    · exact ⟨rfl, rfl, rfl, rfl⟩
    · rintro h hh -
      exact (Option.some.inj hh).symm
  | fails hreports hexhausted hover => simpa using hover _ hholder rfl
  | halts he hhalts hnot hle hrest =>
    obtain ⟨hstatus, hrests⟩ := hrest _ hholder rfl
    obtain ⟨hevents, hexecuted, hleads⟩ := hrests.performs (perform_performs (s := s) i) hstatus
    refine .halts (by simp [he]) hhalts (by simpa [hevents] using hnot)
      (by simpa [hexecuted] using hle) fun h hh hop => ⟨?_, (State.leads_of_carryOut hleads hh).2⟩
    rw [State.carryOut_memory]
    simpa [Memory.after, hevents] using hstatus
  | breaks he hwalk hle hwithin hover => simp [hholder] at hover

theorem Setup.Reaches.step (hmax : s.config.maxSteps = .int most)
    (htext : ∃ text, s.config.stepLimitMessage = .str text) (course : Course s Anything {} log st)
    (hstart : st.memory.context = (events later).foldl Context.apply c₀)
    (h : s.Reaches most op c₀ later st) (hm : Unhindered op st mv) :
    s.Reaches most op c₀ (later ++ (st.step s mv).2) (st.step s mv).1 := by
  obtain ⟨hholds, hreset, hrestore, hraises⟩ := hm
  obtain ⟨⟨op', agenda, call⟩, hholder, rfl⟩ := Option.map_eq_some_iff.mp hholds
  have hnumbered := course.numbered State.numbered_new
  have hmakes := course.makes mv
  generalize (st.step s mv).1 = st' at hmakes ⊢
  generalize (st.step s mv).2 = more at hmakes ⊢
  cases hmakes with
  | passes hmemory hsame hlog => exact h.passes hnumbered hholder hmemory hsame hlog
  | opens hnone => simp [hholder] at hnone
  | hears hbefore hmemory hafter =>
    obtain ⟨rfl, rfl, rfl⟩ := Holder.mk.inj (Option.some.inj (hholder.symm.trans hbefore))
    rw [List.append_nil]
    cases h with
    | goesOn hholder' hpaces hle hwalk =>
      obtain ⟨-, rfl, rfl⟩ := Holder.mk.inj (Option.some.inj (hholder.symm.trans hholder'))
      exact .goesOn hafter (hmemory ▸ hpaces.answers) hle hwalk
    | reports hholder' hcall hreports =>
      obtain ⟨-, rfl, rfl⟩ := Holder.mk.inj (Option.some.inj (hholder.symm.trans hholder'))
      exact .reports hafter (by simp) hreports
    | fails hreports hexhausted hover => simpa using hover _ hholder rfl
    | halts he hhalts hnot hle hrest =>
      obtain ⟨hstatus, hrests⟩ := hrest _ hholder rfl
      refine .halts he hhalts hnot hle fun h hh hop => ?_
      obtain rfl := Option.some.inj (hafter.symm.trans hh)
      exact ⟨hmemory ▸ hstatus, by simp, hrests.agenda⟩
    | breaks he hwalk hle hwithin hover => simp [hholder] at hover
  | learns hbefore hmemory hafter =>
    obtain ⟨rfl, rfl, rfl⟩ := Holder.mk.inj (Option.some.inj (hholder.symm.trans hbefore))
    rw [List.append_nil]
    cases h with
    | goesOn hholder' hpaces hle hwalk =>
      obtain ⟨-, rfl, rfl⟩ := Holder.mk.inj (Option.some.inj (hholder.symm.trans hholder'))
      exact .goesOn hafter (hmemory ▸ hpaces.concludes _) hle hwalk
    | reports hholder' hcall hreports =>
      obtain ⟨-, -, rfl⟩ := Holder.mk.inj (Option.some.inj (hholder.symm.trans hholder'))
      exact absurd rfl (hcall _ _ _)
    | fails hreports hexhausted hover => simpa using hover _ hholder rfl
    | halts he hhalts hnot hle hrest => exact absurd rfl ((hrest _ hholder rfl).2.call _ _ _)
    | breaks he hwalk hle hwithin hover => simp [hholder] at hover
  | breaks hbefore =>
    obtain ⟨rfl, -, -⟩ := Holder.mk.inj (Option.some.inj (hholder.symm.trans hbefore))
    exact absurd rfl (hraises _)
  | ends hbefore hmemory hafter =>
    obtain ⟨rfl, rfl, rfl⟩ := Holder.mk.inj (Option.some.inj (hholder.symm.trans hbefore))
    cases h with
    | goesOn hholder' hpaces hle hwalk =>
      obtain ⟨-, rfl, rfl⟩ := Holder.mk.inj (Option.some.inj (hholder.symm.trans hholder'))
      nomatch hpaces
    | reports hholder' hcall hreports => simp [hholder] at hholder'
    | fails hreports hexhausted hover =>
      have hdone : s.Reports most op' c₀ [.failed Setup.tooManySteps]
          (later ++ [.finished op' (.ok st.memory.context)]) := hreports.append rfl rfl rfl
      exact .fails hdone (hmemory ▸ hexhausted) (by simp [hafter])
    | halts he hhalts hnot hle hrest =>
      exact .halts (by simpa using he) hhalts (by simpa using hnot) (by simpa using hle)
        (by simp [hafter])
    | breaks he hwalk hle hwithin hover => simp [hholder] at hover
  | acts hbefore =>
    obtain ⟨rfl, rfl, rfl⟩ := Holder.mk.inj (Option.some.inj (hholder.symm.trans hbefore))
    exact h.acts hmax htext hstart (course.derives hholder) hholder
  | resets => exact absurd rfl hreset
  | restores => exact absurd rfl (hrestore _)

theorem Setup.Reaches.course (hmax : s.config.maxSteps = .int most)
    (htext : ∃ text, s.config.stepLimitMessage = .str text) (course : Course s Anything {} log st)
    (h : s.Reaches most op st.memory.context [] st)
    (course' : Course s (Unhindered op) st later st') :
    s.Reaches most op st.memory.context later st' := by
  induction course' with
  | refl => exact h
  | @tail later st₁ course' m hm ih =>
    have hwhole := course.trans (course'.mono fun _ _ _ => trivial)
    have hstart : st₁.memory.context = (events later).foldl Context.apply st.memory.context :=
      course'.context_eq fun _ c hm => hm.2.2.1 c rfl
    exact ih.step hmax htext hwhole hstart hm

/-- An operation that gets a session comes to an end: however things come from outside, it executes no
more nodes than the limit allows, and needs no more instructions and answers than thirteen for each of
these nodes and eight more. The limit counts anew for every operation, and so from every resumption.

A run that begins at a node of the graph that has not been executed, and that nobody hinders, ends in
one of three ways. The walk comes to a stop, and the limit is not reported. Or exactly as many nodes
are executed as the limit allows, the limit is reported about the next node, and the session fails
with nothing else done. Or the operation fails by itself, but not instead of reporting the limit. -/
theorem run_keeps_step_limit (course : Course s Anything {} log st)
    (hmax : s.config.maxSteps = .int most) (hholder : st.holder = some ⟨op, [i], none⟩)
    (hi : i.Opens) :
    (∀ ms, st.Allows s (Holds op) ms →
      executedIn (st.steps s ms).2 ≤ most.toNat ∧ st.efforts s ms ≤ 13 * most.toNat + 8) ∧
      (i = .enter → (∃ text, s.config.stepLimitMessage = .str text) →
        ∀ n, s.Ahead st.memory.context n → ∀ ms, st.Allows s (Unhindered op) ms →
          (∀ h, (st.steps s ms).1.holder = some h → h.op ≠ op) →
            let later := (st.steps s ms).2
            let st' := (st.steps s ms).1
            ((∃ e ∈ events later, e.Halts) ∧ .failed Setup.tooManySteps ∉ events later) ∨
              (s.Reports most op st.memory.context [.failed Setup.tooManySteps] later ∧
                executedIn later = most.toNat ∧ st'.memory.Exhausted) ∨
              ((∃ e, .finished op (.error e) ∈ later) ∧ (∀ e ∈ events later, ¬ e.Halts) ∧
                (executedIn later < most.toNat ∨ ¬ st'.memory.context.Arrived))) := by
  refine ⟨fun ms hms => ⟨?_, ?_⟩, ?_⟩
  · rw [executedIn_steps course ms]
    refine Nat.le_trans ((execution_pays hmax).spent_le course hms) ?_
    rw [Weights.left_eq hholder]
    cases i <;> first | exact hi.elim | simp [executionWeights]
  · refine Nat.le_trans ((effort_pays hmax).spent_le course hms) ?_
    rw [Weights.left_eq hholder]
    cases i <;> first | exact hi.elim | simp [effortWeights]
  · rintro rfl htext n hn ms hms hover
    have hpaces : s.Paces most 0 st.memory.context none [.enter] :=
      .entering ⟨hn.running, n.id, hn.cursor_eq, hn.fresh⟩ rfl
    have hreaches : s.Reaches most op st.memory.context [] st :=
      .goesOn hholder hpaces (Nat.zero_le _) (by simp)
    cases hreaches.course hmax htext course (Course.of_steps ms hms) with
    | goesOn hholder' | reports hholder' => exact absurd rfl (hover _ hholder')
    | fails hreports hexhausted => exact .inr (.inl ⟨hreports, hreports.executedIn_eq, hexhausted⟩)
    | halts he hhalts hnot => exact .inl ⟨⟨_, he, hhalts⟩, hnot⟩
    | breaks he hwalk hle hwithin => exact .inr (.inr ⟨⟨_, he⟩, hwalk, hwithin⟩)

/-- A session that says the same again and again. -/
def looping : Setup where
  graph :=
    { nodes := [⟨"s", .start {}⟩, ⟨"m", .message { message := "Hello" }⟩]
      edges := [{ source := "s", target := "m" }, { source := "m", target := "m" }]
      sound := by decide }
  executor := { config := { startDelay := .int 0, nodeDelay := .int 0, maxSteps := .int 2 } }

/-- The session has been started. -/
def started : State := (State.steps looping {} [.begin (.start []), .tick]).1

/-- From the start to the end of the operation, after the limit has been reported. -/
def toReport : List Move :=
  [.tick, .tick, .tick, .tick, .tick, .tick, .tick, .tick, .tick, .answer 0 (.value .null), .tick,
    .tick, .answer 0 (.value .null), .tick, .tick]

theorem loop_ends_at_limit :
    let st' := (started.steps looping toReport).1
    executedIn (started.steps looping toReport).2 = 2 ∧ st'.holder = none ∧
      st'.memory.Exhausted ∧ started.efforts looping toReport ≤ 34 := by
  have course : Course looping Anything {} _ started :=
    Course.of_steps _ (State.allows_of_forall fun _ _ _ => trivial)
  have hholds : started.Allows looping (Holds 0) toReport := by decide +kernel
  have hunhindered : started.Allows looping (Unhindered 0) toReport :=
    hholds.and (State.allows_of_forall (by simp [toReport]))
  have hover : (started.steps looping toReport).1.holder = none := by decide +kernel
  have hfailed : .failed Setup.tooManySteps ∈ events (started.steps looping toReport).2 := by
    decide +kernel
  obtain ⟨hbound, hends⟩ := run_keeps_step_limit course rfl
    (show started.holder = some ⟨0, [.enter], none⟩ by decide) trivial
  have hefforts := (hbound toReport (hunhindered.mono fun _ _ h => h.1)).2
  rcases hends rfl ⟨_, rfl⟩ ⟨"s", .start {}⟩ ⟨rfl, rfl, by decide, by decide⟩ toReport hunhindered
      (by simp [hover]) with ⟨-, hnot⟩ | ⟨-, hexecuted, hexhausted⟩ | ⟨-, hwalk, -⟩
  · exact absurd hfailed hnot
  · exact ⟨hexecuted, hover, hexhausted, hefforts⟩
  · exact absurd trivial (hwalk _ hfailed)

end Session

end ChatFlow
