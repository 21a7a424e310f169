import ChatFlow.Proofs.Session.Standing

/-!
# Every context of a session

`every_context_wellFormed`: in a graph without empty ids, every context that a session ever comes to
is well formed, and a failure is known to the session as soon as its context is. It holds for all
operations in every order, with resets at rest and wherever a run looks for them.

As long as no operation has failed, a session that nobody holds is moreover not running. For this
the runs have to be followed (`Underway`): a run that goes on does so in the turn of the session, and
never stops at a node that it has not executed.
-/

namespace ChatFlow

/-- The fields of a context say the same about where the session stands. -/
structure Context.WellFormed (g : FlowGraph) (c : Context) : Prop where
  suspended_iff : c.status = .suspended ↔ c.awaiting ≠ none
  cursor_iff : c.status = .running ∨ c.status = .suspended ↔ c.cursor ≠ none
  node_of_cursor : ∀ id, c.cursor = some id → ∃ n, g.node? id = some n
  waits_at_processed : c.status = .suspended → ∀ id, c.cursor = some id → id ∈ c.processed
  awaits_choice : c.choices ≠ [] → c.awaiting = some .choice
  choices_eq : c.awaiting = some .choice →
    ∃ n, c.cursor = some n.id ∧ g.node? n.id = some n ∧ c.choices = n.body.options
  failed_iff : c.status = .failed ↔ c.error ≠ ""

theorem Context.Sound.wellFormed {g : FlowGraph} {c : Context} (h : c.Sound g)
    (hids : ∀ n ∈ g.nodes, n.id ≠ "") : c.WellFormed g where
  suspended_iff := h.suspended_iff
  cursor_iff := by
    refine ⟨h.cursor_ne, fun hcursor => ?_⟩
    obtain ⟨id, hid⟩ := Option.ne_none_iff_exists'.mp hcursor
    refine Decidable.byContradiction fun hrest => ?_
    obtain ⟨n, hn⟩ := h.node_of_cursor id hid
    obtain ⟨hmem, rfl⟩ := FlowGraph.mem_of_node? hn
    exact hids n hmem (h.cursor_at_rest (fun hs => hrest (.inl hs)) (fun hs => hrest (.inr hs)) _ hid)
  node_of_cursor := h.node_of_cursor
  waits_at_processed := h.waits_at_processed
  awaits_choice hchoices := Decidable.byContradiction fun hne => hchoices (h.choices_nil hne)
  choices_eq hchoice := by
    have hs : c.status = .suspended := h.suspended_iff.mpr (by simp [hchoice])
    obtain ⟨id, hid⟩ := Option.ne_none_iff_exists'.mp (h.cursor_ne (.inr hs))
    obtain ⟨n, hn⟩ := h.node_of_cursor id hid
    obtain rfl : n.id = id := (FlowGraph.mem_of_node? hn).2
    exact ⟨n, hid, hn, h.choices_eq hchoice n.id n hid hn⟩
  failed_iff := h.failed_iff

namespace Session

variable {s : Setup} {m : Memory} {i : Instruction} {rest agenda : List Instruction} {p : Performed}
  {st st' : State} {log : List Happening}

/-! ## Contexts on the way -/

theorem Performs.events_cases {c : Context} (h : Performs s c i p) :
    p.events = [] ∨ (∃ e, p.events = [e]) ∨ ∃ values,
      p.events = [.variablesSet values, .resumed] ∧ p.lastError = none ∧ c.status = .suspended := by
  cases h with
  | takes hwaits hname hport =>
    rename_i reply node name port
    by_cases hempty : name.isEmpty
    · exact .inr (.inl ⟨.resumed, by simp [keeping, hempty]⟩)
    · exact .inr (.inr ⟨[(name, reply)], by simp [keeping, hempty], rfl, hwaits.suspended⟩)
  | mismatches hwaits hname hport =>
    rename_i reply node name e
    by_cases hempty : name.isEmpty
    · exact .inl (by simp [keeping, hempty])
    · exact .inr (.inl ⟨.variablesSet [(name, reply)], by simp [keeping, hempty]⟩)
  | delivers =>
    rename_i run node result
    by_cases hpatch : (s.feasible result).patch.isEmpty
    · exact .inl (if_pos hpatch)
    · exact .inr (.inl ⟨_, if_neg hpatch⟩)
  | starts => exact .inr (.inl ⟨_, rfl⟩)
  | lacksStart => exact .inr (.inl ⟨_, rfl⟩)
  | lacksWords => exact .inr (.inl ⟨_, rfl⟩)
  | resumes => exact .inr (.inl ⟨_, rfl⟩)
  | loses => exact .inr (.inl ⟨_, rfl⟩)
  | executes => exact .inr (.inl ⟨_, rfl⟩)
  | inquires => exact .inr (.inl ⟨_, rfl⟩)
  | stumbles => exact .inr (.inl ⟨_, rfl⟩)
  | jumps => exact .inr (.inl ⟨_, rfl⟩)
  | moves => exact .inr (.inl ⟨_, rfl⟩)
  | suspends => exact .inr (.inl ⟨_, rfl⟩)
  | terminates => exact .inr (.inl ⟨_, rfl⟩)
  | fails => exact .inr (.inl ⟨_, rfl⟩)
  | finishes => exact .inr (.inl ⟨_, rfl⟩)
  | givesUp => exact .inr (.inl ⟨_, rfl⟩)
  | _ => exact .inl rfl

theorem Setup.Standing.healthy_of_changed (h : s.Standing m none (i :: rest))
    (hp : Performs s m.context i p) {e : Event} {c : Context}
    (hmem : .changed e c ∈ (m.applyAll p.events).2) :
    s.Healthy { m.after p with context := c } := by
  have hafter := h.healthy_after hp
  rcases hp.events_cases with hnil | ⟨e', hone⟩ | ⟨values, htwo, herror, hs⟩
  · simp [hnil, Memory.applyAll] at hmem
  · simp only [hone, Memory.applyAll, List.mem_singleton, Happening.changed.injEq] at hmem
    have hc : (m.after p).context = c := by simp [Memory.after, hone, hmem.2]
    rw [← hc]
    exact hafter
  · simp only [htwo, Memory.applyAll, List.mem_cons, List.not_mem_nil, or_false,
      Happening.changed.injEq] at hmem
    rcases hmem with ⟨-, rfl⟩ | ⟨-, rfl⟩
    · exact .of_sound (h.healthy.sound.variablesSet values) (by simp [Context.apply, hs])
    · have hc : (m.after p).context = (m.context.apply (.variablesSet values)).apply .resumed := by
        simp [Memory.after, htwo]
      rw [← hc]
      exact hafter

theorem event_mem_events {e : Event} {c : Context} (h : .changed e c ∈ log) : e ∈ events log :=
  List.mem_filterMap.mpr ⟨_, h, rfl⟩

theorem State.changed_of_mem_carryOut {op : Nat} {e : Event} {c : Context}
    (h : .changed e c ∈ (st.carryOut s op rest p).2) :
    .changed e c ∈ (st.memory.applyAll p.events).2 := by
  unfold carryOut at h
  cases houtcome : p.outcome <;> simpa [houtcome, Memory.log] using h

theorem healthy_of_changed (hkeeps : st.Keeps s.Standing s.Healthy) {m : Move} (hm : Orderly st m)
    {e : Event} {c : Context} (hmem : .changed e c ∈ (st.step s m).2) :
    s.Healthy { (st.step s m).1.memory with context := c } := by
  by_cases htick : m = .tick
  · subst htick
    simp only [State.step] at hmem ⊢
    rcases State.tick_cases s st with heq | ⟨op, -, heq⟩ | ⟨op, i, rest, hholder, heq⟩
    · simp [heq] at hmem
    · simp [heq] at hmem
    · rw [heq] at hmem ⊢
      rw [State.carryOut_memory]
      exact (hkeeps.held _ hholder).healthy_of_changed (perform_performs i)
        (State.changed_of_mem_carryOut hmem)
  · by_cases hreset : m = .reset
    · subst hreset
      simp only [State.reset_eq, List.mem_singleton, Happening.changed.injEq] at hmem ⊢
      obtain ⟨-, rfl⟩ := hmem
      exact .of_sound (.initial _) (by simp [Context.initial])
    · have hlines : (st.step s m).1.memory = st.memory ∧ events (st.step s m).2 = [] :=
        State.step_lines_up htick hreset hm.1
      have hnone := event_mem_events hmem
      simp [hlines.2] at hnone

/-! ## Sessions at rest -/

/-- The cursor of a running session is at a node that has not been executed since. -/
def Unvisited (c : Context) : Prop :=
  c.status = .running → ∀ id, c.cursor = some id → id ∉ c.processed

/-- What the next instruction needs so that the session does not stop while it is running. -/
def Advances (c : Context) : List Instruction → Prop
  | .enter :: _ => Unvisited c
  | .visit _ :: _ => Unvisited c
  | .start _ :: _ => c.status ≠ .running
  | .accept _ :: _ => c.status ≠ .running
  | .acceptPlayback :: _ => c.status ≠ .running
  | .perform _ :: _ => c.status ≠ .running
  | [] => c.status ≠ .running
  | _ => True

/-- The operation that holds a session will not leave it running. -/
structure Underway (c : Context) (call : Option Call) (agenda : List Instruction) : Prop where
  same : Runs (fun run => c.status = .running → run.turn = c.turn) call agenda
  advances : (∀ run node q, call ≠ some (.inquire run node q)) → Advances c agenda

theorem advances_of_ne_running {c : Context} (h : c.status ≠ .running) : Advances c agenda := by
  unfold Advances
  split <;> first | exact h | exact fun hrunning => absurd hrunning h | trivial

theorem Underway.of_ne_running {c : Context} {call : Option Call} (h : c.status ≠ .running) :
    Underway c call agenda :=
  ⟨⟨fun _ _ hrunning => absurd hrunning h, fun _ _ _ _ hrunning => absurd hrunning h⟩,
    fun _ => advances_of_ne_running h⟩

theorem unvisited_moved (c : Context) (id : String) : Unvisited (c.apply (.moved id)) := by
  intro _ id' hid'
  obtain rfl : id = id' := Option.some.inj hid'
  simp [Context.apply]

theorem advances_of_onward {c : Context} (ho : Onward agenda) (h : Unvisited c) :
    Advances c agenda := by
  cases ho <;> exact h

theorem Setup.Standing.running_before (h : s.Standing m none (i :: rest))
    (hp : Performs s m.context i p) (hrunning : (m.after p).context.status = .running) :
    m.context.status = .running ∨ rest = [] ∧ ∃ todo, p.outcome = .proceed todo ∧
      ∀ j ∈ todo, j.run? = none := by
  have hphase := h.phase
  have hready := h.suits.1
  cases hp with
  | starts hn =>
    cases hphase with
    | opening hi => exact .inr ⟨rfl, _, rfl, by simp [Instruction.run?]⟩
  | takes hwaits hname hport =>
    cases hphase with
    | opening hi => exact .inr ⟨rfl, _, rfl, by simp [Instruction.run?]⟩
  | resumes hnode hawaiting =>
    cases hphase with
    | opening hi => exact .inr ⟨rfl, _, rfl, by simp [Instruction.run?]⟩
  | lacksStart hn => simp [Memory.after, Context.apply] at hrunning
  | lacksWords hn => simp [Memory.after, Context.apply] at hrunning
  | mismatches hwaits hname hport =>
    simp only [Memory.after, status_keeping] at hrunning
    exact .inl hrunning
  | loses hturn hbefore hcursor hnode => exact .inl hbefore
  | delivers => exact .inl (running_of_deliver hready)
  | jumps => exact .inl (running_of_leave hready)
  | moves hid => exact .inl (running_of_leave hready)
  | suspends => simp [Memory.after, Context.apply] at hrunning
  | terminates => simp [Memory.after, Context.apply] at hrunning
  | fails => simp [Memory.after, Context.apply] at hrunning
  | finishes => simp [Memory.after, Context.apply] at hrunning
  | givesUp => simp [Memory.after, Context.apply] at hrunning
  | _ => exact .inl hrunning

theorem Setup.Standing.same_after (h : s.Standing m none (i :: rest))
    (hsame : Runs (fun run => m.context.status = .running → run.turn = m.context.turn) none
      (i :: rest))
    (hp : Performs s m.context i p) :
    p.outcome.Leads (Runs fun run => (m.after p).context.status = .running →
      run.turn = (m.after p).context.turn) rest := by
  have hturn : (m.after p).context.turn = m.context.turn := hp.turn_eq
  by_cases hrunning : (m.after p).context.status = .running
  · rcases h.running_before hp hrunning with hbefore | ⟨rfl, todo, houtcome, htodo⟩
    · have hleads := Runs.performs (fun _ _ _ => rfl) (fun _ _ hrun => hrun) hsame hp
      refine hleads.mono fun call agenda hruns => hruns.mono fun run hrun _ => ?_
      rw [hturn]
      exact hrun hbefore
    · rw [houtcome]
      refine ⟨by simp, fun j hj run hrun => ?_⟩
      have hnone := htodo j (by simpa using hj)
      simp [hnone] at hrun
  · -- nothing is asked of the runs of a session that is not running
    have hvacuous : ∀ call agenda, Runs (fun run => (m.after p).context.status = .running →
        run.turn = (m.after p).context.turn) call agenda :=
      fun call agenda => ⟨fun _ _ hr => absurd hr hrunning, fun _ _ _ _ hr => absurd hr hrunning⟩
    cases p.outcome <;> first | exact hvacuous _ _ | trivial

theorem advances_delivery {c : Context} {run : Run} {node : Node} {r : ExecutionResult}
    (hr : r.Suits node) : Advances c (delivery run node r) := by
  cases hr with
  | silent port metadata => trivial
  | speaks m hm t ht patch metadata =>
    cases t with
    | suspend reason choices => exact ht.elim
    | _ => trivial
  | asks m hm call reason hcall => trivial

theorem Setup.Standing.advances_after (h : s.Standing m none (i :: rest))
    (hunder : Underway m.context none (i :: rest)) (hp : Performs s m.context i p) :
    p.outcome.Leads (fun call agenda => (∀ run node q, call ≠ some (.inquire run node q)) →
      Advances (m.after p).context agenda) rest := by
  have hphase := h.phase
  have hadvances : Advances m.context (i :: rest) := hunder.advances (by simp)
  have hsame : ∀ run, i.run? = some run → m.context.status = .running →
      m.context.turn = run.turn :=
    fun run hrun hrunning => (hunder.same.agenda i List.mem_cons_self run hrun hrunning).symm
  cases hp with
  | starts hn =>
    cases hphase with
    | opening hi => exact fun _ _ id _ => by simp [Memory.after, Context.apply]
  | lacksStart hn => exact fun _ => advances_of_ne_running (by simp [Memory.after, Context.apply])
  | takes hwaits hname hport => exact fun _ => trivial
  | resumes hnode hawaiting => exact fun _ => trivial
  | drops hwaits => exact fun _ => hadvances
  | ignores hwaits => exact fun _ => hadvances
  | enters =>
    cases hphase with
    | opening hi => exact fun _ => hadvances
  | halts hstay =>
    -- the visit stops at a node only if it has been executed, and a running session has left it
    intro _ hrunning
    have hrunning : m.context.status = .running := hrunning
    obtain ⟨id, hid⟩ := Option.ne_none_iff_exists'.mp (h.healthy.sound.cursor_ne (.inl hrunning))
    exact hadvances hrunning id hid (hstay (hsame _ rfl hrunning) hrunning id hid)
  | abandons hturn => exact fun _ hrunning => hturn (hsame _ rfl hrunning)
  | discards hturn => exact fun _ hrunning => hturn (hsame _ rfl hrunning)
  | loses => exact fun _ => advances_of_ne_running (by simp [Memory.after, Context.apply])
  | exceeds => exact fun _ => trivial
  | pauses => exact fun _ => trivial
  | hurries => exact fun _ => trivial
  | executes => exact fun _ => trivial
  | inquires => exact fun hcall => absurd rfl (hcall _ _ _)
  | concludes => exact fun _ => trivial
  | delivers =>
    cases hphase with
    | opening hi => exact hi.elim
    | delivering hr =>
      intro _
      rw [List.append_nil]
      exact advances_delivery (feasible_suits hr)
  | sends =>
    cases hphase with
    | opening hi => exact hi.elim
    | saying ht => exact fun _ => trivial
    | questioning hm hcall => exact fun _ => trivial
  | requests => exact fun _ => advances_of_ne_running hadvances
  | skips => exact fun _ => advances_of_ne_running hadvances
  | jumps =>
    cases hphase with
    | opening hi => exact hi.elim
    | leaving hc ht ho => exact ht.elim
  | moves hid =>
    cases hphase with
    | opening hi => exact hi.elim
    | leaving hc ht ho => exact fun _ => advances_of_onward ho (unvisited_moved _ _)
  | closes => exact fun _ => trivial
  | closesLost => exact fun _ => trivial
  | suspends => exact fun _ => advances_of_ne_running (by simp [Memory.after, Context.apply])
  | terminates => exact fun _ => advances_of_ne_running (by simp [Memory.after, Context.apply])
  | fails => exact fun _ => advances_of_ne_running (by simp [Memory.after, Context.apply])
  | finishes => exact fun _ => advances_of_ne_running (by simp [Memory.after, Context.apply])
  | givesUp => exact fun _ => advances_of_ne_running (by simp [Memory.after, Context.apply])
  | _ => trivial

/-- Whether an operation has failed. -/
def Happening.isFailure : Happening → Bool
  | .finished _ (.error _) => true
  | _ => false

/-- An orderly move with which no operation fails. -/
def Successful (s : Setup) (st : State) (m : Move) : Prop :=
  Orderly st m ∧ ∀ x ∈ (st.step s m).2, ¬ x.isFailure

/-- A considerate move with which no operation fails. -/
def Faultless (s : Setup) (st : State) (m : Move) : Prop :=
  Considerate st m ∧ ∀ x ∈ (st.step s m).2, ¬ x.isFailure

theorem underway_considerate (s : Setup) :
    Stable s (Faultless s)
      (fun m call agenda => s.Standing m call agenda ∧ Underway m.context call agenda)
      (fun m => s.Healthy m ∧ m.context.status ≠ .running) where
  opens hfree hi := ⟨(standing_considerate s).opens hfree.1 hi, .of_ne_running hfree.2⟩
  ends h := ⟨h.1.healthy, h.2.advances (by simp)⟩
  performs h hp := by
    have hstanding := (standing_considerate s).performs h.1 hp
    have hsame := h.1.same_after h.2.same hp
    have hadvances := h.1.advances_after h.2 hp
    exact ((hstanding.and hsame).and hadvances).mono fun call agenda hall =>
      ⟨hall.1.1, hall.1.2, hall.2⟩
  fails {st op i rest p e} hm hholder hp houtcome _ := by
    refine absurd rfl (hm.2 (.finished op (.error e)) ?_)
    simp [State.step, State.tick_eq_carryOut hholder hp, State.carryOut, houtcome]
  answers {m r agenda} h :=
    ⟨(standing_considerate s).answers h.1, h.2.same.answer, fun _ => h.2.advances (by simp)⟩
  raises {st op r agenda e} hm hholder _ := by
    refine absurd rfl (hm.2 (.finished op (.error e)) ?_)
    simp only [State.step, State.answer]
    cases st.echoes.find? (·.1 == op) with
    | some echo => simp
    | none => simp [hholder]
  concludes reply h :=
    ⟨(standing_considerate s).concludes reply h.1, h.2.same.conclude, fun _ => trivial⟩
  resets hm hholder h :=
    ⟨(standing_considerate s).resets hm.1 hholder h.1,
      .of_ne_running (by simp [Memory.reset, Context.initial])⟩
  resetsFree _ _ _ := ⟨.reset _, by simp [Memory.reset, Context.initial]⟩
  restores hm _ _ := absurd rfl (hm.1.1 _)
  restoresFree hm _ _ := absurd rfl (hm.1.1 _)

theorem underway_stable (s : Setup) :
    Stable s (Successful s)
      (fun m call agenda => s.Standing m call agenda ∧ Underway m.context call agenda)
      (fun m => s.Healthy m ∧ m.context.status ≠ .running) :=
  (underway_considerate s).mono fun _ _ hm => ⟨hm.1.considerate, hm.2⟩

theorem Course.unfailing {allows : State → Move → Prop} (course : Course s allows st log st')
    (hlog : ∀ x ∈ log, ¬ x.isFailure) :
    Course s (fun st m => allows st m ∧ ∀ x ∈ (st.step s m).2, ¬ x.isFailure) st log st' := by
  induction course with
  | refl => exact .refl
  | tail _ m hm ih =>
    have hearlier := ih fun x hx => hlog x (List.mem_append_left _ hx)
    exact .tail hearlier m ⟨hm, fun x hx => hlog x (List.mem_append_right _ hx)⟩

theorem Course.successful (course : Course s Orderly st log st')
    (hlog : ∀ x ∈ log, ¬ x.isFailure) : Course s (Successful s) st log st' :=
  course.unfailing hlog

theorem Course.ne_running (course : Course s Considerate {} log st)
    (hlog : ∀ x ∈ log, ¬ x.isFailure) (hholder : st.holder = none) :
    st.memory.context.status ≠ .running := by
  have hfaultless : Course s (Faultless s) {} log st := course.unfailing hlog
  have hunder := (underway_considerate s).course hfaultless
    (State.keeps_new ⟨s.healthy_new, by simp [Context.initial]⟩)
  exact (hunder.free hholder).2

theorem visit_silent {c : Context} (h : c.Sound s.graph) (run : Run) :
    (s.perform c (.visit run)).events = [] := by
  have hp : Performs s c (.visit run) (s.perform c (.visit run)) := perform_performs _
  generalize s.perform c (.visit run) = p at hp ⊢
  cases hp with
  | loses hturn hrunning hcursor hnode =>
    obtain ⟨n, hn⟩ := h.node_of_cursor _ hcursor
    simp [hnode] at hn
  | _ => rfl

/-- In a graph without empty ids, every context that a session comes to is well formed, and a failure
is explained as soon as its context is there; no visit ever ends a session because there is no node
under the cursor. As long as no operation has failed, a session that nobody holds is not running. -/
theorem every_context_wellFormed (hids : ∀ n ∈ s.graph.nodes, n.id ≠ "")
    (course : Course s Orderly {} log st) :
    st.memory.context.WellFormed s.graph ∧
      (∀ m, Orderly st m → ∀ e c, .changed e c ∈ (st.step s m).2 →
        c.WellFormed s.graph ∧
          (c.status = .failed → (st.step s m).1.memory.lastError = some c.error)) ∧
      (∀ run, (s.perform st.memory.context (.visit run)).events = []) ∧
      ((∀ x ∈ log, ¬ x.isFailure) → st.holder = none →
        st.memory.context.status ≠ .running) := by
  have hkeeps := course.standing
  refine ⟨hkeeps.healthy.sound.wellFormed hids, fun m hm e c hmem => ?_,
    visit_silent hkeeps.healthy.sound, fun hlog hholder => ?_⟩
  · have hhealthy := healthy_of_changed hkeeps hm hmem
    exact ⟨hhealthy.sound.wellFormed hids, hhealthy.explained⟩
  · have hunder := (underway_stable s).course (course.successful hlog)
      (State.keeps_new ⟨s.healthy_new, by simp [Context.initial]⟩)
    exact (hunder.free hholder).2

/-- The first question is put to the user, and the operation that put it is over. -/
def toFirstQuestion : List Move :=
  toQuestion ++ [.answer 0 (.value .null), .tick, .tick, .answer 0 (.value .null), .tick, .tick]

theorem asked_context_wellFormed :
    let st := (State.steps questioning {} toFirstQuestion).1
    st.memory.context.status = .suspended ∧ st.memory.context.WellFormed questioning.graph ∧
      st.holder = none ∧ st.memory.context.status ≠ .running := by
  have course : Course questioning Orderly {} _ (State.steps questioning {} toFirstQuestion).1 :=
    Course.of_steps toFirstQuestion
      (State.allows_of_forall (by simp [toFirstQuestion, toQuestion, Orderly]))
  obtain ⟨hformed, -, -, hrest⟩ := every_context_wellFormed (by decide) course
  exact ⟨rfl, hformed, rfl, hrest (by decide) rfl⟩

end Session

end ChatFlow
