import ChatFlow.Proofs.Graph.Routing
import ChatFlow.Proofs.Session.Request

/-!
# Closing messages

There are five ways to finish a session (`Setup.Closes`), and each has a message of its own. An
operation that finishes a session says that message once and last, and everything it has said before
was said at nodes that go on (`Setup.Passing`): `Course.closes`. To see this, the messages of an
operation are followed together with what it has left to do (`Setup.Tells`).
-/

namespace ChatFlow

/-- Whether a session can finish with an event. -/
def Event.Finishing : Event → Prop
  | .terminated => True
  | .failed _ => True
  | .started none _ => True
  | _ => False

theorem Context.cursor_of_finishing {c : Context} {e : Event} (he : e.Finishing) :
    (c.apply e).cursor = none := by
  cases e with
  | terminated | failed error => rfl
  | started node vars =>
    cases node with
    | none => rfl
    | some id => exact he.elim
  | _ => exact he.elim

/-- Whether a session does not finish with a transition. -/
def Transition.GoesOn : Transition → Prop
  | .advanceVia _ => True
  | .suspend _ _ => True
  | _ => False

namespace Session

open ExecutionResult EngineConfig

/-- No saved context is adopted, an operation that holds the session is not reset while a message is
delivered, and no collaborator comes back with an error. -/
def Gentle (st : State) (m : Move) : Prop :=
  Considerate st m ∧ ∀ op e, m ≠ .answer op (.raised e)

/-- The message that a request delivers. -/
def Request.message? : Request → Option Message
  | .message m => some m
  | _ => none

/-- The messages of an operation in order. -/
def saidBy (op : Nat) (log : List Happening) : List Message :=
  (callsBy op log).filterMap Request.message?

variable (s : Setup)

/-- A spoken reply as it is shown. -/
def Setup.Echo (m : Message) : Prop :=
  ∃ content, m = Message.stamp s.id { content := content, sender := .user }

/-- What a node has come to, with the variables as they are as long as the result changes none. -/
def Setup.Bears (vars : Fields) (n : Node) (r : ExecutionResult) : Prop :=
  ∃ d, s.Yields n d r ∧ ∀ vars', d = .alone vars' → r.patch = [] → vars' = vars

/-- What is said without closing the session. -/
inductive Setup.Passing : Message → Prop
  | echo {m : Message} (h : s.Echo m) : Passing m
  | node {vars : Fields} {n : Node} {r : ExecutionResult} {m : Message} (hr : s.Bears vars n r)
      (ht : r.transition.GoesOn) (hm : m ∈ r.messages) : Passing (m.stamp s.id)

/-- How a node is left, and what has been said for it: its result is carried out, or the session has
been resumed there. -/
inductive Setup.Parts (vars : Fields) (n : Node) (t : Transition) : List Message → Prop
  | runs {r : ExecutionResult} (hr : s.Bears vars n r) (ht : r.transition = t) :
      Parts vars n t r.messages
  | resumes {port : Option String} (ht : t = .advanceVia port) : Parts vars n t []

/-- The ways in which a session can finish: the event and the closing message. -/
inductive Setup.Closes (c : Context) : Event → Message → Prop
  /-- The end node under the cursor says its text. -/
  | ends {n : Node} {d : EndData} {text : String} (hn : s.Faces c n) (hbody : n.body = .ending d)
      (htext : Executor.orTemplate d.message s.config.endMessage = .ok text) :
      Closes c .terminated { content := Template.interpolate text c.vars, node := n.id }
  /-- No edge leads on from the node under the cursor, which has been executed or resumed. -/
  | deadEnd {n : Node} {port : Option String} {own : List Message} {m : Message}
      (hn : s.Faces c n) (hparts : s.Parts c.vars n (.advanceVia port) own)
      (hedges : ∀ e ∈ s.graph.edges, ¬ e.Serves n.id port)
      (hm : notice s.config.endOfFlowMessage n.id = .ok m) : Closes c .terminated m
  /-- The outcome of the action under the cursor breaks the contract of its adapter. -/
  | violates {n : Node} {a : ActionData} {reply : Reply} {port text : String} (hn : s.Faces c n)
      (hbody : n.body = .businessAction a)
      (ho : ∀ o, reply.outcome? = some o → o.port ∉ actionPorts)
      (htext : contentOf s.config.contractViolationMessage = .ok text) :
      Closes c (.failed (EngineError.contractViolation n.id port actionPorts).message)
        { content := text, sender := .system, node := n.id }
  /-- The run that comes to the node under the cursor has come to too many nodes. -/
  | tires {n : Node} {m : Message} {steps : Nat} (hn : s.Faces c n)
      (hreached : reached s.config.maxSteps steps = .ok true)
      (hm : notice s.config.stepLimitMessage n.id = .ok m) :
      Closes c (.failed Setup.tooManySteps) m
  /-- There is no start node. -/
  | startsNowhere {vars : Fields} {m : Message} (hn : ∀ n ∈ s.graph.nodes, n.type? ≠ some .start)
      (hm : notice s.config.missingStartMessage "" = .ok m) : Closes c (.started none vars) m

/-- What an operation has said suits what it has left to do. -/
def Setup.Tells (c : Context) (said : List Message) : List Instruction → Prop
  | .start _ :: _ => ∀ m ∈ said, s.Passing m
  | .accept _ :: _ => ∀ m ∈ said, s.Passing m
  | .acceptPlayback :: _ => ∀ m ∈ said, s.Passing m
  | .deliver _ n r :: _ => (∀ m ∈ said, s.Passing m) ∧ s.Bears c.vars n (s.feasible r)
  | .send m :: .leave n t :: _ => (∀ m ∈ said, s.Passing m) ∧
      ∃ r, s.Bears c.vars n r ∧ r.transition = t ∧ r.messages = [m]
  | .leave n t :: _ => ∃ passed own, said = passed ++ own.map (Message.stamp s.id) ∧
      (∀ m ∈ passed, s.Passing m) ∧ s.Parts c.vars n t own
  | .close :: _ => ∃ passed m, said = passed ++ [m.stamp s.id] ∧ (∀ m ∈ passed, s.Passing m) ∧
      s.Closes c .terminated m
  | .giveUp :: _ => ∃ passed m, said = passed ++ [m.stamp s.id] ∧ (∀ m ∈ passed, s.Passing m) ∧
      s.Closes c (.failed Setup.tooManySteps) m
  | _ => c.status = .running → ∀ m ∈ said, s.Passing m

variable {s} {st st' : State} {log later : List Happening} {c : Context} {i : Instruction}
  {rest agenda : List Instruction} {p : Performed} {op : Nat} {said : List Message}

/-! ## What an operation has said -/

theorem saidBy_append : saidBy op (log ++ later) = saidBy op log ++ saidBy op later := by
  simp [saidBy, callsBy_append]

theorem mem_saidBy {m : Message} : m ∈ saidBy op log ↔ .called op (.message m) ∈ log := by
  constructor
  · intro h
    obtain ⟨r, hr, hm⟩ := List.mem_filterMap.mp h
    obtain ⟨x, hx, hcalls⟩ := List.mem_filterMap.mp hr
    cases r with
    | message m' =>
      obtain rfl : m' = m := by simpa [Request.message?] using hm
      cases x with
      | called k r' =>
        by_cases hk : k = op
        · subst hk
          obtain rfl : r' = .message m' := by simpa using hcalls
          exact hx
        · simp [hk] at hcalls
      | _ => simp at hcalls
    | _ => simp [Request.message?] at hm
  · intro h
    refine List.mem_filterMap.mpr ⟨.message m, List.mem_filterMap.mpr ⟨_, h, ?_⟩, rfl⟩
    simp

theorem saidBy_eq_nil (h : ∀ m, .called op (.message m) ∉ log) : saidBy op log = [] :=
  List.eq_nil_iff_forall_not_mem.mpr fun m hm => h m (mem_saidBy.mp hm)

/-- What an operation has said after an instruction. -/
def Setup.saidAfter (s : Setup) (said : List Message) : Outcome → List Message
  | .call call _ =>
    match s.requestOf call with
    | .message m => said ++ [m]
    | _ => said
  | _ => said

theorem saidBy_carryOut (s : Setup) (log : List Happening) (st : State) (op : Nat)
    (rest : List Instruction) (p : Performed) :
    saidBy op (log ++ (st.carryOut s op rest p).2) = s.saidAfter (saidBy op log) p.outcome := by
  have hown : saidBy op (st.memory.log p) = [] := by
    refine saidBy_eq_nil fun m hm => ?_
    rcases Memory.mem_log hm with ⟨e, c, heq⟩ | ⟨n, heq⟩ <;> simp at heq
  unfold State.carryOut
  cases p.outcome with
  | call call todo =>
    simp only [saidBy_append, hown, List.nil_append, Setup.saidAfter]
    cases s.requestOf call <;> simp [saidBy, callsBy, Request.message?]
  | fail e =>
    simp only [saidBy_append, hown, List.nil_append]
    exact List.append_nil _
  | proceed todo | stop => simp [saidBy_append, hown, Setup.saidAfter]

/-! ## What an instruction says -/

theorem tells_of_onward (ho : Onward agenda) (h : c.status ≠ .running ∨ ∀ m ∈ said, s.Passing m) :
    s.Tells c said agenda := by
  cases ho <;> exact fun hrunning => h.elim (absurd hrunning) id

theorem Setup.Parts.passing {vars : Fields} {n : Node} {t : Transition} {own : List Message}
    (h : s.Parts vars n t own) (ht : t.GoesOn) :
    ∀ m ∈ own.map (Message.stamp s.id), s.Passing m := by
  intro m hm
  obtain ⟨m, hmem, rfl⟩ := List.mem_map.mp hm
  cases h with
  | runs hr heq => exact .node hr (heq ▸ ht) hmem
  | resumes => simp at hmem

theorem passing_append {said' : List Message} (h : ∀ m ∈ said, s.Passing m)
    (h' : ∀ m ∈ said', s.Passing m) : ∀ m ∈ said ++ said', s.Passing m := fun m hm =>
  (List.mem_append.mp hm).elim (h m) (h' m)

theorem tells_delivery {run : Run} {n : Node} {r : ExecutionResult} (hr : r.Suits n)
    (hbears : s.Bears c.vars n r) (h : ∀ m ∈ said, s.Passing m) :
    s.Tells c said (delivery run n r) := by
  cases hr with
  | silent port metadata => exact ⟨said, [], by simp, h, .runs hbears rfl⟩
  | speaks m hm t ht patch metadata =>
    cases t with
    | suspend reason choices => exact ht.elim
    | _ => exact ⟨h, _, hbears, rfl, rfl⟩
  | asks m hm call reason hcall => exact ⟨h, _, hbears, rfl, rfl⟩

theorem Setup.Bears.patched {n : Node} {r : ExecutionResult} (h : s.Bears c.vars n r) :
    s.Bears ((if r.patch.isEmpty then [] else [Event.variablesSet r.patch]).foldl
      Context.apply c).vars n r := by
  obtain ⟨d, hd, hvars⟩ := h
  refine ⟨d, hd, fun vars' hvars' hpatch => ?_⟩
  simp [hpatch, hvars vars' hvars' hpatch]

theorem Setup.Tells.performs (h : s.Tells c said (i :: rest)) (hready : s.Ready c (i :: rest))
    (hderives : s.Derives none (i :: rest)) (hp : Performs s c i p) :
    p.outcome.Leads (fun _ agenda => s.Tells (p.events.foldl Context.apply c)
      (s.saidAfter said p.outcome) agenda) rest := by
  have hphase := hderives.phase
  have hstems := hderives.stems
  cases hp with
  | starts hn =>
    cases hphase with
    | opening hi => exact fun _ => h
  | lacksStart =>
    cases hphase with
    | opening hi => exact fun hrunning => by simp [Context.apply] at hrunning
  | takes =>
    cases hphase with
    | opening hi => exact ⟨said, [], by simp [Setup.saidAfter], h, .resumes rfl⟩
  | resumes =>
    cases hphase with
    | opening hi => exact ⟨said, [], by simp [Setup.saidAfter], h, .resumes rfl⟩
  | enters =>
    cases hphase with
    | opening hi => exact h
  | drops | ignores => exact fun _ => h
  | halts | abandons | discards => exact h
  | loses => exact fun hrunning => by simp [Context.apply] at hrunning
  | exceeds hcomes hreached hm =>
    exact ⟨said, _, rfl, h hcomes.running,
      .tires ⟨hcomes.running, hcomes.cursor_eq, hcomes.node_eq⟩ hreached hm⟩
  | pauses hcomes | hurries hcomes => exact fun _ => h hcomes.running
  | executes hturn hr hbegin =>
    have hfaces : s.Faces c _ := hready hturn
    refine ⟨h hfaces.running, _,
      .alone (Executor.begin_results hbegin), ?_⟩
    rintro vars' heq -
    exact (Decision.alone.inj heq).symm
  | inquires hturn hq =>
    have hfaces : s.Faces c _ := hready hturn
    cases hphase with
    | opening hi => exact hi.elim
    | executing =>
      rename_i q
      cases q <;> exact fun _ => h hfaces.running
  | concludes hturn hr hconclude =>
    have hstands : s.StandsAt c _ := hready hturn
    exact ⟨h hstands.running, _,
      .told hstems (Executor.conclude_results hconclude), by simp⟩
  | delivers =>
    cases hphase with
    | opening hi => exact hi.elim
    | delivering hr =>
      rename_i run n r
      show s.Tells _ _ (delivery run n (s.feasible r) ++ [])
      rw [List.append_nil]
      exact tells_delivery (feasible_suits hr) h.2.patched h.1
  | sends =>
    cases hphase with
    | opening hi => exact hi.elim
    | saying | questioning =>
      obtain ⟨hpassing, r, hbears, ht', hmessages⟩ := h
      exact ⟨said, r.messages, by rw [hmessages]; rfl, hpassing, .runs hbears ht'⟩
  | requests hr =>
    rename_i call r
    have hfrom := Phase.fromNode_of_requests hr
    cases hphase with
    | opening hi => exact hi.elim
    | telling => cases r <;> first | exact h | exact hfrom.elim
  | skips =>
    cases hphase with
    | opening hi => exact hi.elim
    | telling => exact h
  | jumps =>
    cases hphase with
    | opening hi => exact hi.elim
    | leaving hc ht ho => exact ht.elim
  | moves =>
    cases hphase with
    | opening hi => exact hi.elim
    | leaving hc ht ho =>
      obtain ⟨passed, own, rfl, hpassing, hparts⟩ := h
      refine tells_of_onward ho (.inr ?_)
      exact passing_append hpassing (hparts.passing trivial)
  | closes hnone hcursor hm =>
    obtain ⟨passed, own, rfl, hpassing, hparts⟩ := h
    have hstands : s.StandsAt c _ := hready
    exact ⟨_, _, rfl, passing_append hpassing (hparts.passing trivial),
      .deadEnd hstands.toFaces hparts
        (fun e he => FlowGraph.not_serves_of_targets hnone he) hm⟩
  | closesLost hnone hcursor =>
    have hstands : s.StandsAt c _ := hready
    simp [hstands.cursor_eq] at hcursor
  | suspends =>
    cases hphase with
    | opening hi => exact hi.elim
    | leaving hc ht ho => exact ht.elim
    | suspending => exact fun hrunning => by simp [Context.apply] at hrunning
  | terminates | fails =>
    cases hphase with
    | opening hi => exact hi.elim
    | leaving hc ht ho => exact tells_of_onward ho (.inl (by simp [Context.apply]))
  | finishes =>
    cases hphase with
    | opening hi => exact hi.elim
    | closing hc ho => exact tells_of_onward ho (.inl (by simp [Context.apply]))
  | givesUp => exact fun hrunning => by simp [Context.apply] at hrunning
  | lacksWords | misnames | mismatches | breaksOff | stumbles | misleads | cannotSpeak
  | closesMute => trivial

/-! ## Finishing -/

theorem winding_of_onward (ho : Onward agenda) : Winding agenda := by
  cases ho with
  | visit run => exact .visit run
  | enter => exact .enter

theorem changed_single {m : Memory} {e e' : Event} (h : .changed e c ∈ (m.applyAll [e']).2) :
    e = e' ∧ c = m.context.apply e' := by
  simpa [Memory.applyAll] using h

theorem Performs.finishing {m : Memory} (hids : ∀ n ∈ s.graph.nodes, n.id ≠ "")
    (hready : s.Ready m.context (i :: rest)) (hp : Performs s m.context i p) {e : Event}
    (he : .changed e c ∈ (m.applyAll p.events).2) (hfinished : c.isFinished) :
    p.events = [e] ∧ c = m.context.apply e ∧ e.Finishing := by
  have hrest : c.status = .ended ∨ c.status = .failed := by
    simpa [Context.isFinished] using hfinished
  cases hp with
  | starts hn =>
    obtain ⟨rfl, rfl⟩ := changed_single he
    have hid := hids _ (FlowGraph.mem_of_startNode? hn)
    simp [Context.apply, hid] at hrest
  | lacksStart | lacksWords | loses | terminates | fails | finishes | givesUp =>
    obtain ⟨rfl, rfl⟩ := changed_single he
    exact ⟨rfl, rfl, trivial⟩
  | takes hwaits =>
    unfold keeping at he
    split at he
    · obtain ⟨rfl, rfl⟩ := changed_single he
      simp [Context.apply] at hrest
    · simp only [List.cons_append, List.nil_append, Memory.applyAll, List.mem_cons,
        Happening.changed.injEq, List.not_mem_nil, or_false] at he
      obtain ⟨-, rfl⟩ | ⟨-, rfl⟩ := he
      · simp [Context.apply, hwaits.suspended] at hrest
      · simp [Context.apply] at hrest
  | mismatches hwaits =>
    unfold keeping at he
    split at he
    · simp [Memory.applyAll] at he
    · obtain ⟨rfl, rfl⟩ := changed_single he
      simp [Context.apply, hwaits.suspended] at hrest
  | resumes | jumps | moves | suspends =>
    obtain ⟨rfl, rfl⟩ := changed_single he
    simp [Context.apply] at hrest
  | executes hturn | inquires hturn | stumbles hturn =>
    obtain ⟨rfl, rfl⟩ := changed_single he
    have hfaces : s.Faces m.context _ := hready hturn
    simp [Context.apply, hfaces.running] at hrest
  | delivers =>
    have hrunning := running_of_deliver hready
    dsimp only at he
    split at he
    · simp [Memory.applyAll] at he
    · obtain ⟨rfl, rfl⟩ := changed_single he
      simp [Context.apply, hrunning] at hrest
  | _ => simp [Memory.applyAll] at he

/-- An instruction that finishes a session is preceded by the closing message, or delivers it, and
then the operation winds up. -/
theorem Setup.Tells.closes {m : Memory} (htext : ∃ text, s.config.missingStartMessage = .str text)
    (h : s.Tells m.context said (i :: rest)) (hsound : m.context.Sound s.graph)
    (hready : s.Ready m.context (i :: rest)) (hphase : Phase none (i :: rest))
    (hp : Performs s m.context i p) {e : Event} (hevents : p.events = [e])
    (he : e.Finishing) :
    (∃ passed closing, s.saidAfter said p.outcome = passed ++ [closing.stamp s.id] ∧
      (∀ m ∈ passed, s.Passing m) ∧ s.Closes m.context e closing) ∧
    (∀ error, p.outcome ≠ .fail error) ∧
    p.outcome.Leads (fun call agenda => Winding agenda ∧
      ∀ run n q, call ≠ some (.inquire run n q)) rest := by
  cases hp with
  | lacksStart hn hm =>
    obtain rfl := List.singleton_inj.mp hevents
    cases hphase with
    | opening hi =>
      exact ⟨⟨said, _, rfl, h, .startsNowhere
        (fun n hn' => FlowGraph.type?_ne_start_of_startNode? hn hn') hm⟩, by simp, .over,
        by simp [Setup.sending]⟩
  | lacksWords hn hm =>
    obtain ⟨text, htext⟩ := htext
    simp [notice, htext, contentOf, bind, Except.bind, pure, Except.pure] at hm
  | loses hturn hrunning hcursor hnode =>
    obtain ⟨n, hn⟩ := hsound.node_of_cursor _ hcursor
    simp [hnode] at hn
  | terminates =>
    obtain rfl := List.singleton_inj.mp hevents
    have hstands : s.StandsAt m.context _ := hready
    obtain ⟨passed, own, rfl, hpassing, hparts⟩ := h
    cases hphase with
    | opening hi => exact hi.elim
    | leaving hc ht ho =>
      cases hparts with
      | resumes ht' => simp at ht'
      | runs hbears ht' =>
        obtain ⟨d, hd, hvars⟩ := hbears
        obtain ⟨d', text, vars, hbody, rfl, htext, hmessages, hpatch⟩ := hd.ends ht'
        obtain rfl := hvars vars rfl hpatch
        rw [hmessages]
        exact ⟨⟨passed, _, rfl, hpassing,
          .ends hstands.toFaces hbody htext⟩, by simp,
          winding_of_onward ho, by simp⟩
  | fails =>
    obtain rfl := List.singleton_inj.mp hevents
    have hstands : s.StandsAt m.context _ := hready
    obtain ⟨passed, own, rfl, hpassing, hparts⟩ := h
    cases hphase with
    | opening hi => exact hi.elim
    | leaving hc ht ho =>
      cases hparts with
      | resumes ht' => simp at ht'
      | runs hbears ht' =>
        obtain ⟨d, hd, -⟩ := hbears
        obtain ⟨a, vars, reply, port, text, hbody, -, ho', rfl, htext, hmessages⟩ :=
          hd.violates ht'
        rw [hmessages]
        exact ⟨⟨passed, _, rfl, hpassing,
          .violates hstands.toFaces hbody ho' htext⟩, by simp,
          winding_of_onward ho, by simp⟩
  | finishes =>
    obtain rfl := List.singleton_inj.mp hevents
    cases hphase with
    | opening hi => exact hi.elim
    | closing hc ho => exact ⟨h, by simp, winding_of_onward ho, by simp⟩
  | givesUp =>
    obtain rfl := List.singleton_inj.mp hevents
    exact ⟨h, by simp, .over, by simp⟩
  | takes =>
    unfold keeping at hevents
    split at hevents
    · obtain rfl := List.singleton_inj.mp hevents
      exact he.elim
    · simp at hevents
  | mismatches =>
    unfold keeping at hevents
    split at hevents
    · simp at hevents
    · obtain rfl := List.singleton_inj.mp hevents
      exact he.elim
  | delivers =>
    dsimp only at hevents
    split at hevents
    · simp at hevents
    · obtain rfl := List.singleton_inj.mp hevents
      exact he.elim
  | starts | resumes | jumps | moves | suspends | executes | inquires | stumbles =>
    obtain rfl := List.singleton_inj.mp hevents
    exact he.elim
  | _ => simp at hevents

/-! ## Along a course -/

theorem Makes.keeps_holder {m : Move} (h : Makes s st m st' log) (hnumbered : st.Numbered)
    {holder : Holder} (hholder : st.holder = some holder) (hmem : holder.op ∈ st'.operations) :
    ∃ holder', st'.holder = some holder' ∧ holder'.op = holder.op := by
  cases h with
  | passes hmemory hsame | resets hmemory hsame | restores hmemory hsame =>
    exact ⟨holder, hsame.trans hholder, rfl⟩
  | opens hnone => simp [hholder] at hnone
  | hears hbefore hmemory hafter | learns hbefore hmemory hafter =>
    obtain rfl := Option.some.inj (hholder.symm.trans hbefore)
    exact ⟨_, hafter, rfl⟩
  | breaks hbefore hmemory hafter hgone | ends hbefore hmemory hafter hgone =>
    obtain rfl := Option.some.inj (hholder.symm.trans hbefore)
    exact absurd hmem hgone
  | acts hbefore =>
    obtain rfl := Option.some.inj (hholder.symm.trans hbefore)
    rename_i op i rest
    unfold State.carryOut at hmem ⊢
    cases houtcome : (s.perform st.memory.context i).outcome with
    | fail e =>
      rw [houtcome] at hmem
      exact absurd hmem (hnumbered.not_mem_released hholder)
    | proceed todo | call call todo | stop => exact ⟨_, rfl, rfl⟩

theorem Makes.of_message {mv : Move} {m : Message} (h : Makes s st mv st' log)
    (hm : .called op (.message m) ∈ log) :
    s.Echo m ∨ ∃ holder, st.holder = some holder ∧ holder.op = op := by
  cases h with
  | passes hmemory hsame hlog =>
    cases hlog _ hm with
    | shows => exact .inl ⟨_, rfl⟩
  | acts hbefore =>
    rename_i holder i rest
    obtain ⟨rfl, -⟩ := State.called_of_mem_carryOut hm
    exact .inr ⟨_, hbefore, rfl⟩
  | breaks | ends | resets | restores => simp at hm
  | opens | hears | learns => simp at hm

theorem Course.reserved {allows : State → Move → Prop} (course : Course s allows {} log st)
    {m : Message} (h : m ∈ saidBy op log) :
    s.Echo m ∨ op < st.nextOp ∧
      (op ∈ st.operations → ∃ holder, st.holder = some holder ∧ holder.op = op) := by
  induction course with
  | refl => simp [saidBy, callsBy] at h
  | @tail log st course mv hmv ih =>
    have hnumbered := course.numbered State.numbered_new
    have hmakes := course.makes mv
    have hnext := State.nextOp_le_step s st mv
    have hheld : s.Echo m ∨ op < st.nextOp ∧
        (op ∈ st.operations → ∃ holder, st.holder = some holder ∧ holder.op = op) := by
      rw [saidBy_append] at h
      rcases List.mem_append.mp h with h | h
      · exact ih h
      · rcases hmakes.of_message (mem_saidBy.mp h) with hecho | ⟨holder, hholder, rfl⟩
        · exact .inl hecho
        · exact .inr ⟨hnumbered.holder_lt hholder, fun _ => ⟨holder, hholder, rfl⟩⟩
    rcases hheld with hecho | ⟨hlt, hholds⟩
    · exact .inl hecho
    refine .inr ⟨by omega, fun hmem => ?_⟩
    -- an operation that was heard of is not new, so it was there before the move
    have hbefore : op ∈ st.operations := by
      refine Decidable.byContradiction fun hgone => ?_
      rw [← List.count_eq_zero] at hgone
      exact List.count_eq_zero.mp ((Course.single mv hmv).count_eq_zero hlt hgone) hmem
    obtain ⟨holder, hholder, rfl⟩ := hholds hbefore
    exact hmakes.keeps_holder hnumbered hholder hmem

theorem Course.standing_gentle (course : Course s Gentle {} log st) :
    st.Keeps s.Standing s.Healthy :=
  ((Session.standing_considerate s).mono fun _ _ hm => hm.1).course course
    (State.keeps_new s.healthy_new)

theorem tells_reset {m : Memory} {call : Call} (hphase : Phase (some call) agenda)
    (hcall : ∀ msg, call ≠ .outward (.message msg)) :
    s.Tells m.reset.context said agenda := by
  have hidle : m.reset.context.status ≠ .running := by simp [Memory.reset, Context.initial]
  have hmessage : ¬ Delivers (some call) := by
    rintro (hnone | ⟨msg⟩)
    exact hcall msg rfl
  cases hphase with
  | announcing => exact absurd rfl (hcall _)
  | pausing | asking | requested => exact fun hrunning => absurd hrunning hidle
  | leaving hc | suspending hc | closing hc | givingUp hc => exact absurd hc hmessage

theorem Course.tells (course : Course s Gentle {} log st) {holder : Holder}
    (hholder : st.holder = some holder) :
    s.Tells st.memory.context (saidBy holder.op log) holder.agenda := by
  refine course.along (P := fun log st => ∀ h, st.holder = some h →
    s.Tells st.memory.context (saidBy h.op log) h.agenda) (by simp) ?_ holder hholder
  intro log st mv st' more course hm hmakes ih h hafter
  have hnumbered := course.numbered State.numbered_new
  cases hmakes with
  | passes hmemory hsame hlog =>
    have hbefore : st.holder = some h := hsame ▸ hafter
    have hnone : saidBy h.op more = [] := by
      refine saidBy_eq_nil fun m hmem => ?_
      have hlt := hnumbered.holder_lt hbefore
      have haside := hlog _ hmem
      generalize h.op = op at hlt haside
      cases haside with
      | shows => exact Nat.lt_irrefl _ hlt
    rw [saidBy_append, hnone, List.append_nil, hmemory]
    exact ih h hbefore
  | opens hnone hi hmemory hholder hknown =>
    rename_i op i
    obtain rfl : _ = h := by simpa [hholder] using hafter
    have hpassing : ∀ m ∈ saidBy op (log ++ []), s.Passing m := by
      intro m hmem
      rw [List.append_nil] at hmem
      rcases course.reserved hmem with hecho | ⟨hlt, hholds⟩
      · exact .echo hecho
      · rcases hknown with rfl | hknown
        · exact absurd hlt (Nat.lt_irrefl _)
        · obtain ⟨holder, hheld, -⟩ := hholds hknown
          simp [hnone] at hheld
    cases i <;> first | exact hpassing | exact fun _ => hpassing | exact hi.elim
  | hears hbefore hmemory hholder =>
    obtain rfl : _ = h := by simpa [hholder] using hafter
    have htells := ih _ hbefore
    rwa [List.append_nil, hmemory]
  | learns hbefore hmemory hholder =>
    obtain rfl : _ = h := by simpa [hholder] using hafter
    rw [List.append_nil, hmemory]
    have hphase := (course.derives hbefore).phase
    have htells := ih _ hbefore
    cases hphase with
    | asking => exact htells
    | leaving hc | suspending hc | closing hc | givingUp hc => nomatch hc
  | breaks => exact absurd rfl (hm.2 _ _)
  | ends hbefore hmemory hholder => simp [hholder] at hafter
  | acts hbefore =>
    rename_i op i rest
    have hready := (course.standing_gentle.held _ hbefore).suits.1
    have hleads := (ih _ hbefore).performs hready (course.derives hbefore)
      (perform_performs (s := s) i)
    unfold State.carryOut at hafter
    cases houtcome : (s.perform st.memory.context i).outcome with
    | fail e => simp [houtcome] at hafter
    | proceed todo | call call todo | stop =>
      obtain rfl : _ = h := by simpa [houtcome] using hafter
      rw [saidBy_carryOut, State.carryOut_memory]
      rw [houtcome] at hleads ⊢
      exact hleads
  | resets hmemory hsame =>
    have hbefore : st.holder = some h := hsame ▸ hafter
    obtain ⟨call, hcall, hmessage⟩ := hm.1.2 rfl h hbefore
    have hphase := (course.derives hbefore).phase
    rw [hcall] at hphase
    rw [hmemory]
    exact tells_reset hphase hmessage
  | restores => exact absurd rfl (hm.1.1 _)

theorem holder_of_winding (hfail : ∀ error, p.outcome ≠ .fail error)
    (hleads : p.outcome.Leads (fun call agenda => Winding agenda ∧
      ∀ run n q, call ≠ some (.inquire run n q)) rest) :
    ∃ agenda call, (st.carryOut s op rest p).1.holder = some ⟨op, agenda, call⟩ ∧ Winding agenda ∧
      ∀ run n q, call ≠ some (.inquire run n q) := by
  unfold State.carryOut
  cases houtcome : p.outcome with
  | fail error => exact absurd houtcome (hfail error)
  | proceed todo | call call todo | stop =>
    rw [houtcome] at hleads
    exact ⟨_, _, rfl, hleads⟩

/-- A move that finishes a session belongs to an operation that has said the closing message, or says
it now, and nothing else that closes the session. -/
theorem Course.closes (hids : ∀ n ∈ s.graph.nodes, n.id ≠ "")
    (htext : ∃ text, s.config.missingStartMessage = .str text) (course : Course s Gentle {} log st)
    {mv : Move} (hmakes : Makes s st mv st' later) {e : Event} (he : .changed e c ∈ later)
    (hfinished : c.isFinished) :
    ∃ op passed closing, st.holder.map Holder.op = some op ∧
      saidBy op (log ++ later) = passed ++ [closing.stamp s.id] ∧
      (∀ m ∈ passed, s.Passing m) ∧ s.Closes st.memory.context e closing ∧
      (∃ agenda call, st'.holder = some ⟨op, agenda, call⟩ ∧ Winding agenda ∧
        ∀ run n q, call ≠ some (.inquire run n q)) ∧
      st'.memory.context = c ∧ c.cursor = none := by
  cases hmakes with
  | passes hmemory hsame hlog => cases hlog _ he
  | acts hbefore =>
    rename_i op i rest
    have hstanding := course.standing_gentle.held _ hbefore
    have hready := hstanding.suits.1
    have hp : Performs s st.memory.context i _ := perform_performs i
    obtain ⟨hevents, rfl, hfinishing⟩ :=
      hp.finishing hids hready (State.changed_of_mem_carryOut he) hfinished
    obtain ⟨⟨passed, closing, hsaid, hpassing, hcloses⟩, hfail, hleads⟩ :=
      (course.tells hbefore).closes htext hstanding.healthy.sound hready hstanding.phase hp hevents
        hfinishing
    have hcontext : (st.memory.after (s.perform st.memory.context i)).context =
        st.memory.context.apply e := by
      simp [Memory.after, hevents]
    refine ⟨op, passed, closing, by simp [hbefore], ?_, hpassing, hcloses,
      holder_of_winding hfail hleads, ?_, Context.cursor_of_finishing hfinishing⟩
    · rw [saidBy_carryOut]
      exact hsaid
    · rw [State.carryOut_memory, hcontext]
  | resets =>
    obtain ⟨rfl, rfl⟩ : _ ∧ _ := by simpa using he
    simp [Context.isFinished, Context.initial] at hfinished
  | breaks | ends | restores => simp at he
  | opens | hears | learns => simp at he

end Session

end ChatFlow
