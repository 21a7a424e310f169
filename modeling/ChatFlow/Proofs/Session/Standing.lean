import ChatFlow.Proofs.Graph.Soundness
import ChatFlow.Proofs.Session.Phase
import ChatFlow.Proofs.Session.Turn

/-!
# Where a session stands

As long as a session is only reset where an operation looks for it, its context is sound in every
state: the fields agree with each other and with the graph (`Context.Sound`), and what an operation
is about to do suits the place where the session stands (`Setup.Ready`). `standing_stable` shows that
every instruction keeps both, with one lemma about sound contexts for each event.
-/

namespace ChatFlow

/-- The fields of a context agree with each other and with the graph. A cursor may be left over only
from a start node with an empty id. -/
structure Context.Sound (g : FlowGraph) (c : Context) : Prop where
  suspended_iff : c.status = .suspended ↔ c.awaiting ≠ none
  node_of_cursor : ∀ id, c.cursor = some id → ∃ n, g.node? id = some n
  cursor_ne : c.status = .running ∨ c.status = .suspended → c.cursor ≠ none
  cursor_at_rest : c.status ≠ .running → c.status ≠ .suspended →
    ∀ id, c.cursor = some id → id = ""
  waits_at_processed : c.status = .suspended → ∀ id, c.cursor = some id → id ∈ c.processed
  choices_nil : c.awaiting ≠ some .choice → c.choices = []
  choices_eq : c.awaiting = some .choice →
    ∀ id n, c.cursor = some id → g.node? id = some n → c.choices = n.body.options
  failed_iff : c.status = .failed ↔ c.error ≠ ""

namespace Context.Sound

variable {g : FlowGraph} {c : Context}

theorem error_eq (h : c.Sound g) (hs : c.status ≠ .failed) : c.error = "" :=
  Decidable.not_not.mp fun herror => hs (h.failed_iff.mpr herror)

theorem initial (turn : Int) : (Context.initial turn).Sound g := by
  constructor <;> simp [Context.initial]

theorem started {n : Node} (hn : g.startNode? = some n) (vars : Fields) :
    (c.apply (.started (some n.id) vars)).Sound g := by
  obtain ⟨m, hm⟩ := FlowGraph.exists_node?_of_startNode? hn
  by_cases hid : n.id = ""
  · constructor <;> simp_all [Context.apply]
  · constructor <;> simp_all [Context.apply]

theorem startedNowhere (vars : Fields) : (c.apply (.started none vars)).Sound g := by
  constructor <;> simp [Context.apply]

theorem moved {id : String} (h : c.Sound g) (hs : c.status = .running)
    (hid : ∃ n, g.node? id = some n) : (c.apply (.moved id)).Sound g := by
  have herror : c.error = "" := h.error_eq (by simp [hs])
  obtain ⟨n, hn⟩ := hid
  constructor <;> simp_all [Context.apply]

theorem processed (h : c.Sound g) (id : String) : (c.apply (.processed id)).Sound g where
  suspended_iff := h.suspended_iff
  node_of_cursor := h.node_of_cursor
  cursor_ne := h.cursor_ne
  cursor_at_rest := h.cursor_at_rest
  waits_at_processed hs id' hid' := by
    have hmem := h.waits_at_processed hs id' hid'
    simp only [Context.apply]
    split
    · exact hmem
    · exact List.mem_append_left _ hmem
  choices_nil := h.choices_nil
  choices_eq := h.choices_eq
  failed_iff := h.failed_iff

theorem variablesSet (h : c.Sound g) (values : Fields) : (c.apply (.variablesSet values)).Sound g :=
  ⟨h.suspended_iff, h.node_of_cursor, h.cursor_ne, h.cursor_at_rest, h.waits_at_processed,
    h.choices_nil, h.choices_eq, h.failed_iff⟩

theorem resumed (h : c.Sound g) (hs : c.status = .suspended) : (c.apply .resumed).Sound g := by
  have herror : c.error = "" := h.error_eq (by simp [hs])
  have hcursor : c.cursor ≠ none := h.cursor_ne (.inr hs)
  have hnode := h.node_of_cursor
  constructor <;> simp_all [Context.apply]

theorem terminated (h : c.Sound g) (hs : c.status ≠ .failed) : (c.apply .terminated).Sound g := by
  have herror : c.error = "" := h.error_eq hs
  constructor <;> simp_all [Context.apply]

theorem failed {error : String} (herror : error ≠ "") : (c.apply (.failed error)).Sound g := by
  constructor <;> simp_all [Context.apply]

theorem suspended {n : Node} (h : c.Sound g) (hs : c.status = .running)
    (hcursor : c.cursor = some n.id) (hprocessed : n.id ∈ c.processed)
    (hn : g.node? n.id = some n) (reason : SuspendReason) :
    (c.apply (.suspended reason (n.offered reason))).Sound g where
  suspended_iff := by simp [Context.apply]
  node_of_cursor := h.node_of_cursor
  cursor_ne _ := h.cursor_ne (.inl hs)
  cursor_at_rest _ hne := absurd rfl hne
  waits_at_processed _ id hid := by
    obtain rfl : n.id = id := Option.some.inj (hcursor.symm.trans hid)
    exact hprocessed
  choices_nil hne := if_neg fun hreason => hne (congrArg some hreason)
  choices_eq hchoice id m hid hm := by
    obtain rfl : n.id = id := Option.some.inj (hcursor.symm.trans hid)
    obtain rfl : n = m := Option.some.inj (hn.symm.trans hm)
    exact if_pos (Option.some.inj hchoice)
  failed_iff := by
    have herror : c.error = "" := h.error_eq (by simp [hs])
    simp [Context.apply, herror]

end Context.Sound

namespace Session

variable (s : Setup)

/-- The memory of a session is in order: its context is sound, and a failure is explained. -/
structure Setup.Healthy (m : Memory) : Prop where
  sound : m.context.Sound s.graph
  explained : m.context.status = .failed → m.lastError = some m.context.error

/-- The session is about to execute a node. -/
structure Setup.Faces (c : Context) (node : Node) : Prop where
  running : c.status = .running
  cursor_eq : c.cursor = some node.id
  node_eq : s.graph.node? node.id = some node

/-- The session stands at a node that has been executed. -/
structure Setup.StandsAt (c : Context) (node : Node) : Prop extends s.Faces c node where
  processed : node.id ∈ c.processed

/-- The session stands where an operation expects it. -/
def Setup.Ready (c : Context) : List Instruction → Prop
  | .execute run node :: _ => c.turn = run.turn → s.Faces c node
  | .conclude run node _ _ :: _ => c.turn = run.turn → s.StandsAt c node
  | .deliver _ node _ :: _ => s.StandsAt c node
  | .send _ :: .leave node _ :: _ => s.StandsAt c node
  | .leave node _ :: _ => s.StandsAt c node
  | .close :: _ => c.status = .running
  | .giveUp :: _ => c.status = .running
  | _ => True

/-- What an operation is about to do, and the question it waits for, suit the context. -/
def Setup.Suits (c : Context) (call : Option Call) (agenda : List Instruction) : Prop :=
  s.Ready c agenda ∧ ∀ run node q, call = some (.inquire run node q) →
    c.turn = run.turn → s.StandsAt c node

/-- What holds of the operation that holds a session. -/
structure Setup.Standing (m : Memory) (call : Option Call) (agenda : List Instruction) : Prop where
  phase : Phase call agenda
  bounded : Bounded m call agenda
  healthy : s.Healthy m
  suits : s.Suits m.context call agenda

variable {s} {m : Memory} {i : Instruction} {rest agenda : List Instruction} {p : Performed}

/-! ## The memory stays in order -/

theorem Setup.Healthy.reset (m : Memory) : s.Healthy m.reset :=
  ⟨.initial _, by simp [Memory.reset, Context.initial]⟩

theorem Setup.Healthy.of_sound {m : Memory} (h : m.context.Sound s.graph)
    (hs : m.context.status ≠ .failed) : s.Healthy m :=
  ⟨h, fun hfailed => absurd hfailed hs⟩

theorem Setup.Healthy.of_silent (h : s.Healthy m) (hevents : p.events = [])
    (herror : p.lastError = none) : s.Healthy (m.after p) := by
  have hcontext : (m.after p).context = m.context := by simp [Memory.after, hevents]
  have hlast : (m.after p).lastError = m.lastError := by simp [Memory.after, herror]
  exact ⟨by rw [hcontext]; exact h.sound, by rw [hcontext, hlast]; exact h.explained⟩

theorem Setup.Faces.ne_failed {c : Context} {node : Node} (h : s.Faces c node) :
    c.status ≠ .failed := by
  simp [h.running]

theorem Setup.Faces.ne_suspended {c : Context} {node : Node} (h : s.Faces c node) :
    c.status ≠ .suspended := by
  simp [h.running]

theorem running_of_deliver {c : Context} {run : Run} {node : Node} {r : ExecutionResult}
    (h : s.Ready c (.deliver run node r :: rest)) : c.status = .running := by
  have hstands : s.StandsAt c node := h
  exact hstands.running

theorem running_of_leave {c : Context} {node : Node} {t : Transition}
    (h : s.Ready c (.leave node t :: rest)) : c.status = .running := by
  have hstands : s.StandsAt c node := h
  exact hstands.running

theorem Setup.waitingNode?_eq_some {c : Context} {node : Node} (h : s.waitingNode? c = some node) :
    c.cursor = some node.id ∧ s.graph.node? node.id = some node := by
  unfold Setup.waitingNode? at h
  split at h
  · rename_i id hcursor
    split at h
    · simp at h
    · obtain rfl : node.id = id := (FlowGraph.mem_of_node? h).2
      exact ⟨hcursor, h⟩
  · simp at h

theorem sound_keeping {c : Context} (h : c.Sound s.graph) (name : String) (reply : Value) :
    ((keeping name reply).foldl Context.apply c).Sound s.graph := by
  unfold keeping
  split
  · exact h
  · exact h.variablesSet _

theorem status_keeping (c : Context) (name : String) (reply : Value) :
    ((keeping name reply).foldl Context.apply c).status = c.status := by
  unfold keeping
  split <;> rfl

theorem cursor_keeping (c : Context) (name : String) (reply : Value) :
    ((keeping name reply).foldl Context.apply c).cursor = c.cursor := by
  unfold keeping
  split <;> rfl

theorem Setup.Standing.healthy_after (h : s.Standing m none (i :: rest))
    (hp : Performs s m.context i p) : s.Healthy (m.after p) := by
  have hsound := h.healthy.sound
  have hready := h.suits.1
  cases hp with
  | starts hn =>
    rename_i n
    refine .of_sound (Context.Sound.started hn _) ?_
    show (if n.id.isEmpty then SessionStatus.ended else .running) ≠ .failed
    split <;> simp
  | lacksStart hn => exact .of_sound (.startedNowhere _) (by simp [Memory.after, Context.apply])
  | lacksWords hn => exact .of_sound (.startedNowhere _) (by simp [Memory.after, Context.apply])
  | takes hwaits hname hport =>
    rename_i reply node name port
    have hkept := sound_keeping hsound name reply
    have hstatus := (status_keeping m.context name reply).trans hwaits.suspended
    refine .of_sound ?_ ?_
    · show ((keeping name reply ++ [Event.resumed]).foldl Context.apply m.context).Sound s.graph
      rw [List.foldl_append]
      exact hkept.resumed hstatus
    · show ((keeping name reply ++ [Event.resumed]).foldl Context.apply m.context).status ≠ .failed
      simp [List.foldl_append, Context.apply]
  | mismatches hwaits hname hport =>
    rename_i reply node name e
    have hstatus := (status_keeping m.context name reply).trans hwaits.suspended
    exact .of_sound (sound_keeping hsound name reply) (by simp [Memory.after, hstatus])
  | resumes hnode hawaiting =>
    have hs : m.context.status = .suspended := hsound.suspended_iff.mpr (by simp [hawaiting])
    exact .of_sound (hsound.resumed hs) (by simp [Memory.after, Context.apply])
  | loses hturn hrunning hcursor hnode =>
    exact .of_sound (hsound.terminated (by simp [hrunning])) (by simp [Memory.after, Context.apply])
  | executes hturn hr =>
    exact .of_sound (hsound.processed _) (hready hturn).ne_failed
  | inquires hturn hq => exact .of_sound (hsound.processed _) (hready hturn).ne_failed
  | stumbles hturn => exact .of_sound (hsound.processed _) (hready hturn).ne_failed
  | delivers =>
    rename_i run node result
    have hstands : s.StandsAt m.context node := hready
    by_cases hpatch : (s.feasible result).patch.isEmpty
    · exact h.healthy.of_silent (if_pos hpatch) rfl
    · refine .of_sound ?_ ?_
      · simpa [Memory.after, hpatch] using hsound.variablesSet _
      · simpa [Memory.after, hpatch, Context.apply] using hstands.ne_failed
  | jumps =>
    cases h.phase with
    | opening hi => exact hi.elim
    | leaving hc ht ho => exact ht.elim
  | moves hid =>
    have htarget := FlowGraph.exists_node?_of_mem_targets (List.mem_of_head? hid)
    have hrunning := running_of_leave hready
    exact .of_sound (hsound.moved hrunning htarget) (by simp [Memory.after, Context.apply])
  | suspends =>
    have hstands : s.StandsAt m.context _ := hready
    cases h.phase with
    | opening hi => exact hi.elim
    | leaving hc ht ho => exact ht.elim
    | suspending hc hcall =>
      exact .of_sound (hsound.suspended hstands.running hstands.cursor_eq hstands.processed
        hstands.node_eq _) (by simp [Memory.after, Context.apply])
  | terminates =>
    have hstands : s.StandsAt m.context _ := hready
    exact .of_sound (hsound.terminated hstands.ne_failed) (by simp [Memory.after, Context.apply])
  | fails =>
    cases h.phase with
    | opening hi => exact hi.elim
    | leaving hc ht ho => exact ⟨.failed ht, fun _ => rfl⟩
  | finishes =>
    have hrunning : m.context.status = .running := hready
    exact .of_sound (hsound.terminated (by simp [hrunning])) (by simp [Memory.after, Context.apply])
  | givesUp => exact ⟨.failed (by decide), fun _ => rfl⟩
  | _ => exact h.healthy.of_silent rfl rfl

/-! ## Every instruction comes where it is expected -/

theorem Setup.StandsAt.variablesSet {c : Context} {node : Node} (h : s.StandsAt c node)
    (values : Fields) : s.StandsAt (c.apply (.variablesSet values)) node :=
  ⟨⟨h.running, h.cursor_eq, h.node_eq⟩, h.processed⟩

theorem Setup.StandsAt.of_resumed {c : Context} {node : Node} (h : c.Sound s.graph)
    (hs : c.status = .suspended) (hcursor : c.cursor = some node.id)
    (hnode : s.graph.node? node.id = some node) : s.StandsAt (c.apply .resumed) node :=
  ⟨⟨rfl, hcursor, hnode⟩, h.waits_at_processed hs node.id hcursor⟩

theorem Setup.Faces.processed {c : Context} {node : Node} (h : s.Faces c node) :
    s.StandsAt (c.apply (.processed node.id)) node := by
  refine ⟨⟨h.running, h.cursor_eq, h.node_eq⟩, ?_⟩
  simp only [Context.apply]
  split
  · assumption
  · simp

theorem ready_of_onward {c : Context} (h : Onward agenda) : s.Ready c agenda := by
  cases h <;> trivial

theorem ready_delivery {c : Context} {run : Run} {node : Node} {r : ExecutionResult}
    (hr : r.Suits node) (h : s.StandsAt c node) : s.Ready c (delivery run node r) := by
  cases hr with
  | silent port metadata => exact h
  | speaks m hm t ht patch metadata =>
    cases t with
    | suspend reason choices => exact ht.elim
    | _ => exact h
  | asks m hm call reason hcall => exact h

theorem suits_none {c : Context} (h : s.Ready c agenda) : s.Suits c none agenda :=
  ⟨h, by simp⟩

theorem suits_outward {c : Context} {r : Request} (h : s.Ready c agenda) :
    s.Suits c (some (.outward r)) agenda :=
  ⟨h, by simp⟩

theorem Setup.Standing.suits_after (h : s.Standing m none (i :: rest))
    (hp : Performs s m.context i p) : p.outcome.Leads (s.Suits (m.after p).context) rest := by
  have hsound := h.healthy.sound
  have hready := h.suits.1
  have hphase := h.phase
  cases hp with
  | starts hn =>
    cases hphase with
    | opening hi => exact suits_none trivial
  | lacksStart hn =>
    cases hphase with
    | opening hi => exact suits_outward trivial
  | takes hwaits hname hport =>
    rename_i reply node name port
    obtain ⟨hcursor, hnode⟩ := Setup.waitingNode?_eq_some hwaits.waiting
    have hstatus := (status_keeping m.context name reply).trans hwaits.suspended
    have hkept := cursor_keeping m.context name reply
    refine suits_none ?_
    show s.StandsAt ((keeping name reply ++ [Event.resumed]).foldl Context.apply m.context) node
    rw [List.foldl_append]
    exact .of_resumed (sound_keeping hsound name reply) hstatus (hkept.trans hcursor) hnode
  | resumes hnode hawaiting =>
    obtain ⟨hcursor, hnode⟩ := Setup.waitingNode?_eq_some hnode
    have hs : m.context.status = .suspended := hsound.suspended_iff.mpr (by simp [hawaiting])
    exact suits_none (.of_resumed hsound hs hcursor hnode)
  | enters =>
    cases hphase with
    | opening hi => exact suits_none trivial
  | exceeds hcomes hreached => exact suits_outward hcomes.running
  | pauses hcomes hreached =>
    exact suits_outward fun _ => ⟨hcomes.running, hcomes.cursor_eq, hcomes.node_eq⟩
  | hurries hcomes hreached =>
    exact suits_none fun _ => ⟨hcomes.running, hcomes.cursor_eq, hcomes.node_eq⟩
  | executes hturn hr => exact suits_none (hready hturn).processed
  | inquires hturn hq =>
    cases hphase with
    | opening hi => exact hi.elim
    | executing =>
      refine ⟨trivial, fun run node q hcall _ => ?_⟩
      simp only [Option.some.injEq, Call.inquire.injEq] at hcall
      obtain ⟨rfl, rfl, rfl⟩ := hcall
      exact (hready hturn).processed
  | concludes hturn hr => exact suits_none (hready hturn)
  | delivers =>
    rename_i run node result
    cases hphase with
    | opening hi => exact hi.elim
    | delivering hr =>
      have hstands : s.StandsAt m.context node := hready
      refine suits_none ?_
      show s.Ready _ (delivery run node (s.feasible result) ++ [])
      rw [List.append_nil]
      refine ready_delivery (feasible_suits hr) ?_
      by_cases hpatch : (s.feasible result).patch.isEmpty
      · simpa [Memory.after, hpatch] using hstands
      · simpa [Memory.after, hpatch] using hstands.variablesSet _
  | sends =>
    cases hphase with
    | opening hi => exact hi.elim
    | saying ht => exact suits_outward hready
    | questioning hm hcall => exact suits_outward hready
  | requests hr =>
    cases hphase with
    | opening hi => exact hi.elim
    | telling => exact suits_outward trivial
  | skips hhost hkind =>
    cases hphase with
    | opening hi => exact hi.elim
    | telling => exact suits_none trivial
  | jumps =>
    cases hphase with
    | opening hi => exact hi.elim
    | leaving hc ht ho => exact ht.elim
  | moves hid =>
    cases hphase with
    | opening hi => exact hi.elim
    | leaving hc ht ho => exact suits_none (ready_of_onward ho)
  | closes hnone hcursor =>
    have hrunning := running_of_leave hready
    exact suits_outward hrunning
  | closesLost hnone hcursor =>
    have hrunning := running_of_leave hready
    exact suits_none hrunning
  | suspends =>
    cases hphase with
    | opening hi => exact hi.elim
    | leaving hc ht ho => exact ht.elim
    | suspending hc hcall => exact suits_none trivial
  | terminates =>
    cases hphase with
    | opening hi => exact hi.elim
    | leaving hc ht ho => exact suits_none (ready_of_onward ho)
  | fails =>
    cases hphase with
    | opening hi => exact hi.elim
    | leaving hc ht ho => exact suits_none (ready_of_onward ho)
  | finishes =>
    cases hphase with
    | opening hi => exact hi.elim
    | closing hc ho => exact suits_none (ready_of_onward ho)
  | drops hwaits => exact suits_none trivial
  | ignores hwaits => exact suits_none trivial
  | halts hstay => exact suits_none trivial
  | loses hturn hrunning hcursor hnode => exact suits_none trivial
  | abandons hturn => exact suits_none trivial
  | discards hturn => exact suits_none trivial
  | givesUp => exact suits_none trivial
  | lacksWords hn => trivial
  | misnames hwaits hname => trivial
  | mismatches hwaits hname hport => trivial
  | breaksOff hcomes => trivial
  | stumbles hturn => trivial
  | misleads => trivial
  | cannotSpeak hsynth hkind => trivial
  | closesMute hnone hcursor => trivial

/-! ## Along every course -/

/-- No saved context is adopted, and an operation that holds the session is only reset where it looks
for it. -/
def Orderly (st : State) (m : Move) : Prop :=
  (∀ c, m ≠ .restore c) ∧
    (m = .reset → ∀ h, st.holder = some h → ∃ call, h.call = some call ∧ call.Guarded)

/-- No saved context is adopted, and an operation that holds the session is not reset while a message
is delivered. -/
def Considerate (st : State) (m : Move) : Prop :=
  (∀ c, m ≠ .restore c) ∧
    (m = .reset → ∀ h, st.holder = some h →
      ∃ call, h.call = some call ∧ ∀ msg, call ≠ .outward (.message msg))

theorem Orderly.considerate {st : State} {mv : Move} (h : Orderly st mv) : Considerate st mv := by
  refine ⟨h.1, fun hreset holder hholder => ?_⟩
  obtain ⟨call, hcall, hguarded⟩ := h.2 hreset holder hholder
  refine ⟨call, hcall, ?_⟩
  rintro msg rfl
  nomatch hguarded

theorem ready_opening {c : Context} (hi : i.Opens) : s.Ready c [i] := by
  cases i <;> simp_all [Instruction.Opens, Setup.Ready]

theorem Setup.Standing.reset {call : Call} (h : s.Standing m (some call) agenda)
    (hcall : ∀ msg, call ≠ .outward (.message msg)) :
    s.Standing m.reset (some call) agenda := by
  have hlater : ∀ run : Run, run.turn ≤ m.context.turn → m.reset.context.turn ≠ run.turn := by
    intro run hle
    show m.context.turn + 1 ≠ run.turn
    omega
  have hmessage : ¬ Delivers (some call) := by
    rintro (hnone | ⟨msg⟩)
    exact hcall msg rfl
  refine ⟨h.phase, h.bounded.reset, .reset m, ?_⟩
  -- a run that pauses or asks belongs to an earlier turn now; one that has made its request looks
  -- for a reset next
  cases h.phase with
  | announcing => exact absurd rfl (hcall _)
  | pausing =>
    rename_i seconds run node
    have hrun := h.bounded.agenda _ List.mem_cons_self run rfl
    exact suits_outward fun hturn => absurd hturn (hlater run hrun)
  | asking =>
    rename_i run node q
    have hrun := h.bounded.call run rfl
    refine ⟨trivial, fun run' node' q' hcall hturn => ?_⟩
    simp only [Option.some.injEq, Call.inquire.injEq] at hcall
    obtain ⟨rfl, rfl, rfl⟩ := hcall
    exact absurd hturn (hlater run hrun)
  | leaving hc ht ho => exact absurd hc hmessage
  | suspending hc hcall => exact absurd hc hmessage
  | requested hr => exact suits_outward trivial
  | closing hc ho => exact absurd hc hmessage
  | givingUp hc => exact absurd hc hmessage

/-- A session stands where its operation expects it, and its memory is in order, as long as it is not
reset while a message is delivered. -/
theorem standing_considerate (s : Setup) : Stable s Considerate s.Standing s.Healthy where
  opens hfree hi :=
    ⟨.opening hi, (bounded_stable s).opens trivial hi, hfree, suits_none (ready_opening hi)⟩
  ends h := h.healthy
  performs h hp := by
    have hphase := h.phase.performs hp
    have hbounded := (bounded_stable s).performs h.bounded hp
    have hsuits := h.suits_after hp
    exact ((hphase.and hbounded).and hsuits).mono fun call agenda hall =>
      ⟨hall.1.1, hall.1.2, h.healthy_after hp, hall.2⟩
  fails _ _ hp _ h := h.healthy_after (hp ▸ perform_performs _)
  answers h := ⟨h.phase.answers, (bounded_stable s).answers h.bounded, h.healthy,
    suits_none h.suits.1⟩
  raises _ _ h := h.healthy
  concludes reply h := ⟨h.phase.concludes reply, (bounded_stable s).concludes reply h.bounded,
    h.healthy, suits_none (h.suits.2 _ _ _ rfl)⟩
  resets {st holder} hm hholder h := by
    obtain ⟨call, hcall, hmessage⟩ := hm.2 rfl holder hholder
    rw [hcall] at h ⊢
    exact h.reset hmessage
  resetsFree _ _ _ := .reset _
  restores hm _ _ := absurd rfl (hm.1 _)
  restoresFree hm _ _ := absurd rfl (hm.1 _)

theorem standing_stable (s : Setup) : Stable s Orderly s.Standing s.Healthy :=
  (standing_considerate s).mono fun _ _ hm => hm.considerate

theorem Setup.healthy_new (s : Setup) : s.Healthy {} :=
  .of_sound (.initial 0) (by simp [Context.initial])

theorem Course.standing {log : List Happening} {st : State} (course : Course s Orderly {} log st) :
    st.Keeps s.Standing s.Healthy :=
  (standing_stable s).course course (State.keeps_new s.healthy_new)

theorem Course.standing_considerate {log : List Happening} {st : State}
    (course : Course s Considerate {} log st) : st.Keeps s.Standing s.Healthy :=
  (Session.standing_considerate s).course course (State.keeps_new s.healthy_new)

theorem State.Keeps.healthy {st : State} (h : st.Keeps s.Standing s.Healthy) :
    s.Healthy st.memory := by
  cases hholder : st.holder with
  | none => exact h.free hholder
  | some holder => exact (h.held holder hholder).healthy

end Session

end ChatFlow
