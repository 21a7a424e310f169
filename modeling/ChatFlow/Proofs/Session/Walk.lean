import ChatFlow.Proofs.Session.Move
import ChatFlow.Proofs.Session.Path
import ChatFlow.Proofs.Session.WellFormed

/-!
# The walk of a session

`walks_prescribed_path` shows that whatever a session goes through, it walks as its graph prescribes:
the strides that can be read off its moves (`State.way`) follow one another, and where the walk ends
the session stands.

The proof is a simulation. `State.Follows` relates a position to a state: the context fits the
position (`Position.Fits`), and the operation that holds the session is about to make the next
stride (`Setup.Guides`). `Setup.Standing.strides` shows that every instruction makes the strides that
the graph prescribes, and `State.Follows.step` that every move does.
-/

namespace ChatFlow.Session

open ExecutionResult

variable (s : Setup)

/-! ## The strides of a session -/

def Event.stride? : Event → Option Stride
  | .started id _ => some (.start id)
  | .moved id => some (.move id)
  | .terminated => some (.stop .terminated)
  | .failed error => some (.stop (.failed error))
  | .reset => some (.stop .reset)
  | _ => none

def Happening.stride? : Happening → Option Stride
  | .changed e _ => Event.stride? e
  | .executed n => some (.execute n)
  | _ => none

/-- The decision that a result comes of, if it takes the session on. -/
def chosenBy (d : Decision) : Transition → Option Decision
  | .advanceVia _ => some d
  | _ => none

/-- What decides on the way from a node, where an instruction does: the node once it has been
executed, the answer to its question, a reply that is taken, or the end of a playback. -/
def Setup.decided (c : Context) : Instruction → Outcome → Option Decision
  | .execute _ _, .proceed [.deliver _ _ r] => chosenBy (.alone c.vars) (s.feasible r).transition
  | .conclude _ _ q reply, .proceed [.deliver _ _ r] =>
    chosenBy (.told q reply) (s.feasible r).transition
  | .accept reply, .proceed _ => some (.replied reply)
  | .acceptPlayback, .proceed _ => some .played
  | _, _ => none

/-- What decides on the way from a node, where a move does. -/
def State.decision? (st : State) : Move → Option Decision
  | .tick =>
    match st.holder with
    | some { op := _, agenda := i :: _, call := none } =>
      s.decided st.memory.context i (s.perform st.memory.context i).outcome
    | _ => none
  | _ => none

/-- The strides of one move: those in its log, and the choice of a way after it. -/
def State.strides (st : State) (m : Move) : List Stride :=
  (st.step s m).2.filterMap Happening.stride? ++ (st.decision? s m).toList.map .choose

/-- The strides of moves that are made one after the other. -/
def State.way (st : State) : List Move → List Stride
  | [] => []
  | m :: rest => st.strides s m ++ (st.step s m).1.way rest

/-- Whether a stride is a choice, which no log shows. -/
def Stride.isChoice : Stride → Bool
  | .choose _ => true
  | _ => false

variable {s}

/-! ## Positions and contexts -/

/-- A context fits where the walk has come to. -/
def Position.Fits (s : Setup) (c : Context) : Position → Prop
  | .nowhere => c.status ≠ .running ∧ c.status ≠ .suspended
  | .facing n => s.Faces c n ∧ n.id ∉ c.processed
  | .standing n => s.StandsAt c n ∨ s.WaitsAt c n
  | .leaving n _ => s.StandsAt c n

/-- Where the result of a node takes the walk from the node. -/
def Position.after (n : Node) : Transition → Position
  | .advanceVia port => .leaving n port
  | _ => .standing n

/-- What an operation does next is the next stride of the walk. -/
def Setup.Heads (s : Setup) (p : Position) (c : Context) : List Instruction → Prop
  | .execute run n :: _ => c.turn = run.turn → p = .facing n
  | .conclude run n _ _ :: _ => c.turn = run.turn → p = .standing n
  | .deliver _ n r :: _ => p = .after n (s.feasible r).transition
  | .send _ :: .leave n t :: _ => p = .after n t
  | .leave n t :: _ => p = .after n t
  | .close :: _ => ∃ n port, p = .leaving n port ∧ ∀ e ∈ s.graph.edges, ¬ e.Serves n.id port
  | .giveUp :: _ => ∃ n, p = .facing n
  | _ => True

/-- What an operation waits for, and what it does next, belongs to where the walk has come to. -/
structure Setup.Guides (s : Setup) (p : Position) (c : Context) (call : Option Call)
    (agenda : List Instruction) : Prop where
  heads : s.Heads p c agenda
  asks : ∀ run n q, call = some (.inquire run n q) → c.turn = run.turn → p = .standing n

variable {p : Position} {c : Context} {m : Memory} {i : Instruction} {rest agenda : List Instruction}
  {x : Performed}

namespace Position.Fits

theorem variablesSet (h : p.Fits s c) (values : Fields) :
    p.Fits s (c.apply (.variablesSet values)) := by
  cases p with
  | nowhere => exact h
  | facing n => exact ⟨⟨h.1.running, h.1.cursor_eq, h.1.node_eq⟩, h.2⟩
  | standing n =>
    rcases h with h | h
    · exact .inl (h.variablesSet values)
    · exact .inr ⟨h.suspended, h.cursor_eq, h.node_eq, h.awaiting_eq⟩
  | leaving n port => exact Setup.StandsAt.variablesSet h values

theorem eq_facing {run : Run} {n : Node} (h : p.Fits s c) (hcomes : s.Comes c run n) :
    p = .facing n := by
  have hcursor := hcomes.cursor_eq
  cases p with
  | nowhere => exact absurd hcomes.running h.1
  | facing n' =>
    obtain hid : n'.id = n.id := Option.some.inj (h.1.cursor_eq.symm.trans hcursor)
    obtain rfl : n' = n := Option.some.inj (h.1.node_eq.symm.trans (hid ▸ hcomes.node_eq))
    rfl
  | standing n' =>
    rcases h with h | h
    · obtain hid : n'.id = n.id := Option.some.inj (h.cursor_eq.symm.trans hcursor)
      exact absurd (hid ▸ h.processed) hcomes.fresh
    · exact absurd (h.suspended.symm.trans hcomes.running) (by simp)
  | leaving n' port =>
    have hstands : s.StandsAt c n' := h
    obtain hid : n'.id = n.id := Option.some.inj (hstands.cursor_eq.symm.trans hcursor)
    exact absurd (hid ▸ hstands.processed) hcomes.fresh

theorem eq_standing {n : Node} (h : p.Fits s c) (hs : c.status = .suspended)
    (hnode : s.waitingNode? c = some n) : p = .standing n ∧ s.WaitsAt c n := by
  obtain ⟨hcursor, hnode⟩ := Setup.waitingNode?_eq_some hnode
  cases p with
  | nowhere => exact absurd hs h.2
  | facing n' => exact absurd hs h.1.ne_suspended
  | standing n' =>
    rcases h with h | h
    · exact absurd hs h.ne_suspended
    · obtain hid : n'.id = n.id := Option.some.inj (h.cursor_eq.symm.trans hcursor)
      obtain rfl : n' = n := Option.some.inj (h.node_eq.symm.trans (hid ▸ hnode))
      exact ⟨rfl, h⟩
  | leaving n' port =>
    have hstands : s.StandsAt c n' := h
    exact absurd hs hstands.ne_suspended

end Position.Fits

/-! ## One instruction -/

theorem events_stride (m : Memory) (es : List Event) :
    (m.applyAll es).2.filterMap Happening.stride? = es.filterMap Event.stride? := by
  induction es generalizing m with
  | nil => rfl
  | cons e rest ih =>
    simp only [Memory.applyAll, List.filterMap_cons, Happening.stride?]
    rw [ih]

theorem strides_log (m : Memory) (x : Performed) :
    (m.log x).filterMap Happening.stride? =
      x.events.filterMap Event.stride? ++ x.executed.toList.map .execute := by
  rw [Memory.log, List.filterMap_append, events_stride]
  cases x.executed <;> rfl

/-- With an instruction, the walk comes from one position to another. -/
structure Setup.Strides (s : Setup) (p : Position) (m : Memory) (i : Instruction)
    (rest : List Instruction) (x : Performed) (q : Position) : Prop where
  walks : s.Walks p (x.events.filterMap Event.stride? ++ x.executed.toList.map .execute ++
    (s.decided m.context i x.outcome).toList.map .choose) q
  fits : q.Fits s (m.after x).context
  guides : x.outcome.Leads (s.Guides q (m.after x).context) rest

theorem guides_none (h : s.Heads p c agenda) : s.Guides p c none agenda :=
  ⟨h, by simp⟩

theorem guides_outward {r : Request} (h : s.Heads p c agenda) :
    s.Guides p c (some (.outward r)) agenda :=
  ⟨h, by simp⟩

theorem heads_of_onward (h : Onward agenda) : s.Heads p c agenda := by
  cases h <;> trivial

theorem heads_delivery {run : Run} {n : Node} {r : ExecutionResult} (hr : r.Suits n)
    (h : p = .after n r.transition) : s.Heads p c (delivery run n r) := by
  cases hr with
  | silent port metadata => exact h
  | speaks m hm t ht patch metadata =>
    cases t with
    | suspend reason choices => exact ht.elim
    | _ => exact h
  | asks m hm call reason hcall => exact h

theorem Setup.Strides.stay (hfits : p.Fits s m.context) (hevents : x.events = [])
    (hexecuted : x.executed = none) (hdecided : s.decided m.context i x.outcome = none)
    (hguides : x.outcome.Leads (s.Guides p m.context) rest) : s.Strides p m i rest x p := by
  have hcontext : (m.after x).context = m.context := by simp [Memory.after, hevents]
  refine ⟨?_, by rwa [hcontext], by rwa [hcontext]⟩
  simp only [hevents, hexecuted, hdecided]
  exact .rest

theorem Setup.Yields.walks {n : Node} {d : Decision} {r : ExecutionResult} (h : s.Yields n d r) :
    s.Walks (.standing n) ((chosenBy d r.transition).toList.map .choose)
      (.after n r.transition) := by
  cases ht : r.transition with
  | advanceVia port => exact .single (.chooses (h.chooses ht))
  | _ => exact .rest

theorem Position.fits_after {n : Node} (h : s.StandsAt c n) (t : Transition) :
    (Position.after n t).Fits s c := by
  cases t with
  | advanceVia port => exact h
  | _ => exact .inl h

/-- An accepted reply leaves the node through the port that it chooses. -/
theorem Setup.WaitsAt.chooses {n : Node} {reply : Value} {port : Option String}
    (h : s.WaitsAt c n) (hsound : c.Sound s.graph) (hplayback : c.awaiting ≠ some .speechPlayback)
    (hport : replyPort c n reply = .ok port) : s.Chooses n (.replied reply) port := by
  unfold replyPort at hport
  by_cases hchoice : c.awaiting = some .choice
  · have hoptions : c.choices = n.body.options :=
      hsound.choices_eq hchoice n.id n h.cursor_eq h.node_eq
    simp only [hchoice, if_true, hoptions] at hport
    exact .picks (h.awaiting_eq.symm.trans hchoice) (picks_of_matchChoice hport)
  · simp only [hchoice, if_false] at hport
    obtain rfl := Except.ok.inj hport
    obtain ⟨reason, hreason⟩ :=
      Option.ne_none_iff_exists'.mp (hsound.suspended_iff.mp h.suspended)
    have hwaits : n.body.waitsFor s.voiceMode = some reason := h.awaiting_eq.symm.trans hreason
    refine .answers hwaits ?_ ?_
    · rintro rfl
      exact hchoice hreason
    · rintro rfl
      exact hplayback hreason

@[simp] theorem keeping_stride (name : String) (reply : Value) :
    (keeping name reply).filterMap Event.stride? = [] := by
  unfold keeping
  split <;> rfl

namespace Setup.Standing

theorem strides_start (hids : ∀ n ∈ s.graph.nodes, n.id ≠ "") {vars : Fields}
    (h : s.Standing m none (.start vars :: rest)) (hp : Performs s m.context (.start vars) x) :
    ∃ q, s.Strides p m (.start vars) rest x q := by
  have hphase := h.phase
  cases hp with
  | starts hn =>
    rename_i n
    have hmem := FlowGraph.mem_of_startNode? hn
    have hid : n.id.isEmpty = false := by simpa using hids n hmem
    refine ⟨.facing n, .single (.starts (FlowGraph.firstStart_of_startNode? hn)), ?_, ?_⟩
    · refine ⟨⟨?_, rfl, FlowGraph.node?_of_mem hmem⟩, by simp [Memory.after, Context.apply]⟩
      simp [Memory.after, Context.apply, hid]
    · cases hphase with
      | opening hi => exact guides_none trivial
  | lacksStart hn =>
    refine ⟨.nowhere, .single (.startsNowhere fun n => FlowGraph.type?_ne_start_of_startNode? hn),
      by simp [Position.Fits, Memory.after, Context.apply], ?_⟩
    cases hphase with
    | opening hi => exact guides_outward trivial
  | lacksWords hn =>
    exact ⟨.nowhere, .single (.startsNowhere fun n => FlowGraph.type?_ne_start_of_startNode? hn),
      by simp [Position.Fits, Memory.after, Context.apply], trivial⟩

theorem strides_accept {reply : Value} (h : s.Standing m none (.accept reply :: rest))
    (hfits : p.Fits s m.context) (hp : Performs s m.context (.accept reply) x) :
    ∃ q, s.Strides p m (.accept reply) rest x q := by
  have hsuits := h.suits_after hp
  cases hp with
  | takes hwaits hname hport =>
    obtain ⟨rfl, hat⟩ := hfits.eq_standing hwaits.suspended hwaits.waiting
    have hchooses := hat.chooses h.healthy.sound hwaits.awaiting_ne hport
    refine ⟨.leaving _ _, ?_, hsuits.1, guides_none rfl⟩
    rw [List.filterMap_append, keeping_stride]
    exact .single (.chooses hchooses)
  | mismatches hwaits hname hport =>
    refine ⟨p, ?_, ?_, trivial⟩
    · rw [keeping_stride]
      exact .rest
    · unfold keeping Memory.after
      split
      · exact hfits
      · exact hfits.variablesSet _
  | drops => exact ⟨p, .stay hfits rfl rfl rfl (guides_none trivial)⟩
  | misnames => exact ⟨p, .stay hfits rfl rfl rfl trivial⟩

theorem strides_acceptPlayback (h : s.Standing m none (.acceptPlayback :: rest))
    (hfits : p.Fits s m.context) (hp : Performs s m.context .acceptPlayback x) :
    ∃ q, s.Strides p m .acceptPlayback rest x q := by
  have hsuits := h.suits_after hp
  cases hp with
  | resumes hnode hawaiting =>
    have hs : m.context.status = .suspended :=
      h.healthy.sound.suspended_iff.mpr (by simp [hawaiting])
    obtain ⟨rfl, hat⟩ := hfits.eq_standing hs hnode
    exact ⟨.leaving _ _, .single (.chooses (.plays (hat.awaiting_eq.symm.trans hawaiting))),
      hsuits.1, guides_none rfl⟩
  | ignores => exact ⟨p, .stay hfits rfl rfl rfl (guides_none trivial)⟩

theorem strides_visit {run : Run} (h : s.Standing m none (.visit run :: rest))
    (hfits : p.Fits s m.context) (hp : Performs s m.context (.visit run) x) :
    ∃ q, s.Strides p m (.visit run) rest x q := by
  cases hp with
  | loses hturn hrunning hcursor hnode =>
    obtain ⟨n, hn⟩ := h.healthy.sound.node_of_cursor _ hcursor
    simp [hnode] at hn
  | exceeds hcomes =>
    exact ⟨p, .stay hfits rfl rfl rfl (guides_outward ⟨_, hfits.eq_facing hcomes⟩)⟩
  | pauses hcomes =>
    exact ⟨p, .stay hfits rfl rfl rfl (guides_outward fun _ => hfits.eq_facing hcomes)⟩
  | hurries hcomes =>
    exact ⟨p, .stay hfits rfl rfl rfl (guides_none fun _ => hfits.eq_facing hcomes)⟩
  | halts => exact ⟨p, .stay hfits rfl rfl rfl (guides_none trivial)⟩
  | breaksOff => exact ⟨p, .stay hfits rfl rfl rfl trivial⟩

theorem strides_execute {run : Run} {n : Node} (h : s.Standing m none (.execute run n :: rest))
    (hfits : p.Fits s m.context) (hheads : s.Heads p m.context (.execute run n :: rest))
    (hp : Performs s m.context (.execute run n) x) :
    ∃ q, s.Strides p m (.execute run n) rest x q := by
  have hsuits := h.suits_after hp
  cases hp with
  | executes hturn hr hbegin =>
    rename_i r
    obtain rfl : p = .facing n := hheads hturn
    have hyields : s.Yields n (.alone m.context.vars) (s.feasible r) :=
      .alone (Executor.begin_results hbegin)
    exact ⟨.after n (s.feasible r).transition, .step .executes hyields.walks,
      Position.fits_after hsuits.1 _, guides_none rfl⟩
  | inquires hturn hq =>
    obtain rfl : p = .facing n := hheads hturn
    refine ⟨.standing n, .single .executes, .inl (hsuits.2 _ _ _ rfl hturn), ?_⟩
    cases h.phase with
    | opening hi => exact hi.elim
    | executing =>
      refine ⟨trivial, fun run' n' q' hcall _ => ?_⟩
      obtain ⟨rfl, rfl, rfl⟩ := Call.inquire.inj (Option.some.inj hcall)
      rfl
  | stumbles hturn =>
    obtain rfl : p = .facing n := hheads hturn
    exact ⟨.standing n, .single .executes, .inl (h.suits.1 hturn).processed, trivial⟩
  | abandons => exact ⟨p, .stay hfits rfl rfl rfl (guides_none trivial)⟩

theorem strides_conclude {run : Run} {n : Node} {q : Inquiry} {reply : Reply}
    (h : s.Standing m none (.conclude run n q reply :: rest))
    (hderives : s.Derives none (.conclude run n q reply :: rest)) (hfits : p.Fits s m.context)
    (hheads : s.Heads p m.context (.conclude run n q reply :: rest))
    (hp : Performs s m.context (.conclude run n q reply) x) :
    ∃ q', s.Strides p m (.conclude run n q reply) rest x q' := by
  have hsuits := h.suits_after hp
  have hasks : n.Asks q := hderives.stems
  cases hp with
  | concludes hturn hr hconclude =>
    rename_i r
    obtain rfl : p = .standing n := hheads hturn
    have hyields : s.Yields n (.told q reply) (s.feasible r) :=
      .told hasks (Executor.conclude_results hconclude)
    exact ⟨.after n (s.feasible r).transition, hyields.walks, Position.fits_after hsuits.1 _,
      guides_none rfl⟩
  | discards => exact ⟨p, .stay hfits rfl rfl rfl (guides_none trivial)⟩
  | misleads => exact ⟨p, .stay hfits rfl rfl rfl trivial⟩

theorem strides_deliver {run : Run} {n : Node} {r : ExecutionResult}
    (h : s.Standing m none (.deliver run n r :: rest)) (hfits : p.Fits s m.context)
    (hheads : s.Heads p m.context (.deliver run n r :: rest))
    (hp : Performs s m.context (.deliver run n r) x) :
    ∃ q, s.Strides p m (.deliver run n r) rest x q := by
  have hafter : p = .after n (s.feasible r).transition := hheads
  cases hp with
  | delivers =>
    cases h.phase with
    | opening hi => exact hi.elim
    | delivering hr =>
      have hguides : ∀ c, s.Guides p c none (delivery run n (s.feasible r) ++ []) := by
        intro c
        rw [List.append_nil]
        exact guides_none (heads_delivery (feasible_suits hr) hafter)
      by_cases hpatch : (s.feasible r).patch.isEmpty
      · exact ⟨p, .stay hfits (if_pos hpatch) rfl rfl (hguides _)⟩
      · refine ⟨p, ?_, ?_, hguides _⟩
        · rw [if_neg hpatch]
          exact .rest
        · simpa [Memory.after, hpatch] using hfits.variablesSet _

theorem guides_onward {n : Node} {t : Transition} (h : s.Standing m none (.leave n t :: rest))
    (ht : t.Leaves) (c : Context) (q : Position) : s.Guides q c none rest := by
  cases h.phase with
  | opening hi => exact hi.elim
  | leaving hc ht' ho => exact guides_none (heads_of_onward ho)
  | suspending hc hcall => exact ht.elim

theorem strides_leave {n : Node} {t : Transition} (h : s.Standing m none (.leave n t :: rest))
    (hderives : s.Derives none (.leave n t :: rest)) (hfits : p.Fits s m.context)
    (hheads : s.Heads p m.context (.leave n t :: rest))
    (hp : Performs s m.context (.leave n t) x) : ∃ q, s.Strides p m (.leave n t) rest x q := by
  have hstems := hderives.stems
  cases hp with
  | jumps =>
    cases h.phase with
    | opening hi => exact hi.elim
    | leaving hc ht ho => exact ht.elim
  | moves hid =>
    rename_i port id
    obtain rfl : p = .leaving n port := hheads
    obtain ⟨e, he, rfl⟩ := FlowGraph.head?_targets_eq_some hid
    obtain ⟨target, hmem, htarget⟩ := he.exists_target
    refine ⟨.facing target, ?_, ?_, h.guides_onward trivial _ _⟩
    · rw [← htarget]
      exact .single (.moves he hmem htarget)
    · rw [← htarget]
      exact ⟨⟨rfl, rfl, FlowGraph.node?_of_mem hmem⟩, by simp [Memory.after, Context.apply]⟩
  | closes hnone =>
    exact ⟨p, .stay hfits rfl rfl rfl
      (guides_outward ⟨_, _, hheads, fun e he => FlowGraph.not_serves_of_targets hnone he⟩)⟩
  | closesLost hnone =>
    exact ⟨p, .stay hfits rfl rfl rfl
      (guides_none ⟨_, _, hheads, fun e he => FlowGraph.not_serves_of_targets hnone he⟩)⟩
  | closesMute => exact ⟨p, .stay hfits rfl rfl rfl trivial⟩
  | suspends =>
    obtain rfl : p = .standing n := hheads
    have hstands : s.StandsAt m.context n := h.suits.1
    obtain ⟨port, hport⟩ | ⟨d, r, hyields, ht⟩ := hstems
    · simp at hport
    · have hwaits := (hyields.waits ht).1
      refine ⟨.standing n, .rest, .inr ⟨rfl, hstands.cursor_eq, hstands.node_eq, hwaits.symm⟩, ?_⟩
      cases h.phase with
      | opening hi => exact hi.elim
      | leaving hc ht ho => exact ht.elim
      | suspending hc hcall => exact guides_none trivial
  | terminates =>
    obtain rfl : p = .standing n := hheads
    obtain ⟨port, hport⟩ | ⟨d, r, hyields, ht⟩ := hstems
    · simp at hport
    · obtain ⟨e, text, vars, hbody, -⟩ := hyields.ends ht
      exact ⟨.nowhere, .single (.ends hbody), by simp [Position.Fits, Memory.after, Context.apply],
        h.guides_onward trivial _ _⟩
  | fails =>
    obtain rfl : p = .standing n := hheads
    obtain ⟨port, hport⟩ | ⟨d, r, hyields, ht⟩ := hstems
    · simp at hport
    · obtain ⟨a, vars, reply, port, text, hbody, -, -, rfl, -⟩ := hyields.violates ht
      exact ⟨.nowhere, .single (.breaks hbody),
        by simp [Position.Fits, Memory.after, Context.apply],
        h.guides_onward (Executor.contractViolation_message_ne _ _ _) _ _⟩

/-- Every instruction makes the strides that the graph prescribes. -/
theorem strides (hids : ∀ n ∈ s.graph.nodes, n.id ≠ "") (h : s.Standing m none (i :: rest))
    (hderives : s.Derives none (i :: rest)) (hfits : p.Fits s m.context)
    (hheads : s.Heads p m.context (i :: rest)) (hp : Performs s m.context i x) :
    ∃ q, s.Strides p m i rest x q := by
  have hphase := h.phase
  cases i with
  | start vars => exact h.strides_start hids hp
  | accept reply => exact h.strides_accept hfits hp
  | acceptPlayback => exact h.strides_acceptPlayback hfits hp
  | visit run => exact h.strides_visit hfits hp
  | execute run n => exact h.strides_execute hfits hheads hp
  | conclude run n q reply => exact h.strides_conclude hderives hfits hheads hp
  | deliver run n r => exact h.strides_deliver hfits hheads hp
  | leave n t => exact h.strides_leave hderives hfits hheads hp
  | enter =>
    cases hp with
    | enters =>
      cases hphase with
      | opening hi => exact ⟨p, .stay hfits rfl rfl rfl (guides_none trivial)⟩
  | send msg =>
    cases hp with
    | sends =>
      cases hphase with
      | opening hi => exact hi.elim
      | saying | questioning => exact ⟨p, .stay hfits rfl rfl rfl (guides_outward hheads)⟩
  | perform call =>
    cases hphase with
    | opening hi => exact hi.elim
    | telling =>
      cases hp with
      | requests => exact ⟨p, .stay hfits rfl rfl rfl (guides_outward trivial)⟩
      | skips => exact ⟨p, .stay hfits rfl rfl rfl (guides_none trivial)⟩
      | cannotSpeak => exact ⟨p, .stay hfits rfl rfl rfl trivial⟩
  | close =>
    cases hp with
    | finishes =>
      obtain ⟨n, port, rfl, hdead⟩ : ∃ n port, p = .leaving n port ∧
        ∀ e ∈ s.graph.edges, ¬ e.Serves n.id port := hheads
      refine ⟨.nowhere, .single (.deadEnd hdead),
        by simp [Position.Fits, Memory.after, Context.apply], ?_⟩
      cases hphase with
      | opening hi => exact hi.elim
      | closing hc ho => exact guides_none (heads_of_onward ho)
  | giveUp =>
    cases hp with
    | givesUp =>
      obtain ⟨n, rfl⟩ : ∃ n, p = .facing n := hheads
      exact ⟨.nowhere, .single .tires, by simp [Position.Fits, Memory.after, Context.apply],
        guides_none trivial⟩

end Setup.Standing

/-! ## Whole sessions -/

theorem guides_of_ne_running {call : Option Call} (hsuits : s.Suits c call agenda)
    (hs : c.status ≠ .running) : s.Guides p c call agenda := by
  obtain ⟨hready, hasks⟩ := hsuits
  refine ⟨?_, fun run n q hcall hturn => absurd (hasks run n q hcall hturn).running hs⟩
  unfold Setup.Heads
  split
  · exact fun hturn => absurd (hready hturn).running hs
  · exact fun hturn => absurd (hready hturn).running hs
  · exact absurd hready.running hs
  · exact absurd hready.running hs
  · exact absurd hready.running hs
  · exact absurd hready hs
  · exact absurd hready hs
  · trivial

variable {st st' : State} {log : List Happening}

/-- A session is where its walk has come to. -/
structure State.Follows (s : Setup) (p : Position) (st : State) : Prop where
  numbered : st.Numbered
  keeps : st.Keeps s.Standing s.Healthy
  derives : st.Keeps (fun _ call agenda => s.Derives call agenda) (fun _ => True)
  fits : p.Fits s st.memory.context
  guides : ∀ h, st.holder = some h → s.Guides p st.memory.context h.call h.agenda

/-- What is left to be shown of a move. -/
structure State.Strides (s : Setup) (p : Position) (way : List Stride) (st' : State) (q : Position) :
    Prop where
  walks : s.Walks p way q
  fits : q.Fits s st'.memory.context
  guides : ∀ h, st'.holder = some h → s.Guides q st'.memory.context h.call h.agenda

namespace State.Follows

theorem carryOut (hids : ∀ n ∈ s.graph.nodes, n.id ≠ "") (h : st.Follows s p) {op : Nat}
    (hholder : st.holder = some ⟨op, i :: rest, none⟩)
    (hp : s.perform st.memory.context i = x) :
    ∃ q, State.Strides s p ((st.carryOut s op rest x).2.filterMap Happening.stride? ++
      (s.decided st.memory.context i x.outcome).toList.map .choose) (st.carryOut s op rest x).1 q := by
  obtain ⟨q, hwalks, hfits, hguides⟩ := (h.keeps.held _ hholder).strides hids
    (h.derives.held _ hholder) h.fits (h.guides _ hholder).heads (hp ▸ perform_performs i)
  refine ⟨q, ?_, by rwa [State.carryOut_memory], ?_⟩
  · obtain ⟨last, hlog, hlast⟩ := State.carryOut_log s st op rest x
    have hnone : last.filterMap Happening.stride? = [] := by
      rcases hlast with rfl | ⟨call, todo, -, rfl⟩ | ⟨e, -, rfl⟩ <;> rfl
    rw [hlog, List.filterMap_append, hnone, List.append_nil, strides_log]
    exact hwalks
  · intro holder hholder'
    rw [State.carryOut_memory]
    unfold State.carryOut at hholder'
    cases houtcome : x.outcome with
    | fail e => simp [houtcome] at hholder'
    | proceed todo | call call todo | stop =>
      rw [houtcome] at hguides
      obtain rfl : _ = holder := by simpa [houtcome] using hholder'
      exact hguides

theorem tick (hids : ∀ n ∈ s.graph.nodes, n.id ≠ "") (h : st.Follows s p) :
    ∃ q, State.Strides s p (st.strides s .tick) (st.step s .tick).1 q := by
  have hidle : (∀ op agenda, st.holder ≠ some ⟨op, agenda, none⟩) →
      State.Strides s p (st.strides s .tick) (st.step s .tick).1 p := by
    intro hbusy
    have hdecision : st.decision? s .tick = none := by
      simp only [State.decision?]
      split
      · rename_i op i rest hholder
        exact absurd hholder (hbusy op _)
      · rfl
    simp only [State.strides, hdecision, State.step, State.tick_idle hbusy]
    exact ⟨.rest, h.fits, h.guides⟩
  cases hholder : st.holder with
  | none => exact ⟨p, hidle (by simp [hholder])⟩
  | some holder =>
    obtain ⟨op, agenda, call⟩ := holder
    cases call with
    | some call => exact ⟨p, hidle (by simp [hholder])⟩
    | none =>
      cases agenda with
      | nil =>
        refine ⟨p, ?_⟩
        simp only [State.strides, State.decision?, State.step, State.tick_over hholder, hholder]
        exact ⟨.rest, h.fits, by simp⟩
      | cons i rest =>
        simp only [State.strides, State.decision?, State.step,
          State.tick_eq_carryOut hholder rfl, hholder]
        exact h.carryOut hids hholder rfl

theorem makes (h : st.Follows s p) {mv : Move} (hm : Considerate st mv) (htick : mv ≠ .tick)
    (hkeeps : st'.Keeps s.Standing s.Healthy) (hmakes : Makes s st mv st' log) :
    ∃ q, State.Strides s p (log.filterMap Happening.stride?) st' q := by
  cases hmakes with
  | passes hmemory hholder hlog =>
    have hnone : log.filterMap Happening.stride? = [] := by
      refine List.filterMap_eq_nil_iff.mpr fun x hx => ?_
      cases hlog x hx <;> rfl
    refine ⟨p, hnone ▸ .rest, hmemory ▸ h.fits, ?_⟩
    rw [hmemory, hholder]
    exact h.guides
  | opens hnone hi hmemory hholder =>
    refine ⟨p, .rest, hmemory ▸ h.fits, fun holder hholder' => ?_⟩
    obtain rfl : _ = holder := by simpa [hholder] using hholder'
    refine guides_none ?_
    cases ‹Instruction› <;> trivial
  | hears hbefore hmemory hholder =>
    refine ⟨p, .rest, hmemory ▸ h.fits, fun holder hholder' => ?_⟩
    obtain rfl : _ = holder := by simpa [hholder] using hholder'
    rw [hmemory]
    exact guides_none (h.guides _ hbefore).heads
  | learns hbefore hmemory hholder =>
    refine ⟨p, .rest, hmemory ▸ h.fits, fun holder hholder' => ?_⟩
    obtain rfl : _ = holder := by simpa [hholder] using hholder'
    rw [hmemory]
    exact guides_none ((h.guides _ hbefore).asks _ _ _ rfl)
  | breaks hbefore hmemory hholder => exact ⟨p, .rest, hmemory ▸ h.fits, by simp [hholder]⟩
  | ends => exact absurd rfl htick
  | acts => exact absurd rfl htick
  | resets hmemory hholder =>
    have hidle : st'.memory.context.status = .idle := by
      simp [hmemory, Memory.reset, Context.initial]
    refine ⟨.nowhere, .single .resets, by simp [Position.Fits, hidle], fun holder hholder' => ?_⟩
    exact guides_of_ne_running (hkeeps.held holder hholder').suits (by simp [hidle])
  | restores => exact absurd rfl (hm.1 _)

theorem step (hids : ∀ n ∈ s.graph.nodes, n.id ≠ "") (h : st.Follows s p) {mv : Move}
    (hm : Considerate st mv) :
    ∃ q, s.Walks p (st.strides s mv) q ∧ (st.step s mv).1.Follows s q := by
  have hkeeps := (standing_considerate s).step hm h.keeps
  have hstrides : ∃ q, State.Strides s p (st.strides s mv) (st.step s mv).1 q := by
    by_cases htick : mv = .tick
    · subst htick
      exact h.tick hids
    · have hdecision : st.decision? s mv = none := by
        cases mv <;> first | rfl | exact absurd rfl htick
      have hmakes := State.step_makes (s := s) h.numbered h.keeps.queued mv
      simpa [State.strides, hdecision] using h.makes hm htick hkeeps hmakes
  obtain ⟨q, hwalks, hfits, hguides⟩ := hstrides
  exact ⟨q, hwalks, h.numbered.step mv, hkeeps, (derives_stable s Considerate).step hm h.derives,
    hfits, hguides⟩

theorem steps (hids : ∀ n ∈ s.graph.nodes, n.id ≠ "") (ms : List Move) (h : st.Follows s p)
    (hms : st.Allows s Considerate ms) :
    ∃ q, s.Walks p (st.way s ms) q ∧ (st.steps s ms).1.Follows s q := by
  induction ms generalizing st p with
  | nil => exact ⟨p, .rest, h⟩
  | cons mv rest ih =>
    obtain ⟨q, hwalk, hfollows⟩ := h.step hids hms.1
    obtain ⟨r, hlater, hends⟩ := ih hfollows hms.2
    exact ⟨r, hwalk.append hlater, hends⟩

end State.Follows

theorem State.follows_new (s : Setup) : State.Follows s .nowhere {} where
  numbered := State.numbered_new
  keeps := State.keeps_new s.healthy_new
  derives := State.keeps_new trivial
  fits := by simp [Position.Fits, Context.initial]
  guides := by simp

theorem Happening.isChoice_of_stride? {x : Happening} {y : Stride} (h : x.stride? = some y) :
    y.isChoice = false := by
  cases x with
  | executed n =>
    obtain rfl := Option.some.inj h
    rfl
  | changed e c =>
    cases e with
    | started | moved | terminated | failed | reset =>
      obtain rfl := Option.some.inj h
      rfl
    | processed | variablesSet | suspended | resumed => nomatch h
  | restored | called | scheduled | finished => nomatch h

theorem State.way_log (s : Setup) (st : State) (ms : List Move) :
    (st.way s ms).filter (!·.isChoice) = (st.steps s ms).2.filterMap Happening.stride? := by
  have hlogged : ∀ log : List Happening, (log.filterMap Happening.stride?).filter (!·.isChoice) =
      log.filterMap Happening.stride? := by
    intro log
    refine List.filter_eq_self.mpr fun x hx => ?_
    obtain ⟨y, -, hy⟩ := List.mem_filterMap.mp hx
    simp [Happening.isChoice_of_stride? hy]
  have hchoices : ∀ d? : Option Decision,
      (d?.toList.map Stride.choose).filter (!·.isChoice) = [] := by
    intro d?
    cases d? <;> rfl
  induction ms generalizing st with
  | nil => rfl
  | cons m rest ih =>
    simp only [State.way, State.steps, State.strides, List.filter_append, List.filterMap_append,
      hlogged, hchoices, List.append_nil, ih]

/-- Whatever a session goes through, it walks as the graph prescribes: its strides, which are all
that its log shows of starts, executions, moves and ends, follow one another from nowhere to a
position that fits the context. As long as no operation has failed, a session that nobody holds has
left no node before its time: it is nowhere, or waits at the node where the walk stands. -/
theorem walks_prescribed_path (hids : ∀ n ∈ s.graph.nodes, n.id ≠ "") (ms : List Move)
    (hms : State.Allows s Considerate {} ms) :
    let st := (State.steps s {} ms).1
    let log := (State.steps s {} ms).2
    ∃ p, s.Walks .nowhere (State.way s {} ms) p ∧
      (State.way s {} ms).filter (!·.isChoice) = log.filterMap Happening.stride? ∧
      p.Fits s st.memory.context ∧
      ((∀ x ∈ log, ¬ x.isFailure) → st.holder = none →
        p = .nowhere ∨ ∃ n, p = .standing n ∧ s.WaitsAt st.memory.context n) := by
  obtain ⟨p, hwalks, hfollows⟩ := (State.follows_new s).steps hids ms hms
  refine ⟨p, hwalks, State.way_log s {} ms, hfollows.fits, fun hlog hholder => ?_⟩
  have hrest := (Course.of_steps ms hms).ne_running hlog hholder
  have hfits := hfollows.fits
  cases p with
  | nowhere => exact .inl rfl
  | facing n => exact absurd hfits.1.running hrest
  | standing n =>
    rcases hfits with hstands | hwaits
    · exact absurd hstands.running hrest
    · exact .inr ⟨n, rfl, hwaits⟩
  | leaving n port =>
    have hstands : s.StandsAt (State.steps s {} ms).1.memory.context n := hfits
    exact absurd hstands.running hrest

/-- A session that lets the user choose an action or leave. -/
def branching : Setup where
  graph :=
    { nodes :=
        [⟨"s", .start {}⟩,
          ⟨"c", .buttons
            { options := [{ text := "Book" }, { text := "Leave" }], waitForResponse := true }⟩,
          ⟨"a", .businessAction {}⟩, ⟨"e", .ending {}⟩]
      edges :=
        [{ source := "s", target := "c" },
          { source := "c", target := "a", sourceHandle := "handle-0" },
          { source := "c", target := "e" },
          { source := "a", target := "c", sourceHandle := "failure" },
          { source := "a", target := "e" }]
      sound := by decide }
  executor := { hasActions := true, config := { startDelay := .int 0, nodeDelay := .int 0 } }

/-- The action is chosen and succeeds, and the session comes to its end. -/
def toEnding : List Move :=
  [.begin (.start []), .tick, .tick, .tick, .tick, .tick, .tick, .tick, .tick, .tick, .tick,
    .answer 0 (.value .null), .tick, .tick, .answer 0 (.value .null), .tick, .tick,
    .begin (.submit (.str " book ")), .tick, .tick, .tick, .tick, .tick,
    .answer 1 (.outcome { port := "success" }), .tick, .tick, .tick, .answer 1 (.value .null), .tick,
    .tick, .tick, .tick, .tick, .answer 1 (.value .null), .tick, .tick, .tick]

theorem ending_reached_by_prescribed_path :
    let way := State.way branching {} toEnding
    way.filterMap (fun x => match x with
      | .move id => some id
      | _ => none) = ["c", "a", "e"] ∧ branching.Walks .nowhere way .nowhere := by
  obtain ⟨p, hwalks, -, hfits, hrest⟩ := walks_prescribed_path (s := branching) (by decide) toEnding
    (State.allows_of_forall (by simp [toEnding, Considerate]))
  refine ⟨by decide +kernel, ?_⟩
  have hended : (State.steps branching {} toEnding).1.memory.context.status = .ended := by
    decide +kernel
  rcases hrest (by decide +kernel) (by decide +kernel) with rfl | ⟨n, rfl, hwaits⟩
  · exact hwalks
  · exact absurd (hended.symm.trans hwaits.suspended) (by decide)

end ChatFlow.Session
