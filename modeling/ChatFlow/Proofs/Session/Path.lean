import ChatFlow.Proofs.Graph.Routing
import ChatFlow.Proofs.Session.Choice
import ChatFlow.Proofs.Session.Origin

/-!
# The paths that a graph prescribes

The graph alone prescribes how a session walks through it. `Setup.Leads` gives the strides of such a
walk: it begins at the first start node, executes the node that it faces, lets the node, the answer
to its question or a reply of the user choose a port (`Setup.Chooses`), and goes along the first
edge that serves the port, or ends where there is none. `Setup.Walks` is one such stride after the
other.

`Setup.Yields.chooses` says that the result of a node never takes another port than the one that the
node chooses.
-/

namespace ChatFlow.Session

open ExecutionResult

/-! ## Strides -/

/-- Where a session is on its way. -/
inductive Position
  /-- At no node: it has not started, it is over, or it was reset. -/
  | nowhere
  /-- At a node that is to be executed. -/
  | facing (n : Node)
  /-- At a node that has been executed. -/
  | standing (n : Node)
  /-- On the way out of a node through a port. -/
  | leaving (n : Node) (port : Option String)

/-- What a session does on its way. -/
inductive Stride
  | start (id : Option String)
  | execute (n : Node)
  /-- The way from a node is decided on. -/
  | choose (d : Decision)
  | move (id : String)
  /-- The session comes to an end with an event. -/
  | stop (e : Event)
  deriving DecidableEq

variable (s : Setup)

/-- The ports through which a node is left. -/
inductive Setup.Chooses (n : Node) : Decision → Option String → Prop
  /-- Most nodes are left through no port in particular. Speech is among them where it is not played
  back. -/
  | passes {vars : Fields} (hbody : n.body.Passes (s.voiceMode && s.hasSynthesizer)) :
      Chooses n (.alone vars) none
  | decides {vars : Fields} {d : ConditionData} (hbody : n.body = .condition d) :
      Chooses n (.alone vars) (some d.port)
  /-- An action that does not take place. -/
  | refuses {vars : Fields} {d : ActionData} {port : String} (hbody : n.body = .businessAction d)
      (hport : s.executor.Refuses n.id d vars port) : Chooses n (.alone vars) (some port)
  | generates {d : AIResponseData} {prompt : String} {reply : Reply}
      (hbody : n.body = .aiResponse d) : Chooses n (.told (.generate d prompt) reply) none
  /-- An action is left through the port of its outcome. -/
  | acts {d : ActionData} {vars : Fields} {reply : Reply} {o : ActionOutcome}
      (hbody : n.body = .businessAction d) (ho : reply.outcome? = some o)
      (hport : o.port ∈ actionPorts) : Chooses n (.told (.act d vars) reply) (some o.port)
  | fails {d : ActionData} {vars : Fields} {e : Fault} (hbody : n.body = .businessAction d)
      (he : ∀ issues, e ≠ .invalid issues) :
      Chooses n (.told (.act d vars) (.raised e)) (some failurePort)
  | answers {reply : Value} {reason : SuspendReason}
      (hreason : n.body.waitsFor s.voiceMode = some reason) (hchoice : reason ≠ .choice)
      (hplayback : reason ≠ .speechPlayback) : Chooses n (.replied reply) none
  | picks {reply : Value} {port : Option String}
      (hreason : n.body.waitsFor s.voiceMode = some .choice) (hport : Picks n.body reply port) :
      Chooses n (.replied reply) port
  | plays (hreason : n.body.waitsFor s.voiceMode = some .speechPlayback) : Chooses n .played none

/-- The strides that the graph prescribes, from any position on. -/
inductive Setup.Leads : Position → Stride → Position → Prop
  | starts {p : Position} {n : Node} (h : s.graph.FirstStart n) :
      Leads p (.start (some n.id)) (.facing n)
  | startsNowhere {p : Position} (h : ∀ n ∈ s.graph.nodes, n.type? ≠ some .start) :
      Leads p (.start none) .nowhere
  | executes {n : Node} : Leads (.facing n) (.execute n) (.standing n)
  | chooses {n : Node} {d : Decision} {port : Option String} (h : s.Chooses n d port) :
      Leads (.standing n) (.choose d) (.leaving n port)
  | moves {n m : Node} {port : Option String} {e : Edge} (he : s.graph.FirstEdge n.id port e)
      (hm : m ∈ s.graph.nodes) (hid : m.id = e.target) :
      Leads (.leaving n port) (.move m.id) (.facing m)
  /-- The session ends where no edge leads on. -/
  | deadEnd {n : Node} {port : Option String} (h : ∀ e ∈ s.graph.edges, ¬ e.Serves n.id port) :
      Leads (.leaving n port) (.stop .terminated) .nowhere
  | ends {n : Node} {d : EndData} (hbody : n.body = .ending d) :
      Leads (.standing n) (.stop .terminated) .nowhere
  /-- The outcome of an action breaks the contract of its adapter. -/
  | breaks {n : Node} {d : ActionData} {port : String} (hbody : n.body = .businessAction d) :
      Leads (.standing n)
        (.stop (.failed (EngineError.contractViolation n.id port actionPorts).message)) .nowhere
  /-- The session has taken too many steps to execute another node. -/
  | tires {n : Node} : Leads (.facing n) (.stop (.failed Setup.tooManySteps)) .nowhere
  | resets {p : Position} : Leads p (.stop .reset) .nowhere

/-- Strides that follow one another. -/
inductive Setup.Walks : Position → List Stride → Position → Prop
  | rest {p : Position} : Walks p [] p
  | step {p q r : Position} {x : Stride} {way : List Stride} (h : s.Leads p x q)
      (walk : Walks q way r) : Walks p (x :: way) r

variable {s}

theorem Setup.Walks.single {p q : Position} {x : Stride} (h : s.Leads p x q) : s.Walks p [x] q :=
  .step h .rest

theorem Setup.Walks.append {p q r : Position} {way way' : List Stride} (h : s.Walks p way q)
    (h' : s.Walks q way' r) : s.Walks p (way ++ way') r := by
  induction h with
  | rest => exact h'
  | step hlead _ ih => exact .step hlead (ih h')

/-! ## Where the node leads -/

theorem passes_and {b : Body} {voice : Bool} (h : b.Passes voice) (other : Bool) :
    b.Passes (voice && other) := by
  cases b with
  | tts d =>
    obtain rfl : voice = false := h
    rfl
  | _ => exact h

theorem passes_of_waitsFor_playback {b : Body} {voice : Bool}
    (h : b.waitsFor voice = some .speechPlayback) : b.Passes false := by
  cases b with
  | tts d => rfl
  | message d => cases hw : d.waitForResponse <;> simp [Body.waitsFor, hw] at h
  | buttons d => cases hw : d.waitForResponse <;> simp [Body.waitsFor, hw] at h
  | list d => cases hw : d.waitForResponse <;> simp [Body.waitsFor, hw] at h
  | stt d => cases voice <;> simp [Body.waitsFor] at h
  | _ => simp [Body.waitsFor] at h

/-- A node that goes on does so through the port that it chooses. -/
theorem Setup.Yields.chooses {n : Node} {d : Decision} {r : ExecutionResult} {port : Option String}
    (h : s.Yields n d r) (ht : r.transition = .advanceVia port) : s.Chooses n d port := by
  cases h with
  | alone h =>
    rename_i vars r
    rcases feasible_cases s r with ⟨heq, -⟩ | ⟨honward, hawaits, hsynth⟩
    · rw [heq] at ht
      cases h with
      | passes hbody ht' =>
        obtain rfl := Transition.advanceVia.inj (ht'.symm.trans ht)
        exact .passes (passes_and hbody _)
      | decides hbody ht' =>
        obtain rfl := Transition.advanceVia.inj (ht'.symm.trans ht)
        exact .decides hbody
      | refuses hbody hport ht' =>
        obtain rfl := Transition.advanceVia.inj (ht'.symm.trans ht)
        exact .refuses hbody hport
      | waits hbody ht' => simp [ht] at ht'
      | ends => simp at ht
    · -- without a synthesizer the node goes on instead of waiting for the playback
      obtain rfl := Transition.advanceVia.inj (honward.symm.trans ht)
      refine .passes ?_
      rw [hsynth, Bool.and_false]
      cases h with
      | waits hbody ht' =>
        rename_i reason choices
        obtain rfl : reason = .speechPlayback := by
          cases reason <;> simp_all [awaitsPlayback]
        exact passes_of_waitsFor_playback hbody
      | _ => simp_all [awaitsPlayback]
  | told hq h =>
    rw [feasible_of_concludes h] at ht
    cases h with
    | speaks ht' =>
      obtain rfl := Transition.advanceVia.inj (ht'.symm.trans ht)
      cases hq with
      | generates hbody => exact .generates hbody
    | acts ho hport ht' =>
      obtain rfl := Transition.advanceVia.inj (ht'.symm.trans ht)
      cases hq with
      | acts hbody => exact .acts hbody ho hport
    | fails he ht' =>
      obtain rfl := Transition.advanceVia.inj (ht'.symm.trans ht)
      cases hq with
      | acts hbody => exact .fails hbody he
    | violates => simp at ht

end ChatFlow.Session
