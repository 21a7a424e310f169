import ChatFlow.Proofs.Execution.Result
import ChatFlow.Session.Machine

/-!
# What an instruction can do

`Performs s c i p`: in the context `c`, the instruction `i` has the effect `p`. There is one
constructor for each way an instruction can go, with everything that is known when it goes that way.
`perform_performs` says that these are all the ways, so that a proof about instructions is a case
analysis and never opens `perform`.

`feasible_suits` adds that a session changes no result into something that a node could not have
resulted in.
-/

namespace ChatFlow.Session

open ExecutionResult

/-- Whether an operation can begin with an instruction. -/
def Instruction.Opens : Instruction → Prop
  | .start _ => True
  | .accept _ => True
  | .acceptPlayback => True
  | .enter => True
  | _ => False

/-- The event that keeps a reply, if the node has a variable for it. -/
def keeping (name : String) (reply : Value) : List Event :=
  if name.isEmpty then [] else [.variablesSet [(name, reply)]]

variable (s : Setup)

/-- The run has come to a node: nothing has been reset, and the cursor stands on the node, which has
not been executed since. -/
structure Setup.Comes (c : Context) (run : Run) (node : Node) : Prop where
  turn_eq : c.turn = run.turn
  running : c.status = .running
  cursor_eq : c.cursor = some node.id
  fresh : node.id ∉ c.processed
  node_eq : s.graph.node? node.id = some node

/-- The session waits at a node for something other than a playback. -/
structure Setup.AwaitsReply (c : Context) (node : Node) : Prop where
  waiting : s.waitingNode? c = some node
  suspended : c.status = .suspended
  awaiting_ne : c.awaiting ≠ some .speechPlayback

/-- The port through which a reply leaves. -/
def replyPort (c : Context) (node : Node) (reply : Value) : Except Fault (Option String) :=
  if c.awaiting = some .choice then matchChoice (node.type? = some .list) c.choices reply
  else .ok none

/-- The request of a node that is made of its surroundings. -/
def Setup.Requests (call : ExternalCall) (r : Request) : Prop :=
  match call.kind with
  | .textInput => s.hasHost = true ∧ r = .textInput
  | .voiceInput => s.hasHost = true ∧ r = .voiceInput
  | .speech => s.hasSynthesizer = true ∧ ∃ text, r = .speech text

/-- The effects that instructions can have. -/
inductive Performs (c : Context) : Instruction → Performed → Prop
  | starts {vars : Fields} {n : Node} (hn : s.graph.startNode? = some n) :
      Performs c (.start vars)
        { events := [.started (some n.id) vars], outcome := .proceed [.enter] }
  | lacksStart {vars : Fields} {m : Message} (hn : s.graph.startNode? = none)
      (hm : notice s.config.missingStartMessage "" = .ok m) :
      Performs c (.start vars)
        { events := [.started none vars], outcome := .call (s.sending m) [] }
  | lacksWords {vars : Fields} {e : Fault} (hn : s.graph.startNode? = none)
      (hm : notice s.config.missingStartMessage "" = .error e) :
      Performs c (.start vars) { events := [.started none vars], outcome := .fail e }
  | drops {reply : Value} (h : ∀ node, ¬ s.AwaitsReply c node) :
      Performs c (.accept reply) { outcome := .stop }
  | takes {reply : Value} {node : Node} {name : String} {port : Option String}
      (h : s.AwaitsReply c node) (hname : replyVariable node = .ok name)
      (hport : replyPort c node reply = .ok port) :
      Performs c (.accept reply)
        { events := keeping name reply ++ [.resumed],
          outcome := .proceed [.leave node (.advanceVia port), .enter] }
  | misnames {reply : Value} {node : Node} {e : Fault} (h : s.AwaitsReply c node)
      (hname : replyVariable node = .error e) :
      Performs c (.accept reply) { outcome := .fail e }
  | mismatches {reply : Value} {node : Node} {name : String} {e : Fault}
      (h : s.AwaitsReply c node) (hname : replyVariable node = .ok name)
      (hport : replyPort c node reply = .error e) :
      Performs c (.accept reply) { events := keeping name reply, outcome := .fail e }
  | ignores (h : ∀ node, s.waitingNode? c = some node → c.awaiting ≠ some .speechPlayback) :
      Performs c .acceptPlayback { outcome := .stop }
  | resumes {node : Node} (hnode : s.waitingNode? c = some node)
      (h : c.awaiting = some .speechPlayback) :
      Performs c .acceptPlayback
        { events := [.resumed], outcome := .proceed [.leave node (.advanceVia none), .enter] }
  | enters :
      Performs c .enter { entered := true, outcome := .proceed [.visit ⟨c.turn, 0⟩] }
  | halts {run : Run}
      (h : c.turn = run.turn → c.status = .running → ∀ id, c.cursor = some id → id ∈ c.processed) :
      Performs c (.visit run) { outcome := .stop }
  | loses {run : Run} {id : String} (hturn : c.turn = run.turn) (hrunning : c.status = .running)
      (hcursor : c.cursor = some id) (hnode : s.graph.node? id = none) :
      Performs c (.visit run) { events := [.terminated], outcome := .stop }
  | exceeds {run : Run} {node : Node} {m : Message} (h : s.Comes c run node)
      (hreached : EngineConfig.reached s.config.maxSteps run.steps = .ok true)
      (hm : notice s.config.stepLimitMessage node.id = .ok m) :
      Performs c (.visit run) { outcome := .call (s.sending m) [.giveUp] }
  | pauses {run : Run} {node : Node} {seconds : Double} (h : s.Comes c run node)
      (hreached : EngineConfig.reached s.config.maxSteps run.steps = .ok false) :
      Performs c (.visit run)
        { outcome := .call (.outward (.sleep seconds))
            [.execute { run with steps := run.steps + 1 } node] }
  | hurries {run : Run} {node : Node} (h : s.Comes c run node)
      (hreached : EngineConfig.reached s.config.maxSteps run.steps = .ok false) :
      Performs c (.visit run)
        { outcome := .proceed [.execute { run with steps := run.steps + 1 } node] }
  | breaksOff {run : Run} {node : Node} {e : Fault} (h : s.Comes c run node) :
      Performs c (.visit run) { outcome := .fail e }
  | abandons {run : Run} {node : Node} (hturn : c.turn ≠ run.turn) :
      Performs c (.execute run node) { outcome := .stop }
  | executes {run : Run} {node : Node} {r : ExecutionResult} (hturn : c.turn = run.turn)
      (hr : r.Suits node)
      (hbegin : s.executor.begin node c.vars s.voiceMode = .ok (.done r)) :
      Performs c (.execute run node)
        { events := [.processed node.id], executed := some node,
          outcome := .proceed [.deliver run node r] }
  | inquires {run : Run} {node : Node} {q : Inquiry} (hturn : c.turn = run.turn)
      (hq : s.executor.begin node c.vars s.voiceMode = .ok (.asks q)) :
      Performs c (.execute run node)
        { events := [.processed node.id], executed := some node,
          outcome := .call (.inquire run node q) [] }
  | stumbles {run : Run} {node : Node} {e : Fault} (hturn : c.turn = run.turn) :
      Performs c (.execute run node)
        { events := [.processed node.id], executed := some node, outcome := .fail e }
  | concludes {run : Run} {node : Node} {q : Inquiry} {reply : Reply} {r : ExecutionResult}
      (hturn : c.turn = run.turn) (hr : r.Suits node)
      (hconclude : s.executor.conclude node.id q reply = .ok r) :
      Performs c (.conclude run node q reply) { outcome := .proceed [.deliver run node r] }
  | discards {run : Run} {node : Node} {q : Inquiry} {reply : Reply}
      (hturn : c.turn ≠ run.turn) :
      Performs c (.conclude run node q reply) { outcome := .stop }
  | misleads {run : Run} {node : Node} {q : Inquiry} {reply : Reply} {e : Fault} :
      Performs c (.conclude run node q reply) { outcome := .fail e }
  | delivers {run : Run} {node : Node} {result : ExecutionResult} :
      Performs c (.deliver run node result)
        { events := if (s.feasible result).patch.isEmpty then []
            else [.variablesSet (s.feasible result).patch],
          outcome := .proceed (delivery run node (s.feasible result)) }
  | sends {m : Message} : Performs c (.send m) { outcome := .call (s.sending m) [] }
  | requests {call : ExternalCall} {r : Request} (hr : s.Requests call r) :
      Performs c (.perform call) { outcome := .call (.outward r) [] }
  | skips {call : ExternalCall} (hhost : s.hasHost = false) (hkind : call.kind ≠ .speech) :
      Performs c (.perform call) { outcome := .proceed [] }
  | cannotSpeak {call : ExternalCall} {e : Fault} (hsynth : s.hasSynthesizer = false)
      (hkind : call.kind = .speech) :
      Performs c (.perform call) { outcome := .fail e }
  | jumps {node : Node} {id : String} :
      Performs c (.leave node (.advance id)) { events := [.moved id], outcome := .proceed [] }
  | moves {node : Node} {port : Option String} {id : String}
      (hid : (s.graph.targets node.id port).head? = some id) :
      Performs c (.leave node (.advanceVia port))
        { events := [.moved id], outcome := .proceed [] }
  | closes {node : Node} {port : Option String} {m : Message}
      (hnone : s.graph.targets node.id port = []) (hcursor : c.cursor.isSome = true)
      (hm : notice s.config.endOfFlowMessage node.id = .ok m) :
      Performs c (.leave node (.advanceVia port)) { outcome := .call (s.sending m) [.close] }
  | closesMute {node : Node} {port : Option String} {e : Fault}
      (hnone : s.graph.targets node.id port = []) (hcursor : c.cursor.isSome = true) :
      Performs c (.leave node (.advanceVia port)) { outcome := .fail e }
  | closesLost {node : Node} {port : Option String}
      (hnone : s.graph.targets node.id port = []) (hcursor : c.cursor = none) :
      Performs c (.leave node (.advanceVia port)) { outcome := .proceed [.close] }
  | suspends {node : Node} {reason : SuspendReason} {choices : List ChoiceOption} :
      Performs c (.leave node (.suspend reason choices))
        { events := [.suspended reason choices], outcome := .proceed [] }
  | terminates {node : Node} :
      Performs c (.leave node .terminate) { events := [.terminated], outcome := .proceed [] }
  | fails {node : Node} {error text : String} :
      Performs c (.leave node (.fail error text))
        { events := [.failed error], lastError := some error, outcome := .proceed [] }
  | finishes : Performs c .close { events := [.terminated], outcome := .proceed [] }
  | givesUp :
      Performs c .giveUp
        { events := [.failed Setup.tooManySteps], lastError := some Setup.tooManySteps,
          outcome := .stop }

/-! ## Every instruction is one of these -/

variable {s} {c : Context}

@[simp] theorem ofExcept_ok {α : Type} (events : List Event) (a : α) (f : α → Outcome) :
    Performed.ofExcept events (.ok a) f = { events := events, outcome := f a } := rfl

@[simp] theorem ofExcept_error {α : Type} (events : List Event) (e : Fault) (f : α → Outcome) :
    Performed.ofExcept events (.error e) f = { events := events, outcome := .fail e } := rfl

theorem start_performs (vars : Fields) : Performs s c (.start vars) (s.perform c (.start vars)) := by
  simp only [Setup.perform]
  split
  · rename_i n hn
    exact .starts hn
  · rename_i hn
    cases hm : notice s.config.missingStartMessage "" with
    | ok m => exact .lacksStart hn hm
    | error e => exact .lacksWords hn hm

theorem accept_performs (reply : Value) :
    Performs s c (.accept reply) (s.perform c (.accept reply)) := by
  simp only [Setup.perform, Setup.accept]
  cases hnode : s.waitingNode? c with
  | none => exact .drops fun node h => by simpa [hnode] using h.waiting
  | some node =>
    simp only
    split
    · rename_i hbusy
      refine .drops fun other h => ?_
      simp [Context.isSuspended, h.suspended, h.awaiting_ne] at hbusy
    · rename_i hbusy
      simp only [Context.isSuspended, Bool.or_eq_true, Bool.not_eq_true', decide_eq_false_iff_not,
        decide_eq_true_eq, not_or, Decidable.not_not] at hbusy
      have h : s.AwaitsReply c node := ⟨hnode, hbusy.1, hbusy.2⟩
      cases hname : replyVariable node with
      | error e => exact .misnames h hname
      | ok name =>
        cases hport : replyPort c node reply with
        | error e =>
          have heq : (if c.awaiting = some .choice then
              matchChoice (node.type? = some .list) c.choices reply else .ok none) = .error e :=
            hport
          simp only [heq]
          exact .mismatches h hname hport
        | ok port =>
          have heq : (if c.awaiting = some .choice then
              matchChoice (node.type? = some .list) c.choices reply else .ok none) = .ok port :=
            hport
          simp only [heq]
          exact .takes h hname hport

theorem acceptPlayback_performs :
    Performs s c .acceptPlayback (s.perform c .acceptPlayback) := by
  simp only [Setup.perform, Setup.acceptPlayback]
  cases hnode : s.waitingNode? c with
  | none => exact .ignores fun node h => by simp [hnode] at h
  | some node =>
    by_cases h : c.awaiting = some .speechPlayback
    · simp only [h, ne_eq, not_true_eq_false, if_false]
      exact .resumes hnode h
    · simp only [ne_eq, h, not_false_eq_true, if_true]
      exact .ignores fun _ _ => h

theorem visit_performs (run : Run) : Performs s c (.visit run) (s.perform c (.visit run)) := by
  simp only [Setup.perform, Setup.visit]
  split
  · rename_i hstale
    refine .halts fun hturn hrunning => ?_
    simp [hturn, hrunning] at hstale
  · rename_i hstale
    simp only [ne_eq, decide_not, Bool.or_eq_true, Bool.not_eq_true', decide_eq_false_iff_not,
      not_or, Decidable.not_not] at hstale
    obtain ⟨hturn, hrunning⟩ := hstale
    cases hcursor : c.cursor with
    | none => exact .halts fun _ _ id hid => by simp [hcursor] at hid
    | some id =>
      by_cases hprocessed : id ∈ c.processed
      · simp only [hprocessed, if_true]
        refine .halts fun _ _ other hother => ?_
        obtain rfl : id = other := by simpa [hcursor] using hother
        exact hprocessed
      · simp only [hprocessed, if_false]
        cases hnode : s.graph.node? id with
        | none => exact .loses hturn hrunning hcursor hnode
        | some node =>
          obtain rfl : node.id = id := (FlowGraph.mem_of_node? hnode).2
          have h : s.Comes c run node := ⟨hturn, hrunning, hcursor, hprocessed, hnode⟩
          cases hreached : EngineConfig.reached s.config.maxSteps run.steps with
          | error e => exact .breaksOff h
          | ok full =>
            cases full with
            | true =>
              cases hm : notice s.config.stepLimitMessage node.id with
              | ok m => exact .exceeds h hreached hm
              | error e => exact .breaksOff h
            | false =>
              simp only
              cases EngineConfig.pauseOf (s.delayOf node) with
              | error e => exact .breaksOff h
              | ok pause =>
                cases pause with
                | none => exact .hurries h hreached
                | some seconds => exact .pauses h hreached

theorem execute_performs (run : Run) (node : Node) :
    Performs s c (.execute run node) (s.perform c (.execute run node)) := by
  simp only [Setup.perform, Setup.execute]
  by_cases hturn : c.turn = run.turn
  · simp only [hturn, ne_eq, not_true_eq_false, if_false]
    cases hbegin : s.executor.begin node c.vars s.voiceMode with
    | error e => exact .stumbles hturn
    | ok progress =>
      cases progress with
      | done r => exact .executes hturn (Executor.begin_suits hbegin) hbegin
      | asks q => exact .inquires hturn hbegin
  · simp only [ne_eq, hturn, not_false_eq_true, if_true]
    exact .abandons hturn

theorem conclude_performs (run : Run) (node : Node) (q : Inquiry) (reply : Reply) :
    Performs s c (.conclude run node q reply) (s.perform c (.conclude run node q reply)) := by
  simp only [Setup.perform]
  cases hr : s.executor.conclude node.id q reply with
  | error e => exact .misleads
  | ok r =>
    by_cases hturn : c.turn = run.turn
    · simp only [ofExcept_ok, hturn, ne_eq, not_true_eq_false, if_false]
      exact .concludes hturn (Executor.conclude_suits hr) hr
    · simp only [ofExcept_ok, ne_eq, hturn, not_false_eq_true, if_true]
      exact .discards hturn

theorem perform_call_performs (call : ExternalCall) :
    Performs s c (.perform call) (s.perform c (.perform call)) := by
  simp only [Setup.perform, Setup.performCall]
  cases hkind : call.kind with
  | textInput =>
    cases hhost : s.hasHost with
    | true => exact .requests (by simp [Setup.Requests, hkind, hhost])
    | false => exact .skips hhost (by simp [hkind])
  | voiceInput =>
    cases hhost : s.hasHost with
    | true => exact .requests (by simp [Setup.Requests, hkind, hhost])
    | false => exact .skips hhost (by simp [hkind])
  | speech =>
    cases hsynth : s.hasSynthesizer with
    | true =>
      simp only [if_true]
      split
      · exact .requests (by simp [Setup.Requests, hkind, hsynth])
      · exact .requests (by simp [Setup.Requests, hkind, hsynth])
    | false => exact .cannotSpeak hsynth hkind

theorem leave_performs (node : Node) (t : Transition) :
    Performs s c (.leave node t) (s.perform c (.leave node t)) := by
  simp only [Setup.perform]
  cases t with
  | advance id => exact .jumps
  | advanceVia port =>
    simp only [Setup.leave]
    cases htargets : s.graph.targets node.id port with
    | cons id rest => exact .moves (by simp [htargets])
    | nil =>
      cases hcursor : c.cursor with
      | none => exact .closesLost htargets hcursor
      | some id =>
        cases hm : notice s.config.endOfFlowMessage node.id with
        | ok m => exact .closes htargets (by simp [hcursor]) hm
        | error e => exact .closesMute htargets (by simp [hcursor])
  | suspend reason choices => exact .suspends
  | terminate => exact .terminates
  | fail error text => exact .fails

/-- Whatever an instruction does, it does in one of the ways that are listed. -/
theorem perform_performs (i : Instruction) : Performs s c i (s.perform c i) := by
  cases i with
  | start vars => exact start_performs vars
  | accept reply => exact accept_performs reply
  | acceptPlayback => exact acceptPlayback_performs
  | enter => exact .enters
  | visit run => exact visit_performs run
  | execute run node => exact execute_performs run node
  | conclude run node q reply => exact conclude_performs run node q reply
  | deliver run node r => exact .delivers
  | send m => exact .sends
  | perform call => exact perform_call_performs call
  | leave node t => exact leave_performs node t
  | close => exact .finishes
  | giveUp => exact .givesUp

/-! ## Feasible results -/

theorem feasible_suits {n : Node} {r : ExecutionResult} (h : r.Suits n) :
    (s.feasible r).Suits n := by
  unfold Setup.feasible
  split
  · cases h with
    | silent port metadata => exact .silent none metadata
    | speaks m hm t ht patch metadata => exact .onward hm none patch metadata
    | asks m hm call reason hcall => exact .onward hm none [] []
  · exact h

end ChatFlow.Session
