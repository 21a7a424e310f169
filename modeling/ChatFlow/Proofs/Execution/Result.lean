import ChatFlow.Execution.Node

/-!
# What a node can result in

Whatever the settings, the variables and the answers of collaborators are, a node results in one of
three things (`ExecutionResult.Suits`): it goes on without a word, it says one thing and leaves, or
it says one thing, makes one request and waits. `begin_suits` and `conclude_suits` show this for a
node before and after its question to the outside.

A result never leads to a node by its id, never fails without an error text, and waits for a choice
only with the options of its own node.
-/

namespace ChatFlow

theorem bind_eq_ok {ε α β : Type} {x : Except ε α} {f : α → Except ε β} {b : β} :
    (x >>= f) = .ok b ↔ ∃ a, x = .ok a ∧ f a = .ok b := by
  cases x <;> simp [bind, Except.bind]

theorem bind_eq_error {ε α β : Type} {x : Except ε α} {f : α → Except ε β} {e : ε} :
    (x >>= f) = .error e ↔ x = .error e ∨ ∃ a, x = .ok a ∧ f a = .error e := by
  cases x <;> simp [bind, Except.bind]

theorem pure_eq_ok {ε α : Type} {a b : α} : (pure a : Except ε α) = .ok b ↔ a = b := by
  simp [pure, Except.pure]

theorem pure_done_eq_ok {a b : ExecutionResult} :
    (pure (.done a) : Except Fault Progress) = .ok (.done b) ↔ a = b := by
  simp [pure_eq_ok]

/-- The options that a node offers. -/
def Body.options : Body → List ChoiceOption
  | .buttons d => d.options
  | .list d => d.options
  | _ => []

/-- The request that asks for what a session waits for. -/
def SuspendReason.request : SuspendReason → CallKind
  | .textInput => .textInput
  | .voiceInput => .voiceInput
  | .speechPlayback => .speech
  | .choice => .textInput

/-- The options that a session keeps while it waits at a node. -/
def Node.offered (n : Node) (reason : SuspendReason) : List ChoiceOption :=
  if reason = .choice then n.body.options else []

/-- Whether a transition goes on, ends or fails instead of waiting. -/
def Transition.Leaves : Transition → Prop
  | .advanceVia _ => True
  | .terminate => True
  | .fail error _ => error ≠ ""
  | .advance _ => False
  | .suspend _ _ => False

theorem Transition.advanceVia_leaves (port : Option String) : (advanceVia port).Leaves := trivial

namespace ExecutionResult

/-- The results that a node can have. -/
inductive Suits (n : Node) : ExecutionResult → Prop
  /-- It goes on without a word. -/
  | silent (port : Option String) (metadata : Fields) :
      Suits n { transition := .advanceVia port, metadata := metadata }
  /-- It says one thing and leaves. -/
  | speaks (m : Message) (hm : m.node = n.id) (t : Transition) (ht : t.Leaves)
      (patch metadata : Fields) :
      Suits n { effects := [.message m], transition := t, patch := patch, metadata := metadata }
  /-- It says one thing, makes a request and waits. -/
  | asks (m : Message) (hm : m.node = n.id) (call : ExternalCall) (reason : SuspendReason)
      (hcall : call.kind = reason.request) :
      Suits n { effects := [.message m, .call call],
                transition := .suspend reason (n.offered reason) }

variable {n : Node} {m : Message}

theorem Suits.onward (hm : m.node = n.id) (port : Option String) (patch metadata : Fields) :
    Suits n { effects := [.message m], transition := .advanceVia port, patch := patch,
              metadata := metadata } :=
  .speaks m hm (.advanceVia port) trivial patch metadata

theorem Suits.last (hm : m.node = n.id) :
    Suits n { effects := [.message m], transition := .terminate } :=
  .speaks m hm .terminate trivial [] []

end ExecutionResult

namespace Executor

open ExecutionResult

variable {x : Executor} {n : Node} {vars : Fields} {voice : Bool} {r : ExecutionResult}

theorem agentText_eq (node text : String) (vars : Fields) :
    agentText node text vars =
      .message { content := Template.interpolate text vars, node := node } := rfl

/-! ## Nodes without a question -/

theorem message_suits {d : MessageData} (h : x.message n.id d vars = .ok r) : r.Suits n := by
  obtain ⟨text, -, hr⟩ := bind_eq_ok.mp h
  cases hw : d.waitForResponse with
  | true =>
    obtain rfl : _ = r := by simpa [hw, pure, Except.pure, askText, agentText_eq] using hr
    exact .asks _ rfl _ .textInput rfl
  | false =>
    obtain rfl : _ = r := by simpa [hw, pure, Except.pure, agentText_eq] using hr
    exact .onward rfl none [] []

theorem input_suits {d : InputData} (h : x.input n.id d vars = .ok r) : r.Suits n := by
  obtain ⟨text, -, hr⟩ := bind_eq_ok.mp h
  obtain rfl : _ = r := by simpa [pure, Except.pure, askText, agentText_eq] using hr
  exact .asks _ rfl _ .textInput rfl

theorem condition_suits (d : ConditionData) : (condition n.id d).Suits n := by
  unfold condition
  split
  · exact .silent (some "true") []
  · exact .onward rfl _ _ _

theorem speech_suits {d : SpeechData} (h : x.speech n.id d vars voice = .ok r) : r.Suits n := by
  obtain ⟨text, -, hr⟩ := bind_eq_ok.mp h
  cases voice with
  | true =>
    obtain rfl := pure_eq_ok.mp hr
    exact .asks _ rfl _ .speechPlayback rfl
  | false =>
    obtain rfl := pure_eq_ok.mp hr
    exact .onward rfl none [] []

theorem listening_suits {d : ListeningData} (h : x.listening n.id d vars voice = .ok r) :
    r.Suits n := by
  obtain ⟨text, -, hr⟩ := bind_eq_ok.mp h
  cases voice with
  | true =>
    obtain rfl : _ = r := by simpa [pure, Except.pure, agentText_eq] using hr
    exact .asks _ rfl _ .voiceInput rfl
  | false =>
    obtain rfl : _ = r := by simpa [pure, Except.pure, askText, agentText_eq] using hr
    exact .asks _ rfl _ .textInput rfl

theorem choice_suits {d : ChoiceData} {metadata : Fields} (hd : n.body.options = d.options)
    (h : x.choice n.id d metadata vars = .ok r) : r.Suits n := by
  obtain ⟨text, -, hr⟩ := bind_eq_ok.mp h
  cases hw : d.waitForResponse with
  | true =>
    obtain rfl : _ = r := by simpa [hw, pure, Except.pure, askText] using hr
    have hoffered : d.options = n.offered .choice := by simp [Node.offered, hd]
    rw [hoffered]
    exact .asks _ rfl _ .choice rfl
  | false =>
    obtain rfl : _ = r := by simpa [hw, pure, Except.pure] using hr
    exact .onward rfl none [] []

theorem ending_suits {d : EndData} (h : x.ending n.id d vars = .ok r) : r.Suits n := by
  obtain ⟨text, -, hr⟩ := bind_eq_ok.mp h
  obtain rfl : _ = r := by simpa [pure, Except.pure, agentText_eq] using hr
  exact .last rfl

/-! ## Actions and generated replies -/

theorem route_suits (port text : String) (patch metadata : Fields) :
    (route n.id port text vars patch metadata).Suits n :=
  .onward rfl _ _ _

theorem routeFailure_suits {d : ActionData} {reason : String}
    (h : x.routeFailure n.id d vars reason = .ok r) : r.Suits n := by
  obtain ⟨text, -, hr⟩ := bind_eq_ok.mp h
  obtain rfl := pure_eq_ok.mp hr
  exact route_suits _ _ _ _

theorem contractViolation_message_ne (node port : String) (ports : List String) :
    (EngineError.contractViolation node port ports).message ≠ "" := by
  intro h
  -- the wording is closed by a bracket, whatever stands inside
  have hlast : ")" = "" := (String.append_eq_empty_iff.mp h).2
  exact absurd hlast (by decide)

theorem violation_suits {port : String} (h : x.violation n.id port = .ok r) : r.Suits n := by
  unfold violation at h
  obtain ⟨text, -, hr⟩ := bind_eq_ok.mp h
  obtain rfl := pure_eq_ok.mp hr
  exact .speaks _ rfl (.fail _ "") (contractViolation_message_ne n.id port actionPorts) [] _

theorem beginAction_suits {d : ActionData} (h : x.beginAction n.id d vars = .ok (.done r)) :
    r.Suits n := by
  obtain ⟨verdict, -, hr⟩ := bind_eq_ok.mp h
  cases verdict with
  | proceed =>
    cases hactions : x.hasActions with
    | true => simp [hactions, pure, Except.pure] at hr
    | false =>
      simp only [hactions, Bool.false_eq_true, if_false] at hr
      obtain ⟨routed, hrouted, hr⟩ := bind_eq_ok.mp hr
      obtain rfl : routed = r := pure_done_eq_ok.mp hr
      exact routeFailure_suits hrouted
  | blocked b =>
    obtain rfl := pure_done_eq_ok.mp hr
    exact route_suits _ _ _ _
  | exhausted attempts limit =>
    obtain rfl := pure_done_eq_ok.mp hr
    exact route_suits _ _ _ _

theorem concludeOutcome_suits {d : ActionData} {o : ActionOutcome}
    (h : x.concludeOutcome n.id d vars o = .ok r) : r.Suits n := by
  unfold concludeOutcome at h
  by_cases hport : o.port ∈ actionPorts
  · simp only [hport, not_true_eq_false, if_false] at h
    split at h
    · obtain ⟨counted, -, h⟩ := bind_eq_ok.mp h
      obtain ⟨text, -, h⟩ := bind_eq_ok.mp h
      obtain rfl := pure_eq_ok.mp h
      exact route_suits _ _ _ _
    · split at h
      · obtain rfl := pure_eq_ok.mp h
        exact route_suits _ _ _ _
      · obtain ⟨text, -, h⟩ := bind_eq_ok.mp h
        obtain rfl := pure_eq_ok.mp h
        exact route_suits _ _ _ _
  · simp only [hport, not_false_eq_true, if_true] at h
    exact violation_suits h

theorem concludeAction_suits {d : ActionData} {reply : Reply}
    (h : x.concludeAction n.id d vars reply = .ok r) : r.Suits n := by
  unfold concludeAction at h
  split at h
  · exact concludeOutcome_suits h
  · split at h
    · exact concludeOutcome_suits h
    · exact violation_suits h
  · exact violation_suits h
  · exact violation_suits h
  · exact routeFailure_suits h

theorem replied_suits (d : AIResponseData) (text : String) (metadata : Fields) :
    (replied n.id d text metadata).Suits n :=
  .onward rfl _ _ _

theorem beginReply_suits {d : AIResponseData} (h : x.beginReply n.id d vars = .ok (.done r)) :
    r.Suits n := by
  unfold beginReply at h
  cases hblank : Text.isBlankText d.prompt with
  | true =>
    simp only [hblank, if_true] at h
    obtain ⟨text, -, hr⟩ := bind_eq_ok.mp h
    obtain rfl := pure_done_eq_ok.mp hr
    exact .onward rfl none [] []
  | false =>
    simp only [hblank, Bool.false_eq_true, if_false] at h
    cases hresponder : x.hasResponder with
    | true => simp [hresponder, pure, Except.pure] at h
    | false =>
      obtain rfl : _ = r := by simpa [hresponder, pure, Except.pure] using h
      exact replied_suits _ _ _

theorem concludeReply_suits {d : AIResponseData} {reply : Reply}
    (h : x.concludeReply n.id d reply = .ok r) : r.Suits n := by
  unfold concludeReply at h
  split at h
  · obtain ⟨text, -, hr⟩ := bind_eq_ok.mp h
    obtain rfl := pure_eq_ok.mp hr
    exact replied_suits _ _ _
  · obtain ⟨text, -, hr⟩ := bind_eq_ok.mp h
    obtain rfl := pure_eq_ok.mp hr
    exact .onward rfl _ _ _

/-! ## All nodes -/

/-- The result of a node that is executed without outside help. -/
theorem begin_suits (h : x.begin n vars voice = .ok (.done r)) : r.Suits n := by
  unfold Executor.begin at h
  split at h
  · obtain rfl := pure_done_eq_ok.mp h
    exact .silent none []
  · obtain ⟨done, hdone, hr⟩ := bind_eq_ok.mp h
    obtain rfl : done = r := pure_done_eq_ok.mp hr
    exact message_suits hdone
  · exact beginReply_suits h
  · obtain ⟨done, hdone, hr⟩ := bind_eq_ok.mp h
    obtain rfl : done = r := pure_done_eq_ok.mp hr
    exact input_suits hdone
  · obtain rfl := pure_done_eq_ok.mp h
    exact condition_suits _
  · obtain ⟨done, hdone, hr⟩ := bind_eq_ok.mp h
    obtain rfl : done = r := pure_done_eq_ok.mp hr
    exact speech_suits hdone
  · obtain ⟨done, hdone, hr⟩ := bind_eq_ok.mp h
    obtain rfl : done = r := pure_done_eq_ok.mp hr
    exact listening_suits hdone
  · rename_i hbody
    obtain ⟨done, hdone, hr⟩ := bind_eq_ok.mp h
    obtain rfl : done = r := pure_done_eq_ok.mp hr
    exact choice_suits (by rw [hbody]; rfl) hdone
  · rename_i hbody
    obtain ⟨done, hdone, hr⟩ := bind_eq_ok.mp h
    obtain rfl : done = r := pure_done_eq_ok.mp hr
    exact choice_suits (by rw [hbody]; rfl) hdone
  · exact beginAction_suits h
  · obtain ⟨done, hdone, hr⟩ := bind_eq_ok.mp h
    obtain rfl : done = r := pure_done_eq_ok.mp hr
    exact ending_suits hdone
  · obtain rfl := pure_done_eq_ok.mp h
    exact .silent none _

/-- The result of a node after the answer to its question, whatever the answer is. -/
theorem conclude_suits {q : Inquiry} {reply : Reply}
    (h : x.conclude n.id q reply = .ok r) : r.Suits n := by
  cases q with
  | generate d prompt => exact concludeReply_suits h
  | act d vars => exact concludeAction_suits h

end Executor

end ChatFlow
