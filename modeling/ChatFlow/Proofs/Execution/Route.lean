import ChatFlow.Proofs.Execution.Result

/-!
# Where a node leads

The type of a node decides where a session goes from it. `Executor.Results` and `Executor.Concludes`
say so for a node before and after its question to the outside, with one constructor for each way;
`begin_results` and `conclude_results` show that these are all the ways, and `begin_asks` that only
generated replies and actions ask.

A node that closes a session says so in one message: the text of an `ending`, or the standing text
for an action whose outcome breaks the contract of its adapter.
-/

namespace ChatFlow

/-! ## The types of nodes -/

namespace Body

/-- The nodes that go on by themselves, through no port in particular. -/
def Passes (voice : Bool) : Body → Prop
  | .start _ => True
  | .message d => d.waitForResponse = false
  | .aiResponse _ => True
  | .tts _ => voice = false
  | .buttons d => d.waitForResponse = false
  | .list d => d.waitForResponse = false
  | .other _ _ => True
  | _ => False

/-- What a node waits for once it has been executed, if it waits. -/
def waitsFor (voice : Bool) : Body → Option SuspendReason
  | .message d => if d.waitForResponse then some .textInput else none
  | .input _ => some .textInput
  | .tts _ => if voice then some .speechPlayback else none
  | .stt _ => some (if voice then .voiceInput else .textInput)
  | .buttons d => if d.waitForResponse then some .choice else none
  | .list d => if d.waitForResponse then some .choice else none
  | _ => none

end Body

/-- The port that a condition takes: that of its first option. -/
def ConditionData.port (d : ConditionData) : String :=
  match d.options with
  | [] => "true"
  | first :: _ => if first.value.isEmpty then "handle-0" else first.value

/-- The outcome that an adapter comes back with, if it comes back with one. -/
def Reply.outcome? : Reply → Option ActionOutcome
  | .outcome o => some o
  | .value v =>
    match ActionOutcome.read v with
    | .valid o => some o
    | .faulty _ => none
  | _ => none

namespace Executor

open ExecutionResult EngineConfig

/-- The ports through which an action is left that does not take place. -/
inductive Refuses (x : Executor) (node : String) (d : ActionData) (vars : Fields) : String → Prop
  | exhausted {attempts limit : Int} (h : ActionData.check (ActionProfile.ofAction d.action) d vars
      node = .ok (.exhausted attempts limit)) : Refuses x node d vars failurePort
  | blocked {b : Blocked} (h : ActionData.check (ActionProfile.ofAction d.action) d vars node =
      .ok (.blocked b)) : Refuses x node d vars b.port
  | unavailable (h : ActionData.check (ActionProfile.ofAction d.action) d vars node = .ok .proceed)
      (hactions : x.hasActions = false) : Refuses x node d vars failurePort

/-- What comes of a node that asks nobody. -/
inductive Results (x : Executor) (n : Node) (vars : Fields) (voice : Bool) :
    ExecutionResult → Prop
  | passes {r : ExecutionResult} (hbody : n.body.Passes voice)
      (ht : r.transition = .advanceVia none) : Results x n vars voice r
  | decides {r : ExecutionResult} {d : ConditionData} (hbody : n.body = .condition d)
      (ht : r.transition = .advanceVia (some d.port)) : Results x n vars voice r
  | refuses {r : ExecutionResult} {d : ActionData} {port : String}
      (hbody : n.body = .businessAction d) (hport : x.Refuses n.id d vars port)
      (ht : r.transition = .advanceVia (some port)) : Results x n vars voice r
  | waits {r : ExecutionResult} {reason : SuspendReason} {choices : List ChoiceOption}
      (hbody : n.body.waitsFor voice = some reason) (ht : r.transition = .suspend reason choices) :
      Results x n vars voice r
  | ends {d : EndData} {text : String} (hbody : n.body = .ending d)
      (htext : orTemplate d.message x.config.endMessage = .ok text) :
      Results x n vars voice { effects := [agentText n.id text vars], transition := .terminate }

/-- What comes of a node from the answer to its question on. -/
inductive Concludes (x : Executor) (n : Node) : Inquiry → Reply → ExecutionResult → Prop
  | speaks {d : AIResponseData} {prompt : String} {reply : Reply} {r : ExecutionResult}
      (ht : r.transition = .advanceVia none) : Concludes x n (.generate d prompt) reply r
  | acts {d : ActionData} {vars : Fields} {reply : Reply} {o : ActionOutcome}
      {r : ExecutionResult} (ho : reply.outcome? = some o) (hport : o.port ∈ actionPorts)
      (ht : r.transition = .advanceVia (some o.port)) : Concludes x n (.act d vars) reply r
  | fails {d : ActionData} {vars : Fields} {e : Fault} {r : ExecutionResult}
      (he : ∀ issues, e ≠ .invalid issues) (ht : r.transition = .advanceVia (some failurePort)) :
      Concludes x n (.act d vars) (.raised e) r
  | violates {d : ActionData} {vars : Fields} {reply : Reply} {port text : String}
      {metadata : Fields} (ho : ∀ o, reply.outcome? = some o → o.port ∉ actionPorts)
      (htext : contentOf x.config.contractViolationMessage = .ok text) :
      Concludes x n (.act d vars) reply
        { effects := [.message { content := text, sender := .system, node := n.id }]
          transition := .fail (EngineError.contractViolation n.id port actionPorts).message ""
          metadata := metadata }

variable {x : Executor} {n : Node} {vars : Fields} {voice : Bool} {r : ExecutionResult}

theorem pure_asks_eq_ok {a b : Inquiry} :
    (pure (.asks a) : Except Fault Progress) = .ok (.asks b) ↔ a = b := by
  simp [pure_eq_ok]

theorem pure_done_ne_asks {a : ExecutionResult} {b : Inquiry} :
    (pure (.done a) : Except Fault Progress) ≠ .ok (.asks b) := by
  simp [pure_eq_ok]

theorem bind_done_eq_ok {x : Except Fault ExecutionResult} {a : ExecutionResult} :
    (x >>= fun r => pure (.done r) : Except Fault Progress) = .ok (.done a) ↔ x = .ok a := by
  cases x <;> simp [bind, Except.bind, pure, Except.pure]

theorem bind_done_ne_asks {x : Except Fault ExecutionResult} {b : Inquiry} :
    (x >>= fun r => pure (.done r) : Except Fault Progress) ≠ .ok (.asks b) := by
  cases x <;> simp [bind, Except.bind, pure, Except.pure]

/-! ## Nodes without a question -/

theorem results_askIf {waits : Bool} {effect : Effect} {reason : SuspendReason}
    {choices : List ChoiceOption} (hwaits : waits = true → n.body.waitsFor voice = some reason)
    (hpasses : waits = false → n.body.Passes voice)
    (h : (if waits then askText effect reason choices else { effects := [effect] }) = r) :
    x.Results n vars voice r := by
  subst h
  cases waits with
  | true => exact .waits (hwaits rfl) rfl
  | false => exact .passes (hpasses rfl) rfl

theorem condition_transition (node : String) (d : ConditionData) :
    (condition node d).transition = .advanceVia (some d.port) := by
  unfold condition ConditionData.port
  cases d.options with
  | nil => rfl
  | cons first rest => rfl

theorem beginReply_transition {d : AIResponseData}
    (h : x.beginReply n.id d vars = .ok (.done r)) : r.transition = .advanceVia none := by
  unfold beginReply at h
  split at h
  · obtain ⟨text, -, hr⟩ := bind_eq_ok.mp h
    obtain rfl := pure_done_eq_ok.mp hr
    rfl
  · split at h
    · simp [pure, Except.pure] at h
    · obtain rfl := pure_done_eq_ok.mp h
      rfl

theorem routeFailure_transition {d : ActionData} {reason : String}
    (h : x.routeFailure n.id d vars reason = .ok r) :
    r.transition = .advanceVia (some failurePort) := by
  obtain ⟨text, -, hr⟩ := bind_eq_ok.mp h
  obtain rfl := pure_eq_ok.mp hr
  rfl

theorem beginAction_results {d : ActionData} (hbody : n.body = .businessAction d)
    (h : x.beginAction n.id d vars = .ok (.done r)) : x.Results n vars voice r := by
  obtain ⟨verdict, hverdict, hr⟩ := bind_eq_ok.mp h
  cases verdict with
  | proceed =>
    cases hactions : x.hasActions with
    | true => simp [hactions, pure, Except.pure] at hr
    | false =>
      simp only [hactions, Bool.false_eq_true, if_false] at hr
      obtain ⟨routed, hrouted, hr⟩ := bind_eq_ok.mp hr
      obtain rfl : routed = r := pure_done_eq_ok.mp hr
      exact .refuses hbody (.unavailable hverdict hactions) (routeFailure_transition hrouted)
  | blocked b =>
    obtain rfl := pure_done_eq_ok.mp hr
    exact .refuses hbody (.blocked hverdict) rfl
  | exhausted attempts limit =>
    obtain rfl := pure_done_eq_ok.mp hr
    exact .refuses hbody (.exhausted hverdict) rfl

/-- What a node results in before any question, by its type. -/
theorem begin_results (h : x.begin n vars voice = .ok (.done r)) : x.Results n vars voice r := by
  unfold Executor.begin at h
  split at h
  · rename_i hbody
    obtain rfl := pure_done_eq_ok.mp h
    exact .passes (by simp [hbody, Body.Passes]) rfl
  · rename_i d hbody
    obtain ⟨text, -, hr⟩ := bind_eq_ok.mp (bind_done_eq_ok.mp h)
    exact results_askIf (fun hw => by simp [hbody, Body.waitsFor, hw])
      (fun hw => by simp [hbody, Body.Passes, hw]) (pure_eq_ok.mp hr)
  · rename_i hbody
    exact .passes (by simp [hbody, Body.Passes]) (beginReply_transition h)
  · rename_i hbody
    obtain ⟨text, -, hr⟩ := bind_eq_ok.mp (bind_done_eq_ok.mp h)
    obtain rfl := pure_eq_ok.mp hr
    exact .waits (by simp [hbody, Body.waitsFor]) rfl
  · rename_i d hbody
    obtain rfl := pure_done_eq_ok.mp h
    exact .decides hbody (condition_transition n.id d)
  · rename_i hbody
    obtain ⟨text, -, hr⟩ := bind_eq_ok.mp (bind_done_eq_ok.mp h)
    cases voice with
    | true =>
      obtain rfl := pure_eq_ok.mp hr
      exact .waits (by simp [hbody, Body.waitsFor]) rfl
    | false =>
      obtain rfl := pure_eq_ok.mp hr
      exact .passes (by simp [hbody, Body.Passes]) rfl
  · rename_i hbody
    obtain ⟨text, -, hr⟩ := bind_eq_ok.mp (bind_done_eq_ok.mp h)
    cases voice with
    | true =>
      obtain rfl := pure_eq_ok.mp hr
      exact .waits (by simp [hbody, Body.waitsFor]) rfl
    | false =>
      obtain rfl := pure_eq_ok.mp hr
      exact .waits (by simp [hbody, Body.waitsFor]) rfl
  · rename_i d hbody
    obtain ⟨text, -, hr⟩ := bind_eq_ok.mp (bind_done_eq_ok.mp h)
    exact results_askIf (fun hw => by simp [hbody, Body.waitsFor, hw])
      (fun hw => by simp [hbody, Body.Passes, hw]) (pure_eq_ok.mp hr)
  · rename_i d hbody
    obtain ⟨text, -, hr⟩ := bind_eq_ok.mp (bind_done_eq_ok.mp h)
    exact results_askIf (fun hw => by simp [hbody, Body.waitsFor, hw])
      (fun hw => by simp [hbody, Body.Passes, hw]) (pure_eq_ok.mp hr)
  · rename_i d hbody
    exact beginAction_results hbody h
  · rename_i d hbody
    obtain ⟨text, htext, hr⟩ := bind_eq_ok.mp (bind_done_eq_ok.mp h)
    obtain rfl := pure_eq_ok.mp hr
    exact .ends hbody htext
  · rename_i hbody
    obtain rfl := pure_done_eq_ok.mp h
    exact .passes (by simp [hbody, Body.Passes]) rfl

/-! ## Nodes with a question -/

theorem beginReply_asks {d : AIResponseData} {q : Inquiry}
    (h : x.beginReply n.id d vars = .ok (.asks q)) : ∃ prompt, q = .generate d prompt := by
  unfold beginReply at h
  split at h
  · obtain ⟨text, -, hr⟩ := bind_eq_ok.mp h
    exact absurd hr pure_done_ne_asks
  · split at h
    · obtain rfl := pure_asks_eq_ok.mp h
      exact ⟨_, rfl⟩
    · exact absurd h pure_done_ne_asks

theorem beginAction_asks {d : ActionData} {q : Inquiry}
    (h : x.beginAction n.id d vars = .ok (.asks q)) : q = .act d vars := by
  obtain ⟨verdict, -, hr⟩ := bind_eq_ok.mp h
  cases verdict with
  | proceed =>
    cases hactions : x.hasActions with
    | true => simpa [hactions, pure, Except.pure] using hr.symm
    | false =>
      simp only [hactions, Bool.false_eq_true, if_false] at hr
      obtain ⟨routed, -, hr⟩ := bind_eq_ok.mp hr
      exact absurd hr pure_done_ne_asks
  | blocked b => exact absurd hr pure_done_ne_asks
  | exhausted attempts limit => exact absurd hr pure_done_ne_asks

/-- Only generated replies and actions ask, each its own question. -/
theorem begin_asks {q : Inquiry} (h : x.begin n vars voice = .ok (.asks q)) :
    (∃ d prompt, n.body = .aiResponse d ∧ q = .generate d prompt) ∨
      ∃ d, n.body = .businessAction d ∧ q = .act d vars := by
  unfold Executor.begin at h
  split at h
  · exact absurd h pure_done_ne_asks
  · exact absurd h bind_done_ne_asks
  · rename_i d hbody
    obtain ⟨prompt, rfl⟩ := beginReply_asks h
    exact .inl ⟨d, prompt, hbody, rfl⟩
  · exact absurd h bind_done_ne_asks
  · exact absurd h pure_done_ne_asks
  · exact absurd h bind_done_ne_asks
  · exact absurd h bind_done_ne_asks
  · exact absurd h bind_done_ne_asks
  · exact absurd h bind_done_ne_asks
  · rename_i d hbody
    exact .inr ⟨d, hbody, beginAction_asks h⟩
  · exact absurd h bind_done_ne_asks
  · exact absurd h pure_done_ne_asks

theorem violation_concludes {d : ActionData} {vars : Fields} {reply : Reply} {port : String}
    (ho : ∀ o, reply.outcome? = some o → o.port ∉ actionPorts)
    (h : x.violation n.id port = .ok r) : x.Concludes n (.act d vars) reply r := by
  obtain ⟨text, htext, hr⟩ := bind_eq_ok.mp h
  obtain rfl := pure_eq_ok.mp hr
  exact .violates ho htext

theorem concludeOutcome_concludes {d : ActionData} {reply : Reply} {o : ActionOutcome}
    (ho : reply.outcome? = some o) (h : x.concludeOutcome n.id d vars o = .ok r) :
    x.Concludes n (.act d vars) reply r := by
  unfold concludeOutcome at h
  by_cases hport : o.port ∈ actionPorts
  · simp only [hport, not_true_eq_false, if_false] at h
    refine .acts ho hport ?_
    split at h
    · obtain ⟨counted, -, h⟩ := bind_eq_ok.mp h
      obtain ⟨text, -, h⟩ := bind_eq_ok.mp h
      obtain rfl := pure_eq_ok.mp h
      rfl
    · split at h
      · obtain rfl := pure_eq_ok.mp h
        rfl
      · obtain ⟨text, -, h⟩ := bind_eq_ok.mp h
        obtain rfl := pure_eq_ok.mp h
        rfl
  · simp only [hport, not_false_eq_true, if_true] at h
    refine violation_concludes (fun o' ho' => ?_) h
    obtain rfl : o = o' := Option.some.inj (ho.symm.trans ho')
    exact hport

theorem concludeAction_concludes {d : ActionData} {reply : Reply}
    (h : x.concludeAction n.id d vars reply = .ok r) : x.Concludes n (.act d vars) reply r := by
  unfold concludeAction at h
  split at h
  · exact concludeOutcome_concludes rfl h
  · split at h
    · rename_i o ho
      exact concludeOutcome_concludes (by simp [Reply.outcome?, ho]) h
    · rename_i issues ho
      exact violation_concludes (by simp [Reply.outcome?, ho]) h
  · exact violation_concludes (by simp [Reply.outcome?]) h
  · exact violation_concludes (by simp [Reply.outcome?]) h
  · rename_i e he
    exact .fails he (routeFailure_transition h)

theorem concludeReply_transition {d : AIResponseData} {reply : Reply}
    (h : x.concludeReply n.id d reply = .ok r) : r.transition = .advanceVia none := by
  unfold concludeReply at h
  split at h
  · obtain ⟨text, -, hr⟩ := bind_eq_ok.mp h
    obtain rfl := pure_eq_ok.mp hr
    rfl
  · obtain ⟨text, -, hr⟩ := bind_eq_ok.mp h
    obtain rfl := pure_eq_ok.mp hr
    rfl

/-- What a node results in after the answer to its question, whatever the answer is. -/
theorem conclude_results {q : Inquiry} {reply : Reply} (h : x.conclude n.id q reply = .ok r) :
    x.Concludes n q reply r := by
  cases q with
  | generate d prompt => exact .speaks (concludeReply_transition h)
  | act d vars => exact concludeAction_concludes h

theorem Concludes.not_awaits {q : Inquiry} {reply : Reply} (h : x.Concludes n q reply r) :
    r.awaitsPlayback = false := by
  cases h <;> simp_all [ExecutionResult.awaitsPlayback]

end Executor

end ChatFlow
