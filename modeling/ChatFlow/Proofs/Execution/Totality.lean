import ChatFlow.Proofs.Execution.Action
import ChatFlow.Proofs.Execution.Failure

/-!
# Nodes that cannot be executed

Executing a node comes to a result whatever the variables are and whatever its collaborators do,
with two exceptions: `execute_returns_iff`. An action whose variables are supplied looks at its
counter before it takes place, and an infinite number there has no integer for it. Everything else
that is no number counts as zero. And a generated reply is said as it is, so it has to be a text;
only an answer that is no reply at all gives way to a standard text.

The settings are taken for what they are declared to be: each standard text is a text.
-/

namespace ChatFlow

open Session

/-- Every standard text that a node may say is a text. -/
structure EngineConfig.Worded (c : EngineConfig) : Prop extends c.WordsFailures where
  message : ∃ text, c.messageText = .str text
  question : ∃ text, c.inputQuestion = .str text
  prompt : ∃ text, c.sttPrompt = .str text
  speech : ∃ text, c.ttsText = .str text
  choice : ∃ text, c.choiceMessage = .str text
  generated : ∃ text, c.aiText = .str text
  success : ∃ text, c.businessSuccessMessage = .str text
  ending : ∃ text, c.endMessage = .str text

/-- The node is an action that comes to look at its counter and finds an infinite number there. -/
def Node.Overflows (n : Node) (vars : Fields) : Prop :=
  ∃ d, n.body = .businessAction d ∧ d.Supplied vars ∧ d.CountsInfinity vars n.id

/-- The node asks for a reply, and what the reply has as its text is none. -/
def Executor.GetsNoText (x : Executor) (answer : Request → Reply) (n : Node) (vars : Fields) :
    Prop :=
  ∃ d, n.body = .aiResponse d ∧ Text.isBlankText d.prompt = false ∧ x.hasResponder = true ∧
    ∃ said, answer (.generate (Template.interpolate d.prompt vars)) = .generated said ∧
      ∀ text, said ≠ .str text

namespace Executor

open ActionData EngineConfig

variable {x : Executor} {node : String} {d : ActionData} {vars : Fields}

/-! ## Up to the question -/

theorem exists_contentOf {setting : Value} (h : ∃ text, setting = .str text) :
    ∃ text, contentOf setting = .ok text := by
  obtain ⟨text, rfl⟩ := h
  exact ⟨text, rfl⟩

theorem exists_orTemplateIfBlank {setting : Value} (h : ∃ text, setting = .str text)
    (said : String) : ∃ text, orTemplateIfBlank said setting = .ok text := by
  obtain ⟨text, rfl⟩ := h
  unfold orTemplateIfBlank
  split
  · exact ⟨text, rfl⟩
  · exact ⟨said, rfl⟩

theorem exists_orContent {setting : Value} (h : ∃ text, setting = .str text) (said : String) :
    ∃ text, (if said.isEmpty then contentOf setting else .ok said) = .ok text := by
  split
  · exact exists_contentOf h
  · exact ⟨said, rfl⟩

theorem exists_speechText (h : ∃ text, x.config.ttsText = .str text) (d : SpeechData)
    (vars : Fields) : ∃ text, x.speechText d vars = .ok text := by
  unfold speechText
  extract_lets name authored text
  exact exists_orContent h text

theorem exists_bind {α β : Type} {a : Except Fault α} {f : α → Except Fault β}
    (ha : ∃ v, a = .ok v) (hf : ∀ v, ∃ w, f v = .ok w) : ∃ w, a >>= f = .ok w := by
  obtain ⟨v, rfl⟩ := ha
  exact hf v

theorem exists_routeFailure (hworded : x.config.Worded) (node : String) (d : ActionData)
    (vars : Fields) (reason : String) : ∃ r, x.routeFailure node d vars reason = .ok r :=
  exists_bind (exists_orTemplate hworded.action _) fun _ => ⟨_, rfl⟩

theorem exists_beginAction (hworded : x.config.Worded)
    (h : ¬ (d.Supplied vars ∧ d.CountsInfinity vars node)) :
    ∃ p, x.beginAction node d vars = .ok p := by
  have hprofile : ActionProfile.ofAction d.action = d.profile := rfl
  rw [beginAction, hprofile]
  have hchecks := check_checks d vars node
  generalize check d.profile d vars node = verdict at hchecks
  cases hchecks with
  | overflows hsupplied hinfinite => exact absurd ⟨hsupplied, hinfinite⟩ h
  | permits hpermitted =>
    cases hactions : x.hasActions with
    | true => exact ⟨.asks (.act d vars), by simp [bind, Except.bind, pure, Except.pure]⟩
    | false =>
      simp only [bind, Except.bind, Bool.false_eq_true, if_false]
      exact exists_bind (exists_routeFailure hworded node d vars _) fun _ => ⟨_, rfl⟩
  | _ => exact ⟨_, rfl⟩

theorem beginAction_overflows (hsupplied : d.Supplied vars)
    (hinfinite : d.CountsInfinity vars node) :
    x.beginAction node d vars = .error .overflow := by
  have hprofile : ActionProfile.ofAction d.action = d.profile := rfl
  rw [beginAction, hprofile, check_overflows hsupplied hinfinite]
  rfl

theorem exists_beginReply (hworded : x.config.Worded) (node : String) (d : AIResponseData)
    (vars : Fields) : ∃ p, x.beginReply node d vars = .ok p := by
  unfold beginReply
  split
  · exact exists_bind (exists_contentOf hworded.generated) fun _ => ⟨_, rfl⟩
  · dsimp only
    split <;> exact ⟨_, rfl⟩

theorem beginReply_asks_iff {d : AIResponseData} {q : Inquiry} :
    x.beginReply node d vars = .ok (.asks q) ↔
      Text.isBlankText d.prompt = false ∧ x.hasResponder = true ∧
        q = .generate d (Template.interpolate d.prompt vars) := by
  unfold beginReply
  cases hblank : Text.isBlankText d.prompt with
  | true =>
    refine iff_of_false (fun h => ?_) (by simp)
    obtain ⟨text, -, h⟩ := bind_eq_ok.mp h
    exact pure_done_ne_asks h
  | false =>
    cases hresponder : x.hasResponder with
    | true =>
      simp only [Bool.false_eq_true, if_false, if_true, true_and]
      exact pure_asks_eq_ok.trans eq_comm
    | false =>
      refine iff_of_false (fun h => ?_) (by simp)
      exact pure_done_ne_asks h

theorem exists_begin (hworded : x.config.Worded) {n : Node} (h : ¬ n.Overflows vars)
    (voice : Bool) : ∃ p, x.begin n vars voice = .ok p := by
  have hdone : ∀ {a : Except Fault ExecutionResult}, (∃ r, a = .ok r) →
      ∃ p, (do return Progress.done (← a)) = (.ok p : Except Fault Progress) :=
    fun ha => exists_bind ha fun _ => ⟨_, rfl⟩
  unfold Executor.begin
  split
  · exact ⟨_, rfl⟩
  · exact hdone (exists_bind (exists_orTemplateIfBlank hworded.message _) fun _ => ⟨_, rfl⟩)
  · exact exists_beginReply hworded _ _ _
  · exact hdone (exists_bind (exists_orTemplateIfBlank hworded.question _) fun _ => ⟨_, rfl⟩)
  · exact ⟨_, rfl⟩
  · exact hdone (exists_bind (exists_speechText hworded.speech _ _) fun _ => ⟨_, rfl⟩)
  · exact hdone (exists_bind (exists_orTemplate hworded.prompt _) fun _ => ⟨_, rfl⟩)
  · exact hdone (exists_bind (exists_orTemplate hworded.choice _) fun _ => ⟨_, rfl⟩)
  · exact hdone (exists_bind (exists_orTemplate hworded.choice _) fun _ => ⟨_, rfl⟩)
  · rename_i d hbody
    exact exists_beginAction hworded fun hboth => h ⟨d, hbody, hboth⟩
  · exact hdone (exists_bind (exists_orTemplate hworded.ending _) fun _ => ⟨_, rfl⟩)
  · exact ⟨_, rfl⟩

/-! ## From the answer on -/

theorem exists_violation (hworded : x.config.Worded) (node port : String) :
    ∃ r, x.violation node port = .ok r :=
  exists_bind (exists_contentOf hworded.contract) fun _ => ⟨_, rfl⟩

theorem exists_concludeOutcome (hworded : x.config.Worded)
    (hcounts : ∃ a, attempts vars (d.tally node) = .ok a) (o : ActionOutcome) :
    ∃ r, x.concludeOutcome node d vars o = .ok r := by
  obtain ⟨a, ha⟩ := hcounts
  have hprofile : ActionProfile.ofAction d.action = d.profile := rfl
  unfold concludeOutcome
  rw [hprofile]
  dsimp only
  split
  · exact exists_violation hworded node o.port
  · split
    · exact exists_bind ⟨_, successPatch_eq ha⟩ fun _ =>
        exists_bind (exists_orTemplate hworded.success _) fun _ => ⟨_, rfl⟩
    · split
      · exact ⟨_, rfl⟩
      · exact exists_bind (exists_orTemplate hworded.action _) fun _ => ⟨_, rfl⟩

theorem exists_concludeAction (hworded : x.config.Worded)
    (hcounts : ∃ a, attempts vars (d.tally node) = .ok a) (reply : Reply) :
    ∃ r, x.concludeAction node d vars reply = .ok r := by
  unfold concludeAction
  split
  · exact exists_concludeOutcome hworded hcounts _
  · split
    · exact exists_concludeOutcome hworded hcounts _
    · exact exists_violation hworded node _
  · exact exists_violation hworded node _
  · exact exists_violation hworded node _
  · exact exists_routeFailure hworded node d vars _

theorem exists_concludeReply (hworded : x.config.Worded) (node : String) (d : AIResponseData)
    {reply : Reply} (hreply : ∀ said, reply = .generated said → ∃ text, said = .str text) :
    ∃ r, x.concludeReply node d reply = .ok r := by
  unfold concludeReply
  split
  · rename_i said
    exact exists_bind (exists_contentOf (hreply said rfl)) fun _ => ⟨_, rfl⟩
  · exact exists_bind (exists_contentOf hworded.reply) fun _ => ⟨_, rfl⟩

theorem concludeReply_no_text (node : String) (d : AIResponseData) {said : Value}
    (hsaid : ∀ text, said ≠ .str text) :
    x.concludeReply node d (.generated said) =
      .error (.invalid [⟨[.field "content"], .notText⟩]) := by
  cases said with
  | str text => exact absurd rfl (hsaid text)
  | _ => rfl

/-! ## The whole node -/

theorem execute_overflows {n : Node} (h : n.Overflows vars) (answer : Request → Reply)
    (tenant : String) (voice : Bool) :
    x.execute answer tenant n vars voice = ([], .error .overflow) := by
  obtain ⟨d, hbody, hsupplied, hinfinite⟩ := h
  simp [execute, begin_businessAction hbody, beginAction_overflows hsupplied hinfinite]

theorem execute_asks {n : Node} {voice : Bool} {q : Inquiry}
    (h : x.begin n vars voice = .ok (.asks q)) (answer : Request → Reply) (tenant : String) :
    (x.execute answer tenant n vars voice).2 = x.conclude n.id q
      (answer (Setup.requestOf { graph := default, tenant := tenant } (.inquire ⟨0, 0⟩ n q))) := by
  simp [execute, h]

theorem begin_aiResponse {n : Node} {d : AIResponseData} (hbody : n.body = .aiResponse d)
    (voice : Bool) : x.begin n vars voice = x.beginReply n.id d vars := by
  simp [Executor.begin, hbody]

theorem execute_no_text {answer : Request → Reply} {n : Node} (h : x.GetsNoText answer n vars)
    (tenant : String) (voice : Bool) :
    (x.execute answer tenant n vars voice).2 =
      .error (.invalid [⟨[.field "content"], .notText⟩]) := by
  obtain ⟨d, hbody, hprompt, hresponder, said, hanswer, hsaid⟩ := h
  have hasks : x.begin n vars voice =
      .ok (.asks (.generate d (Template.interpolate d.prompt vars))) := by
    rw [begin_aiResponse hbody]
    exact beginReply_asks_iff.mpr ⟨hprompt, hresponder, rfl⟩
  have hreply : answer (Setup.requestOf { graph := default, tenant := tenant }
      (.inquire ⟨0, 0⟩ n (.generate d (Template.interpolate d.prompt vars)))) =
        .generated said := hanswer
  rw [execute_asks hasks, hreply]
  exact concludeReply_no_text (x := x) n.id d hsaid

theorem exists_execute_asks (hworded : x.config.Worded) {answer : Request → Reply} {n : Node}
    {voice : Bool} {q : Inquiry} (h : x.begin n vars voice = .ok (.asks q))
    (htext : ¬ x.GetsNoText answer n vars) (tenant : String) :
    ∃ r, (x.execute answer tenant n vars voice).2 = .ok r := by
  rw [execute_asks h]
  rcases begin_asks h with ⟨d, prompt, hbody, rfl⟩ | ⟨d, hbody, rfl⟩
  · obtain ⟨hprompt, hresponder, hq⟩ := beginReply_asks_iff.mp (begin_aiResponse hbody voice ▸ h)
    obtain ⟨-, rfl⟩ := Inquiry.generate.inj hq
    refine exists_concludeReply hworded n.id d fun said hsaid => ?_
    refine Classical.byContradiction fun hno => htext ?_
    exact ⟨d, hbody, hprompt, hresponder, said, hsaid, fun text heq => hno ⟨text, heq⟩⟩
  · obtain ⟨-, -, hpermitted⟩ := permitted_of_beginAction (begin_businessAction hbody ▸ h)
    exact exists_concludeAction hworded hpermitted.attempts_eq_ok _

/-- Executing a node comes to a result unless the node is an action that finds an infinite number in
its counter, or gets a reply that has no text. The action fails before anything has been asked. -/
theorem execute_returns_iff (hworded : x.config.Worded) (answer : Request → Reply)
    (tenant : String) (n : Node) (vars : Fields) (voice : Bool) :
    ((∃ r, (x.execute answer tenant n vars voice).2 = .ok r) ↔
        ¬ n.Overflows vars ∧ ¬ x.GetsNoText answer n vars) ∧
      (n.Overflows vars → x.execute answer tenant n vars voice = ([], .error .overflow)) ∧
      (x.GetsNoText answer n vars → (x.execute answer tenant n vars voice).2 =
        .error (.invalid [⟨[.field "content"], .notText⟩])) := by
  refine ⟨⟨?_, ?_⟩, fun h => execute_overflows h answer tenant voice,
    fun h => execute_no_text h tenant voice⟩
  · rintro ⟨r, hr⟩
    refine ⟨fun hover => ?_, fun hno => ?_⟩
    · simp [execute_overflows hover answer tenant voice] at hr
    · simp [execute_no_text hno tenant voice] at hr
  · rintro ⟨hfinite, htext⟩
    obtain ⟨p, hp⟩ := exists_begin hworded hfinite voice
    cases p with
    | done r => exact ⟨r, by simp [execute, hp]⟩
    | asks q => exact exists_execute_asks hworded hp htext tenant

/-- An action that may not succeed any more, and whose successes are counted. -/
def exhausted : Node := ⟨"b", .businessAction { maxAttempts := some 0 }⟩

theorem exhausted_tally : ({ maxAttempts := some 0 } : ActionData).tally "b" = "b_attempts" := by
  decide +kernel

theorem default_worded : ({} : EngineConfig).Worded where
  reply := ⟨_, rfl⟩
  action := ⟨_, rfl⟩
  contract := ⟨_, rfl⟩
  message := ⟨_, rfl⟩
  question := ⟨_, rfl⟩
  prompt := ⟨_, rfl⟩
  speech := ⟨_, rfl⟩
  choice := ⟨_, rfl⟩
  generated := ⟨_, rfl⟩
  success := ⟨_, rfl⟩
  ending := ⟨_, rfl⟩

/-- A counter that holds no number counts as zero, and the action is refused with a result. -/
theorem unreadable_counter_returns :
    ({} : EngineConfig).Worded ∧ ¬ exhausted.Overflows [("b_attempts", .str "many")] ∧
      ∃ r, (({ hasActions := true } : Executor).execute (fun _ => .value .null) "acme" exhausted
        [("b_attempts", .str "many")] false).2 = .ok r := by
  have hfinite : ¬ exhausted.Overflows [("b_attempts", .str "many")] := by
    rintro ⟨d, hbody, -, -, negative, hget⟩
    obtain rfl := Body.businessAction.inj hbody
    rw [show exhausted.id = "b" from rfl, exhausted_tally] at hget
    simp [Table.get?] at hget
  have htext : ∀ {x : Executor} {answer : Request → Reply} {vars : Fields},
      ¬ x.GetsNoText answer exhausted vars := by
    rintro x answer vars ⟨d, hbody, -⟩
    simp [exhausted] at hbody
  exact ⟨default_worded, hfinite,
    (execute_returns_iff default_worded _ "acme" exhausted _ false).1.mpr ⟨hfinite, htext⟩⟩

/-- A counter that holds an infinite number ends the execution with an error, although the action
has no success left whatever the number counts for. -/
theorem infinite_counter_fails :
    ({ hasActions := true } : Executor).execute (fun _ => .value .null) "acme" exhausted
      [("b_attempts", .float (.infinite false))] false = ([], .error .overflow) := by
  have hcounts : ({ maxAttempts := some 0 } : ActionData).CountsInfinity
      [("b_attempts", .float (.infinite false))] "b" := by
    simp [CountsInfinity, exhausted_tally, Table.get?]
  have hsupplied : ({ maxAttempts := some 0 } : ActionData).Supplied
      [("b_attempts", .float (.infinite false))] := by
    unfold Supplied
    decide +kernel
  exact execute_overflows ⟨_, rfl, hsupplied, hcounts⟩ _ _ _

end Executor

end ChatFlow
