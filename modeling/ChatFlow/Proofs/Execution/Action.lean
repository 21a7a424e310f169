import ChatFlow.Proofs.Execution.Attempt
import ChatFlow.Simulation.Cast

/-!
# Actions from end to end

What becomes of an action at a node: `action_carried_out`.

Checking it comes to one of five ends (`ActionData.Checks`), and only one lets it take place:
its variables are supplied, its successes are under their limit, and a reason is given if one is
demanded (`ActionData.Permitted`). Then its adapter is asked, once. From the answer there are three
ways on: an outcome through a port of actions leaves through it and sets what it sets, an answer
against the contract of adapters (`Reply.Violates`) fails the session, and every other error goes
the way of the failure port.
-/

namespace ChatFlow

open Session

/-! ## Checking an action -/

namespace ActionData

section

variable (d : ActionData) (vars : Fields) (node : String)

/-- The variables that must be present: those that the node lists, be it none, or else those of its
profile. -/
def needed : List String := required d.profile d

/-- The variable that must hold a reason if one is demanded. -/
def reasonVariable : String := textOr d.profile.reasonVariable "reason"

def Supplied : Prop := ∀ name ∈ d.needed, isBlank vars name = false

/-- If the successes are counted and there is a limit, they are below it. -/
def UnderLimit : Prop :=
  d.tally node ≠ "" → ∀ most, d.cap = some most →
    ∃ a, attempts vars (d.tally node) = .ok a ∧ a < most

/-- The action may take place. -/
structure Permitted : Prop where
  supplied : d.Supplied vars
  underLimit : d.UnderLimit vars node
  explained : d.requireReason = true → isBlank vars d.reasonVariable = false

/-- The counter of an action holds an infinite number. -/
def CountsInfinity : Prop :=
  d.tally node ≠ "" ∧ ∃ negative, vars.get? (d.tally node) = some (.float (.infinite negative))

/-- The ends that checking an action can come to. -/
inductive Checks : Except Fault Verdict → Prop
  | lacks (h : ¬ d.Supplied vars) :
      Checks (.ok (.blocked ⟨failurePort, textOr d.failureMessage d.profile.missingFieldsMessage,
        "missing_fields"⟩))
  | overflows (h : d.Supplied vars) (hinfinite : d.CountsInfinity vars node) :
      Checks (.error .overflow)
  | exhausts (h : d.Supplied vars) {a most : Int} (htally : d.tally node ≠ "")
      (hmost : d.cap = some most) (ha : attempts vars (d.tally node) = .ok a) (hle : most ≤ a) :
      Checks (.ok (.exhausted a most))
  | unexplained (h : d.Supplied vars) (hunder : d.UnderLimit vars node)
      (hreason : d.requireReason = true) (hblank : isBlank vars d.reasonVariable = true) :
      Checks (.ok (.blocked ⟨needReasonPort, d.profile.needReasonMessage, "reason_required"⟩))
  | permits (h : d.Permitted vars node) : Checks (.ok .proceed)

/-- What a success sets: the counter, raised by one, and the flag of the profile. -/
def credits (a : Int) : Fields :=
  (if d.tally node = "" then [] else [(d.tally node, .int (a + 1))]) ++
    if d.profile.resultFlag = "" then [] else [(d.profile.resultFlag, .bool true)]

end

variable {d : ActionData} {vars : Fields} {node : String}

theorem countOf_cases (v : Value) :
    (∃ a, countOf v = .ok a) ∨ ∃ negative, v = .float (.infinite negative) := by
  cases v with
  | float x =>
    cases x with
    | infinite negative => exact .inr ⟨negative, rfl⟩
    | finite negative mantissa exponent => exact .inl ⟨_, rfl⟩
    | notANumber => exact .inl ⟨_, rfl⟩
  | _ => exact .inl ⟨_, rfl⟩

theorem attempts_cases (d : ActionData) (vars : Fields) (node : String) :
    (¬ d.CountsInfinity vars node ∧ ∃ a, attempts vars (d.tally node) = .ok a) ∨
      (d.CountsInfinity vars node ∧ attempts vars (d.tally node) = .error .overflow) := by
  by_cases htally : d.tally node = ""
  · exact .inl ⟨fun h => h.1 htally, 0, by simp [attempts, htally]⟩
  have hcounts : attempts vars (d.tally node) =
      countOf ((vars.get? (d.tally node)).getD (.int 0)) := by
    simp [attempts, htally]
  rw [hcounts]
  cases hget : vars.get? (d.tally node) with
  | none => exact .inl ⟨by simp [CountsInfinity, hget], 0, rfl⟩
  | some v =>
    rcases countOf_cases v with ⟨a, ha⟩ | ⟨negative, rfl⟩
    · refine .inl ⟨?_, a, ha⟩
      rintro ⟨-, negative, hinfinite⟩
      obtain rfl := Option.some.inj (hget.symm.trans hinfinite)
      simp [countOf] at ha
    · exact .inr ⟨⟨htally, negative, hget⟩, rfl⟩

theorem Checks.permitted {verdict : Except Fault Verdict} (h : d.Checks vars node verdict)
    (hverdict : verdict = .ok .proceed) : d.Permitted vars node := by
  cases h with
  | permits h => exact h
  | _ => simp at hverdict

theorem checkReason_checks (h : d.Supplied vars) (hunder : d.UnderLimit vars node) :
    d.Checks vars node (.ok (checkReason d.profile d vars)) := by
  unfold checkReason
  split
  · rename_i hreason
    obtain ⟨hdemanded, hblank⟩ := Bool.and_eq_true_iff.mp hreason
    exact .unexplained h hunder hdemanded hblank
  · rename_i hreason
    refine .permits ⟨h, hunder, fun hdemanded => ?_⟩
    simpa [hdemanded, reasonVariable] using hreason

theorem check_checks (d : ActionData) (vars : Fields) (node : String) :
    d.Checks vars node (check d.profile d vars node) := by
  unfold check
  split
  · rename_i hmissing
    refine .lacks fun h => ?_
    obtain ⟨name, hname, hblank⟩ := List.any_eq_true.mp hmissing
    simp [h name hname] at hblank
  rename_i hpresent
  have h : d.Supplied vars := by
    simpa [Supplied, needed] using hpresent
  dsimp only
  split
  · rename_i most hmost
    split
    · rename_i hnone
      have htally : d.tally node = "" := by simpa [tally] using hnone
      exact checkReason_checks h fun hcounted => absurd htally hcounted
    · rename_i hcounted
      have htally : d.tally node ≠ "" := by simpa [tally] using hcounted
      rcases attempts_cases d vars node with ⟨-, a, ha⟩ | ⟨hinfinite, herror⟩
      · rw [show attempts vars (counter d.profile d node) = .ok a from ha]
        by_cases hle : most ≤ a
        · simp only [bind, Except.bind, pure, Except.pure, hle, if_true]
          exact .exhausts h htally hmost ha hle
        · simp only [bind, Except.bind, pure, Except.pure, hle, if_false]
          refine checkReason_checks h fun _ most' hmost' => ⟨a, ha, ?_⟩
          obtain rfl : most = most' := Option.some.inj (hmost.symm.trans hmost')
          omega
      · rw [show attempts vars (counter d.profile d node) = .error .overflow from herror]
        exact .overflows h hinfinite
  · rename_i hmost
    exact checkReason_checks h fun _ most hmost' => by simp [cap, hmost] at hmost'

theorem CountsInfinity.attempts_ne (h : d.CountsInfinity vars node) (a : Int) :
    attempts vars (d.tally node) ≠ .ok a := by
  rcases attempts_cases d vars node with ⟨hfinite, -⟩ | ⟨-, herror⟩
  · exact absurd h hfinite
  · simp [herror]

theorem CountsInfinity.not_underLimit (h : d.CountsInfinity vars node) :
    ¬ d.UnderLimit vars node := by
  intro hunder
  -- whatever is counted has a limit, and a counter that is below it can be read
  obtain ⟨most, hmost⟩ := cap_of_tally h.1
  obtain ⟨a, ha, -⟩ := hunder h.1 most hmost
  exact h.attempts_ne a ha

theorem Permitted.attempts_eq_ok (h : d.Permitted vars node) :
    ∃ a, attempts vars (d.tally node) = .ok a := by
  rcases attempts_cases d vars node with ⟨-, hread⟩ | ⟨hinfinite, -⟩
  · exact hread
  · exact absurd h.underLimit hinfinite.not_underLimit

theorem check_overflows (hsupplied : d.Supplied vars) (hinfinite : d.CountsInfinity vars node) :
    check d.profile d vars node = .error .overflow := by
  have hchecks := check_checks d vars node
  generalize check d.profile d vars node = verdict at hchecks
  cases hchecks with
  | lacks hmissing => exact absurd hsupplied hmissing
  | overflows => rfl
  | exhausts _ _ _ ha => exact absurd ha (hinfinite.attempts_ne _)
  | unexplained _ hunder => exact absurd hunder hinfinite.not_underLimit
  | permits hpermitted => exact absurd hpermitted.underLimit hinfinite.not_underLimit

theorem successPatch_eq {a : Int} (ha : attempts vars (d.tally node) = .ok a) :
    successPatch d.profile d vars node = .ok (d.credits node a) := by
  have htally : counter d.profile d node = d.tally node := rfl
  by_cases hcounted : d.tally node = ""
  · by_cases hflag : d.profile.resultFlag = "" <;>
      simp [successPatch, credits, htally, hcounted, hflag, pure, Except.pure, bind, Except.bind,
        Table.insert]
  · have hne : d.tally node ≠ d.profile.resultFlag := (resultFlag_ne_tally hcounted).symm
    by_cases hflag : d.profile.resultFlag = "" <;>
      simp [successPatch, credits, htally, hcounted, hflag, ha, hne, pure, Except.pure, bind,
        Except.bind, Table.insert]

theorem credits_of_successPatch {patch : Fields}
    (h : successPatch d.profile d vars node = .ok patch) :
    ∃ a, attempts vars (d.tally node) = .ok a ∧ patch = d.credits node a := by
  obtain ⟨a, ha⟩ : ∃ a, attempts vars (d.tally node) = .ok a := by
    by_cases htally : d.tally node = ""
    · exact ⟨0, by simp [attempts, htally]⟩
    · obtain ⟨a, ha, -⟩ := successPatch_counts h htally
      exact ⟨a, ha⟩
  exact ⟨a, ha, Except.ok.inj (h.symm.trans (successPatch_eq ha))⟩

end ActionData

/-! ## Carrying it out -/

/-- The adapter of an action answers against its contract. -/
inductive Reply.Violates : Reply → Prop
  /-- A check of its own has failed. -/
  | invalid (issues : List Schema.Issue) : Violates (.raised (.invalid issues))
  /-- What it comes back with is no outcome. -/
  | malformed {reply : Reply} (hreply : ∀ e, reply ≠ .raised e) (h : reply.outcome? = none) :
      Violates reply
  /-- The outcome names a port that no action has. -/
  | undeclared {reply : Reply} {o : ActionOutcome} (h : reply.outcome? = some o)
      (hport : o.port ∉ actionPorts) : Violates reply

/-- The outcome that the adapter of an action comes back with, if it keeps to the ports of actions.
-/
def Reply.Declares (reply : Reply) (o : ActionOutcome) : Prop :=
  reply.outcome? = some o ∧ o.port ∈ actionPorts

def ExecutionResult.Fails (r : ExecutionResult) : Prop :=
  ∃ error message, r.transition = .fail error message

/-- What becomes of an action: the requests that were made, the answer to them, and the result. -/
structure Executor.CarriesOut (x : Executor) (tenant node : String) (d : ActionData) (vars : Fields)
    (answer : Request → Reply) (requests : List Request) (r : ExecutionResult) : Prop where
  /-- The adapter is asked at most once, and told the tenant, all variables and the whole
  configuration of the node. -/
  asked_once : requests = [] ∨ requests = [.act tenant vars d.fields]
  asked_iff : requests ≠ [] ↔ x.hasActions = true ∧ d.Permitted vars node
  one_message : ∃ m, r.effects = [.message m]
  leaves : (∃ port ∈ [successPort, failurePort, needReasonPort],
    r.transition = .advanceVia (some port)) ∨ r.Fails
  fails_iff : r.Fails ↔ requests ≠ [] ∧ (answer (.act tenant vars d.fields)).Violates
  /-- An outcome leaves through its port and sets what it sets. A success sets its credits on top of
  that. The text that is said is that of the outcome, if it has one, and finds the variables set. -/
  outcome {o : ActionOutcome} (hasked : requests ≠ [])
    (ho : (answer (.act tenant vars d.fields)).Declares o) :
    r.transition = .advanceVia (some o.port) ∧
    (o.port ≠ successPort → r.patch = o.outputs.contextPatch) ∧
    (o.port = successPort → ∃ a, ActionData.attempts vars (d.tally node) = .ok a ∧
      r.patch = o.outputs.contextPatch.merge (d.credits node a)) ∧
    ∃ text, r.effects = [agentText node text (vars.merge r.patch)] ∧
      (o.outputs.message ≠ "" → text = o.outputs.message)
  patch_eq_nil (h : ∀ o, requests ≠ [] → ¬ (answer (.act tenant vars d.fields)).Declares o) :
    r.patch = []

theorem Reply.Declares.not_violates {reply : Reply} {o : ActionOutcome} (h : reply.Declares o) :
    ¬ reply.Violates := by
  obtain ⟨ho, hport⟩ := h
  intro hviolates
  cases hviolates with
  | invalid issues => simp [outcome?] at ho
  | malformed hreply hnone => simp [hnone] at ho
  | undeclared ho' hport' =>
    obtain rfl := Option.some.inj (ho.symm.trans ho')
    exact hport' hport

theorem Reply.Violates.not_declares {reply : Reply} (h : reply.Violates) (o : ActionOutcome) :
    ¬ reply.Declares o :=
  fun ho => ho.not_violates h

theorem Reply.not_violates_raised {e : Fault} (he : ∀ issues, e ≠ .invalid issues) :
    ¬ (Reply.raised e).Violates := by
  intro hviolates
  cases hviolates with
  | invalid issues => exact he issues rfl
  | malformed hreply => exact hreply e rfl
  | undeclared ho => simp [outcome?] at ho

namespace Executor

open ActionData EngineConfig

variable {x : Executor} {n : Node} {d : ActionData} {vars : Fields} {voice : Bool} {tenant : String}
  {answer : Request → Reply} {requests : List Request} {r : ExecutionResult} {node : String}
  {reply : Reply}

theorem routed_carriesOut {port text : String} {metadata : Fields}
    (hport : port ∈ [successPort, failurePort, needReasonPort])
    (hblocked : ¬ (x.hasActions = true ∧ d.Permitted vars node)) :
    x.CarriesOut tenant node d vars answer [] (route node port text vars [] metadata) where
  asked_once := .inl rfl
  asked_iff := iff_of_false (by simp) hblocked
  one_message := ⟨_, rfl⟩
  leaves := .inl ⟨port, hport, rfl⟩
  fails_iff := iff_of_false (by simp [ExecutionResult.Fails, route]) (by simp)
  outcome hasked := absurd rfl hasked
  patch_eq_nil _ := rfl

theorem routeFailure_eq {reason : String} (h : x.routeFailure node d vars reason = .ok r) :
    ∃ text metadata, r = route node failurePort text vars [] metadata := by
  obtain ⟨text, -, hr⟩ := bind_eq_ok.mp h
  exact ⟨text, _, (pure_eq_ok.mp hr).symm⟩

theorem violation_eq {port : String} (h : x.violation node port = .ok r) :
    r.Fails ∧ (∃ m, r.effects = [.message m]) ∧ r.patch = [] := by
  obtain ⟨text, -, hr⟩ := bind_eq_ok.mp h
  obtain rfl := pure_eq_ok.mp hr
  exact ⟨⟨_, _, rfl⟩, ⟨_, rfl⟩, rfl⟩

theorem eq_of_orTemplate {said fallback text : String} {setting : Value} (hsaid : said ≠ "")
    (h : orTemplate (textOr said fallback) setting = .ok text) : text = said := by
  have hthere : textOr said fallback = said := by simp [textOr, hsaid]
  rw [hthere] at h
  simp only [orTemplate, String.isEmpty_iff, hsaid, if_false] at h
  exact (Except.ok.inj h).symm

theorem concludeOutcome_eq {o : ActionOutcome} (hport : o.port ∈ actionPorts)
    (h : x.concludeOutcome node d vars o = .ok r) :
    ∃ text patch metadata, r = route node o.port text (vars.merge patch) patch metadata ∧
      (o.port ≠ successPort → patch = o.outputs.contextPatch) ∧
      (o.port = successPort → ∃ a, attempts vars (d.tally node) = .ok a ∧
        patch = o.outputs.contextPatch.merge (d.credits node a)) ∧
      (o.outputs.message ≠ "" → text = o.outputs.message) := by
  unfold concludeOutcome at h
  simp only [hport, not_true_eq_false, if_false] at h
  split at h
  · rename_i hsuccess
    obtain ⟨counted, hcounted, h⟩ := bind_eq_ok.mp h
    obtain ⟨text, htext, h⟩ := bind_eq_ok.mp h
    obtain rfl := pure_eq_ok.mp h
    refine ⟨text, _, _, rfl, fun hne => absurd hsuccess hne, fun _ => ?_,
      fun hsaid => eq_of_orTemplate hsaid htext⟩
    obtain ⟨a, ha, rfl⟩ := credits_of_successPatch hcounted
    exact ⟨a, ha, rfl⟩
  · rename_i hother
    split at h
    · obtain rfl := pure_eq_ok.mp h
      exact ⟨_, _, _, rfl, fun _ => rfl, fun hsuccess => absurd hsuccess hother,
        fun hsaid => by simp [textOr, hsaid]⟩
    · obtain ⟨text, htext, h⟩ := bind_eq_ok.mp h
      obtain rfl := pure_eq_ok.mp h
      exact ⟨text, _, _, rfl, fun _ => rfl, fun hsuccess => absurd hsuccess hother,
        fun hsaid => eq_of_orTemplate hsaid htext⟩

theorem concludeAction_cases (h : x.concludeAction node d vars reply = .ok r) :
    (∃ o, reply.Declares o ∧ x.concludeOutcome node d vars o = .ok r) ∨
      (reply.Violates ∧ ∃ port, x.violation node port = .ok r) ∨
      ∃ e, reply = .raised e ∧ (∀ issues, e ≠ .invalid issues) ∧
        x.routeFailure node d vars e.text = .ok r := by
  have houtcome : ∀ o, reply.outcome? = some o → x.concludeOutcome node d vars o = .ok r →
      (∃ o, reply.Declares o ∧ x.concludeOutcome node d vars o = .ok r) ∨
        (reply.Violates ∧ ∃ port, x.violation node port = .ok r) := by
    intro o ho h
    by_cases hport : o.port ∈ actionPorts
    · exact .inl ⟨o, ⟨ho, hport⟩, h⟩
    · refine .inr ⟨.undeclared ho hport, o.port, ?_⟩
      simpa [concludeOutcome, hport] using h
  unfold concludeAction at h
  split at h
  · exact or_assoc.mp (.inl (houtcome _ rfl h))
  · split at h
    · rename_i o ho
      exact or_assoc.mp (.inl (houtcome o (by simp [Reply.outcome?, ho]) h))
    · rename_i issues hissues
      exact .inr (.inl ⟨.malformed (by simp) (by simp [Reply.outcome?, hissues]), _, h⟩)
  · exact .inr (.inl ⟨.malformed (by simp) rfl, _, h⟩)
  · exact .inr (.inl ⟨.invalid _, _, h⟩)
  · rename_i e he
    exact .inr (.inr ⟨e, rfl, he, h⟩)

theorem asked_carriesOut (hactions : x.hasActions = true) (hpermitted : d.Permitted vars node)
    (h : x.concludeAction node d vars (answer (.act tenant vars d.fields)) = .ok r) :
    x.CarriesOut tenant node d vars answer [.act tenant vars d.fields] r := by
  have hasked : [Request.act tenant vars d.fields] ≠ [] := by simp
  rcases concludeAction_cases h with ⟨o, ho, hr⟩ | ⟨hviolates, port, hr⟩ | ⟨e, he, hother, hr⟩
  · obtain ⟨text, patch, metadata, rfl, hpatch, hcredits, htext⟩ := concludeOutcome_eq ho.2 hr
    refine ⟨.inr rfl, iff_of_true hasked ⟨hactions, hpermitted⟩, ⟨_, rfl⟩,
      .inl ⟨o.port, ho.2, rfl⟩, ?_, fun {o'} _ ho' => ?_, fun hnone => absurd ho (hnone o hasked)⟩
    · exact iff_of_false (by simp [ExecutionResult.Fails, route]) fun hv => ho.not_violates hv.2
    · obtain rfl : o = o' := Option.some.inj (ho.1.symm.trans ho'.1)
      exact ⟨rfl, hpatch, hcredits, text, rfl, htext⟩
  · obtain ⟨hfails, hsays, hpatch⟩ := violation_eq hr
    exact ⟨.inr rfl, iff_of_true hasked ⟨hactions, hpermitted⟩, hsays, .inr hfails,
      iff_of_true hfails ⟨hasked, hviolates⟩, fun _ ho => absurd ho (hviolates.not_declares _),
      fun _ => hpatch⟩
  · obtain ⟨text, metadata, rfl⟩ := routeFailure_eq hr
    refine ⟨.inr rfl, iff_of_true hasked ⟨hactions, hpermitted⟩, ⟨_, rfl⟩,
      .inl ⟨failurePort, by simp, rfl⟩, ?_, fun _ ho => ?_, fun _ => rfl⟩
    · refine iff_of_false (by simp [ExecutionResult.Fails, route]) fun hv => ?_
      rw [he] at hv
      exact Reply.not_violates_raised hother hv.2
    · rw [he] at ho
      simp [Reply.Declares, Reply.outcome?] at ho

theorem beginAction_done (h : x.beginAction node d vars = .ok (.done r)) :
    ¬ (x.hasActions = true ∧ d.Permitted vars node) ∧
      ∃ port ∈ [failurePort, needReasonPort], ∃ text metadata,
        r = route node port text vars [] metadata := by
  have hprofile : ActionProfile.ofAction d.action = d.profile := rfl
  rw [beginAction, hprofile] at h
  obtain ⟨verdict, hverdict, h⟩ := bind_eq_ok.mp h
  have hchecks : d.Checks vars node (.ok verdict) := by
    rw [← hverdict]
    exact check_checks d vars node
  cases hchecks with
  | lacks hmissing =>
    obtain rfl := pure_done_eq_ok.mp h
    exact ⟨fun hboth => hmissing hboth.2.supplied, _, by simp, _, _, rfl⟩
  | exhausts hsupplied htally hmost ha hle =>
    obtain rfl := pure_done_eq_ok.mp h
    refine ⟨fun hboth => ?_, _, by simp, _, _, rfl⟩
    obtain ⟨a, ha', hlt⟩ := hboth.2.underLimit htally _ hmost
    obtain rfl := Except.ok.inj (ha.symm.trans ha')
    omega
  | unexplained hsupplied hunder hreason hblank =>
    obtain rfl := pure_done_eq_ok.mp h
    exact ⟨fun hboth => by simp [hboth.2.explained hreason] at hblank, _, by simp, _, _, rfl⟩
  | permits hpermitted =>
    cases hactions : x.hasActions with
    | true => simp [hactions, pure, Except.pure] at h
    | false =>
      simp only [hactions, Bool.false_eq_true, if_false] at h
      obtain ⟨text, metadata, rfl⟩ := routeFailure_eq (bind_done_eq_ok.mp h)
      exact ⟨by simp, _, by simp, _, _, rfl⟩

theorem begin_businessAction (hbody : n.body = .businessAction d) :
    x.begin n vars voice = x.beginAction n.id d vars := by
  simp [Executor.begin, hbody]

theorem permitted_of_beginAction {q : Inquiry} (h : x.beginAction n.id d vars = .ok (.asks q)) :
    q = .act d vars ∧ x.hasActions = true ∧ d.Permitted vars n.id := by
  have hcheck := check_of_beginAction_asks h
  refine ⟨beginAction_asks h, ?_, (check_checks d vars n.id).permitted hcheck⟩
  cases hactions : x.hasActions with
  | true => rfl
  | false =>
    have hprofile : ActionProfile.ofAction d.action = d.profile := rfl
    rw [beginAction, hprofile, hcheck] at h
    simp only [bind, Except.bind, hactions, Bool.false_eq_true, if_false] at h
    split at h <;> simp [pure, Except.pure] at h

theorem execute_cases (h : x.execute answer tenant n vars voice = (requests, .ok r)) :
    (requests = [] ∧ x.begin n vars voice = .ok (.done r)) ∨
      ∃ q, x.begin n vars voice = .ok (.asks q) ∧ ∃ request,
        request = Setup.requestOf { graph := default, tenant := tenant } (.inquire ⟨0, 0⟩ n q) ∧
        requests = [request] ∧ x.conclude n.id q (answer request) = .ok r := by
  unfold execute at h
  split at h
  · simp at h
  · rename_i hbegin
    obtain ⟨rfl, hr⟩ := Prod.mk.inj h
    obtain rfl := Except.ok.inj hr
    exact .inl ⟨rfl, hbegin⟩
  · rename_i q hbegin
    obtain ⟨rfl, hr⟩ := Prod.mk.inj h
    exact .inr ⟨q, hbegin, _, rfl, rfl, hr⟩

/-- An action is carried out from end to end, whatever its configuration, the variables and its
adapter are. -/
theorem action_carried_out (hbody : n.body = .businessAction d)
    (h : x.execute answer tenant n vars voice = (requests, .ok r)) :
    x.CarriesOut tenant n.id d vars answer requests r := by
  rcases execute_cases h with ⟨rfl, hdone⟩ | ⟨q, hasks, request, hrequest, rfl, hr⟩
  · obtain ⟨hblocked, port, hport, text, metadata, rfl⟩ :=
      beginAction_done (begin_businessAction hbody ▸ hdone)
    exact routed_carriesOut (List.mem_cons_of_mem _ hport) hblocked
  · obtain ⟨rfl, hactions, hpermitted⟩ := permitted_of_beginAction
      (begin_businessAction hbody ▸ hasks)
    obtain rfl : request = .act tenant vars d.fields := hrequest
    exact asked_carriesOut hactions hpermitted hr

def rescheduling : ActionData := { action := "Reschedule_Appointment" }

/-- An appointment that was moved once, the count being a numeral. -/
def appointment : Fields := [("appointmentId", .str "A1"), ("rescheduleCount", .str "1")]

/-- A success as an object that spells names in the other way and sets the counter itself. -/
def moved : Request → Reply := fun _ =>
  .value (.object [("nextNodeId", .str "success"), ("outputs", .object
    [("message", .str "Moved for the {{rescheduleCount}}nd time."),
      ("contextPatch", .object [("rescheduleCount", .int 40)])])])

/-- The counter that the adapter sets is overridden by the count. -/
theorem second_rescheduling_carried_out :
    ∃ requests r, ({ hasActions := true } : Executor).execute moved "acme"
        ⟨"b", .businessAction rescheduling⟩ appointment false = (requests, .ok r) ∧
      r.patch = [("rescheduleCount", .int 2), ("appointmentRescheduled", .bool true)] ∧
      ({ hasActions := true } : Executor).CarriesOut "acme" "b" rescheduling appointment moved
        requests r := by
  have hpatch : (({ hasActions := true } : Executor).execute moved "acme"
      ⟨"b", .businessAction rescheduling⟩ appointment false).2.toOption.map
        ExecutionResult.patch =
      some [("rescheduleCount", .int 2), ("appointmentRescheduled", .bool true)] := by
    decide +kernel
  cases hexecute : ({ hasActions := true } : Executor).execute moved "acme"
      ⟨"b", .businessAction rescheduling⟩ appointment false with
  | mk requests result =>
    rw [hexecute] at hpatch
    cases result with
    | error e => simp [Except.toOption] at hpatch
    | ok r => exact ⟨requests, r, rfl, Option.some.inj hpatch, action_carried_out rfl hexecute⟩

end Executor

end ChatFlow
