import ChatFlow.Proofs.Execution.Route

/-!
# Counting the successes of actions

Checking an action and counting it are done by different functions. That they agree on the counter
and on its value is what this module shows: the adapter is only asked while the counter is under the
limit (`attempts_lt_of_asks`), and a success, and nothing else that leaves through its port, raises
the counter by one, whatever the outcome sets itself (`counts_of_conclude`).
-/

namespace ChatFlow

/-! ## The counter of a node and its limit -/

namespace ActionData

variable (d : ActionData)

def profile : ActionProfile := ActionProfile.ofAction d.action

/-- The variable that counts the successes of an action at a node; empty if they are not counted. -/
def tally (node : String) : String := counter d.profile d node

/-- How many successes there may be, if there is a limit. -/
def cap : Option Int := limit d.profile d

end ActionData

/-- The variables that an outcome sets are a dictionary: each of them is set once. -/
def Reply.Proper (reply : Reply) : Prop :=
  ∀ o, reply.outcome? = some o → (Table.keys o.outputs.contextPatch).Nodup

theorem ActionProfile.ofAction_cases (action : String) :
    ofAction action ∈ known ∨ ofAction action = generic := by
  unfold ofAction
  cases h : ofName? (normalize action) with
  | some p => exact .inl (List.mem_of_find?_eq_some h)
  | none => exact .inr rfl

namespace ActionData

variable {d : ActionData} {vars : Fields} {node : String}

theorem cap_of_tally (h : d.tally node ≠ "") : ∃ most, d.cap = some most := by
  unfold cap limit
  cases hmost : d.maxAttempts with
  | some most => exact ⟨most, rfl⟩
  | none =>
    have hcounted : d.profile.counterVariable ≠ "" := by
      intro hnone
      simp [tally, counter, hnone, hmost] at h
    have hknown : ∀ p ∈ ActionProfile.known, p.counterVariable ≠ "" →
        ∃ most, p.defaultMaxAttempts = some most := by
      simp [ActionProfile.known]
    rcases ActionProfile.ofAction_cases d.action with hmem | hgeneric
    · exact hknown _ hmem hcounted
    · simp [profile, hgeneric, ActionProfile.generic] at hcounted

theorem resultFlag_ne_tally (h : d.tally node ≠ "") : d.profile.resultFlag ≠ d.tally node := by
  have hflags : ∀ p ∈ ActionProfile.known, p.resultFlag ≠ p.counterVariable ∧
      p.resultFlag.toList.getLast? ≠ some 's' := by decide
  have hprofile : (d.profile.counterVariable ≠ "" →
      d.profile.resultFlag ≠ d.profile.counterVariable) ∧
      d.profile.resultFlag.toList.getLast? ≠ some 's' := by
    rcases ActionProfile.ofAction_cases d.action with hmem | hgeneric
    · obtain ⟨hcounter, hlast⟩ := hflags _ hmem
      exact ⟨fun _ => hcounter, hlast⟩
    · simp [profile, hgeneric, ActionProfile.generic]
  intro heq
  unfold tally counter at h heq
  split at h
  · rename_i hcounted
    rw [if_pos hcounted] at heq
    exact hprofile.1 (by simpa using hcounted) heq
  · rename_i hcounted
    rw [if_neg hcounted] at heq
    split at h
    · rename_i hown
      rw [if_pos hown] at heq
      -- a counter of a node of its own ends like the word for attempts, and no flag does
      refine hprofile.2 ?_
      rw [heq, String.toList_append, List.getLast?_append]
      rfl
    · exact h rfl

theorem attempts_lt_of_check (h : check d.profile d vars node = .ok .proceed)
    (htally : d.tally node ≠ "") {most : Int} (hmost : d.cap = some most) :
    ∃ n, attempts vars (d.tally node) = .ok n ∧ n < most := by
  have hlimit : limit d.profile d = some most := hmost
  have hcounted : (counter d.profile d node).isEmpty = false := by
    simpa [tally] using htally
  unfold check at h
  split at h
  · simp at h
  · simp only [hlimit, hcounted, Bool.false_eq_true, if_false] at h
    obtain ⟨n, hn, h⟩ := bind_eq_ok.mp h
    refine ⟨n, hn, ?_⟩
    by_cases hfull : most ≤ n
    · simp [hfull, pure, Except.pure] at h
    · omega

theorem checkReason_port {profile : ActionProfile} {b : Blocked}
    (h : checkReason profile d vars = .blocked b) : b.port = needReasonPort := by
  unfold checkReason at h
  split at h
  · obtain rfl := Verdict.blocked.inj h
    rfl
  · nomatch h

theorem port_ne_success {profile : ActionProfile} {b : Blocked}
    (h : check profile d vars node = .ok (.blocked b)) : b.port ≠ successPort := by
  have hreason : checkReason profile d vars = .blocked b → b.port ≠ successPort := by
    intro hb
    rw [checkReason_port hb]
    decide
  unfold check at h
  split at h
  · obtain rfl := Verdict.blocked.inj (Except.ok.inj h)
    simp only [ne_eq]
    decide
  · dsimp only at h
    split at h
    · split at h
      · exact hreason (Except.ok.inj h)
      · obtain ⟨n, -, h⟩ := bind_eq_ok.mp h
        split at h
        · simp [pure, Except.pure] at h
        · exact hreason (pure_eq_ok.mp h)
    · exact hreason (Except.ok.inj h)

theorem successPatch_counts {patch : Fields} (h : successPatch d.profile d vars node = .ok patch)
    (htally : d.tally node ≠ "") :
    ∃ n, attempts vars (d.tally node) = .ok n ∧ (Table.keys patch).Nodup ∧
      patch.get? (d.tally node) = some (.int (n + 1)) := by
  have hcounted : (counter d.profile d node).isEmpty = false := by
    simpa [tally] using htally
  unfold successPatch at h
  simp only [hcounted, Bool.false_eq_true, if_false] at h
  obtain ⟨n, hn, h⟩ := bind_eq_ok.mp h
  refine ⟨n, hn, ?_⟩
  have hkeys : (Table.keys [(d.tally node, Value.int (n + 1))]).Nodup := by simp [Table.keys]
  split at h
  · obtain rfl := pure_eq_ok.mp h
    exact ⟨hkeys, by simp [tally, Table.get?]⟩
  · obtain rfl := pure_eq_ok.mp h
    refine ⟨Table.nodup_keys_insert hkeys _ _, ?_⟩
    rw [Table.get?_insert, if_neg (resultFlag_ne_tally htally)]
    simp [tally, Table.get?]

end ActionData

/-! ## Asking the adapter, and concluding from its answer -/

namespace Executor

open ActionData

variable {x : Executor} {n : Node} {vars : Fields} {voice : Bool} {r : ExecutionResult}
  {d : ActionData}

theorem check_of_beginAction_asks {node : String} {q : Inquiry}
    (h : x.beginAction node d vars = .ok (.asks q)) :
    check d.profile d vars node = .ok .proceed := by
  obtain ⟨verdict, hverdict, hr⟩ := bind_eq_ok.mp h
  cases verdict with
  | proceed => exact hverdict
  | blocked b => exact absurd hr pure_done_ne_asks
  | exhausted attempts limit => exact absurd hr pure_done_ne_asks

/-- An adapter is only asked while the counter of the node is under its limit. -/
theorem attempts_lt_of_asks {vars' : Fields} (h : x.begin n vars voice = .ok (.asks (.act d vars'))) :
    n.body = .businessAction d ∧ vars' = vars ∧
      (d.tally n.id ≠ "" → ∀ most, d.cap = some most →
        ∃ a, attempts vars (d.tally n.id) = .ok a ∧ a < most) := by
  rcases begin_asks h with ⟨d', prompt, -, heq⟩ | ⟨d', hbody, heq⟩
  · nomatch heq
  · obtain ⟨rfl, rfl⟩ := Inquiry.act.inj heq
    refine ⟨hbody, rfl, fun htally most hmost => attempts_lt_of_check ?_ htally hmost⟩
    simp only [Executor.begin, hbody] at h
    exact check_of_beginAction_asks h

theorem Refuses.port_ne {port : String} (h : x.Refuses n.id d vars port) : port ≠ successPort := by
  cases h with
  | exhausted => decide
  | blocked hcheck => exact port_ne_success hcheck
  | unavailable => decide

theorem ne_success_of_begin (hbody : n.body = .businessAction d)
    (h : x.begin n vars voice = .ok (.done r)) :
    r.transition ≠ .advanceVia (some successPort) := by
  intro hsuccess
  cases begin_results h with
  | passes hpasses => simp [hbody, Body.Passes] at hpasses
  | decides hcondition => simp [hbody] at hcondition
  | refuses hbody' hport ht =>
    obtain rfl := Body.businessAction.inj (hbody.symm.trans hbody')
    have heq := Option.some.inj (Transition.advanceVia.inj (ht.symm.trans hsuccess))
    exact hport.port_ne heq
  | waits hwaits => simp [hbody, Body.waitsFor] at hwaits
  | ends hending => simp [hbody] at hending

theorem violation_ne_success {node port : String} (h : x.violation node port = .ok r) :
    r.transition ≠ .advanceVia (some successPort) := by
  obtain ⟨text, -, hr⟩ := bind_eq_ok.mp h
  obtain rfl := pure_eq_ok.mp hr
  simp

theorem patch_of_concludeOutcome {node : String} {o : ActionOutcome}
    (h : x.concludeOutcome node d vars o = .ok r)
    (hsuccess : r.transition = .advanceVia (some successPort)) :
    ∃ counted, successPatch d.profile d vars node = .ok counted ∧
      r.patch = o.outputs.contextPatch.merge counted := by
  unfold concludeOutcome at h
  by_cases hport : o.port ∈ actionPorts
  · simp only [hport, not_true_eq_false, if_false] at h
    split at h
    · obtain ⟨counted, hcounted, h⟩ := bind_eq_ok.mp h
      obtain ⟨text, -, h⟩ := bind_eq_ok.mp h
      obtain rfl := pure_eq_ok.mp h
      exact ⟨counted, hcounted, rfl⟩
    · rename_i hother
      have hne : (Transition.advanceVia (some o.port)) ≠ .advanceVia (some successPort) := by
        simpa using hother
      split at h
      · obtain rfl := pure_eq_ok.mp h
        exact absurd hsuccess hne
      · obtain ⟨text, -, h⟩ := bind_eq_ok.mp h
        obtain rfl := pure_eq_ok.mp h
        exact absurd hsuccess hne
  · simp only [hport, not_false_eq_true, if_true] at h
    exact absurd hsuccess (violation_ne_success h)

theorem outcome_of_success {node : String} {reply : Reply}
    (h : x.concludeAction node d vars reply = .ok r)
    (hsuccess : r.transition = .advanceVia (some successPort)) :
    ∃ o, reply.outcome? = some o ∧ x.concludeOutcome node d vars o = .ok r := by
  unfold concludeAction at h
  split at h
  · exact ⟨_, rfl, h⟩
  · split at h
    · rename_i o ho
      exact ⟨o, by simp [Reply.outcome?, ho], h⟩
    · exact absurd hsuccess (violation_ne_success h)
  · exact absurd hsuccess (violation_ne_success h)
  · exact absurd hsuccess (violation_ne_success h)
  · obtain ⟨text, -, hr⟩ := bind_eq_ok.mp h
    obtain rfl := pure_eq_ok.mp hr
    have hport : failurePort = successPort :=
      Option.some.inj (Transition.advanceVia.inj hsuccess)
    exact absurd hport (by decide)

/-- A success raises the counter of its node by one, even if its outcome sets the counter too. -/
theorem counts_of_conclude {node : String} {reply : Reply} (hproper : reply.Proper)
    (h : x.conclude node (.act d vars) reply = .ok r)
    (hsuccess : r.transition = .advanceVia (some successPort)) (htally : d.tally node ≠ "") :
    ∃ n, attempts vars (d.tally node) = .ok n ∧
      ∀ vars' : Fields, attempts (vars'.merge r.patch) (d.tally node) = .ok (n + 1) := by
  obtain ⟨o, ho, houtcome⟩ := outcome_of_success h hsuccess
  obtain ⟨counted, hcounted, hpatch⟩ := patch_of_concludeOutcome houtcome hsuccess
  obtain ⟨n, hn, hkeys, hset⟩ := successPatch_counts hcounted htally
  refine ⟨n, hn, fun vars' => ?_⟩
  have hnodup : (Table.keys r.patch).Nodup :=
    hpatch ▸ Table.nodup_keys_merge (hproper o ho) counted
  have hget : (vars'.merge r.patch).get? (d.tally node) = some (.int (n + 1)) := by
    rw [Table.get?_merge hnodup, hpatch, Table.get?_merge hkeys, hset]
    rfl
  have hcounts : (d.tally node).isEmpty = false := by simpa using htally
  simp [attempts, hcounts, hget, countOf]

end Executor

end ChatFlow
