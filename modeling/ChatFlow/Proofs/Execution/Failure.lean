import ChatFlow.Proofs.Execution.Route

/-!
# Nodes whose collaborators fail

A node that has asked a question copes with an error in the place of the answer
(`ExecutionResult.MakesUp`): it says one standard text and is left. `conclude_raised` shows this for
every error.
-/

namespace ChatFlow

/-- What is said in the place of an answer that does not come is a text. -/
structure EngineConfig.WordsFailures (c : EngineConfig) : Prop where
  reply : ∃ text, c.aiFailureMessage = .str text
  action : ∃ text, c.businessFailureMessage = .str text
  contract : ∃ text, c.contractViolationMessage = .str text

/-- Where a node goes when its question is answered by an error. -/
def Inquiry.wayOut (node : String) (e : Fault) : Inquiry → Transition
  | .generate _ _ => .advanceVia none
  | .act _ _ =>
    match e with
    | .invalid _ =>
      .fail (EngineError.contractViolation node Executor.malformedPort actionPorts).message ""
    | _ => .advanceVia (some failurePort)

/-- A node makes up for the failure of its question: it says one message, sets no variable and is
left. -/
structure ExecutionResult.MakesUp (r : ExecutionResult) (node : String) (e : Fault) (q : Inquiry) :
    Prop where
  effects_eq : ∃ m, r.effects = [.message m]
  patch_eq : r.patch = []
  transition_eq : r.transition = q.wayOut node e

namespace Executor

open EngineConfig

variable {x : Executor}

theorem exists_orTemplate {setting : Value} (hsetting : ∃ text, setting = .str text)
    (said : String) : ∃ text, orTemplate said setting = .ok text := by
  obtain ⟨text, rfl⟩ := hsetting
  unfold orTemplate
  split
  · exact ⟨text, rfl⟩
  · exact ⟨said, rfl⟩

theorem routeFailure_makesUp {text : String} (htext : x.config.businessFailureMessage = .str text)
    (node : String) (d : ActionData) (vars : Fields) {e : Fault}
    (he : ∀ issues, e ≠ .invalid issues) :
    ∃ r, x.routeFailure node d vars e.text = .ok r ∧ r.MakesUp node e (.act d vars) := by
  have hway : (Inquiry.act d vars).wayOut node e = .advanceVia (some failurePort) := by
    cases e with
    | invalid issues => exact absurd rfl (he issues)
    | _ => rfl
  obtain ⟨said, hsaid⟩ := exists_orTemplate ⟨text, htext⟩ d.failureMessage
  refine ⟨_, by simp only [routeFailure, hsaid]; rfl, ⟨_, rfl⟩, rfl, hway.symm⟩

theorem violation_makesUp {text : String} (htext : x.config.contractViolationMessage = .str text)
    (node : String) (d : ActionData) (vars : Fields) (issues : List Schema.Issue) :
    ∃ r, x.violation node malformedPort = .ok r ∧
      r.MakesUp node (.invalid issues) (.act d vars) :=
  ⟨_, by simp only [violation, htext]; rfl, ⟨_, rfl⟩, rfl, rfl⟩

/-- A node copes with every failure of the collaborator that it has asked. -/
theorem conclude_raised (hwords : x.config.WordsFailures) (node : String) (q : Inquiry)
    (e : Fault) : ∃ r, x.conclude node q (.raised e) = .ok r ∧ r.MakesUp node e q := by
  cases q with
  | generate d prompt =>
    obtain ⟨text, htext⟩ := hwords.reply
    exact ⟨_, by simp only [conclude, concludeReply, htext]; rfl, ⟨_, rfl⟩, rfl, rfl⟩
  | act d vars =>
    by_cases he : ∃ issues, e = .invalid issues
    · obtain ⟨issues, rfl⟩ := he
      obtain ⟨text, htext⟩ := hwords.contract
      exact violation_makesUp htext node d vars issues
    · obtain ⟨text, htext⟩ := hwords.action
      have hother : ∀ issues, e ≠ .invalid issues := fun issues heq => he ⟨issues, heq⟩
      have hroute : x.concludeAction node d vars (.raised e) =
          x.routeFailure node d vars e.text := by
        cases e with
        | invalid issues => exact absurd rfl (hother issues)
        | _ => rfl
      rw [conclude, hroute]
      exact routeFailure_makesUp htext node d vars hother

end Executor

end ChatFlow
