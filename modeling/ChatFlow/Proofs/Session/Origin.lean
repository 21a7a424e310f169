import ChatFlow.Proofs.Execution.Route
import ChatFlow.Proofs.Session.Phase

/-!
# Where the work of an operation comes from

An operation does not invent what it does: a result that it carries out is what the node under it
has come to (`Setup.Yields`), a question that it waits for is the question of that node, and it
leaves a node only as the result of the node, or an answer to it, tells it to. `Setup.Derives` says
so, and `derives_stable` that this is never lost, whatever comes from outside.
-/

namespace ChatFlow

/-- The questions that a node can ask. -/
inductive Node.Asks (n : Node) : Inquiry → Prop
  | generates {d : AIResponseData} {prompt : String} (hbody : n.body = .aiResponse d) :
      Asks n (.generate d prompt)
  | acts {d : ActionData} {vars : Fields} (hbody : n.body = .businessAction d) :
      Asks n (.act d vars)

theorem Executor.asks_of_begin {x : Executor} {n : Node} {vars : Fields} {voice : Bool}
    {q : Inquiry} (h : x.begin n vars voice = .ok (.asks q)) : n.Asks q := by
  rcases begin_asks h with ⟨d, prompt, hbody, rfl⟩ | ⟨d, hbody, rfl⟩
  · exact .generates hbody
  · exact .acts hbody

namespace Session

open ExecutionResult EngineConfig

/-- What the way from a node is decided by. -/
inductive Decision
  /-- The node alone, under the variables of that time. -/
  | alone (vars : Fields)
  /-- The answer to the question of the node. -/
  | told (q : Inquiry) (reply : Reply)
  /-- A reply of the user. -/
  | replied (reply : Value)
  /-- The end of a playback. -/
  | played
  deriving DecidableEq

variable (s : Setup)

/-- The results that a node can come to in a session. -/
inductive Setup.Yields (n : Node) : Decision → ExecutionResult → Prop
  | alone {vars : Fields} {r : ExecutionResult}
      (h : s.executor.Results n vars s.voiceMode r) : Yields n (.alone vars) (s.feasible r)
  | told {q : Inquiry} {reply : Reply} {r : ExecutionResult} (hq : n.Asks q)
      (h : s.executor.Concludes n q reply r) : Yields n (.told q reply) (s.feasible r)

/-- What an operation does next comes from the node that it is at. -/
def Setup.Stems : List Instruction → Prop
  | .conclude _ n q _ :: _ => n.Asks q
  | .deliver _ n r :: _ => ∃ d, s.Yields n d (s.feasible r)
  | .send m :: .leave n t :: _ => ∃ d r, s.Yields n d r ∧ r.transition = t ∧ r.messages = [m]
  | .leave n t :: _ =>
    (∃ port, t = .advanceVia port) ∨ ∃ d r, s.Yields n d r ∧ r.transition = t
  | _ => True

/-- What an operation does, and the question that it waits for, come from the node that it is at. -/
structure Setup.Derives (call : Option Call) (agenda : List Instruction) : Prop where
  phase : Phase call agenda
  stems : s.Stems agenda
  asks : ∀ run n q, call = some (.inquire run n q) → n.Asks q

/-- The session waits at a node for what the node waits for. -/
structure Setup.WaitsAt (c : Context) (n : Node) : Prop where
  suspended : c.status = .suspended
  cursor_eq : c.cursor = some n.id
  node_eq : s.graph.node? n.id = some n
  awaiting_eq : c.awaiting = n.body.waitsFor s.voiceMode

variable {s} {n : Node} {d : Decision} {r : ExecutionResult} {c : Context} {i : Instruction}
  {rest agenda : List Instruction} {p : Performed}

/-! ## Results -/

theorem feasible_cases (s : Setup) (r : ExecutionResult) :
    (s.feasible r = r ∧ (r.awaitsPlayback = true → s.hasSynthesizer = true)) ∨
      ((s.feasible r).transition = .advanceVia none ∧ r.awaitsPlayback = true ∧
        s.hasSynthesizer = false) := by
  unfold Setup.feasible
  cases hawaits : r.awaitsPlayback <;> cases hsynth : s.hasSynthesizer <;>
    simp [withoutCalls]

theorem feasible_of_concludes {q : Inquiry} {reply : Reply}
    (h : s.executor.Concludes n q reply r) : s.feasible r = r := by
  simp [Setup.feasible, h.not_awaits]

namespace Setup.Yields

theorem waits {reason : SuspendReason} {choices : List ChoiceOption} (h : s.Yields n d r)
    (ht : r.transition = .suspend reason choices) :
    n.body.waitsFor s.voiceMode = some reason ∧
      (reason = .speechPlayback → s.hasSynthesizer = true) := by
  cases h with
  | alone h =>
    rename_i vars r
    rcases feasible_cases s r with ⟨heq, hsynth⟩ | ⟨honward, -⟩
    · rw [heq] at ht
      refine ⟨?_, fun hreason => hsynth (by simp [awaitsPlayback, ht, hreason])⟩
      cases h with
      | waits hbody ht' =>
        obtain ⟨rfl, -⟩ := Transition.suspend.inj (ht'.symm.trans ht)
        exact hbody
      | _ => simp_all
    · simp [honward] at ht
  | told hq h =>
    rw [feasible_of_concludes h] at ht
    cases h <;> simp_all

theorem ends (h : s.Yields n d r) (ht : r.transition = .terminate) :
    ∃ e text vars, n.body = .ending e ∧ d = .alone vars ∧
      Executor.orTemplate e.message s.config.endMessage = .ok text ∧
      r.messages = [{ content := Template.interpolate text vars, node := n.id }] ∧
      r.patch = [] := by
  cases h with
  | alone h =>
    rename_i vars r
    rcases feasible_cases s r with ⟨heq, -⟩ | ⟨honward, -⟩
    · rw [heq] at ht ⊢
      cases h with
      | ends hbody htext => exact ⟨_, _, vars, hbody, rfl, htext, rfl, rfl⟩
      | _ => simp_all
    · simp [honward] at ht
  | told hq h =>
    rw [feasible_of_concludes h] at ht
    cases h <;> simp_all

theorem violates {error message : String} (h : s.Yields n d r)
    (ht : r.transition = .fail error message) :
    ∃ a vars reply port text, n.body = .businessAction a ∧ d = .told (.act a vars) reply ∧
      (∀ o, reply.outcome? = some o → o.port ∉ actionPorts) ∧
      error = (EngineError.contractViolation n.id port actionPorts).message ∧
      contentOf s.config.contractViolationMessage = .ok text ∧
      r.messages = [{ content := text, sender := .system, node := n.id }] := by
  cases h with
  | alone h =>
    rename_i vars r
    rcases feasible_cases s r with ⟨heq, -⟩ | ⟨honward, -⟩
    · rw [heq] at ht
      cases h <;> simp_all
    · simp [honward] at ht
  | told hq h =>
    rw [feasible_of_concludes h] at ht ⊢
    cases h with
    | violates ho htext =>
      cases hq with
      | acts hbody =>
        exact ⟨_, _, _, _, _, hbody, rfl, ho, (Transition.fail.inj ht).1.symm, htext, rfl⟩
    | _ => simp_all

end Setup.Yields

/-! ## Along every course -/

theorem stems_of_onward (h : Onward agenda) : s.Stems agenda := by
  cases h <;> trivial

theorem stems_delivery {run : Run} (hr : r.Suits n) (h : s.Yields n d r) :
    s.Stems (delivery run n r) := by
  cases hr with
  | silent port metadata => exact .inl ⟨port, rfl⟩
  | speaks m hm t ht patch metadata =>
    cases t with
    | suspend reason choices => exact ht.elim
    | _ => exact ⟨d, _, h, rfl, rfl⟩
  | asks m hm call reason hcall => exact ⟨d, _, h, rfl, rfl⟩

theorem Setup.Derives.stems_after (h : s.Derives none (i :: rest)) (hp : Performs s c i p) :
    p.outcome.Leads (fun _ agenda => s.Stems agenda) rest := by
  have hphase := h.phase
  have hstems := h.stems
  cases hp with
  | executes hturn hr hbegin => exact ⟨_, .alone (Executor.begin_results hbegin)⟩
  | concludes hturn hr hconclude =>
    exact ⟨_, .told hstems (Executor.conclude_results hconclude)⟩
  | delivers =>
    cases hphase with
    | opening hi => exact hi.elim
    | delivering hr =>
      obtain ⟨d, hd⟩ : ∃ d, s.Yields _ d (s.feasible _) := hstems
      show s.Stems (delivery _ _ _ ++ [])
      rw [List.append_nil]
      exact stems_delivery (feasible_suits hr) hd
  | sends =>
    cases hphase with
    | opening hi => exact hi.elim
    | saying ht =>
      obtain ⟨d, r, hd, ht, -⟩ := hstems
      exact .inr ⟨d, r, hd, ht⟩
    | questioning hm hcall =>
      obtain ⟨d, r, hd, ht, -⟩ := hstems
      exact .inr ⟨d, r, hd, ht⟩
  | takes => exact .inl ⟨_, rfl⟩
  | resumes => exact .inl ⟨_, rfl⟩
  | lacksStart =>
    cases hphase with
    | opening hi => trivial
  | inquires =>
    cases hphase with
    | opening hi => exact hi.elim
    | executing => trivial
  | requests | skips =>
    cases hphase with
    | opening hi => exact hi.elim
    | telling => trivial
  | moves | terminates | fails | jumps =>
    cases hphase with
    | opening hi => exact hi.elim
    | leaving hc ht ho => exact stems_of_onward ho
  | suspends =>
    cases hphase with
    | opening hi => exact hi.elim
    | leaving hc ht ho => exact ht.elim
    | suspending hc hcall => trivial
  | finishes =>
    cases hphase with
    | opening hi => exact hi.elim
    | closing hc ho => exact stems_of_onward ho
  | _ => trivial

theorem Performs.asks_after (hp : Performs s c i p) (rest : List Instruction) :
    p.outcome.Leads (fun call _ => ∀ run n q, call = some (.inquire run n q) → n.Asks q) rest := by
  cases hp with
  | inquires hturn hq =>
    rintro run n q hcall
    obtain ⟨rfl, rfl, rfl⟩ := Call.inquire.inj (Option.some.inj hcall)
    exact Executor.asks_of_begin hq
  | lacksWords | misnames | mismatches | breaksOff | stumbles | misleads | cannotSpeak
  | closesMute => trivial
  | _ => exact fun _ _ _ hcall => by simp [Setup.sending] at hcall

theorem derives_stable (s : Setup) (allows : State → Move → Prop) :
    Stable s allows (fun _ call agenda => s.Derives call agenda) (fun _ => True) where
  opens {m i} _ hi := by
    refine ⟨.opening hi, ?_, by simp⟩
    cases i <;> trivial
  ends _ := trivial
  performs {m i rest p} h hp := by
    have hphase := h.phase.performs hp
    have hstems := h.stems_after hp
    have hasks := hp.asks_after rest
    exact ((hphase.and hstems).and hasks).mono fun call agenda hall =>
      ⟨hall.1.1, hall.1.2, hall.2⟩
  fails _ _ _ _ _ := trivial
  answers h := ⟨h.phase.answers, h.stems, by simp⟩
  raises _ _ _ := trivial
  concludes reply h := ⟨h.phase.concludes reply, h.asks _ _ _ rfl, by simp⟩
  resets _ _ h := h
  resetsFree _ _ _ := trivial
  restores _ _ h := h
  restoresFree _ _ _ := trivial

theorem Course.derives {allows : State → Move → Prop} {log : List Happening} {st : State}
    (course : Course s allows {} log st) {h : Holder} (hholder : st.holder = some h) :
    s.Derives h.call h.agenda :=
  ((derives_stable s allows).course course (State.keeps_new trivial)).held h hholder

end Session

end ChatFlow
