import ChatFlow.Proofs.Session.Stability

/-!
# The phases of an operation

An operation that holds a session has one of a few forms, whatever the context is and whatever comes
from outside: what it has left to do is never more than the effects of one node and the visit of the
next one. `Phase call agenda` lists these forms, and `Phase.stable` shows that an operation only
goes from one of them to another, even while the session is reset or another context is adopted.
-/

namespace ChatFlow.Session

open ExecutionResult

/-- What an operation does after it has left a node. -/
inductive Onward : List Instruction → Prop
  | visit (run : Run) : Onward [.visit run]
  | enter : Onward [.enter]

/-- The session waits for nothing but a message to be delivered. -/
inductive Delivers : Option Call → Prop
  | nothing : Delivers none
  | message (m : Message) : Delivers (some (.outward (.message m)))

/-- The calls after which a run looks for a reset: the pause before a node and its question. -/
inductive Call.Guarded : Call → Prop
  | sleep (seconds : Double) : Guarded (.outward (.sleep seconds))
  | inquire (run : Run) (node : Node) (q : Inquiry) : Guarded (.inquire run node q)

/-- The requests that the nodes of a graph make of the surroundings of a session. -/
def Request.FromNode : Request → Prop
  | .textInput => True
  | .voiceInput => True
  | .speech _ => True
  | _ => False

/-- The forms that an operation can have: the call that it waits for, and what is left to do. -/
inductive Phase : Option Call → List Instruction → Prop
  | over : Phase none []
  | opening {i : Instruction} (hi : i.Opens) : Phase none [i]
  | announcing {m : Message} : Phase (some (.outward (.message m))) []
  | visiting {run : Run} : Phase none [.visit run]
  | pausing {seconds : Double} {run : Run} {node : Node} :
      Phase (some (.outward (.sleep seconds))) [.execute run node]
  | executing {run : Run} {node : Node} : Phase none [.execute run node]
  | asking {run : Run} {node : Node} {q : Inquiry} : Phase (some (.inquire run node q)) []
  | concluding {run : Run} {node : Node} {q : Inquiry} {reply : Reply} :
      Phase none [.conclude run node q reply]
  | delivering {run : Run} {node : Node} {r : ExecutionResult} (hr : r.Suits node) :
      Phase none [.deliver run node r]
  | saying {run : Run} {node : Node} {m : Message} {t : Transition} (ht : t.Leaves) :
      Phase none [.send m, .leave node t, .visit run]
  | leaving {c : Option Call} (hc : Delivers c) {node : Node} {t : Transition} (ht : t.Leaves)
      {onward : List Instruction} (ho : Onward onward) : Phase c (.leave node t :: onward)
  | questioning {run : Run} {node : Node} {m : Message} (hm : m.node = node.id)
      {call : ExternalCall} {reason : SuspendReason} (hcall : call.kind = reason.request) :
      Phase none [.send m, .leave node (.suspend reason (node.offered reason)), .perform call,
        .visit run]
  | suspending {c : Option Call} (hc : Delivers c) {run : Run} {node : Node} {call : ExternalCall}
      {reason : SuspendReason} (hcall : call.kind = reason.request) :
      Phase c [.leave node (.suspend reason (node.offered reason)), .perform call, .visit run]
  | telling {run : Run} {call : ExternalCall} : Phase none [.perform call, .visit run]
  | requested {r : Request} (hr : r.FromNode) {run : Run} :
      Phase (some (.outward r)) [.visit run]
  | closing {c : Option Call} (hc : Delivers c) {onward : List Instruction} (ho : Onward onward) :
      Phase c (.close :: onward)
  | givingUp {c : Option Call} (hc : Delivers c) : Phase c [.giveUp]

namespace Phase

variable {s : Setup} {c : Context} {i : Instruction} {rest agenda : List Instruction}
  {p : Performed}

theorem of_onward (h : Onward rest) : Phase none rest := by
  cases h with
  | visit run => exact .visiting
  | enter => exact .opening trivial

theorem of_delivery {run : Run} {node : Node} {r : ExecutionResult} (hr : r.Suits node) :
    Phase none (delivery run node r) := by
  cases hr with
  | silent port metadata =>
    exact .leaving .nothing (Transition.advanceVia_leaves port) (.visit run)
  | speaks m hm t ht patch metadata =>
    cases t with
    | advance id => exact ht.elim
    | advanceVia port => exact .saying ht
    | suspend reason choices => exact ht.elim
    | terminate => exact .saying ht
    | fail error text => exact .saying ht
  | asks m hm call reason hcall => exact .questioning hm hcall

theorem fromNode_of_requests {call : ExternalCall} {r : Request} (h : s.Requests call r) :
    r.FromNode := by
  unfold Setup.Requests at h
  split at h
  · obtain ⟨-, rfl⟩ := h
    trivial
  · obtain ⟨-, rfl⟩ := h
    trivial
  · obtain ⟨-, text, rfl⟩ := h
    trivial

theorem performs (h : Phase none (i :: rest)) (hp : Performs s c i p) :
    p.outcome.Leads Phase rest := by
  cases hp with
  | starts hn =>
    cases h with
    | opening hi => exact .opening trivial
  | lacksStart hn =>
    cases h with
    | opening hi => exact .announcing
  | takes hwaits hname hport =>
    cases h with
    | opening hi => exact .leaving .nothing (Transition.advanceVia_leaves _) .enter
  | resumes hnode hawaiting =>
    cases h with
    | opening hi => exact .leaving .nothing (Transition.advanceVia_leaves _) .enter
  | enters =>
    cases h with
    | opening hi => exact .visiting
  | exceeds hcomes hreached =>
    cases h with
    | opening hi => exact hi.elim
    | visiting => exact .givingUp (.message _)
  | pauses hcomes hreached =>
    cases h with
    | opening hi => exact hi.elim
    | visiting => exact .pausing
  | hurries hcomes hreached =>
    cases h with
    | opening hi => exact hi.elim
    | visiting => exact .executing
  | executes hturn hr =>
    cases h with
    | opening hi => exact hi.elim
    | executing => exact .delivering hr
  | inquires hturn hq =>
    cases h with
    | opening hi => exact hi.elim
    | executing => exact .asking
  | concludes hturn hr =>
    cases h with
    | opening hi => exact hi.elim
    | concluding => exact .delivering hr
  | delivers =>
    cases h with
    | opening hi => exact hi.elim
    | delivering hr =>
      show Phase none (delivery _ _ _ ++ [])
      rw [List.append_nil]
      exact of_delivery (feasible_suits hr)
  | sends =>
    cases h with
    | opening hi => exact hi.elim
    | saying ht => exact .leaving (.message _) ht (.visit _)
    | questioning hm hcall => exact .suspending (.message _) hcall
  | requests hr =>
    cases h with
    | opening hi => exact hi.elim
    | telling => exact .requested (fromNode_of_requests hr)
  | skips hhost hkind =>
    cases h with
    | opening hi => exact hi.elim
    | telling => exact .visiting
  | jumps =>
    cases h with
    | opening hi => exact hi.elim
    | leaving hc ht ho => exact ht.elim
  | moves hid =>
    cases h with
    | opening hi => exact hi.elim
    | leaving hc ht ho => exact of_onward ho
  | closes hnone hcursor =>
    cases h with
    | opening hi => exact hi.elim
    | leaving hc ht ho => exact .closing (.message _) ho
  | closesLost hnone hcursor =>
    cases h with
    | opening hi => exact hi.elim
    | leaving hc ht ho => exact .closing .nothing ho
  | suspends =>
    cases h with
    | opening hi => exact hi.elim
    | leaving hc ht ho => exact ht.elim
    | suspending hc hcall => exact .telling
  | terminates =>
    cases h with
    | opening hi => exact hi.elim
    | leaving hc ht ho => exact of_onward ho
  | fails =>
    cases h with
    | opening hi => exact hi.elim
    | leaving hc ht ho => exact of_onward ho
  | finishes =>
    cases h with
    | opening hi => exact hi.elim
    | closing hc ho => exact of_onward ho
  | drops hwaits => exact .over
  | ignores hwaits => exact .over
  | halts hstay => exact .over
  | loses hturn hrunning hcursor hnode => exact .over
  | abandons hturn => exact .over
  | discards hturn => exact .over
  | givesUp => exact .over
  | lacksWords hn => trivial
  | misnames hwaits hname => trivial
  | mismatches hwaits hname hport => trivial
  | breaksOff hcomes => trivial
  | stumbles hturn => trivial
  | misleads => trivial
  | cannotSpeak hsynth hkind => trivial
  | closesMute hnone hcursor => trivial

theorem answers {r : Request} (h : Phase (some (.outward r)) agenda) : Phase none agenda := by
  cases h with
  | announcing => exact .over
  | pausing => exact .executing
  | leaving hc ht ho => exact .leaving .nothing ht ho
  | suspending hc hcall => exact .suspending .nothing hcall
  | requested hr => exact .visiting
  | closing hc ho => exact .closing .nothing ho
  | givingUp hc => exact .givingUp .nothing

theorem concludes {run : Run} {node : Node} {q : Inquiry} (reply : Reply)
    (h : Phase (some (.inquire run node q)) agenda) :
    Phase none (.conclude run node q reply :: agenda) := by
  cases h with
  | asking => exact .concluding
  | leaving hc ht ho => nomatch hc
  | suspending hc hcall => nomatch hc
  | closing hc ho => nomatch hc
  | givingUp hc => nomatch hc

theorem stable (s : Setup) (allows : State → Move → Prop) :
    Stable s allows (fun _ call agenda => Phase call agenda) (fun _ => True) where
  opens _ hi := .opening hi
  ends _ := trivial
  performs h hp := h.performs hp
  fails _ _ _ _ _ := trivial
  answers h := h.answers
  raises _ _ _ := trivial
  concludes reply h := h.concludes reply
  resets _ _ h := h
  resetsFree _ _ _ := trivial
  restores _ _ h := h
  restoresFree _ _ _ := trivial

end Phase

theorem Course.phase {s : Setup} {allows : State → Move → Prop} {log : List Happening} {st : State}
    (course : Course s allows {} log st) {h : Holder} (hholder : st.holder = some h) :
    Phase h.call h.agenda :=
  ((Phase.stable s allows).course course (State.keeps_new trivial)).held h hholder

end ChatFlow.Session
