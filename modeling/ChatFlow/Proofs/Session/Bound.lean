import ChatFlow.Proofs.Session.Abandonment
import ChatFlow.Proofs.Session.Move
import ChatFlow.Proofs.Session.Request

/-!
# How much an operation can do

Loops are authored on purpose, and nothing but the limit of steps ends them. `Weights` put a number
on everything that an operation has left to do; `Weights.Pays` says that each instruction pays for
what it costs and for what comes of it. So an operation costs no more than it weighed at first, in
whatever order things come from outside (`Weights.Pays.spent_le`).

With two kinds of weights this bounds the nodes that an operation executes (`execution_pays`), and
the instructions and answers that it takes to its end (`effort_pays`).
-/

namespace ChatFlow.Session

open EngineConfig

theorem reached_int (most : Int) (steps : Nat) :
    reached (.int most) steps = .ok (decide (most ≤ steps)) := by
  show Except.ok ((Number.int most).reachedBy steps) = _
  unfold Number.reachedBy Number.compare?
  by_cases h : (steps : Int) < most
  · simp [compare, compareOfLessAndEq, h, Int.not_le.mpr h]
  · have hle : most ≤ steps := by omega
    by_cases heq : (steps : Int) = most <;> simp [compare, compareOfLessAndEq, heq, h, hle]

/-- What instructions and calls that are to come weigh. -/
structure Weights where
  instruction : Instruction → Nat
  call : Call → Nat

namespace Weights

variable (w : Weights)

def agenda : List Instruction → Nat
  | [] => 0
  | i :: rest => w.instruction i + agenda rest

def outcome : Outcome → Nat
  | .proceed todo => w.agenda todo
  | .call c todo => w.call c + w.agenda todo
  | .stop => 0
  | .fail _ => 0

/-- What the operation that holds a session weighs. -/
def left (st : State) : Nat :=
  match st.holder with
  | none => 0
  | some h => (h.call.map w.call).getD 0 + w.agenda h.agenda

/-- Every instruction and every call weighs what it costs, and what comes of it. -/
structure Pays (s : Setup) (cost : Performed → Nat) (fee : Nat) : Prop where
  performs {c : Context} {i : Instruction} {p : Performed} :
    Performs s c i p → cost p + w.outcome p.outcome ≤ w.instruction i
  answers (r : Request) : fee ≤ w.call (.outward r)
  concludes (run : Run) (n : Node) (q : Inquiry) (reply : Reply) :
    fee + w.instruction (.conclude run n q reply) ≤ w.call (.inquire run n q)

end Weights

/-- The operation holds the session. -/
def Holds (op : Nat) (st : State) (_ : Move) : Prop :=
  st.holder.map Holder.op = some op

instance (op : Nat) (st : State) (m : Move) : Decidable (Holds op st m) :=
  inferInstanceAs (Decidable (st.holder.map Holder.op = some op))

namespace State

/-- What a move costs the operation that holds the session: the cost of the instruction that it
performs, or a fee for the answer that it gets. -/
def spends (s : Setup) (cost : Performed → Nat) (fee : Nat) (st : State) : Move → Nat
  | .tick =>
    match st.holder with
    | some ⟨_, i :: _, none⟩ => cost (s.perform st.memory.context i)
    | _ => 0
  | .answer k _ =>
    match st.holder with
    | some ⟨op, _, some _⟩ => if k = op then fee else 0
    | _ => 0
  | _ => 0

/-- What moves cost. -/
def spent (s : Setup) (cost : Performed → Nat) (fee : Nat) (st : State) : List Move → Nat
  | [] => 0
  | m :: rest => st.spends s cost fee m + (st.step s m).1.spent s cost fee rest

/-- How many instructions an operation performs with the moves, and how many answers it gets. -/
def efforts (s : Setup) (st : State) (ms : List Move) : Nat :=
  st.spent s (fun _ => 1) 1 ms

end State

/-- How many nodes are executed. -/
def executedIn (log : List Happening) : Nat :=
  (log.filterMap Happening.executed?).length

@[simp] theorem executedIn_nil : executedIn [] = 0 := rfl

@[simp] theorem executedIn_append (log later : List Happening) :
    executedIn (log ++ later) = executedIn log + executedIn later := by
  simp [executedIn]

@[simp] theorem executedIn_finished (op : Nat) (x : Except Fault Context) :
    executedIn [.finished op x] = 0 := rfl

theorem executedIn_eq_zero {log : List Happening} (h : ∀ x ∈ log, x.executed? = none) :
    executedIn log = 0 := by
  simp [executedIn, List.filterMap_eq_nil_iff.mpr h]

variable {s : Setup} {allows : State → Move → Prop} {st st' : State} {m : Move} {op : Nat}
  {log more : List Happening} {c : Context} {i : Instruction} {rest : List Instruction}
  {p : Performed} {w : Weights} {cost : Performed → Nat} {fee : Nat}

@[simp] theorem executedIn_carryOut (s : Setup) (st : State) (op : Nat) (rest : List Instruction)
    (p : Performed) : executedIn (st.carryOut s op rest p).2 = p.executed.toList.length := by
  obtain ⟨last, hlog, hlast⟩ := State.carryOut_log s st op rest p
  have hnone : executedIn last = 0 := by
    rcases hlast with rfl | ⟨call, todo, -, rfl⟩ | ⟨e, -, rfl⟩ <;> rfl
  have hevents : executedIn (st.memory.applyAll p.events).2 = 0 := by
    refine executedIn_eq_zero fun x hx => ?_
    obtain ⟨e, c, rfl⟩ := Memory.changed_of_mem_applyAll hx
    rfl
  rw [hlog, Memory.log, executedIn_append, executedIn_append, hnone, hevents]
  cases p.executed <;> rfl

/-! ## Spending -/

namespace Weights

@[simp] theorem agenda_nil (w : Weights) : w.agenda [] = 0 := rfl

@[simp] theorem agenda_cons (w : Weights) (i : Instruction) (rest : List Instruction) :
    w.agenda (i :: rest) = w.instruction i + w.agenda rest := rfl

@[simp] theorem agenda_append (w : Weights) (todo rest : List Instruction) :
    w.agenda (todo ++ rest) = w.agenda todo + w.agenda rest := by
  induction todo with
  | nil => simp
  | cons i todo ih => simp [ih, Nat.add_assoc]

theorem left_carryOut (w : Weights) (s : Setup) (st : State) (op : Nat) (rest : List Instruction)
    (p : Performed) : w.left (st.carryOut s op rest p).1 ≤ w.outcome p.outcome + w.agenda rest := by
  unfold State.carryOut left outcome
  cases p.outcome with
  | proceed todo | call call todo => simp [Nat.add_assoc]
  | stop | fail e => simp

theorem left_eq {h : Holder} (hholder : st.holder = some h) :
    w.left st = (h.call.map w.call).getD 0 + w.agenda h.agenda := by
  simp [left, hholder]

theorem Pays.step_acting (hw : w.Pays s cost fee) (course : Course s allows {} log st)
    {agenda : List Instruction} (hholder : st.holder = some ⟨op, agenda, none⟩) :
    w.left (st.step s m).1 + st.spends s cost fee m ≤ w.left st := by
  by_cases htick : m = .tick
  · subst htick
    cases agenda with
    | nil => simp [State.step, State.tick_over hholder, left, State.spends, hholder]
    | cons i rest =>
      have hcarry := w.left_carryOut s st op rest (s.perform st.memory.context i)
      have hpays := hw.performs (perform_performs (s := s) (c := st.memory.context) i)
      simp only [State.step, State.tick_eq_carryOut hholder rfl, left_eq hholder, State.spends,
        hholder, Option.map_none, Option.getD_none, agenda_cons]
      omega
  · have hsame : w.left (st.step s m).1 = w.left st := by
      have hmakes := course.makes m
      generalize (st.step s m).1 = st' at hmakes ⊢
      generalize (st.step s m).2 = more at hmakes
      cases hmakes with
      | passes hmemory hholder' => simp [left, hholder']
      | opens hnone => simp [hholder] at hnone
      | hears hbefore | learns hbefore | breaks hbefore => simp [hholder] at hbefore
      | ends | acts => exact absurd rfl htick
      | resets hmemory hholder' | restores hmemory hholder' => simp [left, hholder']
    have hfree : st.spends s cost fee m = 0 := by
      cases m <;> simp_all [State.spends]
    omega

theorem Pays.step_answer (hw : w.Pays s cost fee) (hnumbered : st.Numbered)
    {agenda : List Instruction} {call : Call} (hholder : st.holder = some ⟨op, agenda, some call⟩)
    (reply : Reply) :
    w.left (st.step s (.answer op reply)).1 + fee ≤ w.left st := by
  rw [left_eq hholder]
  cases call with
  | inquire run n q =>
    have hpays := hw.concludes run n q reply
    simp only [State.step, State.answer_inquire hnumbered hholder, left, Option.map_none,
      Option.getD_none, agenda_cons, Option.map_some, Option.getD_some]
    omega
  | outward r =>
    have hpays := hw.answers r
    by_cases hraises : Reply.Raises reply
    · obtain ⟨e, rfl⟩ : ∃ e, reply = .raised e := by cases reply <;> simp_all [Reply.Raises]
      simp only [State.step, State.answer_raised hnumbered hholder, left, Option.map_some,
        Option.getD_some]
      omega
    · simp only [State.step, State.answer_outward hnumbered hholder hraises, left,
        Option.map_none, Option.getD_none, Option.map_some, Option.getD_some]
      omega

theorem Pays.step (hw : w.Pays s cost fee) (course : Course s allows {} log st)
    (hholds : ∃ h, st.holder = some h) :
    w.left (st.step s m).1 + st.spends s cost fee m ≤ w.left st := by
  obtain ⟨⟨op, agenda, call⟩, hholder⟩ := hholds
  cases call with
  | none => exact hw.step_acting course hholder
  | some call =>
    by_cases hanswer : ∃ reply, m = .answer op reply
    · obtain ⟨reply, rfl⟩ := hanswer
      have hspends : st.spends s cost fee (.answer op reply) = fee := by
        simp [State.spends, hholder]
      rw [hspends]
      exact hw.step_answer (course.numbered State.numbered_new) hholder reply
    · have hsame := State.step_holder (s := s) (m := m) (fun reply heq => hanswer ⟨reply, heq⟩) hholder
      have hfree : st.spends s cost fee m = 0 := by
        cases m with
        | tick => simp [State.spends, hholder]
        | answer k reply =>
          have hk : k ≠ op := by
            rintro rfl
            exact hanswer ⟨reply, rfl⟩
          simp [State.spends, hholder, hk]
        | _ => rfl
      rw [hfree, left_eq hsame, left_eq hholder]
      exact Nat.le_refl _

/-- An operation costs no more than it weighs. -/
theorem Pays.spent_le (hw : w.Pays s cost fee) (course : Course s Anything {} log st)
    {ms : List Move} (hms : st.Allows s (Holds op) ms) : st.spent s cost fee ms ≤ w.left st := by
  induction ms generalizing st log with
  | nil => exact Nat.zero_le _
  | cons m rest ih =>
    obtain ⟨hholds, hrest⟩ := hms
    obtain ⟨h, hholder, -⟩ := Option.map_eq_some_iff.mp hholds
    have hstep := hw.step (m := m) course ⟨h, hholder⟩
    have hlater := ih (course.tail m trivial) hrest
    simp only [State.spent]
    omega

end Weights

theorem executedIn_step (course : Course s allows {} log st) (m : Move) :
    executedIn (st.step s m).2 = st.spends s (fun p => p.executed.toList.length) 0 m := by
  by_cases htick : m = .tick
  · subst htick
    have hidle : (∀ op agenda, st.holder ≠ some ⟨op, agenda, none⟩) →
        executedIn (st.step s .tick).2 = 0 := fun h => by simp [State.step, State.tick_idle h]
    cases hholder : st.holder with
    | none => simp [State.spends, hholder, hidle]
    | some h =>
      obtain ⟨op, agenda, call⟩ := h
      cases call with
      | some call => simp [State.spends, hholder, hidle]
      | none =>
        cases agenda with
        | nil =>
          simp [State.spends, State.step, State.tick_over hholder, hholder, executedIn,
            Happening.executed?]
        | cons i rest =>
          simp [State.spends, State.step, State.tick_eq_carryOut hholder rfl, hholder]
  · have hfree : st.spends s (fun p => p.executed.toList.length) 0 m = 0 := by
      unfold State.spends
      split
      · exact absurd rfl htick
      · split
        · exact ite_self 0
        · rfl
      · rfl
    rw [hfree]
    refine executedIn_eq_zero fun x hx => ?_
    have hmakes := course.makes m
    generalize (st.step s m).1 = st' at hmakes
    generalize (st.step s m).2 = more at hmakes hx
    cases hmakes with
    | passes hmemory hholder hlog => cases hlog x hx <;> rfl
    | opens | hears | learns => simp at hx
    | ends | acts => exact absurd rfl htick
    | breaks | resets | restores =>
      obtain rfl := List.mem_singleton.mp hx
      rfl

theorem executedIn_steps (course : Course s Anything {} log st) (ms : List Move) :
    executedIn (st.steps s ms).2 = st.spent s (fun p => p.executed.toList.length) 0 ms := by
  induction ms generalizing st log with
  | nil => rfl
  | cons m rest ih =>
    simp only [State.steps, State.spent, executedIn_append, executedIn_step course m,
      ih (course.tail m trivial)]

/-! ## Two kinds of weights -/

/-- How many nodes a run may still come to. -/
def Run.room (most : Int) (run : Run) : Nat := (most - run.steps).toNat

/-- How many nodes instructions may still execute. -/
def executionWeights (most : Int) : Weights where
  instruction
    | .start _ | .accept _ | .acceptPlayback | .enter => most.toNat
    | .execute run _ => run.room most + 1
    | .visit run | .conclude run _ _ _ | .deliver run _ _ => run.room most
    | _ => 0
  call
    | .inquire run _ _ => run.room most
    | .outward _ => 0

/-- How many instructions and answers it takes to look at a node and to go on from there. -/
def Run.effort (most : Int) (run : Run) : Nat := 13 * run.room most + 3

/-- How many instructions and answers it may still take to carry instructions out. A message or a
request takes two, to leave a node takes three; a node has one message and one request at most. -/
def effortWeights (s : Setup) (most : Int) : Weights where
  instruction
    | .start _ | .accept _ | .acceptPlayback => 13 * most.toNat + 8
    | .enter => 13 * most.toNat + 4
    | .visit run => run.effort most
    | .execute run _ => run.effort most + 11
    | .conclude run _ _ _ => run.effort most + 9
    | .deliver run _ r =>
      run.effort most + 2 * (s.feasible r).messages.length + 2 * (s.feasible r).calls.length + 4
    | .send _ => 2
    | .perform _ => 2
    | .leave _ _ => 3
    | .close => 1
    | .giveUp => 1
  call
    | .inquire run _ _ => run.effort most + 10
    | .outward _ => 1

theorem Weights.agenda_map (w : Weights) {α : Type} (f : α → Instruction) {k : Nat}
    (h : ∀ a, w.instruction (f a) = k) (l : List α) : w.agenda (l.map f) = k * l.length := by
  induction l with
  | nil => rfl
  | cons a l ih =>
    simp only [List.map_cons, agenda_cons, h, ih, List.length_cons, Nat.mul_succ]
    omega

theorem Weights.agenda_delivery (w : Weights) {run : Run} {n : Node} {r : ExecutionResult}
    {send call leave : Nat} (hsend : ∀ m, w.instruction (.send m) = send)
    (hcall : ∀ c, w.instruction (.perform c) = call)
    (hleave : w.instruction (.leave n r.transition) = leave) :
    w.agenda (delivery run n r) =
      send * r.messages.length + call * r.calls.length + leave + w.instruction (.visit run) := by
  unfold delivery
  split <;>
    simp only [agenda_append, agenda_cons, agenda_nil, w.agenda_map _ hsend, w.agenda_map _ hcall,
      hleave] <;>
    omega

theorem execution_pays {most : Int} (hmax : s.config.maxSteps = .int most) :
    (executionWeights most).Pays s (fun p => p.executed.toList.length) 0 where
  performs {c i p} hp := by
    cases hp with
    | pauses hcomes hreached | hurries hcomes hreached =>
      rw [hmax, reached_int] at hreached
      simp [executionWeights, Weights.outcome, Run.room] at hreached ⊢
      omega
    | delivers =>
      simp only [Weights.outcome,
        Weights.agenda_delivery (executionWeights most) (fun _ => rfl) (fun _ => rfl) rfl]
      simp [executionWeights]
    | executes | inquires =>
      simp [executionWeights, Weights.outcome]
      omega
    | _ => simp [executionWeights, Weights.outcome, Run.room, Setup.sending]
  answers r := Nat.zero_le _
  concludes run n q reply := by simp [executionWeights]

theorem length_le_of_suits {n : Node} {r : ExecutionResult} (hr : r.Suits n) :
    r.messages.length ≤ 1 ∧ r.calls.length ≤ 1 := by
  cases hr <;> simp [ExecutionResult.messages, ExecutionResult.calls]

theorem effort_pays {most : Int} (hmax : s.config.maxSteps = .int most) :
    (effortWeights s most).Pays s (fun _ => 1) 1 where
  performs {c i p} hp := by
    cases hp with
    | pauses hcomes hreached | hurries hcomes hreached =>
      rw [hmax, reached_int] at hreached
      simp [effortWeights, Weights.outcome, Run.effort, Run.room] at hreached ⊢
      omega
    | executes hturn hr | concludes hturn hr =>
      obtain ⟨hmessages, hcalls⟩ := length_le_of_suits (feasible_suits (s := s) hr)
      simp [effortWeights, Weights.outcome]
      omega
    | delivers =>
      simp only [Weights.outcome,
        Weights.agenda_delivery (effortWeights s most) (fun _ => rfl) (fun _ => rfl) rfl]
      simp [effortWeights]
      omega
    | _ =>
      simp [effortWeights, Weights.outcome, Run.effort, Run.room, Setup.sending] <;> omega
  answers r := Nat.le_refl _
  concludes run n q reply := by
    simp [effortWeights]
    omega

end ChatFlow.Session
