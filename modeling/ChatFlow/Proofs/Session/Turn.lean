import ChatFlow.Proofs.Session.Stability

/-!
# Turns

Every reset begins a new turn, and nothing else does. A run remembers the turn it began in, so it can
tell whether the session has been reset since: `Course.bounded` says that no run is ahead of its
session, unless a context of an earlier turn is adopted while an operation holds the session.
-/

namespace ChatFlow

theorem Context.apply_turn {c : Context} {e : Event} (h : e ≠ .reset) :
    (c.apply e).turn = c.turn := by
  cases e with
  | reset => exact absurd rfl h
  | _ => rfl

theorem Context.foldl_apply_turn {c : Context} {es : List Event} (h : .reset ∉ es) :
    (es.foldl Context.apply c).turn = c.turn := by
  induction es generalizing c with
  | nil => rfl
  | cons e rest ih =>
    have he : e ≠ .reset := fun heq => h (by simp [heq])
    rw [List.foldl_cons, ih (fun hrest => h (List.mem_cons_of_mem _ hrest)), apply_turn he]

namespace Session

variable {s : Setup} {c : Context} {i : Instruction} {p : Performed} {rest agenda : List Instruction}

theorem Performs.reset_not_mem (h : Performs s c i p) : .reset ∉ p.events := by
  have hkeeping : ∀ name reply, .reset ∉ keeping name reply := by
    intro name reply
    unfold keeping
    split <;> simp
  cases h with
  | takes => simp [hkeeping]
  | mismatches => simp [hkeeping]
  | delivers =>
    dsimp only
    split <;> simp
  | _ => simp

theorem Performs.turn_eq (h : Performs s c i p) :
    (p.events.foldl Context.apply c).turn = c.turn :=
  Context.foldl_apply_turn h.reset_not_mem

/-- The run that an instruction belongs to. -/
def Instruction.run? : Instruction → Option Run
  | .visit run => some run
  | .execute run _ => some run
  | .conclude run _ _ _ => some run
  | .deliver run _ _ => some run
  | _ => none

theorem Instruction.Opens.run?_eq (h : i.Opens) : i.run? = none := by
  cases i <;> first | rfl | exact h.elim

/-- The run that a call belongs to. -/
def Call.run? : Call → Option Run
  | .inquire run _ _ => some run
  | .outward _ => none

theorem delivery_cases {run : Run} {node : Node} {r : ExecutionResult}
    (hi : i ∈ delivery run node r) : (∃ m, i = .send m) ∨ (∃ call, i = .perform call) ∨
      i = .leave node r.transition ∨ i = .visit run := by
  simp only [delivery, List.mem_append, List.mem_map, List.mem_singleton] at hi
  rcases hi with (⟨m, -, rfl⟩ | hi) | rfl
  · exact .inl ⟨m, rfl⟩
  · split at hi
    · rcases List.mem_cons.mp hi with rfl | hi
      · exact .inr (.inr (.inl rfl))
      · obtain ⟨call, -, rfl⟩ := List.mem_map.mp hi
        exact .inr (.inl ⟨call, rfl⟩)
    · rcases List.mem_append.mp hi with hi | hi
      · obtain ⟨call, -, rfl⟩ := List.mem_map.mp hi
        exact .inr (.inl ⟨call, rfl⟩)
      · exact .inr (.inr (.inl (List.mem_singleton.mp hi)))
  · exact .inr (.inr (.inr rfl))

/-- The runs of an operation satisfy a condition. -/
structure Runs (P : Run → Prop) (call : Option Call) (agenda : List Instruction) : Prop where
  call : ∀ run, call.bind Call.run? = some run → P run
  agenda : ∀ i ∈ agenda, ∀ run, i.run? = some run → P run

namespace Runs

variable {P Q : Run → Prop} {call : Option Call}

theorem mono (hPQ : ∀ run, P run → Q run) (h : Runs P call agenda) : Runs Q call agenda :=
  ⟨fun run hrun => hPQ run (h.call run hrun), fun i hi run hrun => hPQ run (h.agenda i hi run hrun)⟩

theorem nil : Runs P none [] :=
  ⟨by simp, by simp⟩

theorem answer {r : Request} (h : Runs P (some (.outward r)) agenda) : Runs P none agenda :=
  ⟨by simp, h.agenda⟩

theorem conclude {run : Run} {node : Node} {q : Inquiry} {reply : Reply}
    (h : Runs P (some (.inquire run node q)) agenda) :
    Runs P none (.conclude run node q reply :: agenda) := by
  refine ⟨by simp, fun j hj run' hrun => ?_⟩
  rcases List.mem_cons.mp hj with rfl | hj
  · exact h.call run' hrun
  · exact h.agenda j hj run' hrun

theorem mem_delivery {run run' : Run} {node : Node} {r : ExecutionResult}
    (hi : i ∈ delivery run node r) (hrun : i.run? = some run') : run' = run := by
  rcases delivery_cases hi with ⟨m, rfl⟩ | ⟨call, rfl⟩ | rfl | rfl
  · simp [Instruction.run?] at hrun
  · simp [Instruction.run?] at hrun
  · simp [Instruction.run?] at hrun
  · simpa [Instruction.run?] using hrun.symm

theorem performs (hnew : p.entered = true → ∀ steps, P ⟨c.turn, steps⟩)
    (hsame : ∀ run steps, P run → P { run with steps := steps })
    (h : Runs P none (i :: rest)) (hp : Performs s c i p) : p.outcome.Leads (Runs P) rest := by
  have hrest : ∀ j ∈ rest, ∀ run, j.run? = some run → P run :=
    fun j hj => h.agenda j (List.mem_cons_of_mem _ hj)
  have hfirst : ∀ run, i.run? = some run → P run := h.agenda i List.mem_cons_self
  -- only what is added to the agenda has to be looked at, and the call that is made
  have hgoes : ∀ {call : Option Call} {todo : List Instruction},
      (∀ run, call.bind Call.run? = some run → P run) →
      (∀ j ∈ todo, ∀ run, j.run? = some run → P run) → Runs P call (todo ++ rest) := by
    intro call todo hcall htodo
    refine ⟨hcall, fun j hj => ?_⟩
    rcases List.mem_append.mp hj with hj | hj
    · exact htodo j hj
    · exact hrest j hj
  cases hp with
  | enters =>
    refine hgoes (by simp) fun j hj run hrun => ?_
    obtain rfl := List.mem_singleton.mp hj
    obtain rfl : _ = run := by simpa [Instruction.run?] using hrun
    exact hnew rfl 0
  | pauses hcomes hreached =>
    refine hgoes (by simp [Call.run?]) fun j hj run hrun => ?_
    obtain rfl := List.mem_singleton.mp hj
    obtain rfl : _ = run := by simpa [Instruction.run?] using hrun
    exact hsame _ _ (hfirst _ rfl)
  | hurries hcomes hreached =>
    refine hgoes (by simp) fun j hj run hrun => ?_
    obtain rfl := List.mem_singleton.mp hj
    obtain rfl : _ = run := by simpa [Instruction.run?] using hrun
    exact hsame _ _ (hfirst _ rfl)
  | executes hturn hr =>
    refine hgoes (by simp) fun j hj run hrun => ?_
    obtain rfl := List.mem_singleton.mp hj
    obtain rfl : _ = run := by simpa [Instruction.run?] using hrun
    exact hfirst _ rfl
  | inquires hturn hq =>
    refine hgoes (fun run hrun => ?_) (by simp)
    obtain rfl : _ = run := by simpa [Call.run?] using hrun
    exact hfirst _ rfl
  | concludes hturn hr =>
    refine hgoes (by simp) fun j hj run hrun => ?_
    obtain rfl := List.mem_singleton.mp hj
    obtain rfl : _ = run := by simpa [Instruction.run?] using hrun
    exact hfirst _ rfl
  | delivers =>
    refine hgoes (by simp) fun j hj run hrun => ?_
    obtain rfl := mem_delivery hj hrun
    exact hfirst _ rfl
  | drops => exact nil
  | ignores => exact nil
  | halts => exact nil
  | loses => exact nil
  | abandons => exact nil
  | discards => exact nil
  | givesUp => exact nil
  | lacksWords => trivial
  | misnames => trivial
  | mismatches => trivial
  | breaksOff => trivial
  | stumbles => trivial
  | misleads => trivial
  | cannotSpeak => trivial
  | closesMute => trivial
  | _ => exact hgoes (by simp [Call.run?, Setup.sending]) (by simp [Instruction.run?])

end Runs

/-! ## No run is ahead of its session -/

/-- Saved contexts of an earlier turn are adopted only while nobody holds the session. -/
def Forward (st : State) (m : Move) : Prop :=
  ∀ c, m = .restore c → st.holder = none ∨ st.memory.context.turn ≤ c.turn

/-- The runs of an operation began in the turn of the session or before it. -/
def Bounded (m : Memory) : Option Call → List Instruction → Prop :=
  Runs fun run => run.turn ≤ m.context.turn

theorem Bounded.reset {m : Memory} {call : Option Call} (h : Bounded m call agenda) :
    Bounded m.reset call agenda := by
  refine Runs.mono (fun run hrun => ?_) h
  show run.turn ≤ m.context.turn + 1
  omega

theorem bounded_stable (s : Setup) : Stable s Forward Bounded (fun _ => True) where
  opens {m i} _ hi := by
    refine ⟨by simp, fun j hj run hrun => ?_⟩
    obtain rfl := List.mem_singleton.mp hj
    simp [hi.run?_eq] at hrun
  ends _ := trivial
  performs {m i rest p} h hp := by
    have hturn : (m.after p).context.turn = m.context.turn := hp.turn_eq
    have heq : Bounded (m.after p) = Bounded m := by
      unfold Bounded
      rw [hturn]
    rw [heq]
    exact Runs.performs (fun _ _ => Int.le_refl _) (fun _ _ hrun => hrun) h hp
  fails _ _ _ _ _ := trivial
  answers h := h.answer
  raises _ _ _ := trivial
  concludes _ h := h.conclude
  resets _ _ h := Bounded.reset h
  resetsFree _ _ _ := trivial
  restores hm hholder h := by
    rcases hm _ rfl with hnone | hle
    · simp [hnone] at hholder
    · exact Runs.mono (fun _ hrun => Int.le_trans hrun hle) h
  restoresFree _ _ _ := trivial

/-- No run is ahead of its session, unless an earlier turn is adopted in the middle of it. -/
theorem Course.bounded {log : List Happening} {st : State} (course : Course s Forward {} log st)
    {h : Holder} (hholder : st.holder = some h) : Bounded st.memory h.call h.agenda :=
  ((bounded_stable s).course course (State.keeps_new trivial)).held h hholder

end Session

end ChatFlow
