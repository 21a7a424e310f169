import ChatFlow.Backend.Retry
import Mathlib.Logic.Function.Iterate

/-!
# How often a call is made

`persist` makes a call up to the first result that is not transient, or up to the limit of attempts
if there is none, and pauses between one attempt and the next. `persist_eq` says so in terms of the
results that the calls would come to if they went on for ever.
-/

namespace ChatFlow.Retry

variable {ρ σ α β : Type}

/-- The state after a number of calls. -/
def after (f : σ → β × σ) (s : σ) (n : Nat) : σ :=
  (fun s => (f s).2)^[n] s

/-- What the call of a number comes to, counted from zero. -/
def nth (f : σ → β × σ) (s : σ) (n : Nat) : β :=
  (f (after f s n)).1

/-- The same call may come to something else later. -/
def Transient (r : Except Fault α) : Prop :=
  ∃ e, r = .error e ∧ e.isTransient = true

/-- Attempts with one of these pauses between each and the next. -/
def spaced (request : ρ) (pauses : List Double) : List (Act ρ) :=
  pauses.flatMap (fun p => [.call request, .pause p]) ++ [.call request]

variable {call : ρ → σ → Except Fault α × σ} {pauseBefore : Nat → Except Fault Double} {request : ρ}

theorem persist_of_not_transient {s : σ} (h : ¬ Transient (call request s).1) (left k : Nat) :
    persist call pauseBefore request left k s =
      (⟨[.call request], (call request s).1⟩, (call request s).2) := by
  cases hcame : call request s with
  | mk r s' =>
    rw [hcame] at h
    rw [persist.eq_def]
    cases r with
    | ok a => simp only [hcame]
    | error e =>
      have hlasting : ¬ e.isTransient = true := fun htransient => h ⟨e, rfl, htransient⟩
      simp only [hcame, if_neg hlasting]

theorem persist_zero {s : σ} {k : Nat} {p : Double} (h : Transient (call request s).1)
    (hpause : pauseBefore k = .ok p) :
    persist call pauseBefore request 0 k s =
      (⟨[.call request], (call request s).1⟩, (call request s).2) := by
  obtain ⟨e, he, htransient⟩ := h
  cases hcame : call request s with
  | mk r s' =>
    obtain rfl : r = .error e := by rw [← he, hcame]
    rw [persist.eq_def]
    simp only [hcame, if_pos htransient, hpause]

theorem persist_succ {s : σ} {left k : Nat} {p : Double} (h : Transient (call request s).1)
    (hpause : pauseBefore k = .ok p) :
    persist call pauseBefore request (left + 1) k s =
      let (c, s') := persist call pauseBefore request left (k + 1) (call request s).2
      ({ c with acts := .call request :: .pause p :: c.acts }, s') := by
  obtain ⟨e, he, htransient⟩ := h
  cases hcame : call request s with
  | mk r s' =>
    obtain rfl : r = .error e := by rw [← he, hcame]
    rw [persist.eq_def]
    simp only [hcame, if_pos htransient, hpause]

/-- The course of a call. The first results are transient, and each is followed by the pause for its
number. The last one is not, or it comes from the last attempt that the limit allows. -/
structure Persists (call : ρ → σ → Except Fault α × σ) (pauseBefore : Nat → Except Fault Double)
    (request : ρ) (left k : Nat) (s : σ) (last : Nat) : Prop where
  le : last ≤ left
  earlier : ∀ i < last, Transient (nth (call request) s i)
  stops : last < left → ¬ Transient (nth (call request) s last)
  eq : ∃ pauses, (List.range last).map (fun i => pauseBefore (k + i)) = pauses.map .ok ∧
    persist call pauseBefore request left k s =
      (⟨spaced request pauses, nth (call request) s last⟩, after (call request) s (last + 1))

theorem persist_eq (call : ρ → σ → Except Fault α × σ) (request : ρ)
    (hpause : ∀ k, ∃ p, pauseBefore k = .ok p) (left k : Nat) (s : σ) :
    ∃ last, Persists call pauseBefore request left k s last := by
  induction left generalizing k s with
  | zero =>
    refine ⟨0, Nat.le_refl 0, by simp, by simp, [], rfl, ?_⟩
    by_cases h : Transient (call request s).1
    · obtain ⟨p, hp⟩ := hpause k
      exact persist_zero h hp
    · exact persist_of_not_transient h 0 k
  | succ left ih =>
    by_cases h : Transient (call request s).1
    · obtain ⟨p, hp⟩ := hpause k
      obtain ⟨last, hle, hearlier, hstops, pauses, hpauses, heq⟩ := ih (k + 1) (call request s).2
      refine ⟨last + 1, Nat.succ_le_succ hle, ?_, fun hlt => ?_, p :: pauses, ?_, ?_⟩
      · rintro (_ | i) hi
        · exact h
        · exact hearlier i (Nat.lt_of_succ_lt_succ hi)
      · exact hstops (Nat.lt_of_succ_lt_succ hlt)
      · have hlater : (fun i => pauseBefore (k + 1 + i)) = fun i => pauseBefore (k + (i + 1)) :=
          funext fun i => congrArg pauseBefore (Nat.succ_add_eq_add_succ k i)
        rw [List.range_succ_eq_map, List.map_cons, List.map_map, List.map_cons, ← hpauses, hlater]
        exact congrArg (· :: _) hp
      · rw [persist_succ h hp, heq]
        rfl
    · exact ⟨0, Nat.zero_le _, by simp, fun _ => h, [], rfl, persist_of_not_transient h _ k⟩

end ChatFlow.Retry
