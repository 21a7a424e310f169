import ChatFlow.Fault
import ChatFlow.Number.Basic

/-!
# Retrying

A call that fails for a transient reason is made again, up to a limit of attempts, with a pause
before each further attempt that doubles every time up to ten seconds. `persist` makes the calls of
one request.
-/

namespace ChatFlow

/-- Whether the same call may succeed later. -/
def Fault.isTransient : Fault → Bool
  | .engine (.transient ..) => true
  | _ => false

namespace Retry

/-- The longest pause, in seconds. -/
def longest : Nat := 10

/-- The number of attempts that stands for a limit beyond all numbers. -/
def manyAttempts : Nat := 1000000

/-- The number of attempts under a limit: at least one. -/
def attempts (limit : Value) : Except Fault Nat :=
  match limit.number? with
  | none => .error .wrongKind
  | some (.int n) => .ok (max 1 n.toNat)
  | some (.float x) =>
    match x with
    | .infinite false => .ok manyAttempts
    | _ =>
      let n := (x.truncate?.getD 0).toNat
      .ok (max 1 (if (Number.float x).reachedBy n then n else n + 1))

/-- A number of seconds kept between zero and the longest pause. -/
def clamp (x : Double) : Double :=
  match x.compare? (.ofInt longest) with
  | some .gt => .ofInt longest
  | _ =>
    match x.compare? (.zero false) with
    | some .gt => x
    | _ => .zero false

/-- The pause before the further attempt of a number, counted from zero. -/
def pause (backoff : Value) (k : Nat) : Except Fault Double :=
  match backoff.number? with
  | none => .error .wrongKind
  | some (.int n) => .ok (.ofInt (min (longest : Int) (max 0 (n * Double.twoTo k))))
  | some (.float x) => .ok (if 1024 ≤ k then .ofInt longest else clamp (x.scaleByPowerOfTwo k))

/-- What is done in order to get a result. -/
inductive Act (ρ : Type)
  | call (request : ρ)
  | pause (seconds : Double)
  deriving DecidableEq, Repr

/-- What came of a call with its further attempts. -/
structure Course (ρ α : Type) where
  acts : List (Act ρ) := []
  result : Except Fault α

variable {ρ σ α : Type}

/-- Make a call, and make it again while it fails for a transient reason and attempts are left over.
The last result stands. `k` counts the further attempts that were made before. -/
def persist (call : ρ → σ → Except Fault α × σ) (pauseBefore : Nat → Except Fault Double)
    (request : ρ) : Nat → Nat → σ → Course ρ α × σ
  | left, k, s =>
    let (r, s) := call request s
    match r with
    | .ok a => (⟨[.call request], .ok a⟩, s)
    | .error e =>
      if e.isTransient then
        match pauseBefore k with
        | .error e => (⟨[.call request], .error e⟩, s)
        | .ok p =>
          match left with
          | 0 => (⟨[.call request], .error e⟩, s)
          | left + 1 =>
            let (c, s) := persist call pauseBefore request left (k + 1) s
            ({ c with acts := .call request :: .pause p :: c.acts }, s)
      else (⟨[.call request], .error e⟩, s)

end Retry

end ChatFlow
