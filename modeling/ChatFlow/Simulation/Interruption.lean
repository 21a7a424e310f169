import ChatFlow.Session.Machine

/-!
# Interruptions

While a collaborator works on a request, other things may happen to the session that made it. A
`Cue` is one such thing; an `Interruption` says at which request, counted by kind, which cues come,
and whether the collaborator fails after them.
-/

namespace ChatFlow.Simulation

open Session

inductive RequestKind
  | message
  | sleep
  | generate
  | act
  | textInput
  | voiceInput
  | speech
  deriving DecidableEq, Repr, Inhabited

def kindOf : Request → RequestKind
  | .message _ => .message
  | .sleep _ => .sleep
  | .generate _ => .generate
  | .act .. => .act
  | .textInput => .textInput
  | .voiceInput => .voiceInput
  | .speech _ => .speech

/-- Something that happens to a session from outside. -/
inductive Cue
  | issue (operation : Operation)
  | reset
  | restore (c : Context)
  | report
  /-- The synthesizer reports a playback from a place of its own. -/
  | reportFromAfar
  | close
  /-- Something that fails before it reaches the session. -/
  | refuse (e : Fault)
  deriving DecidableEq, Repr

/-- A step in the course of a request. -/
inductive Beat
  | cue (c : Cue)
  | fail (e : Fault)
  deriving DecidableEq, Repr

/-- What happens during the request of a kind with a number; requests of a kind are numbered from
zero. -/
structure Interruption where
  kind : RequestKind
  number : Nat
  beats : List Beat
  deriving DecidableEq, Repr

/-- The beats in the course of a request. -/
def beatsAt (interruptions : List Interruption) (kind : RequestKind) (number : Nat) : List Beat :=
  (interruptions.filter fun i => i.kind = kind && i.number == number).flatMap (·.beats)

end ChatFlow.Simulation
