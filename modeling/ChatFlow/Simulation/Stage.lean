import ChatFlow.Simulation.Interruption

/-!
# Sessions on a stage

A session leaves open which of the possible moves comes next, and what collaborators answer. A
`Stage` decides both. Its rules, each for the case that those before it do not apply:

* a session that can go on by itself does;
* reported playbacks arrive in the order in which they were reported, but not while a request that
  nothing interrupts is being answered;
* a session that nobody holds goes to the first operation that waits for it;
* the last request is taken up: its next beat is played, or it is answered.

`Stage.play` plays one cue and goes on until nothing is left to do.
-/

namespace ChatFlow.Simulation

open Session

/-- What answers the requests of sessions; its own state changes with every answer. -/
structure Surroundings (σ : Type) where
  answer : σ → Request → Reply × σ
  /-- Whether a request can be seen from outside. -/
  isVisible : Request → Bool := fun _ => true
  /-- Whether a playback is reported before the request for it is answered. -/
  playsAtOnce : Bool := false
  hasSynthesizer : Bool := false
  interruptions : List Interruption := []

/-- What can be seen of sessions. -/
inductive Entry
  /-- A session, given by its number, has a new context. -/
  | context (session : Nat) (c : Context)
  | called (request : Request)
  | failed (e : Fault)

structure Frame where
  session : Nat
  op : Nat
  request : Request
  beats : List Beat
  /-- Whether others can go on before the answer. -/
  yields : Bool

/-- Sessions, what surrounds them, and what is going on. -/
structure Stage (σ : Type) where
  around : Surroundings σ
  inner : σ
  sessions : List (Setup × State) := []
  /-- How many requests of each kind have been made. -/
  counts : Table RequestKind Nat := []
  /-- The requests being answered, the last one in front. -/
  frames : List Frame := []
  /-- The sessions for which a playback was reported that has not arrived. -/
  arrivals : List Nat := []
  /-- The operation that is waited for, by its session and its number. -/
  awaited : Option (Nat × Nat) := none
  /-- The result of that operation. -/
  result : Option (Except Fault Context) := none
  /-- What could be seen, the last entry in front. -/
  log : List Entry := []

/-- What became of a cue. -/
structure Played where
  entries : List Entry
  /-- The end of the operation that the cue issued, or why the cue was refused. -/
  result : Option (Except Fault Context)

namespace Stage

variable {σ : Type}

def addSession (w : Stage σ) (s : Setup) : Stage σ :=
  { w with sessions := w.sessions ++ [(s, {})] }

def state? (w : Stage σ) (i : Nat) : Option State :=
  w.sessions[i]?.map Prod.snd

def context? (w : Stage σ) (i : Nat) : Option Context :=
  (w.state? i).map fun st => st.memory.context

def note (w : Stage σ) (e : Entry) : Stage σ :=
  { w with log := e :: w.log }

/-- Take up a request of a session. -/
def takeUp (w : Stage σ) (i op : Nat) (request : Request) : Stage σ :=
  if w.around.isVisible request then
    let kind := kindOf request
    let n := (w.counts.get? kind).getD 0
    let beats := beatsAt w.around.interruptions kind n
    let frame : Frame := ⟨i, op, request, beats, !beats.isEmpty⟩
    { w with counts := w.counts.insert kind (n + 1), frames := frame :: w.frames }.note
      (.called request)
  else { w with frames := ⟨i, op, request, [], false⟩ :: w.frames }

/-- What a happening in a session means for the stage. -/
def record (i : Nat) (w : Stage σ) : Happening → Stage σ
  | .changed _ c => w.note (.context i c)
  | .restored c => w.note (.context i c)
  | .executed _ => w
  | .called op request => w.takeUp i op request
  | .scheduled _ => { w with arrivals := w.arrivals ++ [i] }
  | .finished op result =>
    if w.awaited = some (i, op) then { w with result := some result }
    else
      match result with
      | .error e => w.note (.failed e)
      | .ok _ => w

def move (w : Stage σ) (i : Nat) (m : Move) : Stage σ :=
  match w.sessions[i]? with
  | none => w
  | some (s, st) =>
    let (st, log) := st.step s m
    log.foldl (record i) { w with sessions := w.sessions.set i (s, st) }

def moveAll (w : Stage σ) (m : Move) : Stage σ :=
  (List.range w.sessions.length).foldl (fun w i => w.move i m) w

/-- Play a cue for a session, or tell why that is impossible. -/
def cue (w : Stage σ) (i : Nat) : Cue → Except Fault (Stage σ)
  | .issue operation => .ok (w.move i (.begin operation))
  | .reset => .ok (w.move i .reset)
  | .restore c => .ok (w.move i (.restore c))
  | .report => if w.around.hasSynthesizer then .ok (w.moveAll .notify) else .error .noSuchMember
  | .reportFromAfar =>
    if w.around.hasSynthesizer then .ok (w.moveAll .notifyFromAfar) else .error .noSuchMember
  | .close => .ok (w.move i .unsubscribe)
  | .refuse e => .error e

/-- Answer a request that has been taken off the stage. -/
def answer (w : Stage σ) (f : Frame) : Stage σ :=
  let w := match f.request with
    | .speech _ => if w.around.playsAtOnce then w.moveAll .notify else w
    | _ => w
  let (reply, inner) := w.around.answer w.inner f.request
  { w with inner := inner }.move f.session (.answer f.op reply)

def resume (w : Stage σ) : Option (Stage σ) :=
  match w.frames with
  | [] => none
  | f :: rest =>
    match f.beats with
    | .cue c :: beats =>
      let w := { w with frames := { f with beats := beats } :: rest }
      match w.cue f.session c with
      | .ok w => some w
      | .error e => some (w.note (.failed e))
    | .fail e :: _ => some ({ w with frames := rest }.move f.session (.answer f.op (.raised e)))
    | [] => some ({ w with frames := rest }.answer f)

/-- Let the next operation that waits for a free session have it, or go on with the last request. -/
def grantOrResume (w : Stage σ) : Option (Stage σ) :=
  match w.sessions.findIdx? fun e => e.2.holder.isNone && !e.2.queue.isEmpty with
  | some i => some (w.move i .grant)
  | none => w.resume

/-- Whether a reported playback can arrive. -/
def isOpen (w : Stage σ) : Bool :=
  match w.frames with
  | [] => true
  | f :: _ => f.yields

/-- The next thing that happens; none if nothing is left to do. -/
def next? (w : Stage σ) : Option (Stage σ) :=
  match w.sessions.findIdx? fun e => !e.2.isSettled with
  | some i => some (w.move i .tick)
  | none =>
    match w.arrivals with
    | i :: rest =>
      if w.isOpen then some ({ w with arrivals := rest }.move i .arrive) else w.grantOrResume
    | [] => w.grantOrResume

/-- Go on until nothing is left to do; none if that never comes about. -/
def settle (w : Stage σ) : Option (Stage σ) :=
  match w.next? with
  | some next => next |>.settle
  | none => some w
partial_fixpoint

/-- The operation that a cue issues for a session, by its session and its number. -/
def issuedBy (w : Stage σ) (i : Nat) : Cue → Option (Nat × Nat)
  | .issue _ => (w.state? i).map fun st => (i, st.nextOp)
  | _ => none

/-- Play a cue for a session and go on until nothing is left to do. If that never comes about, the
stage is as the cue alone has left it. -/
def play (w : Stage σ) (i : Nat) (c : Cue) : Stage σ × Played :=
  let w := { w with awaited := w.issuedBy i c, result := none, log := [] }
  let w := match w.cue i c with
    | .ok w => (settle w).getD w
    | .error e => { w with result := some (.error e) }
  ({ w with awaited := none, result := none, log := [] }, ⟨w.log.reverse, w.result⟩)

end Stage

end ChatFlow.Simulation
