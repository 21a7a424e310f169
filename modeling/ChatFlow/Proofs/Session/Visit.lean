import ChatFlow.Proofs.Execution.Route
import ChatFlow.Proofs.Session.Move
import ChatFlow.Proofs.Session.Turn

/-!
# Visits of nodes

`executes_once_per_arrival`: between two executions of a node the cursor has come to the node again,
whatever fails, and however often the session is run or reset meanwhile. So neither the executions of
a node nor the calls of action adapters that come from them outnumber the arrivals at it.

`TakesTurns` reads a log as a word of arrivals and executions. It is carried along every course
together with what the session still has to do: it owes an execution to the node under its cursor
until the node is marked (`Context.Owes`), and a run that is about to execute a node owes it that
execution as long as the session has not been reset (`owing_stable`).
-/

namespace ChatFlow

/-- Whether the cursor comes to a node. -/
def Event.arrivesAt (id : String) : Event → Bool
  | .moved node => node == id
  | .started node _ => node == some id
  | _ => false

/-- The node under the cursor has not been executed since the cursor came to it. -/
def Context.Owes (c : Context) (id : String) : Prop :=
  c.cursor = some id ∧ id ∉ c.processed

theorem Context.owes_of_apply {c : Context} {e : Event} {id : String} (h : (c.apply e).Owes id)
    (he : e.arrivesAt id = false) : c.Owes id := by
  cases e with
  | started node vars => simp_all [Owes, apply, Event.arrivesAt]
  | moved node => simp_all [Owes, apply, Event.arrivesAt]
  | processed node =>
    refine ⟨h.1, fun hmem => h.2 ?_⟩
    simp only [apply]
    split
    · exact hmem
    · exact List.mem_append_left _ hmem
  | variablesSet values => exact h
  | suspended reason choices => exact h
  | resumed => exact h
  | terminated => simp [Owes, apply] at h
  | failed error => simp [Owes, apply] at h
  | reset => simp [Owes, apply, initial] at h

theorem Context.not_owes_processed (c : Context) (id : String) :
    ¬ (c.apply (.processed id)).Owes id := by
  rintro ⟨-, hmem⟩
  simp only [apply] at hmem
  split at hmem
  · exact hmem ‹_›
  · simp at hmem

namespace Session

/-! ## Arrivals and executions in a log -/

namespace Happening

def arrivesAt (id : String) (x : Happening) : Bool :=
  x.event?.any (Event.arrivesAt id)

def executes (id : String) : Happening → Bool
  | .executed n => n.id == id
  | _ => false

/-- Whether the adapter of an action is called. -/
def isAction : Happening → Bool
  | .called _ (.act _ _ _) => true
  | _ => false

/-- Whether an execution is due after a happening, if it was or was not before. -/
def leavesDue (id : String) (due : Bool) (x : Happening) : Bool :=
  x.arrivesAt id || (due && !x.executes id)

end Happening

/-- How often the cursor has come to a node. -/
def arrivals (id : String) (log : List Happening) : Nat :=
  log.countP (Happening.arrivesAt id)

/-- How often a node has been executed. -/
def executions (id : String) (log : List Happening) : Nat :=
  log.countP (Happening.executes id)

/-- How often an adapter has been called for a node, directly after an execution of it. -/
def actionsFor (id : String) : List Happening → Nat
  | [] => 0
  | x :: rest =>
    (if x.executes id && rest.head?.any Happening.isAction then 1 else 0) + actionsFor id rest

/-- Whether an execution is due after a log. -/
def dueAfter (id : String) (due : Bool) (log : List Happening) : Bool :=
  log.foldl (Happening.leavesDue id) due

/-- A node is executed only when an execution is due. -/
def TakesTurns (id : String) (due : Bool) : List Happening → Prop
  | [] => True
  | x :: rest => (x.executes id → due = true) ∧ TakesTurns id (x.leavesDue id due) rest

variable {id : String} {due : Bool} {log log' : List Happening}

theorem dueAfter_append :
    dueAfter id due (log ++ log') = dueAfter id (dueAfter id due log) log' :=
  List.foldl_append

theorem takesTurns_append :
    TakesTurns id due (log ++ log') ↔
      TakesTurns id due log ∧ TakesTurns id (dueAfter id due log) log' := by
  induction log generalizing due with
  | nil => simp [TakesTurns, dueAfter]
  | cons x rest ih =>
    simp only [List.cons_append, TakesTurns, ih, dueAfter, List.foldl_cons]
    exact and_assoc.symm

theorem not_executes_of_arrivesAt {x : Happening} (h : x.arrivesAt id = true) :
    x.executes id = false := by
  cases x with
  | changed e c => rfl
  | _ => simp [Happening.arrivesAt, Happening.event?] at h

theorem executions_add_due_le (h : TakesTurns id due log) :
    executions id log + (dueAfter id due log).toNat ≤ arrivals id log + due.toNat := by
  induction log generalizing due with
  | nil => simp [executions, arrivals, dueAfter]
  | cons x rest ih =>
    have hrest := ih h.2
    have hstep : (x.executes id).toNat + (x.leavesDue id due).toNat ≤
        (x.arrivesAt id).toNat + due.toNat := by
      unfold Happening.leavesDue
      cases harrives : x.arrivesAt id with
      | true =>
        have hother := not_executes_of_arrivesAt harrives
        simp [hother]
      | false =>
        cases hexecutes : x.executes id with
        | true => simp [h.1 hexecutes]
        | false => simp
    have hcount : ∀ p : Happening → Bool,
        (x :: rest).countP p = rest.countP p + (p x).toNat := by
      intro p
      rw [List.countP_cons]
      cases p x <;> rfl
    simp only [executions, arrivals, hcount, dueAfter, List.foldl_cons] at hrest ⊢
    omega

theorem actionsFor_le : actionsFor id log ≤ executions id log := by
  induction log with
  | nil => exact Nat.le_refl _
  | cons x rest ih =>
    simp only [actionsFor, executions, List.countP_cons] at ih ⊢
    cases x.executes id with
    | true => split <;> simp_all <;> omega
    | false => simpa using ih

theorem dueAfter_eq_false (h : ∀ x ∈ log, x.arrivesAt id = false) :
    dueAfter id false log = false := by
  induction log with
  | nil => rfl
  | cons x rest ih =>
    have hx : x.leavesDue id false = false := by
      simp [Happening.leavesDue, h x List.mem_cons_self]
    simp only [dueAfter, List.foldl_cons, hx]
    exact ih fun y hy => h y (List.mem_cons_of_mem _ hy)

theorem TakesTurns.separated {before between after : List Happening} {n n' : Node}
    (h : TakesTurns id due (before ++ .executed n :: (between ++ .executed n' :: after)))
    (hn : n.id = id) (hn' : n'.id = id) : ∃ e ∈ events between, e.arrivesAt id = true := by
  have hfirst := (takesTurns_append.mp h).2
  have hnext : Happening.leavesDue id (dueAfter id due before) (.executed n) = false := by
    simp [Happening.leavesDue, Happening.arrivesAt, Happening.event?, Happening.executes, hn]
  have hsecond := hfirst.2
  rw [hnext] at hsecond
  have hdue : dueAfter id false between = true :=
    (takesTurns_append.mp hsecond).2.1 (by simp [Happening.executes, hn'])
  obtain ⟨x, hx, harrives⟩ : ∃ x ∈ between, x.arrivesAt id = true := by
    refine Decidable.byContradiction fun hnone => ?_
    have hfalse : dueAfter id false between = false :=
      dueAfter_eq_false fun x hx => Bool.eq_false_iff.mpr fun hx' => hnone ⟨x, hx, hx'⟩
    simp [hfalse] at hdue
  obtain ⟨e, he, harrives⟩ := (Option.any_eq_true _ _).mp harrives
  exact ⟨e, List.mem_filterMap.mpr ⟨x, hx, he⟩, harrives⟩

/-! ## What a run owes -/

/-- A run that is about to execute a node, and has not been reset, owes it the execution. -/
def Due (c : Context) (agenda : List Instruction) : Prop :=
  ∀ run node, agenda = [.execute run node] → c.turn = run.turn → c.Owes node.id

variable {s : Setup} {c : Context} {m : Memory} {i : Instruction} {p : Performed}
  {rest agenda : List Instruction}

theorem Phase.rest_ne_execute (h : Phase none (i :: rest)) (run : Run) (node : Node) :
    rest ≠ [.execute run node] := by
  rintro rfl
  cases h with
  | leaving hc ht ho => nomatch ho
  | closing hc ho => nomatch ho

theorem due_of_ne (h : ∀ run node, agenda ≠ [.execute run node]) : Due c agenda :=
  fun run node heq => absurd heq (h run node)

theorem delivery_ne_execute {run run' : Run} {node node' : Node} {r : ExecutionResult} :
    delivery run node r ++ rest ≠ [.execute run' node'] := by
  intro heq
  have hmem : Instruction.visit run ∈ delivery run node r ++ rest := by simp [delivery]
  rw [heq] at hmem
  simp at hmem

theorem Phase.due_after (h : Phase none (i :: rest)) (hp : Performs s c i p) :
    p.outcome.Leads (fun _ agenda => Due (p.events.foldl Context.apply c) agenda) rest := by
  have hrest := h.rest_ne_execute
  cases hp with
  | pauses hcomes hreached =>
    intro run node heq hturn
    obtain ⟨⟨rfl, rfl⟩, -⟩ : (_ ∧ _) ∧ _ := by simpa using heq
    exact ⟨hcomes.cursor_eq, hcomes.fresh⟩
  | hurries hcomes hreached =>
    intro run node heq hturn
    obtain ⟨⟨rfl, rfl⟩, -⟩ : (_ ∧ _) ∧ _ := by simpa using heq
    exact ⟨hcomes.cursor_eq, hcomes.fresh⟩
  | delivers => exact due_of_ne fun _ _ => delivery_ne_execute
  | drops => exact due_of_ne (by simp)
  | ignores => exact due_of_ne (by simp)
  | halts => exact due_of_ne (by simp)
  | loses => exact due_of_ne (by simp)
  | abandons => exact due_of_ne (by simp)
  | discards => exact due_of_ne (by simp)
  | givesUp => exact due_of_ne (by simp)
  | lacksWords => trivial
  | misnames => trivial
  | mismatches => trivial
  | breaksOff => trivial
  | stumbles => trivial
  | misleads => trivial
  | cannotSpeak => trivial
  | closesMute => trivial
  | _ => exact due_of_ne fun run node => by simp [hrest run node]

/-- What holds of an operation that owes executions. -/
structure Owing (m : Memory) (call : Option Call) (agenda : List Instruction) : Prop where
  phase : Phase call agenda
  bounded : Bounded m call agenda
  due : Due m.context agenda

/-- No saved context is adopted. -/
def Unrestored (_ : State) (m : Move) : Prop := ∀ c, m ≠ .restore c

theorem owing_stable (s : Setup) : Stable s Unrestored Owing (fun _ => True) where
  opens _ hi := by
    refine ⟨.opening hi, (bounded_stable s).opens trivial hi, fun run node heq => ?_⟩
    obtain rfl := (List.cons.inj heq).1
    exact hi.elim
  ends _ := trivial
  performs h hp := by
    have hphase := h.phase.performs hp
    have hbounded := (bounded_stable s).performs h.bounded hp
    have hdue := h.phase.due_after hp
    exact ((hphase.and hbounded).and hdue).mono fun call agenda hall => ⟨hall.1.1, hall.1.2, hall.2⟩
  fails _ _ _ _ _ := trivial
  answers h := ⟨h.phase.answers, (bounded_stable s).answers h.bounded, h.due⟩
  raises _ _ _ := trivial
  concludes reply h :=
    ⟨h.phase.concludes reply, (bounded_stable s).concludes reply h.bounded, due_of_ne (by simp)⟩
  resets {st holder} _ _ h := by
    refine ⟨h.phase, h.bounded.reset, fun run node hagenda hturn => ?_⟩
    -- the run began before the reset, so it finds another turn and executes nothing
    have hle : run.turn ≤ st.memory.context.turn :=
      h.bounded.agenda (.execute run node) (by simp [hagenda]) run rfl
    have heq : st.memory.context.turn + 1 = run.turn := hturn
    omega
  resetsFree _ _ _ := trivial
  restores hm _ _ := absurd rfl (hm _)
  restoresFree hm _ _ := absurd rfl (hm _)

theorem Course.owing {st : State} (course : Course s Unrestored {} log st) {h : Holder}
    (hholder : st.holder = some h) : Owing st.memory h.call h.agenda :=
  ((owing_stable s).course course (State.keeps_new trivial)).held h hholder

/-! ## Along every course -/

/-- The executions in a log are paid for, and what the session owes is still due. -/
def Paid (id : String) (log : List Happening) (c : Context) : Prop :=
  TakesTurns id false log ∧ (c.Owes id → dueAfter id false log = true)

theorem Paid.append (h : Paid id log c) {more : List Happening}
    (hmore : ∀ x ∈ more, x.executes id = false ∧ x.arrivesAt id = false) :
    Paid id (log ++ more) c := by
  have hsame : ∀ due, TakesTurns id due more ∧ dueAfter id due more = due := by
    intro due
    induction more with
    | nil => exact ⟨trivial, rfl⟩
    | cons x rest ih =>
      obtain ⟨hx, hrest⟩ := List.forall_mem_cons.mp hmore
      have hleaves : x.leavesDue id due = due := by simp [Happening.leavesDue, hx.1, hx.2]
      obtain ⟨hturns, hdue⟩ := ih hrest
      refine ⟨⟨by simp [hx.1], by rw [hleaves]; exact hturns⟩, ?_⟩
      simpa [dueAfter, hleaves] using hdue
  refine ⟨takesTurns_append.mpr ⟨h.1, (hsame _).1⟩, fun howes => ?_⟩
  rw [dueAfter_append, (hsame _).2]
  exact h.2 howes

theorem Paid.changed (h : Paid id log c) (e : Event) :
    Paid id (log ++ [.changed e (c.apply e)]) (c.apply e) := by
  refine ⟨takesTurns_append.mpr ⟨h.1, by simp [TakesTurns, Happening.executes]⟩, fun howes => ?_⟩
  rw [dueAfter_append]
  cases harrives : e.arrivesAt id with
  | true => simp [dueAfter, Happening.leavesDue, Happening.arrivesAt, Happening.event?, harrives]
  | false =>
    have hdue := h.2 (Context.owes_of_apply howes harrives)
    simp [dueAfter, Happening.leavesDue, Happening.executes] at hdue ⊢
    simp [hdue]

theorem Paid.applyAll (h : Paid id log m.context) (es : List Event) :
    Paid id (log ++ (m.applyAll es).2) (es.foldl Context.apply m.context) := by
  induction es generalizing m log with
  | nil => simpa [Memory.applyAll] using h
  | cons e rest ih =>
    have hnext := ih (m := { m with context := m.context.apply e }) (h.changed e)
    simpa [Memory.applyAll] using hnext

theorem Performs.executed_cases (hp : Performs s c i p) :
    p.executed = none ∨ ∃ run node, i = .execute run node ∧ c.turn = run.turn ∧
      p.events = [.processed node.id] ∧ p.executed = some node := by
  cases hp with
  | executes hturn hr => exact .inr ⟨_, _, rfl, hturn, rfl, rfl⟩
  | inquires hturn hq => exact .inr ⟨_, _, rfl, hturn, rfl, rfl⟩
  | stumbles hturn => exact .inr ⟨_, _, rfl, hturn, rfl, rfl⟩
  | _ => exact .inl rfl

theorem Paid.executed (h : Paid id log c) {node : Node} (howes : c.Owes node.id) :
    Paid id (log ++ [.changed (.processed node.id) (c.apply (.processed node.id)), .executed node])
      (c.apply (.processed node.id)) := by
  have hmarked := h.changed (.processed node.id)
  by_cases hid : node.id = id
  · subst hid
    refine ⟨?_, fun howes' => absurd howes' (Context.not_owes_processed c node.id)⟩
    have hdue := h.2 howes
    refine takesTurns_append.mpr ⟨h.1, ?_⟩
    simp [TakesTurns, Happening.leavesDue, Happening.executes, Happening.arrivesAt,
      Happening.event?, Event.arrivesAt, hdue]
  · have hother : ∀ x ∈ [Happening.executed node], x.executes id = false ∧ x.arrivesAt id = false := by
      simp [Happening.executes, Happening.arrivesAt, Happening.event?, hid]
    simpa using hmarked.append hother

theorem Paid.performs (h : Paid id log m.context) (howing : Owing m none (i :: rest))
    (hp : Performs s m.context i p) : Paid id (log ++ m.log p) (m.after p).context := by
  rcases hp.executed_cases with hnone | ⟨run, node, rfl, hturn, hevents, hexecuted⟩
  · simpa [Memory.log, Memory.after, hnone] using h.applyAll p.events
  · obtain rfl : rest = [] := by
      cases howing.phase with
      | opening hi => exact hi.elim
      | executing => rfl
    have howes := howing.due run node rfl hturn
    simpa [Memory.log, Memory.after, Memory.applyAll, hevents, hexecuted] using h.executed howes

variable {st : State}

theorem Course.paid (course : Course s Unrestored {} log st) (id : String) :
    Paid id log st.memory.context := by
  refine course.along (P := fun log st => Paid id log st.memory.context) ?_ ?_
  · exact ⟨trivial, fun howes => by simp [Context.Owes, Context.initial] at howes⟩
  · intro log st m st' more course hm hmakes h
    cases hmakes with
    | passes hmemory hholder hlog =>
      rw [hmemory]
      refine h.append fun x hx => ?_
      cases hlog x hx <;> exact ⟨rfl, rfl⟩
    | opens hnone hi hmemory hholder => simpa [hmemory] using h
    | hears hbefore hmemory hholder => simpa [hmemory] using h
    | learns hbefore hmemory hholder => simpa [hmemory] using h
    | breaks hbefore hmemory hholder =>
      rw [hmemory]
      exact h.append (by simp [Happening.executes, Happening.arrivesAt, Happening.event?])
    | ends hbefore hmemory hholder =>
      rw [hmemory]
      exact h.append (by simp [Happening.executes, Happening.arrivesAt, Happening.event?])
    | acts hbefore =>
      rename_i op i rest
      obtain ⟨last, hlast, hcases⟩ :=
        State.carryOut_log s st op rest (s.perform st.memory.context i)
      rw [State.carryOut_memory, hlast, ← List.append_assoc]
      refine (h.performs (course.owing hbefore) (perform_performs i)).append fun x hx => ?_
      rcases hcases with rfl | ⟨call, todo, -, rfl⟩ | ⟨e, -, rfl⟩
      · simp at hx
      · obtain rfl := List.mem_singleton.mp hx
        exact ⟨rfl, rfl⟩
      · obtain rfl := List.mem_singleton.mp hx
        exact ⟨rfl, rfl⟩
    | resets hmemory hholder =>
      rw [hmemory]
      exact h.changed .reset
    | restores hmemory hholder => exact absurd rfl (hm _)

/-! ## Calls of adapters -/

/-- Every call of an adapter comes directly after the execution of an action. -/
def Attributed (log : List Happening) : Prop :=
  ∀ before x after, log = before ++ x :: after → x.isAction = true →
    ∃ earlier node, before = earlier ++ [.executed node] ∧ node.type? = some .businessAction

theorem Attributed.append (h : Attributed log) (h' : Attributed log') : Attributed (log ++ log') := by
  intro before x after heq hx
  rcases List.append_eq_append_iff.mp heq with ⟨middle, rfl, hlater⟩ | ⟨middle, rfl, hearlier⟩
  · obtain ⟨earlier, node, rfl, hnode⟩ := h' middle x after hlater hx
    exact ⟨log ++ earlier, node, by simp, hnode⟩
  · cases middle with
    | nil =>
      obtain ⟨earlier, node, hnil, hnode⟩ := h' [] x after (by simpa using hearlier.symm) hx
      simp at hnil
    | cons y middle =>
      obtain ⟨rfl, rfl⟩ := List.cons.inj hearlier
      exact h before x middle rfl hx

theorem Attributed.snoc {before : List Happening} {node : Node}
    (h : Attributed (before ++ [.executed node])) (hnode : node.type? = some .businessAction)
    (y : Happening) : Attributed (before ++ [.executed node] ++ [y]) := by
  intro before' x after heq hx
  rcases List.append_eq_append_iff.mp heq with ⟨middle, rfl, hlater⟩ | ⟨middle, hearlier, hafter⟩
  · cases middle with
    | nil => exact ⟨before, node, by simp, hnode⟩
    | cons z middle => simp at hlater
  · cases middle with
    | nil => exact ⟨before, node, by simpa using hearlier.symm, hnode⟩
    | cons z middle =>
      obtain ⟨rfl, -⟩ := List.cons.inj hafter
      exact h before' x middle hearlier hx

theorem attributed_of_forall (h : ∀ x ∈ log, x.isAction = false) : Attributed log := by
  rintro before x after rfl hx
  have hfalse := h x (by simp)
  simp [hfalse] at hx

theorem Performs.call_cases (hp : Performs s c i p) {call : Call} {todo : List Instruction}
    (h : p.outcome = .call call todo) :
    (∃ run node q, call = .inquire run node q ∧ p.events = [.processed node.id] ∧
      p.executed = some node ∧ s.executor.begin node c.vars s.voiceMode = .ok (.asks q)) ∨
      ∃ r, call = .outward r ∧ ∀ tenant vars config, r ≠ .act tenant vars config := by
  cases hp with
  | inquires hturn hq =>
    obtain ⟨rfl, -⟩ := Outcome.call.inj h
    exact .inl ⟨_, _, _, rfl, rfl, rfl, hq⟩
  | requests hr =>
    obtain ⟨rfl, -⟩ := Outcome.call.inj h
    have hnode := Phase.fromNode_of_requests hr
    refine .inr ⟨_, rfl, ?_⟩
    rintro tenant vars config rfl
    exact hnode
  | pauses hcomes hreached =>
    obtain ⟨rfl, -⟩ := Outcome.call.inj h
    exact .inr ⟨_, rfl, by simp⟩
  | lacksStart | exceeds | sends | closes =>
    obtain ⟨rfl, -⟩ := Outcome.call.inj h
    exact .inr ⟨_, rfl, by simp⟩
  | _ => nomatch h

theorem Memory.isAction_of_mem_log {x : Happening} (hx : x ∈ m.log p) : x.isAction = false := by
  rcases Memory.mem_log hx with ⟨e, c, rfl⟩ | ⟨n, rfl⟩ <;> rfl

theorem State.carryOut_attributed (hp : Performs s st.memory.context i p) (op : Nat)
    (rest : List Instruction) : Attributed (st.carryOut s op rest p).2 := by
  obtain ⟨last, hlast, hcases⟩ := State.carryOut_log s st op rest p
  have hlog : Attributed (st.memory.log p) :=
    attributed_of_forall fun x hx => Memory.isAction_of_mem_log hx
  rw [hlast]
  rcases hcases with rfl | ⟨call, todo, houtcome, rfl⟩ | ⟨e, -, rfl⟩
  · exact hlog.append (attributed_of_forall (by simp))
  · rcases hp.call_cases houtcome with
      ⟨run, node, q, rfl, hevents, hexecuted, hq⟩ | ⟨r, rfl, hr⟩
    · rcases Executor.begin_asks hq with ⟨d, prompt, -, rfl⟩ | ⟨d, hbody, rfl⟩
      · exact hlog.append (attributed_of_forall (by simp [Happening.isAction, Setup.requestOf]))
      · -- the log of the instruction ends with the execution of the action
        have htype : node.type? = some .businessAction := by simp [Node.type?, hbody, Body.type?]
        simp only [Memory.log, hexecuted, Option.toList_some, List.map_cons, List.map_nil] at hlog ⊢
        exact hlog.snoc htype _
    · refine hlog.append (attributed_of_forall fun x hx => ?_)
      obtain rfl := List.mem_singleton.mp hx
      cases r with
      | act tenant vars config => exact absurd rfl (hr _ _ _)
      | _ => rfl
  · exact hlog.append (attributed_of_forall (by simp [Happening.isAction]))

theorem Course.attributed (course : Course s Unrestored {} log st) : Attributed log := by
  refine course.along (P := fun log _ => Attributed log) (attributed_of_forall (by simp)) ?_
  intro log st m st' more course hm hmakes h
  refine h.append ?_
  cases hmakes with
  | passes hmemory hholder hlog =>
    refine attributed_of_forall fun x hx => ?_
    cases hlog x hx <;> rfl
  | acts hbefore => exact State.carryOut_attributed (perform_performs _) _ _
  | _ => exact attributed_of_forall (by simp [Happening.isAction])

/-- Between two executions of a node the cursor has come to the node again, so that its executions do
not outnumber the arrivals. An adapter is only called directly after the execution of an action, so
that its calls for a node do not outnumber the executions. -/
theorem executes_once_per_arrival (course : Course s Unrestored {} log st) (id : String) :
    (∀ before between after n n', log = before ++ .executed n :: (between ++ .executed n' :: after) →
        n.id = id → n'.id = id → ∃ e ∈ events between, e.arrivesAt id = true) ∧
      executions id log ≤ arrivals id log ∧ actionsFor id log ≤ executions id log ∧
      ∀ before op tenant vars config after,
        log = before ++ .called op (.act tenant vars config) :: after →
          ∃ earlier n, before = earlier ++ [.executed n] ∧ n.type? = some .businessAction := by
  have hturns : TakesTurns id false log := (course.paid id).1
  refine ⟨?_, ?_, actionsFor_le, ?_⟩
  · rintro before between after n n' rfl hn hn'
    exact hturns.separated hn hn'
  · have hle := executions_add_due_le hturns
    simp only [Bool.toNat_false] at hle
    omega
  · intro before op tenant vars config after heq
    exact course.attributed before _ after heq rfl

/-- A session that performs one action again and again. -/
def acting : Setup where
  graph :=
    { nodes := [⟨"s", .start {}⟩, ⟨"a", .businessAction {}⟩]
      edges := [{ source := "s", target := "a" }, { source := "a", target := "a" }]
      sound := by decide }
  executor := { hasActions := true, config := { startDelay := .int 0, nodeDelay := .int 0 } }

/-- The action is performed twice; then its message cannot be delivered, and the session is run
again. -/
def toSecondAction : List Move :=
  [.begin (.start []), .tick, .tick, .tick, .tick, .tick, .tick, .tick, .tick,
    .answer 0 (.outcome { port := "success" }), .tick, .tick, .tick, .answer 0 (.value .null), .tick,
    .tick, .tick, .answer 0 (.outcome { port := "success" }), .tick, .tick, .tick,
    .answer 0 (.raised .noSuchMember), .begin .run, .tick, .tick, .tick]

theorem action_executes_once_per_arrival :
    let log := (State.steps acting {} toSecondAction).2
    executions "a" log = 2 ∧ arrivals "a" log = 2 ∧ actionsFor "a" log = 2 ∧
      executions "a" log ≤ arrivals "a" log := by
  have course : Course acting Unrestored {} _ (State.steps acting {} toSecondAction).1 :=
    Course.of_steps toSecondAction
      (State.allows_of_forall (by simp [toSecondAction, Unrestored]))
  exact ⟨by decide +kernel, by decide +kernel, by decide +kernel,
    (executes_once_per_arrival course "a").2.1⟩

end Session

end ChatFlow
