import ChatFlow.Proofs.Session.Reply
import ChatFlow.Proofs.Session.Request

/-!
# Resumptions

However many replies and reports of playbacks wait for a session, they consume each suspension at
most once: `suspension_consumed_once`. What consumes it was given to the session as a reply, or
reported as a playback, by an earlier move, and suits what the session waits for. A reply is kept
unchanged in the variable of the node that waits, and in no other.

The reason why nothing is consumed twice is in the context alone: only a suspension makes a session
wait for something, and whatever else happens to a session that waits, it either goes on waiting at
the same place or waits for nothing any more (`Context.foldl_waits`). Where an operation comes from
that would resume the session is an induction over the moves (`State.given_of_brings`).
-/

namespace ChatFlow

namespace Context

variable {c : Context} {es : List Event}

theorem apply_waits {e : Event} (he : ¬ e.Suspends) (h : (c.apply e).awaiting ≠ none) :
    (c.apply e).awaiting = c.awaiting ∧ (c.apply e).cursor = c.cursor := by
  cases e with
  | suspended reason choices => exact absurd trivial he
  | processed node => exact ⟨rfl, rfl⟩
  | variablesSet values => exact ⟨rfl, rfl⟩
  | _ => exact absurd rfl h

theorem foldl_waits (hes : ∀ e ∈ es, ¬ e.Suspends) (h : (es.foldl apply c).awaiting ≠ none) :
    (es.foldl apply c).awaiting = c.awaiting ∧ (es.foldl apply c).cursor = c.cursor := by
  induction es generalizing c with
  | nil => exact ⟨rfl, rfl⟩
  | cons e rest ih =>
    obtain ⟨hawaiting, hcursor⟩ :=
      ih (c := c.apply e) (fun e' he' => hes e' (List.mem_cons_of_mem _ he')) h
    have hfirst : (c.apply e).awaiting ≠ none := hawaiting ▸ h
    obtain ⟨hawaiting', hcursor'⟩ := apply_waits (hes e List.mem_cons_self) hfirst
    exact ⟨hawaiting.trans hawaiting', hcursor.trans hcursor'⟩

theorem foldl_awaiting_ne (h : c.status = .suspended → c.awaiting ≠ none) :
    (es.foldl apply c).status = .suspended → (es.foldl apply c).awaiting ≠ none := by
  induction es generalizing c with
  | nil => exact h
  | cons e rest ih =>
    refine ih ?_
    cases e with
    | started node vars =>
      intro hs
      simp only [apply] at hs
      split at hs <;> simp at hs
    | processed node => exact h
    | variablesSet values => exact h
    | _ => simp [apply, initial]

end Context

namespace Session

variable {s : Setup} {st st' : State} {m : Move} {ms : List Move} {op : Nat} {i : Instruction}
  {rest : List Instruction} {c : Context} {p : Performed}

/-! ## Operations that would resume a session -/

/-- Whether an instruction is there to resume a session. -/
def Instruction.resumes : Instruction → Bool
  | .accept _ => true
  | .acceptPlayback => true
  | _ => false

/-- The instruction to resume the session that a move brings. -/
def Move.brings? : Move → Option Instruction
  | .begin (.submit reply) => some (.accept reply)
  | .begin (.transcript reply) => some (.accept reply)
  | .begin .speechComplete => some .acceptPlayback
  | .notify => some .acceptPlayback
  | .notifyFromAfar => some .acceptPlayback
  | _ => none

/-- No saved context is adopted, and every reply is a text. -/
def Spoken (_ : State) (m : Move) : Prop :=
  (∀ c, m ≠ .restore c) ∧ ∀ reply, m.brings? = some (.accept reply) → ∃ text, reply = .str text

/-- The operations that wait for the session, for a message to be shown or for a note to arrive, each
with what it will do first. -/
def State.lined (st : State) : List (Nat × Instruction) :=
  st.queue ++ st.echoes.map (fun e => (e.1, .accept e.2)) ++
    st.scheduled.map fun op => (op, .acceptPlayback)

/-- An operation has yet to perform an instruction. -/
def State.Brings (st : State) (op : Nat) (i : Instruction) : Prop :=
  (∃ h, st.holder = some h ∧ h.op = op ∧ i ∈ h.agenda) ∨ (op, i) ∈ st.lined

/-- Among the moves there is the one that brought the instruction, and the operation was given its
number then. -/
def State.Given (s : Setup) (st : State) (ms : List Move) (op : Nat) (i : Instruction) : Prop :=
  ∃ earlier m later, ms = earlier ++ m :: later ∧ m.brings? = some i ∧
    (st.steps s earlier).1.nextOp = op

theorem Performs.resumes_mem (hp : Performs s c i p) :
    p.outcome.Leads (fun _ agenda => ∀ j ∈ agenda, j.resumes → j ∈ rest) rest := by
  have hgoes : ∀ todo : List Instruction, (∀ j ∈ todo, j.resumes = false) →
      ∀ j ∈ todo ++ rest, j.resumes → j ∈ rest := by
    intro todo htodo j hj hresumes
    rcases List.mem_append.mp hj with hj | hj
    · simp [htodo j hj] at hresumes
    · exact hj
  cases hp with
  | delivers =>
    refine hgoes _ fun j hj => ?_
    rcases delivery_cases hj with ⟨m, rfl⟩ | ⟨call, rfl⟩ | rfl | rfl <;> rfl
  | drops | ignores | halts | loses | abandons | discards | givesUp => simp [Outcome.Leads]
  | lacksWords | misnames | mismatches | breaksOff | stumbles | misleads | cannotSpeak
  | closesMute => trivial
  | _ => exact hgoes _ (by simp [Instruction.resumes])

namespace State.Brings

theorem of_acquire {k : Nat} {j : Instruction} (h : (st.acquire k j).Brings op i) :
    st.Brings op i ∨ k = op ∧ j = i := by
  unfold acquire at h
  split at h
  · rcases h with ⟨holder, hholder, rfl, hi⟩ | hlined
    · obtain rfl := Option.some.inj hholder
      exact .inr ⟨rfl, (List.mem_singleton.mp hi).symm⟩
    · exact .inl (.inr hlined)
  · rcases h with hholds | hlined
    · exact .inl (.inl hholds)
    · have hcases : (op, i) ∈ st.lined ∨ op = k ∧ i = j := by
        simp only [lined, List.mem_append, List.mem_singleton, Prod.mk.injEq] at hlined ⊢
        grind
      rcases hcases with hlined | ⟨rfl, rfl⟩
      · exact .inl (.inr hlined)
      · exact .inr ⟨rfl, rfl⟩

theorem of_submit {k : Nat} {reply : Value} (h : (st.submit k reply).1.Brings op i) :
    st.Brings op i ∨ k = op ∧ .accept reply = i := by
  unfold submit at h
  split at h
  · exact .inl h
  · exact h.of_acquire

theorem of_begin {operation : Operation} (hi : i.resumes)
    (h : (st.begin s operation).1.Brings op i) :
    st.Brings op i ∨ (Move.begin operation).brings? = some i ∧ st.nextOp = op := by
  cases operation with
  | start vars =>
    rcases h.of_acquire with h | ⟨-, rfl⟩
    · exact .inl h
    · nomatch hi
  | run =>
    rcases h.of_acquire with h | ⟨-, rfl⟩
    · exact .inl h
    · nomatch hi
  | submit reply =>
    rcases h.of_submit with h | ⟨hop, rfl⟩
    · exact .inl h
    · exact .inr ⟨rfl, hop⟩
  | transcript text =>
    simp only [begin] at h
    split at h
    · exact .inl h
    · rcases h with hholds | hlined
      · exact .inl (.inl hholds)
      · have hcases : (op, i) ∈ st.lined ∨ st.nextOp = op ∧ .accept text = i := by
          simp only [lined, List.map_append, List.map_cons, List.map_nil, List.mem_append,
            List.mem_singleton, Prod.mk.injEq] at hlined ⊢
          grind
        rcases hcases with hlined | ⟨hop, rfl⟩
        · exact .inl (.inr hlined)
        · exact .inr ⟨rfl, hop⟩
  | speechComplete =>
    rcases h.of_acquire with h | ⟨hop, rfl⟩
    · exact .inl h
    · exact .inr ⟨rfl, hop⟩

theorem of_holder {agenda agenda' : List Instruction} {call call' : Option Call} {k : Nat}
    (h : st'.Brings op i) (hafter : st'.holder = some ⟨k, agenda', call'⟩)
    (hlined : st'.lined = st.lined) (hholder : st.holder = some ⟨k, agenda, call⟩)
    (hmem : i ∈ agenda' → i ∈ agenda) : st.Brings op i := by
  rcases h with ⟨holder, hholder', rfl, hi⟩ | hmem'
  · obtain rfl := Option.some.inj (hafter.symm.trans hholder')
    exact .inl ⟨_, hholder, rfl, hmem hi⟩
  · exact .inr (hlined ▸ hmem')

theorem of_released (h : st'.Brings op i) (hafter : st'.holder = none)
    (hlined : st'.lined = st.lined) : st.Brings op i := by
  rcases h with ⟨holder, hholder, -⟩ | hmem
  · simp [hafter] at hholder
  · exact .inr (hlined ▸ hmem)

theorem of_answer {k : Nat} {reply : Reply} (hi : i.resumes)
    (h : (st.answer k reply).1.Brings op i) : st.Brings op i := by
  unfold answer at h
  split at h
  · rename_i found text hfound
    have hechoes : State.Brings { st with echoes := st.echoes.filter (·.1 ≠ k) } op i →
        st.Brings op i := by
      rintro (hholds | hlined)
      · exact .inl hholds
      · refine .inr ?_
        simp only [lined, List.mem_append, List.mem_map, List.mem_filter] at hlined ⊢
        grind
    dsimp only at h
    split at h
    · exact hechoes h
    · rcases h.of_submit with h | ⟨rfl, rfl⟩
      · exact hechoes h
      · have hfound' : (found, text) ∈ st.echoes := List.mem_of_find?_eq_some hfound
        have hop : found = k := by simpa using List.find?_some hfound
        subst hop
        exact .inr (List.mem_append_left _ (List.mem_append_right _ (List.mem_map_of_mem hfound')))
  · split at h
    · rename_i holder agenda call hholder
      split at h
      · exact h
      · rename_i hop
        obtain rfl : holder = k := by simpa using hop
        split at h
        · refine h.of_holder rfl rfl hholder fun hmem => ?_
          rcases List.mem_cons.mp hmem with rfl | hmem
          · nomatch hi
          · exact hmem
        · exact h.of_released rfl rfl
        · exact h.of_holder rfl rfl hholder id
    · exact h

theorem of_tick (hi : i.resumes) (h : (st.tick s).1.Brings op i) : st.Brings op i := by
  rcases tick_cases s st with heq | ⟨k, hholder, heq⟩ | ⟨k, j, rest, hholder, heq⟩
  · rwa [heq] at h
  · rw [heq] at h
    exact h.of_released rfl rfl
  · have hleads : (s.perform st.memory.context j).outcome.Leads
        (fun _ agenda => ∀ i ∈ agenda, i.resumes → i ∈ rest) rest :=
      (perform_performs j).resumes_mem
    rw [heq] at h
    unfold carryOut at h
    cases houtcome : (s.perform st.memory.context j).outcome with
    | fail e =>
      rw [houtcome] at h
      exact h.of_released rfl rfl
    | proceed todo | call call todo | stop =>
      rw [houtcome] at h hleads
      exact h.of_holder rfl rfl hholder fun hmem => List.mem_cons_of_mem _ (hleads i hmem hi)

theorem of_schedule (h : st.schedule.1.Brings op i) :
    st.Brings op i ∨ some Instruction.acceptPlayback = some i ∧ st.nextOp = op := by
  rcases h with hholds | hlined
  · exact .inl (.inl hholds)
  · have hcases : (op, i) ∈ st.lined ∨ st.nextOp = op ∧ .acceptPlayback = i := by
      simp only [schedule, lined, List.map_append, List.map_cons, List.map_nil, List.mem_append,
        List.mem_singleton, Prod.mk.injEq] at hlined ⊢
      grind
    rcases hcases with hlined | ⟨hop, rfl⟩
    · exact .inl (.inr hlined)
    · exact .inr ⟨rfl, hop⟩

theorem of_step (hi : i.resumes) (h : (st.step s m).1.Brings op i) :
    st.Brings op i ∨ m.brings? = some i ∧ st.nextOp = op := by
  cases m with
  | begin operation => exact of_begin hi h
  | answer k reply => exact .inl (of_answer hi h)
  | tick => exact .inl (of_tick hi h)
  | grant =>
    simp only [step] at h
    split at h
    · rename_i k first queue hnone hqueue
      refine .inl (.inr ?_)
      rcases h with ⟨holder, hholder, rfl, hmem⟩ | hlined
      · obtain rfl := Option.some.inj hholder
        obtain rfl := List.mem_singleton.mp hmem
        simp [lined, hqueue]
      · simp only [lined, hqueue, List.mem_append, List.mem_cons] at hlined ⊢
        grind
    · exact .inl h
  | arrive =>
    simp only [step] at h
    split at h
    · rename_i k later hscheduled
      rcases h.of_acquire with (hholds | hlined) | ⟨rfl, rfl⟩
      · exact .inl (.inl hholds)
      · refine .inl (.inr ?_)
        simp only [lined, hscheduled, List.map_cons, List.mem_append, List.mem_cons] at hlined ⊢
        grind
      · exact .inl (.inr (by simp [lined, hscheduled]))
    · exact .inl h
  | reset => exact .inl h
  | restore c => exact .inl h
  | notify =>
    simp only [step] at h
    split at h
    · exact h.of_schedule
    · exact .inl h
  | notifyFromAfar =>
    simp only [step] at h
    split at h
    · exact h.of_schedule
    · exact .inl h
  | unsubscribe => exact .inl h

end State.Brings

theorem State.given_of_brings (hi : i.resumes) (ms : List Move)
    (h : (st.steps s ms).1.Brings op i) : st.Brings op i ∨ State.Given s st ms op i := by
  induction ms generalizing st with
  | nil => exact .inl h
  | cons m rest ih =>
    rcases ih h with hnext | ⟨earlier, m', later, rfl, hbrings, hop⟩
    · rcases hnext.of_step hi with hbefore | ⟨hbrings, hop⟩
      · exact .inl hbefore
      · exact .inr ⟨[], m, rest, rfl, hbrings, hop⟩
    · exact .inr ⟨m :: earlier, m', later, rfl, hbrings, hop⟩

theorem State.not_brings_new : ¬ State.Brings {} op i := by
  rintro (⟨h, hholder, -⟩ | hlined)
  · simp at hholder
  · simp [lined] at hlined

/-! ## What is taken -/

/-- What a move takes: that with which the operation that holds the session would resume it, if the
move changes the session. -/
def State.taking? (s : Setup) (st : State) (m : Move) : Option Instruction :=
  match st.holder with
  | some ⟨_, i :: _, none⟩ =>
    if m = .tick ∧ i.resumes ∧ events (st.step s m).2 ≠ [] then some i else none
  | _ => none

/-- What moves take, in order. -/
def State.taken (s : Setup) (st : State) : List Move → List Instruction
  | [] => []
  | m :: rest => (st.taking? s m).toList ++ (st.step s m).1.taken s rest

/-- What consumes a suspension at a node, with the events that it leads to: a reply, unless a playback
is waited for, which is kept as it is in the variable of the node if it has one; and the end of a
playback that is waited for. No other variable changes. -/
inductive Consumes (node : Node) (reason : SuspendReason) (before after : Context) :
    Instruction → List Event → Prop
  | reply {reply : Value} {name : String} (hreason : reason ≠ .speechPlayback)
      (hname : replyVariable node = .ok name)
      (hvars : ∀ key, after.vars.get? key =
        if name ≠ "" ∧ key = name then some reply else before.vars.get? key) :
      Consumes node reason before after (.accept reply) (keeping name reply ++ [.resumed])
  | playback (hreason : reason = .speechPlayback) (hvars : after.vars = before.vars) :
      Consumes node reason before after .acceptPlayback [.resumed]

theorem resumed_not_mem_keeping (name : String) (reply : Value) :
    .resumed ∉ keeping name reply := fun h => keeping_setsVariables name reply _ h

theorem Consumes.count_resumed {node : Node} {reason : SuspendReason} {before after : Context}
    {es : List Event} (h : Consumes node reason before after i es) : es.count .resumed = 1 := by
  cases h with
  | reply =>
    rw [List.count_append, List.count_eq_zero.mpr (resumed_not_mem_keeping _ _)]
    rfl
  | playback => rfl

theorem vars_keeping (c : Context) (name : String) (reply : Value) (key : String) :
    ((keeping name reply).foldl Context.apply c).vars.get? key =
      if name ≠ "" ∧ key = name then some reply else c.vars.get? key := by
  by_cases hname : name = ""
  · simp [keeping, hname]
  · have hkeeping : keeping name reply = [.variablesSet [(name, reply)]] := if_neg (by simpa using hname)
    rw [hkeeping]
    show (c.vars.insert name reply).get? key = _
    rw [Table.get?_insert]
    by_cases hkey : key = name
    · simp [hkey, hname]
    · simp [hkey, Ne.symm hkey]

theorem replyPort_text (c : Context) (node : Node) (text : String) :
    ∃ port, replyPort c node (.str text) = .ok port := by
  unfold replyPort matchChoice
  split
  · split
    · exact ⟨_, rfl⟩
    · dsimp only
      split <;> exact ⟨_, rfl⟩
  · exact ⟨_, rfl⟩

theorem Performs.consumes (hp : Performs s c i p) (hi : i.resumes)
    (htext : ∀ reply, i = .accept reply → ∃ text, reply = .str text)
    (hawaiting : c.status = .suspended → c.awaiting ≠ none) :
    p.events = [] ∨ ∃ node reason, s.waitingNode? c = some node ∧ c.awaiting = some reason ∧
      Consumes node reason c (p.events.foldl Context.apply c) i p.events ∧
      (p.events.foldl Context.apply c).awaiting = none := by
  cases hp with
  | takes hwaits hname hport =>
    rename_i reply node name port
    obtain ⟨reason, hreason⟩ := Option.ne_none_iff_exists'.mp (hawaiting hwaits.suspended)
    have hspoken : reason ≠ .speechPlayback := by
      rintro rfl
      exact hwaits.awaiting_ne hreason
    refine .inr ⟨node, reason, hwaits.waiting, hreason, .reply hspoken hname fun key => ?_, ?_⟩
    · rw [List.foldl_append]
      exact vars_keeping c name reply key
    · rw [List.foldl_append]
      rfl
  | mismatches hwaits hname hport =>
    rename_i reply node name e
    obtain ⟨text, rfl⟩ := htext reply rfl
    obtain ⟨port, hport'⟩ := replyPort_text c node text
    exact nomatch hport'.symm.trans hport
  | resumes hnode hreason => exact .inr ⟨_, _, hnode, hreason, .playback rfl rfl, rfl⟩
  | drops | misnames | ignores => exact .inl rfl
  | _ => nomatch hi

theorem Performs.resumes_of_resumed (hp : Performs s c i p) (h : .resumed ∈ p.events) :
    i.resumes := by
  cases hp with
  | takes | mismatches | resumes => rfl
  | delivers =>
    split at h <;> simp at h
  | _ => simp at h

/-! ## Along all moves -/

/-- The replies that an operation still has to accept are texts, and a suspended session knows what
it waits for. -/
structure State.Listens (st : State) : Prop where
  text : ∀ h reply, st.holder = some h → .accept reply ∈ h.agenda → ∃ text, reply = .str text
  awaiting : st.memory.context.status = .suspended → st.memory.context.awaiting ≠ none

theorem State.listens (hallows : State.Allows s Spoken {} ms) :
    (State.steps s {} ms).1.Listens := by
  refine ⟨fun h reply hholder hmem => ?_, ?_⟩
  · have hbrings : (State.steps s {} ms).1.Brings h.op (.accept reply) :=
      .inl ⟨h, hholder, rfl, hmem⟩
    rcases State.given_of_brings rfl ms hbrings with hnew | ⟨earlier, m, later, rfl, hm, -⟩
    · exact absurd hnew State.not_brings_new
    · have hspoken := (State.allows_append.mp hallows).2.1
      exact hspoken.2 reply hm
  · have hcontext := (Course.of_steps ms hallows).context_eq fun _ c hm => hm.1 c rfl
    rw [hcontext]
    exact Context.foldl_awaiting_ne (by simp [Context.initial])

theorem State.of_taking? (h : st.taking? s m = some i) :
    m = .tick ∧ i.resumes ∧ (∃ op rest, st.holder = some ⟨op, i :: rest, none⟩) ∧
      events (st.step s m).2 ≠ [] := by
  unfold taking? at h
  split at h
  · rename_i op j rest hholder
    split at h
    · rename_i hcond
      obtain rfl := Option.some.inj h
      exact ⟨hcond.1, hcond.2.1, ⟨op, rest, hholder⟩, hcond.2.2⟩
    · simp at h
  · simp at h

theorem State.Listens.consumes (h : st.Listens) (htaking : st.taking? s m = some i) :
    ∃ node reason, s.waitingNode? st.memory.context = some node ∧
      st.memory.context.awaiting = some reason ∧
      Consumes node reason st.memory.context (st.step s m).1.memory.context i
        (events (st.step s m).2) ∧
      (st.step s m).1.memory.context.awaiting = none := by
  obtain ⟨rfl, hi, ⟨op, rest, hholder⟩, hevents⟩ := State.of_taking? htaking
  have htick : st.step s .tick = st.carryOut s op rest (s.perform st.memory.context i) :=
    tick_eq_carryOut hholder rfl
  have htext : ∀ reply, i = .accept reply → ∃ text, reply = .str text := by
    rintro reply rfl
    exact h.text _ reply hholder List.mem_cons_self
  rw [htick, events_carryOut] at hevents
  rw [htick, events_carryOut, carryOut_memory]
  exact ((perform_performs i).consumes hi htext h.awaiting).resolve_left hevents

theorem State.Listens.count_resumed (h : st.Listens) :
    (events (st.step s m).2).count .resumed = (st.taking? s m).toList.length := by
  cases htaking : st.taking? s m with
  | some i =>
    obtain ⟨node, reason, -, -, hconsumes, -⟩ := h.consumes htaking
    exact hconsumes.count_resumed
  | none =>
    refine List.count_eq_zero.mpr fun hmem => ?_
    rcases event_cases hmem with ⟨-, heq⟩ | ⟨rfl, op, j, rest, hholder, -, hperformed⟩
    · simp at heq
    · have hresumes := (perform_performs j).resumes_of_resumed hperformed
      have hne : events (st.step s .tick).2 ≠ [] := List.ne_nil_of_mem hmem
      simp [taking?, hholder, hresumes, hne] at htaking

theorem State.steps_snoc (s : Setup) (st : State) (ms : List Move) (m : Move) :
    (st.steps s (ms ++ [m])).1 = ((st.steps s ms).1.step s m).1 := by
  simp [steps_append, steps]

variable {later : List Move}

theorem State.count_resumed_eq (ms : List Move) (hallows : State.Allows s Spoken {} (ms ++ later)) :
    (events ((State.steps s {} ms).1.steps s later).2).count .resumed =
      ((State.steps s {} ms).1.taken s later).length := by
  induction later generalizing ms with
  | nil => rfl
  | cons m rest ih =>
    have hsplit : ms ++ m :: rest = (ms ++ [m]) ++ rest := by simp
    have hlistens := State.listens (State.allows_append.mp hallows).1
    have hrest := ih (ms ++ [m]) (hsplit ▸ hallows)
    rw [steps_snoc] at hrest
    simp only [steps, taken, events_append, List.count_append, List.length_append]
    rw [hlistens.count_resumed, hrest]

theorem State.taken_eq_nil (ms : List Move) (hallows : State.Allows s Spoken {} (ms ++ later))
    (hnone : (State.steps s {} ms).1.memory.context.awaiting = none)
    (hlater : ∀ e ∈ events ((State.steps s {} ms).1.steps s later).2, ¬ e.Suspends) :
    (State.steps s {} ms).1.taken s later = [] := by
  induction later generalizing ms with
  | nil => rfl
  | cons m rest ih =>
    have hsplit : ms ++ m :: rest = (ms ++ [m]) ++ rest := by simp
    have hlistens := State.listens (State.allows_append.mp hallows).1
    have hm := (State.allows_append.mp hallows).2.1
    simp only [steps, events_append, List.forall_mem_append] at hlater
    have htaking : (State.steps s {} ms).1.taking? s m = none := by
      cases htaking : (State.steps s {} ms).1.taking? s m with
      | none => rfl
      | some i =>
        obtain ⟨node, reason, -, hreason, -⟩ := hlistens.consumes htaking
        simp [hnone] at hreason
    have hnext : ((State.steps s {} ms).1.step s m).1.memory.context.awaiting = none := by
      rw [step_context hm.1]
      refine Decidable.byContradiction fun hne => hne ?_
      exact (Context.foldl_waits hlater.1 hne).1.trans hnone
    have hrest := ih (ms ++ [m]) (hsplit ▸ hallows)
    rw [steps_snoc] at hrest
    simp [taken, htaking, hrest hnext hlater.2]

theorem State.taken_length_le (ms : List Move) (hallows : State.Allows s Spoken {} (ms ++ later))
    (hlater : ∀ e ∈ events ((State.steps s {} ms).1.steps s later).2, ¬ e.Suspends) :
    ((State.steps s {} ms).1.taken s later).length ≤ 1 := by
  induction later generalizing ms with
  | nil => exact Nat.zero_le _
  | cons m rest ih =>
    have hsplit : ms ++ m :: rest = (ms ++ [m]) ++ rest := by simp
    have hlistens := State.listens (State.allows_append.mp hallows).1
    simp only [steps, events_append, List.forall_mem_append] at hlater
    cases htaking : (State.steps s {} ms).1.taking? s m with
    | none =>
      have hrest := ih (ms ++ [m]) (hsplit ▸ hallows)
      rw [steps_snoc] at hrest
      simpa [taken, htaking] using hrest hlater.2
    | some i =>
      obtain ⟨node, reason, -, -, -, hnone⟩ := hlistens.consumes htaking
      have hrest := State.taken_eq_nil (ms ++ [m]) (hsplit ▸ hallows)
      rw [steps_snoc] at hrest
      simp [taken, htaking, hrest hnone hlater.2]

theorem waitingNode?_congr {c c' : Context} (h : c'.cursor = c.cursor) :
    s.waitingNode? c' = s.waitingNode? c := by
  simp [Setup.waitingNode?, h]

theorem State.awaiting_of_suspended {reason : SuspendReason} {choices : List ChoiceOption}
    (h : .suspended reason choices ∈ events (st.step s m).2) :
    (st.step s m).1.memory.context.awaiting = some reason := by
  rcases event_cases h with ⟨-, heq⟩ | ⟨-, op, i, rest, -, heq, hmem⟩
  · simp at heq
  · obtain ⟨n, -, hevents, -⟩ := (perform_performs i).of_suspended hmem
    simp [heq, Memory.after, hevents, Context.apply]

/-- However many replies and playbacks come, and in whatever order, a suspension is consumed at most
once. Until the session is suspended again, every resumption is by something that is taken, and at
most one thing is taken: a reply if the session was suspended for an input or a choice, a playback if
it was suspended for one. It was brought by an earlier move and holds the session when it is taken.
The reply is kept unchanged in the variable of the node that was suspended, and no other variable
changes; whatever is not taken changes nothing. -/
theorem suspension_consumed_once (hallows : State.Allows s Spoken {} (ms ++ m :: later))
    {reason : SuspendReason} {choices : List ChoiceOption}
    (hsuspends : .suspended reason choices ∈ events ((State.steps s {} ms).1.step s m).2)
    (hlater : ∀ e ∈ events (((State.steps s {} ms).1.step s m).1.steps s later).2, ¬ e.Suspends) :
    let waiting := ((State.steps s {} ms).1.step s m).1
    (events (waiting.steps s later).2).count .resumed = (waiting.taken s later).length ∧
      (waiting.taken s later).length ≤ 1 ∧
      ∀ earlier m' rest i, later = earlier ++ m' :: rest →
        (waiting.steps s earlier).1.taking? s m' = some i →
          let st := (waiting.steps s earlier).1
          ∃ node op, s.waitingNode? waiting.memory.context = some node ∧
            Consumes node reason st.memory.context (st.step s m').1.memory.context i
              (events (st.step s m').2) ∧
            (∃ agenda, st.holder = some ⟨op, i :: agenda, none⟩) ∧
            State.Given s {} (ms ++ m :: earlier) op i := by
  have hsplit : ms ++ m :: later = (ms ++ [m]) ++ later := by simp
  rw [hsplit] at hallows
  have hcount := State.count_resumed_eq (ms ++ [m]) hallows
  have hle := State.taken_length_le (ms ++ [m]) hallows
  rw [State.steps_snoc] at hcount hle
  refine ⟨hcount, hle hlater, ?_⟩
  rintro earlier m' rest i rfl htaking
  have hsplit' : (ms ++ [m]) ++ (earlier ++ m' :: rest) = (ms ++ m :: earlier) ++ m' :: rest := by
    simp
  have hallows' := (State.allows_append.mp (hsplit' ▸ hallows)).1
  have hsteps : (State.steps s {} (ms ++ m :: earlier)).1 =
      (((State.steps s {} ms).1.step s m).1.steps s earlier).1 := by
    simp [State.steps_append, State.steps]
  have hlistens := State.listens hallows'
  rw [hsteps] at hlistens
  obtain ⟨node, reason', hnode, hreason', hconsumes, -⟩ := hlistens.consumes htaking
  obtain ⟨-, hi, ⟨op, agenda, hholder⟩, -⟩ := State.of_taking? htaking
  -- the session still waits at the node where it was suspended, for the same thing
  have hcontext := (Course.of_steps earlier
    (State.allows_append.mp (State.allows_append.mp hallows).2).1).context_eq
      fun _ c hm => hm.1 c rfl
  rw [State.steps_snoc] at hcontext
  rw [State.steps_append, events_append] at hlater
  have hkept := Context.foldl_waits
    (c := ((State.steps s {} ms).1.step s m).1.memory.context)
    (fun e he => hlater e (List.mem_append_left _ he))
    (by rw [← hcontext, hreason']; simp)
  rw [← hcontext, State.awaiting_of_suspended hsuspends, hreason'] at hkept
  obtain rfl : reason' = reason := Option.some.inj hkept.1
  have hbrings : (State.steps s {} (ms ++ m :: earlier)).1.Brings op i := by
    rw [hsteps]
    exact .inl ⟨_, hholder, rfl, List.mem_cons_self⟩
  have hgiven := (State.given_of_brings hi _ hbrings).resolve_left State.not_brings_new
  exact ⟨node, op, (waitingNode?_congr hkept.2).symm.trans hnode, hconsumes, ⟨agenda, hholder⟩,
    hgiven⟩

/-- A session that asks the user one question. -/
def asking : Setup where
  graph :=
    { nodes := [⟨"s", .start {}⟩, ⟨"q", .input { question := "Name?", variableName := "name" }⟩]
      edges := [{ source := "s", target := "q" }]
      sound := by decide }
  executor := { config := { startDelay := .int 0, nodeDelay := .int 0 } }

/-- Two replies and the end of a playback wait for the session while it asks for input, and get it
one after the other. -/
def toThirdAnswer : List Move :=
  [.tick, .begin (.submit (.str "Ana")), .begin (.submit (.str "Bo")), .begin .speechComplete,
    .answer 0 (.value .null), .tick, .tick, .grant, .tick, .tick, .answer 1 (.value .null), .tick,
    .tick, .tick, .tick, .grant, .tick, .tick, .grant, .tick, .tick]

theorem second_reply_is_not_taken :
    let waiting := ((State.steps asking {} toDelivered).1.step asking .tick).1
    .suspended .textInput [] ∈ events ((State.steps asking {} toDelivered).1.step asking .tick).2 ∧
      waiting.taken asking toThirdAnswer = [.accept (.str "Ana")] ∧
      (waiting.taken asking toThirdAnswer).length ≤ 1 ∧
      (events (waiting.steps asking toThirdAnswer).2).count .resumed = 1 := by
  have hallows : State.Allows asking Spoken {} (toDelivered ++ .tick :: toThirdAnswer) :=
    State.allows_of_forall
      (by simp [toDelivered, toQuestion, toThirdAnswer, Spoken, Move.brings?])
  have hsuspends : .suspended .textInput [] ∈
      events ((State.steps asking {} toDelivered).1.step asking .tick).2 := by decide
  have hevents : events
      (((State.steps asking {} toDelivered).1.step asking .tick).1.steps asking toThirdAnswer).2 =
        [.variablesSet [("name", .str "Ana")], .resumed, .terminated] := by decide
  have htaken : ((State.steps asking {} toDelivered).1.step asking .tick).1.taken asking
      toThirdAnswer = [.accept (.str "Ana")] := by decide
  obtain ⟨hcount, hle, -⟩ := suspension_consumed_once hallows hsuspends
    (by rw [hevents]; simp [Event.Suspends])
  exact ⟨hsuspends, htaken, hle, by rw [hcount, htaken]; rfl⟩

end Session

end ChatFlow
