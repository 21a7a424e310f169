import ChatFlow.Proofs.Execution.Attempt
import ChatFlow.Proofs.Session.Origin
import ChatFlow.Proofs.Session.Silence
import ChatFlow.Proofs.Session.Visit

/-!
# Limits of attempts

A counter that nothing else sets bounds the successes of the actions that it counts, over the whole
life of a session: `attempts_limited`. However the session loops, suspends, fails and goes on, and
whatever the adapter comes back with, the counter holds what it began with and the successes so far.

The variables do not change between the check of an action and the success that is counted
(`Setup.Upholds`): a question, its answer and the result that comes of it all belong to the variables
as they are. So one success adds one to the very number that was found to be under the limit.
-/

namespace ChatFlow

open ActionData

/-- Whether an event sets a variable of a session that goes on. -/
def Event.sets (k : String) : Event → Bool
  | .variablesSet values => values.has k
  | _ => false

theorem Context.get?_foldl {c : Context} {k : String} {es : List Event}
    (hes : ∀ e ∈ es, ¬ e.BeginsAnew ∧ e.sets k = false) :
    (es.foldl Context.apply c).vars.get? k = c.vars.get? k := by
  induction es generalizing c with
  | nil => rfl
  | cons e rest ih =>
    obtain ⟨⟨hanew, hsets⟩, hrest⟩ := List.forall_mem_cons.mp hes
    refine (ih hrest).trans ?_
    cases e with
    | started node vars => exact absurd trivial hanew
    | reset => exact absurd trivial hanew
    | variablesSet values =>
      refine Table.get?_merge_of_not_mem (fun hmem => ?_) _
      obtain ⟨v, hv⟩ := Table.mem_keys_iff.mp hmem
      simp [Event.sets, Table.has, hv] at hsets
    | _ => rfl

namespace Session

/-- No saved context is adopted, and what an outcome sets is a dictionary. -/
def Unspoiled (_ : State) (m : Move) : Prop :=
  (∀ c, m ≠ .restore c) ∧ ∀ op reply, m = .answer op reply → reply.Proper

/-- The operation that holds the session is about to apply the success of an action that is counted
by a variable. -/
def State.succeeds (k : String) (st : State) : Bool :=
  match st.holder with
  | some ⟨_, .deliver _ ⟨id, .businessAction d⟩ r :: _, none⟩ =>
    d.tally id = k && r.transition = .advanceVia (some successPort)
  | _ => false

/-- Whether a move applies a success that is counted by a variable. -/
def State.scores (k : String) (st : State) (m : Move) : Bool :=
  m = .tick && st.succeeds k

/-- How many successes that are counted by a variable moves apply. -/
def State.successes (s : Setup) (k : String) (st : State) : List Move → Nat
  | [] => 0
  | m :: rest => (st.scores k m).toNat + (st.step s m).1.successes s k rest

/-- A move does not begin the session anew, and only sets a variable by a success that is counted by
it. -/
def Setup.Spares (s : Setup) (k : String) (st : State) (m : Move) : Prop :=
  ∀ e ∈ events (st.step s m).2, ¬ e.BeginsAnew ∧ (e.sets k → st.scores k m)

/-- The session goes on as it has begun, and nothing sets a variable but the successes that it
counts. -/
def Setup.Sparing (s : Setup) (k : String) (st : State) (m : Move) : Prop :=
  Unspoiled st m ∧ s.Spares k st m

instance (s : Setup) (k : String) (st : State) (m : Move) : Decidable (s.Spares k st m) :=
  inferInstanceAs (Decidable
    (∀ e ∈ events (st.step s m).2, ¬ e.BeginsAnew ∧ (e.sets k → st.scores k m)))

/-! ## What belongs to the variables -/

namespace Setup

variable (s : Setup) (vars : Fields)

/-- A node of the graph asks a question under the variables. -/
def Asks (n : Node) (q : Inquiry) : Prop :=
  n ∈ s.graph.nodes ∧ s.executor.begin n vars s.voiceMode = .ok (.asks q)

/-- A node of the graph has a result under the variables. -/
inductive Produces (n : Node) : ExecutionResult → Prop
  | alone {r : ExecutionResult} (h : s.executor.begin n vars s.voiceMode = .ok (.done r)) :
      Produces n r
  | told {r : ExecutionResult} {q : Inquiry} {reply : Reply} (hq : s.Asks vars n q)
      (hreply : reply.Proper) (h : s.executor.conclude n.id q reply = .ok r) : Produces n r

/-- An instruction that is about a node belongs to the variables. -/
def Grounds : Instruction → Prop
  | .execute _ n => n ∈ s.graph.nodes
  | .conclude _ n q reply => s.Asks vars n q ∧ reply.Proper
  | .deliver _ n r => s.Produces vars n r
  | _ => True

/-- What an operation has left to do, and the question that it waits for, belong to the variables. -/
structure Upholds (call : Option Call) (agenda : List Instruction) : Prop where
  grounds : ∀ i ∈ agenda, s.Grounds vars i
  asks : ∀ run n q, call = some (.inquire run n q) → s.Asks vars n q

end Setup

variable {s : Setup} {c : Context} {i : Instruction} {rest agenda : List Instruction}
  {p : Performed} {st : State} {m : Move} {k : String} {a : Int} {log : List Happening}

theorem Phase.grounds_rest (h : Phase none (i :: rest)) (vars : Fields) :
    ∀ j ∈ rest, s.Grounds vars j := by
  cases h with
  | leaving hc ht ho => cases ho <;> simp [Setup.Grounds]
  | closing hc ho => cases ho <;> simp [Setup.Grounds]
  | _ => simp [Setup.Grounds]

theorem grounds_delivery {run : Run} {n : Node} {r : ExecutionResult} (vars : Fields) :
    ∀ j ∈ delivery run n r, s.Grounds vars j := by
  intro j hj
  rcases delivery_cases hj with ⟨m, rfl⟩ | ⟨call, rfl⟩ | rfl | rfl <;> trivial

theorem upholds_of_todo {vars : Fields} {call : Option Call} {todo : List Instruction}
    (htodo : ∀ j ∈ todo, s.Grounds vars j) (hrest : ∀ j ∈ rest, s.Grounds vars j)
    (hcall : ∀ run n q, call = some (.inquire run n q) → s.Asks vars n q) :
    s.Upholds vars call (todo ++ rest) :=
  ⟨fun j hj => (List.mem_append.mp hj).elim (htodo j) (hrest j), hcall⟩

theorem Setup.Upholds.performs (h : s.Upholds c.vars none (i :: rest))
    (hphase : Phase none (i :: rest)) (hp : Performs s c i p) :
    p.outcome.Leads (s.Upholds (p.events.foldl Context.apply c).vars) rest := by
  have hfirst : s.Grounds c.vars i := h.grounds i List.mem_cons_self
  have hrest : ∀ vars, ∀ j ∈ rest, s.Grounds vars j := fun vars => hphase.grounds_rest vars
  cases hp with
  | pauses hcomes | hurries hcomes =>
    refine upholds_of_todo (fun j hj => ?_) (hrest _) (by simp)
    obtain rfl := List.mem_singleton.mp hj
    exact (FlowGraph.mem_of_node? hcomes.node_eq).1
  | executes hturn hr hbegin =>
    refine upholds_of_todo (fun j hj => ?_) (hrest _) (by simp)
    obtain rfl := List.mem_singleton.mp hj
    exact .alone hbegin
  | inquires hturn hq =>
    refine upholds_of_todo (by simp) (hrest _) fun run n q heq => ?_
    obtain ⟨rfl, rfl, rfl⟩ := Call.inquire.inj (Option.some.inj heq)
    exact ⟨hfirst, hq⟩
  | concludes hturn hr hconclude =>
    refine upholds_of_todo (fun j hj => ?_) (hrest _) (by simp)
    obtain rfl := List.mem_singleton.mp hj
    exact .told hfirst.1 hfirst.2 hconclude
  | delivers => exact upholds_of_todo (grounds_delivery _) (hrest _) (by simp)
  | drops | ignores | halts | loses | abandons | discards | givesUp => exact ⟨by simp, by simp⟩
  | lacksWords | misnames | mismatches | breaksOff | stumbles | misleads | cannotSpeak
  | closesMute => trivial
  | _ => exact upholds_of_todo (by simp [Setup.Grounds]) (hrest _) (by simp [Setup.sending])

/-! ## One move -/

/-- The counter stands at a number, and the operation that holds the session belongs to the
variables. -/
structure State.Tallies (s : Setup) (k : String) (a : Int) (st : State) : Prop where
  count : attempts st.memory.context.vars k = .ok a
  upholds : ∀ h, st.holder = some h → s.Upholds st.memory.context.vars h.call h.agenda

theorem vars_delivered (c : Context) (patch : Fields) :
    ((if patch.isEmpty then [] else [Event.variablesSet patch]).foldl Context.apply c).vars =
      c.vars.merge patch := by
  cases patch <;> rfl

theorem State.of_succeeds (h : st.succeeds k) :
    ∃ op run n d r rest, st.holder = some ⟨op, .deliver run n r :: rest, none⟩ ∧
      n.body = .businessAction d ∧ d.tally n.id = k ∧
      r.transition = .advanceVia (some successPort) := by
  unfold succeeds at h
  split at h
  · rename_i op run id d r rest hholder
    simp only [Bool.and_eq_true, decide_eq_true_eq] at h
    exact ⟨op, run, ⟨id, .businessAction d⟩, d, r, rest, hholder, rfl, h.1, h.2⟩
  · simp at h

theorem Setup.Produces.counts {vars : Fields} {n : Node} {d : ActionData} {r : ExecutionResult}
    (h : s.Produces vars n r) (hbody : n.body = .businessAction d) (htally : d.tally n.id ≠ "")
    (hsuccess : r.transition = .advanceVia (some successPort)) :
    n ∈ s.graph.nodes ∧ s.feasible r = r ∧ ∃ a, attempts vars (d.tally n.id) = .ok a ∧
      (∀ most, d.cap = some most → a < most) ∧
      ∀ vars' : Fields, attempts (vars'.merge r.patch) (d.tally n.id) = .ok (a + 1) := by
  cases h with
  | alone h => exact absurd hsuccess (Executor.ne_success_of_begin hbody h)
  | told hq hreply h =>
    rename_i q reply
    have hfeasible : s.feasible r = r := feasible_of_concludes (Executor.conclude_results h)
    obtain ⟨hmem, hbegin⟩ := hq
    obtain ⟨d', hbody', rfl⟩ : ∃ d', n.body = .businessAction d' ∧ q = .act d' vars := by
      rcases Executor.begin_asks hbegin with ⟨d', prompt, hreplies, -⟩ | hacts
      · simp [hbody] at hreplies
      · exact hacts
    obtain rfl := Body.businessAction.inj (hbody.symm.trans hbody')
    obtain ⟨-, -, hlimit⟩ := Executor.attempts_lt_of_asks hbegin
    obtain ⟨a, ha, hcounts⟩ := Executor.counts_of_conclude hreply h hsuccess htally
    refine ⟨hmem, hfeasible, a, ha, fun most hmost => ?_, hcounts⟩
    obtain ⟨a', ha', hlt⟩ := hlimit htally most hmost
    obtain rfl : a = a' := Except.ok.inj (ha.symm.trans ha')
    exact hlt

theorem State.Tallies.succeeds (h : st.Tallies s k a) (hk : k ≠ "") (hsucceeds : st.succeeds k) :
    (∃ n ∈ s.graph.nodes, ∃ d, n.body = .businessAction d ∧ d.tally n.id = k ∧
      ∀ most, d.cap = some most → a < most) ∧
      attempts (st.step s .tick).1.memory.context.vars k = .ok (a + 1) := by
  obtain ⟨op, run, n, d, r, rest, hholder, hbody, rfl, hsuccess⟩ := State.of_succeeds hsucceeds
  have hproduces : s.Produces st.memory.context.vars n r :=
    (h.upholds _ hholder).grounds _ List.mem_cons_self
  obtain ⟨hmem, hfeasible, a', ha', hlimit, hcounts⟩ := hproduces.counts hbody hk hsuccess
  obtain rfl : a = a' := Except.ok.inj (h.count.symm.trans ha')
  refine ⟨⟨n, hmem, d, hbody, rfl, hlimit⟩, ?_⟩
  have htick : st.step s .tick =
      st.carryOut s op rest (s.perform st.memory.context (.deliver run n r)) :=
    State.tick_eq_carryOut hholder rfl
  rw [htick, State.carryOut_memory]
  simp only [Memory.after, Setup.perform, hfeasible, vars_delivered]
  exact hcounts _

theorem State.Tallies.count_of_not_scores (h : st.Tallies s k a) (hm : s.Sparing k st m)
    (hscores : st.scores k m = false) :
    attempts (st.step s m).1.memory.context.vars k = .ok a := by
  obtain ⟨⟨hrestore, -⟩, hspares⟩ := hm
  have hget : (st.step s m).1.memory.context.vars.get? k = st.memory.context.vars.get? k := by
    rw [State.step_context hrestore]
    refine Context.get?_foldl fun e he => ⟨(hspares e he).1, ?_⟩
    exact Bool.eq_false_iff.mpr fun hsets => Bool.eq_false_iff.mp hscores ((hspares e he).2 hsets)
  have hcount := h.count
  unfold attempts at hcount ⊢
  rwa [hget]

theorem State.Tallies.upholds_step (course : Course s Unspoiled {} log st) (h : st.Tallies s k a)
    (hm : s.Sparing k st m) :
    ∀ h', (st.step s m).1.holder = some h' →
      s.Upholds (st.step s m).1.memory.context.vars h'.call h'.agenda := by
  obtain ⟨hunspoiled, hspares⟩ := hm
  have hmakes := course.makes m
  generalize hst' : (st.step s m).1 = st' at hmakes ⊢
  unfold Setup.Spares at hspares
  generalize hlog : (st.step s m).2 = more at hmakes hspares
  intro h' hh'
  cases hmakes with
  | passes hmemory hholder hlog => exact hmemory ▸ h.upholds h' (hholder ▸ hh')
  | opens hnone hi hmemory hholder =>
    obtain rfl := Option.some.inj (hholder.symm.trans hh')
    refine ⟨fun j hj => ?_, by simp⟩
    obtain rfl := List.mem_singleton.mp hj
    cases j <;> trivial
  | hears hbefore hmemory hholder =>
    obtain rfl := Option.some.inj (hholder.symm.trans hh')
    exact ⟨hmemory ▸ (h.upholds _ hbefore).grounds, by simp⟩
  | learns hbefore hmemory hholder =>
    obtain rfl := Option.some.inj (hholder.symm.trans hh')
    have hasks := h.upholds _ hbefore
    refine ⟨fun j hj => ?_, by simp⟩
    rw [hmemory]
    rcases List.mem_cons.mp hj with rfl | hj
    · exact ⟨hasks.asks _ _ _ rfl, hunspoiled.2 _ _ rfl⟩
    · exact hasks.grounds j hj
  | breaks hbefore hmemory hholder => simp [hholder] at hh'
  | ends hbefore hmemory hholder => simp [hholder] at hh'
  | acts hbefore =>
    rename_i op i rest
    have hleads := (h.upholds _ hbefore).performs (course.phase hbefore) (perform_performs i)
    have hafter := (State.leads_of_carryOut hleads hh').2
    rwa [State.carryOut_memory]
  | resets => exact absurd trivial (hspares .reset (List.mem_singleton_self _)).1
  | restores => exact absurd rfl (hunspoiled.1 _)

theorem State.Tallies.step (course : Course s Unspoiled {} log st) (h : st.Tallies s k a)
    (hk : k ≠ "") (hm : s.Sparing k st m) :
    (st.step s m).1.Tallies s k (a + (st.scores k m).toNat) := by
  refine ⟨?_, h.upholds_step course hm⟩
  cases hscores : st.scores k m with
  | true =>
    obtain ⟨rfl, hsucceeds⟩ : m = .tick ∧ st.succeeds k := by simpa [scores] using hscores
    exact (h.succeeds hk hsucceeds).2
  | false => simpa using h.count_of_not_scores hm hscores

theorem State.Tallies.called (course : Course s Unspoiled {} log st) (h : st.Tallies s k a)
    (hk : k ≠ "") {op : Nat} {tenant : String} {vars config : Fields}
    (hcalled : .called op (.act tenant vars config) ∈ (st.step s m).2) :
    ∃ run n d rest, st.holder = some ⟨op, .execute run n :: rest, none⟩ ∧ n ∈ s.graph.nodes ∧
      n.body = .businessAction d ∧
      (d.tally n.id = k → ∀ most, d.cap = some most → a < most) := by
  have hmakes := course.makes m
  generalize hst' : (st.step s m).1 = st' at hmakes
  generalize hlog : (st.step s m).2 = more at hmakes hcalled
  cases hmakes with
  | passes hmemory hholder hlog =>
    cases hlog _ hcalled
  | acts hbefore =>
    rename_i op' i rest
    obtain ⟨rfl, call, todo, houtcome, hrequest⟩ := State.called_of_mem_carryOut hcalled
    have hp : Performs s st.memory.context i (s.perform st.memory.context i) := perform_performs i
    rcases hp.call_cases houtcome with
      ⟨run, n, q, rfl, hevents, hexecuted, hbegin⟩ | ⟨r, rfl, hr⟩
    · rcases hp.executed_cases with hnone | ⟨run', n', rfl, -, -, hexecuted'⟩
      · simp [hexecuted] at hnone
      obtain rfl := Option.some.inj (hexecuted.symm.trans hexecuted')
      cases q with
      | generate d prompt => nomatch hrequest
      | act d vars' =>
        obtain ⟨hbody, -, hlimit⟩ := Executor.attempts_lt_of_asks hbegin
        refine ⟨run', n, d, rest, hbefore, (h.upholds _ hbefore).grounds _ List.mem_cons_self,
          hbody, ?_⟩
        rintro rfl most hmost
        obtain ⟨a', ha', hlt⟩ := hlimit hk most hmost
        obtain rfl : a = a' := Except.ok.inj (h.count.symm.trans ha')
        exact hlt
    · exact absurd hrequest.symm (hr _ _ _)
  | _ => simp at hcalled

/-! ## Along all moves -/

theorem Performs.of_started {start : Option String} {vars : Fields} (hp : Performs s c i p)
    (h : .started start vars ∈ p.events) :
    i = .start vars ∧ p.events = [.started start vars] := by
  have hkeeping : ∀ name reply, .started start vars ∉ keeping name reply := by
    intro name reply
    unfold keeping
    split <;> simp
  cases hp with
  | starts | lacksStart | lacksWords =>
    obtain ⟨rfl, rfl⟩ := Event.started.inj (List.mem_singleton.mp h)
    exact ⟨rfl, rfl⟩
  | takes => simp [hkeeping] at h
  | mismatches => exact absurd h (hkeeping _ _)
  | delivers => split at h <;> simp at h
  | _ => simp at h

theorem State.tallies_of_started (course : Course s Unspoiled {} log st) {start : Option String}
    {vars : Fields} (hstarted : .started start vars ∈ events (st.step s m).2)
    (hcount : attempts vars k = .ok a) : (st.step s m).1.Tallies s k a := by
  rcases State.event_cases hstarted with ⟨-, heq⟩ | ⟨-, op, i, rest, hholder, hstep, hmem⟩
  · simp at heq
  have hp : Performs s st.memory.context i (s.perform st.memory.context i) := perform_performs i
  obtain ⟨rfl, hevents⟩ := hp.of_started hmem
  have hphase := course.phase hholder
  have hupholds : s.Upholds st.memory.context.vars none (.start vars :: rest) := by
    refine ⟨fun j hj => ?_, by simp⟩
    rcases List.mem_cons.mp hj with rfl | hj
    · trivial
    · exact hphase.grounds_rest _ j hj
  have hleads := hupholds.performs hphase hp
  refine ⟨?_, fun h' hh' => ?_⟩
  · rw [hstep, State.carryOut_memory]
    simpa [Memory.after, hevents, Context.apply] using hcount
  · rw [hstep] at hh' ⊢
    rw [State.carryOut_memory]
    exact (State.leads_of_carryOut hleads hh').2

/-- The counter holds what it began with and the successes so far. -/
theorem State.Tallies.steps (course : Course s Unspoiled {} log st) (h : st.Tallies s k a)
    (hk : k ≠ "") {ms : List Move} (hms : st.Allows s (s.Sparing k) ms) :
    (st.steps s ms).1.Tallies s k (a + st.successes s k ms) := by
  induction ms generalizing st log a with
  | nil => simpa [State.steps, State.successes] using h
  | cons m rest ih =>
    have hrest := ih (course.tail m hms.1.1) (h.step course hk hms.1) hms.2
    have hsum : a + (st.scores k m).toNat + ((st.step s m).1.successes s k rest : Nat) =
        a + (st.successes s k (m :: rest) : Nat) := by
      simp only [State.successes]
      omega
    rwa [hsum] at hrest

theorem State.Tallies.successes_le (course : Course s Unspoiled {} log st) (h : st.Tallies s k a)
    (hk : k ≠ "") {most : Int}
    (hmost : ∀ n ∈ s.graph.nodes, ∀ d, n.body = .businessAction d → d.tally n.id = k →
      ∀ limit, d.cap = some limit → limit ≤ most)
    {ms : List Move} (hms : st.Allows s (s.Sparing k) ms) :
    (st.successes s k ms : Int) ≤ max 0 (most - a) := by
  induction ms generalizing st log a with
  | nil => simp only [State.successes]; omega
  | cons m rest ih =>
    have hrest := ih (course.tail m hms.1.1) (h.step course hk hms.1) hms.2
    simp only [State.successes]
    cases hscores : st.scores k m with
    | false =>
      simp only [hscores, Bool.toNat_false] at hrest ⊢
      omega
    | true =>
      obtain ⟨-, hsucceeds⟩ : m = .tick ∧ st.succeeds k := by simpa [State.scores] using hscores
      obtain ⟨n, hmem, d, hbody, rfl, hlimit⟩ := (h.succeeds hk hsucceeds).1
      obtain ⟨limit, hcap⟩ := cap_of_tally hk
      have hlt : a < limit := hlimit limit hcap
      have hle : limit ≤ most := hmost n hmem d hbody rfl limit hcap
      simp only [hscores, Bool.toNat_true] at hrest ⊢
      omega

/-- The limit of attempts holds over a whole session. From a start on, and as long as nothing sets the
counter but the successes that it counts, there are no more of them than the largest limit of a node
that it counts leaves above its first value; the counter holds its first value and the successes so
far; and the adapter is never called for a node whose limit has been reached. -/
theorem attempts_limited (course : Course s Unspoiled {} log st) (hm : Unspoiled st m)
    {start : Option String} {vars : Fields}
    (hstarted : .started start vars ∈ events (st.step s m).2) (hk : k ≠ "")
    (hcount : attempts vars k = .ok a) {most : Int}
    (hmost : ∀ n ∈ s.graph.nodes, ∀ d, n.body = .businessAction d → d.tally n.id = k →
      ∀ limit, d.cap = some limit → limit ≤ most)
    {ms : List Move} (hms : (st.step s m).1.Allows s (s.Sparing k) ms) :
    let begun := (st.step s m).1
    (begun.successes s k ms : Int) ≤ max 0 (most - a) ∧
      ∀ earlier rest, ms = earlier ++ rest →
        attempts (begun.steps s earlier).1.memory.context.vars k =
            .ok (a + begun.successes s k earlier) ∧
          ∀ m' later op tenant vars' config, rest = m' :: later →
            .called op (.act tenant vars' config) ∈ ((begun.steps s earlier).1.step s m').2 →
              ∃ run n d agenda,
                (begun.steps s earlier).1.holder = some ⟨op, .execute run n :: agenda, none⟩ ∧
                n ∈ s.graph.nodes ∧ n.body = .businessAction d ∧
                (d.tally n.id = k → ∀ limit, d.cap = some limit →
                  a + begun.successes s k earlier < limit) := by
  have hnext : Course s Unspoiled {} (log ++ (st.step s m).2) (st.step s m).1 := .tail course m hm
  have htallies : (st.step s m).1.Tallies s k a := State.tallies_of_started course hstarted hcount
  refine ⟨htallies.successes_le hnext hk hmost hms, ?_⟩
  rintro earlier rest rfl
  obtain ⟨hearlier, -⟩ := State.allows_append.mp hms
  have hlater : ((st.step s m).1.steps s earlier).1.Tallies s k
      (a + (st.step s m).1.successes s k earlier) := htallies.steps hnext hk hearlier
  refine ⟨hlater.count, ?_⟩
  rintro m' later op tenant vars' config - hcalled
  have hcourse := hnext.trans (Course.of_steps earlier (hearlier.mono fun _ _ h => h.1))
  exact hlater.called hcourse hk hcalled

/-- A session that performs one action again and again, at most twice with success. -/
def limited : Setup where
  graph :=
    { nodes := [⟨"s", .start {}⟩, ⟨"a", .businessAction { maxAttempts := some 2 }⟩]
      edges := [{ source := "s", target := "a" }, { source := "a", target := "a" }]
      sound := by decide }
  executor := { hasActions := true, config := { startDelay := .int 0, nodeDelay := .int 0 } }

/-- From the start to the first node. -/
def onceBefore : State :=
  (State.steps limited {} [.begin (.start [("a_attempts", .str "1")])]).1

/-- The action succeeds, with an outcome that sets the counter itself, and is then refused. -/
def toRefusal : List Move :=
  [.tick, .tick, .tick, .tick, .tick, .tick, .tick,
    .answer 0 (.outcome
      { port := "success", outputs := { contextPatch := [("a_attempts", .int 7)] } }),
    .tick, .tick, .tick, .answer 0 (.value .null), .tick, .tick, .tick, .tick, .tick]

theorem second_success_is_last :
    let begun := (onceBefore.step limited .tick).1
    begun.successes limited "a_attempts" toRefusal = 1 ∧
      (begun.successes limited "a_attempts" toRefusal : Int) ≤ max 0 (2 - 1) ∧
      attempts (begun.steps limited toRefusal).1.memory.context.vars "a_attempts" =
        .ok (1 + begun.successes limited "a_attempts" toRefusal) := by
  have course : Course limited Unspoiled {} _ onceBefore :=
    Course.of_steps _ (State.allows_of_forall (by simp [Unspoiled]))
  have hstarted : .started (some "s") [("a_attempts", .str "1")] ∈
      events (onceBefore.step limited .tick).2 := by decide
  have hmost : ∀ n ∈ limited.graph.nodes, ∀ d, n.body = .businessAction d →
      d.tally n.id = "a_attempts" → ∀ limit, d.cap = some limit → limit ≤ 2 := by
    rintro n hn d hbody - limit hcap
    have hcases : n = ⟨"s", .start {}⟩ ∨ n = ⟨"a", .businessAction { maxAttempts := some 2 }⟩ := by
      simpa [limited] using hn
    rcases hcases with rfl | rfl
    · cases hbody
    · obtain rfl := Body.businessAction.inj hbody
      obtain rfl : 2 = limit := Option.some.inj hcap
      decide
  have hnull : (Reply.value .null).outcome? = none := by decide
  have hproper : State.Allows limited Unspoiled (onceBefore.step limited .tick).1 toRefusal := by
    refine State.allows_of_forall ?_
    simp [toRefusal, Unspoiled, Reply.Proper, hnull]
    simp [Reply.outcome?, Table.keys]
  have hspares : State.Allows limited (limited.Spares "a_attempts")
      (onceBefore.step limited .tick).1 toRefusal := by decide +kernel
  obtain ⟨hle, hcount⟩ := attempts_limited course (by simp [Unspoiled]) hstarted (by decide)
    (show attempts [("a_attempts", .str "1")] "a_attempts" = .ok 1 by decide) hmost
    (hproper.and hspares)
  exact ⟨by decide +kernel, hle, (hcount toRefusal [] (by simp)).1⟩

end Session

end ChatFlow
