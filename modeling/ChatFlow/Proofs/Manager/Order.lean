import ChatFlow.Proofs.Manager.Run
import ChatFlow.Proofs.Session.Playback

/-!
# The tables of a manager

A manager keeps three tables under the keys of its sessions: the number of the session, its flow and
its context. A `Ledger` says what they should be about: the flow that is run under each key, and the
graph that was registered for it when it was started. `Manager.Ordered` says that the tables agree
with a ledger, and `Ordered.after` that they do so along every run.

In the middle of a start they do not: the new session has taken its place, and the store still has
the context of the old one. The key of that session is `stale` until the first context of the new
one has been saved.
-/

namespace ChatFlow

open Session Simulation

namespace Manager

/-- What is run under each key: the flow, and the graph that was registered for it at its start. -/
abbrev Ledger := Table String (FlowId × FlowGraph)

variable {σ : Type}

/-- The ledger after a step. -/
def booked (m : Manager σ) (ledger : Ledger) : Step → Ledger
  | .demand ⟨a, .start flow _⟩ =>
    match m.registry.get? flow with
    | some graph => ledger.insert a.key (flow, graph)
    | none => ledger
  | .demand ⟨a, .finish⟩ => ledger.erase a.key
  | _ => ledger

/-- The ledger after steps. -/
def ledgerAfter (m : Manager σ) (ledger : Ledger) : List Step → Ledger
  | [] => ledger
  | x :: rest => (m.take x).1.ledgerAfter (m.booked ledger x) rest

/-- The tables of a manager between two steps agree with a ledger. What stands under a stale key is
not yet, or no longer, that of the session. -/
structure Ordered (stale : Option String) (m : Manager σ) (ledger : Ledger) : Prop where
  lived : m.stage.Lived
  atRest : m.stage.AtRest
  live_eq : ∀ k, (m.live.get? k).isSome = (ledger.get? k).isSome
  flows_eq : ∀ k, some k ≠ stale → m.flows.get? k = (ledger.get? k).map Prod.fst
  stored_eq : ∀ k, some k ≠ stale →
    (m.store.contexts.get? k).isSome = (ledger.get? k).isSome
  runs : ∀ k i, m.live.get? k = some i → ∃ s st, m.stage.sessions[i]? = some (s, st) ∧
    sessionKey s.tenant s.id = k ∧ (ledger.get? k).map Prod.snd = some s.graph ∧
    (some k ≠ stale → m.store.contexts.get? k = some st.memory.context)
  retired : ∀ j s st, m.stage.sessions[j]? = some (s, st) → (∀ k, m.live.get? k ≠ some j) →
    st.subscribed = false ∧ ∃ turn, st.memory.context = .initial turn

variable {m : Manager σ} {ledger : Ledger} {stale : Option String} {a : Address} {k : String}
  {i j : Nat} {s : Setup} {st : State} {c : Cue} {flow : FlowId} {vars : Fields}
  {graph : FlowGraph} {x : Step}

theorem Ordered.key_eq (h : Ordered stale m ledger) (hk : m.live.get? k = some i)
    (hi : m.stage.sessions[i]? = some (s, st)) : sessionKey s.tenant s.id = k := by
  obtain ⟨s', st', hsession, hkey, -⟩ := h.runs k i hk
  obtain ⟨rfl, -⟩ := Prod.mk.inj (Option.some.inj (hsession.symm.trans hi))
  exact hkey

theorem Ordered.keys_eq (h : Ordered stale m ledger) {k' : String} (hk : m.live.get? k = some i)
    (hk' : m.live.get? k' = some i) : k = k' := by
  obtain ⟨s, st, hsession, hkey, -⟩ := h.runs k i hk
  exact hkey.symm.trans (h.key_eq hk' hsession)

/-- The context of a session that is being run is stored under its key. -/
theorem Ordered.context_eq (h : Ordered none m ledger) (hk : m.live.get? k = some i)
    (hi : m.stage.sessions[i]? = some (s, st)) :
    m.store.contexts.get? k = some st.memory.context := by
  obtain ⟨s', st', hsession, -, -, hcontext⟩ := h.runs k i hk
  obtain ⟨-, rfl⟩ := Prod.mk.inj (Option.some.inj (hsession.symm.trans hi))
  exact hcontext (Option.some_ne_none k)

theorem Ordered.rebooked (h : Ordered none m ledger) {ledger' : Ledger}
    (hget : ∀ k, ledger'.get? k = ledger.get? k) (stale : Option String) :
    Ordered stale m ledger' := by
  refine ⟨h.lived, h.atRest, fun k => ?_, fun k _ => ?_, fun k _ => ?_, fun k i hi => ?_, h.retired⟩
  · rw [hget, h.live_eq]
  · rw [hget, h.flows_eq k (Option.some_ne_none k)]
  · rw [hget, h.stored_eq k (Option.some_ne_none k)]
  · obtain ⟨s, st, hsession, hkey, hgraph, hcontext⟩ := h.runs k i hi
    exact ⟨s, st, hsession, hkey, (hget k).symm ▸ hgraph,
      fun _ => hcontext (Option.some_ne_none k)⟩

/-! ## Cues -/

theorem Ordered.contextsOf_eq_nil (h : Ordered stale m ledger) (hends : m.stage.Ends i c)
    (hlive : c.IsReport ∨ ∃ k, m.live.get? k = some i)
    (hj : keyAt (m.stage.play i c).1 j = some k) (hother : m.live.get? k ≠ some j) :
    contextsOf j (m.stage.play i c).2.entries = [] := by
  obtain ⟨-, -, hleaves⟩ := Stage.play_leaves (h.atRest.accounted h.lived) h.atRest hends
  obtain ⟨⟨s', st'⟩, hafter, hkey⟩ := Option.map_eq_some_iff.mp hj
  have hlt : j < m.stage.sessions.length :=
    hleaves.length_eq ▸ (List.getElem?_eq_some_iff.mp hafter).1
  obtain ⟨s, st, hbefore⟩ : ∃ s st, m.stage.sessions[j]? = some (s, st) :=
    ⟨_, _, List.getElem?_eq_getElem hlt⟩
  obtain ⟨ms, -, hsame, -⟩ := hleaves.goes j s st hbefore
  obtain ⟨rfl, -⟩ := Prod.mk.inj (Option.some.inj (hsame.symm.trans hafter))
  have hdead : ∀ k', m.live.get? k' ≠ some j := by
    intro k' hk'
    obtain rfl : k' = k := (h.key_eq hk' hbefore).symm.trans hkey
    exact hother hk'
  refine (Stage.play_still h.atRest hbefore (h.retired j s st hbefore hdead).1 hends ?_).2
  rcases hlive with hreport | ⟨k', hk'⟩
  · exact .inr hreport
  · exact .inl fun heq => hdead k' (heq ▸ hk')

/-- When a cue for a session that is being run, or for all of them, has been played, the store has
the context of every session that is being run, unless this session is stale and shows nothing. -/
theorem Ordered.runs_play (h : Ordered stale m ledger) (hends : m.stage.Ends i c)
    (hlive : c.IsReport ∨ ∃ k, m.live.get? k = some i) (hj : m.live.get? k = some j)
    (hstale : some k = stale → contextsOf j (m.stage.play i c).2.entries ≠ []) :
    ∃ s st, (m.stage.play i c).1.sessions[j]? = some (s, st) ∧ sessionKey s.tenant s.id = k ∧
      (ledger.get? k).map Prod.snd = some s.graph ∧
      (m.play i c).1.store.contexts.get? k = some st.memory.context := by
  obtain ⟨-, -, hleaves⟩ := Stage.play_leaves (h.atRest.accounted h.lived) h.atRest hends
  obtain ⟨s, st, hsession, hkey, hgraph, hcontext⟩ := h.runs k j hj
  obtain ⟨log, course⟩ := h.lived j s st hsession
  obtain ⟨ms, -, hsame, hseen⟩ := hleaves.goes j s st hsession
  have hlast : (st.steps s ms).1.memory.context =
      latest st.memory.context (contextsOf j (m.stage.play i c).2.entries) := by
    have hallows : st.Allows s Anything ms := State.allows_of_forall fun _ _ _ => trivial
    rw [hseen]
    exact course.context_eq_last (.of_steps ms hallows)
  have hsaved : (m.stage.play i c).2.entries.filterMap
      (contextUnder? (m.stage.play i c).1 k) = contextsOf j (m.stage.play i c).2.entries := by
    refine saved_eq_contextsOf (by simp [keyAt, hsame, hkey]) fun j' hne hj' => ?_
    refine h.contextsOf_eq_nil hends hlive hj' fun heq => hne ?_
    exact Option.some.inj (heq.symm.trans hj)
  refine ⟨s, _, hsame, hkey, hgraph, ?_⟩
  rw [get?_play, hsaved, hlast]
  -- A stale key has the context of the session before until this one shows its own.
  by_cases hk : some k = stale
  · obtain ⟨last, hlast⟩ :=
      Option.ne_none_iff_exists'.mp (mt List.getLast?_eq_none_iff.mp (hstale hk))
    simp [latest, hlast]
  · rw [hcontext hk]
    cases hlast : (contextsOf j (m.stage.play i c).2.entries).getLast? <;> simp [latest, hlast]

/-- A cue for a session that is being run, or for all of them, leaves the tables in agreement. If a
key was stale, its session must have shown a context. -/
theorem Ordered.play (h : Ordered stale m ledger) (hends : m.stage.Ends i c)
    (hlive : c.IsReport ∨ ∃ k, m.live.get? k = some i)
    (hstale : ∀ k, some k = stale → m.flows.get? k = (ledger.get? k).map Prod.fst ∧
      ∃ j, m.live.get? k = some j ∧ contextsOf j (m.stage.play i c).2.entries ≠ []) :
    Ordered none (m.play i c).1 ledger := by
  obtain ⟨hafter, hrest, hleaves⟩ :=
    Stage.play_leaves (h.atRest.accounted h.lived) h.atRest hends
  have hruns := fun k j (hj : m.live.get? k = some j) =>
    h.runs_play hends hlive hj fun hk => by
      obtain ⟨-, j', hj', hshows⟩ := hstale k hk
      exact Option.some.inj (hj'.symm.trans hj) ▸ hshows
  have heq := play_eq m i c
  refine ⟨?_, ?_, ?_, ?_, fun k _ => ?_, ?_, fun j s st hj hdead => ?_⟩
  · rw [heq]
    exact hafter.lived
  · rw [heq]
    exact hrest
  · rw [heq]
    exact h.live_eq
  · intro k _
    rw [heq]
    by_cases hk : some k = stale
    · exact (hstale k hk).1
    · exact h.flows_eq k hk
  · cases hk : m.live.get? k with
    | some j =>
      obtain ⟨s, st, -, -, -, hcontext⟩ := hruns k j hk
      rw [hcontext, ← h.live_eq, hk]
      rfl
    | none =>
      have hfresh : some k ≠ stale := fun heq => by
        obtain ⟨-, j, hj, -⟩ := hstale k heq
        simp [hk] at hj
      have hnothing : (m.stage.play i c).2.entries.filterMap
          (contextUnder? (m.stage.play i c).1 k) = [] :=
        saved_eq_nil fun j hj => h.contextsOf_eq_nil hends hlive hj (by simp [hk])
      rw [get?_play, hnothing, List.getLast?_nil, Option.none_or]
      exact h.stored_eq k hfresh
  · intro k j hj
    rw [heq] at hj
    obtain ⟨s, st, hsession, hkey, hgraph, hcontext⟩ := hruns k j hj
    exact ⟨s, st, by rw [heq]; exact hsession, hkey, hgraph, fun _ => hcontext⟩
  · rw [heq] at hj hdead
    have hlt : j < m.stage.sessions.length :=
      hleaves.length_eq ▸ (List.getElem?_eq_some_iff.mp hj).1
    obtain ⟨s₀, st₀, hbefore⟩ : ∃ s st, m.stage.sessions[j]? = some (s, st) :=
      ⟨_, _, List.getElem?_eq_getElem hlt⟩
    have hgone := h.retired j s₀ st₀ hbefore hdead
    have hother : i ≠ j ∨ c.IsReport := by
      refine hlive.symm.imp ?_ id
      rintro ⟨k, hk⟩ rfl
      exact hdead k hk
    have hsame := (Stage.play_still h.atRest hbefore hgone.1 hends hother).1
    obtain ⟨rfl, rfl⟩ := Prod.mk.inj (Option.some.inj (hsame.symm.trans hj))
    exact hgone

/-! ## Starts and ends -/

theorem retire_eq (s : Setup) (st : State) :
    retire st = (st.steps s [.reset, .unsubscribe]).1 := rfl

theorem Ordered.discard (h : Ordered none m ledger) (key : String) :
    Ordered (some key) (m.discard key) (ledger.erase key) := by
  cases hlive : m.live.get? key with
  | none =>
    have hentry : ledger.get? key = none := by
      rw [← Option.isNone_iff_eq_none, ← Option.not_isSome, ← h.live_eq, hlive]
      rfl
    rw [discard_none hlive]
    refine h.rebooked (fun k => ?_) _
    rw [Table.get?_erase]
    split
    · rename_i heq
      rw [← heq, hentry]
    · rfl
  | some i =>
    obtain ⟨s, st, hsession, hkey, -, -⟩ := h.runs key i hlive
    have hst : st.AtRest := h.atRest.sessions _ (List.mem_of_getElem? hsession)
    rw [(discard_eq h.atRest hlive hsession).1]
    have hother : ∀ {k j}, k ≠ key → m.live.get? k = some j → j ≠ i := by
      rintro k j hk hj rfl
      exact hk (h.keys_eq hj hlive)
    refine ⟨retire_eq s st ▸ h.lived.replaced hsession _,
      h.atRest.replaced (Stage.atRest_with hst _ _), ?_, ?_, ?_, ?_, ?_⟩
    · intro k
      simp only [Table.get?_erase]
      split
      · rfl
      · exact h.live_eq k
    · intro k hk
      have hne : ¬ key = k := fun heq => hk (heq ▸ rfl)
      simpa [hne] using h.flows_eq k (Option.some_ne_none k)
    · intro k hk
      have hne : ¬ key = k := fun heq => hk (heq ▸ rfl)
      simpa [ContextStore.save, hkey, hne] using h.stored_eq k (Option.some_ne_none k)
    · intro k j hj
      have hne : ¬ key = k := by
        rintro rfl
        simp at hj
      have hj' : m.live.get? k = some j := by simpa [hne] using hj
      obtain ⟨s', st', hsession', hkey', hgraph, hcontext⟩ := h.runs k j hj'
      refine ⟨s', st', ?_, hkey', by simpa [hne] using hgraph, fun _ => ?_⟩
      · exact (Stage.replaced_other (hother (Ne.symm hne) hj')).trans hsession'
      · simpa [ContextStore.save, hkey, hne] using hcontext (Option.some_ne_none k)
    · intro j s' st' hj hdead
      by_cases hij : j = i
      · subst hij
        obtain ⟨rfl, rfl⟩ :=
          Prod.mk.inj (Option.some.inj ((Stage.replaced_self hsession).symm.trans hj))
        exact ⟨rfl, _, rfl⟩
      · have hj' : m.stage.sessions[j]? = some (s', st') :=
          (Stage.replaced_other hij).symm.trans hj
        refine h.retired j s' st' hj' fun k hk => ?_
        by_cases hkey' : key = k
        · subst hkey'
          exact hij (Option.some.inj (hk.symm.trans hlive))
        · exact hdead k (by simpa [hkey'] using hk)

theorem Ordered.live_discard (h : Ordered none m ledger) (key : String) :
    (m.discard key).live.get? key = none := by
  have hgone := (h.discard key).live_eq key
  simpa using hgone

theorem Ordered.enroll (h : Ordered none m ledger) (a : Address) (flow : FlowId)
    (graph : FlowGraph) :
    Ordered (some a.key) (m.enroll a flow graph) (ledger.insert a.key (flow, graph)) := by
  have hdiscarded := h.discard a.key
  have hget : ∀ {k}, a.key ≠ k → (ledger.insert a.key (flow, graph)).get? k =
      (ledger.erase a.key).get? k := fun hne => by simp [hne]
  have hold : ∀ {k j}, a.key ≠ k → (m.enroll a flow graph).live.get? k = some j →
      (m.discard a.key).live.get? k = some j := fun hne hj => by
    simpa [Manager.enroll, hne] using hj
  have hnew := live_enroll m a flow graph
  refine ⟨?_, ?_, ?_, ?_, ?_, ?_, ?_⟩
  · intro j s st hj
    rcases Stage.addSession_cases hj with hj | ⟨-, heq⟩
    · exact hdiscarded.lived j s st hj
    · obtain ⟨rfl, rfl⟩ := Prod.mk.inj heq
      exact ⟨[], .refl⟩
  · refine ⟨fun e he => ?_, hdiscarded.atRest.frames_eq, hdiscarded.atRest.arrivals_eq⟩
    rcases List.mem_append.mp he with he | he
    · exact hdiscarded.atRest.sessions e he
    · obtain rfl := List.mem_singleton.mp he
      exact ⟨rfl, rfl, rfl, rfl⟩
  · intro k
    by_cases hk : a.key = k
    · simp [Manager.enroll, hk]
    · rw [hget hk, ← hdiscarded.live_eq k]
      simp [Manager.enroll, hk]
  · intro k hk
    have hne : a.key ≠ k := fun heq => hk (heq ▸ rfl)
    rw [hget hne, ← hdiscarded.flows_eq k hk]
    simp [Manager.enroll, hne]
  · intro k hk
    have hne : a.key ≠ k := fun heq => hk (heq ▸ rfl)
    rw [hget hne, ← hdiscarded.stored_eq k hk]
    rfl
  · intro k j hj
    by_cases hk : a.key = k
    · subst hk
      obtain rfl : m.newcomer a = j := Option.some.inj (hnew.symm.trans hj)
      exact ⟨_, _, Stage.addSession_new _ _, rfl, by simp [setupFor], fun hne => absurd rfl hne⟩
    · obtain ⟨s, st, hsession, hkey, hgraph, hcontext⟩ := hdiscarded.runs k j (hold hk hj)
      exact ⟨s, st, Stage.addSession_old hsession _, hkey, by rw [hget hk]; exact hgraph,
        fun hne => hcontext hne⟩
  · intro j s st hj hdead
    rcases Stage.addSession_cases hj with hj | ⟨rfl, -⟩
    · refine hdiscarded.retired j s st hj fun k hk => ?_
      by_cases hne : a.key = k
      · subst hne
        simp [h.live_discard] at hk
      · exact hdead k (by simpa [Manager.enroll, hne] using hk)
    · exact absurd hnew (hdead a.key)

theorem start_shows {ms : List Move}
    (hrest : (State.steps s {} (.begin (.start vars) :: ms)).1.AtRest) :
    contexts (State.steps s {} (.begin (.start vars) :: ms)).2 ≠ [] := by
  suffices hbegins : ∀ (ms : List Move) (st : State) (log : List Happening),
      Course s Anything {} log st → st.holder = some ⟨0, [.start vars], none⟩ →
      (st.steps s ms).1.holder = none → contexts (st.steps s ms).2 ≠ [] by
    have hcourse : Course s Anything {} (State.step s {} (.begin (.start vars))).2
        (State.step s {} (.begin (.start vars))).1 := .single _ trivial
    have hlog : (State.step s {} (.begin (.start vars))).2 = [] := rfl
    simpa [State.steps, hlog] using hbegins ms _ _ hcourse rfl hrest.holder
  -- The operation has the session from the beginning, and only a tick makes it go on.
  intro ms
  induction ms with
  | nil =>
    intro st log course hholder hnone
    simp [State.steps, hholder] at hnone
  | cons mv ms ih =>
    intro st log course hholder hnone
    by_cases htick : mv = .tick
    · subst htick
      have hshown : contexts (st.step s .tick).2 ≠ [] := by
        simp only [State.step, State.tick_eq_carryOut hholder rfl, State.contexts_carryOut]
        have hp := perform_performs (s := s) (c := st.memory.context) (.start vars)
        generalize s.perform st.memory.context (.start vars) = p at hp
        cases hp <;> simp [Memory.applyAll, contexts, Happening.context?]
      simp [State.steps, hshown]
    · have hstays := State.holder_step hholder htick (course.makes mv)
      have hrest := ih _ _ (course.tail mv trivial) hstays hnone
      simp [State.steps, hrest]

theorem Ordered.finish (h : Ordered none m ledger) (a : Address) :
    Ordered none (m.finish a.tenant a.session) (ledger.erase a.key) := by
  have hdiscarded := h.discard a.key
  refine ⟨hdiscarded.lived, hdiscarded.atRest, hdiscarded.live_eq, fun k _ => ?_, fun k _ => ?_,
    fun k j hj => ?_, hdiscarded.retired⟩
  · show ((m.discard a.key).flows.erase a.key).get? k = _
    by_cases hk : a.key = k
    · simp [hk]
    · have hne : some k ≠ some a.key := fun heq => hk (Option.some.inj heq).symm
      rw [← hdiscarded.flows_eq k hne]
      simp [hk]
  · show (((m.discard a.key).store.contexts.erase a.key).get? k).isSome = _
    by_cases hk : a.key = k
    · simp [hk]
    · have hne : some k ≠ some a.key := fun heq => hk (Option.some.inj heq).symm
      rw [← hdiscarded.stored_eq k hne]
      simp [hk]
  · have hlive : (m.discard a.key).live.get? k = some j := hj
    have hk : a.key ≠ k := by
      rintro rfl
      simp [h.live_discard] at hlive
    have hne : some k ≠ some a.key := fun heq => hk (Option.some.inj heq).symm
    obtain ⟨s, st, hsession, hkey, hgraph, hcontext⟩ := hdiscarded.runs k j hlive
    refine ⟨s, st, hsession, hkey, hgraph, fun _ => ?_⟩
    show ((m.discard a.key).store.contexts.erase a.key).get? k = _
    rw [Table.get?_erase, if_neg hk]
    exact hcontext hne

theorem Ordered.start (h : Ordered none m ledger) (hgraph : m.registry.get? flow = some graph)
    (hends : m.Ends (.demand ⟨a, .start flow vars⟩)) :
    Ordered none (m.start a.tenant a.session flow vars).1 (ledger.insert a.key (flow, graph)) := by
  have henrolled := h.enroll a flow graph
  have hplays : (m.enroll a flow graph).stage.Ends (m.newcomer a) (.issue (.start vars)) :=
    hends graph hgraph
  have hlive := live_enroll m a flow graph
  rw [start_eq hgraph]
  refine henrolled.play hplays (.inr ⟨a.key, hlive⟩) fun k hk => ?_
  obtain rfl := Option.some.inj hk
  refine ⟨by simp [Manager.enroll], m.newcomer a, hlive, ?_⟩
  obtain ⟨ms, hsession, hshown⟩ := Stage.play_issue hplays (Stage.addSession_new _ _)
  obtain ⟨-, hrest, -⟩ :=
    Stage.play_leaves (henrolled.atRest.accounted henrolled.lived) henrolled.atRest hplays
  rw [hshown]
  exact start_shows (hrest.sessions _ (List.mem_of_getElem? hsession))

/-! ## Steps and runs -/

theorem Ordered.playFor (h : Ordered none m ledger) {wish : Wish} (hcue : wish.cue? = some c)
    (hends : m.Ends (.demand ⟨a, wish⟩)) :
    Ordered none (m.playFor a.tenant a.session c).1 ledger := by
  rw [playFor_eq]
  cases hlive : m.live.get? a.key with
  | none => exact h
  | some i => exact h.play (hends.cue hcue hlive) (.inr ⟨a.key, hlive⟩) (by simp)

/-- Every step that comes to an end leaves the tables in agreement. -/
theorem Ordered.take (h : Ordered none m ledger) (hends : m.Ends x) :
    Ordered none (m.take x).1 (m.booked ledger x) := by
  cases x with
  | demand d =>
    obtain ⟨a, wish⟩ := d
    cases wish with
    | start flow vars =>
      cases hgraph : m.registry.get? flow with
      | none =>
        have hsame : m.take (.demand ⟨a, .start flow vars⟩) = _ := start_unknown hgraph
        simp only [hsame, booked, hgraph]
        exact h
      | some graph =>
        simp only [booked, hgraph]
        exact h.start hgraph hends
    | finish => exact h.finish a
    | submit reply | transcript text | speechComplete | reset => exact h.playFor rfl hends
  | report => exact h.play hends (.inl trivial) (by simp)
  | register r =>
    exact ⟨h.lived, h.atRest, h.live_eq, h.flows_eq, h.stored_eq, h.runs, h.retired⟩

theorem Fresh.ordered (h : m.Fresh) : Ordered none m [] := by
  refine ⟨fun i s st hi => ?_, ⟨?_, h.frames_eq, h.arrivals_eq⟩, ?_, ?_, ?_, ?_, ?_⟩
  · simp [h.sessions_eq] at hi
  · simp [h.sessions_eq]
  · simp [h.live_eq]
  · simp [h.flows_eq]
  · simp [h.store_eq]
  · simp [h.live_eq]
  · simp [h.sessions_eq]

/-- The tables stay in agreement along every run. -/
theorem Ordered.after (h : Ordered none m ledger) {xs : List Step} (hends : m.EndAll xs) :
    Ordered none (m.after xs) (m.ledgerAfter ledger xs) := by
  induction xs generalizing m ledger with
  | nil => exact h
  | cons x rest ih => exact ih (h.take hends.1) hends.2

end Manager

end ChatFlow
