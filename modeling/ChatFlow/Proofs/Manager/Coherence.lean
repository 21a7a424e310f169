import ChatFlow.Proofs.Manager.Ending

/-!
# A manager is coherent

`manager_stays_coherent` says that the tables of a manager agree after every step of every run, that
each session runs the graph that was registered for its flow when it was started, and that the
context in the store is the one that the session has. A session that was replaced or ended has been
reset, no longer listens, and is never heard of again (`Gone.take`).
-/

namespace ChatFlow

open Session Simulation

namespace Manager

variable {σ : Type}

/-- The session has been reset and no longer listens, and nothing in it is under way. -/
structure Retired (st : State) : Prop where
  atRest : st.AtRest
  subscribed_eq : st.subscribed = false
  context_eq : ∃ turn, st.memory.context = .initial turn

/-- The tables of a manager agree with each other and with a ledger. -/
structure Coherent (m : Manager σ) (ledger : Ledger) : Prop where
  live_keys : ∀ k, k ∈ m.live.keys ↔ k ∈ ledger.keys
  flow_keys : ∀ k, k ∈ m.flows.keys ↔ k ∈ ledger.keys
  stored_keys : ∀ k, k ∈ m.store.contexts.keys ↔ k ∈ ledger.keys
  runs : ∀ k i, m.live.get? k = some i → ∃ s st flow, m.stage.sessions[i]? = some (s, st) ∧
    sessionKey s.tenant s.id = k ∧ m.flows.get? k = some flow ∧
    ledger.get? k = some (flow, s.graph) ∧ m.store.contexts.get? k = some st.memory.context
  retired : ∀ j s st, m.stage.sessions[j]? = some (s, st) → (∀ k, m.live.get? k ≠ some j) →
    Retired st

variable {m : Manager σ} {ledger : Ledger} {stale : Option String} {i j : Nat} {c : Cue} {x : Step}
  {e : Setup × State}

theorem Ordered.coherent (h : Ordered none m ledger) : m.Coherent ledger := by
  have hkeys : ∀ {α : Type} (t : Table String α) k, k ∈ t.keys ↔ (t.get? k).isSome = true :=
    fun t k => by rw [Table.mem_keys_iff, Option.isSome_iff_exists]
  refine ⟨fun k => ?_, fun k => ?_, fun k => ?_, fun k i hi => ?_, fun j s st hj hdead => ?_⟩
  · rw [hkeys, hkeys, h.live_eq]
  · rw [hkeys, hkeys, h.flows_eq k (Option.some_ne_none k), Option.isSome_map]
  · rw [hkeys, hkeys, h.stored_eq k (Option.some_ne_none k)]
  · obtain ⟨s, st, hsession, hkey, hgraph, hstored⟩ := h.runs k i hi
    obtain ⟨⟨flow, graph⟩, hentry, rfl⟩ := Option.map_eq_some_iff.mp hgraph
    have hflow : m.flows.get? k = some flow := by
      rw [h.flows_eq k (Option.some_ne_none k), hentry]
      rfl
    exact ⟨s, st, flow, hsession, hkey, hflow, hentry, hstored (Option.some_ne_none k)⟩
  · obtain ⟨hdeaf, hreset⟩ := h.retired j s st hj hdead
    exact ⟨h.atRest.sessions _ (List.mem_of_getElem? hj), hdeaf, hreset⟩

/-! ## Sessions that are gone -/

/-- A session that is not run any more is as it was, and nothing is seen of it, whatever is done. -/
structure Gone (m : Manager σ) (j : Nat) (e : Setup × State) : Prop where
  session : m.stage.sessions[j]? = some e
  dead : ∀ k, m.live.get? k ≠ some j

theorem Gone.play (h : Gone m j e) (hordered : Ordered stale m ledger) (hends : m.stage.Ends i c)
    (hlive : c.IsReport ∨ ∃ k, m.live.get? k = some i) :
    Gone (m.play i c).1 j e ∧ contextsOf j (m.play i c).2.entries = [] := by
  have hother : i ≠ j ∨ c.IsReport := by
    refine hlive.symm.imp ?_ id
    rintro ⟨k, hk⟩ rfl
    exact h.dead k hk
  obtain ⟨hsame, hnothing⟩ := Stage.play_still hordered.atRest h.session
    (hordered.retired j e.1 e.2 h.session h.dead).1 hends hother
  rw [play_eq]
  exact ⟨⟨hsame, h.dead⟩, hnothing⟩

theorem Gone.discard (h : Gone m j e) (hordered : Ordered none m ledger) (key : String) :
    Gone (m.discard key) j e ∧ contextsOf j (m.discardSeen key) = [] := by
  cases hlive : m.live.get? key with
  | none =>
    rw [discard_none hlive]
    exact ⟨h, by simp [discardSeen, hlive, contextsOf]⟩
  | some i =>
    obtain ⟨s, st, hsession, -⟩ := hordered.runs key i hlive
    have hij : i ≠ j := fun heq => h.dead key (heq ▸ hlive)
    obtain ⟨hdiscard, hseen⟩ := discard_eq hordered.atRest hlive hsession
    rw [hdiscard, hseen]
    refine ⟨⟨?_, fun k hk => ?_⟩, by simp [contextsOf, Entry.contextOf?, hij]⟩
    · exact (Stage.replaced_other (Ne.symm hij)).trans h.session
    · rw [Table.get?_erase] at hk
      split at hk
      · cases hk
      · exact h.dead k hk

/-- Whatever is done, a session that is gone stays as it is, and nothing is seen of it. -/
theorem Gone.take (h : Gone m j e) (hordered : Ordered none m ledger) (hends : m.Ends x) :
    Gone (m.take x).1 j e ∧ contextsOf j (m.seen x) = [] := by
  cases x with
  | demand d =>
    obtain ⟨a, wish⟩ := d
    have hplays : ∀ c, wish.cue? = some c →
        Gone (m.playFor a.tenant a.session c).1 j e ∧
          contextsOf j (m.playFor a.tenant a.session c).2.entries = [] := fun c hcue => by
      rw [playFor_eq]
      cases hlive : m.live.get? a.key with
      | none => exact ⟨h, rfl⟩
      | some i => exact h.play hordered (hends.cue hcue hlive) (.inr ⟨a.key, hlive⟩)
    cases wish with
    | start flow vars =>
      cases hgraph : m.registry.get? flow with
      | none =>
        have hsame : m.start a.tenant a.session flow vars = _ := start_unknown hgraph
        have hunknown : (m.registry.get? flow).isSome = false := by
          simp [hgraph]
        simp only [Manager.take, meet, seen, hsame, hunknown]
        exact ⟨h, rfl⟩
      | some graph =>
        have hknown : (m.registry.get? flow).isSome = true := by
          simp [hgraph]
        obtain ⟨hgone, hseen⟩ := h.discard hordered a.key
        have henrolled : Gone (m.enroll a flow graph) j e := by
          refine ⟨Stage.addSession_old hgone.session _, fun k hk => ?_⟩
          -- The number of the new session has never been given to any other.
          by_cases hkey : a.key = k
          · have hlast : m.newcomer a = j := by simpa [enroll, newcomer, hkey] using hk
            have hlt : j < m.newcomer a := (List.getElem?_eq_some_iff.mp hgone.session).1
            omega
          · exact hgone.dead k (by simpa [enroll, hkey] using hk)
        have hlive := live_enroll m a flow graph
        obtain ⟨hafter, hnothing⟩ := henrolled.play (hordered.enroll a flow graph)
          (hends graph hgraph) (.inr ⟨a.key, hlive⟩)
        simp only [Manager.take, meet, seen, hknown, if_true, start_eq hgraph]
        refine ⟨hafter, ?_⟩
        rw [contextsOf, List.filterMap_append]
        exact List.append_eq_nil_iff.mpr ⟨hseen, hnothing⟩
    | finish =>
      obtain ⟨hgone, hseen⟩ := h.discard hordered a.key
      exact ⟨⟨hgone.session, hgone.dead⟩, hseen⟩
    | submit reply | transcript text | speechComplete | reset => exact hplays _ rfl
  | report => exact h.play hordered hends (.inl trivial)
  | register r => exact ⟨⟨h.session, h.dead⟩, rfl⟩

/-- All that can be seen of sessions during steps. -/
def seenIn (m : Manager σ) : List Step → List Entry
  | [] => []
  | x :: rest => m.seen x ++ (m.take x).1.seenIn rest

theorem Gone.after (h : Gone m j e) (hordered : Ordered none m ledger) {xs : List Step}
    (hends : m.EndAll xs) : Gone (m.after xs) j e ∧ contextsOf j (m.seenIn xs) = [] := by
  induction xs generalizing m ledger with
  | nil => exact ⟨h, rfl⟩
  | cons x rest ih =>
    obtain ⟨hgone, hseen⟩ := h.take hordered hends.1
    obtain ⟨hlast, hlater⟩ := ih hgone (hordered.take hends.1) hends.2
    refine ⟨hlast, ?_⟩
    rw [seenIn, contextsOf, List.filterMap_append]
    exact List.append_eq_nil_iff.mpr ⟨hseen, hlater⟩

/-- A manager, its sessions and its store stay in agreement. Let a manager that has not run anything
take any steps, all of which come to an end. Then the same keys have a session, a flow and a context
in the store; each session runs the graph that was registered for its flow when it was started, and
its context is the one in the store. A session that was replaced or ended has been reset and no
longer listens, and as long as further steps come to an end, it stays as it is and no context of it
is seen, so none is saved. To start an unknown flow fails and changes nothing at all. -/
theorem manager_stays_coherent (hfresh : m.Fresh) {xs : List Step} (hends : m.EndAll xs) :
    (m.after xs).Coherent (m.ledgerAfter [] xs) ∧
      (∀ j s st, (m.after xs).stage.sessions[j]? = some (s, st) →
        (∀ k, (m.after xs).live.get? k ≠ some j) →
        ∀ later, (m.after xs).EndAll later →
          ((m.after xs).after later).stage.sessions[j]? = some (s, st) ∧
            contextsOf j ((m.after xs).seenIn later) = []) ∧
      ∀ a flow vars, (m.after xs).registry.get? flow = none →
        (m.after xs).take (.demand ⟨a, .start flow vars⟩) =
          (m.after xs, ⟨[], some (.error (.unknownFlow flow.toValue))⟩) := by
  have hordered := hfresh.ordered.after hends
  refine ⟨hordered.coherent, fun j s st hj hdead later hlater => ?_, fun a flow vars hunknown =>
    start_unknown hunknown⟩
  obtain ⟨hgone, hseen⟩ := Gone.after ⟨hj, hdead⟩ hordered hlater
  exact ⟨hgone.session, hseen⟩

theorem desk_stays_coherent :
    desk.EndAll (visits.map .demand) ∧
      (desk.after (visits.map .demand)).Coherent [("acme:s-1", (.text "greet", greeting))] := by
  have hends := endAll_of_limited desk_fresh desk_limited (visits.map .demand)
  have hledger : desk.ledgerAfter [] (visits.map .demand) =
      [("acme:s-1", (.text "greet", greeting))] := by
    simp only [visits, List.map_cons, List.map_nil, ledgerAfter, booked, take, meet_registry]
    rfl
  exact ⟨hends, hledger ▸ (manager_stays_coherent desk_fresh hends).1⟩

end Manager

end ChatFlow
