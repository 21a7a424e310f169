import ChatFlow.Proofs.Manager.Ending
import ChatFlow.Proofs.Simulation.Alone

/-!
# Sessions of a manager do not interfere

The sessions of a manager share an executor, collaborators, a registry, a store and a stage. In text
mode none of them notices: `sessions_keep_apart` says that what comes of the demands for one session
is the same if nothing else is ever demanded.

The proof runs the manager with all demands beside one that meets the demands for one address only.
They have the same session there (`Manager.Paired`). A demand for this address finds the session
alone on both stages (`Stage.play_twins`), and a demand for another one spares it
(`Manager.Spares`).
-/

namespace ChatFlow

open Session Simulation

namespace Manager

variable {σ : Type}

/-- The demands for the session of an address. -/
def demandsOf (a : Address) (ds : List Demand) : List Demand :=
  ds.filter fun d => d.address = a

/-- What comes of a demand: all that can be seen meanwhile by one who does not know the numbers of
the sessions, and the result. -/
def outcome (m : Manager σ) (d : Demand) : Played :=
  ⟨(m.seen (.demand d)).map Entry.unnumbered, (m.meet d).2.result⟩

/-- What comes of those demands that are for the session of an address. -/
def outcomes (m : Manager σ) (a : Address) : List Demand → List Played
  | [] => []
  | d :: rest => (if d.address = a then [m.outcome d] else []) ++ (m.meet d).1.outcomes a rest

/-- Two managers have the same session at an address, or none. -/
inductive Paired (a : Address) (m m' : Manager σ) : Prop
  | absent (h : m.live.get? a.key = none) (h' : m'.live.get? a.key = none)
  | present {i j : Nat} {s : Setup} {st : State} (h : m.live.get? a.key = some i)
      (h' : m'.live.get? a.key = some j) (hi : m.stage.sessions[i]? = some (s, st))
      (hj : m'.stage.sessions[j]? = some (s, st))

/-- What has been done has not touched the session of a key. -/
structure Spares (k : String) (m m' : Manager σ) : Prop where
  live_eq : m'.live.get? k = m.live.get? k
  session_eq : ∀ i, m.live.get? k = some i → m'.stage.sessions[i]? = m.stage.sessions[i]?

variable {setup : ManagerSetup} {around : Surroundings σ} {m m' : Manager σ}
  {ledger ledger' : Ledger} {stale stale' : Option String} {a b : Address} {k key : String}
  {i j : Nat} {s : Setup} {st : State} {c : Cue} {wish : Wish} {flow : FlowId} {graph : FlowGraph}

theorem Furnished.mute (h : Furnished setup around m)
    (htext : setup.executor.config.voiceMode.isTruthy = false)
    (hi : m.stage.sessions[i]? = some (s, st)) : s.voiceMode = false := by
  rw [Setup.voiceMode, Setup.config, h.executor_eq i s st hi]
  exact htext

/-! ## The same session -/

namespace Paired

theorem current_eq (h : Paired a m m') : m'.current? a = m.current? a := by
  have hsession : ∀ m : Manager σ, m.current? a = (m.live.get? a.key).bind m.stage.context? :=
    fun _ => rfl
  cases h with
  | absent h h' => simp [hsession, h, h']
  | present h h' hi hj => simp [hsession, h, h', Stage.context?, Stage.state?, hi, hj]

/-- The same cue for the same session comes to the same. -/
theorem play (hordered : Ordered stale m ledger) (hordered' : Ordered stale' m' ledger')
    (hfurnished : Furnished setup around m) (hfurnished' : Furnished setup around m')
    (hsteady : around.Steady) (htext : setup.executor.config.voiceMode.isTruthy = false)
    (h : m.live.get? a.key = some i) (h' : m'.live.get? a.key = some j)
    (hi : m.stage.sessions[i]? = some (s, st)) (hj : m'.stage.sessions[j]? = some (s, st))
    (hc : ¬ c.IsReport) (hends : m.stage.Ends i c) :
    m'.stage.Ends j c ∧ (m'.play j c).2.unnumbered = (m.play i c).2.unnumbered ∧
      Paired a (m.play i c).1 (m'.play j c).1 := by
  obtain ⟨hends', hseen, ⟨st', hafter, hafter'⟩, -⟩ := Stage.play_twins hordered.atRest
    hordered.lived hordered'.atRest hordered'.lived
    (hfurnished'.around_eq.trans hfurnished.around_eq.symm) (hfurnished.around_eq ▸ hsteady)
    (hfurnished.mute htext hi) hi hj hc hends
  rw [play_eq, play_eq]
  exact ⟨hends', hseen, .present h h' hafter hafter'⟩

theorem discard (h : Paired a m m') (hordered : Ordered none m ledger)
    (hordered' : Ordered none m' ledger') :
    (m'.discardSeen a.key).map Entry.unnumbered = (m.discardSeen a.key).map Entry.unnumbered := by
  cases h with
  | absent h h' => simp [discardSeen, h, h']
  | present h h' hi hj =>
    rw [(discard_eq hordered.atRest h hi).2, (discard_eq hordered'.atRest h' hj).2]
    rfl

end Paired

/-! ## Other sessions -/

namespace Spares

theorem refl (k : String) (m : Manager σ) : Spares k m m := ⟨rfl, fun _ _ => rfl⟩

theorem trans {m'' : Manager σ} (h : Spares k m m') (h' : Spares k m' m'') : Spares k m m'' :=
  ⟨h'.live_eq.trans h.live_eq, fun i hi =>
    (h'.session_eq i (h.live_eq.trans hi)).trans (h.session_eq i hi)⟩

/-- A cue for the session of another key. -/
theorem play (hordered : Ordered stale m ledger) (hfurnished : Furnished setup around m)
    (hsteady : around.Steady) (htext : setup.executor.config.voiceMode.isTruthy = false)
    (hkey : key ≠ k) (hi : m.live.get? key = some i) (hc : ¬ c.IsReport)
    (hends : m.stage.Ends i c) : Spares k m (m.play i c).1 := by
  obtain ⟨s, st, hsession, -⟩ := hordered.runs key i hi
  obtain ⟨-, -, -, hothers⟩ := Stage.play_twins hordered.atRest hordered.lived hordered.atRest
    hordered.lived rfl (hfurnished.around_eq ▸ hsteady) (hfurnished.mute htext hsession) hsession
    hsession hc hends
  rw [play_eq]
  exact ⟨rfl, fun j hj => hothers j fun heq => hkey (hordered.keys_eq hi (heq ▸ hj))⟩

theorem discard (hordered : Ordered none m ledger) (hkey : key ≠ k) :
    Spares k m (m.discard key) := by
  cases hlive : m.live.get? key with
  | none =>
    rw [discard_none hlive]
    exact .refl k m
  | some i =>
    obtain ⟨s, st, hsession, -⟩ := hordered.runs key i hlive
    rw [(discard_eq hordered.atRest hlive hsession).1]
    refine ⟨by simp [hkey], fun j hj => ?_⟩
    have hij : i ≠ j := by
      rintro rfl
      exact hkey (hordered.keys_eq hlive hj)
    exact Stage.replaced_other (Ne.symm hij)

theorem enroll (hordered : Ordered none m ledger) (hkey : b.key ≠ k) (flow : FlowId)
    (graph : FlowGraph) : Spares k m (m.enroll b flow graph) := by
  have hdiscarded : Spares k m (m.discard b.key) := .discard hordered hkey
  refine hdiscarded.trans ⟨by simp [Manager.enroll, hkey], fun j hj => ?_⟩
  obtain ⟨s, st, hsession, -⟩ := (hordered.discard b.key).runs k j hj
  rw [hsession]
  exact Stage.addSession_old hsession _

theorem meet (hordered : Ordered none m ledger) (hfurnished : Furnished setup around m)
    (hsteady : around.Steady) (htext : setup.executor.config.voiceMode.isTruthy = false)
    (hkey : b.key ≠ k) (hends : m.Ends (.demand ⟨b, wish⟩)) :
    Spares k m (m.meet ⟨b, wish⟩).1 := by
  have hplays : ∀ c, wish.cue? = some c →
      Spares k m (m.playFor b.tenant b.session c).1 := fun c hcue => by
    rw [playFor_eq]
    cases hlive : m.live.get? b.key with
    | none => exact .refl k m
    | some i =>
      exact .play hordered hfurnished hsteady htext hkey hlive (Wish.not_isReport hcue)
        (hends.cue hcue hlive)
  cases wish with
  | start flow vars =>
    simp only [Manager.meet]
    cases hgraph : m.registry.get? flow with
    | none =>
      rw [start_unknown hgraph]
      exact .refl k m
    | some graph =>
      rw [start_eq hgraph]
      exact (Spares.enroll hordered hkey flow graph).trans
        (.play (hordered.enroll b flow graph) (hfurnished.enroll hordered b flow graph)
          hsteady htext hkey (live_enroll m b flow graph) id (hends graph hgraph))
  | finish =>
    have hdiscarded : Spares k m (m.discard b.key) := .discard hordered hkey
    exact ⟨hdiscarded.live_eq, hdiscarded.session_eq⟩
  | submit reply | transcript text | speechComplete | reset => exact hplays _ rfl

end Spares

theorem Paired.spared {m'' : Manager σ} (h : Paired a m m') (hspares : Spares a.key m m'') :
    Paired a m'' m' := by
  cases h with
  | absent h h' => exact .absent (hspares.live_eq.trans h) h'
  | present h h' hi hj =>
    exact .present (hspares.live_eq.trans h) h' ((hspares.session_eq _ h).trans hi) hj

/-! ## Two managers side by side -/

/-- A manager, and another one that has met the demands for one address only. -/
structure Mirrors (setup : ManagerSetup) (around : Surroundings σ) (a : Address)
    (m m' : Manager σ) (ledger ledger' : Ledger) : Prop where
  ordered : Ordered none m ledger
  ordered' : Ordered none m' ledger'
  furnished : Furnished setup around m
  furnished' : Furnished setup around m'
  registry_eq : m'.registry = m.registry
  ledger_eq : ledger'.get? a.key = ledger.get? a.key
  paired : Paired a m m'

theorem outcome_reset :
    m.outcome ⟨a, .reset⟩ = { (m.playFor a.tenant a.session .reset).2.unnumbered with
      result := ((m.playFor a.tenant a.session .reset).1.current? a).map .ok } := rfl

namespace Mirrors

variable (h : Mirrors setup around a m m' ledger ledger') (hsteady : around.Steady)
  (htext : setup.executor.config.voiceMode.isTruthy = false)

include h

theorem context_eq : m'.context? a.tenant a.session = m.context? a.tenant a.session := by
  have hstored : ∀ m : Manager σ,
      m.context? a.tenant a.session = m.store.contexts.get? a.key := fun _ => rfl
  rw [hstored, hstored]
  cases h.paired with
  | absent hnone hnone' =>
    have hgone : ∀ {m : Manager σ} {ledger : Ledger}, Ordered none m ledger →
        m.live.get? a.key = none → m.store.contexts.get? a.key = none := fun hordered hnone => by
      rw [← Option.isNone_iff_eq_none, ← Option.not_isSome,
        hordered.stored_eq _ (Option.some_ne_none _), ← hordered.live_eq, hnone]
      rfl
    rw [hgone h.ordered hnone, hgone h.ordered' hnone']
  | present hlive hlive' hi hj =>
    rw [h.ordered.context_eq hlive hi, h.ordered'.context_eq hlive' hj]

theorem flow_eq : m'.flow? a.tenant a.session = m.flow? a.tenant a.session := by
  have hflow : ∀ m : Manager σ, m.flow? a.tenant a.session = m.flows.get? a.key := fun _ => rfl
  rw [hflow, hflow, h.ordered.flows_eq _ (Option.some_ne_none _),
    h.ordered'.flows_eq _ (Option.some_ne_none _), h.ledger_eq]

theorem enroll (flow : FlowId) (graph : FlowGraph) :
    (m.enroll a flow graph).stage.sessions[m.newcomer a]? =
        some ((m.discard a.key).setupFor a.tenant a.session graph, {}) ∧
      (m'.enroll a flow graph).stage.sessions[m'.newcomer a]? =
        some ((m.discard a.key).setupFor a.tenant a.session graph, {}) := by
  refine ⟨Stage.addSession_new _ _, (Stage.addSession_new _ _).trans ?_⟩
  have hdiscarded := h.furnished.discard h.ordered a.key
  have hdiscarded' := h.furnished'.discard h.ordered' a.key
  simp [setupFor, hdiscarded.setup_eq, hdiscarded.around_eq, hdiscarded'.setup_eq,
    hdiscarded'.around_eq]

include hsteady htext

theorem playFor (hcue : wish.cue? = some c) (hends : m.Ends (.demand ⟨a, wish⟩)) :
    (∀ i, m'.live.get? a.key = some i → m'.stage.Ends i c) ∧
      (m'.playFor a.tenant a.session c).2.unnumbered =
        (m.playFor a.tenant a.session c).2.unnumbered ∧
      Paired a (m.playFor a.tenant a.session c).1 (m'.playFor a.tenant a.session c).1 := by
  rw [playFor_eq, playFor_eq]
  cases h.paired with
  | absent hnone hnone' =>
    simp only [hnone, hnone']
    exact ⟨by simp, trivial, h.paired⟩
  | present hlive hlive' hi hj =>
    simp only [hlive, hlive', Option.some.injEq, forall_eq']
    exact Paired.play h.ordered h.ordered' h.furnished h.furnished' hsteady htext hlive hlive' hi hj
      (Wish.not_isReport hcue) (hends.cue hcue hlive)

theorem start {vars : Fields} (hgraph : m.registry.get? flow = some graph)
    (hends : m.Ends (.demand ⟨a, .start flow vars⟩)) :
    m'.Ends (.demand ⟨a, .start flow vars⟩) ∧
      (m'.start a.tenant a.session flow vars).2.unnumbered =
        (m.start a.tenant a.session flow vars).2.unnumbered ∧
      Paired a (m.start a.tenant a.session flow vars).1
        (m'.start a.tenant a.session flow vars).1 := by
  have hgraph' : m'.registry.get? flow = some graph := h.registry_eq ▸ hgraph
  obtain ⟨hnew, hnew'⟩ := h.enroll flow graph
  obtain ⟨hends', hseen, hpaired⟩ := Paired.play (h.ordered.enroll a flow graph)
    (h.ordered'.enroll a flow graph) (h.furnished.enroll h.ordered a flow graph)
    (h.furnished'.enroll h.ordered' a flow graph) hsteady htext (live_enroll m a flow graph)
    (live_enroll m' a flow graph) hnew hnew' id (hends graph hgraph)
  rw [start_eq hgraph, start_eq hgraph']
  refine ⟨fun g hg => ?_, hseen, hpaired⟩
  obtain rfl := Option.some.inj (hgraph'.symm.trans hg)
  exact hends'

theorem meet_own (hends : m.Ends (.demand ⟨a, wish⟩)) :
    m'.Ends (.demand ⟨a, wish⟩) ∧ m'.outcome ⟨a, wish⟩ = m.outcome ⟨a, wish⟩ ∧
      Paired a (m.meet ⟨a, wish⟩).1 (m'.meet ⟨a, wish⟩).1 := by
  have hdiscards := h.paired.discard h.ordered h.ordered'
  cases wish with
  | start flow vars =>
    cases hgraph : m.registry.get? flow with
    | none =>
      have hgraph' : m'.registry.get? flow = none := h.registry_eq ▸ hgraph
      have hunknown : ∀ {m : Manager σ}, m.registry.get? flow = none →
          (m.registry.get? flow).isSome = false := fun {m} hnone => by
        simp [hnone]
      refine ⟨fun g hg => absurd hg (by simp [hgraph']), ?_, ?_⟩
      · simp [outcome, seen, Manager.meet, start_unknown hgraph, start_unknown hgraph',
          hunknown hgraph, hunknown hgraph']
      · simpa only [Manager.meet, start_unknown hgraph, start_unknown hgraph'] using h.paired
    | some graph =>
      obtain ⟨hends', hseen, hpaired⟩ := h.start hsteady htext hgraph hends
      obtain ⟨hentries, hresult⟩ : List.map _ _ = List.map _ _ ∧ _ := Played.mk.inj hseen
      refine ⟨hends', ?_, hpaired⟩
      have hregistered : (m'.registry.get? flow).isSome = (m.registry.get? flow).isSome :=
        congrArg (fun r : Registry => (r.get? flow).isSome) h.registry_eq
      simp only [outcome, seen, Manager.meet, List.map_append, hentries, hresult, hregistered]
      split
      · rw [hdiscards]
      · rfl
  | finish =>
    refine ⟨fun c i hc => absurd hc (Option.some_ne_none c).symm, ?_,
      .absent (h.ordered.live_discard _) (h.ordered'.live_discard _)⟩
    simp only [outcome, seen, Manager.meet, hdiscards]
  | submit reply | transcript text | speechComplete =>
    obtain ⟨hends', hseen, hpaired⟩ := h.playFor hsteady htext rfl hends
    refine ⟨fun c i hc hi => ?_, hseen, hpaired⟩
    obtain rfl := Option.some.inj hc
    exact hends' i hi
  | reset =>
    obtain ⟨hends', hseen, hpaired⟩ := h.playFor hsteady htext rfl hends
    refine ⟨fun c i hc hi => ?_, ?_, hpaired⟩
    · obtain rfl := Option.some.inj hc
      exact hends' i hi
    · rw [outcome_reset, outcome_reset, hseen, hpaired.current_eq]

theorem own (hends : m.Ends (.demand ⟨a, wish⟩)) :
    Mirrors setup around a (m.meet ⟨a, wish⟩).1 (m'.meet ⟨a, wish⟩).1
      (m.booked ledger (.demand ⟨a, wish⟩)) (m'.booked ledger' (.demand ⟨a, wish⟩)) := by
  obtain ⟨hends', -, hpaired⟩ := h.meet_own hsteady htext hends
  refine ⟨h.ordered.take hends, h.ordered'.take hends', h.furnished.take h.ordered hends,
    h.furnished'.take h.ordered' hends', ?_, ?_, hpaired⟩
  · rw [meet_registry, meet_registry, h.registry_eq]
  · cases wish with
    | start flow vars =>
      simp only [booked, h.registry_eq]
      cases m.registry.get? flow with
      | none => exact h.ledger_eq
      | some graph => simp
    | finish => simp [booked]
    | submit reply | transcript text | speechComplete | reset => exact h.ledger_eq

theorem other {d : Demand} (hkey : d.address.key ≠ a.key) (hends : m.Ends (.demand d)) :
    Mirrors setup around a (m.meet d).1 m' (m.booked ledger (.demand d)) ledger' := by
  obtain ⟨b, wish⟩ := d
  refine ⟨h.ordered.take hends, h.ordered', h.furnished.take h.ordered hends, h.furnished', ?_, ?_,
    h.paired.spared (.meet h.ordered h.furnished hsteady htext hkey hends)⟩
  · rw [meet_registry, h.registry_eq]
  · rw [h.ledger_eq]
    cases wish with
    | start flow vars =>
      simp only [booked]
      cases m.registry.get? flow with
      | none => rfl
      | some graph => simp [hkey]
    | finish => simp [booked, hkey]
    | submit reply | transcript text | speechComplete | reset => rfl

theorem run {ds : List Demand} (hkeys : ∀ d ∈ ds, d.address.key = a.key → d.address = a)
    (hends : m.EndAll (ds.map .demand)) :
    m'.EndAll ((demandsOf a ds).map .demand) ∧
      m'.outcomes a (demandsOf a ds) = m.outcomes a ds ∧ ∃ ledger ledger',
        Mirrors setup around a (m.after (ds.map .demand)) (m'.after ((demandsOf a ds).map .demand))
          ledger ledger' := by
  -- The second manager stands still whenever the demand is for another session.
  induction ds generalizing m m' ledger ledger' with
  | nil => exact ⟨trivial, rfl, ledger, ledger', h⟩
  | cons d rest ih =>
    obtain ⟨b, wish⟩ := d
    have hrest : ∀ d ∈ rest, d.address.key = a.key → d.address = a := fun d hd =>
      hkeys d (List.mem_cons_of_mem _ hd)
    by_cases hb : b = a
    · subst hb
      obtain ⟨hends', houtcome, -⟩ := h.meet_own hsteady htext hends.1
      obtain ⟨hlaterEnds, hlater, hlast⟩ := ih (h.own hsteady htext hends.1) hrest hends.2
      have hown : demandsOf b (⟨b, wish⟩ :: rest) = ⟨b, wish⟩ :: demandsOf b rest := by
        simp [demandsOf]
      rw [hown]
      refine ⟨⟨hends', hlaterEnds⟩, ?_, hlast⟩
      simp only [outcomes, if_true, houtcome]
      rw [hlater]
    · have hkey : b.key ≠ a.key := fun heq => hb (hkeys _ List.mem_cons_self heq)
      obtain ⟨hlaterEnds, hlater, hlast⟩ :=
        ih (h.other hsteady htext hkey hends.1) hrest hends.2
      have hother : demandsOf a (⟨b, wish⟩ :: rest) = demandsOf a rest := by
        simp [demandsOf, hb]
      rw [hother]
      refine ⟨hlaterEnds, ?_, hlast⟩
      simpa [outcomes, hb] using hlater

end Mirrors

/-- Sessions of a manager do not interfere. Let a manager that has not run anything meet demands in
text mode, where every answer of its collaborators depends on the request alone. The runs are
limited by a number of steps, or all of them come to an end anyhow. Then the demands for one address
come to an end without the others, too, and the context and the flow that are stored for it, and all
that comes of these demands, are the same as if nothing else had ever been demanded. -/
theorem sessions_keep_apart (hfresh : m.Fresh) (hsteady : m.stage.around.Steady)
    (htext : m.setup.executor.config.voiceMode.isTruthy = false) {ds : List Demand}
    (hends : (∃ most, m.setup.executor.config.maxSteps = .int most) ∨ m.EndAll (ds.map .demand))
    (hkeys : ∀ d ∈ ds, d.address.key = a.key → d.address = a) :
    m.EndAll ((demandsOf a ds).map .demand) ∧
      m.outcomes a ds = m.outcomes a (demandsOf a ds) ∧
      (m.after (ds.map .demand)).context? a.tenant a.session =
        (m.after ((demandsOf a ds).map .demand)).context? a.tenant a.session ∧
      (m.after (ds.map .demand)).flow? a.tenant a.session =
        (m.after ((demandsOf a ds).map .demand)).flow? a.tenant a.session := by
  have hall : m.EndAll (ds.map .demand) := hends.elim
    (fun hmost => endAll_of_limited hfresh ⟨hmost, hsteady.uninterrupted, fun _ => htext⟩ _) id
  have hstart : Mirrors m.setup m.stage.around a m m [] [] :=
    ⟨hfresh.ordered, hfresh.ordered, hfresh.furnished, hfresh.furnished, rfl, rfl,
      .absent (by simp [hfresh.live_eq]) (by simp [hfresh.live_eq])⟩
  obtain ⟨hends', houtcomes, ledger, ledger', hlast⟩ := hstart.run hsteady htext hkeys hall
  exact ⟨hends', houtcomes.symm, hlast.context_eq.symm, hlast.flow_eq.symm⟩

/-- What happens to one tenant at the desk is the same if the other never comes. -/
theorem desk_keeps_apart :
    let a : Address := ⟨"acme", "s-1"⟩
    let alone : List Demand :=
      [⟨a, .start (.text "ask") []⟩, ⟨a, .submit (.str "Ada")⟩, ⟨a, .start (.text "greet") []⟩,
        ⟨a, .start (.text "sell") []⟩]
    demandsOf a visits = alone ∧ desk.EndAll (alone.map .demand) ∧
      desk.outcomes a visits = desk.outcomes a alone ∧
      (desk.after (visits.map .demand)).context? "acme" "s-1" =
        (desk.after (alone.map .demand)).context? "acme" "s-1" ∧
      (desk.after (visits.map .demand)).flow? "acme" "s-1" =
        (desk.after (alone.map .demand)).flow? "acme" "s-1" := by
  intro a alone
  have halone : demandsOf a visits = alone := by decide
  rw [← halone]
  exact ⟨rfl, sessions_keep_apart desk_fresh ⟨rfl, fun _ _ _ => rfl⟩ rfl (.inl ⟨50, rfl⟩)
    (by decide)⟩

end Manager

end ChatFlow
