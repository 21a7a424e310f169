import ChatFlow.Proofs.Manager.Ending
import ChatFlow.Proofs.Simulation.Report

/-!
# Reports to a manager

The sessions of a manager share one synthesizer, and its reports do not say whose playback is over.
`report_reaches_one_iff` says what a report does: it resumes every session that waits for a
playback, and touches no other. So it finds the right session only while no two are waiting; as soon
as there are two, each report resumes both, one of them in the middle of its own playback
(`report_resumes_both`).
-/

namespace ChatFlow

open Session Simulation

namespace Manager

variable {σ : Type}

/-- The session that is being run under a key. -/
def at? (m : Manager σ) (k : String) : Option (Setup × State) :=
  (m.live.get? k).bind fun i => m.stage.sessions[i]?

/-- The session of a key listens to the synthesizer and waits for a playback. -/
def Awaits (m : Manager σ) (k : String) : Prop :=
  (m.at? k).any fun e => e.2.subscribed && e.1.AwaitsPlayback e.2.memory.context

instance {m : Manager σ} {k : String} : Decidable (m.Awaits k) :=
  inferInstanceAs (Decidable (_ = true))

/-- The contexts of the session of a key that are seen when the synthesizer reports a playback. -/
def reportShows (m : Manager σ) (k : String) : List Context :=
  ((m.live.get? k).map fun i => contextsOf i m.report.2.entries).getD []

/-- A report does not touch the session of a key: nothing is seen of it, and what is stored
stays. -/
def Untouched (m : Manager σ) (k : String) : Prop :=
  m.reportShows k = [] ∧ m.report.1.store.contexts.get? k = m.store.contexts.get? k

/-- A report touches one session at most. -/
def ReachesOne (m : Manager σ) : Prop :=
  ∃ k, ∀ k', k' ≠ k → m.Untouched k'

variable {m : Manager σ} {ledger : Ledger} {k : String} {i : Nat} {xs : List Step}

theorem awaits_iff : m.Awaits k ↔ ∃ i s st, m.live.get? k = some i ∧
    m.stage.sessions[i]? = some (s, st) ∧ st.subscribed = true ∧
      s.AwaitsPlayback st.memory.context := by
  unfold Awaits at?
  cases m.live.get? k with
  | none => simp
  | some i =>
    cases hi : m.stage.sessions[i]? with
    | none => simp [hi]
    | some e =>
      obtain ⟨s, st⟩ := e
      simp [hi]

theorem Ordered.report_resumes (h : Ordered none m ledger)
    (hsynth : m.stage.around.hasSynthesizer = true) (hends : m.Ends .report) (hk : m.Awaits k) :
    ∃ c rest, m.store.contexts.get? k = some c ∧ c.awaiting = some .speechPlayback ∧
      m.reportShows k = c.apply .resumed :: rest := by
  obtain ⟨i, s, st, hlive, hi, hlistens, hawaits⟩ := awaits_iff.mp hk
  obtain ⟨rest, hrest⟩ := Stage.play_report_resumes (h.atRest.accounted h.lived) h.atRest hsynth
    hends hi hlistens hawaits
  refine ⟨_, rest, h.context_eq hlive hi, hawaits.1, ?_⟩
  rw [reportShows, hlive, report, play_eq]
  exact hrest

theorem Ordered.report_untouched (h : Ordered none m ledger) (hends : m.Ends .report)
    (hk : ¬ m.Awaits k) : m.Untouched k := by
  have hmine : ∀ i, m.live.get? k = some i →
      contextsOf i (m.stage.play 0 .report).2.entries = [] := fun i hlive => by
    obtain ⟨s, st, hi, -⟩ := h.runs k i hlive
    refine (Stage.play_report_ignored h.atRest hends hi ?_).1
    rw [awaits_iff] at hk
    by_contra hboth
    rw [not_or, Decidable.not_not, Bool.not_eq_false] at hboth
    exact hk ⟨i, s, st, hlive, hi, hboth⟩
  have hreport : m.report = m.play 0 .report := rfl
  constructor
  · rw [reportShows, hreport, play_eq]
    cases hlive : m.live.get? k with
    | none => rfl
    | some i => exact hmine i hlive
  · rw [hreport, play_eq, get?_storeAfter, saved_eq_nil fun j hj => ?_]
    · rfl
    · by_cases hlive : m.live.get? k = some j
      · exact hmine j hlive
      · exact h.contextsOf_eq_nil hends (.inl trivial) hj hlive

theorem Fresh.report_resumes (hfresh : m.Fresh)
    (hsynth : m.stage.around.hasSynthesizer = true) (hends : m.EndAll (xs ++ [.report]))
    (hk : (m.after xs).Awaits k) :
    ∃ c rest, (m.after xs).store.contexts.get? k = some c ∧ c.awaiting = some .speechPlayback ∧
      (m.after xs).reportShows k = c.apply .resumed :: rest := by
  obtain ⟨hends, hreport⟩ := endAll_concat.mp hends
  have hfurnished := hfresh.furnished.after hfresh.ordered hends
  have hsynth' : (m.after xs).stage.around.hasSynthesizer = true := by
    rw [hfurnished.around_eq, hsynth]
  exact (hfresh.ordered.after hends).report_resumes hsynth' hreport hk

/-- What a report does. Let a manager that has not run anything take steps that come to an end, and
then its synthesizer report a playback. Every session that waits for one is resumed, and no other is
touched. So the report reaches one session at most exactly if no two sessions are waiting. -/
theorem report_reaches_one_iff (hfresh : m.Fresh)
    (hsynth : m.stage.around.hasSynthesizer = true) (hends : m.EndAll (xs ++ [.report])) :
    let n := m.after xs
    (∀ k, n.Awaits k → ∃ c rest, n.store.contexts.get? k = some c ∧
      c.awaiting = some .speechPlayback ∧ n.reportShows k = c.apply .resumed :: rest) ∧
    (∀ k, ¬ n.Awaits k → n.Untouched k) ∧
    (n.ReachesOne ↔ ∀ k k', n.Awaits k → n.Awaits k' → k = k') := by
  have hresumes := fun k => hfresh.report_resumes (k := k) hsynth hends
  obtain ⟨hends, hreport⟩ := endAll_concat.mp hends
  have huntouched := fun k => (hfresh.ordered.after hends).report_untouched (k := k) hreport
  refine ⟨hresumes, huntouched, fun hone => ?_, fun hone => ?_⟩
  · -- Whoever waits shows something, so only the session that may be reached can wait.
    obtain ⟨k, hk⟩ := hone
    have honly : ∀ k', (m.after xs).Awaits k' → k' = k := fun k' hawaits => by
      by_contra hne
      obtain ⟨c, rest, -, -, hshows⟩ := hresumes k' hawaits
      have hnothing := (hk k' hne).1
      simp [hshows] at hnothing
    exact fun k₁ k₂ h₁ h₂ => (honly k₁ h₁).trans (honly k₂ h₂).symm
  · by_cases hany : ∃ k, (m.after xs).Awaits k
    · obtain ⟨k, hk⟩ := hany
      exact ⟨k, fun k' hne => huntouched k' fun hk' => hne (hone k' k hk' hk)⟩
    · exact ⟨"", fun k' _ => huntouched k' fun hk' => hany ⟨k', hk'⟩⟩

/-- A flow that speaks and then asks for a name. -/
def talking : FlowGraph where
  nodes :=
    [⟨"s", .start {}⟩, ⟨"t", .tts { text := "Hello" }⟩, ⟨"q", .input { question := "Name?" }⟩]
  edges := [{ source := "s", target := "t" }, { source := "t", target := "q" }]
  sound := by decide

/-- A manager in voice mode, whose synthesizer reports its playbacks when it is done. -/
def lounge : Manager Unit where
  setup :=
    { executor :=
      { config := { startDelay := .int 0, nodeDelay := .int 0, voiceMode := .bool true } } }
  registry := { graphs := [(.text "talk", talking), (.text "ask", asking)] }
  stage :=
    { around := { answer := fun _ _ => (.value .null, ()), hasSynthesizer := true }, inner := () }

theorem lounge_fresh : lounge.Fresh := ⟨rfl, rfl, rfl, rfl, rfl, rfl⟩

theorem lounge_limited : lounge.setup.Limited lounge.stage.around :=
  ⟨⟨50, rfl⟩, rfl, by simp [lounge]⟩

theorem lounge_ends (xs : List Step) : lounge.EndAll xs :=
  endAll_of_limited lounge_fresh lounge_limited xs

/-- A tenant comes, and is served by a flow. -/
def welcome (tenant flow : String) : Step :=
  .demand ⟨⟨tenant, "s-1"⟩, .start (.text flow) []⟩

/-- A manager that has welcomed a tenant, if that is over within sixty steps. -/
def welcomed (m : Manager Unit) (tenant flow : String) (g : FlowGraph) : Option (Manager Unit) :=
  ((m.enroll ⟨tenant, "s-1"⟩ (.text flow) g).playWithin 60 (m.newcomer ⟨tenant, "s-1"⟩)
    (.issue (.start []))).map Prod.fst

theorem take_welcome {m m' : Manager Unit} {tenant flow : String} {g : FlowGraph}
    (hgraph : m.registry.get? (.text flow) = some g) (h : m.welcomed tenant flow g = some m') :
    (m.take (welcome tenant flow)).1 = m' ∧ m'.registry = m.registry := by
  obtain ⟨q, hq, rfl⟩ := Option.map_eq_some_iff.mp h
  have hstarts : m.take (welcome tenant flow) = _ := start_eq hgraph
  have hregistry : (m.take (welcome tenant flow)).1.registry = m.registry := meet_registry m _
  rw [play_of_within hq] at hstarts
  rw [hstarts] at hregistry ⊢
  exact ⟨rfl, hregistry⟩

theorem after_two {flow flow' : String} {g g' : FlowGraph} {m : Manager Unit}
    (hgraph : lounge.registry.get? (.text flow) = some g)
    (hgraph' : lounge.registry.get? (.text flow') = some g')
    (h : ((lounge.welcomed "acme" flow g).bind fun n => n.welcomed "globex" flow' g') = some m) :
    lounge.after [welcome "acme" flow, welcome "globex" flow'] = m := by
  obtain ⟨n, hn, hm⟩ := Option.bind_eq_some_iff.mp h
  obtain ⟨hfirst, hregistry⟩ := take_welcome hgraph hn
  simp only [after, List.foldl_cons, List.foldl_nil, hfirst]
  exact (take_welcome (hregistry ▸ hgraph') hm).1

/-- Two guests are served. The one is waiting for a playback, the other has been asked for a name. A
report resumes the first and does not touch the second. -/
theorem lounge_report_reaches_one :
    let n := lounge.after [welcome "acme" "talk", welcome "globex" "ask"]
    n.Awaits "acme:s-1" ∧
      (n.store.contexts.get? "globex:s-1").map Context.awaiting = some (some .textInput) ∧
      (∃ c rest, n.store.contexts.get? "acme:s-1" = some c ∧
        n.reportShows "acme:s-1" = c.apply .resumed :: rest) ∧
      n.Untouched "globex:s-1" ∧ n.ReachesOne := by
  have hserved : ((lounge.welcomed "acme" "talk" talking).bind fun m =>
      m.welcomed "globex" "ask" asking).any (fun m => m.live.keys = ["acme:s-1", "globex:s-1"] &&
        m.Awaits "acme:s-1" && !(m.Awaits "globex:s-1" : Bool) &&
        (m.store.contexts.get? "globex:s-1").map Context.awaiting = some (some .textInput)) =
      true := by
    decide +kernel
  obtain ⟨n, hn, hserved⟩ := (Option.any_eq_true _ _).mp hserved
  obtain ⟨hresumes, huntouched, hone⟩ := report_reaches_one_iff lounge_fresh rfl
    (lounge_ends ([welcome "acme" "talk", welcome "globex" "ask"] ++ [.report]))
  rw [after_two rfl rfl hn] at hresumes huntouched hone ⊢
  simp only [Bool.and_eq_true, Bool.not_eq_true', decide_eq_true_eq, decide_eq_false_iff_not]
    at hserved
  obtain ⟨⟨⟨hkeys, hacme⟩, hglobex⟩, hasked⟩ := hserved
  have honly : ∀ k, n.Awaits k → k = "acme:s-1" := fun k hk => by
    obtain ⟨i, s, st, hlive, -⟩ := awaits_iff.mp hk
    have hmem := Table.mem_keys_iff.mpr ⟨i, hlive⟩
    rw [hkeys] at hmem
    rcases List.mem_pair.mp hmem with rfl | rfl
    · rfl
    · exact absurd hk hglobex
  obtain ⟨c, rest, hc, -, hshows⟩ := hresumes _ hacme
  exact ⟨hacme, hasked, ⟨c, rest, hc, hshows⟩, huntouched _ hglobex,
    hone.mpr fun k k' hk hk' => (honly k hk).trans (honly k' hk').symm⟩

/-- Two guests are waiting, each for the end of what is said to the one. One report resumes both. -/
theorem report_resumes_both :
    let n := lounge.after [welcome "acme" "talk", welcome "globex" "talk"]
    n.Ends .report ∧ n.Awaits "acme:s-1" ∧ n.Awaits "globex:s-1" ∧
      (∃ c rest, n.store.contexts.get? "acme:s-1" = some c ∧
        n.reportShows "acme:s-1" = c.apply .resumed :: rest) ∧
      (∃ c rest, n.store.contexts.get? "globex:s-1" = some c ∧
        n.reportShows "globex:s-1" = c.apply .resumed :: rest) ∧
      ¬ n.ReachesOne := by
  have hwaits : ((lounge.welcomed "acme" "talk" talking).bind fun m =>
      m.welcomed "globex" "talk" talking).any
      (fun m => m.Awaits "acme:s-1" && m.Awaits "globex:s-1") = true := by decide +kernel
  obtain ⟨n, hn, hawaits⟩ := (Option.any_eq_true _ _).mp hwaits
  obtain ⟨hacme, hglobex⟩ : n.Awaits "acme:s-1" ∧ n.Awaits "globex:s-1" := by simpa using hawaits
  have hends := lounge_ends ([welcome "acme" "talk", welcome "globex" "talk"] ++ [.report])
  obtain ⟨-, hreport⟩ := endAll_concat.mp hends
  have hresumes := fun k => lounge_fresh.report_resumes (k := k) rfl hends
  rw [after_two rfl rfl hn] at hreport hresumes ⊢
  obtain ⟨c, rest, hc, -, hshows⟩ := hresumes _ hacme
  obtain ⟨c', rest', hc', -, hshows'⟩ := hresumes _ hglobex
  refine ⟨hreport, hacme, hglobex, ⟨c, rest, hc, hshows⟩, ⟨c', rest', hc', hshows'⟩, ?_⟩
  rintro ⟨k, hk⟩
  by_cases hkey : k = "acme:s-1"
  · have hnothing := (hk "globex:s-1" (by simp [hkey])).1
    simp [hshows'] at hnothing
  · have hnothing := (hk "acme:s-1" (Ne.symm hkey)).1
    simp [hshows] at hnothing

end Manager

end ChatFlow
