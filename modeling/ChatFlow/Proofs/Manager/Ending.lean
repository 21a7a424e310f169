import ChatFlow.Proofs.Manager.Order

/-!
# Managers whose steps end

A manager gives all its sessions the same executor and the same surroundings (`Manager.Furnished`).
So if these limit the steps of every run and let nothing happen in the middle of a request, then
whatever the manager is asked to do comes to an end: `endAll_of_limited`.
-/

namespace ChatFlow

open Session Simulation

/-- What is the same for all sessions limits the steps of every run by a number, lets nothing happen
in the middle of a request, and reports no playback before the request for it is answered, unless
nobody speaks. -/
structure ManagerSetup.Limited {σ : Type} (setup : ManagerSetup) (around : Surroundings σ) :
    Prop where
  limited : ∃ most, setup.executor.config.maxSteps = .int most
  uninterrupted : around.interruptions = []
  patient : around.playsAtOnce = true → setup.executor.config.voiceMode.isTruthy = false

namespace Manager

variable {σ : Type}

/-- A manager has a setup and surroundings, and its sessions have the executor of the setup. -/
structure Furnished (setup : ManagerSetup) (around : Surroundings σ) (m : Manager σ) : Prop where
  setup_eq : m.setup = setup
  around_eq : m.stage.around = around
  executor_eq : ∀ (i : Nat) (s : Setup) (st : State), m.stage.sessions[i]? = some (s, st) →
    s.executor = setup.executor

variable {setup : ManagerSetup} {around : Surroundings σ} {m : Manager σ} {ledger : Ledger}
  {stale : Option String} {i : Nat} {c : Cue} {x : Step} {a : Address} {flow : FlowId}
  {graph : FlowGraph}

theorem Fresh.furnished (h : m.Fresh) : Furnished m.setup m.stage.around m :=
  ⟨rfl, rfl, fun i s st hi => by simp [h.sessions_eq] at hi⟩

namespace Furnished

theorem play (h : Furnished setup around m) (hordered : Ordered stale m ledger)
    (hends : m.stage.Ends i c) : Furnished setup around (m.play i c).1 := by
  obtain ⟨-, -, hleaves⟩ :=
    Stage.play_leaves (hordered.atRest.accounted hordered.lived) hordered.atRest hends
  rw [play_eq]
  refine ⟨h.setup_eq, hleaves.around_eq.trans h.around_eq, fun j s st hj => ?_⟩
  have hlt : j < m.stage.sessions.length :=
    hleaves.length_eq ▸ (List.getElem?_eq_some_iff.mp hj).1
  obtain ⟨s', st', hbefore⟩ : ∃ s st, m.stage.sessions[j]? = some (s, st) :=
    ⟨_, _, List.getElem?_eq_getElem hlt⟩
  obtain ⟨ms, -, hafter, -⟩ := hleaves.goes j s' st' hbefore
  obtain ⟨rfl, -⟩ := Prod.mk.inj (Option.some.inj (hafter.symm.trans hj))
  exact h.executor_eq j s' st' hbefore

theorem discard (h : Furnished setup around m) (hordered : Ordered none m ledger) (key : String) :
    Furnished setup around (m.discard key) := by
  cases hlive : m.live.get? key with
  | none => rwa [discard_none hlive]
  | some i =>
    obtain ⟨s, st, hsession, -⟩ := hordered.runs key i hlive
    rw [(discard_eq hordered.atRest hlive hsession).1]
    refine ⟨h.setup_eq, h.around_eq, fun j s' st' hj => ?_⟩
    by_cases hij : j = i
    · subst hij
      obtain ⟨rfl, -⟩ :=
        Prod.mk.inj (Option.some.inj ((Stage.replaced_self hsession).symm.trans hj))
      exact h.executor_eq j s st hsession
    · exact h.executor_eq j s' st' ((Stage.replaced_other hij).symm.trans hj)

theorem enroll (h : Furnished setup around m) (hordered : Ordered none m ledger) (a : Address)
    (flow : FlowId) (graph : FlowGraph) : Furnished setup around (m.enroll a flow graph) := by
  have hdiscarded := h.discard hordered a.key
  refine ⟨hdiscarded.setup_eq, hdiscarded.around_eq, fun j s st hj => ?_⟩
  rcases Stage.addSession_cases hj with hj | ⟨-, heq⟩
  · exact hdiscarded.executor_eq j s st hj
  · obtain ⟨rfl, -⟩ := Prod.mk.inj heq
    exact congrArg ManagerSetup.executor hdiscarded.setup_eq

theorem playFor (h : Furnished setup around m) (hordered : Ordered none m ledger) {wish : Wish}
    (hcue : wish.cue? = some c) (hends : m.Ends (.demand ⟨a, wish⟩)) :
    Furnished setup around (m.playFor a.tenant a.session c).1 := by
  rw [playFor_eq]
  cases hlive : m.live.get? a.key with
  | none => exact h
  | some i => exact h.play hordered (hends.cue hcue hlive)

theorem take (h : Furnished setup around m) (hordered : Ordered none m ledger)
    (hends : m.Ends x) : Furnished setup around (m.take x).1 := by
  cases x with
  | demand d =>
    obtain ⟨a, wish⟩ := d
    cases wish with
    | start flow vars =>
      cases hgraph : m.registry.get? flow with
      | none =>
        have hsame : m.take (.demand ⟨a, .start flow vars⟩) = _ := start_unknown hgraph
        rwa [hsame]
      | some graph =>
        have hstarts : m.take (.demand ⟨a, .start flow vars⟩) = _ := start_eq hgraph
        rw [hstarts]
        exact (h.enroll hordered a flow graph).play (hordered.enroll a flow graph)
          (hends graph hgraph)
    | finish =>
      have hdiscarded := h.discard hordered a.key
      exact ⟨hdiscarded.setup_eq, hdiscarded.around_eq, hdiscarded.executor_eq⟩
    | submit reply | transcript text | speechComplete | reset => exact h.playFor hordered rfl hends
  | report => exact h.play hordered hends
  | register r => exact ⟨h.setup_eq, h.around_eq, h.executor_eq⟩

theorem after (h : Furnished setup around m) (hordered : Ordered none m ledger) {xs : List Step}
    (hends : m.EndAll xs) : Furnished setup around (m.after xs) := by
  induction xs generalizing m ledger with
  | nil => exact h
  | cons x rest ih => exact ih (h.take hordered hends.1) (hordered.take hends.1) hends.2

theorem stage_limited (h : Furnished setup around m) (hlimited : setup.Limited around) :
    m.stage.Limited := by
  have hconfig : ∀ e ∈ m.stage.sessions, e.1.config = setup.executor.config := fun e he => by
    obtain ⟨i, hi⟩ := List.mem_iff_getElem?.mp he
    exact congrArg Executor.config (h.executor_eq i e.1 e.2 hi)
  refine ⟨h.around_eq ▸ hlimited.uninterrupted, fun e he => ?_, fun honce e he => ?_⟩
  · rw [Setup.Limited, hconfig e he]
    exact hlimited.limited
  · rw [Setup.voiceMode, hconfig e he]
    exact hlimited.patient (h.around_eq ▸ honce)

end Furnished

theorem ends_of_limited (hlimited : setup.Limited around) (h : Furnished setup around m)
    (hordered : Ordered none m ledger) (x : Step) : m.Ends x := by
  have hplays : ∀ i c, m.stage.Ends i c := Stage.ends_of_limited
    (hordered.atRest.accounted hordered.lived) (h.stage_limited hlimited)
  cases x with
  | demand d =>
    obtain ⟨a, wish⟩ := d
    cases wish with
    | start flow vars =>
      intro graph _
      have henrolled := hordered.enroll a flow graph
      exact Stage.ends_of_limited (henrolled.atRest.accounted henrolled.lived)
        ((h.enroll hordered a flow graph).stage_limited hlimited) _ _
    | submit reply | transcript text | speechComplete | reset | finish =>
      exact fun c i _ _ => hplays i c
  | report => exact hplays 0 .report
  | register r => trivial

/-- A manager whose runs take a limited number of steps does whatever it is asked to do. -/
theorem endAll_of_limited (hfresh : m.Fresh) (hlimited : m.setup.Limited m.stage.around)
    (xs : List Step) : m.EndAll xs := by
  suffices hall : ∀ {m' : Manager σ} {ledger : Ledger}, Ordered none m' ledger →
      Furnished m.setup m.stage.around m' → m'.EndAll xs from
    hall hfresh.ordered hfresh.furnished
  induction xs with
  | nil => exact fun _ _ => trivial
  | cons x rest ih =>
    intro m' ledger hordered hfurnished
    have hends := ends_of_limited hlimited hfurnished hordered x
    exact ⟨hends, ih (hordered.take hends) (hfurnished.take hordered hends)⟩

/-! ## A manager of two flows -/

/-- A flow that asks for a name. -/
def asking : FlowGraph where
  nodes := [⟨"s", .start {}⟩, ⟨"q", .input { question := "Name?" }⟩]
  edges := [{ source := "s", target := "q" }]
  sound := by decide

/-- A flow that says a word. -/
def greeting : FlowGraph where
  nodes := [⟨"s", .start {}⟩, ⟨"m", .message { message := "Welcome" }⟩]
  edges := [{ source := "s", target := "m" }]
  sound := by decide

/-- A manager with two flows, whose collaborators have nothing to say. -/
def desk : Manager Unit where
  setup := {}
  registry := { graphs := [(.text "ask", asking), (.text "greet", greeting)] }
  stage := { around := { answer := fun _ _ => (.value .null, ()) }, inner := () }

theorem desk_fresh : desk.Fresh := ⟨rfl, rfl, rfl, rfl, rfl, rfl⟩

theorem desk_limited : desk.setup.Limited desk.stage.around := ⟨⟨50, rfl⟩, rfl, by simp [desk]⟩

/-- Two sessions are started; one gives way to another, does not to an unknown flow, and the other
ends. -/
def visits : List Demand :=
  [⟨⟨"acme", "s-1"⟩, .start (.text "ask") []⟩, ⟨⟨"globex", "s-1"⟩, .start (.text "ask") []⟩,
    ⟨⟨"acme", "s-1"⟩, .submit (.str "Ada")⟩, ⟨⟨"acme", "s-1"⟩, .start (.text "greet") []⟩,
    ⟨⟨"acme", "s-1"⟩, .start (.text "sell") []⟩, ⟨⟨"globex", "s-1"⟩, .finish⟩]

end Manager

end ChatFlow
