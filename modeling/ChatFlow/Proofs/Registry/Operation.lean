import ChatFlow.Proofs.Execution.Result
import ChatFlow.Proofs.Registry.History

/-!
# Operations on a registry

Every operation on a registry comes down to single changes. `step_eq` says so for all of them, those
that fail included: the changes up to the first that is refused are made, and no others.

`registry_is_ordered_map` is what follows for any operations one after the other. The registry is
the map that the successful ones describe, and it lists its ids in the order in which they came.
-/

namespace ChatFlow

/-- What can be asked of a registry. Ids are given as any values. -/
inductive RegistryStep
  | register (id : Value) (g : FlowGraph) (name : Value)
  | registerAuthored (id authored name : Value)
  | registerAll (config : Value)
  | unregister (id : Value)

namespace RegistryStep

open Registry (entryGraph)

/-- The registration of an authored graph, if it is accepted. -/
def accept (id authored name : Value) : Except Fault FlowChange := do
  let g ← FlowGraph.parse id authored
  return .register (← FlowId.ofValue id) g name

/-- The entry of a list as an operation of its own; none if it has no id. -/
def single? : Value → Option RegistryStep
  | .object fs => (Table.get? fs "id").map fun id =>
    .registerAuthored id (entryGraph fs) ((Table.get? fs "name").getD (.str ""))
  | _ => none

/-- The registration of an entry, if it is accepted. -/
def acceptEntry : Value → Except Fault FlowChange
  | .object fs =>
    match Table.get? fs "id" with
    | none => .error (.missingKey "id")
    | some id => accept id (entryGraph fs) ((Table.get? fs "name").getD (.str ""))
  | _ => .error .noSuchMember

/-- The changes that an operation sets out to make, each of which may be refused. -/
def attempts : RegistryStep → List (Except Fault FlowChange)
  | register id g name => [do return .register (← FlowId.ofValue id) g name]
  | registerAuthored id authored name => [accept id authored name]
  | registerAll config =>
    match Authored.elements config with
    | .ok entries => entries.map acceptEntry
    | .error e => [.error e]
  | unregister id => [do return .unregister (← FlowId.ofValue id)]

/-- The changes before the first that is refused, and why that one is. -/
def untilRefused : List (Except Fault FlowChange) → List FlowChange × Option Fault
  | [] => ([], none)
  | .ok ch :: rest => (ch :: (untilRefused rest).1, (untilRefused rest).2)
  | .error e :: _ => ([], some e)

/-- The changes that an operation makes. -/
def made (x : RegistryStep) : List FlowChange :=
  (untilRefused x.attempts).1

end RegistryStep

namespace Registry

open FlowChange RegistryStep

variable {r r' r'' : Registry} {x : RegistryStep} {xs : List RegistryStep} {entries : List Value}

/-- The registry after an operation that may fail; a failure leaves it as it was. -/
def settle (r : Registry) : Except Fault Registry → Registry × Option Fault
  | .ok r' => (r', none)
  | .error e => (r, some e)

/-- The registry after an operation, and the error if it fails. -/
def step (r : Registry) : RegistryStep → Registry × Option Fault
  | .register id g name => r.settle do return r.register (← FlowId.ofValue id) g name
  | .registerAuthored id authored name =>
    r.settle do return (← r.registerAuthored id authored name).1
  | .registerAll config => r.registerAll config
  | .unregister id => r.settle do return r.unregister (← FlowId.ofValue id)

def steps (r : Registry) (xs : List RegistryStep) : Registry :=
  xs.foldl (fun r x => (r.step x).1) r

/-- The operations succeed one after the other. -/
inductive Succeeds : Registry → List RegistryStep → Registry → Prop
  | nil (r : Registry) : Succeeds r [] r
  | cons {r r' r'' : Registry} {x : RegistryStep} {xs : List RegistryStep}
      (first : r.step x = (r', none)) (rest : Succeeds r' xs r'') : Succeeds r (x :: xs) r''

/-- The entry cannot be registered: it is no operation at all, or that operation fails. -/
def Refuses (r : Registry) (entry : Value) (e : Fault) : Prop :=
  ∀ x, single? entry = some x → r.step x = (r, some e)

/-- The outcome is that of registering the entries one by one, up to the first that is refused. -/
def OneByOne (r : Registry) (entries : List Value) : Registry × Option Fault → Prop
  | (r', none) => ∃ xs, entries.map single? = xs.map some ∧ Succeeds r xs r'
  | (r', some e) => ∃ before entry after xs, entries = before ++ entry :: after ∧
      before.map single? = xs.map some ∧ Succeeds r xs r' ∧ Refuses r' entry e

theorem registerAuthored_eq (r : Registry) (id authored name : Value) :
    (do return (← r.registerAuthored id authored name).1) =
      (accept id authored name).map r.change := by
  unfold registerAuthored accept
  cases FlowGraph.parse id authored with
  | error e => rfl
  | ok g => cases FlowId.ofValue id <;> rfl

theorem registerEntry_eq (r : Registry) (entry : Value) :
    r.registerEntry entry = (acceptEntry entry).map r.change := by
  unfold registerEntry acceptEntry
  cases entry with
  | object fs =>
    cases hid : Table.get? fs "id" with
    | none => simp only [hid]; rfl
    | some id => simpa only [hid] using registerAuthored_eq r _ _ _
  | _ => rfl

theorem registerEntries_eq (r : Registry) (entries : List Value) :
    r.registerEntries entries =
      (r.changes (untilRefused (entries.map acceptEntry)).1,
        (untilRefused (entries.map acceptEntry)).2) := by
  induction entries generalizing r with
  | nil => rfl
  | cons entry rest ih =>
    rw [registerEntries, registerEntry_eq, List.map_cons]
    cases acceptEntry entry with
    | error e => rfl
    | ok ch => exact ih (r.change ch)

theorem settle_map (r : Registry) (attempt : Except Fault FlowChange) :
    r.settle (attempt.map r.change) =
      (r.changes (untilRefused [attempt]).1, (untilRefused [attempt]).2) := by
  cases attempt <;> rfl

/-- An operation makes its changes up to the first that is refused, and reports that one. -/
theorem step_eq (r : Registry) (x : RegistryStep) :
    r.step x = (r.changes x.made, (untilRefused x.attempts).2) := by
  cases x with
  | register id g name =>
    rw [step, made, attempts, ← settle_map]
    cases FlowId.ofValue id <;> rfl
  | registerAuthored id authored name =>
    rw [step, made, attempts, ← settle_map, registerAuthored_eq]
  | registerAll config =>
    rw [step, registerAll, made, attempts]
    cases Authored.elements config with
    | error e => rfl
    | ok entries => exact registerEntries_eq r entries
  | unregister id =>
    rw [step, made, attempts, ← settle_map]
    cases FlowId.ofValue id <;> rfl

theorem steps_eq (r : Registry) (xs : List RegistryStep) :
    r.steps xs = r.changes (xs.flatMap made) := by
  induction xs generalizing r with
  | nil => rfl
  | cons x rest ih =>
    calc r.steps (x :: rest)
        = (r.step x).1.changes (rest.flatMap made) := ih (r.step x).1
      _ = (r.changes x.made).changes (rest.flatMap made) := by rw [step_eq]
      _ = r.changes ((x :: rest).flatMap made) := by simp [changes]

/-! ## Lists of flows -/

theorem exists_single? {entry : Value} {ch : FlowChange} (h : acceptEntry entry = .ok ch) :
    ∃ x, single? entry = some x ∧ ∀ r : Registry, r.step x = (r.change ch, none) := by
  unfold acceptEntry at h
  split at h
  · split at h
    · cases h
    · rename_i fs id hid
      refine ⟨_, by simp [single?, hid]; rfl, fun r => ?_⟩
      simp [step_eq, made, attempts, h, untilRefused, changes]
  · cases h

theorem refuses_of_acceptEntry {entry : Value} {e : Fault} (h : acceptEntry entry = .error e)
    (r : Registry) : Refuses r entry e := by
  intro x hx
  unfold acceptEntry at h
  cases entry with
  | object fs =>
    obtain ⟨id, hid, rfl⟩ := Option.map_eq_some_iff.mp hx
    simp only [hid] at h
    simp [step_eq, made, attempts, h, untilRefused, changes]
  | _ => cases hx

theorem registerEntries_oneByOne (r : Registry) (entries : List Value) :
    OneByOne r entries (r.registerEntries entries) := by
  induction entries generalizing r with
  | nil => exact ⟨[], rfl, .nil r⟩
  | cons entry rest ih =>
    rw [registerEntries, registerEntry_eq]
    cases hentry : acceptEntry entry with
    | error e => exact ⟨[], entry, rest, [], rfl, rfl, .nil r, refuses_of_acceptEntry hentry r⟩
    | ok ch =>
      obtain ⟨x, hx, hstep⟩ := exists_single? hentry
      have hrest := ih (r.change ch)
      simp only [Except.map]
      generalize (r.change ch).registerEntries rest = outcome at hrest
      obtain ⟨r', failure⟩ := outcome
      cases failure with
      | none =>
        obtain ⟨xs, hxs, hsucceeds⟩ := hrest
        exact ⟨x :: xs, by simp [hx, hxs], .cons (hstep r) hsucceeds⟩
      | some e =>
        obtain ⟨before, refused, after, xs, rfl, hxs, hsucceeds, hrefuses⟩ := hrest
        exact ⟨entry :: before, refused, after, x :: xs, rfl, by simp [hx, hxs],
          .cons (hstep r) hsucceeds, hrefuses⟩

/-! ## The law of the registry -/

/-- After any operations, the registry is the map that the successful ones describe, with its ids in
the order in which they came. An authored graph is registered, or else nothing is changed. A list of
flows is registered one by one, up to the first that is refused. -/
theorem registry_is_ordered_map :
    (∀ xs : List RegistryStep, Follows (xs.flatMap made) (steps {} xs)) ∧
    (∀ (r : Registry) id authored name,
      (∃ given g, FlowId.ofValue id = .ok given ∧ FlowGraph.parse id authored = .ok g ∧
        r.step (.registerAuthored id authored name) = (r.register given g name, none) ∧
        (RegistryStep.registerAuthored id authored name).made = [.register given g name]) ∨
      (∃ e, r.step (.registerAuthored id authored name) = (r, some e) ∧
        (RegistryStep.registerAuthored id authored name).made = [])) ∧
    (∀ (r : Registry) config entries, Authored.elements config = .ok entries →
      OneByOne r entries (r.step (.registerAll config))) := by
  refine ⟨fun xs => ?_, fun r id authored name => ?_, fun r config entries hentries => ?_⟩
  · rw [steps_eq]
    exact (follows_changes _).2
  · simp only [step_eq, made, attempts]
    cases haccept : accept id authored name with
    | error e => exact .inr ⟨e, rfl, rfl⟩
    | ok ch =>
      obtain ⟨g, hg, hrest⟩ := bind_eq_ok.mp haccept
      obtain ⟨given, hgiven, heq⟩ := bind_eq_ok.mp hrest
      obtain rfl := Except.ok.inj heq
      exact .inl ⟨given, g, hgiven, hg, rfl, rfl⟩
  · simp only [step, registerAll, hentries]
    exact registerEntries_oneByOne r entries

/-- The first entry has an id that is a number as well, and the third one has no graph. -/
def busyEntries : List Value :=
  [.object [("id", .bool true), ("nodes", .list [])], .object [("id", .str "late")],
    .object [("id", .str "bad"), ("nodes", .null)], .object [("id", .str "never")]]

/-- One flow is registered again under an equal number, and one is removed and comes back. -/
def busyDay : List RegistryStep :=
  [.register (.str "greet") .empty (.str ""), .register (.int 1) .empty (.str "One"),
    .registerAll (.list busyEntries), .unregister (.str "greet"),
    .registerAuthored (.str "late") .null (.str "Late"),
    .register (.str "greet") .empty (.str "Greeting")]

theorem busyDay_followed :
    (steps {} busyDay).ids = [.int 1, .text "late", .text "greet"] ∧
      (steps {} busyDay).name (.int 1) = .bool true ∧
      (∃ g given name, LastRegistered (.int 1) given g name (busyDay.flatMap made)) ∧
      OneByOne (steps {} (busyDay.take 2)) busyEntries
        ((steps {} (busyDay.take 2)).step (.registerAll (.list busyEntries))) := by
  obtain ⟨hfollows, -, hbatch⟩ := registry_is_ordered_map
  refine ⟨by decide +kernel, by decide +kernel, ?_, hbatch _ _ _ rfl⟩
  have hfound : ((steps {} busyDay).get? (.int 1)).isSome = true := by decide +kernel
  obtain ⟨g, hg⟩ := Option.isSome_iff_exists.mp hfound
  exact ⟨g, ((hfollows busyDay).get?_eq (.int 1) g).mp hg⟩

end Registry

end ChatFlow
