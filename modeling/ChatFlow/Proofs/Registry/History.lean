import ChatFlow.Registry
import Mathlib.Data.List.Induction

/-!
# What a registry remembers

A registry is changed by registering a flow and by removing one. `Follows` says what it holds after
given changes: the map from ids to the graphs and names that were registered last, and the ids that
are left, in the order in which they came. `follows_changes` is the induction over the changes.

Ids are compared by what they are known by, so that the same number in another form is the same id.
-/

namespace ChatFlow

/-- The registry takes the two for one id. -/
def FlowId.Same (a b : FlowId) : Prop :=
  a.canonical = b.canonical

instance (a b : FlowId) : Decidable (a.Same b) :=
  inferInstanceAs (Decidable (a.canonical = b.canonical))

/-! ## Changes of a registry -/

/-- A change that has come about. -/
inductive FlowChange
  | register (id : FlowId) (g : FlowGraph) (name : Value)
  | unregister (id : FlowId)

namespace FlowChange

def Registers (id : FlowId) : FlowChange → Prop
  | register other _ _ => other.Same id
  | unregister _ => False

def Removes (id : FlowId) : FlowChange → Prop
  | register _ _ _ => False
  | unregister other => other.Same id

/-- There was a change of the one kind, and none of the other kind after it. What counts as one of
the first kind may depend on the changes before. -/
def Since (start : List FlowChange → FlowChange → Prop) (stop : FlowChange → Prop)
    (cs : List FlowChange) : Prop :=
  ∃ before ch after, cs = before ++ ch :: after ∧ start before ch ∧ ∀ ch ∈ after, ¬ stop ch

/-- The last change that concerns the id registers it, in the form in which it was given then. -/
def LastRegistered (id given : FlowId) (g : FlowGraph) (name : Value) : List FlowChange → Prop :=
  Since (fun _ ch => ch = register given g name ∧ given.Same id)
    (fun ch => ch.Registers id ∨ ch.Removes id)

/-- The id was registered, and has not been removed since. -/
def Live (id : FlowId) : List FlowChange → Prop :=
  Since (fun _ ch => ch.Registers id) (Removes id)

/-- The change of this number registered the id when it was not live, and it has not been removed
since. -/
def CameAt (i : Nat) (id : FlowId) : List FlowChange → Prop :=
  Since (fun before ch => before.length = i ∧ (∃ g name, ch = register id g name) ∧ ¬ Live id before)
    (Removes id)

variable {cs : List FlowChange} {ch : FlowChange} {id other given : FlowId} {g : FlowGraph}
  {name : Value} {i j : Nat} {start : List FlowChange → FlowChange → Prop}
  {stop : FlowChange → Prop}

theorem not_since_nil : ¬ Since start stop [] := by
  rintro ⟨before, ch, after, h, -⟩
  simp at h

theorem since_snoc :
    Since start stop (cs ++ [ch]) ↔ start cs ch ∨ ¬ stop ch ∧ Since start stop cs := by
  constructor
  · rintro ⟨before, ch', after, heq, hstart, hafter⟩
    rcases List.eq_nil_or_concat after with rfl | ⟨after, last, rfl⟩
    · obtain ⟨rfl, hlast⟩ := List.append_inj' heq rfl
      obtain ⟨rfl, -⟩ := List.cons.inj hlast
      exact .inl hstart
    · have hsplit : cs ++ [ch] = (before ++ ch' :: after) ++ [last] := by simpa using heq
      obtain ⟨rfl, hlast⟩ := List.append_inj' hsplit rfl
      obtain ⟨rfl, -⟩ := List.cons.inj hlast
      exact .inr ⟨hafter _ (by simp), before, ch', after, rfl, hstart,
        fun x hx => hafter x (by simp [hx])⟩
  · rintro (hstart | ⟨hgoes, before, ch', after, rfl, hstart, hafter⟩)
    · exact ⟨cs, ch, [], rfl, hstart, by simp⟩
    · refine ⟨before, ch', after ++ [ch], by simp, hstart, fun x hx => ?_⟩
      rcases List.mem_append.mp hx with hx | hx
      · exact hafter x hx
      · exact List.mem_singleton.mp hx ▸ hgoes

theorem live_register : Live id (cs ++ [register other g name]) ↔ other.Same id ∨ Live id cs := by
  simp [Live, since_snoc, Registers, Removes]

theorem live_unregister : Live id (cs ++ [unregister other]) ↔ ¬ other.Same id ∧ Live id cs := by
  simp [Live, since_snoc, Registers, Removes]

theorem lastRegistered_register {g' : FlowGraph} {name' : Value} :
    LastRegistered id given g' name' (cs ++ [register other g name]) ↔
      (other = given ∧ g = g' ∧ name = name' ∧ given.Same id) ∨
        ¬ other.Same id ∧ LastRegistered id given g' name' cs := by
  simp [LastRegistered, since_snoc, Registers, Removes, and_assoc]

theorem lastRegistered_unregister :
    LastRegistered id given g name (cs ++ [unregister other]) ↔
      ¬ other.Same id ∧ LastRegistered id given g name cs := by
  simp [LastRegistered, since_snoc, Registers, Removes]

theorem cameAt_register : CameAt i id (cs ++ [register other g name]) ↔
    (cs.length = i ∧ other = id ∧ ¬ Live id cs) ∨ CameAt i id cs := by
  simp [CameAt, since_snoc, Removes]

theorem cameAt_unregister :
    CameAt i id (cs ++ [unregister other]) ↔ ¬ other.Same id ∧ CameAt i id cs := by
  simp [CameAt, since_snoc, Removes]

theorem CameAt.lt_length (h : CameAt i id cs) : i < cs.length := by
  obtain ⟨before, ch, after, rfl, ⟨rfl, -, -⟩, -⟩ := h
  simp

end FlowChange

namespace Registry

open FlowChange

variable {r : Registry} {cs : List FlowChange} {id other given : FlowId} {g : FlowGraph}
  {name : Value}

/-- What a registry holds after these changes. -/
structure Follows (cs : List FlowChange) (r : Registry) : Prop where
  get?_eq : ∀ id g, r.get? id = some g ↔ ∃ given name, LastRegistered id given g name cs
  name_eq : ∀ id given g name, LastRegistered id given g name cs →
    r.name id = if name.isTruthy then name else given.toValue
  name_of_not_live : ∀ id, ¬ Live id cs → r.name id = id.toValue
  live_iff : ∀ id, Live id cs ↔ ∃ listed ∈ r.ids, listed.Same id
  mem_ids : ∀ id, id ∈ r.ids ↔ ∃ i, CameAt i id cs
  ordered : r.ids.Pairwise fun a b => ∃ i j, i < j ∧ CameAt i a cs ∧ CameAt j b cs
  distinct : r.ids.Pairwise fun a b => ¬ a.Same b

def change (r : Registry) : FlowChange → Registry
  | .register id g name => r.register id g name
  | .unregister id => r.unregister id

def changes (r : Registry) (cs : List FlowChange) : Registry :=
  cs.foldl change r

/-! ## What one change does -/

theorem get?_register (r : Registry) (id other : FlowId) (g : FlowGraph) (name : Value) :
    (r.register id g name).get? other = if id.Same other then some g else r.get? other :=
  Table.get?_insert _ _ _ _

theorem get?_unregister (r : Registry) (id other : FlowId) :
    (r.unregister id).get? other = if id.Same other then none else r.get? other :=
  Table.get?_erase _ _ _

theorem name_register (r : Registry) (id other : FlowId) (g : FlowGraph) (name : Value) :
    (r.register id g name).name other =
      if id.Same other then (if name.isTruthy then name else id.toValue) else r.name other := by
  rw [Registry.name, register, Table.get?_insert]
  exact apply_ite (Option.getD · other.toValue) _ _ _

theorem name_unregister (r : Registry) (id other : FlowId) :
    (r.unregister id).name other = if id.Same other then other.toValue else r.name other := by
  rw [Registry.name, unregister, Table.get?_erase]
  exact apply_ite (Option.getD · other.toValue) _ _ _

/-- The ids are kept under what they are known by. -/
def Keyed (r : Registry) : Prop :=
  ∀ e ∈ r.given, e.1 = e.2.canonical

theorem Keyed.mem_keys_iff (h : r.Keyed) :
    id.canonical ∈ r.given.keys ↔ ∃ listed ∈ r.ids, listed.Same id := by
  simp only [Table.keys, ids, List.mem_map]
  constructor
  · rintro ⟨e, he, heq⟩
    exact ⟨e.2, ⟨e, he, rfl⟩, (h e he).symm.trans heq⟩
  · rintro ⟨listed, ⟨e, he, rfl⟩, hsame⟩
    exact ⟨e, he, (h e he).trans hsame⟩

theorem Keyed.given_register (h : r.Keyed) (id : FlowId) (g : FlowGraph) (name : Value) :
    (r.register id g name).given =
      if ∃ listed ∈ r.ids, listed.Same id then r.given else r.given ++ [(id.canonical, id)] := by
  have hhas : r.given.has id.canonical = true ↔ ∃ listed ∈ r.ids, listed.Same id := by
    rw [← h.mem_keys_iff, Table.mem_keys_iff]
    exact Option.isSome_iff_exists
  simp only [register, hhas]
  refine ite_congr rfl (fun _ => rfl) fun hnew => ?_
  exact Table.insert_of_not_mem (mt h.mem_keys_iff.mp hnew) id

theorem Keyed.register (h : r.Keyed) : (r.register id g name).Keyed := by
  rw [Keyed, h.given_register]
  split
  · exact h
  · intro e he
    rcases List.mem_append.mp he with he | he
    · exact h e he
    · obtain rfl := List.mem_singleton.mp he
      rfl

theorem Keyed.unregister (h : r.Keyed) : (r.unregister id).Keyed :=
  fun e he => h e (List.mem_filter.mp he).1

theorem Keyed.ids_register (h : r.Keyed) (id : FlowId) (g : FlowGraph) (name : Value) :
    (r.register id g name).ids =
      if ∃ listed ∈ r.ids, listed.Same id then r.ids else r.ids ++ [id] := by
  rw [ids, h.given_register]
  split
  · rfl
  · rw [List.map_append]
    rfl

theorem Keyed.ids_unregister (h : r.Keyed) (id : FlowId) :
    (r.unregister id).ids = r.ids.filter fun listed => ¬ id.Same listed := by
  simp only [ids, Registry.unregister, Table.erase, List.filter_map]
  refine congrArg _ (List.filter_congr fun e he => decide_eq_decide.mpr ?_)
  rw [h e he, FlowId.Same, ne_comm]

/-! ## What all changes do -/

theorem follows_nil : Follows [] {} := by
  refine ⟨?_, ?_, fun _ _ => rfl, ?_, ?_, .nil, .nil⟩ <;>
    simp [LastRegistered, Live, CameAt, not_since_nil, ids, get?]

theorem Follows.register (h : Follows cs r) (hkeyed : r.Keyed) (id : FlowId) (g : FlowGraph)
    (name : Value) : Follows (cs ++ [.register id g name]) (r.register id g name) where
  get?_eq other g' := by
    simp only [get?_register, lastRegistered_register]
    by_cases hsame : id.Same other
    · simp only [hsame, if_true, not_true, false_and, or_false, Option.some.injEq]
      constructor
      · rintro rfl
        exact ⟨id, name, rfl, rfl, rfl, hsame⟩
      · rintro ⟨_, _, -, rfl, -, -⟩
        rfl
    · rw [if_neg hsame, h.get?_eq]
      refine exists₂_congr fun given name' => ?_
      rw [and_iff_right hsame]
      refine (or_iff_right ?_).symm
      rintro ⟨rfl, -, -, hgiven⟩
      exact hsame hgiven
  name_eq other given g' name' hlast := by
    rw [name_register]
    rcases lastRegistered_register.mp hlast with ⟨rfl, rfl, rfl, hsame⟩ | ⟨hother, hlast⟩
    · rw [if_pos hsame]
    · rw [if_neg hother, h.name_eq other given g' name' hlast]
  name_of_not_live other hdead := by
    rw [live_register, not_or] at hdead
    rw [name_register, if_neg hdead.1, h.name_of_not_live other hdead.2]
  live_iff other := by
    rw [live_register, h.live_iff, hkeyed.ids_register]
    split
    · rename_i hlisted
      obtain ⟨listed, hmem, hsame⟩ := hlisted
      exact or_iff_right_of_imp fun hother => ⟨listed, hmem, hsame.trans hother⟩
    · simp only [List.mem_append, List.mem_singleton, or_and_right, exists_or, exists_eq_left]
      exact or_comm
  mem_ids other := by
    simp only [cameAt_register, hkeyed.ids_register, exists_or, ← h.mem_ids, h.live_iff]
    split
    · rename_i hlisted
      refine (or_iff_right ?_).symm
      rintro ⟨-, -, rfl, hnew⟩
      exact hnew hlisted
    · rename_i hnew
      rw [List.mem_append, List.mem_singleton, or_comm]
      refine or_congr_left ⟨?_, ?_⟩
      · rintro rfl
        exact ⟨cs.length, rfl, rfl, hnew⟩
      · rintro ⟨i, -, rfl, -⟩
        rfl
  ordered := by
    have hearlier : r.ids.Pairwise fun a b => ∃ i j, i < j ∧
        CameAt i a (cs ++ [.register id g name]) ∧ CameAt j b (cs ++ [.register id g name]) :=
      h.ordered.imp fun ⟨i, j, hlt, ha, hb⟩ =>
        ⟨i, j, hlt, cameAt_register.mpr (.inr ha), cameAt_register.mpr (.inr hb)⟩
    rw [hkeyed.ids_register]
    split
    · exact hearlier
    · rename_i hnew
      refine List.pairwise_append.mpr ⟨hearlier, List.pairwise_singleton _ _, ?_⟩
      intro listed hmem other hother
      obtain rfl := List.mem_singleton.mp hother
      obtain ⟨i, hi⟩ := (h.mem_ids listed).mp hmem
      refine ⟨i, cs.length, hi.lt_length, cameAt_register.mpr (.inr hi), cameAt_register.mpr ?_⟩
      exact .inl ⟨rfl, rfl, mt (h.live_iff other).mp hnew⟩
  distinct := by
    rw [hkeyed.ids_register]
    split
    · exact h.distinct
    · rename_i hnew
      refine List.pairwise_append.mpr ⟨h.distinct, List.pairwise_singleton _ _, ?_⟩
      intro listed hmem other hother
      obtain rfl := List.mem_singleton.mp hother
      exact fun hsame => hnew ⟨listed, hmem, hsame⟩

theorem Follows.unregister (h : Follows cs r) (hkeyed : r.Keyed) (id : FlowId) :
    Follows (cs ++ [.unregister id]) (r.unregister id) where
  get?_eq other g' := by
    rw [get?_unregister]
    by_cases hsame : id.Same other <;> simp [lastRegistered_unregister, hsame, h.get?_eq]
  name_eq other given g' name' hlast := by
    obtain ⟨hother, hlast⟩ := lastRegistered_unregister.mp hlast
    rw [name_unregister, if_neg hother, h.name_eq other given g' name' hlast]
  name_of_not_live other hdead := by
    rw [name_unregister]
    split
    · rfl
    · rename_i hother
      exact h.name_of_not_live other fun hlive => hdead (live_unregister.mpr ⟨hother, hlive⟩)
  live_iff other := by
    rw [live_unregister, h.live_iff, hkeyed.ids_unregister]
    simp only [List.mem_filter, decide_eq_true_iff]
    constructor
    · rintro ⟨hother, listed, hmem, hsame⟩
      exact ⟨listed, ⟨hmem, fun hremoved => hother (hremoved.trans hsame)⟩, hsame⟩
    · rintro ⟨listed, ⟨hmem, hkept⟩, hsame⟩
      exact ⟨fun hother => hkept (hother.trans hsame.symm), listed, hmem, hsame⟩
  mem_ids other := by
    simp [cameAt_unregister, hkeyed.ids_unregister, h.mem_ids, and_comm]
  ordered := by
    rw [hkeyed.ids_unregister, List.pairwise_filter]
    refine h.ordered.imp ?_
    rintro a b ⟨i, j, hlt, ha, hb⟩ hkept hkept'
    exact ⟨i, j, hlt, cameAt_unregister.mpr ⟨by simpa using hkept, ha⟩,
      cameAt_unregister.mpr ⟨by simpa using hkept', hb⟩⟩
  distinct := by
    rw [hkeyed.ids_unregister]
    exact h.distinct.filter _

theorem follows_changes (cs : List FlowChange) :
    (changes {} cs).Keyed ∧ Follows cs (changes {} cs) := by
  induction cs using List.reverseRecOn with
  | nil => exact ⟨nofun, follows_nil⟩
  | append_singleton cs ch ih =>
    obtain ⟨hkeyed, hfollows⟩ := ih
    have hstep : changes {} (cs ++ [ch]) = (changes {} cs).change ch := by simp [changes]
    rw [hstep]
    cases ch with
    | register id g name => exact ⟨hkeyed.register, hfollows.register hkeyed id g name⟩
    | unregister id => exact ⟨hkeyed.unregister, hfollows.unregister hkeyed id⟩

end Registry

end ChatFlow
