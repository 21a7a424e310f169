import ChatFlow.Proofs.Session.Acceptance

/-!
# Replies that repeat a label

A user who replies to a choice with the label of an option means that option, unless an earlier one
has the same label. A session mostly does what is meant: `label_selects_iff` gives the exact
condition under which it leaves the node through the port of the option.

A reply is trimmed before it is matched, and the labels are not. So an option whose label has blanks
around it is not found by its own label, and the reply goes another way without a word
(`padded_label_goes_astray`).
-/

namespace ChatFlow

/-- The labels of an option: its text, and its value unless that is empty. -/
inductive ChoiceOption.Label (o : ChoiceOption) : String → Prop
  | text : Label o o.text
  | value (h : o.value ≠ "") : Label o o.value

/-- The option has a label that differs from the given one at most in case. -/
def ChoiceOption.Bears (label : String) (o : ChoiceOption) : Prop :=
  ∃ own, o.Label own ∧ Text.lower own = Text.lower label

theorem ChoiceOption.bears_iff {label : String} {o : ChoiceOption} :
    o.Bears label ↔ Text.lower o.text = Text.lower label ∨
      o.value ≠ "" ∧ Text.lower o.value = Text.lower label := by
  constructor
  · rintro ⟨_, hlabel, heq⟩
    cases hlabel with
    | text => exact .inl heq
    | value hvalue => exact .inr ⟨hvalue, heq⟩
  · rintro (heq | ⟨hvalue, heq⟩)
    · exact ⟨_, .text, heq⟩
    · exact ⟨_, .value hvalue, heq⟩

instance decidableBears {label : String} {o : ChoiceOption} : Decidable (o.Bears label) :=
  decidable_of_iff _ ChoiceOption.bears_iff.symm

namespace Session

variable {s : Setup} {st : State} {c : Context} {n : Node} {o : ChoiceOption} {label : String}
  {options before before' after : List ChoiceOption} {isList : Bool} {i j : Nat}

/-- The session waits for a choice at a node with buttons or a list. -/
structure Setup.Offers (s : Setup) (c : Context) (n : Node) : Prop where
  suspended : c.status = .suspended
  awaiting_eq : c.awaiting = some .choice
  cursor_eq : c.cursor = some n.id
  node_eq : s.graph.node? n.id = some n
  kind : n.type? = some .buttons ∨ n.type? = some .list

/-! ## The options that a label names -/

theorem names_iff_bears : Names label o ↔ o.Bears (Text.trim label) :=
  ChoiceOption.bears_iff.symm

theorem namesFirst_of_label (hlabel : o.Label label) (hfirst : ∀ o' ∈ before, ¬ o'.Bears label)
    (htrim : Text.trim label = label) : NamesFirst label (before ++ o :: after) before := by
  refine ⟨o, after, rfl, names_iff_bears.mpr ⟨label, hlabel, by rw [htrim]⟩, fun o' ho' hnames => ?_⟩
  rw [names_iff_bears, htrim] at hnames
  exact hfirst o' ho' hnames

theorem NamesFirst.unique (h : NamesFirst label options before)
    (h' : NamesFirst label options before') : before = before' := by
  obtain ⟨o, after, rfl, hnames, hbefore⟩ := h
  obtain ⟨o', after', heq, hnames', hbefore'⟩ := h'
  rcases List.append_eq_append_iff.mp heq with ⟨mid, rfl, hmid⟩ | ⟨mid, rfl, hmid⟩
  · cases mid with
    | nil => simp
    | cons first mid =>
      obtain ⟨rfl, -⟩ := List.cons.inj hmid
      exact absurd hnames (hbefore' o (by simp))
  · cases mid with
    | nil => simp
    | cons first mid =>
      obtain ⟨rfl, -⟩ := List.cons.inj hmid
      exact absurd hnames' (hbefore o' (by simp))

theorem choicePort_inj : choicePort i = choicePort j ↔ i = j := by
  constructor
  · intro h
    have hrepr : i.repr = j.repr := (String.append_right_inj _).mp h
    rw [Nat.repr_eq_ofList_toDigits, Nat.repr_eq_ofList_toDigits, String.ofList_inj] at hrepr
    have hvalue := congrArg (Nat.ofDigitChars 10 · 0) hrepr
    simpa [Nat.ofDigitChars_toDigits] using hvalue
  · rintro rfl
    rfl

/-! ## The port that is matched -/

theorem matchChoice_unnamed (hoptions : options ≠ [])
    (h : ∀ first, ¬ NamesFirst label options first) :
    matchChoice isList options (.str label) = .ok (some (choicePort 0)) := by
  cases hfound : findChoice? options (Text.lower (Text.trim label)) with
  | none => simp [matchChoice, hoptions, hfound]
  | some k =>
    obtain ⟨first, -, hfirst⟩ := namesFirst_of_findChoice? hfound
    exact absurd hfirst (h first)

theorem matchChoice_named (h : NamesFirst label options before) :
    matchChoice isList options (.str label) = .ok (some (choicePort
      (if isList = true ∧ listPortLimit ≤ before.length then 0 else before.length))) := by
  cases hfound : findChoice? options (Text.lower (Text.trim label)) with
  | none =>
    obtain ⟨o, after, rfl, hnames, -⟩ := h
    exact absurd hnames (not_names_of_findChoice? hfound (by simp))
  | some k =>
    obtain ⟨first, rfl, hfirst⟩ := namesFirst_of_findChoice? hfound
    obtain rfl := hfirst.unique h
    have hlength : first.length < options.length := by
      obtain ⟨o, after, rfl, -⟩ := h
      simp
    have hoptions : options ≠ [] := List.ne_nil_of_length_pos (Nat.zero_lt_of_lt hlength)
    by_cases hlist : isList = true
    · by_cases hlimit : first.length < listPortLimit
      · simp [matchChoice, hoptions, hfound, hlist, hlimit, Nat.not_le.mpr hlimit]
      · simp [matchChoice, hoptions, hfound, hlist, hlimit, Nat.le_of_not_lt hlimit]
    · simp [matchChoice, hoptions, hfound, hlist, hlength]

/-- A reply takes the way of the option that comes after the given ones: it names that option first,
or there are none before it and what the reply names first, if anything, is an item of a list that
has no port of its own. -/
def Takes (isList : Bool) (label : String) (options before : List ChoiceOption) : Prop :=
  NamesFirst label options before ∨
    before = [] ∧ ∀ other, NamesFirst label options other →
      isList = true ∧ listPortLimit ≤ other.length

theorem matchChoice_eq_iff (hoptions : options = before ++ o :: after)
    (hlimit : isList = true → before.length < listPortLimit) :
    matchChoice isList options (.str label) = .ok (some (choicePort before.length)) ↔
      Takes isList label options before := by
  by_cases hnamed : ∃ first, NamesFirst label options first
  · obtain ⟨first, hfirst⟩ := hnamed
    rw [matchChoice_named hfirst, Except.ok.injEq, Option.some.injEq, choicePort_inj]
    split
    · rename_i hbeyond
      constructor
      · intro hlength
        refine .inr ⟨List.eq_nil_of_length_eq_zero hlength.symm, fun other hother => ?_⟩
        rwa [hother.unique hfirst]
      · rintro (hnames | ⟨rfl, -⟩)
        · obtain rfl := hnames.unique hfirst
          exact absurd (hlimit hbeyond.1) (Nat.not_lt.mpr hbeyond.2)
        · rfl
    · rename_i hwithin
      constructor
      · intro hlength
        obtain ⟨o', after', heq, hrest⟩ := hfirst
        obtain ⟨rfl, -⟩ := List.append_inj (heq.symm.trans hoptions) hlength
        exact .inl ⟨o', after', heq, hrest⟩
      · rintro (hnames | ⟨-, hother⟩)
        · rw [hnames.unique hfirst]
        · exact absurd (hother first hfirst) hwithin
  · have hnone : ∀ first, ¬ NamesFirst label options first := fun first h => hnamed ⟨first, h⟩
    rw [matchChoice_unnamed (by simp [hoptions]) hnone, Except.ok.injEq, Option.some.injEq,
      choicePort_inj]
    constructor
    · intro hlength
      exact .inr ⟨List.eq_nil_of_length_eq_zero hlength.symm,
        fun other hother => absurd hother (hnone other)⟩
    · rintro (hnames | ⟨rfl, -⟩)
      · exact absurd hnames (hnone before)
      · rfl

/-! ## Replies by label -/

theorem Setup.Offers.replyVariable (h : s.Offers c n) :
    ∃ text, n.body.replyVariable = .str text := by
  have hkind := h.kind
  unfold Node.type? at hkind
  cases hbody : n.body <;> simp [hbody, Body.type?] at hkind <;> exact ⟨_, rfl⟩

theorem Setup.Offers.awaitsReply_iff (h : s.Offers c n) : s.AwaitsReply c n ↔ n.id ≠ "" :=
  Session.awaitsReply_iff h.suspended h.cursor_eq h.node_eq (by simp [h.awaiting_eq])

/-- Whatever a session has gone through, if it is at rest and waits for a choice, and a reply repeats
a label of an option, then it leaves the node through the port of the option exactly if the id of the
node is not empty and the reply, once it is trimmed, takes the way of the option. In a list, only the
options with a port of their own count; and no earlier option may bear the label. A label without
blanks around it always takes the way of its option. -/
theorem label_selects_iff (ms : List Move) (hrest : (State.steps s {} ms).1.isFree)
    (hoffers : s.Offers (State.steps s {} ms).1.memory.context n)
    (hchoices : (State.steps s {} ms).1.memory.context.choices = before ++ o :: after)
    (hlimit : n.type? = some .list → before.length < listPortLimit) (hlabel : o.Label label)
    (hfirst : ∀ o' ∈ before, ¬ o'.Bears label) :
    let st := (State.steps s {} ms).1
    (st.LeavesBy s (.str label) n (some (choicePort before.length)) ↔
      n.id ≠ "" ∧ Takes (n.type? = some .list) label st.memory.context.choices before) ∧
    (n.id ≠ "" → Text.trim label = label →
      st.LeavesBy s (.str label) n (some (choicePort before.length))) := by
  intro st
  replace hchoices : st.memory.context.choices = before ++ o :: after := hchoices
  have course : Course s Anything {} _ st :=
    Course.of_steps ms (State.allows_of_forall fun _ _ _ => trivial)
  have hport : replyPort st.memory.context n (.str label) =
      matchChoice (n.type? = some .list) st.memory.context.choices (.str label) :=
    if_pos hoffers.awaiting_eq
  have hiff : st.LeavesBy s (.str label) n (some (choicePort before.length)) ↔
      n.id ≠ "" ∧ Takes (n.type? = some .list) label st.memory.context.choices before := by
    obtain ⟨text, htext⟩ := hoffers.replyVariable
    rw [State.leavesBy_iff (course.numbered State.numbered_new) hrest hoffers.suspended,
      hoffers.awaitsReply_iff, hport, matchChoice_eq_iff hchoices (by simpa using hlimit)]
    simp [exists_replyVariable htext]
  refine ⟨hiff, fun hid htrim => hiff.mpr ⟨hid, .inl ?_⟩⟩
  rw [hchoices]
  exact namesFirst_of_label hlabel hfirst htrim

/-- A node that offers three options, one of them with a blank before its label. -/
def attendance : Node :=
  ⟨"c", .buttons
    { options := [{ text := "No" }, { text := " Yes" }, { text := "Maybe", value := "m" }]
      waitForResponse := true }⟩

def attending : Setup where
  graph :=
    { nodes := [⟨"s", .start {}⟩, attendance, ⟨"e", .ending {}⟩]
      edges :=
        [{ source := "s", target := "c" },
          { source := "c", target := "e", sourceHandle := "handle-1" }]
      sound := by decide }
  executor := { config := { startDelay := .int 0, nodeDelay := .int 0 } }

/-- The options have been offered, and the operation that has offered them is over. -/
def toOffer : List Move :=
  .begin (.start []) :: List.replicate 10 .tick ++
    [.answer 0 (.value .null), .tick, .tick, .answer 0 (.value .null), .tick, .tick]

theorem value_selects_option :
    (State.steps attending {} toOffer).1.LeavesBy attending (.str "m") attendance
      (some "handle-2") := by
  have hoffers : attending.Offers (State.steps attending {} toOffer).1.memory.context attendance :=
    ⟨by decide, by decide, by decide, by decide, by decide⟩
  have hchoices : (State.steps attending {} toOffer).1.memory.context.choices =
      [{ text := "No" }, { text := " Yes" }] ++ { text := "Maybe", value := "m" } :: [] := by
    decide
  have hlabel : ({ text := "Maybe", value := "m" } : ChoiceOption).Label "m" := .value (by decide)
  obtain ⟨-, hselects⟩ := label_selects_iff toOffer (by decide) hoffers hchoices (by decide) hlabel
    (by decide)
  exact hselects (by decide) (by decide)

/-- No option before the second one bears its label. But the reply that repeats the label word for
word, with the blank before it, goes the way of the first option. -/
theorem padded_label_goes_astray :
    let st := (State.steps attending {} toOffer).1
    let o : ChoiceOption := { text := " Yes" }
    st.isFree ∧ attending.Offers st.memory.context attendance ∧
      (∃ after, st.memory.context.choices = [{ text := "No" }] ++ o :: after) ∧ o.Label " Yes" ∧
      (∀ o' ∈ [({ text := "No" } : ChoiceOption)], ¬ o'.Bears " Yes") ∧
      st.Accepts attending (.str " Yes") attendance (some "handle-0") ∧
      ¬ st.LeavesBy attending (.str " Yes") attendance (some "handle-1") := by
  refine ⟨by decide, ⟨by decide, by decide, by decide, by decide, by decide⟩,
    ⟨[{ text := "Maybe", value := "m" }], by decide⟩, .text, by decide,
    ⟨by decide, "", by decide, by decide⟩, fun h => ?_⟩
  exact absurd h.holder_eq (by decide)

end Session

end ChatFlow
