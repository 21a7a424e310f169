import ChatFlow.Proofs.Execution.Result
import ChatFlow.Session.Basic

/-!
# Replies to a choice

`Picks b reply port` says through which port a reply leaves a node that offers options: that of the
first option that the reply names, and that of the first option of all where it names none, or one
of a list that has no port of its own. `picks_of_matchChoice` shows that this is how replies are
matched.
-/

namespace ChatFlow.Session

/-- A reply names an option by its text or its value, in any case and with blanks around it. -/
def Names (reply : String) (o : ChoiceOption) : Prop :=
  Text.lower o.text = Text.lower (Text.trim reply) ∨
    o.value ≠ "" ∧ Text.lower o.value = Text.lower (Text.trim reply)

/-- The first of some options that a reply names, with the options before it. -/
def NamesFirst (reply : String) (options before : List ChoiceOption) : Prop :=
  ∃ o after, options = before ++ o :: after ∧ Names reply o ∧ ∀ o' ∈ before, ¬ Names reply o'

/-- The ports through which a reply leaves a node that offers options. -/
inductive Picks (b : Body) : Value → Option String → Prop
  | unoffered {reply : Value} (h : b.options = []) : Picks b reply none
  | named {reply : String} {before : List ChoiceOption} (h : NamesFirst reply b.options before)
      (hlimit : b.type? = some .list → before.length < listPortLimit) :
      Picks b (.str reply) (some (choicePort before.length))
  | beyond {reply : String} {before : List ChoiceOption} (h : NamesFirst reply b.options before)
      (hlist : b.type? = some .list) (hlimit : listPortLimit ≤ before.length) :
      Picks b (.str reply) (some (choicePort 0))
  | unnamed {reply : String} (hoptions : b.options ≠ [])
      (h : ∀ o ∈ b.options, ¬ Names reply o) : Picks b (.str reply) (some (choicePort 0))

variable {reply : String} {options : List ChoiceOption}

theorem names_iff {o : ChoiceOption} :
    (Text.lower o.text == Text.lower (Text.trim reply) ||
      (!o.value.isEmpty && Text.lower o.value == Text.lower (Text.trim reply))) = true ↔
      Names reply o := by
  simp [Names]

theorem namesFirst_of_findChoice? {i : Nat}
    (h : findChoice? options (Text.lower (Text.trim reply)) = some i) :
    ∃ before, before.length = i ∧ NamesFirst reply options before := by
  obtain ⟨hi, hnamed, hbefore⟩ := List.findIdx?_eq_some_iff_getElem.mp h
  refine ⟨options.take i, by simp; omega, options[i], options.drop (i + 1), by simp,
    names_iff.mp hnamed, fun o ho => ?_⟩
  obtain ⟨j, hj, rfl⟩ := List.mem_take_iff_getElem.mp ho
  rw [← names_iff]
  exact hbefore j (by omega)

theorem not_names_of_findChoice?
    (h : findChoice? options (Text.lower (Text.trim reply)) = none) {o : ChoiceOption}
    (ho : o ∈ options) : ¬ Names reply o := by
  have hnone := List.findIdx?_eq_none_iff.mp h o ho
  rw [← names_iff]
  simpa using hnone

theorem picks_of_matchChoice {b : Body} {reply : Value} {port : Option String}
    (h : matchChoice (b.type? = some .list) b.options reply = .ok port) : Picks b reply port := by
  unfold matchChoice at h
  split at h
  · rename_i hoptions
    obtain rfl : none = port := by simpa using h
    exact .unoffered (by simpa using hoptions)
  · rename_i hoptions
    cases reply with
    | str text =>
      dsimp only at h
      split at h
      · rename_i i hfound
        obtain ⟨before, rfl, hfirst⟩ := namesFirst_of_findChoice? hfound
        have hlength : before.length < b.options.length := by
          obtain ⟨o, after, heq, -, -⟩ := hfirst
          simp [heq]
        obtain rfl := (Except.ok.inj h).symm
        by_cases hlist : b.type? = some .list
        · by_cases hlimit : before.length < listPortLimit
          · simpa [hlist, hlimit] using Picks.named hfirst fun _ => hlimit
          · simpa [hlist, hlimit] using Picks.beyond hfirst hlist (Nat.le_of_not_lt hlimit)
        · simpa [hlist, hlength] using Picks.named hfirst fun h => absurd h hlist
      · rename_i hnone
        obtain rfl := (Except.ok.inj h).symm
        exact .unnamed (by simpa using hoptions) fun o ho => not_names_of_findChoice? hnone ho
    | _ => simp at h

end ChatFlow.Session
