import ChatFlow.Proofs.Template.Filled
import Mathlib.Data.List.DropRight

/-!
# Names of variables

An authored name is cleaned when a variable is set, and a placeholder's name is trimmed when it is
looked up. `trim_cleanName_iff` says when the two agree: a cleaned name is trimmed already, unless
it was written with blanks behind its dollar sign (`Padded`), which cleaning leaves in front of it.

Where they agree, a variable that has just been set is what its placeholder stands for, whatever
the dots in its name could lead to (`resolve_insert_self`). Where they do not, the placeholder
stands for the same as before (`resolve_insert_trim`).
-/

namespace ChatFlow

namespace Text

variable {drop : Char → Bool} {cs : List Char} {c : Char} {s : String}

theorem stripBy_eq_self_iff :
    stripBy drop cs = cs ↔ cs.dropWhile drop = cs ∧ cs.rdropWhile drop = cs := by
  have hstrip : stripBy drop cs = (cs.dropWhile drop).rdropWhile drop := rfl
  constructor
  · intro h
    have hlength : cs.length ≤ (cs.dropWhile drop).length := by
      conv_lhs => rw [← h, hstrip]
      exact (List.rdropWhile_prefix drop _).length_le
    have hfront : cs.dropWhile drop = cs := (List.dropWhile_suffix drop).eq_of_length_le hlength
    rw [hstrip, hfront] at h
    exact ⟨hfront, h⟩
  · rintro ⟨hfront, hback⟩
    rw [hstrip, hfront, hback]

theorem stripBy_within : stripBy drop cs <:+: cs :=
  (List.rdropWhile_prefix drop _).isInfix.trans (List.dropWhile_suffix drop).isInfix

theorem drop_eq_false_of_stripBy {rest : List Char} (h : stripBy drop cs = c :: rest) :
    drop c = false := by
  obtain ⟨t, ht⟩ := List.rdropWhile_prefix drop (cs.dropWhile drop)
  have hfront : cs.dropWhile drop = c :: (rest ++ t) := by
    rw [← ht, ← List.cons_append, ← h]
    rfl
  have hhead := List.head?_dropWhile_not drop cs
  rwa [hfront] at hhead

theorem rdropWhile_stripBy : (stripBy drop cs).rdropWhile drop = stripBy drop cs :=
  List.rdropWhile_idempotent drop (cs.dropWhile drop)

theorem rdropWhile_eq_self_of_suffix {ds : List Char} (hsuffix : ds <:+ cs)
    (h : cs.rdropWhile drop = cs) : ds.rdropWhile drop = ds := by
  rw [List.rdropWhile_eq_self_iff] at h ⊢
  intro hne
  rw [hsuffix.getLast hne]
  exact h _

@[simp] theorem toList_trim (s : String) : (trim s).toList = stripBy isBlank s.toList :=
  String.toList_ofList

theorem trim_eq_self_iff : trim s = s ↔ stripBy isBlank s.toList = s.toList := by
  rw [← String.toList_inj, toList_trim]

end Text

namespace Template

open Text TokenShape

variable {authored name key : String} {vars : Fields} {v : Value}

/-! ## Cleaned names -/

/-- Between the dollar sign of an authored name and the name itself there are blanks. -/
def Padded (authored : String) : Prop :=
  ∃ c rest, (trim authored).toList = '$' :: c :: rest ∧ isBlank c = true

theorem toList_cleanName (authored : String) :
    (trim authored).toList = '$' :: (cleanName authored).toList ∨
      (trim authored).toList = (cleanName authored).toList ∧
        ∀ rest, (trim authored).toList ≠ '$' :: rest := by
  unfold cleanName
  split
  · rename_i rest h
    exact .inl (by simpa using h)
  · rename_i hplain
    exact .inr ⟨by simp, fun rest h => hplain rest h⟩

theorem rdropWhile_cleanName (authored : String) :
    (cleanName authored).toList.rdropWhile isBlank = (cleanName authored).toList := by
  have hsuffix : (cleanName authored).toList <:+ (trim authored).toList := by
    rcases toList_cleanName authored with h | ⟨h, -⟩
    · rw [h]
      exact List.suffix_cons _ _
    · simp only [h, List.suffix_rfl]
  rw [toList_trim] at hsuffix
  exact rdropWhile_eq_self_of_suffix hsuffix rdropWhile_stripBy

theorem dropWhile_cleanName_iff :
    (cleanName authored).toList.dropWhile isBlank = (cleanName authored).toList ↔
      ¬ Padded authored := by
  constructor
  · rintro h ⟨c, rest, htrim, hc⟩
    have hclean : (cleanName authored).toList = c :: rest := by
      rcases toList_cleanName authored with heq | ⟨-, hplain⟩
      · exact (List.cons.inj (heq.symm.trans htrim)).2
      · exact absurd htrim (hplain _)
    rw [hclean, List.dropWhile_cons_of_pos hc] at h
    have hlength := congrArg List.length h
    have hle := (List.dropWhile_suffix isBlank (l := rest)).length_le
    simp only [List.length_cons] at hlength
    omega
  · intro hplain
    cases hclean : (cleanName authored).toList with
    | nil => rfl
    | cons c rest =>
      refine List.dropWhile_cons_of_neg fun hc => ?_
      rcases toList_cleanName authored with heq | ⟨heq, -⟩
      · exact hplain ⟨c, rest, by rw [heq, hclean], hc⟩
      · rw [hclean, toList_trim] at heq
        simp [drop_eq_false_of_stripBy heq] at hc

/-- A cleaned name is trimmed already, unless the authored one was padded. -/
theorem trim_cleanName_iff :
    trim (cleanName authored) = cleanName authored ↔ ¬ Padded authored := by
  rw [trim_eq_self_iff, stripBy_eq_self_iff, dropWhile_cleanName_iff]
  exact and_iff_left (rdropWhile_cleanName authored)

/-! ## What a name stands for -/

/-- The variable of a name wins over what its dots lead to. -/
theorem resolve_insert_self (vars : Fields) (name : String) (v : Value) :
    resolve (vars.insert name v) name = some v := by
  simp [resolve]

theorem exists_splitAt (separator : Char) (cs : List Char) :
    ∃ part parts, splitAt separator cs = part :: parts ∧ part <+: cs := by
  induction cs with
  | nil => exact ⟨[], [], rfl, List.prefix_rfl⟩
  | cons c r ih =>
    obtain ⟨part, parts, hsplit, hprefix⟩ := ih
    by_cases hc : c = separator
    · exact ⟨[], splitAt separator r, by rw [splitAt, if_pos hc], List.nil_prefix⟩
    · refine ⟨c :: part, parts, by rw [splitAt, if_neg hc, hsplit], ?_⟩
      exact List.cons_prefix_cons.mpr ⟨rfl, hprefix⟩

theorem resolve_insert_of_not_prefix (h : ¬ key.toList <+: name.toList) (vars : Fields)
    (v : Value) : resolve (vars.insert key v) name = resolve vars name := by
  have hname : key ≠ name := by
    rintro rfl
    exact h List.prefix_rfl
  obtain ⟨part, parts, hsplit, hprefix⟩ := exists_splitAt '.' name.toList
  have hpart : key ≠ String.ofList part := by
    rintro rfl
    exact h (by simpa using hprefix)
  simp [resolve, hname, hsplit, descend, hpart]

/-- A name with blanks in front or behind does not change what the trimmed name stands for. -/
theorem resolve_insert_trim (h : trim name ≠ name) (vars : Fields) (v : Value) :
    resolve (vars.insert name v) (trim name) = resolve vars (trim name) := by
  refine resolve_insert_of_not_prefix (fun hprefix => h ?_) vars v
  have hlength : (trim name).toList.length ≤ name.toList.length := by
    rw [toList_trim]
    exact stripBy_within.length_le
  rw [← String.toList_inj, hprefix.eq_of_length_le hlength]

/-! ## The placeholder of a name -/

/-- A name between double braces. -/
def placeholderOf (name : String) : String :=
  "\x7b\x7b" ++ name ++ "\x7d\x7d"

theorem toList_placeholderOf (name : String) :
    (placeholderOf name).toList = placeholder.wrap name.toList := by
  simp [placeholderOf, wrap, placeholder]

theorem interpolate_placeholderOf (hne : name ≠ "") (hclosing : '\x7d' ∉ name.toList)
    (vars : Fields) :
    interpolate (placeholderOf name) vars =
      ((resolve vars (trim name)).map Value.format).getD (placeholderOf name) := by
  have hencloses : placeholder.Encloses name.toList :=
    encloses_iff.mpr ⟨by simpa using hne, hclosing⟩
  have hcut : placeholder.cut (placeholder.wrap name.toList) = [.token name.toList] := by
    simpa using cut_wrap placeholder_definite hencloses []
  have hname : nameOf name.toList = trim name := by
    rw [nameOf, String.ofList_toList]
  rw [← String.toList_inj, toList_interpolate, toList_placeholderOf, fill_eq, hcut]
  cases hvalue : resolve vars (trim name) with
  | none => simp [filling, substituteOf, hname, hvalue, toList_placeholderOf]
  | some v => simp [filling, substituteOf, hname, hvalue]

/-- A variable that has been set under a cleaned name is what its placeholder shows, unless the
authored name was padded; then the placeholder shows what it showed before. -/
theorem interpolate_insert_cleanName (hne : cleanName authored ≠ "")
    (hclosing : '\x7d' ∉ (cleanName authored).toList) (vars : Fields) (v : Value) :
    let shown := interpolate (placeholderOf (cleanName authored))
    (¬ Padded authored → shown (vars.insert (cleanName authored) v) = v.format) ∧
      (Padded authored → shown (vars.insert (cleanName authored) v) = shown vars) := by
  intro shown
  refine ⟨fun hplain => ?_, fun hpadded => ?_⟩
  · simp only [shown, interpolate_placeholderOf hne hclosing, trim_cleanName_iff.mpr hplain,
      resolve_insert_self, Option.map_some, Option.getD_some]
  · have htrim : trim (cleanName authored) ≠ cleanName authored :=
      fun h => trim_cleanName_iff.mp h hpadded
    simp only [shown, interpolate_placeholderOf hne hclosing, resolve_insert_trim htrim]

end Template

end ChatFlow
