import ChatFlow.Proofs.Schema.Reader

/-!
# Fields under other names

A field that has several names and is present under one of them may be given another of its names
(`Renames`). Then every declared field has the same value as before (`Renames.value?_field`), and
what is left over is the same (`Renames.remaining_eq`), as long as no two fields share a name. Only
issues can tell the names apart, for they are reported under the name that was used.
-/

namespace ChatFlow

namespace Table

variable {κ α : Type} [DecidableEq κ] {t : Table κ α} {old new key : κ}

/-- The table with what was under one key under another, in the same place. -/
def rename (t : Table κ α) (old new : κ) : Table κ α :=
  t.map fun e => (if e.1 = old then new else e.1, e.2)

theorem get?_rename_new (h : t.has new = false) : (t.rename old new).get? new = t.get? old := by
  induction t with
  | nil => rfl
  | cons e t ih =>
    obtain ⟨k, v⟩ := e
    by_cases hnew : k = new
    · simp [has, get?, hnew] at h
    · have hrest : Table.has t new = false := by simpa [has, get?, hnew] using h
      by_cases hold : k = old <;> simp_all [rename, get?]

theorem get?_rename_old (h : old ≠ new) : (t.rename old new).get? old = none := by
  induction t with
  | nil => rfl
  | cons e t ih =>
    obtain ⟨k, v⟩ := e
    by_cases hold : k = old <;> simp_all [rename, get?, h.symm]

theorem get?_rename_of_ne (hold : key ≠ old) (hnew : key ≠ new) :
    (t.rename old new).get? key = t.get? key := by
  induction t with
  | nil => rfl
  | cons e t ih =>
    obtain ⟨k, v⟩ := e
    by_cases hk : k = old <;> simp_all [rename, get?, hold.symm, hnew.symm]

theorem insert_rename (hold : key ≠ old) (hnew : key ≠ new) (v : α) :
    (t.rename old new).insert key v = (t.insert key v).rename old new := by
  induction t with
  | nil => simp [rename, insert, hold]
  | cons e t ih =>
    obtain ⟨k, w⟩ := e
    by_cases hk : k = old
    · subst hk
      simp_all [rename, insert, hold.symm, hnew.symm]
    · by_cases hkey : k = key <;> simp_all [rename, insert]

end Table

namespace Schema

open Table

variable {α : Type}

/-! ## Values without issues -/

namespace Checked

variable {β : Type}

@[simp] theorem value?_map (f : α → β) (x : Checked α) : (map f x).value? = x.value?.map f := by
  cases x <;> rfl

@[simp] theorem value?_ap (f : Checked (α → β)) (x : Checked α) :
    (ap f x).value? = f.value?.bind fun g => x.value?.map g := by
  cases f <;> cases x <;> rfl

@[simp] theorem value?_andThen (x : Checked α) (f : α → Checked β) :
    (x.andThen f).value? = x.value?.bind fun a => (f a).value? := by
  cases x <;> rfl

@[simp] theorem value?_under (step : Step) (x : Checked α) : (x.under step).value? = x.value? := by
  cases x <;> rfl

end Checked

/-! ## Renaming a field -/

/-- A field that is present under one of its names is given another one. -/
inductive Renames (declared : List (List String)) (fs : Fields) : Fields → Prop
  | mk {names : List String} {old new : String} (hnames : names ∈ declared) (hold : old ∈ names)
      (hnew : new ∈ names) (hne : old ≠ new) (hhas : Table.has fs old = true)
      (honly : ∀ name ∈ names, name ≠ old → Table.has fs name = false) :
      Renames declared fs (Table.rename fs old new)

theorem presentName_eq_some {fs : Fields} {names : List String} {name : String}
    (hname : name ∈ names) (hhas : Table.has fs name = true)
    (honly : ∀ other ∈ names, other ≠ name → Table.has fs other = false) :
    presentName fs names = some name := by
  cases h : presentName fs names with
  | none => exact absurd hhas (by simpa using List.find?_eq_none.mp h name hname)
  | some found =>
    by_contra hne
    have hfound : Table.has fs found = false :=
      honly found (List.mem_of_find?_eq_some h) fun heq => hne (congrArg some heq)
    exact absurd (List.find?_some h) (by simp [hfound])

theorem presentName_congr {fs fs' : Fields} {names : List String}
    (h : ∀ name ∈ names, Table.has fs name = Table.has fs' name) :
    presentName fs names = presentName fs' names := by
  induction names with
  | nil => rfl
  | cons name rest ih =>
    obtain ⟨hname, hrest⟩ := List.forall_mem_cons.mp h
    have hlater : rest.find? (Table.has fs) = rest.find? (Table.has fs') := ih hrest
    simp [presentName, List.find?_cons, hname, hlater]

/-- No two of the declared fields share a name. -/
def Unambiguous (declared : List (List String)) : Prop :=
  ∀ names ∈ declared, ∀ others ∈ declared, ∀ name ∈ names, name ∈ others → others = names

instance (declared : List (List String)) : Decidable (Unambiguous declared) :=
  inferInstanceAs (Decidable (∀ names ∈ declared, ∀ others ∈ declared, ∀ name ∈ names,
    name ∈ others → others = names))

namespace Renames

variable {declared : List (List String)} {fs fs' : Fields}

theorem present (h : Renames declared fs fs') (hdeclared : Unambiguous declared) :
    ∃ names ∈ declared, ∃ old new, old ≠ new ∧ fs' = Table.rename fs old new ∧
      Table.has fs new = false ∧
      presentName fs names = some old ∧ presentName fs' names = some new ∧
      ∀ others ∈ declared, others ≠ names → old ∉ others ∧ new ∉ others ∧
        presentName fs' others = presentName fs others := by
  obtain @⟨names, old, new, hnames, hold, hnew, hne, hhas, honly⟩ := h
  have habsent : Table.has fs new = false := honly new hnew hne.symm
  refine ⟨names, hnames, old, new, hne, rfl, habsent, presentName_eq_some hold hhas honly,
    presentName_eq_some hnew ?_ fun name hname hother => ?_, fun others hothers hapart => ?_⟩
  · rw [Table.has, get?_rename_new habsent]
    exact hhas
  · by_cases heq : name = old
    · rw [heq, Table.has, get?_rename_old hne]
      rfl
    · rw [Table.has, get?_rename_of_ne heq hother]
      exact honly name hname heq
  · -- no name belongs to two fields
    have hold' : old ∉ others := fun h => hapart (hdeclared _ hnames _ hothers _ hold h)
    have hnew' : new ∉ others := fun h => hapart (hdeclared _ hnames _ hothers _ hnew h)
    refine ⟨hold', hnew', presentName_congr fun name hname => ?_⟩
    rw [Table.has, Table.has, get?_rename_of_ne (ne_of_mem_of_not_mem hname hold')
      (ne_of_mem_of_not_mem hname hnew')]

theorem found_eq (h : Renames declared fs fs') (hdeclared : Unambiguous declared)
    {names : List String} (hnames : names ∈ declared) :
    (presentName fs' names).map (Table.get? fs') = (presentName fs names).map (Table.get? fs) := by
  obtain ⟨renamed, hrenamed, old, new, hne, rfl, habsent, hbefore, hafter, hothers⟩ :=
    h.present hdeclared
  by_cases heq : names = renamed
  · subst heq
    simp [hbefore, hafter, get?_rename_new habsent]
  · obtain ⟨hold, hnew, hsame⟩ := hothers names hnames heq
    rw [hsame]
    refine Option.map_congr fun name hname => ?_
    have hmem : name ∈ names := List.mem_of_find?_eq_some hname
    exact get?_rename_of_ne (ne_of_mem_of_not_mem hmem hold) (ne_of_mem_of_not_mem hmem hnew)

theorem value?_field (h : Renames declared fs fs') (hdeclared : Unambiguous declared)
    {names : List String} (hnames : names ∈ declared) (read : Reader α) (default : α) :
    (field fs' names read default).value? = (field fs names read default).value? := by
  have hfound := h.found_eq hdeclared hnames
  unfold field
  cases hbefore : presentName fs names <;> cases hafter : presentName fs' names <;>
    simp_all

theorem value?_required (h : Renames declared fs fs') (hdeclared : Unambiguous declared)
    {name : String} {others : List String} (hnames : name :: others ∈ declared) (read : Reader α) :
    (required fs' name others read).value? = (required fs name others read).value? := by
  have hfound := h.found_eq hdeclared hnames
  unfold required
  cases hbefore : presentName fs (name :: others) <;>
    cases hafter : presentName fs' (name :: others) <;> simp_all

/-- Exactly the same fields are left over. -/
theorem remaining_eq (h : Renames declared fs fs') (hdeclared : Unambiguous declared) :
    remaining fs' declared = remaining fs declared := by
  obtain ⟨renamed, hrenamed, old, new, hne, rfl, habsent, hbefore, hafter, hothers⟩ :=
    h.present hdeclared
  have hold : old ∈ declared.filterMap (presentName fs) :=
    List.mem_filterMap.mpr ⟨renamed, hrenamed, hbefore⟩
  have hnew : new ∈ declared.filterMap (presentName (Table.rename fs old new)) :=
    List.mem_filterMap.mpr ⟨renamed, hrenamed, hafter⟩
  have hsame : ∀ key, key ≠ old → key ≠ new →
      (key ∈ declared.filterMap (presentName (Table.rename fs old new)) ↔
        key ∈ declared.filterMap (presentName fs)) := by
    intro key hold hnew
    simp only [List.mem_filterMap]
    refine exists_congr fun names => and_congr_right fun hnames => ?_
    by_cases heq : names = renamed
    · subst heq
      simp [hbefore, hafter, hold.symm, hnew.symm]
    · rw [(hothers names hnames heq).2.2]
  have hfilter : ∀ e ∈ fs,
      ((if e.1 = old then new else e.1) ∉ declared.filterMap
          (presentName (Table.rename fs old new)) ↔
        e.1 ∉ declared.filterMap (presentName fs)) := by
    intro e he
    have hne : e.1 ≠ new := by
      intro heq
      have hhas := has_of_mem he
      simp [heq, habsent] at hhas
    by_cases heq : e.1 = old
    · simp only [heq, if_true, hnew, hold, not_true_eq_false]
    · rw [if_neg heq, hsame _ heq hne]
  have hkept : ∀ e ∈ fs.filter fun e => e.1 ∉ declared.filterMap (presentName fs),
      ((if e.1 = old then new else e.1), e.2) = e := by
    intro e he
    have huntaken := (List.mem_filter.mp he).2
    have hne : e.1 ≠ old := by
      intro heq
      simp [heq, hold] at huntaken
    simp [hne]
  calc remaining (Table.rename fs old new) declared
      = (fs.filter fun e => e.1 ∉ declared.filterMap (presentName fs)).map fun e =>
          ((if e.1 = old then new else e.1), e.2) := by
        rw [remaining, Table.rename, List.filter_map]
        refine congrArg _ (List.filter_congr fun e he => ?_)
        exact decide_eq_decide.mpr (hfilter e he)
    _ = remaining fs declared := (List.map_congr_left hkept).trans (List.map_id _)

theorem not_mem_renamed (hdeclared : Unambiguous declared) {key : String} (hkey : [key] ∈ declared)
    {names : List String} {old new : String} (hnames : names ∈ declared) (hold : old ∈ names)
    (hnew : new ∈ names) (hne : old ≠ new) : key ∉ names := by
  intro hmem
  obtain rfl := hdeclared _ hnames _ hkey _ hmem List.mem_cons_self
  exact hne ((List.mem_singleton.mp hold).trans (List.mem_singleton.mp hnew).symm)

theorem get?_eq (h : Renames declared fs fs') (hdeclared : Unambiguous declared) {key : String}
    (hkey : [key] ∈ declared) : Table.get? fs' key = Table.get? fs key := by
  obtain @⟨names, old, new, hnames, hold, hnew, hne, hhas, honly⟩ := h
  have hother := not_mem_renamed hdeclared hkey hnames hold hnew hne
  exact get?_rename_of_ne (ne_of_mem_of_not_mem hold hother).symm
    (ne_of_mem_of_not_mem hnew hother).symm

theorem insert (h : Renames declared fs fs') (hdeclared : Unambiguous declared) {key : String}
    (hkey : [key] ∈ declared) (v : Value) :
    Renames declared (Table.insert fs key v) (Table.insert fs' key v) := by
  obtain @⟨names, old, new, hnames, hold, hnew, hne, hhas, honly⟩ := h
  have hother := not_mem_renamed hdeclared hkey hnames hold hnew hne
  have hsame : ∀ name ∈ names, Table.has (Table.insert fs key v) name = Table.has fs name := by
    intro name hname
    have hne : key ≠ name := (ne_of_mem_of_not_mem hname hother).symm
    simp [Table.has, hne]
  rw [insert_rename (ne_of_mem_of_not_mem hold hother).symm
    (ne_of_mem_of_not_mem hnew hother).symm]
  refine .mk hnames hold hnew hne ?_ fun name hname hapart => ?_
  · rw [hsame old hold]
    exact hhas
  · rw [hsame name hname]
    exact honly name hname hapart

end Renames

end Schema

end ChatFlow
