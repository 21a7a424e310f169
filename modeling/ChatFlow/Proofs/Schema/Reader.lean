import ChatFlow.Schema.Reader
import Mathlib.Data.List.Basic

/-!
# Reading what was written

`Reads` says of a reader and a writer that the reader gives back what was written. A field is read
back where it was written under the first of its names (`field_of_get?`), whatever other fields
there are, and the fields that are left over are those that were not written for a declared one
(`remaining_append`).
-/

namespace ChatFlow.Schema

variable {α β : Type}

namespace Checked

theorem map_eq_valid {f : α → β} {x : Checked α} {b : β} :
    map f x = .valid b ↔ ∃ a, x = .valid a ∧ f a = b := by
  cases x <;> simp [map]

theorem ap_eq_valid {f : Checked (α → β)} {x : Checked α} {b : β} :
    ap f x = .valid b ↔ ∃ g a, f = .valid g ∧ x = .valid a ∧ g a = b := by
  cases f <;> cases x <;> simp [ap]

theorem andThen_eq_valid {x : Checked α} {f : α → Checked β} {b : β} :
    x.andThen f = .valid b ↔ ∃ a, x = .valid a ∧ f a = .valid b := by
  cases x <;> simp [andThen]

theorem ofIssues_eq_valid {is : List Issue} {u : Unit} : ofIssues is = .valid u ↔ is = [] := by
  cases is <;> simp [ofIssues]

end Checked

/-- The reader gives back what was written. -/
def Reads (read : Reader α) (write : α → Value) : Prop :=
  ∀ a, read (write a) = .valid a

variable {read : Reader α} {write : α → Value}

theorem reads_text : Reads Reader.text .str := fun _ => rfl

theorem reads_integer : Reads Reader.integer .int := fun _ => rfl

theorem reads_boolean : Reads Reader.boolean .bool := fun _ => rfl

theorem Reads.optional (h : Reads read write) (hnull : ∀ a, write a ≠ .null) :
    Reads (Reader.optional read) fun o => (o.map write).getD .null := by
  intro o
  cases o with
  | none => rfl
  | some a =>
    show Reader.optional read (write a) = .valid (some a)
    unfold Reader.optional
    split
    · rename_i heq
      exact absurd heq (hnull a)
    · rw [h a]
      rfl

theorem traverse_go_map (h : Reads read write) (i : Nat) (as : List α) :
    Checked.traverse.go read i (as.map write) = .valid as := by
  induction as generalizing i with
  | nil => rfl
  | cons a as ih => simp [Checked.traverse.go, h a, ih, Checked.under]

theorem Reads.list (h : Reads read write) :
    Reads (Reader.list read) fun as => .list (as.map write) :=
  fun as => traverse_go_map h 0 as

/-! ## Fields -/

theorem presentName_cons {fs : Fields} {name : String} (h : Table.has fs name) (others : List String) :
    presentName fs (name :: others) = some name := by
  simp [presentName, h]

/-- A field is read back where it stands under the first of its names. -/
theorem field_of_get? (h : Reads read write) {fs : Fields} {name : String} {a default : α}
    (hfs : Table.get? fs name = some (write a)) (others : List String) :
    field fs (name :: others) read default = .valid a := by
  have hhas : Table.has fs name := by simp [Table.has, hfs]
  simp [field, presentName_cons hhas, hfs, h a, Checked.under]

/-- The names under which declared fields are written. -/
def firstNames (declared : List (List String)) : List String :=
  declared.filterMap List.head?

theorem has_of_mem {fs : Fields} {e : String × Value} (h : e ∈ fs) : Table.has fs e.1 := by
  obtain ⟨v, hv⟩ := Table.mem_keys_iff.mp (List.mem_map_of_mem (f := Prod.fst) h)
  simp [Table.has, hv]

theorem not_mem_firstNames_of_remaining {fs : Fields} {declared : List (List String)}
    {e : String × Value} (h : e ∈ remaining fs declared) : e.1 ∉ firstNames declared := by
  obtain ⟨hmem, huntaken⟩ := List.mem_filter.mp h
  intro hfirst
  obtain ⟨names, hnames, hhead⟩ := List.mem_filterMap.mp hfirst
  obtain ⟨others, rfl⟩ : ∃ others, names = e.1 :: others := by
    cases names <;> simp_all
  have htaken : e.1 ∈ declared.filterMap (presentName fs) :=
    List.mem_filterMap.mpr ⟨_, hnames, presentName_cons (has_of_mem hmem) others⟩
  simp [htaken] at huntaken

/-- Behind fields that are written for the declared ones, all others are left over. -/
theorem remaining_append {own extra : Fields} {declared : List (List String)}
    (hnamed : [] ∉ declared) (hown : own.keys = firstNames declared)
    (hextra : ∀ e ∈ extra, e.1 ∉ firstNames declared) :
    remaining (own ++ extra) declared = extra := by
  have htaken : declared.filterMap (presentName (own ++ extra)) = firstNames declared := by
    refine List.filterMap_congr fun names hnames => ?_
    cases names with
    | nil => exact absurd hnames hnamed
    | cons name others =>
      have hname : name ∈ own.keys := hown ▸ List.mem_filterMap.mpr ⟨_, hnames, rfl⟩
      obtain ⟨e, he, rfl⟩ := List.mem_map.mp hname
      exact presentName_cons (has_of_mem (List.mem_append_left extra he)) others
  have hnone : own.filter (fun e => e.1 ∉ firstNames declared) = [] := by
    refine List.filter_eq_nil_iff.mpr fun e he => ?_
    have hmem : e.1 ∈ firstNames declared := hown ▸ List.mem_map_of_mem (f := Prod.fst) he
    simp [hmem]
  have hall : extra.filter (fun e => e.1 ∉ firstNames declared) = extra :=
    List.filter_eq_self.mpr fun e he => by simpa using hextra e he
  rw [remaining, htaken, List.filter_append, hnone, hall, List.nil_append]

end ChatFlow.Schema
