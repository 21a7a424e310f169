/-!
# Tables

A table maps keys to values and keeps its keys in the order in which they first came. Setting a
key that is there replaces its value in place; a new key goes to the end. `get?_insert` and
`get?_erase` say what each change does to the look-up, `keys_insert` what it does to the order.
-/

namespace ChatFlow

/-- Keys with their values, in the order in which the keys first came. -/
abbrev Table (κ α : Type) := List (κ × α)

namespace Table

variable {κ α : Type} [DecidableEq κ]

def get? : Table κ α → κ → Option α
  | [], _ => none
  | (k, v) :: t, key => if k = key then some v else get? t key

def has (t : Table κ α) (key : κ) : Bool :=
  (get? t key).isSome

def keys (t : Table κ α) : List κ :=
  t.map Prod.fst

/-- The table with a key set to a value. -/
def insert : Table κ α → κ → α → Table κ α
  | [], key, value => [(key, value)]
  | (k, v) :: t, key, value => if k = key then (k, value) :: t else (k, v) :: insert t key value

def erase (t : Table κ α) (key : κ) : Table κ α :=
  t.filter fun e => e.1 ≠ key

/-- The table with all entries of another set, one after the other. -/
def merge (t u : Table κ α) : Table κ α :=
  u.foldl (fun t e => insert t e.1 e.2) t

/-- The table of a list of entries; of two entries with one key the later gives the value. -/
def ofEntries (entries : List (κ × α)) : Table κ α :=
  merge [] entries

@[simp] theorem get?_nil (key : κ) : get? ([] : Table κ α) key = none := rfl

@[simp] theorem get?_insert (t : Table κ α) (k key : κ) (v : α) :
    get? (insert t k v) key = if k = key then some v else get? t key := by
  induction t with
  | nil => simp [insert, get?]
  | cons e t ih =>
    obtain ⟨k', v'⟩ := e
    by_cases h : k' = k
    · subst h
      by_cases hk : k' = key <;> simp [insert, get?, hk]
    · have h' : ¬ k = k' := fun e => h e.symm
      by_cases hk : k' = key
      · subst hk
        simp [insert, get?, h, h']
      · simp [insert, get?, h, hk, ih]

@[simp] theorem get?_erase (t : Table κ α) (k key : κ) :
    get? (erase t k) key = if k = key then none else get? t key := by
  induction t with
  | nil => simp [erase]
  | cons e t ih =>
    obtain ⟨k', v'⟩ := e
    by_cases h : k' = k
    · subst h
      by_cases hk : k' = key
      · simpa [erase, hk] using ih
      · simpa [erase, get?, hk] using ih
    · have h' : ¬ k = k' := fun e => h e.symm
      by_cases hk : k' = key
      · subst hk
        simp [erase, get?, h, h']
      · simpa [erase, get?, h, hk] using ih

theorem mem_keys_iff {t : Table κ α} {key : κ} : key ∈ keys t ↔ ∃ v, get? t key = some v := by
  induction t with
  | nil => simp [keys]
  | cons e t ih =>
    obtain ⟨k, v⟩ := e
    by_cases h : k = key
    · simp [keys, get?, h]
    · have h' : ¬ key = k := fun e => h e.symm
      simpa [keys, get?, h, h'] using ih

theorem keys_insert (t : Table κ α) (k : κ) (v : α) :
    keys (insert t k v) = if k ∈ keys t then keys t else keys t ++ [k] := by
  induction t with
  | nil => simp [insert, keys]
  | cons e t ih =>
    obtain ⟨k', v'⟩ := e
    by_cases h : k' = k
    · simp [insert, keys, h]
    · have h' : ¬ k = k' := fun e => h e.symm
      simp only [keys] at ih
      by_cases hm : k ∈ List.map Prod.fst t
      · simp [insert, keys, h, ih, hm]
      · simp [insert, keys, h, h', ih, hm]

theorem insert_of_not_mem {t : Table κ α} {k : κ} (h : k ∉ keys t) (v : α) :
    insert t k v = t ++ [(k, v)] := by
  induction t with
  | nil => rfl
  | cons e t ih =>
    obtain ⟨hne, hrest⟩ := not_or.mp (mt List.mem_cons.mpr h)
    rw [insert, if_neg (Ne.symm hne), ih hrest, List.cons_append]

theorem nodup_keys_insert {t : Table κ α} (h : (keys t).Nodup) (k : κ) (v : α) :
    (keys (insert t k v)).Nodup := by
  rw [keys_insert]
  split
  · exact h
  · rename_i hnew
    refine List.nodup_append.mpr ⟨h, by simp, fun a ha b hb => ?_⟩
    obtain rfl := List.mem_singleton.mp hb
    rintro rfl
    exact hnew ha

theorem nodup_keys_merge {t : Table κ α} (h : (keys t).Nodup) (u : Table κ α) :
    (keys (merge t u)).Nodup := by
  induction u generalizing t with
  | nil => exact h
  | cons e u ih => exact ih (nodup_keys_insert h e.1 e.2)

theorem get?_merge {u : Table κ α} (h : (keys u).Nodup) (t : Table κ α) (key : κ) :
    get? (merge t u) key = (get? u key).or (get? t key) := by
  induction u generalizing t with
  | nil => rfl
  | cons e u ih =>
    obtain ⟨k, v⟩ := e
    obtain ⟨hnew, hrest⟩ := List.nodup_cons.mp h
    have hmerge : get? (merge t ((k, v) :: u)) key =
        (get? u key).or (get? (insert t k v) key) := ih hrest (insert t k v)
    rw [hmerge, get?_insert]
    by_cases hk : k = key
    · subst hk
      have hnone : get? u k = none := by
        refine Option.eq_none_iff_forall_ne_some.mpr fun w hw => hnew ?_
        exact mem_keys_iff.mpr ⟨w, hw⟩
      simp [get?, hnone]
    · simp [get?, hk]

theorem get?_merge_of_not_mem {u : Table κ α} {key : κ} (h : key ∉ keys u) (t : Table κ α) :
    get? (merge t u) key = get? t key := by
  induction u generalizing t with
  | nil => rfl
  | cons e u ih =>
    obtain ⟨hne, hrest⟩ := not_or.mp (mt List.mem_cons.mpr h)
    have hmerge : get? (merge t (e :: u)) key = get? (insert t e.1 e.2) key :=
      ih hrest (insert t e.1 e.2)
    rw [hmerge, get?_insert, if_neg (Ne.symm hne)]

end Table

end ChatFlow
