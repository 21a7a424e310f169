import ChatFlow.Context.Store
import Mathlib.Data.List.Induction

/-!
# What the store keeps apart

A session is addressed by its tenant and its own id, but the store knows it by one text only, in
which the two are joined by a colon. `Address.key_eq_iff` says which addresses are mixed up by that:
those where a colon inside a tenant can be taken for the one behind it.

`store_keeps_apart_iff` is the exact law of the store. A change under one address leaves what is
kept under another as it is unless the two are mixed up. And for the sessions of given tenants the
store is a map from addresses to contexts, which lists the sessions of each tenant and counts them
all, exactly if no key of these sessions bears the mark of another of these tenants. Tenants without
a colon fulfil that. `colon_mixes_up_tenants` is the smallest case in which they are not kept apart.
-/

namespace ChatFlow

/-! ## Tables with other keys -/

namespace Table

variable {κ κ' α : Type} {f : κ → κ'} {t : Table κ α}

/-- The table with other keys for the same entries. -/
def mapKeys (f : κ → κ') (t : Table κ α) : Table κ' α :=
  t.map fun e => (f e.1, e.2)

theorem keys_mapKeys : keys (mapKeys f t) = (keys t).map f := by
  simp [keys, mapKeys, Function.comp_def]

variable [DecidableEq κ] [DecidableEq κ'] {key : κ}

theorem get?_mapKeys (h : ∀ k ∈ keys t, f k = f key → k = key) :
    get? (mapKeys f t) (f key) = get? t key := by
  induction t with
  | nil => rfl
  | cons e t ih =>
    obtain ⟨hfirst, hrest⟩ := List.forall_mem_cons.mp h
    have hiff : f e.1 = f key ↔ e.1 = key := ⟨hfirst, congrArg f⟩
    simp only [mapKeys, List.map_cons, get?, hiff]
    split
    · rfl
    · exact ih hrest

theorem insert_mapKeys (h : ∀ k ∈ keys t, f k = f key → k = key) (v : α) :
    insert (mapKeys f t) (f key) v = mapKeys f (insert t key v) := by
  induction t with
  | nil => rfl
  | cons e t ih =>
    obtain ⟨hfirst, hrest⟩ := List.forall_mem_cons.mp h
    have hiff : f e.1 = f key ↔ e.1 = key := ⟨hfirst, congrArg f⟩
    simp only [mapKeys, List.map_cons, insert, hiff]
    split
    · rfl
    · exact congrArg _ (ih hrest)

theorem erase_mapKeys (h : ∀ k ∈ keys t, f k = f key → k = key) :
    erase (mapKeys f t) (f key) = mapKeys f (erase t key) := by
  simp only [erase, mapKeys, List.filter_map]
  congr 1
  refine List.filter_congr fun e he => ?_
  have hiff : f e.1 = f key ↔ e.1 = key := ⟨h e.1 (List.mem_map_of_mem he), congrArg f⟩
  simp [hiff]

end Table

/-! ## Addresses -/

/-- A session by its tenant and its own id. -/
structure Address where
  tenant : String
  session : String
  deriving DecidableEq, Repr

namespace Address

variable {a b : Address} {tenant : String}

/-- The text by which the store knows the session. -/
def key (a : Address) : String :=
  sessionKey a.tenant a.session

/-- The key begins like those of a tenant. -/
def Bears (a : Address) (tenant : String) : Prop :=
  (tenantMark tenant).toList <+: a.key.toList

/-- A colon inside the tenant of the first address is the one behind the tenant of the second. -/
def Extends (a b : Address) : Prop :=
  ∃ middle, a.tenant = b.tenant ++ ":" ++ middle ∧ b.session = middle ++ ":" ++ a.session

theorem toList_key (a : Address) : a.key.toList = a.tenant.toList ++ ':' :: a.session.toList := by
  simp [key, sessionKey]

theorem Extends.key_eq (h : a.Extends b) : a.key = b.key := by
  obtain ⟨middle, htenant, hsession⟩ := h
  simp [key, sessionKey, htenant, hsession, String.append_assoc]

theorem extends_of_key {rest : List Char} (htenant : a.tenant.toList = b.tenant.toList ++ rest)
    (hsession : ':' :: b.session.toList = rest ++ ':' :: a.session.toList) :
    a = b ∨ a.Extends b := by
  cases rest with
  | nil =>
    have ht : a.tenant = b.tenant := String.toList_injective (by simpa using htenant)
    have hs : a.session = b.session := String.toList_injective (by simpa using hsession.symm)
    exact .inl (by cases a; cases b; simp_all)
  | cons c middle =>
    -- what the longer tenant has more begins with the colon behind the shorter one
    obtain ⟨rfl, hmiddle⟩ := List.cons.inj hsession
    refine .inr ⟨String.ofList middle, String.toList_injective ?_, String.toList_injective ?_⟩
    · simpa using htenant
    · simpa using hmiddle

/-- Two addresses have one key if they are the same, or if a colon inside the tenant of one of them
is taken for the one behind it. -/
theorem key_eq_iff : a.key = b.key ↔ a = b ∨ a.Extends b ∨ b.Extends a := by
  constructor
  · intro h
    have hlist := congrArg String.toList h
    rw [toList_key, toList_key] at hlist
    rcases List.append_eq_append_iff.mp hlist with
      ⟨rest, htenant, hsession⟩ | ⟨rest, htenant, hsession⟩
    · rcases extends_of_key htenant hsession with rfl | hext
      · exact .inl rfl
      · exact .inr (.inr hext)
    · rcases extends_of_key htenant hsession with rfl | hext
      · exact .inl rfl
      · exact .inr (.inl hext)
  · rintro (rfl | h | h)
    · rfl
    · exact h.key_eq
    · exact h.key_eq.symm

theorem bears_iff : a.Bears tenant ↔ ∃ session, a.key = key ⟨tenant, session⟩ := by
  constructor
  · rintro ⟨rest, hrest⟩
    refine ⟨String.ofList rest, String.toList_injective ?_⟩
    rw [← hrest]
    simp [toList_key, tenantMark]
  · rintro ⟨session, h⟩
    refine ⟨session.toList, ?_⟩
    rw [h]
    simp [toList_key, tenantMark]

theorem bears_of_key_eq (h : a.key = b.key) : a.Bears b.tenant :=
  bears_iff.mpr ⟨b.session, h⟩

theorem Bears.tenant_eq (h : a.Bears tenant) (ha : ':' ∉ a.tenant.toList)
    (htenant : ':' ∉ tenant.toList) : a.tenant = tenant := by
  obtain ⟨session, hkey⟩ := bears_iff.mp h
  rcases key_eq_iff.mp hkey with rfl | ⟨middle, heq, -⟩ | ⟨middle, heq, -⟩
  · rfl
  · exact absurd (by simp [heq]) ha
  · have heq' : tenant = a.tenant ++ ":" ++ middle := heq
    exact absurd (by simp [heq']) htenant

end Address

/-- No key of these sessions bears the mark of another tenant among them. -/
def Separate (P : Address → Prop) : Prop :=
  ∀ a b, P a → P b → a.Bears b.tenant → a.tenant = b.tenant

theorem tenant_ne_longer (tenant middle : String) : tenant ≠ tenant ++ ":" ++ middle := by
  intro h
  have hlength := congrArg String.length h
  have hcolon : ":".length = 1 := rfl
  rw [String.length_append, String.length_append, hcolon] at hlength
  omega

theorem Separate.address_eq {P : Address → Prop} (h : Separate P) {a b : Address} (ha : P a)
    (hb : P b) (hkey : a.key = b.key) : a = b := by
  have htenant : a.tenant = b.tenant := h a b ha hb (Address.bears_of_key_eq hkey)
  rcases Address.key_eq_iff.mp hkey with rfl | ⟨middle, heq, -⟩ | ⟨middle, heq, -⟩
  · rfl
  · exact absurd (htenant.symm.trans heq) (tenant_ne_longer b.tenant middle)
  · exact absurd (htenant.trans heq) (tenant_ne_longer a.tenant middle)

/-! ## Changes of the store -/

inductive StoreChange
  | save (a : Address) (c : Context)
  | delete (a : Address)

namespace StoreChange

def address : StoreChange → Address
  | save a _ => a
  | delete a => a

/-- What a change does to a table of contexts under their addresses. -/
def applyTo (t : Table Address Context) : StoreChange → Table Address Context
  | save a c => t.insert a c
  | delete a => t.erase a

end StoreChange

open StoreChange

/-- The contexts that are saved and not deleted, each under its address. -/
def saved (cs : List StoreChange) : Table Address Context :=
  cs.foldl applyTo []

/-- The sessions that are saved and not deleted, in the order in which they came. -/
def liveSessions (cs : List StoreChange) : List Address :=
  (saved cs).keys

/-- The context is the last that was saved under exactly this address, and has not been deleted
since. -/
def LastSaved (a : Address) (c : Context) (cs : List StoreChange) : Prop :=
  ∃ before after, cs = before ++ .save a c :: after ∧ ∀ ch ∈ after, ch.address ≠ a

namespace ContextStore

variable {st : ContextStore} {P : Address → Prop} {a b : Address} {c : Context}
  {cs : List StoreChange}

def change (st : ContextStore) : StoreChange → ContextStore
  | .save a c => st.save a.tenant a.session c
  | .delete a => st.delete a.tenant a.session

def changes (st : ContextStore) (cs : List StoreChange) : ContextStore :=
  cs.foldl change st

/-- After these changes, the store is a map from the addresses of the given sessions to their
contexts. -/
structure Keeps (P : Address → Prop) (cs : List StoreChange) (st : ContextStore) : Prop where
  get?_eq : ∀ a c, P a → (st.get? a.tenant a.session = some c ↔ LastSaved a c cs)
  keys_eq : ∀ a, P a → st.keys (some a.tenant) =
    ((liveSessions cs).filter (·.tenant = a.tenant)).map Address.key
  size_eq : st.size = (liveSessions cs).length

/-! ## The table that the store stands for -/

theorem saved_snoc (cs : List StoreChange) (ch : StoreChange) :
    saved (cs ++ [ch]) = ch.applyTo (saved cs) := by
  simp [saved]

theorem lastSaved_snoc {ch : StoreChange} :
    LastSaved a c (cs ++ [ch]) ↔ ch = .save a c ∨ ch.address ≠ a ∧ LastSaved a c cs := by
  constructor
  · rintro ⟨before, after, heq, hafter⟩
    rcases List.eq_nil_or_concat after with rfl | ⟨after, last, rfl⟩
    · obtain ⟨-, hlast⟩ := List.append_inj' heq rfl
      exact .inl (List.cons.inj hlast).1
    · have hsplit : cs ++ [ch] = (before ++ .save a c :: after) ++ [last] := by simpa using heq
      obtain ⟨rfl, hlast⟩ := List.append_inj' hsplit rfl
      obtain rfl := (List.cons.inj hlast).1
      exact .inr ⟨hafter _ (by simp), before, after, rfl,
        fun ch' hch' => hafter ch' (by simp [hch'])⟩
  · rintro (rfl | ⟨hother, before, after, rfl, hafter⟩)
    · exact ⟨cs, [], rfl, by simp⟩
    · refine ⟨before, after ++ [ch], by simp, fun ch' hch' => ?_⟩
      rcases List.mem_append.mp hch' with hch' | hch'
      · exact hafter ch' hch'
      · exact List.mem_singleton.mp hch' ▸ hother

theorem get?_saved : (saved cs).get? a = some c ↔ LastSaved a c cs := by
  induction cs using List.reverseRecOn with
  | nil =>
    refine iff_of_false (by simp [saved]) ?_
    rintro ⟨before, after, heq, -⟩
    simp at heq
  | append_singleton cs ch ih =>
    rw [saved_snoc, lastSaved_snoc]
    cases ch with
    | save a' c' =>
      by_cases h : a' = a
      · simp [applyTo, address, h]
      · simp [applyTo, address, h, ih]
    | delete a' =>
      by_cases h : a' = a
      · simp [applyTo, address, h]
      · simp [applyTo, address, h, ih]

theorem mem_liveSessions : a ∈ liveSessions cs ↔ ∃ c, LastSaved a c cs := by
  simp [liveSessions, Table.mem_keys_iff, get?_saved]

theorem of_mem_liveSessions (hcs : ∀ ch ∈ cs, P ch.address) (h : a ∈ liveSessions cs) : P a := by
  obtain ⟨c, before, after, rfl, -⟩ := mem_liveSessions.mp h
  exact hcs (.save a c) (by simp)

theorem contexts_changes (hP : Separate P) (hcs : ∀ ch ∈ cs, P ch.address) :
    (changes {} cs).contexts = (saved cs).mapKeys Address.key := by
  induction cs using List.reverseRecOn with
  | nil => rfl
  | append_singleton cs ch ih =>
    have hearlier : ∀ ch ∈ cs, P ch.address := fun ch' hch' => hcs ch' (by simp [hch'])
    have hlast : P ch.address := hcs ch (by simp)
    have hkeys : ∀ k ∈ (saved cs).keys, k.key = ch.address.key → k = ch.address := fun k hk =>
      hP.address_eq (of_mem_liveSessions hearlier hk) hlast
    have hstep : changes {} (cs ++ [ch]) = (changes {} cs).change ch := by simp [changes]
    rw [hstep, saved_snoc]
    cases ch with
    | save a c =>
      show ((changes {} cs).contexts).insert a.key c = _
      rw [ih hearlier]
      exact Table.insert_mapKeys hkeys c
    | delete a =>
      show ((changes {} cs).contexts).erase a.key = _
      rw [ih hearlier]
      exact Table.erase_mapKeys hkeys

/-! ## The law of the store -/

theorem get?_change {ch : StoreChange} (h : ch.address.key ≠ b.key) :
    (st.change ch).get? b.tenant b.session = st.get? b.tenant b.session := by
  cases ch with
  | save a c => exact (Table.get?_insert _ _ _ _).trans (if_neg h)
  | delete a => exact (Table.get?_erase _ _ _).trans (if_neg h)

theorem keeps_of_separate (hP : Separate P) (hcs : ∀ ch ∈ cs, P ch.address) :
    (changes {} cs).Keeps P cs := by
  have hcontexts := contexts_changes hP hcs
  refine ⟨fun a c ha => ?_, fun a ha => ?_, ?_⟩
  · rw [← get?_saved]
    show (changes {} cs).contexts.get? a.key = some c ↔ _
    rw [hcontexts, Table.get?_mapKeys fun k hk =>
      hP.address_eq (of_mem_liveSessions hcs hk) ha]
  · show (changes {} cs).contexts.keys.filter _ = _
    rw [hcontexts, Table.keys_mapKeys, List.filter_map]
    refine congrArg (List.map Address.key) (List.filter_congr fun b hb => ?_)
    have hiff : b.Bears a.tenant ↔ b.tenant = a.tenant := by
      refine ⟨hP b a (of_mem_liveSessions hcs hb) ha, fun heq => ?_⟩
      rw [← heq]
      exact Address.bears_of_key_eq rfl
    refine Bool.eq_iff_iff.mpr ?_
    rw [Function.comp_apply, List.isPrefixOf_iff_prefix, decide_eq_true_iff]
    exact hiff
  · simp [size, hcontexts, Table.mapKeys, liveSessions, Table.keys]

theorem separate_of_keeps
    (h : ∀ cs, (∀ ch ∈ cs, P ch.address) → (changes {} cs).Keeps P cs) : Separate P := by
  intro a b ha hb hbears
  have hkeeps := h [.save a .initial] (by simpa [address] using ha)
  have hlisted : a.key ∈ (changes {} [.save a .initial]).keys (some b.tenant) := by
    refine List.mem_filter.mpr ⟨List.mem_singleton_self _, ?_⟩
    exact List.isPrefixOf_iff_prefix.mpr hbears
  rw [hkeeps.keys_eq b hb] at hlisted
  obtain ⟨a', hmem, -⟩ := List.mem_map.mp hlisted
  obtain ⟨hlive, htenant⟩ := List.mem_filter.mp hmem
  obtain rfl : a' = a := List.mem_singleton.mp hlive
  simpa using htenant

/-- The store keeps two sessions apart exactly if their addresses are not mixed up, and it is a map
from addresses to contexts exactly for sessions of tenants that their keys tell apart. For the
sessions of tenants without a colon it always is. -/
theorem store_keeps_apart_iff (a b : Address) (P : Address → Prop) :
    ((∀ (st : ContextStore) (ch : StoreChange), ch.address = a →
        (st.change ch).get? b.tenant b.session = st.get? b.tenant b.session) ↔
      ¬ (a = b ∨ a.Extends b ∨ b.Extends a)) ∧
    (Separate P ↔ ∀ cs, (∀ ch ∈ cs, P ch.address) → (changes {} cs).Keeps P cs) ∧
    ((∀ c, P c → ':' ∉ c.tenant.toList) → Separate P) := by
  refine ⟨?_, ⟨fun hP cs hcs => keeps_of_separate hP hcs, separate_of_keeps⟩,
    fun hplain a b ha hb hbears => hbears.tenant_eq (hplain a ha) (hplain b hb)⟩
  rw [← Address.key_eq_iff]
  refine ⟨fun h hkey => ?_, fun hkey st ch hch => get?_change (hch ▸ hkey)⟩
  have hsaved := h {} (.save a .initial) rfl
  have hfound : (change {} (.save a .initial)).get? b.tenant b.session = some .initial :=
    (Table.get?_insert _ _ _ _).trans (if_pos hkey)
  rw [hfound] at hsaved
  exact nomatch hsaved

/-- Two tenants have a session of the same id, and one of them ends. -/
def twoTenants : List StoreChange :=
  [.save ⟨"acme", "s-1"⟩ (.initial 1), .save ⟨"globex", "s-1"⟩ (.initial 2),
    .delete ⟨"acme", "s-1"⟩]

theorem tenants_without_colon_kept_apart :
    (changes {} twoTenants).get? "globex" "s-1" = some (.initial 2) ∧
      (changes {} twoTenants).keys (some "acme") = [] ∧ (changes {} twoTenants).size = 1 := by
  obtain ⟨-, hmap, hplain⟩ := store_keeps_apart_iff ⟨"acme", "s-1"⟩ ⟨"globex", "s-1"⟩
    fun a => ':' ∉ a.tenant.toList
  have hkeeps := hmap.mp (hplain fun _ ha => ha) twoTenants (by decide)
  refine ⟨(hkeeps.get?_eq ⟨"globex", "s-1"⟩ _ (by decide)).mpr ?_,
    (hkeeps.keys_eq ⟨"acme", "s-1"⟩ (by decide)).trans (by decide),
    hkeeps.size_eq.trans (by decide)⟩
  exact ⟨[.save ⟨"acme", "s-1"⟩ (.initial 1)], [.delete ⟨"acme", "s-1"⟩], rfl, by decide⟩

/-- A context saved for a tenant with a colon is found and listed under another tenant, and is lost
as soon as that one saves its own. -/
theorem colon_mixes_up_tenants :
    let other := ({} : ContextStore).save "a:b" "c" (.initial 1)
    other.get? "a" "b:c" = some (.initial 1) ∧ other.keys (some "a") = ["a:b:c"] ∧
      (other.save "a" "b:c" (.initial 2)).get? "a:b" "c" = some (.initial 2) ∧
      (other.save "a" "b:c" (.initial 2)).size = 1 := by
  decide

end ContextStore

end ChatFlow
