import Mathlib.Data.List.Perm.Subperm
import Mathlib.Data.Nat.Basic
import Mathlib.Order.Basic
import NewApiPool.Lib.KeyStore

/-!
# Memories of bounded size

A memory has room for some entries, and keeps them in the order of their last use. When one more is
written, the entry that has not been used for the longest time is given up. What is found in it was
written there (`Lru.lookup_set_of_ne`), and as long as there is room nothing is given up
(`Lru.lookup_set_of_room`): so a memory whose keys are all from a list that is not longer than it is
large keeps everything (`Lru.hasRoom_of_subset`).
-/

namespace KeyStore

universe u v

variable {κ : Type u} [DecidableEq κ] {α : Type v}

/-! ### Numbers of entries -/

theorem length_insert_le (s : Store κ α) (k : κ) (a : α) :
    (s.insert k a).entries.length ≤ s.entries.length + 1 := by
  rw [AList.entries_insert, List.length_cons]
  exact Nat.succ_le_succ (List.kerase_sublist k s.entries).length_le

/-- A key that is there already makes no more of them. -/
theorem length_insert_of_mem {s : Store κ α} {k : κ} (h : k ∈ s) (a : α) :
    (s.insert k a).entries.length = s.entries.length := by
  have hkeys (t : Store κ α) : t.keys.length = t.entries.length := List.length_map _
  have hpos : 0 < s.keys.length := List.length_pos_of_mem h
  rw [← hkeys, ← hkeys, AList.keys_insert, List.length_cons, List.length_erase_of_mem h]
  omega

theorem length_deleteMany_le (s : Store κ α) (ks : List κ) :
    (KeyStore.deleteMany s ks).1.entries.length ≤ s.entries.length := by
  rw [KeyStore.deleteMany, foldl_delete_fst]
  dsimp only
  induction ks generalizing s with
  | nil => exact le_rfl
  | cons k ks ih => exact (ih _).trans (List.kerase_sublist k s.entries).length_le

/-- The first entries of a store. -/
def truncate (n : ℕ) (s : Store κ α) : Store κ α :=
  ⟨s.entries.take n, s.nodupKeys.sublist (List.take_sublist n _)⟩

omit [DecidableEq κ] in
theorem truncate_of_le {n : ℕ} {s : Store κ α} (h : s.entries.length ≤ n) : truncate n s = s :=
  AList.ext (List.take_of_length_le h)

/-- Of what a store had, some may be missing among its first entries, and nothing is changed. -/
theorem lookup_truncate (n : ℕ) (s : Store κ α) (k : κ) :
    (truncate n s).lookup k = s.lookup k ∨ (truncate n s).lookup k = none := by
  rcases hk : (truncate n s).lookup k with _ | a
  · exact .inr rfl
  · refine .inl (Eq.symm ?_)
    rw [AList.mem_lookup_iff.mpr]
    exact (List.take_sublist n _).subset (AList.mem_lookup_iff.mp hk)

/-! ### Memories -/

/-- A memory: its entries, the last used first, and how many it has room for. It has room for one,
and never has more of them. -/
structure Lru (κ : Type u) [DecidableEq κ] (α : Type v) where
  store : Store κ α
  capacity : ℕ
  capacity_pos : 0 < capacity
  length_le : store.entries.length ≤ capacity

namespace Lru

/-- A memory without entries. -/
def empty (capacity : ℕ) (h : 0 < capacity) : Lru κ α :=
  ⟨∅, capacity, h, Nat.zero_le _⟩

variable (m : Lru κ α)

def lookup (k : κ) : Option α :=
  m.store.lookup k

/-- The entries are changed, and do not become more. -/
def withStore (s : Store κ α) (h : s.entries.length ≤ m.store.entries.length) : Lru κ α :=
  { m with store := s, length_le := h.trans m.length_le }

/-- An entry is used: it comes first. -/
def touch (k : κ) : Lru κ α :=
  match h : m.store.lookup k with
  | none => m
  | some a => m.withStore (m.store.insert k a)
      (length_insert_of_mem (AList.lookup_isSome.mp (Option.isSome_of_eq_some h)) a).le

/-- **An entry is written**, and the last one is given up if there are too many. -/
def set (k : κ) (a : α) : Lru κ α :=
  { m with
    store := truncate m.capacity (m.store.insert k a)
    length_le := List.length_take_le _ _ }

def erase (k : κ) : Lru κ α :=
  m.withStore (m.store.erase k) (List.kerase_sublist k m.store.entries).length_le

/-- Keys are deleted, and it is noted which of them were there. -/
def deleteMany (ks : List κ) : Lru κ α × Store κ Bool :=
  (m.withStore (KeyStore.deleteMany m.store ks).1 (length_deleteMany_le m.store ks),
    (KeyStore.deleteMany m.store ks).2)

/-- All entries are deleted. -/
def clear : Lru κ α :=
  m.withStore ∅ (Nat.zero_le _)

/-- There is room for an entry, or it is there already. -/
def HasRoom (k : κ) : Prop :=
  k ∈ m.store ∨ m.store.entries.length < m.capacity

variable {m} {k k' : κ} {a : α}

theorem mem_store_iff : k ∈ m.store ↔ (m.lookup k).isSome :=
  AList.lookup_isSome.symm

theorem capacity_touch : (m.touch k).capacity = m.capacity := by
  rw [touch]
  split <;> rfl

theorem lookup_touch (k k' : κ) : (m.touch k).lookup k' = m.lookup k' := by
  rw [touch]
  split
  · rfl
  · rename_i a ha
    rw [lookup, withStore, lookup_insert_eq]
    split_ifs with hk
    · rw [hk, lookup, ha]
    · rfl

theorem lookup_erase (k k' : κ) :
    (m.erase k).lookup k' = if k' = k then none else m.lookup k' :=
  lookup_erase_eq m.store k k'

theorem lookup_deleteMany (m : Lru κ α) (ks : List κ) (k : κ) :
    (m.deleteMany ks).1.lookup k = if k ∈ ks then none else m.lookup k :=
  KeyStore.lookup_deleteMany m.store ks k

/-- **What is written is found.** -/
theorem lookup_set_self (m : Lru κ α) (k : κ) (a : α) : (m.set k a).lookup k = some a := by
  obtain ⟨n, hn⟩ := Nat.exists_eq_succ_of_ne_zero m.capacity_pos.ne'
  refine AList.mem_lookup_iff.mpr ?_
  show (⟨k, a⟩ : Sigma fun _ => α) ∈ (m.store.insert k a).entries.take m.capacity
  rw [hn, AList.entries_insert, List.take_succ_cons]
  exact List.mem_cons_self

/-- **What else is found** was there before. -/
theorem lookup_set_of_ne (a : α) (h : k' ≠ k) :
    (m.set k a).lookup k' = m.lookup k' ∨ (m.set k a).lookup k' = none := by
  have hkept := lookup_truncate m.capacity (m.store.insert k a) k'
  rwa [lookup_insert_eq, if_neg h] at hkept

/-- **Nothing is given up** as long as there is room. -/
theorem lookup_set_of_room (h : m.HasRoom k) (a : α) (k' : κ) :
    (m.set k a).lookup k' = if k' = k then some a else m.lookup k' := by
  have hlength : (m.store.insert k a).entries.length ≤ m.capacity := by
    rcases h with hmem | hlt
    · rw [length_insert_of_mem hmem]
      exact m.length_le
    · exact (length_insert_le m.store k a).trans hlt
  show (truncate m.capacity (m.store.insert k a)).lookup k' = _
  rw [truncate_of_le hlength, lookup_insert_eq]
  rfl

/-- The keys of a memory that are among some keys, not more than it has room for. -/
theorem hasRoom_of_subset {ks : List κ} (hle : ks.length ≤ m.capacity)
    (hsub : ∀ k' ∈ m.store, k' ∈ ks) (hk : k ∈ ks) : m.HasRoom k := by
  by_cases hmem : k ∈ m.store
  · exact .inl hmem
  · refine .inr (lt_of_lt_of_le ?_ hle)
    have hnodup : (k :: m.store.keys).Nodup := List.nodup_cons.mpr ⟨hmem, m.store.keys_nodup⟩
    have hsubset : k :: m.store.keys ⊆ ks := List.cons_subset.mpr ⟨hk, fun k' hk' => hsub k' hk'⟩
    have hlength := (hnodup.subperm hsubset).length_le
    rwa [List.length_cons, AList.keys, List.keys, List.length_map] at hlength

end Lru

end KeyStore
