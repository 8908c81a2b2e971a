import Mathlib.Data.List.Basic
import Mathlib.Data.List.Nodup

/-!
# Entries under keys

What a reader makes of a stream of updates, each of which names a key: a list of entries in
the order of their first mention, in which `alter` changes the entry of a key, or adds one.
-/

namespace Keyed

variable {ι κ β : Type*} [DecidableEq ι] [DecidableEq κ]

/-- The entry at `k`, changed by `f`; a new one is what `f` makes of `new`. -/
def alter (k : κ) (new : β) (f : β → β) : List (κ × β) → List (κ × β)
  | [] => [(k, f new)]
  | e :: l => if e.1 = k then (k, f e.2) :: l else e :: alter k new f l

variable {k : κ} {new : β} {f : β → β} {l : List (κ × β)}

theorem alter_cons_self (b : β) : alter k new f ((k, b) :: l) = (k, f b) :: l :=
  if_pos rfl

theorem alter_append_of_not_mem {pre : List (κ × β)} (h : k ∉ pre.map Prod.fst) :
    alter k new f (pre ++ l) = pre ++ alter k new f l := by
  induction pre with
  | nil => rfl
  | cons e pre ih =>
    rw [List.map_cons, List.mem_cons, not_or] at h
    rw [List.cons_append, alter, if_neg (Ne.symm h.1), ih h.2, List.cons_append]

theorem alter_of_not_mem (h : k ∉ l.map Prod.fst) : alter k new f l = l ++ [(k, f new)] := by
  rw [← List.append_nil l, alter_append_of_not_mem h, List.append_nil]
  rfl

theorem alter_of_split {pre post : List (κ × β)} (h : k ∉ pre.map Prod.fst) (b : β) :
    alter k new f (pre ++ (k, b) :: post) = pre ++ (k, f b) :: post := by
  rw [alter_append_of_not_mem h, alter_cons_self]

theorem alter_alter (g : β → β) :
    alter k new g (alter k new f l) = alter k new (fun b => g (f b)) l := by
  induction l with
  | nil => exact alter_cons_self (f new)
  | cons e l ih =>
    by_cases he : e.1 = k
    · simp only [alter, if_pos he, if_true]
    · simp only [alter, if_neg he, ih]

theorem map_fst_alter : (alter k new f l).map Prod.fst =
    if k ∈ l.map Prod.fst then l.map Prod.fst else l.map Prod.fst ++ [k] := by
  induction l with
  | nil => rfl
  | cons e l ih =>
    by_cases he : e.1 = k
    · simp [alter, he]
    · have hk : k ≠ e.1 := Ne.symm he
      simp only [alter, if_neg he, List.map_cons, ih, List.mem_cons, hk, false_or]
      split <;> rfl

theorem alter_ne_nil : alter k new f l ≠ [] := by
  intro h
  have hkeys := congrArg (List.map Prod.fst) h
  rw [map_fst_alter] at hkeys
  split at hkeys
  · next hmem =>
    rw [hkeys] at hmem
    cases hmem
  · exact List.cons_ne_nil _ _ (List.append_eq_nil_iff.mp hkeys).2

theorem nodup_alter (h : (l.map Prod.fst).Nodup) : ((alter k new f l).map Prod.fst).Nodup := by
  rw [map_fst_alter]
  split
  · exact h
  · next hk => exact List.nodup_append.mpr ⟨h, List.nodup_singleton k, by
      rintro a ha b hb rfl
      exact hk (List.mem_singleton.mp hb ▸ ha)⟩

theorem exists_first_split (h : k ∈ l.map Prod.fst) :
    ∃ pre b post, l = pre ++ (k, b) :: post ∧ k ∉ pre.map Prod.fst := by
  induction l with
  | nil => cases h
  | cons e l ih =>
    by_cases he : e.1 = k
    · subst he
      exact ⟨[], e.2, l, rfl, List.not_mem_nil⟩
    · obtain ⟨pre, b, post, rfl, hpre⟩ :=
        ih ((List.mem_cons.mp h).resolve_left fun heq => he heq.symm)
      refine ⟨e :: pre, b, post, rfl, fun hmem => ?_⟩
      exact (List.mem_cons.mp hmem).elim (fun heq => he heq.symm) hpre

/-- An entry after `alter` is an old one of another key, or the one that was made. -/
theorem mem_alter (hnodup : (l.map Prod.fst).Nodup) {e : κ × β} (h : e ∈ alter k new f l) :
    (e ∈ l ∧ e.1 ≠ k) ∨ (∃ b, (k, b) ∈ l ∧ e = (k, f b)) ∨
      (k ∉ l.map Prod.fst ∧ e = (k, f new)) := by
  by_cases hk : k ∈ l.map Prod.fst
  · obtain ⟨⟨k', b⟩, hmem, rfl⟩ := List.mem_map.mp hk
    obtain ⟨pre, post, rfl⟩ := List.append_of_mem hmem
    rw [List.map_append, List.map_cons, List.nodup_middle, List.nodup_cons, List.mem_append,
      not_or] at hnodup
    rw [alter_of_split hnodup.1.1] at h
    have hother {e : κ × β} (he : e ∈ pre ∨ e ∈ post) : e.1 ≠ k' := by
      intro heq
      rcases he with he | he
      · exact hnodup.1.1 (List.mem_map.mpr ⟨e, he, heq⟩)
      · exact hnodup.1.2 (List.mem_map.mpr ⟨e, he, heq⟩)
    rcases List.mem_append.mp h with he | he
    · exact Or.inl ⟨List.mem_append_left _ he, hother (Or.inl he)⟩
    · rcases List.mem_cons.mp he with rfl | he
      · exact Or.inr (Or.inl ⟨b, hmem, rfl⟩)
      · exact Or.inl ⟨List.mem_append_right _ (List.mem_cons_of_mem _ he), hother (Or.inr he)⟩
  · rw [alter_of_not_mem hk] at h
    rcases List.mem_append.mp h with he | he
    · exact Or.inl ⟨he, fun heq => hk (heq ▸ List.mem_map_of_mem he)⟩
    · exact Or.inr (Or.inr ⟨hk, List.mem_singleton.mp he⟩)

/-- Only what is done to the entry of `k` counts. -/
theorem alter_congr {g : β → β} (hmem : ∀ b, (k, b) ∈ l → f b = g b)
    (hnew : k ∉ l.map Prod.fst → f new = g new) : alter k new f l = alter k new g l := by
  induction l with
  | nil => rw [alter, alter, hnew List.not_mem_nil]
  | cons e l ih =>
    by_cases he : e.1 = k
    · subst he
      rw [alter, alter, if_pos rfl, if_pos rfl, hmem e.2 List.mem_cons_self]
    · rw [alter, alter, if_neg he, if_neg he, ih fun b hb => hmem b (List.mem_cons_of_mem _ hb)]
      intro hk
      refine hnew fun hk' => ?_
      rcases List.mem_cons.mp hk' with heq | hk'
      · exact he heq.symm
      · exact hk hk'

/-- A list of entries, under the keys `key 0`, `key 1`, ... -/
def number (key : Nat → κ) (entries : List β) : List (κ × β) :=
  entries.zipIdx.map fun x => (key x.2, x.1)

omit [DecidableEq κ] in
@[simp] theorem map_snd_number (key : Nat → κ) (entries : List β) :
    (number key entries).map Prod.snd = entries := by
  rw [number, List.map_map]
  exact List.zipIdx_map_fst 0 entries

omit [DecidableEq κ] in
theorem number_append (key : Nat → κ) (pre post : List β) :
    number key (pre ++ post) = number key pre ++ number (fun i => key (pre.length + i)) post := by
  simp only [number, List.zipIdx_append, List.map_append, Nat.zero_add]
  have hshift : post.zipIdx pre.length = post.zipIdx.map fun x => (x.1, pre.length + x.2) :=
    List.zipIdx_eq_map_add
  rw [hshift, List.map_map]
  rfl

omit [DecidableEq κ] in
theorem mem_map_fst_number {key : Nat → κ} {entries : List β} {k : κ}
    (h : k ∈ (number key entries).map Prod.fst) : ∃ i < entries.length, key i = k := by
  rw [number, List.map_map, List.mem_map] at h
  obtain ⟨⟨b, i⟩, hmem, rfl⟩ := h
  exact ⟨i, by simpa using List.snd_lt_of_mem_zipIdx hmem, rfl⟩

section Number

variable {key : Nat → κ} (hkey : Function.Injective key)
include hkey

omit [DecidableEq κ] in
theorem key_not_mem (entries : List β) {i : Nat} (h : entries.length ≤ i) :
    key i ∉ (number key entries).map Prod.fst := by
  intro hmem
  obtain ⟨j, hj, heq⟩ := mem_map_fst_number hmem
  exact absurd (hkey heq) (by omega)

omit [DecidableEq κ] in
theorem nodup_number (entries : List β) : ((number key entries).map Prod.fst).Nodup := by
  have hkeys : (number key entries).map Prod.fst = (entries.zipIdx.map Prod.snd).map key := by
    rw [number, List.map_map, List.map_map]
    rfl
  rw [hkeys, List.zipIdx_map_snd]
  exact (List.nodup_range' ..).map hkey

theorem alter_number_length (entries : List β) :
    alter (key entries.length) new f (number key entries) = number key (entries ++ [f new]) := by
  rw [alter_of_not_mem (key_not_mem hkey entries (Nat.le_refl _)), number_append]
  rfl

theorem alter_number_of_split (pre post : List β) (b : β) :
    alter (key pre.length) new f (number key (pre ++ b :: post)) =
      number key (pre ++ f b :: post) := by
  simp only [number_append]
  have hcons (c : β) : number (fun i => key (pre.length + i)) (c :: post) =
      (key pre.length, c) :: (post.zipIdx 1).map fun x => (key (pre.length + x.2), x.1) := rfl
  rw [hcons, hcons, alter_of_split (key_not_mem hkey pre (Nat.le_refl _))]

/-- **Entries under keys, as entries under numbers**: the number of a key is its place. -/
theorem number_alter {k : ι} (l : List (ι × β)) :
    number key ((alter k new f l).map Prod.snd) =
      alter (key ((l.map Prod.fst).idxOf k)) new f (number key (l.map Prod.snd)) := by
  by_cases hk : k ∈ l.map Prod.fst
  · obtain ⟨pre, b, post, rfl, hpre⟩ := exists_first_split hk
    rw [alter_of_split hpre, List.map_append, List.map_append, List.map_append,
      List.idxOf_append_of_notMem hpre, List.map_cons, List.map_cons, List.map_cons,
      List.idxOf_cons_self, Nat.add_zero, List.length_map, ← List.length_map Prod.snd,
      alter_number_of_split hkey]
  · rw [alter_of_not_mem hk, List.idxOf_eq_length hk, List.length_map,
      ← List.length_map Prod.snd, alter_number_length hkey, List.map_append]
    rfl

end Number

section Gather

variable {α : Type*} {key : α → κ} {new : β} {add : β → α → β} {entries : List (κ × β)} {l : List α}

theorem foldl_alter_of_nodup (h : (entries.map Prod.fst ++ l.map key).Nodup) :
    l.foldl (fun entries x => alter (key x) new (fun b => add b x) entries) entries =
      entries ++ l.map fun x => (key x, add new x) := by
  induction l generalizing entries with
  | nil => simp
  | cons x l ih =>
    have hnew : key x ∉ entries.map Prod.fst := fun hmem =>
      (List.nodup_append.1 h).2.2 _ hmem _ List.mem_cons_self rfl
    rw [List.foldl_cons, alter_of_not_mem hnew, ih (by simpa using h)]
    simp

theorem length_alter (k : κ) (f : β → β) (entries : List (κ × β)) :
    (alter k new f entries).length =
      entries.length + if k ∈ entries.map Prod.fst then 0 else 1 := by
  have hkeys : (alter k new f entries).map Prod.fst = _ := map_fst_alter
  have hlength := congrArg List.length hkeys
  rw [List.length_map] at hlength
  rw [hlength]
  split <;> simp

theorem length_foldl_alter_le (entries : List (κ × β)) :
    (l.foldl (fun entries x => alter (key x) new (fun b => add b x) entries) entries).length ≤
      entries.length + l.length := by
  induction l generalizing entries with
  | nil => exact Nat.le_refl _
  | cons x l ih =>
    refine Nat.le_trans (ih _) ?_
    rw [length_alter, List.length_cons]
    split <;> omega

/-- **Updates add an entry each** only if their keys are distinct. -/
theorem nodup_of_length_foldl_alter (hentries : (entries.map Prod.fst).Nodup)
    (h : (l.foldl (fun entries x => alter (key x) new (fun b => add b x) entries) entries).length =
      entries.length + l.length) : (entries.map Prod.fst ++ l.map key).Nodup := by
  induction l generalizing entries with
  | nil => simpa using hentries
  | cons x l ih =>
    rw [List.foldl_cons, List.length_cons] at h
    by_cases hmem : key x ∈ entries.map Prod.fst
    · have hle : entries.length + (l.length + 1) ≤
          (alter (key x) new (fun b => add b x) entries).length + l.length :=
        h ▸ length_foldl_alter_le _
      rw [length_alter, if_pos hmem] at hle
      omega
    · have hlater := ih (nodup_alter hentries) (by rw [h, length_alter, if_neg hmem]; omega)
      rw [map_fst_alter, if_neg hmem] at hlater
      simpa using hlater

end Gather

end Keyed
