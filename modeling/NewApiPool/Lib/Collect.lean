import Mathlib.Data.List.Basic

/-!
# Texts collected under keys

A stream of marks, each under a key: some begin an item of their key, and all of them add a
text to the item of their key that was begun last. What a reader of the stream collects is
the items with their texts (`Collect.collect`). A mark without a key is not seen by it.

Only the comparison of keys counts (`Collect.collect_congr`), and two streams are the same
to a reader if they collect the same now and under every item that is begun before them
(`Collect.Same`).
-/

namespace Collect

/-- One mark: the key, the item it begins if it begins one, and a text. -/
structure Mark (κ β : Type*) where
  key : Option κ
  item : Option β
  text : String

variable {α κ κ' β : Type*} [DecidableEq κ] [DecidableEq κ']

/-- The text that goes to an item of key `k` begun before these marks. -/
def textAt (k : κ) : List (Mark κ β) → String
  | [] => ""
  | m :: ms =>
    if m.key = some k then
      if m.item.isSome then "" else m.text ++ textAt k ms
    else textAt k ms

/-- **The items with their texts.** -/
def collect : List (Mark κ β) → List (β × String)
  | [] => []
  | m :: ms =>
    match m.key, m.item with
    | some k, some item => (item, m.text ++ textAt k ms) :: collect ms
    | _, _ => collect ms

theorem collect_cons_none {m : Mark κ β} (h : m.key = none ∨ m.item = none)
    (ms : List (Mark κ β)) : collect (m :: ms) = collect ms := by
  rw [collect.eq_2]
  rcases h with h | h
  · rw [h]
  · rw [h]
    cases m.key <;> rfl

theorem collect_cons_some {m : Mark κ β} {k : κ} {item : β} (hkey : m.key = some k)
    (hitem : m.item = some item) (ms : List (Mark κ β)) :
    collect (m :: ms) = (item, m.text ++ textAt k ms) :: collect ms := by
  rw [collect, hkey, hitem]

theorem textAt_cons_of_ne {m : Mark κ β} {k : κ} (h : m.key ≠ some k) (ms : List (Mark κ β)) :
    textAt k (m :: ms) = textAt k ms := by
  rw [textAt, if_neg h]

/-! ### Marks without a key -/

theorem textAt_filter (k : κ) (ms : List (Mark κ β)) :
    textAt k (ms.filter fun m => m.key.isSome) = textAt k ms := by
  induction ms with
  | nil => rfl
  | cons m ms ih =>
    rcases hkey : m.key with _ | k'
    · rw [List.filter_cons_of_neg (by simp [hkey]), textAt_cons_of_ne (by simp [hkey]), ih]
    · rw [List.filter_cons_of_pos (by simp [hkey]), textAt, textAt, ih]

theorem collect_filter (ms : List (Mark κ β)) :
    collect (ms.filter fun m => m.key.isSome) = collect ms := by
  induction ms with
  | nil => rfl
  | cons m ms ih =>
    rcases hkey : m.key with _ | k
    · rw [List.filter_cons_of_neg (by simp [hkey]), collect_cons_none (Or.inl hkey), ih]
    · rw [List.filter_cons_of_pos (by simp [hkey])]
      rcases hitem : m.item with _ | item
      · rw [collect_cons_none (Or.inr hitem), collect_cons_none (Or.inr hitem), ih]
      · rw [collect_cons_some hkey hitem, collect_cons_some hkey hitem, ih, textAt_filter]

/-! ### Other keys -/

theorem textAt_congr {f : α → Mark κ β} {g : α → Mark κ' β} {l : List α} {k : κ} {k' : κ'}
    (hitem : ∀ x, (f x).item = (g x).item) (htext : ∀ x, (f x).text = (g x).text)
    (hkey : ∀ x ∈ l, (f x).key = some k ↔ (g x).key = some k') :
    textAt k (l.map f) = textAt k' (l.map g) := by
  induction l with
  | nil => rfl
  | cons x l ih =>
    rw [List.forall_mem_cons] at hkey
    simp only [List.map_cons, textAt, hitem, htext, ih hkey.2]
    exact if_congr hkey.1 rfl rfl

/-- **Only the comparison of keys counts.** -/
theorem collect_congr {f : α → Mark κ β} {g : α → Mark κ' β} {l : List α}
    (hitem : ∀ x, (f x).item = (g x).item) (htext : ∀ x, (f x).text = (g x).text)
    (hsome : ∀ x, (f x).key.isSome = (g x).key.isSome)
    (hkey : ∀ x ∈ l, ∀ y ∈ l, (f y).key = (f x).key ↔ (g y).key = (g x).key) :
    collect (l.map f) = collect (l.map g) := by
  induction l with
  | nil => rfl
  | cons x l ih =>
    have htail := ih fun x hx y hy =>
      hkey x (List.mem_cons_of_mem _ hx) y (List.mem_cons_of_mem _ hy)
    simp only [List.map_cons]
    rcases hg : (g x).key with _ | k'
    · have hf : (f x).key = none := by
        rw [← Option.isNone_iff_eq_none, ← Option.isSome_eq_false_iff, hsome, hg]
        rfl
      rw [collect_cons_none (Or.inl hf), collect_cons_none (Or.inl hg), htail]
    · obtain ⟨k, hf⟩ : ∃ k, (f x).key = some k := by
        rw [← Option.isSome_iff_exists, hsome, hg]
        rfl
      rcases hi : (g x).item with _ | item
      · rw [collect_cons_none (Or.inr ((hitem x).trans hi)), collect_cons_none (Or.inr hi), htail]
      · rw [collect_cons_some hf ((hitem x).trans hi), collect_cons_some hg hi, htail, htext,
          textAt_congr hitem htext]
        intro y hy
        rw [← hf, ← hg]
        exact hkey x List.mem_cons_self y (List.mem_cons_of_mem _ hy)

/-! ### Streams that are the same to a reader -/

/-- Two streams collect the same, also under an item begun before. -/
structure Same (ms ns : List (Mark κ β)) : Prop where
  collect : collect ms = collect ns
  textAt : ∀ k, textAt k ms = textAt k ns

theorem Same.refl (ms : List (Mark κ β)) : Same ms ms := ⟨rfl, fun _ => rfl⟩

theorem Same.trans {ms ns os : List (Mark κ β)} (h : Same ms ns) (h' : Same ns os) :
    Same ms os :=
  ⟨h.collect.trans h'.collect, fun k => (h.textAt k).trans (h'.textAt k)⟩

theorem Same.cons (m : Mark κ β) {ms ns : List (Mark κ β)} (h : Same ms ns) :
    Same (m :: ms) (m :: ns) := by
  constructor
  · rcases hkey : m.key with _ | k
    · rw [collect_cons_none (Or.inl hkey), collect_cons_none (Or.inl hkey), h.collect]
    · rcases hitem : m.item with _ | item
      · rw [collect_cons_none (Or.inr hitem), collect_cons_none (Or.inr hitem), h.collect]
      · rw [collect_cons_some hkey hitem, collect_cons_some hkey hitem, h.collect, h.textAt]
  · intro k
    rw [Collect.textAt, Collect.textAt, h.textAt]

theorem same_cons_empty (k : Option κ) (ms : List (Mark κ β)) :
    Same (⟨k, none, ""⟩ :: ms) ms := by
  refine ⟨collect_cons_none (Or.inr rfl) ms, fun k' => ?_⟩
  rw [textAt]
  split_ifs with hkey hnone
  · cases hnone
  · exact String.empty_append
  · rfl

theorem same_cons_cons (k : κ) (item : β) (s : String) (ms : List (Mark κ β)) :
    Same (⟨some k, some item, ""⟩ :: ⟨some k, none, s⟩ :: ms) (⟨some k, some item, s⟩ :: ms) := by
  constructor
  · rw [collect_cons_some rfl rfl, collect_cons_none (Or.inr rfl), collect_cons_some rfl rfl]
    simp [textAt]
  · intro k'
    by_cases hk : k = k'
    · simp [textAt, hk]
    · simp [textAt, hk]

end Collect
