import Mathlib.Data.List.Basic

/-!
# The last one wins

Entries are gone over in some order, and each may give a value to some keys; a later value takes the
place of an earlier one. What a key has in the end is the value that the last entry for it gave
(`pick`), and of several entries for a key any one can come last (`exists_perm_pick`).
-/

namespace LastWins

variable {ε κ ν : Type*} {given : κ → ε → Option ν} {k : κ} {l : List ε} {v : ν}

/-- The last value that is given to a key. -/
def pick (given : κ → ε → Option ν) (l : List ε) (k : κ) : Option ν :=
  (l.filterMap (given k)).getLast?

theorem pick_cons (e : ε) (l : List ε) (k : κ) :
    pick given (e :: l) k = (pick given l k).or (given k e) := by
  rw [pick, pick, List.filterMap_cons]
  cases given k e with
  | none => rw [Option.or_none]
  | some v =>
    rw [List.getLast?_cons]
    cases (l.filterMap (given k)).getLast? <;> rfl

theorem pick_append (l l' : List ε) (k : κ) :
    pick given (l ++ l') k = (pick given l' k).or (pick given l k) := by
  induction l with
  | nil => exact (Option.or_none).symm
  | cons e l ih => rw [List.cons_append, pick_cons, pick_cons, ih, Option.or_assoc]

theorem exists_mem_of_pick (h : pick given l k = some v) : ∃ e ∈ l, given k e = some v :=
  List.mem_filterMap.1 (List.mem_of_getLast? h)

theorem pick_eq_none_iff : pick given l k = none ↔ ∀ e ∈ l, given k e = none := by
  rw [pick, List.getLast?_eq_none_iff, List.filterMap_eq_nil_iff]

/-- If only one entry gives a value to a key, the key has this value. -/
theorem pick_eq_some_iff (hone : ∀ e ∈ l, ∀ e' ∈ l, (given k e).isSome → (given k e').isSome →
    e = e') : pick given l k = some v ↔ ∃ e ∈ l, given k e = some v := by
  refine ⟨exists_mem_of_pick, ?_⟩
  rintro ⟨e, hmem, he⟩
  have hne : pick given l k ≠ none := fun h => by
    rw [pick_eq_none_iff.1 h e hmem] at he
    exact Option.some_ne_none v he.symm
  obtain ⟨v', hv'⟩ := Option.ne_none_iff_exists'.1 hne
  obtain ⟨e', hmem', he'⟩ := exists_mem_of_pick hv'
  obtain rfl := hone e hmem e' hmem' (he ▸ rfl) (he' ▸ rfl)
  rw [hv', ← he', he]

/-- **A map into which entries are written** has the last value for each key. -/
theorem lookup_foldl {μ : Type*} (lookup : μ → κ → Option ν) (write : μ → ε → μ)
    (hwrite : ∀ m e k, lookup (write m e) k = (given k e).or (lookup m k)) (l : List ε) (m : μ)
    (k : κ) : lookup (l.foldl write m) k = (pick given l k).or (lookup m k) := by
  induction l generalizing m with
  | nil => rfl
  | cons e l ih => rw [List.foldl_cons, ih, hwrite, pick_cons, Option.or_assoc]

/-- **Entries that are preferred can come last**, for all keys at once. -/
theorem exists_perm_pick (given : κ → ε → Option ν) (prefer : ε → Bool) (l : List ε) :
    ∃ l', l'.Perm l ∧ ∀ k, ∀ e ∈ l, prefer e = true → (given k e).isSome →
      ∃ e' ∈ l, prefer e' = true ∧ (given k e').isSome ∧ pick given l' k = given k e' := by
  refine ⟨l.filter (fun e => !prefer e) ++ l.filter prefer, ?_, fun k e hmem hprefer hsome => ?_⟩
  · exact List.perm_append_comm.trans (List.filter_append_perm prefer l)
  · have hne : pick given (l.filter prefer) k ≠ none := fun h => by
      have hnone := pick_eq_none_iff.1 h e (List.mem_filter.2 ⟨hmem, hprefer⟩)
      rw [hnone] at hsome
      exact Bool.false_ne_true hsome
    obtain ⟨v, hv⟩ := Option.ne_none_iff_exists'.1 hne
    obtain ⟨e', hmem', he'⟩ := exists_mem_of_pick hv
    obtain ⟨hmem', hprefer'⟩ := List.mem_filter.1 hmem'
    refine ⟨e', hmem', hprefer', he' ▸ rfl, ?_⟩
    rw [pick_append, hv, he']
    rfl

end LastWins
