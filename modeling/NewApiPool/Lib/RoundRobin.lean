import Mathlib.Data.Int.CardIntervalMod
import Mathlib.Data.List.GetD
import Mathlib.Data.List.Rotate

/-!
# Taking turns

Some of the places `0, …, n - 1` qualify. A scan looks for the first of them from a given place
on, around the end, and the next scan starts behind the one that was found. Read from its start
on, the qualifying places are a rotation of their list; a scan finds the head of it and leaves
it rotated by one more (`scan_eq`). So the answers go around the list, and among any number of
consecutive ones two places come up equally often, or one of them once more
(`count_turns_le`).
-/

namespace RoundRobin

variable {p : ℕ → Bool} {n start a : ℕ}

/-- The places that qualify. -/
def eligible (p : ℕ → Bool) (n : ℕ) : List ℕ := (List.range n).filter p

/-- The first place from `start` on, around the end. -/
def scan (p : ℕ → Bool) (n start : ℕ) : Option ℕ :=
  ((List.range n).map fun i => (start + i) % n).find? p

/-- The turn with number `t`, in a list that is gone around. -/
def turn (l : List ℕ) (t : ℕ) : ℕ := l.getD (t % l.length) 0

theorem mem_eligible {i : ℕ} : i ∈ eligible p n ↔ i < n ∧ p i = true := by simp [eligible]

theorem nodup_eligible (p : ℕ → Bool) (n : ℕ) : (eligible p n).Nodup :=
  List.nodup_range.filter p

theorem turn_mem {l : List ℕ} (h : l ≠ []) (t : ℕ) : turn l t ∈ l := by
  have hlt : t % l.length < l.length := Nat.mod_lt _ (List.length_pos_of_ne_nil h)
  rw [turn, List.getD_eq_getElem _ _ hlt]
  exact List.getElem_mem hlt

/-! ### One scan -/

theorem map_mod_range (n start : ℕ) :
    ((List.range n).map fun i => (start + i) % n) = (List.range n).rotate start := by
  refine List.ext_getElem (by simp) fun i h₁ h₂ => ?_
  simp [List.getElem_rotate, Nat.add_comm]

/-- The places from `start` on, around the end, are those behind it and then those before. -/
theorem filter_rotate (hstart : start ≤ n) :
    ((List.range n).rotate start).filter p =
      (eligible p n).rotate ((List.range start).filter p).length := by
  have htake : (List.range n).take start = List.range start := by
    rw [List.take_range, min_eq_left hstart]
  have hsplit : eligible p n =
      (List.range start).filter p ++ ((List.range n).drop start).filter p := by
    rw [← List.filter_append, ← htake, List.take_append_drop, eligible]
  rw [List.rotate_eq_drop_append_take (by simpa using hstart), htake, List.filter_append, hsplit,
    List.rotate_append_length_eq]

/-- The places up to one in the list are as many as its number in the list says. -/
theorem length_filter_range {j : ℕ} (hj : j < (eligible p n).length) :
    ((List.range ((eligible p n)[j] + 1)).filter p).length = j + 1 := by
  obtain ⟨hi, hp⟩ := mem_eligible.1 (List.getElem_mem hj)
  generalize he : (eligible p n)[j] = e at hi hp
  have hup : (List.range (e + 1)).filter p = (List.range e).filter p ++ [e] := by
    simp [List.range_succ, hp]
  have hsplit : eligible p n =
      (List.range (e + 1)).filter p ++ ((List.range n).drop (e + 1)).filter p := by
    have htake : (List.range n).take (e + 1) = List.range (e + 1) := by
      rw [List.take_range, min_eq_left hi]
    rw [← List.filter_append, ← htake, List.take_append_drop, eligible]
  have hplace : (eligible p n)[((List.range e).filter p).length]? = some e := by
    rw [hsplit, hup]
    simp
  -- the list has no place twice, so this one is the one with number `j`
  have hj' : (eligible p n)[j]? = some e := by rw [List.getElem?_eq_getElem hj, he]
  have hnumber : j = ((List.range e).filter p).length :=
    (List.getElem?_inj hj (nodup_eligible p n)).1 (hj'.trans hplace.symm)
  rw [hup, List.length_append, hnumber, List.length_singleton]

/-- **A scan finds the head of the rotated list**, and the next one starts one further on. -/
theorem scan_eq (hne : eligible p n ≠ [])
    (ha : ((List.range n).rotate start).filter p = (eligible p n).rotate a) :
    scan p n start = some (turn (eligible p n) a) ∧
      ((List.range n).rotate ((turn (eligible p n) a + 1) % n)).filter p =
        (eligible p n).rotate (a + 1) := by
  have hlt : a % (eligible p n).length < (eligible p n).length :=
    Nat.mod_lt _ (List.length_pos_of_ne_nil hne)
  have hturn : turn (eligible p n) a = (eligible p n)[a % (eligible p n).length] :=
    List.getD_eq_getElem _ _ hlt
  refine ⟨?_, ?_⟩
  · rw [scan, map_mod_range, ← List.head?_filter, ha, ← List.rotate_mod,
      List.head?_rotate hlt, List.getElem?_eq_getElem hlt, hturn]
  · obtain ⟨hi, -⟩ := mem_eligible.1 (turn_mem hne a)
    have hrotate : (List.range n).rotate ((turn (eligible p n) a + 1) % n) =
        (List.range n).rotate (turn (eligible p n) a + 1) := by
      simpa using List.rotate_mod (List.range n) (turn (eligible p n) a + 1)
    rw [hrotate, filter_rotate (by omega), hturn, length_filter_range hlt, ← List.rotate_mod,
      Nat.mod_add_mod, List.rotate_mod]

theorem exists_rotate (p : ℕ → Bool) (hstart : start < n) :
    ∃ a, ((List.range n).rotate start).filter p = (eligible p n).rotate a :=
  ⟨_, filter_rotate hstart.le⟩

/-! ### Many turns -/

theorem turn_eq_iff {l : List ℕ} (hl : l.Nodup) {j : ℕ} (hj : j < l.length) (t : ℕ) :
    turn l t = l[j] ↔ t ≡ j [MOD l.length] := by
  have hlt : t % l.length < l.length := Nat.mod_lt _ (by omega)
  rw [turn, List.getD_eq_getElem _ _ hlt, hl.getElem_inj_iff, Nat.ModEq, Nat.mod_eq_of_lt hj]

/-- **How often a place has its turn** in `k` consecutive ones is, up to one, the number of
rounds. -/
theorem count_turns {l : List ℕ} (hl : l.Nodup) {i : ℕ} (hi : i ∈ l) (a k : ℕ) :
    k / l.length ≤ ((List.range k).map fun t => turn l (a + t)).count i ∧
      ((List.range k).map fun t => turn l (a + t)).count i ≤ k / l.length + 1 := by
  obtain ⟨j, hj, rfl⟩ := List.mem_iff_getElem.1 hi
  have hpos : 0 < l.length := by omega
  -- the number that `j` has when the counting starts at `a`
  have hround : a + (j + (l.length - a % l.length)) = j + l.length * (a / l.length + 1) := by
    have hlt : a % l.length < l.length := Nat.mod_lt _ hpos
    have hdiv := Nat.div_add_mod a l.length
    rw [Nat.mul_add, Nat.mul_one]
    omega
  have hshift (t : ℕ) : a + t ≡ j [MOD l.length] ↔
      t ≡ j + (l.length - a % l.length) [MOD l.length] := by
    have hj : a + (j + (l.length - a % l.length)) ≡ j [MOD l.length] := by
      rw [hround, Nat.ModEq, Nat.add_mul_mod_self_left]
    exact ⟨fun h => Nat.ModEq.add_left_cancel' a (h.trans hj.symm),
      fun h => (h.add_left a).trans hj⟩
  have hcount : ((List.range k).map fun t => turn l (a + t)).count l[j] =
      k.count (· ≡ j + (l.length - a % l.length) [MOD l.length]) := by
    rw [List.count, List.countP_map, Nat.count]
    refine List.countP_congr fun t _ => ?_
    simp [turn_eq_iff hl hj, hshift]
  rw [hcount, Nat.count_modEq_card _ hpos]
  split <;> omega

/-- **Turns are fair**: in any number of turns over distinct values, one of them is taken at most
once more than another. -/
theorem count_turns_le {l : List ℕ} (hl : l.Nodup) {i i' : ℕ} (hi : i ∈ l) (hi' : i' ∈ l)
    (a k : ℕ) : ((List.range k).map fun t => turn l (a + t)).count i ≤
      ((List.range k).map fun t => turn l (a + t)).count i' + 1 :=
  (count_turns hl hi a k).2.trans (Nat.add_le_add_right (count_turns hl hi' a k).1 1)

end RoundRobin
