import Mathlib.Data.List.Basic
import Mathlib.Data.Nat.Basic
import Mathlib.Order.Basic

/-!
# What cuts leave

A scan over a text of length `n` cuts parts out of it, one after the other, and keeps what lies
between them. A cut that begins before the end of the one before, or behind the text, stops the scan
(`Cuts.exists_keep_iff`); otherwise a place is kept if it is in no cut (`Cuts.mem_keep_iff`).

A part is given by its first place and the place behind its last one.
-/

namespace Cuts

/-- The parts that are kept, from the place `last` on. -/
def keep (n : ℕ) : ℕ → List (ℕ × ℕ) → Option (List (ℕ × ℕ))
  | last, [] => if last ≤ n then some [(last, n)] else none
  | last, c :: cs =>
    if last ≤ c.1 ∧ c.1 ≤ n then (keep n c.2 cs).map fun kept => (last, c.1) :: kept else none

def Within (p : ℕ × ℕ) (i : ℕ) : Prop := p.1 ≤ i ∧ i < p.2

variable {n last i : ℕ} {c r : ℕ × ℕ} {cs kept : List (ℕ × ℕ)}

theorem keep_cons_eq_some_iff : keep n last (c :: cs) = some kept ↔
    last ≤ c.1 ∧ c.1 ≤ n ∧ ∃ rest, keep n c.2 cs = some rest ∧ kept = (last, c.1) :: rest := by
  rw [keep]
  by_cases h : last ≤ c.1 ∧ c.1 ≤ n
  · rw [if_pos h, Option.map_eq_some_iff]
    exact ⟨fun ⟨rest, hrest, heq⟩ => ⟨h.1, h.2, rest, hrest, heq.symm⟩,
      fun ⟨_, _, rest, hrest, heq⟩ => ⟨rest, hrest, heq.symm⟩⟩
  · rw [if_neg h]
    exact ⟨fun hnone => absurd hnone nofun, fun ⟨h1, h2, _⟩ => absurd ⟨h1, h2⟩ h⟩

theorem keep_nil_eq_some_iff : keep n last [] = some kept ↔ last ≤ n ∧ kept = [(last, n)] := by
  rw [keep]
  by_cases h : last ≤ n
  · rw [if_pos h, Option.some_inj]
    exact ⟨fun heq => ⟨h, heq.symm⟩, fun heq => heq.2.symm⟩
  · rw [if_neg h]
    exact ⟨nofun, fun heq => absurd heq.1 h⟩

theorem ne_nil_of_keep (h : keep n last cs = some kept) : kept ≠ [] := by
  cases cs with
  | nil => exact (keep_nil_eq_some_iff.1 h).2 ▸ List.cons_ne_nil _ _
  | cons c cs =>
    obtain ⟨-, -, rest, -, rfl⟩ := keep_cons_eq_some_iff.1 h
    exact List.cons_ne_nil _ _

/-- **The scan goes through** when the cuts are in order, apart and in the text. -/
theorem exists_keep_iff (hcs : ∀ c ∈ cs, c.1 ≤ c.2) : (∃ kept, keep n last cs = some kept) ↔
    last ≤ n ∧ (∀ c ∈ cs, last ≤ c.1 ∧ c.2 ≤ n) ∧ cs.Pairwise fun c d => c.2 ≤ d.1 := by
  induction cs generalizing last with
  | nil =>
    simp only [keep_nil_eq_some_iff, exists_and_left, exists_eq, and_true]
    exact ⟨fun h => ⟨h, fun c hc => absurd hc List.not_mem_nil, List.Pairwise.nil⟩, fun h => h.1⟩
  | cons c cs ih =>
    have hc := hcs c List.mem_cons_self
    have ih := @ih c.2 fun d hd => hcs d (List.mem_cons_of_mem c hd)
    rw [List.pairwise_cons]
    constructor
    · rintro ⟨kept, hkept⟩
      obtain ⟨hlast, hn, rest, hrest, -⟩ := keep_cons_eq_some_iff.1 hkept
      obtain ⟨hle, hbounds, hpair⟩ := ih.1 ⟨rest, hrest⟩
      refine ⟨hlast.trans hn, fun d hd => ?_, fun d hd => (hbounds d hd).1, hpair⟩
      rcases List.mem_cons.1 hd with rfl | hd
      · exact ⟨hlast, hle⟩
      · exact ⟨(hlast.trans hc).trans (hbounds d hd).1, (hbounds d hd).2⟩
    · rintro ⟨-, hbounds, hfirst, hpair⟩
      obtain ⟨hlast, hle⟩ := hbounds c List.mem_cons_self
      obtain ⟨rest, hrest⟩ := ih.2 ⟨hle, fun d hd =>
        ⟨hfirst d hd, (hbounds d (List.mem_cons_of_mem c hd)).2⟩, hpair⟩
      exact ⟨_, keep_cons_eq_some_iff.2 ⟨hlast, hc.trans hle, rest, hrest, rfl⟩⟩

/-- **A place is kept** when it is in no cut. -/
theorem mem_keep_iff (hcs : ∀ c ∈ cs, c.1 ≤ c.2) (h : keep n last cs = some kept) :
    (∃ r ∈ kept, Within r i) ↔ last ≤ i ∧ i < n ∧ ∀ c ∈ cs, ¬Within c i := by
  induction cs generalizing last kept with
  | nil =>
    obtain ⟨-, rfl⟩ := keep_nil_eq_some_iff.1 h
    simp only [List.mem_singleton, exists_eq_left, Within, List.not_mem_nil, false_imp_iff,
      imp_true_iff, and_true]
  | cons c cs ih =>
    have hc := hcs c List.mem_cons_self
    have hcs' : ∀ d ∈ cs, d.1 ≤ d.2 := fun d hd => hcs d (List.mem_cons_of_mem c hd)
    obtain ⟨hlast, hn, rest, hrest, rfl⟩ := keep_cons_eq_some_iff.1 h
    obtain ⟨-, hbounds, -⟩ := (exists_keep_iff hcs').1 ⟨rest, hrest⟩
    rw [List.exists_mem_cons_iff, List.forall_mem_cons, ih hcs' hrest]
    constructor
    · rintro (⟨h1, h2⟩ | ⟨h1, h2, hout⟩)
      · refine ⟨h1, h2.trans_le hn, fun hin => absurd h2 (Nat.not_lt.2 hin.1), fun d hd hin => ?_⟩
        exact absurd h2 (Nat.not_lt.2 (hc.trans ((hbounds d hd).1.trans hin.1)))
      · exact ⟨(hlast.trans hc).trans h1, h2, fun hin => absurd h1 (Nat.not_le.2 hin.2), hout⟩
    · rintro ⟨h1, h2, hcut, hout⟩
      rcases Nat.lt_or_ge i c.1 with hlt | hge
      · exact Or.inl ⟨h1, hlt⟩
      · exact Or.inr ⟨Nat.not_lt.1 fun hlt => hcut ⟨hge, hlt⟩, h2, hout⟩

/-- **Where a kept part ends**: at a cut, or where the text does. -/
theorem ends_of_mem (h : keep n last cs = some kept) (hr : r ∈ kept) :
    (r.1 = last ∨ ∃ c ∈ cs, r.1 = c.2) ∧ (r.2 = n ∨ ∃ c ∈ cs, r.2 = c.1) ∧
      r.1 ≤ r.2 ∧ r.2 ≤ n := by
  induction cs generalizing last kept with
  | nil =>
    obtain ⟨hle, rfl⟩ := keep_nil_eq_some_iff.1 h
    obtain rfl := List.mem_singleton.1 hr
    exact ⟨Or.inl rfl, Or.inl rfl, hle, Nat.le_refl n⟩
  | cons c cs ih =>
    obtain ⟨hlast, hn, rest, hrest, rfl⟩ := keep_cons_eq_some_iff.1 h
    rcases List.mem_cons.1 hr with rfl | hr
    · exact ⟨Or.inl rfl, Or.inr ⟨c, List.mem_cons_self, rfl⟩, hlast, hn⟩
    · obtain ⟨hleft, hright, hle⟩ := ih hrest hr
      refine ⟨Or.inr ?_, hright.imp_right ?_, hle⟩
      · rcases hleft with heq | ⟨d, hd, heq⟩
        · exact ⟨c, List.mem_cons_self, heq⟩
        · exact ⟨d, List.mem_cons_of_mem c hd, heq⟩
      · exact fun ⟨d, hd, heq⟩ => ⟨d, List.mem_cons_of_mem c hd, heq⟩

end Cuts
