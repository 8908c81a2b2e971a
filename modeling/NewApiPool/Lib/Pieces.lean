import Mathlib.Data.List.Infix
import Mathlib.Data.Nat.Notation

/-!
# A text in pieces

A text is cut into pieces from the front: a function says how long the first piece is. Where it
looks at nothing behind the piece, the pieces of a part that begins and ends between pieces are the
pieces of the whole (`Pieces.split_flatten_take`, `Pieces.split_flatten_drop`).
-/

namespace Pieces

variable {α : Type*}

def splitFrom (width : List α → ℕ) : ℕ → List α → List (List α)
  | 0, _ => []
  | _ + 1, [] => []
  | fuel + 1, a :: s =>
    (a :: s).take (width (a :: s)) :: splitFrom width fuel ((a :: s).drop (width (a :: s)))

/-- The pieces of a text. -/
def split (width : List α → ℕ) (s : List α) : List (List α) := splitFrom width s.length s

/-- What the width of the first piece has to be: it is within the text, and it depends on nothing
behind the piece. -/
structure Lawful (width : List α → ℕ) : Prop where
  pos : ∀ s, s ≠ [] → 0 < width s
  le : ∀ s, width s ≤ s.length
  take : ∀ s n, width s ≤ n → width (s.take n) = width s

variable {width : List α → ℕ} {s : List α}

theorem splitFrom_nil (fuel : ℕ) : splitFrom width fuel [] = [] := by
  cases fuel <;> rfl

theorem split_nil : split width [] = [] := rfl

theorem length_le_flatten {g : List (List α)} (h : ∀ p ∈ g, p ≠ []) :
    g.length ≤ g.flatten.length := by
  induction g with
  | nil => exact Nat.le_refl 0
  | cons p g ih =>
    rw [List.forall_mem_cons] at h
    have hpos := List.length_pos_of_ne_nil h.1
    have hle := ih h.2
    rw [List.flatten_cons, List.length_append, List.length_cons]
    omega

/-- There are as many elements as pieces where each piece is one. -/
theorem length_flatten_eq_iff {g : List (List α)} (h : ∀ p ∈ g, p ≠ []) :
    g.flatten.length = g.length ↔ ∀ p ∈ g, p.length = 1 := by
  induction g with
  | nil => exact iff_of_true rfl fun p hp => absurd hp List.not_mem_nil
  | cons p g ih =>
    rw [List.forall_mem_cons] at *
    have hpos := List.length_pos_of_ne_nil h.1
    have hle := length_le_flatten h.2
    rw [← ih h.2, List.flatten_cons, List.length_append, List.length_cons]
    omega
namespace Lawful

theorem splitFrom_eq (h : Lawful width) {fuel : ℕ} (hfuel : s.length ≤ fuel) :
    splitFrom width fuel s = split width s := by
  induction fuel using Nat.strong_induction_on generalizing s with
  | _ fuel ih =>
    match fuel, s with
    | 0, s => rw [List.eq_nil_of_length_eq_zero (Nat.le_zero.1 hfuel), splitFrom_nil, split_nil]
    | _ + 1, [] => rw [splitFrom_nil, split_nil]
    | fuel + 1, a :: s =>
      have hpos := h.pos (a :: s) (List.cons_ne_nil a s)
      have hlen : ((a :: s).drop (width (a :: s))).length ≤ s.length := by
        rw [List.length_drop, List.length_cons]
        omega
      have hs : s.length ≤ fuel := Nat.le_of_succ_le_succ hfuel
      rw [split, List.length_cons, splitFrom, splitFrom, ih fuel (Nat.lt_succ_self fuel)
        (hlen.trans hs)]
      rcases Nat.eq_or_lt_of_le hs with heq | hlt
      · rw [heq, ih fuel (Nat.lt_succ_self fuel) (hlen.trans hs)]
      · rw [ih s.length (Nat.lt_succ_of_lt hlt) hlen]

theorem split_of_ne_nil (h : Lawful width) (hs : s ≠ []) :
    split width s = s.take (width s) :: split width (s.drop (width s)) := by
  obtain ⟨a, s, rfl⟩ := List.exists_cons_of_ne_nil hs
  have hpos := h.pos (a :: s) hs
  rw [split, List.length_cons, splitFrom, h.splitFrom_eq]
  rw [List.length_drop, List.length_cons]
  omega

/-- Pieces are taken from the front, one after the other. -/
theorem rec_on (h : Lawful width) {P : List α → Prop} (nil : P [])
    (step : ∀ s, s ≠ [] → P (s.drop (width s)) → P s) (s : List α) : P s := by
  induction hn : s.length using Nat.strong_induction_on generalizing s with
  | _ n ih =>
    rcases eq_or_ne s [] with rfl | hs
    · exact nil
    · refine step s hs (ih _ ?_ _ rfl)
      have hpos := h.pos s hs
      have hle := h.le s
      rw [List.length_drop]
      omega

/-- **The pieces are the text.** -/
theorem flatten_split (h : Lawful width) (s : List α) : (split width s).flatten = s := by
  induction s using h.rec_on with
  | nil => rfl
  | step s hs ih => rw [h.split_of_ne_nil hs, List.flatten_cons, ih, List.take_append_drop]

theorem flatten_take_append (h : Lawful width) (s : List α) (k : ℕ) :
    ((split width s).take k).flatten ++ ((split width s).drop k).flatten = s := by
  rw [← List.flatten_append, List.take_append_drop, h.flatten_split]

theorem ne_nil_of_mem (h : Lawful width) {p : List α} (hp : p ∈ split width s) : p ≠ [] := by
  induction s using h.rec_on with
  | nil => exact absurd hp List.not_mem_nil
  | step s hs ih =>
    rw [h.split_of_ne_nil hs, List.mem_cons] at hp
    rcases hp with rfl | hp
    · have hpos := h.pos s hs
      rw [Ne, List.take_eq_nil_iff]
      rintro (hzero | hnil)
      · omega
      · exact hs hnil
    · exact ih hp

/-- **The pieces from some piece on.** -/
theorem split_flatten_drop (h : Lawful width) (s : List α) (k : ℕ) :
    split width ((split width s).drop k).flatten = (split width s).drop k := by
  induction s using h.rec_on generalizing k with
  | nil => rw [split_nil, List.drop_nil]; rfl
  | step s hs ih =>
    rw [h.split_of_ne_nil hs]
    cases k with
    | zero =>
      rw [List.drop_zero, List.flatten_cons, h.flatten_split, List.take_append_drop,
        h.split_of_ne_nil hs]
    | succ k =>
      rw [List.drop_succ_cons]
      exact ih k

/-- **The pieces up to some piece.** -/
theorem split_flatten_take (h : Lawful width) (s : List α) (k : ℕ) :
    split width ((split width s).take k).flatten = (split width s).take k := by
  induction s using h.rec_on generalizing k with
  | nil => rw [split_nil, List.take_nil]; rfl
  | step s hs ih =>
    rw [h.split_of_ne_nil hs]
    cases k with
    | zero => rfl
    | succ k =>
      have hlen : (s.take (width s)).length = width s := by
        rw [List.length_take, Nat.min_eq_left (h.le s)]
      -- the text up to the piece is a part of the whole one, with the same first piece
      obtain ⟨n, hn, hpart⟩ : ∃ n, width s ≤ n ∧
          s.take (width s) ++ ((split width (s.drop (width s))).take k).flatten = s.take n := by
        refine ⟨width s + ((split width (s.drop (width s))).take k).flatten.length,
          Nat.le_add_right _ _, ?_⟩
        rw [List.take_add,
          ← List.prefix_iff_eq_take.1 ⟨_, h.flatten_take_append (s.drop (width s)) k⟩]
      have hwidth := h.take s n hn
      have hne : s.take n ≠ [] := by
        rw [Ne, List.take_eq_nil_iff]
        rintro (rfl | hnil)
        · exact absurd (h.pos s hs) (Nat.not_lt.2 hn)
        · exact hs hnil
      rw [List.take_succ_cons, List.flatten_cons, hpart, h.split_of_ne_nil hne, hwidth, ← hpart,
        List.take_left' hlen, List.drop_left' hlen, ih k]

end Lawful

/-! ### Places -/

/-- Where the piece `k` begins. -/
def place (width : List α → ℕ) (s : List α) (k : ℕ) : ℕ := ((split width s).take k).flatten.length

variable {a b i k : ℕ}

theorem place_add (a b : ℕ) : place width s (a + b) =
    place width s a + (((split width s).drop a).take b).flatten.length := by
  rw [place, place, List.take_add, List.flatten_append, List.length_append]

theorem place_mono (h : a ≤ b) : place width s a ≤ place width s b := by
  obtain ⟨q, rfl⟩ := Nat.exists_eq_add_of_le h
  exact (place_add a q).symm ▸ Nat.le_add_right _ _

namespace Lawful

theorem place_of_length_le (h : Lawful width) (hk : (split width s).length ≤ k) :
    place width s k = s.length := by
  rw [place, List.take_of_length_le hk, h.flatten_split]

theorem take_place (h : Lawful width) (s : List α) (k : ℕ) :
    s.take (place width s k) = ((split width s).take k).flatten :=
  (List.prefix_iff_eq_take.1 ⟨_, h.flatten_take_append s k⟩).symm

theorem drop_place (h : Lawful width) (s : List α) (k : ℕ) :
    s.drop (place width s k) = ((split width s).drop k).flatten :=
  (congrArg (List.drop _) (h.flatten_take_append s k).symm).trans List.drop_left

theorem place_lt_succ (h : Lawful width) (hk : k < (split width s).length) :
    place width s k < place width s (k + 1) := by
  have hpos := List.length_pos_of_ne_nil (h.ne_nil_of_mem (List.getElem_mem hk))
  rw [place, place, List.take_succ_eq_append_getElem hk, List.flatten_append, List.length_append,
    List.flatten_singleton]
  omega

theorem le_place (h : Lawful width) (hk : k ≤ (split width s).length) : k ≤ place width s k := by
  induction k with
  | zero => exact Nat.zero_le _
  | succ k ih => exact Nat.lt_of_le_of_lt (ih (Nat.le_of_succ_le hk)) (h.place_lt_succ hk)

/-- **Every place is in a piece.** -/
theorem exists_place (h : Lawful width) (hi : i < s.length) :
    ∃ k < (split width s).length, place width s k ≤ i ∧ i < place width s (k + 1) := by
  have hupto (m : ℕ) (hm : m ≤ (split width s).length) (hlt : i < place width s m) :
      ∃ k < m, place width s k ≤ i ∧ i < place width s (k + 1) := by
    induction m with
    | zero => exact absurd hlt (Nat.not_lt_zero i)
    | succ m ih =>
      rcases Nat.lt_or_ge i (place width s m) with hbefore | hin
      · obtain ⟨k, hk, hwithin⟩ := ih (Nat.le_of_succ_le hm) hbefore
        exact ⟨k, Nat.lt_succ_of_lt hk, hwithin⟩
      · exact ⟨m, Nat.lt_succ_self m, hin, hlt⟩
  refine hupto _ (Nat.le_refl _) ?_
  rwa [h.place_of_length_le (Nat.le_refl _)]

/-- **The pieces of a part** that begins and ends between pieces. -/
theorem split_between (h : Lawful width) (s : List α) (a b : ℕ) :
    split width ((s.take (place width s b)).drop (place width s a)) =
      ((split width s).take b).drop a := by
  rcases Nat.le_total b a with hba | hab
  · rw [List.drop_of_length_le, List.drop_of_length_le, split_nil]
    · exact Nat.le_trans (List.length_take_le b _) hba
    · exact Nat.le_trans (List.length_take_le _ _) (place_mono hba)
  · rw [h.take_place]
    generalize hpart : ((split width s).take b).flatten = part
    have hsplit : split width part = (split width s).take b := by
      rw [← hpart, h.split_flatten_take]
    have hplace : place width s a = place width part a := by
      rw [place, place, hsplit, List.take_take, Nat.min_eq_left hab]
    rw [hplace, h.drop_place, h.split_flatten_drop, hsplit]

end Lawful

/-- A part between pieces has a place when it has the piece. -/
theorem between_iff (hi : place width s k ≤ i ∧ i < place width s (k + 1)) :
    (place width s a ≤ i ∧ i < place width s b) ↔ a ≤ k ∧ k < b := by
  constructor
  · rintro ⟨ha, hb⟩
    refine ⟨Nat.not_lt.1 fun hlt => ?_, Nat.not_le.1 fun hle => ?_⟩
    · exact absurd (Nat.lt_of_lt_of_le hi.2 (place_mono hlt)) (Nat.not_lt.2 ha)
    · exact absurd (Nat.le_trans (place_mono hle) hi.1) (Nat.not_le.2 hb)
  · rintro ⟨ha, hb⟩
    exact ⟨Nat.le_trans (place_mono ha) hi.1, Nat.lt_of_lt_of_le hi.2 (place_mono hb)⟩

end Pieces
