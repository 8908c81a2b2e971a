import Mathlib.Order.Lattice
import Mathlib.Algebra.Order.Group.Int

/-!
# Checking first and taking later

An account from which amounts are taken in two steps: a check admits an amount, and
some time later the amount is taken, with no further look at the account. Between the
two the amount is *pending*.

The account is `Reservation.Sound` if what is pending is covered by what there is.
Every `Reservation.Move` keeps this, and the one move with a condition is the
admission: what there is must cover the amount *and* what is pending already. So as
long as that holds at every admission, no more is taken than there was, and the account
does not go below zero (`Reservation.Sound.within`, `Reservation.Sound.nonneg`).
-/

namespace Reservation

/-- What there is, what has been admitted and not taken, and what has been taken. -/
structure Account where
  row : Int
  pending : Int
  taken : Int
deriving DecidableEq, Repr

/-- **An account that started with `start`** and is not overdrawn by what is pending. -/
structure Sound (start : Int) (a : Account) : Prop where
  nonneg_pending : 0 ≤ a.pending
  covered : a.pending ≤ max 0 a.row
  kept : a.row + a.taken = start
  within : a.taken ≤ max 0 start

theorem Sound.nonneg {start : Int} {a : Account} (h : Sound start a) (hs : 0 ≤ start) :
    0 ≤ a.row := by
  have hk := h.kept
  have hw := h.within
  omega

/-- **What happens to an account**: an amount is accepted, one that was accepted comes to
nothing or is taken, and one is given back. -/
inductive Move (a b : Account) : Prop
  | accept (d : Int) (hd : 0 ≤ d) (hcover : a.pending + d ≤ a.row) (hrow : b.row = a.row)
    (hpending : b.pending = a.pending + d) (htaken : b.taken = a.taken)
  | withdraw (d : Int) (hd : 0 ≤ d) (hp : d ≤ a.pending) (hrow : b.row = a.row)
    (hpending : b.pending = a.pending - d) (htaken : b.taken = a.taken)
  | take (d : Int) (hd : 0 ≤ d) (hp : d ≤ a.pending) (hrow : b.row = a.row - d)
    (hpending : b.pending = a.pending - d) (htaken : b.taken = a.taken + d)
  | restore (d : Int) (hd : 0 ≤ d) (hrow : b.row = a.row + d)
    (hpending : b.pending = a.pending) (htaken : b.taken = a.taken - d)

/-- Nothing happens to an account whose row, pending and taken amounts are the same. -/
theorem Move.stay {a b : Account} (hrow : b.row = a.row) (hpending : b.pending = a.pending)
    (htaken : b.taken = a.taken) : Move a b :=
  .restore 0 (le_refl 0) (by omega) hpending (by omega)

/-- **Every move keeps an account sound.** -/
theorem Sound.move {start : Int} {a b : Account} (h : Sound start a) (m : Move a b) :
    Sound start b := by
  obtain ⟨hpos, hcov, hkept, hwithin⟩ := h
  cases m with
  | accept d hd hcover hrow hpending htaken => constructor <;> omega
  | withdraw d hd hp hrow hpending htaken => constructor <;> omega
  | take d hd hp hrow hpending htaken =>
    -- the amount is pending, so it is there
    have hthere : d ≤ a.row ∨ d = 0 := by omega
    constructor <;> omega
  | restore d hd hrow hpending htaken => constructor <;> omega

theorem sound_start (start : Int) : Sound start ⟨start, 0, 0⟩ :=
  ⟨le_refl 0, le_max_left 0 start, add_zero start, le_max_left 0 start⟩

end Reservation
