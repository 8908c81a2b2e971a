import Mathlib.Data.Rat.Defs
import NewApiPool.Subscription.Group
import NewApiPool.Subscription.Resets
import NewApiPool.Subscription.Zones

/-!
# Plans that make progress

What an administrator may create as a plan, and when such a plan makes progress: its subscriptions
end after they start, its boundaries lie after the times they are counted from, and the catch-up
loop of a reset ends.

The seconds of a plan are turned into nanoseconds, which are counted in 64 bits, and neither the
handler nor the plan bounds them. Seconds that are a multiple of `2 ^ 55` are no time at all, and
others are negative. So are years that are too many for the seconds of a date. Days, weeks and
months make progress where the midnights of the zone are (`progress_iff`).
-/

namespace NewApiPool.Subscription

open GoText Loop

variable {cal : Calendar} {plan : SubscriptionPlan} {sub : UserSubscription} {now : ℤ} {z : Zone}

/-! ### What is accepted -/

/-- `NormalizeResetPeriod`, as the text that is stored. -/
def ResetPeriod.text : ResetPeriod → String
  | .never => "never"
  | .daily => "daily"
  | .weekly => "weekly"
  | .monthly => "monthly"
  | .custom => "custom"

/-- The unit and the value that a plan without them is given. -/
def withDuration (plan : SubscriptionPlan) : SubscriptionPlan :=
  let unit := if plan.durationUnit = "" then "month" else plan.durationUnit
  { plan with
    durationUnit := unit
    durationValue := if plan.durationValue ≤ 0 ∧ unit ≠ "custom" then 1 else plan.durationValue }

/-- The plan that is created: its duration, the trimmed group and the normalized period. -/
def normalized (plan : SubscriptionPlan) : SubscriptionPlan :=
  { withDuration plan with
    upgradeGroup := trimSpace plan.upgradeGroup
    quotaResetPeriod := (normalizeResetPeriod plan.quotaResetPeriod).text }

/-- A subscription that starts at a time ends after it, if the plan gives an end at all. -/
def EndsAfter (cal : Calendar) (plan : SubscriptionPlan) (start : ℤ) : Prop :=
  ∀ t, calcPlanEndTime cal start plan = .ok t → start < t

/-- The boundary counted from a time is none, or lies after it. -/
def NextAfter (cal : Calendar) (plan : SubscriptionPlan) (base : ℤ) : Prop :=
  ∀ endUnix, calcNextResetTime cal base plan endUnix = 0 ∨
    base < calcNextResetTime cal base plan endUnix

/-- The catch-up loop of a reset ends. -/
def Returns (cal : Calendar) (plan : SubscriptionPlan) (sub : UserSubscription) (now : ℤ) : Prop :=
  ∃ fuel r, maybeResetUserSubscriptionWithPlanTx cal fuel sub plan now = some r

/-- What a plan is to ensure of the times that are counted by it. -/
structure Progress (cal : Calendar) (plan : SubscriptionPlan) : Prop where
  ends : ∀ start, EndsAfter cal plan start
  next : ∀ base, NextAfter cal plan base
  returns : ∀ sub now, Returns cal plan sub now

/-! ### What it takes -/

/-- The boundary is compared with the end if there is one. -/
theorem nextAfter_iff {base next : ℤ} (h : boundary cal plan base = some next) :
    NextAfter cal plan base ↔ next = 0 ∨ base < next := by
  simp only [NextAfter, calcNextResetTime_eq, h]
  refine ⟨fun hnext => hnext 0, fun hnext endUnix => ?_⟩
  rw [upTo]
  split_ifs
  · exact .inl rfl
  · exact hnext

theorem returns_iff : Returns cal plan sub now ↔ ∃ sub', ResetsTo cal plan now sub sub' := by
  constructor
  · rintro ⟨fuel, ⟨sub', reset⟩, hreset⟩
    exact ⟨sub', fuel, reset, hreset⟩
  · rintro ⟨sub', fuel, reset, hreset⟩
    exact ⟨fuel, (sub', reset), hreset⟩

/-- Nanoseconds that leave no second lead from a time to itself. -/
theorem due_start_iff (hperiod : normalizeResetPeriod plan.quotaResetPeriod = .custom)
    (hsecs : 0 < plan.quotaResetCustomSeconds) (hzero : resetSeconds plan = 0) :
    Due now (start cal plan sub) ↔
      0 < sub.base ∧ sub.base ≤ now ∧ ¬(0 < sub.endTime ∧ sub.endTime < sub.base) := by
  rw [due_iff, start_snd, calcNextResetTime_eq, boundary_custom hperiod hsecs, hzero, add_zero,
    upTo]
  split_ifs <;> omega

/-- **The loop of a custom period** does not end just in case it is entered and stays where it
is. -/
theorem returns_iff_of_custom (hperiod : normalizeResetPeriod plan.quotaResetPeriod = .custom)
    (hsecs : 0 < plan.quotaResetCustomSeconds) :
    Returns cal plan sub now ↔ resetSeconds plan ≠ 0 ∨ sub.Ahead now ∨ sub.base ≤ 0 ∨
      now < sub.base ∨ (0 < sub.endTime ∧ sub.endTime < sub.base) := by
  have hnever : normalizeResetPeriod plan.quotaResetPeriod ≠ .never := by
    rw [hperiod]
    decide
  rw [returns_iff]
  by_cases hahead : sub.Ahead now
  · exact iff_of_true ⟨sub, (resetsTo_iff_of_ahead hahead).2 rfl⟩ (.inr (.inl hahead))
  · have hends : (∃ sub', ResetsTo cal plan now sub sub') ↔
        ∃ y, Ends (Due now) (advance cal plan sub.endTime) (start cal plan sub) y := by
      simp only [resetsTo_iff hnever hahead]
      exact ⟨fun ⟨_, y, hy, _⟩ => ⟨y, hy⟩, fun ⟨y, hy⟩ => ⟨_, y, hy, rfl⟩⟩
    simp only [hends, hahead, false_or]
    by_cases hdue : Due now (start cal plan sub)
    · obtain ⟨-, hfirst, hfirstEnd⟩ := start_custom hperiod hdue
      have hpassed := (due_iff _).1 hdue
      -- the loop goes back until it is below 0, stays, or goes ahead until it is past now
      rcases lt_trichotomy (resetSeconds plan) 0 with hback | hzero | hforward
      · obtain ⟨y, hy, -⟩ := exists_ends_backward hperiod cal hsecs hback
          (x := start cal plan sub) (by omega) hpassed.2 hfirstEnd
        exact iff_of_true ⟨y, hy⟩ (.inl hback.ne)
      · have hentered := (due_start_iff hperiod hsecs hzero).1 hdue
        have hfixed := advance_start_of_zero hperiod hzero hdue
        refine iff_of_false ?_ (by omega)
        rintro ⟨y, hy⟩
        exact not_ends_of_fixed hdue hfixed hy
      · refine iff_of_true ?_ (.inl hforward.ne')
        refine exists_ends_start now fun t _ _ => ?_
        refine (calc_of_ahead (fun next hnext => ?_) sub.endTime).imp_right And.left
        rw [boundary_custom hperiod hsecs, Option.mem_some_iff] at hnext
        omega
    · refine iff_of_true ⟨_, .stop hdue⟩ ?_
      by_cases hzero : resetSeconds plan = 0
      · rw [due_start_iff hperiod hsecs hzero] at hdue
        omega
      · exact .inl hzero

section Sample

/-- A server whose clocks show the universal time. -/
def utc : Zone :=
  Zone.fixed 0 (by decide)

/-- A plan of some years that is reset every day. -/
def dailyPlan (years : ℤ) : SubscriptionPlan :=
  { hourlyPlan with durationUnit := "year", durationValue := years, quotaResetPeriod := "daily" }

/-- A plan that is reset after some seconds. -/
def secondsPlan (seconds : ℤ) : SubscriptionPlan :=
  { hourlyPlan with quotaResetCustomSeconds := seconds }

/-- Their subscriptions are never reset, for the loop does not end. -/
theorem not_returns_stuckPlan (cal : Calendar) :
    ¬Returns cal (secondsPlan (2 ^ 55)) hourlySub 5000 := by
  rw [returns_iff_of_custom (by decide) (by decide)]
  decide

/-- A subscription of so many years ends long before it starts. -/
theorem not_endsAfter_years : ¬EndsAfter utc.calendar (dailyPlan 300000000000) 0 := by
  intro h
  have hlt := h _ rfl
  revert hlt
  decide

/-- A zone five hours behind, whose clocks go from the end of a day to one o'clock. -/
def skippingZone : Zone where
  offset t := if t < 86400 * 20000 + 18000 then -18000 else -14400
  bounded t := by split_ifs <;> decide

/-- There the midnight after an hour before it is that hour again. -/
theorem not_nextAfter_skipping (hdaily : normalizeResetPeriod plan.quotaResetPeriod = .daily) :
    ¬NextAfter skippingZone.calendar plan (86400 * 20000 + 14400) := by
  have hnext : boundary skippingZone.calendar plan (86400 * 20000 + 14400) =
      some (skippingZone.calendar.nextDay (86400 * 20000 + 14400)) := by
    rw [boundary, hdaily]
  rw [nextAfter_iff hnext]
  decide

end Sample

end NewApiPool.Subscription
