import Mathlib.Algebra.BigOperators.Group.Multiset.Basic
import Mathlib.Algebra.Order.BigOperators.GroupWithZero.Multiset
import Mathlib.Algebra.Order.Floor.Semifield
import Mathlib.Tactic.FieldSimp
import Mathlib.Tactic.Linarith

/-!
# Factors that are applied one by one, with a truncation after each

`scale rs n` multiplies `n` by the factors `rs` in their order and drops the fraction each time.
To scale by the inverses and then to multiply by the whole product does not give the number
back. It does for all that were scaled and in every order exactly if all factors are natural
numbers, or all are the inverses of such (`roundTrips_scale_iff`); and for every number only in
the second case (`roundTrips_iff`).
-/

namespace Truncation

variable {K : Type*} [Field K]

/-! ### Exact numbers -/

/-- `x` times any of the factors is a natural number. -/
def Exact (S : Multiset K) (x : K) : Prop :=
  ∀ T ≤ S, ∃ k : ℕ, x * T.prod = k

variable {S : Multiset K} {r x : K}

theorem Exact.mono {T : Multiset K} (h : Exact S x) (hle : T ≤ S) : Exact T x :=
  fun U hU => h U (hU.trans hle)

theorem Exact.mul (h : Exact (r ::ₘ S) x) : Exact S (x * r) := by
  intro T hT
  obtain ⟨k, hk⟩ := h (r ::ₘ T) (Multiset.cons_le_cons r hT)
  exact ⟨k, by rw [← hk, Multiset.prod_cons, mul_assoc]⟩

theorem Exact.exists_eq (h : Exact S x) : ∃ k : ℕ, x = k := by
  obtain ⟨k, hk⟩ := h 0 (Multiset.zero_le S)
  exact ⟨k, by rw [← hk, Multiset.prod_zero, mul_one]⟩

theorem Exact.exists_mul_eq (h : Exact S x) (hr : r ∈ S) : ∃ k : ℕ, x * r = k := by
  obtain ⟨k, hk⟩ := h {r} (Multiset.singleton_le.mpr hr)
  exact ⟨k, by rw [← hk, Multiset.prod_singleton]⟩

/-! ### Natural factors, and inverses of such -/

def Natural (S : Multiset K) : Prop :=
  ∀ r ∈ S, ∃ k : ℕ, r = k

def InverseNatural (S : Multiset K) : Prop :=
  ∀ r ∈ S, ∃ k : ℕ, r = (k : K)⁻¹

theorem Natural.exists_prod_eq (h : Natural S) : ∃ k : ℕ, S.prod = k := by
  induction S using Multiset.induction_on with
  | empty => exact ⟨1, by simp⟩
  | cons r S ih =>
    obtain ⟨k, hk⟩ := h r (Multiset.mem_cons_self r S)
    obtain ⟨l, hl⟩ := ih fun r hr => h r (Multiset.mem_cons_of_mem hr)
    exact ⟨k * l, by rw [Multiset.prod_cons, hk, hl, Nat.cast_mul]⟩

theorem InverseNatural.exists_prod_eq (h : InverseNatural S) : ∃ k : ℕ, S.prod = (k : K)⁻¹ := by
  induction S using Multiset.induction_on with
  | empty => exact ⟨1, by simp⟩
  | cons r S ih =>
    obtain ⟨k, hk⟩ := h r (Multiset.mem_cons_self r S)
    obtain ⟨l, hl⟩ := ih fun r hr => h r (Multiset.mem_cons_of_mem hr)
    exact ⟨k * l, by rw [Multiset.prod_cons, hk, hl, Nat.cast_mul, mul_inv]⟩

theorem Natural.exact (h : Natural S) (n : ℕ) : Exact S (n : K) := by
  intro T hT
  obtain ⟨k, hk⟩ := Natural.exists_prod_eq fun r hr => h r (Multiset.mem_of_le hT hr)
  exact ⟨n * k, by rw [hk, Nat.cast_mul]⟩

/-- An exact number whose product with the factors is `1` makes inverses of them. -/
theorem inverseNatural_of_exact {m : ℕ} (h : Exact S (m : K)) (hm : (m : K) * S.prod = 1) :
    InverseNatural S := by
  intro r hr
  obtain ⟨T, rfl⟩ := Multiset.exists_cons_of_mem hr
  obtain ⟨k, hk⟩ := h T (Multiset.le_cons_self T r)
  rw [Multiset.prod_cons, mul_left_comm, hk] at hm
  exact ⟨k, eq_inv_of_mul_eq_one_left hm⟩

/-! ### The truncated product -/

variable [LinearOrder K] [FloorSemiring K]

/-- A product, with the fraction dropped after each factor. -/
def scale (rs : List K) (n : ℕ) : ℕ :=
  rs.foldl (fun (n : ℕ) (r : K) => ⌊(n : K) * r⌋₊) n

variable {rs ss : List K} {m n : ℕ}

@[simp] theorem scale_nil : scale ([] : List K) n = n :=
  rfl

@[simp] theorem scale_cons : scale (r :: rs) n = scale rs ⌊n * r⌋₊ :=
  rfl

theorem scale_append : scale (rs ++ ss) n = scale ss (scale rs n) :=
  List.foldl_append

variable [IsStrictOrderedRing K]

theorem scale_mono (hpos : ∀ r ∈ rs, 0 < r) (h : m ≤ n) : scale rs m ≤ scale rs n := by
  induction rs generalizing m n with
  | nil => exact h
  | cons r rs ih =>
    refine ih (fun r hr => hpos r (List.mem_cons_of_mem _ hr)) (Nat.floor_mono ?_)
    have hr : 0 ≤ r := (hpos r List.mem_cons_self).le
    exact mul_le_mul_of_nonneg_right (by exact_mod_cast h) hr

theorem scale_le (hpos : ∀ r ∈ rs, 0 < r) : (scale rs n : K) ≤ n * rs.prod := by
  induction rs generalizing n with
  | nil => simp
  | cons r rs ih =>
    have hr := hpos r List.mem_cons_self
    have hrs (r : K) (h : r ∈ rs) := hpos r (List.mem_cons_of_mem _ h)
    calc (scale rs ⌊n * r⌋₊ : K)
        ≤ ⌊n * r⌋₊ * rs.prod := ih hrs
      _ ≤ n * r * rs.prod :=
          mul_le_mul_of_nonneg_right (Nat.floor_le (by positivity)) (List.prod_pos hrs).le
      _ = n * (r :: rs).prod := by rw [List.prod_cons, mul_assoc]

theorem le_scale (h : ∀ r ∈ rs, 1 ≤ r) : n ≤ scale rs n := by
  induction rs generalizing n with
  | nil => exact le_rfl
  | cons r rs ih =>
    refine le_trans ?_ (ih fun r hr => h r (List.mem_cons_of_mem _ hr))
    exact Nat.le_floor (le_mul_of_one_le_right n.cast_nonneg (h r List.mem_cons_self))

theorem exists_le_scale (hpos : ∀ r ∈ rs, 0 < r) (m : ℕ) : ∃ n, m ≤ scale rs n := by
  induction rs generalizing m with
  | nil => exact ⟨m, le_rfl⟩
  | cons r rs ih =>
    have hr := hpos r List.mem_cons_self
    have hrs (r : K) (h : r ∈ rs) := hpos r (List.mem_cons_of_mem _ h)
    obtain ⟨k, hk⟩ := ih hrs m
    refine ⟨⌈k / r⌉₊, hk.trans (scale_mono hrs (Nat.le_floor ?_))⟩
    exact (div_le_iff₀ hr).mp (Nat.le_ceil _)

/-- Nothing is dropped by truncating a product of ratios that is a whole number already. -/
theorem scale_of_exact (h : Exact (rs : Multiset K) (n : K)) : (scale rs n : K) = n * rs.prod := by
  induction rs generalizing n with
  | nil => simp
  | cons r rs ih =>
    rw [← Multiset.cons_coe] at h
    obtain ⟨k, hk⟩ := h.mul.exists_eq
    have hexact := h.mul
    rw [hk] at hexact
    rw [scale_cons, hk, Nat.floor_natCast, ih hexact, List.prod_cons, ← mul_assoc, hk]

/-- **One less than an exact number** stays one less, as long as no factor is above `1`. -/
theorem scale_of_exact_succ (hpos : ∀ r ∈ rs, 0 < r) (hle : ∀ r ∈ rs, r ≤ 1)
    (h : Exact (rs : Multiset K) (n + 1 : K)) : (scale rs n : K) + 1 = (n + 1) * rs.prod := by
  induction rs generalizing n with
  | nil => simp
  | cons r rs ih =>
    rw [← Multiset.cons_coe] at h
    have hr := hpos r List.mem_cons_self
    have hr' := hle r List.mem_cons_self
    obtain ⟨k, hk⟩ := h.mul.exists_eq
    have hexact := h.mul
    rw [hk] at hexact
    have hk0 : k ≠ 0 := by
      rintro rfl
      have hzero : ((n : K) + 1) * r ≠ 0 := by positivity
      exact hzero (hk.trans Nat.cast_zero)
    obtain ⟨k, rfl⟩ := Nat.exists_eq_succ_of_ne_zero hk0
    have hfloor : ⌊(n : K) * r⌋₊ = k := by
      rw [Nat.floor_eq_iff (by positivity)]
      push_cast at hk
      constructor <;> linarith
    rw [Nat.succ_eq_add_one, Nat.cast_add, Nat.cast_one] at hk hexact
    rw [scale_cons, hfloor, ih (fun r hr => hpos r (List.mem_cons_of_mem _ hr))
      (fun r hr => hle r (List.mem_cons_of_mem _ hr)) hexact, List.prod_cons, ← mul_assoc, hk]

/-! ### There and back -/

/-- The factors are taken out one by one, in any order, and put back at once. -/
def RoundTrips (S : Multiset K) (n : ℕ) : Prop :=
  ∀ rs : List K, rs = S → ⌊(scale (rs.map (·⁻¹)) n : K) * S.prod⌋₊ = n

theorem scale_inv_mul_le (hpos : ∀ r ∈ rs, 0 < r) :
    (scale (rs.map (·⁻¹)) n : K) * rs.prod ≤ n := by
  have hprod : 0 < rs.prod := List.prod_pos hpos
  have hinv : ∀ r ∈ rs.map (·⁻¹), 0 < r := by
    simp only [List.mem_map, forall_exists_index, and_imp, forall_apply_eq_imp_iff₂, inv_pos]
    exact hpos
  have hle := scale_le (n := n) hinv
  rw [← List.prod_inv, ← div_eq_mul_inv] at hle
  exact (le_div_iff₀ hprod).mp hle

/-- A multiple of the product by an exact number: every factor can be taken out. -/
theorem scale_inv_of_exact (hpos : ∀ r ∈ rs, 0 < r) (h : Exact (rs : Multiset K) (m : K))
    (hn : (m : K) * rs.prod = n) : scale (rs.map (·⁻¹)) n = m := by
  induction rs generalizing n with
  | nil =>
    rw [List.prod_nil, mul_one, Nat.cast_inj] at hn
    exact hn.symm
  | cons r rs ih =>
    have hr := hpos r List.mem_cons_self
    obtain ⟨k, hk⟩ := h rs (Multiset.coe_le.mpr (List.sublist_cons_self r rs).subperm)
    rw [Multiset.prod_coe] at hk
    have hfloor : ⌊(n : K) * r⁻¹⌋₊ = k := by
      rw [← hn, List.prod_cons, mul_left_comm, mul_comm r, mul_assoc, mul_inv_cancel₀ hr.ne',
        mul_one, hk, Nat.floor_natCast]
    rw [List.map_cons, scale_cons, hfloor]
    refine ih (fun r hr => hpos r (List.mem_cons_of_mem _ hr)) (h.mono ?_) hk
    exact Multiset.coe_le.mpr (List.sublist_cons_self r rs).subperm

/-- **What goes there and back** is an exact multiple of the product. -/
theorem roundTrips_iff_exact (hpos : ∀ r ∈ S, 0 < r) :
    RoundTrips S n ↔ ∃ m : ℕ, Exact S (m : K) ∧ (m : K) * S.prod = n := by
  constructor
  · intro h
    -- nothing is dropped in any order
    have hall (rs : List K) (hrs : rs = S) :
        (scale (rs.map (·⁻¹)) n : K) * S.prod = n := by
      have hrs' : ∀ r ∈ rs, 0 < r := fun r hr => hpos r (hrs ▸ Multiset.mem_coe.mpr hr)
      have hle := scale_inv_mul_le (n := n) hrs'
      rw [← Multiset.prod_coe, hrs] at hle
      refine hle.antisymm ?_
      have hfloor := Nat.floor_le (a := (scale (rs.map (·⁻¹)) n : K) * S.prod)
        (mul_nonneg (Nat.cast_nonneg _) (Multiset.prod_pos hpos).le)
      rwa [h rs hrs] at hfloor
    refine ⟨scale (S.toList.map (·⁻¹)) n, fun T hT => ?_, hall _ S.coe_toList⟩
    obtain ⟨U, rfl⟩ := Multiset.le_iff_exists_add.mp hT
    have hU : ∀ r ∈ U.toList, 0 < r := fun r hr =>
      hpos r (Multiset.mem_add.mpr (.inr (Multiset.mem_toList.mp hr)))
    have hT' : ∀ r ∈ T.toList, 0 < r := fun r hr =>
      hpos r (Multiset.mem_add.mpr (.inl (Multiset.mem_toList.mp hr)))
    refine ⟨scale (U.toList.map (·⁻¹)) n, ?_⟩
    have hsplit := hall (U.toList ++ T.toList) (by
      rw [← Multiset.coe_add, Multiset.coe_toList, Multiset.coe_toList, add_comm])
    rw [List.map_append, scale_append] at hsplit
    have hwhole := hall _ (T + U).coe_toList
    have hfirst := scale_inv_mul_le (n := n) hU
    have hsecond := scale_inv_mul_le (n := scale (U.toList.map (·⁻¹)) n) hT'
    rw [← Multiset.prod_coe, Multiset.coe_toList] at hfirst hsecond
    rw [Multiset.prod_add] at hsplit hwhole
    have hprod : 0 < U.prod := Multiset.prod_pos fun r hr =>
      hU r (Multiset.mem_toList.mpr hr)
    -- both products with `U.prod` are `n`
    have hle := mul_le_mul_of_nonneg_right hsecond hprod.le
    rw [mul_assoc, hsplit] at hle
    have heq : (scale (U.toList.map (·⁻¹)) n : K) * U.prod = n := hfirst.antisymm hle
    refine mul_right_cancel₀ hprod.ne' ?_
    rw [heq, mul_assoc, hwhole]
  · rintro ⟨m, hexact, hm⟩ rs rfl
    have hrs : ∀ r ∈ rs, 0 < r := fun r hr => hpos r (Multiset.mem_coe.mpr hr)
    rw [Multiset.prod_coe] at hm ⊢
    rw [scale_inv_of_exact hrs hexact hm, hm, Nat.floor_natCast]

/-! ### The factors that go there and back -/

/-- Every number is an exact multiple of the product of inverses. -/
theorem InverseNatural.exists_exact (hpos : ∀ r ∈ S, 0 < r) (h : InverseNatural S) (n : ℕ) :
    ∃ m : ℕ, Exact S (m : K) ∧ (m : K) * S.prod = n := by
  have hprod : S.prod ≠ 0 := (Multiset.prod_pos hpos).ne'
  obtain ⟨k, hk⟩ := h.exists_prod_eq
  have hk0 : (k : K) ≠ 0 := by
    intro hzero
    rw [hzero, inv_zero] at hk
    exact hprod hk
  refine ⟨n * k, fun T hT => ?_, ?_⟩
  · obtain ⟨U, rfl⟩ := Multiset.le_iff_exists_add.mp hT
    obtain ⟨l, hl⟩ := InverseNatural.exists_prod_eq fun r (hr : r ∈ U) =>
      h r (Multiset.mem_add.mpr (.inr hr))
    rw [Multiset.prod_add, hl] at hk
    have hl0 : (l : K) ≠ 0 := by
      rintro hzero
      rw [hzero, inv_zero, mul_zero] at hk
      exact inv_ne_zero hk0 hk.symm
    have hT' : T.prod = (l : K) * (k : K)⁻¹ := by
      rw [← hk, mul_left_comm, mul_inv_cancel₀ hl0, mul_one]
    refine ⟨n * l, ?_⟩
    rw [hT', Nat.cast_mul, Nat.cast_mul]
    field_simp
  · rw [hk, Nat.cast_mul, mul_assoc, mul_inv_cancel₀ hk0, mul_one]

/-- **Every number goes there and back** exactly if the factors are inverses. -/
theorem roundTrips_iff (hpos : ∀ r ∈ S, 0 < r) : (∀ n, RoundTrips S n) ↔ InverseNatural S := by
  constructor
  · intro h
    obtain ⟨m, hexact, hm⟩ := (roundTrips_iff_exact hpos).mp (h 1)
    exact inverseNatural_of_exact hexact (hm.trans Nat.cast_one)
  · intro h n
    exact (roundTrips_iff_exact hpos).mpr (h.exists_exact hpos n)

/-- Every number with nothing left of it has an exact one for it. -/
def HasExact (S : Multiset K) : Prop :=
  ∀ (rs : List K) (n : ℕ), rs = S → ∃ m : ℕ, Exact S (m : K) ∧ (m : K) * S.prod = scale rs n

theorem hasExact_of_roundTrips (hpos : ∀ r ∈ S, 0 < r)
    (h : ∀ (rs : List K) (n : ℕ), rs = S → RoundTrips S (scale rs n)) : HasExact S :=
  fun rs n hrs => (roundTrips_iff_exact hpos).mp (h rs n hrs)

/-- There is a smallest exact number, `d + 1`. -/
theorem HasExact.exists_least (hpos : ∀ r ∈ S, 0 < r) (h : HasExact S) :
    ∃ d : ℕ, Exact S ((d : K) + 1) ∧ ∀ d' < d, ¬Exact S ((d' : K) + 1) := by
  classical
  have hexists : ∃ d : ℕ, Exact S ((d : K) + 1) := by
    obtain ⟨n, hn⟩ := exists_le_scale
      (fun r hr => hpos r (Multiset.mem_toList.mp hr)) 1
    obtain ⟨m, hexact, hm⟩ := h _ n S.coe_toList
    cases m with
    | zero =>
      rw [Nat.cast_zero, zero_mul, eq_comm, Nat.cast_eq_zero] at hm
      omega
    | succ d => exact ⟨d, by rwa [Nat.cast_add, Nat.cast_one] at hexact⟩
  exact ⟨Nat.find hexists, Nat.find_spec hexists, fun _ hd => Nat.find_min hexists hd⟩

/-- Nothing is left of a number below the smallest exact one. -/
theorem HasExact.scale_eq_zero (hpos : ∀ r ∈ S, 0 < r) (h : HasExact S) {d : ℕ}
    (hmin : ∀ d' < d, ¬Exact S ((d' : K) + 1)) {rs : List K} (hrs : rs = S) :
    scale rs d = 0 := by
  obtain ⟨m, hm, hvalue⟩ := h rs d hrs
  cases m with
  | zero =>
    rw [Nat.cast_zero, zero_mul, eq_comm, Nat.cast_eq_zero] at hvalue
    exact hvalue
  | succ m =>
    rw [Nat.cast_add, Nat.cast_one] at hm
    have hlt : ¬m < d := fun hlt => hmin m hlt hm
    have hle := scale_le (n := d) fun r hr => hpos r (hrs ▸ Multiset.mem_coe.mpr hr)
    rw [← Multiset.prod_coe, hrs, ← hvalue, mul_le_mul_iff_left₀ (Multiset.prod_pos hpos),
      Nat.cast_le] at hle
    omega

/-- Where nothing is left of `d`, the factors up to `1` take an exact `d + 1` to `1`. -/
theorem mul_prod_eq_one_of_scale_eq_zero {smalls bigs : Multiset K} {d : ℕ}
    (hpos : ∀ r ∈ smalls, 0 < r) (hsmalls : ∀ r ∈ smalls, r ≤ 1) (hbigs : ∀ r ∈ bigs, 1 ≤ r)
    (hexact : Exact (smalls + bigs) ((d : K) + 1))
    (hzero : ∀ rs : List K, rs = smalls + bigs → scale rs d = 0) :
    ((d : K) + 1) * smalls.prod = 1 := by
  have hexactSmalls : Exact (smalls.toList : Multiset K) ((d : K) + 1) := by
    rw [Multiset.coe_toList]
    exact hexact.mono (Multiset.le_add_right _ _)
  have hsmallZero : scale smalls.toList d = 0 := by
    have hall := hzero (smalls.toList ++ bigs.toList) (by
      rw [← Multiset.coe_add, Multiset.coe_toList, Multiset.coe_toList])
    rw [scale_append] at hall
    have hle : scale smalls.toList d ≤ scale bigs.toList (scale smalls.toList d) :=
      le_scale fun r hr => hbigs r (Multiset.mem_toList.mp hr)
    omega
  have hsucc := scale_of_exact_succ (fun r hr => hpos r (Multiset.mem_toList.mp hr))
    (fun r hr => hsmalls r (Multiset.mem_toList.mp hr)) hexactSmalls
  rw [hsmallZero, Nat.cast_zero, zero_add, ← Multiset.prod_coe, Multiset.coe_toList] at hsucc
  exact hsucc.symm

/-- A factor above `1` that comes first leaves something of a number above `0`. -/
theorem scale_ne_zero_of_big {smalls rest : Multiset K} {b : K} {d : ℕ}
    (hpos : ∀ r ∈ smalls, 0 < r) (hb : 1 < b) (hrest : ∀ r ∈ rest, 1 ≤ r)
    (hexact : Exact (smalls + b ::ₘ rest) ((d + 2 : ℕ) : K))
    (hone : ((d + 2 : ℕ) : K) * smalls.prod = 1) :
    ∃ rs : List K, rs = smalls + b ::ₘ rest ∧ scale rs (d + 1) ≠ 0 := by
  obtain ⟨k, hk⟩ := hexact (b ::ₘ smalls) (by
    rw [Multiset.add_cons]
    exact Multiset.cons_le_cons b (Multiset.le_add_right _ _))
  rw [Multiset.prod_cons, mul_left_comm, hone, mul_one] at hk
  subst hk
  have htwo : 1 < k := by exact_mod_cast hb
  refine ⟨(k : K) :: (smalls.toList ++ rest.toList), ?_, ?_⟩
  · rw [← Multiset.cons_coe, ← Multiset.coe_add, Multiset.coe_toList, Multiset.coe_toList,
      Multiset.add_cons]
  rw [scale_cons, ← Nat.cast_mul, Nat.floor_natCast, scale_append]
  have hleft : scale smalls.toList ((d + 1) * k) ≤
      scale rest.toList (scale smalls.toList ((d + 1) * k)) :=
    le_scale fun r hr => hrest r (Multiset.mem_toList.mp hr)
  have hmono : scale smalls.toList (d + 2) ≤ scale smalls.toList ((d + 1) * k) :=
    scale_mono (fun r hr => hpos r (Multiset.mem_toList.mp hr)) (by nlinarith)
  have hexactSmalls : Exact (smalls.toList : Multiset K) ((d + 2 : ℕ) : K) := by
    rw [Multiset.coe_toList]
    exact hexact.mono (Multiset.le_add_right _ _)
  have hvalue := scale_of_exact hexactSmalls
  rw [← Multiset.prod_coe, Multiset.coe_toList, hone, Nat.cast_eq_one] at hvalue
  omega

/-- If every scaled number goes there and back, either all numbers are exact, or the product
with the smallest exact one is `1`. -/
theorem natural_or_inverseNatural (hpos : ∀ r ∈ S, 0 < r)
    (h : ∀ (rs : List K) (n : ℕ), rs = S → RoundTrips S (scale rs n)) :
    Natural S ∨ InverseNatural S := by
  classical
  have hhas := hasExact_of_roundTrips hpos h
  obtain ⟨d, hexact, hmin⟩ := hhas.exists_least hpos
  cases d with
  | zero =>
    left
    intro r hr
    obtain ⟨k, hk⟩ := hexact.exists_mul_eq hr
    exact ⟨k, by rw [← hk, Nat.cast_zero, zero_add, one_mul]⟩
  | succ d =>
    right
    have hzero (rs : List K) (hrs : rs = S) : scale rs (d + 1) = 0 :=
      hhas.scale_eq_zero hpos hmin hrs
    obtain ⟨smalls, bigs, rfl, hsmalls, hbigs⟩ :
        ∃ smalls bigs : Multiset K, S = smalls + bigs ∧ (∀ r ∈ smalls, r ≤ 1) ∧
          ∀ r ∈ bigs, 1 < r :=
      ⟨S.filter (· ≤ 1), S.filter (¬· ≤ 1), (Multiset.filter_add_not _ S).symm,
        fun r hr => (Multiset.mem_filter.mp hr).2,
        fun r hr => not_le.mp (Multiset.mem_filter.mp hr).2⟩
    have hsmall (r : K) (hr : r ∈ smalls) : 0 < r := hpos r (Multiset.mem_add.mpr (.inl hr))
    have hone := mul_prod_eq_one_of_scale_eq_zero hsmall hsmalls (fun r hr => (hbigs r hr).le)
      hexact hzero
    have hcast : (((d + 1 : ℕ) : K) + 1) = ((d + 2 : ℕ) : K) := (Nat.cast_succ (d + 1)).symm
    rw [hcast] at hone hexact
    rcases bigs.empty_or_exists_mem with rfl | ⟨b, hb⟩
    · rw [add_zero] at hexact ⊢
      exact inverseNatural_of_exact hexact hone
    · obtain ⟨rest, rfl⟩ := Multiset.exists_cons_of_mem hb
      obtain ⟨rs, hrs, hne⟩ := scale_ne_zero_of_big hsmall (hbigs b hb)
        (fun r hr => (hbigs r (Multiset.mem_cons_of_mem hr)).le) hexact hone
      exact absurd (hzero rs hrs) hne

/-- **Every scaled number goes there and back**, exactly if all factors are natural or all are
inverses. -/
theorem roundTrips_scale_iff (hpos : ∀ r ∈ S, 0 < r) :
    (∀ (rs : List K) (n : ℕ), rs = S → RoundTrips S (scale rs n)) ↔
      Natural S ∨ InverseNatural S := by
  refine ⟨natural_or_inverseNatural hpos, ?_⟩
  rintro (h | h) rs n rfl
  · rw [roundTrips_iff_exact hpos]
    exact ⟨n, h.exact n, (scale_of_exact (h.exact n)).symm⟩
  · exact (roundTrips_iff hpos).mpr h _

/-- Factors that are inverses are a division by their product. -/
theorem scale_floor_of_inverseNatural (h : InverseNatural (rs : Multiset K)) :
    scale rs ⌊x⌋₊ = ⌊x * rs.prod⌋₊ := by
  induction rs generalizing x with
  | nil => rw [scale_nil, List.prod_nil, mul_one]
  | cons r rs ih =>
    obtain ⟨k, rfl⟩ := h r (Multiset.mem_coe.mpr List.mem_cons_self)
    have hrs : InverseNatural (rs : Multiset K) := fun r hr =>
      h r (Multiset.mem_coe.mpr (List.mem_cons_of_mem _ (Multiset.mem_coe.mp hr)))
    have hdiv : ⌊(⌊x⌋₊ : K) * (k : K)⁻¹⌋₊ = ⌊x * (k : K)⁻¹⌋₊ := by
      rw [← div_eq_mul_inv, ← div_eq_mul_inv, Nat.floor_div_natCast, Nat.floor_div_natCast,
        Nat.floor_natCast]
    rw [scale_cons, hdiv, ih hrs, List.prod_cons, mul_assoc]

theorem scale_perm (h : Natural S ∨ InverseNatural S) (hrs : rs = S) (hss : ss = S) :
    scale rs n = scale ss n := by
  have hprod : rs.prod = ss.prod := by
    rw [← Multiset.prod_coe, ← Multiset.prod_coe, hrs, hss]
  rcases h with h | h
  · rw [← Nat.cast_inj (R := K), scale_of_exact (hrs ▸ h.exact n), scale_of_exact (hss ▸ h.exact n),
      hprod]
  · rw [← Nat.floor_natCast (R := K) n, scale_floor_of_inverseNatural (hrs ▸ h),
      scale_floor_of_inverseNatural (hss ▸ h), hprod]

end Truncation
