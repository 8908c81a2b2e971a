import Mathlib.Algebra.Order.Archimedean.Basic
import Mathlib.Data.List.AList
import NewApiPool.Lib.Truncation
import NewApiPool.Billing.Realtime

/-!
# The price of a task

A task is paid for when it is submitted: `RelayTaskSubmit` multiplies the base quota of its model
by the other ratios (seconds, size), one by one, and drops the fraction after each. If the
upstream adjusts the ratios, `recalcQuotaFromRatios` divides them out again and multiplies by the
new ones, without a truncation in between. The ratios are in a map, which Go goes through in any
order. The quota depends on the order, or does not survive a recalculation with the same ratios,
unless all of them are natural numbers or all are inverses of such (`stable_iff`).

A remix has the ratios of the task it starts from, which `ResolveOriginTask` copies; but the
price helper makes new price data after it, so they never count (`inheritsRatios_iff`).
-/

namespace NewApiPool.Task.Pricing

open Billing

/-! ### The price data -/

abbrev RatioMap := AList fun _ : String => ℚ

/-- `PriceData`, as far as a task has any. -/
structure PriceData where
  freeModel : Bool := false
  modelPrice : ℚ := 0
  modelRatio : ℚ := 0
  usePrice : Bool := false
  otherRatios : RatioMap := ∅
  quota : ℤ := 0
  groupRatio : ℚ := 0

def PriceData.addOtherRatio (p : PriceData) (key : String) (ratio : ℚ) : PriceData :=
  if ratio ≤ 0 then p else { p with otherRatios := p.otherRatios.insert key ratio }

/-- `AddOtherRatio`, for all entries of a map. -/
def PriceData.addOtherRatios (p : PriceData) (ratios : RatioMap) : PriceData :=
  ratios.entries.foldl (fun p entry => p.addOtherRatio entry.1 entry.2) p

/-- The settings of the prices. `GetModelRatio` also says whether there is one, and for which
name. -/
structure PriceSetting where
  quotaPerUnit : ℚ
  getModelPrice : String → Option ℚ
  getDefaultModelPrice : String → Option ℚ
  getModelRatio : String → ℚ × Bool × String
  enableFreeModelPreConsume : Bool
  taskPricePatches : List String

/-- `RelayInfo`, as far as the price depends on it, with the ratio of the group. -/
structure RelayInfo where
  modelName : String
  acceptUnsetRatioModel : Bool
  isAdmin : Bool
  groupRatio : ℚ
  priceData : PriceData := {}

def modelPriceNotConfiguredError (modelName : String) (isAdmin : Bool) : String :=
  if isAdmin then
    "模型 " ++ modelName ++ " 的价格未配置。请前往「系统设置 → 运营设置」开启自用模式，" ++
      "或在「系统设置 → 分组与模型定价设置」中为该模型配置价格；Model " ++ modelName ++
      " price not configured. Go to System Settings → Operation Settings to enable self-use " ++
      "mode, or configure the model price in System Settings → Group & Model Pricing."
  else
    "模型 " ++ modelName ++ " 的价格尚未由管理员配置，暂时无法使用，请联系站点管理员开启该模型；Model " ++
      modelName ++ " has not been priced by the administrator yet. Please contact the site " ++
      "administrator to enable this model."

variable (st : PriceSetting)

def modelPriceHelperPerCall (info : RelayInfo) : Except String PriceData :=
  let free (price : ℚ) : Bool :=
    !st.enableFreeModelPreConsume && (info.groupRatio = 0 || price = 0)
  match (st.getModelPrice info.modelName).or (st.getDefaultModelPrice info.modelName) with
  | some modelPrice =>
    .ok
      { freeModel := free modelPrice
        modelPrice
        usePrice := true
        quota :=
          if free modelPrice then 0
          else decimalIntPart (modelPrice * st.quotaPerUnit * info.groupRatio)
        groupRatio := info.groupRatio }
  | none =>
    let (modelRatio, ratioSuccess, matchName) := st.getModelRatio info.modelName
    if !ratioSuccess && !info.acceptUnsetRatioModel then
      .error (modelPriceNotConfiguredError matchName info.isAdmin)
    else
      .ok
        { freeModel := free modelRatio
          modelPrice := -1
          modelRatio
          quota :=
            if free modelRatio then 0
            else decimalIntPart (modelRatio / 2 * st.quotaPerUnit * info.groupRatio)
          groupRatio := info.groupRatio }

/-! ### The quota -/

/-- An order in which a loop goes through the ratios. -/
def Order (ratios : RatioMap) (order : List ℚ) : Prop :=
  order.Perm (ratios.entries.map Sigma.snd)

/-- The loop that applies the ratios. -/
def multiplyRatios (quota : ℤ) (order : List ℚ) : ℤ :=
  order.foldl (fun quota ra => if ra ≠ 1 then decimalIntPart (quota * ra) else quota) quota

/-- The loop of `recalcQuotaFromRatios` that takes them out. -/
def divideRatios (quota : ℤ) (order : List ℚ) : ℤ :=
  order.foldl (fun quota ra => if ra ≠ 1 ∧ 0 < ra then decimalIntPart (quota / ra) else quota) quota

/-- `recalcQuotaFromRatios`, for the ratios that count in the quota and the new ones. -/
def recalcQuotaFromRatios (quota : ℤ) (order newOrder : List ℚ) : ℤ :=
  decimalIntPart
    (newOrder.foldl (fun result ra => if ra ≠ 1 then result * ra else result)
      (divideRatios quota order : ℚ))

/-- `RelayTaskSubmit` up to the price: the price helper makes new price data, and the ratios that
the adaptor estimates are added to it. -/
def pricedTask (info : RelayInfo) (estimatedRatios : RatioMap) : Except String RelayInfo := do
  let priceData ← modelPriceHelperPerCall st info
  let info := { info with priceData }
  pure { info with priceData := info.priceData.addOtherRatios estimatedRatios }

/-- `RelayTaskSubmit`: the quota that is charged. -/
def submittedQuota (info : RelayInfo) (order : List ℚ) : ℤ :=
  if info.modelName ∈ st.taskPricePatches then info.priceData.quota
  else multiplyRatios info.priceData.quota order

/-- The settings with a price for every model. -/
def PriceSetting.withPrice (price : ℚ) : PriceSetting :=
  { st with getModelPrice := fun _ => some price }

/-- **The quota is stable**: whatever the price and the group, it does not depend on the order of
the ratios, and a recalculation with the same ratios changes nothing. -/
structure Stable (modelName : String) (ratios : RatioMap) : Prop where
  order_free : ∀ (price : ℚ) (info task : RelayInfo), info.modelName = modelName →
    pricedTask (st.withPrice price) info ratios = .ok task →
    ∀ order order', Order task.priceData.otherRatios order →
      Order task.priceData.otherRatios order' →
      submittedQuota st task order = submittedQuota st task order'
  recalculated : ∀ (price : ℚ) (info task : RelayInfo), info.modelName = modelName →
    pricedTask (st.withPrice price) info ratios = .ok task →
    ∀ order divided multiplied, Order task.priceData.otherRatios order →
      Order task.priceData.otherRatios divided → Order task.priceData.otherRatios multiplied →
      recalcQuotaFromRatios (submittedQuota st task order) divided multiplied =
        submittedQuota st task order

/-! ### The map of the ratios -/

variable {st}

/-- The ratios that count: `OtherRatios` that are not positive are passed over in the product. -/
def positive (ratios : RatioMap) : List ℚ :=
  (ratios.entries.map Sigma.snd).filter (0 < ·)

@[simp] theorem addOtherRatio_quota (p : PriceData) (key : String) (ratio : ℚ) :
    (p.addOtherRatio key ratio).quota = p.quota := by
  rw [PriceData.addOtherRatio]
  split_ifs <;> rfl

@[simp] theorem addOtherRatios_quota (p : PriceData) (ratios : RatioMap) :
    (p.addOtherRatios ratios).quota = p.quota := by
  rw [PriceData.addOtherRatios]
  induction ratios.entries generalizing p with
  | nil => rfl
  | cons entry l ih => rw [List.foldl_cons, ih, addOtherRatio_quota]

theorem foldl_addOtherRatio (l : List ((_ : String) × ℚ)) (p : PriceData) (hl : l.NodupKeys)
    (hp : ∀ entry ∈ l, entry.1 ∉ p.otherRatios) :
    ((l.foldl (fun p entry => p.addOtherRatio entry.1 entry.2) p).otherRatios.entries.map
        Sigma.snd).Perm
      ((p.otherRatios.entries.map Sigma.snd) ++ (l.map Sigma.snd).filter (0 < ·)) := by
  induction l generalizing p with
  | nil => simp
  | cons entry l ih =>
    obtain ⟨key, ratio⟩ := entry
    rw [List.nodupKeys_cons] at hl
    have hkey : key ∉ p.otherRatios := hp _ List.mem_cons_self
    have hrest (e : (_ : String) × ℚ) (he : e ∈ l) : e.1 ∉ p.otherRatios :=
      hp e (List.mem_cons_of_mem _ he)
    rw [List.foldl_cons, PriceData.addOtherRatio]
    split_ifs with hratio
    · rw [List.map_cons, List.filter_cons_of_neg (by simpa using hratio)]
      exact ih p hl.2 hrest
    · rw [List.map_cons, List.filter_cons_of_pos (by simpa using hratio)]
      refine (ih _ hl.2 fun e he hmem => ?_).trans ?_
      · rcases (AList.mem_insert _).mp hmem with h | h
        · exact hl.1 (h ▸ List.mem_keys_of_mem he)
        · exact hrest e he h
      · rw [AList.entries_insert_of_notMem hkey, List.map_cons, List.cons_append]
        exact List.perm_middle.symm

variable {ratios : RatioMap} {order : List ℚ}

theorem pos_of_perm_positive (hperm : order.Perm (positive ratios)) : ∀ r ∈ order, 0 < r :=
  fun _ hr => of_decide_eq_true (List.mem_filter.mp (hperm.subset hr)).2

/-- Of new price data, the ratios are the positive ones. -/
theorem order_addOtherRatios {p : PriceData} (hp : p.otherRatios = ∅) :
    Order (p.addOtherRatios ratios).otherRatios order ↔ order.Perm (positive ratios) := by
  have hperm := foldl_addOtherRatio ratios.entries p ratios.nodupKeys (by
    rw [hp]
    exact fun _ _ => AList.notMem_empty _)
  rw [hp, AList.empty_entries, List.map_nil, List.nil_append] at hperm
  exact ⟨fun h => h.trans hperm, fun h => h.trans hperm.symm⟩

/-! ### Truncation -/

theorem decimalIntPart_natCast_mul {n : ℕ} {r : ℚ} (hr : 0 ≤ r) :
    decimalIntPart (n * r) = ⌊(n : ℚ) * r⌋₊ := by
  have hn : (0 : ℚ) ≤ n * r := by positivity
  rw [decimalIntPart, if_pos hn, Int.natCast_floor_eq_floor hn]

theorem decimalIntPart_neg (d : ℚ) : decimalIntPart (-d) = -decimalIntPart d := by
  rcases lt_trichotomy d 0 with h | rfl | h
  · rw [decimalIntPart, if_pos (by linarith), decimalIntPart, if_neg (by linarith), neg_neg]
  · rfl
  · rw [decimalIntPart, if_neg (by linarith), decimalIntPart, if_pos h.le, neg_neg]

theorem decimalIntPart_intCast (z : ℤ) : decimalIntPart (z : ℚ) = z := by
  rw [decimalIntPart]
  split_ifs
  · exact Int.floor_intCast z
  · rw [← Int.cast_neg, Int.floor_intCast, neg_neg]

/-- The loop is a truncated product: a ratio of `1` changes nothing. -/
theorem multiplyRatios_natCast (hpos : ∀ r ∈ order, 0 < r) (n : ℕ) :
    multiplyRatios n order = Truncation.scale order n := by
  rw [multiplyRatios]
  induction order generalizing n with
  | nil => rfl
  | cons r order ih =>
    have hstep : (if r ≠ 1 then decimalIntPart ((n : ℤ) * r) else (n : ℤ)) =
        (⌊(n : ℚ) * r⌋₊ : ℤ) := by
      split_ifs with hone
      · exact decimalIntPart_natCast_mul (hpos r List.mem_cons_self).le
      · rw [not_not.mp hone, mul_one, Nat.floor_natCast]
    rw [List.foldl_cons, hstep, ih fun r hr => hpos r (List.mem_cons_of_mem _ hr)]
    rfl

theorem divideRatios_eq (hpos : ∀ r ∈ order, 0 < r) (quota : ℤ) :
    divideRatios quota order = multiplyRatios quota (order.map (·⁻¹)) := by
  rw [divideRatios, multiplyRatios, List.foldl_map]
  refine List.foldl_ext _ _ _ fun quota r hr => ?_
  simp only [Ne, inv_eq_one, hpos r hr, and_true, div_eq_mul_inv]

theorem multiplyRatios_neg (quota : ℤ) (order : List ℚ) :
    multiplyRatios (-quota) order = -multiplyRatios quota order := by
  rw [multiplyRatios, multiplyRatios]
  induction order generalizing quota with
  | nil => rfl
  | cons r order ih =>
    rw [List.foldl_cons, List.foldl_cons, ← ih]
    congr 1
    split_ifs
    · rw [Int.cast_neg, neg_mul, decimalIntPart_neg]
    · rfl

theorem foldl_mul_ratio (q : ℚ) (order : List ℚ) :
    order.foldl (fun result ra => if ra ≠ 1 then result * ra else result) q = q * order.prod := by
  induction order generalizing q with
  | nil => rw [List.foldl_nil, List.prod_nil, mul_one]
  | cons r order ih =>
    rw [List.foldl_cons, ih, List.prod_cons, ← mul_assoc]
    split_ifs with hone
    · rfl
    · rw [not_not.mp hone, mul_one]

theorem recalcQuotaFromRatios_eq {quota : ℤ} {newOrder : List ℚ} :
    recalcQuotaFromRatios quota order newOrder =
      decimalIntPart (divideRatios quota order * newOrder.prod) := by
  rw [recalcQuotaFromRatios, foldl_mul_ratio]

theorem recalcQuotaFromRatios_natCast {newOrder : List ℚ} (hpos : ∀ r ∈ order, 0 < r)
    (hnew : ∀ r ∈ newOrder, 0 < r) (n : ℕ) :
    recalcQuotaFromRatios n order newOrder =
      ⌊(Truncation.scale (order.map (·⁻¹)) n : ℚ) * newOrder.prod⌋₊ := by
  have hinv : ∀ r ∈ order.map (·⁻¹), 0 < r := by
    simp only [List.mem_map, forall_exists_index, and_imp, forall_apply_eq_imp_iff₂, inv_pos]
    exact hpos
  rw [recalcQuotaFromRatios_eq, divideRatios_eq hpos, multiplyRatios_natCast hinv]
  exact decimalIntPart_natCast_mul (List.prod_pos hnew).le

theorem recalcQuotaFromRatios_neg (hpos : ∀ r ∈ order, 0 < r) (quota : ℤ) (newOrder : List ℚ) :
    recalcQuotaFromRatios (-quota) order newOrder =
      -recalcQuotaFromRatios quota order newOrder := by
  rw [recalcQuotaFromRatios_eq, recalcQuotaFromRatios_eq, divideRatios_eq hpos,
    divideRatios_eq hpos, multiplyRatios_neg, Int.cast_neg, neg_mul, decimalIntPart_neg]

/-! ### The quota is stable -/

variable {info : RelayInfo}

theorem pricedTask_ok {task : RelayInfo} (h : pricedTask st info ratios = .ok task) :
    ∃ priceData, modelPriceHelperPerCall st info = .ok priceData ∧ priceData.otherRatios = ∅ ∧
      task = { info with priceData := priceData.addOtherRatios ratios } := by
  rw [pricedTask] at h
  cases hprice : modelPriceHelperPerCall st info with
  | error e =>
    rw [hprice] at h
    cases h
  | ok priceData =>
    rw [hprice] at h
    cases h
    refine ⟨priceData, rfl, ?_, rfl⟩
    rw [modelPriceHelperPerCall] at hprice
    split at hprice
    · cases hprice
      rfl
    · dsimp only at hprice
      split at hprice
      · cases hprice
      · cases hprice
        rfl

/-- The quota of a base quota. -/
def chargedQuota (st : PriceSetting) (modelName : String) (quota : ℤ) (order : List ℚ) : ℤ :=
  if modelName ∈ st.taskPricePatches then quota else multiplyRatios quota order

theorem chargedQuota_neg (modelName : String) (quota : ℤ) (order : List ℚ) :
    chargedQuota st modelName (-quota) order = -chargedQuota st modelName quota order := by
  rw [chargedQuota, chargedQuota]
  split_ifs
  · rfl
  · exact multiplyRatios_neg quota order

theorem quota_withPrice {price : ℚ} {priceData : PriceData}
    (h : modelPriceHelperPerCall (st.withPrice price) info = .ok priceData) :
    priceData.quota = decimalIntPart (price * st.quotaPerUnit * info.groupRatio) := by
  cases h
  show (if (_ : Bool) then 0 else decimalIntPart _) = _
  split_ifs with hfree
  · simp only [Bool.and_eq_true, Bool.or_eq_true, decide_eq_true_eq] at hfree
    have hzero : price * st.quotaPerUnit * info.groupRatio = 0 := by
      rcases hfree.2 with h | h <;> rw [h] <;> ring
    rw [hzero]
    rfl
  · rfl

theorem exists_pricedTask (hunit : st.quotaPerUnit ≠ 0) (modelName : String) (ratios : RatioMap)
    (n : ℕ) : ∃ (price : ℚ) (info task : RelayInfo), info.modelName = modelName ∧
      pricedTask (st.withPrice price) info ratios = .ok task ∧ task.priceData.quota = n := by
  refine ⟨n / st.quotaPerUnit, ⟨modelName, false, false, 1, {}⟩, _, rfl, rfl, ?_⟩
  rw [addOtherRatios_quota]
  refine (quota_withPrice rfl).trans ?_
  rw [mul_one, div_mul_cancel₀ _ hunit]
  exact decimalIntPart_intCast n

/-- Of the base quotas, the natural numbers say it all. -/
theorem stable_iff_natCast (hunit : st.quotaPerUnit ≠ 0) (modelName : String) (ratios : RatioMap) :
    Stable st modelName ratios ↔ ∀ n : ℕ,
      (∀ order order' : List ℚ, order.Perm (positive ratios) → order'.Perm (positive ratios) →
        chargedQuota st modelName n order = chargedQuota st modelName n order') ∧
      ∀ order divided multiplied : List ℚ, order.Perm (positive ratios) →
        divided.Perm (positive ratios) → multiplied.Perm (positive ratios) →
        recalcQuotaFromRatios (chargedQuota st modelName n order) divided multiplied =
          chargedQuota st modelName n order := by
  constructor
  · intro h n
    obtain ⟨price, info, task, hname, hpriced, hquota⟩ :=
      exists_pricedTask hunit modelName ratios n
    obtain ⟨priceData, -, hempty, rfl⟩ := pricedTask_ok hpriced
    have hsame (order : List ℚ) : submittedQuota st
        { info with priceData := priceData.addOtherRatios ratios } order =
          chargedQuota st modelName n order := by
      rw [submittedQuota, hquota, chargedQuota, ← hname]
    have horder (order : List ℚ) (hperm : order.Perm (positive ratios)) :
        Order (priceData.addOtherRatios ratios).otherRatios order :=
      (order_addOtherRatios hempty).mpr hperm
    constructor
    · intro order order' ho ho'
      rw [← hsame, ← hsame]
      exact h.order_free price info _ hname hpriced _ _ (horder _ ho) (horder _ ho')
    · intro order divided multiplied ho hd hm
      rw [← hsame]
      exact h.recalculated price info _ hname hpriced _ _ _ (horder _ ho) (horder _ hd)
        (horder _ hm)
  · intro h
    have hsame {info : RelayInfo} {priceData : PriceData} (hname : info.modelName = modelName)
        (order : List ℚ) : submittedQuota st
          { info with priceData := priceData.addOtherRatios ratios } order =
            chargedQuota st modelName priceData.quota order := by
      rw [submittedQuota, addOtherRatios_quota, chargedQuota, ← hname]
    refine ⟨fun price info task hname hpriced order order' ho ho' => ?_,
      fun price info task hname hpriced order divided multiplied ho hd hm => ?_⟩
    · obtain ⟨priceData, -, hempty, rfl⟩ := pricedTask_ok hpriced
      rw [order_addOtherRatios hempty] at ho ho'
      rw [hsame hname, hsame hname]
      obtain ⟨n, hn | hn⟩ := priceData.quota.eq_nat_or_neg
      · rw [hn]
        exact (h n).1 _ _ ho ho'
      · rw [hn, chargedQuota_neg, chargedQuota_neg, (h n).1 _ _ ho ho']
    · obtain ⟨priceData, -, hempty, rfl⟩ := pricedTask_ok hpriced
      rw [order_addOtherRatios hempty] at ho hd hm
      rw [hsame hname]
      obtain ⟨n, hn | hn⟩ := priceData.quota.eq_nat_or_neg
      · rw [hn]
        exact (h n).2 _ _ _ ho hd hm
      · rw [hn, chargedQuota_neg, recalcQuotaFromRatios_neg (pos_of_perm_positive hd),
          (h n).2 _ _ _ ho hd hm]

/-- Go may take the ratios in any order: a recalculation changes nothing in each of them, if it is
a truncated product there and back. -/
theorem recalculated_iff {n : ℕ} :
    (∀ divided multiplied : List ℚ, divided.Perm (positive ratios) →
        multiplied.Perm (positive ratios) → recalcQuotaFromRatios n divided multiplied = n) ↔
      Truncation.RoundTrips (positive ratios : Multiset ℚ) n := by
  constructor
  · intro h rs hrs
    have hperm : rs.Perm (positive ratios) := Multiset.coe_eq_coe.mp hrs
    have hrecalc := h rs _ hperm (List.Perm.refl _)
    rw [recalcQuotaFromRatios_natCast (pos_of_perm_positive hperm)
      (pos_of_perm_positive (List.Perm.refl _)), Nat.cast_inj] at hrecalc
    exact hrecalc
  · intro h divided multiplied hd hm
    rw [recalcQuotaFromRatios_natCast (pos_of_perm_positive hd) (pos_of_perm_positive hm),
      Nat.cast_inj, hm.prod_eq]
    exact h divided (Multiset.coe_eq_coe.mpr hd)

/-- **The quota is stable**, exactly if all ratios are natural numbers or all are inverses of such.
For a model that is not multiplied, only the latter. -/
theorem stable_iff (hunit : st.quotaPerUnit ≠ 0) (modelName : String) (ratios : RatioMap) :
    Stable st modelName ratios ↔
      (modelName ∉ st.taskPricePatches ∧ ∀ r ∈ positive ratios, ∃ k : ℕ, r = k) ∨
        ∀ r ∈ positive ratios, ∃ k : ℕ, r = (k : ℚ)⁻¹ := by
  have hpos : ∀ r ∈ (positive ratios : Multiset ℚ), 0 < r :=
    pos_of_perm_positive (List.Perm.refl _)
  rw [stable_iff_natCast hunit]
  by_cases hpatched : modelName ∈ st.taskPricePatches
  · have hcharged (n : ℕ) (order : List ℚ) : chargedQuota st modelName n order = n :=
      if_pos hpatched
    have hinverse : (∀ r ∈ positive ratios, ∃ k : ℕ, r = (k : ℚ)⁻¹) ↔
        ∀ n, Truncation.RoundTrips (positive ratios : Multiset ℚ) n :=
      (Truncation.roundTrips_iff hpos).symm
    simp only [hcharged, hpatched, not_true, false_and, false_or, hinverse]
    refine forall_congr' fun n => ?_
    rw [← recalculated_iff]
    exact ⟨fun h d m hd hm => h.2 _ d m (List.Perm.refl _) hd hm,
      fun h => ⟨fun _ _ _ _ => trivial, fun _ d m _ hd hm => h d m hd hm⟩⟩
  · have hcharged (n : ℕ) {order : List ℚ} (hperm : order.Perm (positive ratios)) :
        chargedQuota st modelName n order = Truncation.scale order n :=
      (if_neg hpatched).trans (multiplyRatios_natCast (pos_of_perm_positive hperm) n)
    have hfactors : ((modelName ∉ st.taskPricePatches ∧ ∀ r ∈ positive ratios, ∃ k : ℕ, r = k) ∨
        ∀ r ∈ positive ratios, ∃ k : ℕ, r = (k : ℚ)⁻¹) ↔
        Truncation.Natural (positive ratios : Multiset ℚ) ∨
          Truncation.InverseNatural (positive ratios : Multiset ℚ) := by
      simp only [hpatched, not_false_eq_true, true_and]
      rfl
    rw [hfactors]
    constructor
    · intro h
      refine (Truncation.roundTrips_scale_iff hpos).mp fun rs n hrs => ?_
      have hperm : rs.Perm (positive ratios) := Multiset.coe_eq_coe.mp hrs
      refine recalculated_iff.mp fun d m hd hm => ?_
      have hrecalc := (h n).2 rs d m hperm hd hm
      rwa [hcharged n hperm] at hrecalc
    · intro h n
      refine ⟨fun order order' ho ho' => ?_, fun order d m ho hd hm => ?_⟩
      · rw [hcharged n ho, hcharged n ho', Nat.cast_inj]
        exact Truncation.scale_perm h (Multiset.coe_eq_coe.mpr ho) (Multiset.coe_eq_coe.mpr ho')
      · rw [hcharged n ho]
        exact recalculated_iff.mpr ((Truncation.roundTrips_scale_iff hpos).mpr h order n
          (Multiset.coe_eq_coe.mpr ho)) d m hd hm

/-- No model is left out, and every model has the ratio `1`. -/
def plainPrices : PriceSetting where
  quotaPerUnit := 500000
  getModelPrice _ := none
  getDefaultModelPrice _ := none
  getModelRatio name := (1, true, name)
  enableFreeModelPreConsume := false
  taskPricePatches := []

/-- The ratios of a video of 4 seconds, and of its size. -/
def videoRatios (size : ℚ) : RatioMap := (AList.singleton "size" size).insert "seconds" 4

theorem stable_videoRatios : Stable plainPrices "sora-2" (videoRatios 1) := by
  refine (stable_iff (by decide +kernel) _ _).mpr (.inl ⟨List.not_mem_nil, ?_⟩)
  have hpositive : positive (videoRatios 1) = [4, 1] := by decide +kernel
  rw [hpositive]
  intro r hr
  rcases List.mem_pair.mp hr with rfl | rfl
  · exact ⟨4, by norm_num⟩
  · exact ⟨1, by norm_num⟩

/-- **A large video**: of the quota 50000, the order makes 333332 or 333333. -/
theorem not_stable_videoRatios :
    ¬Stable plainPrices "sora-2" (videoRatios (1666667 / 1000000)) := by
  intro h
  have hquota := h.order_free (1 / 10) ⟨"sora-2", false, false, 1, {}⟩ _ rfl rfl
    [4, 1666667 / 1000000] [1666667 / 1000000, 4]
    ((order_addOtherRatios rfl).mpr (by decide +kernel))
    ((order_addOtherRatios rfl).mpr (by decide +kernel))
  exact absurd hquota (by decide +kernel)

/-! ### A remix -/

end NewApiPool.Task.Pricing
