import NewApiPool.Routing.Select

/-!
# How many numbers draw a channel

`GetRandomSatisfiedChannel` computes with 64-bit integers. Here the draw of the memory path
is the one of `Routing.Select` in that arithmetic, and `drawsExactly_iff` says when it is
exact, entry by entry: as long as the smoothed weights of the tier add up to less than
`2 ^ 63`. Beyond that the bound of the random number is a wrapped one, and there are not
enough numbers for all entries.
-/

namespace NewApiPool.Routing

open Choice

/-! ### The draw in 64 bits -/

/-- What a 64-bit integer keeps of a number. -/
def int64 (n : ℤ) : ℤ := n.bmod (2 ^ 64)

/-- The sum of the weights, `smoothingFactor` and `smoothingAdjustment`. -/
def smoothing64 (targetChannels : List Channel) : ℤ × ℤ × ℤ :=
  let sumWeight := targetChannels.foldl (fun sum c => int64 (sum + int64 c.getWeight)) 0
  if sumWeight = 0 then (int64 (targetChannels.length * 100), 1, 100)
  else if sumWeight.tdiv targetChannels.length < 10 then (sumWeight, 100, 0)
  else (sumWeight, 1, 0)

/-- `totalWeight`: the bound of the random number. -/
def totalWeight (targetChannels : List Channel) : ℤ :=
  int64 ((smoothing64 targetChannels).1 * (smoothing64 targetChannels).2.1)

/-- What a channel takes off the random number. -/
def smoothedWeight (targetChannels : List Channel) (c : Channel) : ℤ :=
  int64 (int64 (int64 c.getWeight * (smoothing64 targetChannels).2.1) +
    (smoothing64 targetChannels).2.2)

/-- The loop over the target channels. -/
def draw64 {α : Type*} (w : α → ℤ) : ℤ → List α → Option α
  | _, [] => none
  | randomWeight, x :: xs =>
    let randomWeight := int64 (randomWeight - w x)
    if randomWeight < 0 then some x else draw64 w randomWeight xs

/-- The rest of `GetRandomSatisfiedChannel`, once the listed channels are found. `rand.Intn`
panics without a positive bound. -/
def pickSatisfied64 (intn : ℤ → ℤ) (group model : String) (retry : ℕ) (channels : List Channel) :
    Except String Channel :=
  let target := targetPriority (channels.map Channel.getPriority) retry
  let targetChannels := channels.filter fun c => c.getPriority = target
  if targetChannels = [] then
    .error s!"no channel found, group: {group}, model: {model}, priority: {target}"
  else if totalWeight targetChannels ≤ 0 then .error "invalid argument to Intn"
  else
    match draw64 (smoothedWeight targetChannels) (intn (totalWeight targetChannels))
      targetChannels with
    | some c => .ok c
    | none => .error "channel not found"

/-- The ids that are listed: for the exact name, or else for the normalised one. -/
def Cache.idsFor (cache : Cache) (group model : String) : List ℕ :=
  let listed := cache.listed group model
  if listed = [] then cache.listed group (formatMatchingModelName model) else listed

/-- **`GetRandomSatisfiedChannel`** with the memory cache on. -/
def getRandomSatisfiedChannel64 (intn : ℤ → ℤ) (cache : Cache) (group model : String)
    (retry : ℕ) : Except String (Option Channel) :=
  match cache.idsFor group model with
  | [] => .ok none
  | [id] => (cache.get id).map some
  | id :: id' :: ids =>
    match (id :: id' :: ids).mapM cache.get with
    | .error e => .error e
    | .ok channels => (pickSatisfied64 intn group model retry channels).map some

/-! ### Within 64 bits -/

theorem int64_eq {n : ℤ} (hlo : -2 ^ 63 ≤ n) (hhi : n < 2 ^ 63) : int64 n = n :=
  Int.bmod_eq_of_le (by omega) (by omega)

theorem int64_lt (n : ℤ) : int64 n < 2 ^ 63 := by
  have := Int.bmod_lt (x := n) (m := 2 ^ 64) (by decide)
  rw [int64]
  omega

variable {ts : List Channel}

theorem foldl_int64 {n : ℕ} (h : n + (ts.map Channel.getWeight).sum < 2 ^ 63) :
    ts.foldl (fun sum c => int64 (sum + int64 c.getWeight)) (n : ℤ) =
      (n + (ts.map Channel.getWeight).sum : ℕ) := by
  induction ts generalizing n with
  | nil => rw [List.map_nil, List.sum_nil, Nat.add_zero, List.foldl_nil]
  | cons c ts ih =>
    rw [List.map_cons, List.sum_cons] at h
    have hadd : int64 (n + int64 c.getWeight) = (n + c.getWeight : ℕ) := by
      rw [int64_eq (n := c.getWeight) (by omega) (by omega), int64_eq (by omega) (by omega),
        Int.natCast_add]
    rw [List.foldl_cons, hadd, ih (by omega), List.map_cons, List.sum_cons, Nat.add_assoc]

variable {total factor adjustment : ℕ}

/-- **The smoothing in 64 bits** is that of `smoothing`, as long as the weights fit. -/
theorem smoothing64_eq (h : smoothing ts = (total, factor, adjustment))
    (hsum : (ts.map Channel.getWeight).sum < 2 ^ 63) :
    smoothing64 ts = (int64 total, (factor : ℤ), (adjustment : ℤ)) := by
  have hfold := @foldl_int64 ts 0 (by omega)
  rw [Nat.zero_add, show ((0 : ℕ) : ℤ) = 0 from rfl] at hfold
  rw [smoothing] at h
  rw [smoothing64, hfold]
  split at h
  · next hzero =>
    cases h
    rw [if_pos (by omega)]
    rfl
  · next hpos =>
    rw [if_neg (by omega), ← Int.ofNat_tdiv]
    split at h
    · next hlt =>
      cases h
      rw [if_pos (by omega), int64_eq (by omega) (by omega)]
      rfl
    · next hge =>
      cases h
      rw [if_neg (by omega), int64_eq (by omega) (by omega)]
      rfl

/-- The factor is `1` or `100`, and the adjustment `0` or `100`. -/
theorem le_smoothed64 (ts : List Channel) (w : ℕ) :
    (w : ℤ) ≤ w * (smoothing64 ts).2.1 + (smoothing64 ts).2.2 := by
  rw [smoothing64]
  split_ifs <;> dsimp only <;> omega

variable {α : Type*}

/-- **The loop in 64 bits** is the loop, as long as the numbers fit. -/
theorem draw64_eq {w : α → ℤ} {v : α → ℕ} {xs : List α} {d : ℕ}
    (hw : ∀ x ∈ xs, w x = v x) (hv : ∀ x ∈ xs, v x < 2 ^ 63) (hd : d < 2 ^ 63) :
    draw64 w d xs = draw (fun r => r < 0) v d xs := by
  induction xs generalizing d with
  | nil => rfl
  | cons x xs ih =>
    rw [List.forall_mem_cons] at hw hv
    have hsub : int64 (d - w x) = d - v x := by
      rw [hw.1]
      exact int64_eq (by omega) (by omega)
    rw [draw64, draw]
    simp only [hsub, decide_eq_true_iff]
    split
    · rfl
    · next hgo =>
      obtain ⟨e, he⟩ := Int.eq_ofNat_of_zero_le (not_lt.mp hgo)
      rw [he]
      exact ih hw.2 hv.2 (by omega)

/-- The entry that is drawn tells the channel that is. -/
theorem draw64_map {β : Type*} (f : α → β) (w : β → ℤ) (r : ℤ) (xs : List α) :
    draw64 w r (xs.map f) = (draw64 (fun x => w (f x)) r xs).map f := by
  induction xs generalizing r with
  | nil => rfl
  | cons x xs ih =>
    rw [List.map_cons, draw64, draw64]
    split
    · rfl
    · exact ih _

theorem mem_of_draw64 {w : α → ℤ} {r : ℤ} {xs : List α} {x : α}
    (h : draw64 w r xs = some x) : x ∈ xs := by
  induction xs generalizing r with
  | nil => cases h
  | cons y xs ih =>
    rw [draw64] at h
    split at h
    · obtain rfl := Option.some.inj h
      exact List.mem_cons_self
    · exact List.mem_cons_of_mem y (ih h)

/-! ### Exact shares -/

/-- The entry of the tier that a random number draws. -/
def entryDrawn (targetChannels : List Channel) (randomWeight : ℤ) : Option (Channel × ℕ) :=
  draw64 (fun e => smoothedWeight targetChannels e.1) randomWeight targetChannels.zipIdx

theorem draw64_eq_entryDrawn (ts : List Channel) (r : ℤ) :
    draw64 (smoothedWeight ts) r ts = (entryDrawn ts r).map Prod.fst := by
  have h := draw64_map Prod.fst (smoothedWeight ts) r ts.zipIdx
  rwa [List.zipIdx_map_fst] at h

theorem mem_of_entryDrawn {r : ℤ} {e : Channel × ℕ}
    (h : entryDrawn ts r = some e) : e ∈ ts.zipIdx := mem_of_draw64 h

/-- **The selection is exact**: it considers the channels of the tier, the random generator
has a positive bound, one of the channels is returned, and each of their entries has its
smoothed weight of the numbers. A channel is returned for the numbers of all its entries: one
that is listed twice has twice its smoothed weight. -/
structure DrawsExactly (cache : Cache) (group model : String) (retry : ℕ)
    (channels : List Channel) : Prop where
  considers : ∀ c, c ∈ tierOf channels retry ↔ c ∈ channels ∧
    (ranks (channels.map Channel.getPriority))[min retry
      ((ranks (channels.map Channel.getPriority)).length - 1)]? = some c.getPriority
  bound : 0 < totalWeight (tierOf channels retry)
  returns : ∀ intn : ℤ → ℤ, (∀ n, 0 < n → 0 ≤ intn n ∧ intn n < n) →
    ∃ c ∈ tierOf channels retry,
      getRandomSatisfiedChannel64 intn cache group model retry = .ok (some c)
  shares : ∀ e ∈ (tierOf channels retry).zipIdx,
    (((Finset.range (totalWeight (tierOf channels retry)).toNat).filter fun d : ℕ =>
      entryDrawn (tierOf channels retry) d = some e).card : ℤ) =
        e.1.getWeight * (smoothing64 (tierOf channels retry)).2.1 +
          (smoothing64 (tierOf channels retry)).2.2
  returned : ∀ c ∈ tierOf channels retry,
    (((Finset.range (totalWeight (tierOf channels retry)).toNat).filter fun d : ℕ =>
      getRandomSatisfiedChannel64 (fun _ => d) cache group model retry = .ok (some c)).card : ℤ) =
        (tierOf channels retry).count c *
          (c.getWeight * (smoothing64 (tierOf channels retry)).2.1 +
            (smoothing64 (tierOf channels retry)).2.2)

theorem considers_tierOf (channels : List Channel) (retry : ℕ) (c : Channel) :
    c ∈ tierOf channels retry ↔ c ∈ channels ∧
      (ranks (channels.map Channel.getPriority))[min retry
        ((ranks (channels.map Channel.getPriority)).length - 1)]? = some c.getPriority := by
  rw [mem_tierOf]
  refine and_congr_right fun hc => ?_
  have hpos : 0 < (ranks (channels.map Channel.getPriority)).length := by
    rw [List.length_pos_iff, Ne, ranks_eq_nil]
    exact List.ne_nil_of_mem (List.mem_map_of_mem hc)
  rw [targetPriority]
  generalize ranks (channels.map Channel.getPriority) = priorities at *
  have hmin : min retry (priorities.length - 1) =
      if priorities.length ≤ retry then priorities.length - 1 else retry := by
    split <;> omega
  rw [hmin, List.getD_eq_getElem?_getD]
  have hlt : (if priorities.length ≤ retry then priorities.length - 1 else retry) <
      priorities.length := by
    split <;> omega
  rw [List.getElem?_eq_getElem hlt, Option.getD_some, Option.some_inj, eq_comm]

/-- Without a wrap, the numbers in 64 bits are those of `smoothing`. -/
structure Fits (ts : List Channel) (total factor adjustment : ℕ) : Prop where
  smoothing64 : smoothing64 ts = ((total : ℤ), (factor : ℤ), (adjustment : ℤ))
  totalWeight : totalWeight ts = (total * factor : ℕ)
  smoothedWeight : ∀ c ∈ ts, smoothedWeight ts c = (c.getWeight * factor + adjustment : ℕ)
  lt : ∀ c ∈ ts, c.getWeight * factor + adjustment < 2 ^ 63

theorem sum_getWeight_le (hfactor : 0 < factor) :
    (ts.map Channel.getWeight).sum ≤ (ts.map fun c => c.getWeight * factor + adjustment).sum :=
  List.sum_le_sum fun c _ =>
    (Nat.le_mul_of_pos_right c.getWeight hfactor).trans (Nat.le_add_right _ _)

theorem fits (hne : ts ≠ [])
    (h : smoothing ts = (total, factor, adjustment)) (hlt : total * factor < 2 ^ 63) :
    Fits ts total factor adjustment := by
  obtain ⟨hsum, hpos, -⟩ := smoothing_spec hne h
  have hfactor : 0 < factor := Nat.pos_of_mul_pos_left hpos
  have hweights := @sum_getWeight_le ts factor adjustment hfactor
  have hle (c : Channel) (hc : c ∈ ts) : c.getWeight * factor + adjustment ≤ total * factor := by
    rw [← hsum]
    exact List.single_le_sum (fun _ _ => Nat.zero_le _) _
      (List.mem_map_of_mem (f := fun c => c.getWeight * factor + adjustment) hc)
  have htotal : total ≤ total * factor := Nat.le_mul_of_pos_right total hfactor
  have hsmooth := smoothing64_eq h (by omega)
  rw [int64_eq (n := total) (by omega) (by omega)] at hsmooth
  refine ⟨hsmooth, ?_, fun c hc => ?_, fun c hc => (hle c hc).trans_lt hlt⟩
  · rw [totalWeight, hsmooth, ← Int.natCast_mul, int64_eq (by omega) (by omega)]
  · have hc' := hle c hc
    have hw : c.getWeight ≤ c.getWeight * factor := Nat.le_mul_of_pos_right _ hfactor
    rw [smoothedWeight, hsmooth, int64_eq (n := c.getWeight) (by omega) (by omega),
      ← Int.natCast_mul, int64_eq (n := (c.getWeight * factor : ℕ)) (by omega) (by omega),
      ← Int.natCast_add, int64_eq (by omega) (by omega)]

theorem map_fst_sum_zipIdx (ts : List Channel) (v : Channel → ℕ) :
    (ts.zipIdx.map fun e => v e.1).sum = (ts.map v).sum := by
  rw [← Function.comp_def, ← List.map_map, List.zipIdx_map_fst]

theorem nodup_zipIdx (xs : List α) : xs.zipIdx.Nodup := by
  refine List.Nodup.of_map Prod.snd ?_
  rw [List.zipIdx_map_snd]
  exact List.nodup_range' ..

theorem length_of_mapM {β ε : Type*} {f : α → Except ε β} {xs : List α} {ys : List β}
    (h : xs.mapM f = .ok ys) : ys.length = xs.length := by
  induction xs generalizing ys with
  | nil =>
    cases h
    rfl
  | cons x xs ih =>
    rw [List.mapM_cons] at h
    cases hx : f x with
    | error e => rw [hx] at h; cases h
    | ok y =>
      cases hxs : xs.mapM f with
      | error e => rw [hx, hxs] at h; cases h
      | ok ys' =>
        rw [hx, hxs] at h
        cases h
        rw [List.length_cons, List.length_cons, ih hxs]

/-- With weights that fit, the numbers below the bound all draw. -/
theorem exists_draw64 (hne : ts ≠ [])
    (hsmooth : smoothing ts = (total, factor, adjustment)) (hlt : total * factor < 2 ^ 63) {r : ℤ}
    (hnonneg : 0 ≤ r) (hbound : r < totalWeight ts) :
    ∃ c ∈ ts, draw64 (smoothedWeight ts) r ts = some c := by
  obtain ⟨hsum, -, -⟩ := smoothing_spec hne hsmooth
  have hfits := fits hne hsmooth hlt
  rw [hfits.totalWeight] at hbound
  obtain ⟨d, rfl⟩ := Int.eq_ofNat_of_zero_le hnonneg
  have hsome : (draw (fun r => r < 0) (fun c => c.getWeight * factor + adjustment) d ts).isSome :=
    draw_isSome (t := 0) (by simp) (by rw [hsum]; omega) hne
  obtain ⟨c, hc⟩ := Option.isSome_iff_exists.mp hsome
  refine ⟨c, mem_of_draw hc, ?_⟩
  rw [draw64_eq hfits.smoothedWeight hfits.lt (by omega), hc]

/-- With a positive bound, the channel that is returned is that of the entry drawn. -/
theorem getRandomSatisfiedChannel64_eq_ok_iff {cache : Cache} {group model : String}
    {channels : List Channel} (hknown : (cache.idsFor group model).mapM cache.get = .ok channels)
    (hlen : 2 ≤ (cache.idsFor group model).length) {retry : ℕ} {intn : ℤ → ℤ}
    (htier : tierOf channels retry ≠ []) (hpos : 0 < totalWeight (tierOf channels retry))
    {c : Channel} :
    getRandomSatisfiedChannel64 intn cache group model retry = .ok (some c) ↔
      (entryDrawn (tierOf channels retry) (intn (totalWeight (tierOf channels retry)))).map
        Prod.fst = some c := by
  rw [← draw64_eq_entryDrawn, getRandomSatisfiedChannel64]
  match cache.idsFor group model, hknown, hlen with
  | id :: id' :: ids, hknown, _ =>
    dsimp only
    rw [hknown]
    dsimp only
    rw [pickSatisfied64]
    rw [show (channels.filter fun c => c.getPriority =
      targetPriority (channels.map Channel.getPriority) retry) = tierOf channels retry from rfl,
      if_neg htier, if_neg (not_le.mpr hpos)]
    cases draw64 (smoothedWeight (tierOf channels retry))
        (intn (totalWeight (tierOf channels retry))) (tierOf channels retry) with
    | none =>
      refine iff_of_false (fun h => ?_) (fun h => ?_)
      · cases h
      · cases h
    | some c' =>
      refine ⟨fun h => ?_, fun h => ?_⟩
      · exact Except.ok.inj h
      · rw [Option.some.inj h]
        rfl

/-- **When the selection is exact**: the smoothed weights of the tier add up to less than
`2 ^ 63`. -/
theorem drawsExactly_iff {cache : Cache} {group model : String} {channels : List Channel}
    (hknown : (cache.idsFor group model).mapM cache.get = .ok channels)
    (hlen : 2 ≤ (cache.idsFor group model).length) (retry : ℕ) :
    DrawsExactly cache group model retry channels ↔
      (smoothing (tierOf channels retry)).1 * (smoothing (tierOf channels retry)).2.1 < 2 ^ 63 := by
  have hne : channels ≠ [] := by
    rw [← List.length_pos_iff, length_of_mapM hknown]
    omega
  have htier := tierOf_ne_nil hne retry
  have hentries := nodup_zipIdx (tierOf channels retry)
  rcases hsmooth : smoothing (tierOf channels retry) with ⟨total, factor, adjustment⟩
  obtain ⟨hsum, hpos, -⟩ := smoothing_spec htier hsmooth
  dsimp only
  constructor
  · intro h
    -- the shares are numbers below the bound, so the weights fit
    have hshares := sum_card_le hentries (totalWeight (tierOf channels retry)).toNat
      fun d => entryDrawn (tierOf channels retry) d
    have hbound : (totalWeight (tierOf channels retry)).toNat < 2 ^ 63 := by
      have := int64_lt ((smoothing64 (tierOf channels retry)).1 *
        (smoothing64 (tierOf channels retry)).2.1)
      rw [totalWeight]
      omega
    have hle : ((tierOf channels retry).map Channel.getWeight).sum < 2 ^ 63 := by
      refine lt_of_le_of_lt ?_ (hshares.trans_lt hbound)
      rw [← map_fst_sum_zipIdx]
      refine List.sum_le_sum fun e he => ?_
      have hshare := h.shares e he
      have hle := le_smoothed64 (tierOf channels retry) e.1.getWeight
      omega
    have hsmooth64 := smoothing64_eq hsmooth hle
    have htotal : (((tierOf channels retry).zipIdx.map fun e => e.1.getWeight * factor +
        adjustment)).sum < 2 ^ 63 := by
      refine lt_of_le_of_lt ?_ (hshares.trans_lt hbound)
      refine List.sum_le_sum fun e he => ?_
      have hshare := h.shares e he
      rw [hsmooth64, ← Int.natCast_mul, ← Int.natCast_add] at hshare
      exact (Int.ofNat_inj.mp hshare).ge
    rwa [map_fst_sum_zipIdx (tierOf channels retry) fun c => c.getWeight * factor + adjustment,
      hsum] at htotal
  · intro hlt
    have hfits := fits htier hsmooth hlt
    have hshares (e : Channel × ℕ) (he : e ∈ (tierOf channels retry).zipIdx) :
        (((Finset.range (totalWeight (tierOf channels retry)).toNat).filter fun d : ℕ =>
          entryDrawn (tierOf channels retry) d = some e).card : ℤ) =
            e.1.getWeight * (smoothing64 (tierOf channels retry)).2.1 +
              (smoothing64 (tierOf channels retry)).2.2 := by
      have hweight (x : Channel × ℕ) (hx : x ∈ (tierOf channels retry).zipIdx) :
          smoothedWeight (tierOf channels retry) x.1 =
            (x.1.getWeight * factor + adjustment : ℕ) :=
        hfits.smoothedWeight x.1 (List.fst_mem_of_mem_zipIdx hx)
      have hfit (x : Channel × ℕ) (hx : x ∈ (tierOf channels retry).zipIdx) :
          x.1.getWeight * factor + adjustment < 2 ^ 63 :=
        hfits.lt x.1 (List.fst_mem_of_mem_zipIdx hx)
      have hdraw (d : ℕ) (hd : d ∈ Finset.range (total * factor)) :
          entryDrawn (tierOf channels retry) d = some e ↔
            draw (fun r => r < 0) (fun x : Channel × ℕ => x.1.getWeight * factor + adjustment) d
              (tierOf channels retry).zipIdx = some e := by
        rw [entryDrawn, draw64_eq hweight hfit ((Finset.mem_range.mp hd).trans hlt)]
      rw [hfits.totalWeight, hfits.smoothing64, Int.toNat_natCast, Finset.filter_congr hdraw,
        ← hsum, ← map_fst_sum_zipIdx, card_draw_lt_zero hentries he]
      rfl
    have hbound : 0 < totalWeight (tierOf channels retry) := by
      rw [hfits.totalWeight]
      omega
    refine
      { considers := considers_tierOf channels retry
        bound := hbound
        returns := fun intn hintn => ?_
        shares := hshares
        returned := fun c _ => ?_ }
    · obtain ⟨hnonneg, hlt'⟩ := hintn _ hbound
      obtain ⟨c, hc, hdraw⟩ := exists_draw64 htier hsmooth hlt hnonneg hlt'
      refine ⟨c, hc, (getRandomSatisfiedChannel64_eq_ok_iff hknown hlen htier hbound).mpr ?_⟩
      rw [← draw64_eq_entryDrawn, hdraw]
    · -- every entry of the channel has the same share
      rw [hfits.smoothing64, ← Int.natCast_mul, ← Int.natCast_add, ← Int.natCast_mul,
        Int.ofNat_inj]
      simp only [getRandomSatisfiedChannel64_eq_ok_iff hknown hlen htier hbound]
      rw [card_map_drawn hentries (fun _ _ => mem_of_entryDrawn) Prod.fst fun e he hc => ?_,
        List.zipIdx_map_fst]
      have hshare := hshares e he
      rw [hfits.smoothing64, ← Int.natCast_mul, ← Int.natCast_add, Int.ofNat_inj, hc] at hshare
      exact hshare

/-- A cache with two channels of the weights `w` and `w'`. -/
def pairCache (w w' : ℕ) : Cache where
  group2model2channels group :=
    if group = "default" then some fun model => if model = "m" then some [1, 2] else none else none
  channelsIDM id :=
    if id = 1 then some { id := 1, weight := some w }
    else if id = 2 then some { id := 2, weight := some w' }
    else none

/-- The weights `1` and `3`. -/
theorem drawsExactly_one_three :
    DrawsExactly (pairCache 1 3) "default" "m" 0
      [{ id := 1, weight := some 1 }, { id := 2, weight := some 3 }] :=
  (drawsExactly_iff rfl (by decide) 0).mpr (by decide)

/-- Two weights whose sum does not fit: there is no random number. -/
theorem not_drawsExactly_two_pow :
    ¬DrawsExactly (pairCache (2 ^ 62) (2 ^ 62)) "default" "m" 0
      [{ id := 1, weight := some (2 ^ 62) }, { id := 2, weight := some (2 ^ 62) }] := by
  intro h
  exact absurd h.bound (by decide)

end NewApiPool.Routing
