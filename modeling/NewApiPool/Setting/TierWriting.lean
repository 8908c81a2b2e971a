import NewApiPool.Setting.TierAlign

/-!
# What the price editor writes, and what it reads back

`generateExprFromVisualConfig` writes a text of known tokens
(`NewApiPool.TierEditor.spaced_generate`). A configuration that the reader of several tiers returns
is written with the tokens of the expression that it was read from
(`NewApiPool.TierEditor.spaced_of_parseTiers`).
-/

namespace NewApiPool.TierEditor

open JsText Backtrack

variable {ν : Type} [DecidableEq ν] (js : Numbers ν)

/-! ### The parts of a configuration -/

/-- A condition that is written. -/
def Condition.cut (c : Condition ν) : Option (ConditionVar × Op × Text) :=
  match c.var, c.op, c.value with
  | some v, some op, .num n => some (v, op, js.print n)
  | some v, some op, .nan => some (v, op, "NaN".toList)
  | _, _, _ => none

def Tier.cuts (t : Tier ν) : List (ConditionVar × Op × Text) :=
  t.conditions.filterMap (Condition.cut js)

def Tier.body (t : Tier ν) : Body where
  input := js.print (t.input_unit_cost.amount js)
  output := js.print (t.output_unit_cost.amount js)
  cache := (cacheVarMap.filter fun cv => (t.cost cv).amount js ≠ js.zero).map fun cv =>
    (cv, js.print ((t.cost cv).amount js))

/-- A tier of several, at index `i`. -/
def partOf (count i : ℕ) (t : Tier ν) : Part where
  conditions := if i < count - 1 then t.cuts js else []
  label := if t.label.isEmpty then defaultLabel i else t.label
  body := t.body js

def onlyPart (t : Tier ν) : Part where
  conditions := t.cuts js
  label := if t.label.isEmpty then "default".toList else t.label
  body := t.body js

def partsOf : List (Tier ν) → List Part
  | [t] => [onlyPart js t]
  | tiers => tiers.mapIdx (partOf js tiers.length)

/-- What is written after the parts. -/
def tailOf : List (Tier ν) → List Text
  | [t] => if t.cuts js = [] then [] else zeroTokens
  | _ => []

/-! ### Writing -/

section Writing

variable {t : Tier ν} {tiers : List (Tier ν)} {config : Config ν} {label s : Text} {body : Body}
  {count i : ℕ}

theorem spaced_term (z : Text × Text) :
    Spaced isSpace (termTokens z) (z.1 ++ " * ".toList ++ z.2) := by
  have hspace : ∀ c ∈ " ".toList, isSpace c = true := forall_mem_eq (by decide)
  have hnumber := (spaced_singleton z.2).blank_append hspace
  rw [List.append_assoc]
  exact ((hnumber.push "*".toList).blank_append hspace).push z.1

theorem spaced_buildTierBodyExpr :
    Spaced isSpace (bodyTokens (t.body js)) (buildTierBodyExpr js t) := by
  have hbody : buildTierBodyExpr js t = (" ".toList ++ "+".toList ++ " ".toList).intercalate
      ((t.body js).terms.map fun z => z.1 ++ " * ".toList ++ z.2) := by
    rw [buildTierBodyExpr, Tier.body, Body.terms, List.map_cons, List.map_cons, List.map_map,
      List.map_map]
    rfl
  have hterms : Spaced isSpace (joined "+".toList ((t.body js).terms.map termTokens)) _ :=
    spaced_intercalate fun z _ => spaced_term z
  rw [hbody]
  exact hterms

theorem tierExpr_eq (label s : Text) : tierExpr label s =
    "tier(\"".toList ++ label ++ "\", ".toList ++ s ++ ")".toList := rfl

theorem spaced_tierExpr (label : Text) (h : Spaced isSpace (bodyTokens body) s) :
    Spaced isSpace (tierTokens label body) (tierExpr label s) := by
  have hspace : ∀ c ∈ " ".toList, isSpace c = true := forall_mem_eq (by decide)
  have hrest := ((h.append (spaced_singleton ")".toList)).blank_append hspace).push ",".toList
  have hall := ((hrest.push ('"' :: (label ++ ['"']))).push "(".toList).push "tier".toList
  have htext : tierExpr label s = "tier".toList ++ ("(".toList ++ (('"' :: (label ++ ['"'])) ++
      (",".toList ++ (" ".toList ++ (s ++ ")".toList))))) := by
    have hstart : "tier(\"".toList = "tier".toList ++ ("(".toList ++ ['"']) := by decide
    have hcomma : "\", ".toList = '"' :: (",".toList ++ " ".toList) := by decide
    rw [tierExpr_eq, hstart, hcomma]
    simp only [List.append_assoc, List.cons_append, List.nil_append]
  rw [htext]
  exact hall

omit [DecidableEq ν] in
theorem Condition.text_eq_cut (c : Condition ν) :
    c.text js = (c.cut js).map fun z =>
      z.1.text ++ (" ".toList ++ (z.2.1.text ++ (" ".toList ++ z.2.2))) := by
  obtain ⟨v, op, value⟩ := c
  cases v <;> cases op <;> cases value <;> simp [Condition.text, Condition.cut]

omit [DecidableEq ν] in
theorem buildConditionStr_eq (conditions : List (Condition ν)) :
    buildConditionStr js conditions = (" ".toList ++ "&&".toList ++ " ".toList).intercalate
      ((conditions.filterMap (Condition.cut js)).map fun z =>
        z.1.text ++ (" ".toList ++ (z.2.1.text ++ (" ".toList ++ z.2.2)))) := by
  rw [buildConditionStr, List.map_filterMap]
  simp only [Condition.text_eq_cut]
  rfl

omit [DecidableEq ν] in
theorem spaced_buildConditionStr :
    Spaced isSpace (joined "&&".toList ((t.cuts js).map conditionTokens))
      (buildConditionStr js t.conditions) := by
  rw [buildConditionStr_eq]
  refine spaced_intercalate fun z _ => ?_
  have hspace : ∀ c ∈ " ".toList, isSpace c = true := forall_mem_eq (by decide)
  have hnumber := ((spaced_singleton z.2.2).blank_append hspace).push z.2.1.text
  exact (hnumber.blank_append hspace).push z.1.text

omit [DecidableEq ν] in
theorem buildConditionStr_eq_nil : buildConditionStr js t.conditions = [] ↔ t.cuts js = [] := by
  rw [buildConditionStr_eq, ← Tier.cuts]
  constructor
  · intro h
    cases hcuts : t.cuts js with
    | nil => rfl
    | cons z zs =>
      rw [hcuts, List.map_cons] at h
      have hvar : z.1.text ≠ [] := by cases z.1 <;> decide
      cases zs with
      | nil => simp_all
      | cons y ys => simp_all
  · intro h
    rw [h]
    rfl

omit [DecidableEq ν] in
theorem spaced_guard (hne : t.cuts js ≠ []) (h : Spaced isSpace (tierTokens label body) s) :
    Spaced isSpace (guardTokens (t.cuts js) ++ tierTokens label body)
      (buildConditionStr js t.conditions ++ " ? ".toList ++ s) := by
  have hspace : ∀ c ∈ " ".toList, isSpace c = true := forall_mem_eq (by decide)
  have hsign := ((h.blank_append hspace).push "?".toList).blank_append hspace
  rw [guardTokens, if_neg hne, List.append_assoc, List.append_assoc]
  exact (spaced_buildConditionStr js).append hsign

theorem spaced_tierPart : Spaced isSpace (partOf js count i t).tokens (tierPart js count i t) := by
  have htier := spaced_tierExpr (if t.label.isEmpty then defaultLabel i else t.label)
    (spaced_buildTierBodyExpr js (t := t))
  by_cases hkeep : i < count - 1 ∧ buildConditionStr js t.conditions ≠ []
  · have hcuts : t.cuts js ≠ [] := fun h => hkeep.2 ((buildConditionStr_eq_nil js).2 h)
    rw [tierPart, if_pos hkeep, Part.tokens, partOf, if_pos hkeep.1]
    exact spaced_guard js hcuts htier
  · have hnone : (if i < count - 1 then t.cuts js else []) = [] := by
      by_cases hi : i < count - 1
      · rw [if_pos hi, ← buildConditionStr_eq_nil]
        exact by_contra fun h => hkeep ⟨hi, h⟩
      · exact if_neg hi
    rw [tierPart, if_neg hkeep, Part.tokens, partOf, hnone]
    exact htier

theorem spaced_zero : Spaced isSpace zeroTokens " : p * 0 + c * 0".toList := by
  have hspace : ∀ c ∈ " ".toList, isSpace c = true := forall_mem_eq (by decide)
  have hproduct : ∀ v : Text, Spaced isSpace [v, "*".toList, "0".toList]
      (v ++ (" ".toList ++ ("*".toList ++ (" ".toList ++ "0".toList)))) := fun v =>
    ((((spaced_singleton "0".toList).blank_append hspace).push "*".toList).blank_append
      hspace).push v
  have hc := (((hproduct "c".toList).blank_append hspace).push "+".toList).blank_append hspace
  exact ((((hproduct "p".toList).append hc).blank_append hspace).push ":".toList).blank_append
    hspace

theorem generate_singleton : generateExprFromVisualConfig js ⟨[t]⟩ =
    if buildConditionStr js t.conditions ≠ [] then
      buildConditionStr js t.conditions ++ " ? ".toList ++
        tierExpr (onlyPart js t).label (buildTierBodyExpr js t) ++ " : p * 0 + c * 0".toList
    else tierExpr (onlyPart js t).label (buildTierBodyExpr js t) := rfl

theorem generate_cons_cons {t' : Tier ν} :
    generateExprFromVisualConfig js ⟨t :: t' :: tiers⟩ = " : ".toList.intercalate
      ((t :: t' :: tiers).mapIdx (tierPart js (t :: t' :: tiers).length)) := rfl

theorem partsOf_cons_cons {t' : Tier ν} : partsOf js (t :: t' :: tiers) =
    (t :: t' :: tiers).mapIdx (partOf js (t :: t' :: tiers).length) := rfl

omit [DecidableEq ν] in
theorem tailOf_cons_cons {t' : Tier ν} : tailOf js (t :: t' :: tiers) = [] := rfl

/-- **The tokens of what is written.** -/
theorem spaced_generate (hne : tiers ≠ []) :
    Spaced isSpace (exprTokens (partsOf js tiers) (tailOf js tiers))
      (generateExprFromVisualConfig js ⟨tiers⟩) := by
  obtain ⟨t, tiers, rfl⟩ := List.exists_cons_of_ne_nil hne
  cases tiers with
  | nil =>
    have htier := spaced_tierExpr (onlyPart js t).label
      (spaced_buildTierBodyExpr js (t := t))
    have htokens : exprTokens (partsOf js [t]) (tailOf js [t]) =
        (guardTokens (t.cuts js) ++ tierTokens (onlyPart js t).label (t.body js)) ++
          tailOf js [t] := exprTokens_cons
    rw [htokens, generate_singleton, tailOf]
    by_cases hcuts : t.cuts js = []
    · have hcond : ¬buildConditionStr js t.conditions ≠ [] := fun h =>
        h ((buildConditionStr_eq_nil js).2 hcuts)
      rw [if_neg hcond, if_pos hcuts, hcuts, List.append_nil]
      exact htier
    · have hcond : buildConditionStr js t.conditions ≠ [] := fun h =>
        hcuts ((buildConditionStr_eq_nil js).1 h)
      rw [if_pos hcond, if_neg hcuts]
      exact (spaced_guard js hcuts htier).append spaced_zero
  | cons t' tiers =>
    rw [partsOf_cons_cons, tailOf_cons_cons, exprTokens, List.append_nil, generate_cons_cons,
      List.mapIdx_eq_zipIdx_map, List.mapIdx_eq_zipIdx_map, List.map_map]
    exact spaced_intercalate fun p _ => spaced_tierPart js

end Writing

/-! ### Reading several tiers -/

section Reading

variable {t : Tier ν} {cfg : Config ν} {s x label default : Text} {part : Part} {count i : ℕ}
  {found : Option Text × Text × Body} {founds : List (Text × (Option Text × Text × Body) × Text)}

/-- The tier that is read from a match. -/
def tierOf (found : Option Text × Text × Body) : Tier ν :=
  normalizeVisualTier js
    (readTier js (parseConditions js (found.1.getD [])) found.2.1 found.2.2)

theorem length_split (n : ℕ) (s : Text) :
    2 * (split andSign n s).length ≤ s.count '&' + 2 := by
  induction n generalizing s with
  | zero => exact Nat.le_add_left 2 _
  | succ n ih =>
    rw [split]
    cases hexec : exec andSign s with
    | none => exact Nat.le_add_left 2 _
    | some found =>
      obtain ⟨u, a, r⟩ := found
      obtain ⟨t, rfl, ht⟩ := mem_of_exec hexec
      obtain ⟨b, b', rfl, -, -⟩ := mem_andSign ht
      have hand : "&&".toList.count '&' = 2 := by decide
      have hrest := ih r
      simp only [List.length_cons, List.count_append, hand]
      omega

omit [DecidableEq ν] in
theorem length_parseConditions :
    2 * (parseConditions js x).length ≤ x.count '&' + 2 := by
  rw [parseConditions]
  split_ifs
  · exact Nat.zero_le _
  · have hle := List.length_filterMap_le (fun cp => (matchWhole condition (trim cp)).map fun cm =>
      (⟨some cm.1, some cm.2.1, numberOf js cm.2.2⟩ : Condition ν)) (split andSign x.length x)
    have hsplit := length_split x.length x
    omega

omit [DecidableEq ν] in
theorem numberText_print (n : ν) : NumberText (js.print n) := by
  refine ⟨js.print_ne_nil n, fun c hc => ?_⟩
  rw [isNumberChar, Bool.or_eq_true, List.contains_iff_mem]
  exact js.print_chars n c hc

theorem body_valid (t : Tier ν) : (t.body js).Valid where
  input := numberText_print js _
  output := numberText_print js _
  cache := by
    intro z hz
    obtain ⟨cv, -, rfl⟩ := List.mem_map.1 hz
    exact numberText_print js _
  vars := by
    have hvars : (Prod.fst ∘ fun cv => (cv, js.print ((t.cost cv).amount js))) = id := rfl
    rw [Tier.body, List.map_map, hvars, List.map_id]
    exact List.filter_sublist

omit [DecidableEq ν] in
theorem plain_cuts (t : Tier ν) : ∀ c ∈ t.cuts js, ∀ d ∈ c.2.2, isPlain d = true := by
  intro c hc d hd
  obtain ⟨⟨v, op, value⟩, -, hcut⟩ := List.mem_filterMap.1 hc
  cases v <;> cases op <;> cases value <;> simp only [Condition.cut, reduceCtorEq,
    Option.some.injEq] at hcut
  · subst hcut
    exact forall_mem_eq (s := "NaN".toList) (by decide) d hd
  · subst hcut
    exact isPlain_of_isNumberChar ((numberText_print js _).2 d hd)

theorem defaultLabel_ok (i : ℕ) : '"' ∉ defaultLabel i ∧ squash (defaultLabel i) ≠ [] := by
  constructor
  · intro h
    rw [defaultLabel, List.mem_append, List.mem_append] at h
    obtain (h | h) | h := h
    · exact absurd h (by decide)
    · rw [show (toString (i + 1)).toList = Nat.toDigits 10 (i + 1) from Nat.toList_repr] at h
      exact absurd (Nat.isDigit_of_mem_toDigits (by decide) (by decide) h) (by decide)
    · exact absurd h (by decide)
  · have hfirst : squash "第".toList ≠ [] := by decide
    rw [defaultLabel, squash_append, squash_append]
    exact fun h => hfirst (List.append_eq_nil_iff.1 (List.append_eq_nil_iff.1 h).1).1

/-- What is written for the tier that is read from a match. -/
theorem reads_tierOf (hlabel : '"' ∉ found.2.1)
    (hconditions : part.conditions = (tierOf js found).cuts js ∨ part.conditions = [])
    (hpart : part.label = if found.2.1.isEmpty then default else found.2.1)
    (hdefault : '"' ∉ default ∧ squash default ≠ [])
    (hbody : part.body = (tierOf js found).body js) : Reads found part where
  valid := by
    refine ⟨?_, ?_, hbody ▸ body_valid js _⟩
    · obtain h | h := hconditions <;> rw [h]
      · exact plain_cuts js _
      · exact fun _ hc => absurd hc List.not_mem_nil
    · rw [hpart]
      split_ifs
      · exact hdefault.1
      · exact hlabel
  label := by
    rw [hpart]
    split_ifs with h
    · exact .inr ⟨List.isEmpty_iff.1 h, hdefault.2⟩
    · exact .inl rfl
  noConditions := by
    intro hnone
    obtain h | h := hconditions
    · rw [h, Tier.cuts, tierOf, hnone]
      rfl
    · exact h
  conditions := by
    intro x hx
    obtain h | h := hconditions <;> rw [h]
    · have hcuts : ((tierOf js found).cuts js).length ≤ (parseConditions js x).length := by
        refine (List.length_filterMap_le _ _).trans (Eq.le ?_)
        rw [tierOf, hx]
        rfl
      have hparse := length_parseConditions js (x := x)
      omega
    · exact Nat.zero_le _

theorem reads_parts (h : Runs tierRe s founds) (count start : ℕ) :
    List.Forall₂ (fun found part => Reads found.2.1 part) founds
      ((founds.map fun found => tierOf js found.2.1).mapIdx fun i =>
        partOf js count (start + i)) := by
  induction h generalizing start with
  | nil s => exact .nil
  | @cons u a r t founds hfound _ ih =>
    obtain ⟨-, -, -, -, -, -, hlabel, -⟩ := mem_tierRe hfound
    rw [List.map_cons, List.mapIdx_cons]
    refine .cons (reads_tierOf js hlabel ?_ rfl (defaultLabel_ok _) rfl) ?_
    · by_cases hi : start + 0 < count - 1
      · exact .inl (if_pos hi)
      · exact .inr (if_neg hi)
    · simpa only [Nat.add_assoc, Nat.add_comm 1] using ih (start + 1)

theorem reads_partsOf (h : Runs tierRe s founds) :
    List.Forall₂ (fun found part => Reads found.2.1 part) founds
      (partsOf js (founds.map fun found => tierOf js found.2.1)) := by
  cases h with
  | nil s => exact .nil
  | @cons u a r t founds hfound hruns =>
    cases hruns with
    | nil s =>
      obtain ⟨-, -, -, -, -, -, hlabel, -⟩ := mem_tierRe hfound
      exact .cons (reads_tierOf js hlabel (.inl rfl) rfl (by decide) rfl) .nil
    | @cons u' a' r' t' founds hfound' hruns =>
      have hall := reads_parts js (.cons (u := u) hfound (.cons hfound' hruns))
        ((founds.map fun found => tierOf js found.2.1).length + 2) 0
      simp only [Nat.zero_add] at hall
      exact hall

omit [DecidableEq ν] in
theorem tailOf_eq (tiers : List (Tier ν)) :
    tailOf js tiers = [] ∨ tailOf js tiers = zeroTokens := by
  rw [tailOf.eq_def]
  split
  · split_ifs
    · exact .inl rfl
    · exact .inr rfl
  · exact .inl rfl

omit [DecidableEq ν] in
theorem tailOf_ok (tiers : List (Tier ν)) :
    tailOf js tiers = (compact (tailOf js tiers)).map (fun c => [c]) ∧
      '"' ∉ compact (tailOf js tiers) := by
  obtain h | h := tailOf_eq js tiers <;> rw [h] <;> decide

/-- **The two ways** in which an expression is read. -/
theorem parseTiers_eq_some (h : parseTiers js s = some cfg) :
    (∃ simple, matchWhole tierPat s = some simple ∧ cfg.tiers = [normalizeVisualTier js
      (normalizeVisualTier js (readTier js [] simple.1 simple.2))]) ∨
    matchWhole tierPat s = none ∧ ∃ founds, Runs tierRe s founds ∧ founds ≠ [] ∧
      cfg.tiers = (founds.map fun found => tierOf js found.2.1).map (normalizeVisualTier js) ∧
      squash (generateExprFromVisualConfig js cfg) = squash s := by
  rw [parseTiers] at h
  cases hsimple : matchWhole tierPat s with
  | some simple =>
    rw [hsimple] at h
    exact .inl ⟨simple, rfl, congrArg Config.tiers (Option.some.inj h).symm⟩
  | none =>
    rw [hsimple] at h
    refine .inr ⟨rfl, execAll tierRe s.length s, runs_execAll _ _ _, ?_⟩
    simp only [List.isEmpty_map] at h
    split_ifs at h with hempty hsquash
    obtain rfl := Option.some.inj h
    refine ⟨fun hnil => hempty (by rw [hnil]; rfl), ?_, hsquash⟩
    rw [normalizeVisualConfig, if_neg (by simpa using hempty)]
    rfl

theorem mapIdx_normalize (count : ℕ) (tiers : List (Tier ν)) :
    (tiers.map (normalizeVisualTier js)).mapIdx (partOf js count) =
      tiers.mapIdx (partOf js count) := by
  refine List.ext_getElem? fun i => ?_
  rw [List.getElem?_mapIdx, List.getElem?_mapIdx, List.getElem?_map, Option.map_map]
  rfl

theorem partsOf_normalize (tiers : List (Tier ν)) :
    partsOf js (tiers.map (normalizeVisualTier js)) = partsOf js tiers := by
  cases tiers with
  | nil => rfl
  | cons t tiers =>
    cases tiers with
    | nil => rfl
    | cons t' tiers =>
      rw [List.map_cons, List.map_cons, partsOf_cons_cons, partsOf_cons_cons, ← List.map_cons,
        ← List.map_cons, mapIdx_normalize, List.length_map]

omit [DecidableEq ν] in
theorem tailOf_normalize (tiers : List (Tier ν)) :
    tailOf js (tiers.map (normalizeVisualTier js)) = tailOf js tiers := by
  cases tiers with
  | nil => rfl
  | cons t tiers => cases tiers <;> rfl

/-- **What several matches are read from** has the tokens of what is written for them. -/
theorem spaced_of_parseTiers (h : parseTiers js s = some cfg)
    (hnone : matchWhole tierPat s = none) :
    cfg.tiers ≠ [] ∧ (∀ part ∈ partsOf js cfg.tiers, part.Valid) ∧
      Spaced isWhiteSpace (exprTokens (partsOf js cfg.tiers) (tailOf js cfg.tiers)) s := by
  obtain ⟨simple, hsome, -⟩ | ⟨-, founds, hruns, hne, htiers, hsquash⟩ := parseTiers_eq_some js h
  · exact absurd (hnone.symm.trans hsome) (Option.some_ne_none simple).symm
  have hnonempty : cfg.tiers ≠ [] := by
    rw [htiers]
    simpa using hne
  have hreads := reads_partsOf js hruns
  have htail := tailOf_ok js (founds.map fun found => tierOf js found.2.1)
  have hwritten : squash (generateExprFromVisualConfig js cfg) =
      compact (exprTokens (partsOf js cfg.tiers) (tailOf js cfg.tiers)) :=
    (spaced_generate js hnonempty).mono.squash
  rw [htiers, partsOf_normalize, tailOf_normalize] at hwritten ⊢
  refine ⟨htiers ▸ hnonempty, Reads.forall_valid hreads, ?_⟩
  exact spaced_of_runs hruns hne hreads htail.1 htail.2 (hsquash.symm.trans hwritten)

end Reading

end NewApiPool.TierEditor
