import Mathlib.Data.Int.ConditionallyCompleteOrder
import Mathlib.Data.String.Basic
import Mathlib.Order.ConditionallyCompleteLattice.Indexed
import Mathlib.Order.Defs.PartialOrder
import NewApiPool.Lib.GoText

/-!
# Access policies

An access policy is a tree of `and` and `or` over conditions on the fields of the user
info. A missing field is the value `nil`, and `compareAny` compares it like any other: by the
text that is printed for it, which is `<nil>`. And a comparison is by number if both sides
are numbers, and by text if one is not.

So a policy denies a body without its fields unless its conditions hold of the text `<nil>`
(`evaluateAccessPolicy_missing`), and the comparisons are an order but for three values of
which two are numbers (`compareAny_trans_iff`).

Numbers are values of a type `F` with an order, in which NaN is comparable to nothing.
Reading and printing numbers is `strconv.ParseFloat` and `fmt.Sprint`.
-/

namespace NewApiPool.OAuth

open GoText

/-! ### Values -/

/-- A JSON value. Of an object only the text is used that `fmt.Sprint` prints for its map. -/
inductive Json (F : Type*) where
  | null
  | bool (b : Bool)
  | number (n : F)
  | string (s : String)
  | array (items : List (Json F))
  | object (printed : String)

/-- A value of type `any`. -/
inductive Value (F : Type*) where
  | nil
  | bool (b : Bool)
  | float (n : F)
  | string (s : String)
  | list (items : List (Value F))
  | map (printed : String)

/-- What the code uses of its surroundings: `strconv.ParseFloat`, `fmt.Sprint` of a number,
`gjson.Get` and `json.Unmarshal` of a policy. -/
structure Go (F Policy : Type*) where
  parseFloat : String → Option F
  formatFloat : F → String
  get : String → String → Option (Json F)
  unmarshal : String → Except String Policy

section Values

variable {F : Type*}

mutual

/-- `gjsonResultToValue`, of a result that exists. -/
def Json.toValue : Json F → Value F
  | .null => .nil
  | .bool b => .bool b
  | .number n => .float n
  | .string s => .string s
  | .array items => .list (Json.toValues items)
  | .object printed => .map printed

def Json.toValues : List (Json F) → List (Value F)
  | [] => []
  | item :: items => item.toValue :: Json.toValues items

end

def gjsonResultToValue (result : Option (Json F)) : Value F :=
  (result.map Json.toValue).getD .nil

mutual

/-- `fmt.Sprint`. -/
def Value.sprint (formatFloat : F → String) : Value F → String
  | .nil => "<nil>"
  | .bool b => if b then "true" else "false"
  | .float n => formatFloat n
  | .string s => s
  | .list items => "[" ++ " ".intercalate (Value.sprints formatFloat items) ++ "]"
  | .map printed => printed

def Value.sprints (formatFloat : F → String) : List (Value F) → List String
  | [] => []
  | item :: items => item.sprint formatFloat :: Value.sprints formatFloat items

end

end Values

/-! ### Policies -/

structure AccessCondition (F : Type*) where
  field : String
  op : String
  value : Value F

inductive AccessPolicy (F : Type*) where
  | mk (logic : String) (conditions : List (AccessCondition F)) (groups : List (AccessPolicy F))

structure AccessPolicyFailure (F : Type*) where
  field : String
  op : String
  expected : Value F
  current : Value F

def supportedAccessPolicyOps : List String :=
  ["eq", "ne", "gt", "gte", "lt", "lte", "in", "not_in", "contains", "not_contains", "exists",
    "not_exists"]

def normalizePolicyOp (op : String) : String := toLower (trimSpace op)

/-- The logic of a policy, as it is read. -/
def normalizeLogic (logic : String) : String :=
  let logic := toLower (trimSpace logic)
  if logic = "" then "and" else logic

section Policies

variable {F : Type*}

/-- `condition.Value.([]any)` -/
def Value.isList : Value F → Bool
  | .list _ => true
  | _ => false

def validateAccessCondition (condition : AccessCondition F) (index : ℕ) :
    Except String (AccessCondition F) :=
  let field := trimSpace condition.field
  if field = "" then .error s!"condition[{index}].field is required"
  else
    let op := normalizePolicyOp condition.op
    if op ∉ supportedAccessPolicyOps then
      .error s!"condition[{index}].op is unsupported: {op}"
    else if op ∈ ["in", "not_in"] ∧ ¬condition.value.isList then
      .error s!"condition[{index}].value must be an array for op {op}"
    else .ok ⟨field, op, condition.value⟩

/-- The conditions of a policy, from the `index`-th on. -/
def validateConditions : ℕ → List (AccessCondition F) → Except String (List (AccessCondition F))
  | _, [] => .ok []
  | index, condition :: conditions =>
    match validateAccessCondition condition index with
    | .error e => .error e
    | .ok condition =>
      match validateConditions (index + 1) conditions with
      | .error e => .error e
      | .ok conditions => .ok (condition :: conditions)

mutual

def validateAccessPolicy : AccessPolicy F → Except String (AccessPolicy F)
  | .mk logic conditions groups =>
    let logic := normalizeLogic logic
    if logic ∉ ["and", "or"] then .error s!"unsupported policy logic: {logic}"
    else if conditions.isEmpty && groups.isEmpty then
      .error "policy requires at least one condition or group"
    else
      match validateConditions 0 conditions with
      | .error e => .error e
      | .ok conditions =>
        match validateGroups 0 groups with
        | .error e => .error e
        | .ok groups => .ok (.mk logic conditions groups)

/-- The groups of a policy, from the `index`-th on. -/
def validateGroups : ℕ → List (AccessPolicy F) → Except String (List (AccessPolicy F))
  | _, [] => .ok []
  | index, group :: groups =>
    match validateAccessPolicy group with
    | .error e => .error s!"invalid policy group[{index}]: {e}"
    | .ok group =>
      match validateGroups (index + 1) groups with
      | .error e => .error e
      | .ok groups => .ok (group :: groups)

end

def parseAccessPolicy (go : Go F (AccessPolicy F)) (raw : String) :
    Except String (AccessPolicy F) :=
  match go.unmarshal raw with
  | .error e => .error e
  | .ok policy => validateAccessPolicy policy

end Policies

/-! ### Comparisons -/

section Evaluation

variable {F : Type*} (go : Go F (AccessPolicy F))

/-- `toFloat`; the other numeric types do not come out of JSON. -/
def toFloat : Value F → Option F
  | .float n => some n
  | .string s => go.parseFloat (trimSpace s)
  | _ => none

/-- The text of a value. -/
def textOf (v : Value F) : String := trimSpace (v.sprint go.formatFloat)

section Compare

variable [LT F] [DecidableLT F]

def compareAny (left right : Value F) : ℤ :=
  match toFloat go left, toFloat go right with
  | some lf, some rf => if lf < rf then -1 else if rf < lf then 1 else 0
  | _, _ =>
    let ls := textOf go left
    let rs := textOf go right
    if ls < rs then -1 else if rs < ls then 1 else 0

def valueInSlice (current : Value F) : Value F → Bool
  | .list items => items.any fun item => compareAny go current item = 0
  | _ => false

def containsValue (current expected : Value F) : Bool :=
  match current with
  | .string value => contains value (textOf go expected)
  | .list items => items.any fun item => compareAny go item expected = 0
  | _ => false

def evaluateAccessCondition (body : String) (cond : AccessCondition F) :
    Bool × AccessPolicyFailure F :=
  let result := go.get body cond.field
  let current := gjsonResultToValue result
  let failure := ⟨cond.field, cond.op, cond.value, current⟩
  match cond.op with
  | "exists" => (result.isSome, failure)
  | "not_exists" => (!result.isSome, failure)
  | "eq" => (compareAny go current cond.value = 0, failure)
  | "ne" => (compareAny go current cond.value ≠ 0, failure)
  | "gt" => (0 < compareAny go current cond.value, failure)
  | "gte" => (0 ≤ compareAny go current cond.value, failure)
  | "lt" => (compareAny go current cond.value < 0, failure)
  | "lte" => (compareAny go current cond.value ≤ 0, failure)
  | "in" => (valueInSlice go current cond.value, failure)
  | "not_in" => (!valueInSlice go current cond.value, failure)
  | "contains" => (containsValue go current cond.value, failure)
  | "not_contains" => (!containsValue go current cond.value, failure)
  | _ => (false, failure)

/-- The conditions of an `or`. -/
def orConditions (body : String) :
    List (AccessCondition F) → Option (AccessPolicyFailure F) →
      Bool × Option (AccessPolicyFailure F)
  | [], firstFailure => (false, firstFailure)
  | cond :: conditions, firstFailure =>
    let (ok, failure) := evaluateAccessCondition go body cond
    if ok then (true, none) else orConditions body conditions (firstFailure <|> some failure)

/-- The conditions of an `and`. -/
def andConditions (body : String) :
    List (AccessCondition F) → Bool × Option (AccessPolicyFailure F)
  | [] => (true, none)
  | cond :: conditions =>
    let (ok, failure) := evaluateAccessCondition go body cond
    if ok then andConditions body conditions else (false, some failure)

mutual

def evaluateAccessPolicy (body : String) :
    AccessPolicy F → Bool × Option (AccessPolicyFailure F)
  | .mk logic conditions groups =>
    if conditions.isEmpty && groups.isEmpty then (true, none)
    else if normalizeLogic logic = "or" then
      match orConditions go body conditions none with
      | (true, _) => (true, none)
      | (false, firstFailure) => orGroups body groups firstFailure
    else
      match andConditions go body conditions with
      | (false, failure) => (false, failure)
      | (true, _) => andGroups body groups

/-- The groups of an `or`. -/
def orGroups (body : String) :
    List (AccessPolicy F) → Option (AccessPolicyFailure F) →
      Bool × Option (AccessPolicyFailure F)
  | [], firstFailure => (false, firstFailure)
  | group :: groups, firstFailure =>
    let (ok, failure) := evaluateAccessPolicy body group
    if ok then (true, none) else orGroups body groups (firstFailure <|> failure)

/-- The groups of an `and`. -/
def andGroups (body : String) : List (AccessPolicy F) → Bool × Option (AccessPolicyFailure F)
  | [] => (true, none)
  | group :: groups =>
    let (ok, failure) := evaluateAccessPolicy body group
    if ok then andGroups body groups else (false, failure)

end

end Compare

/-! ### Missing fields -/

mutual

/-- All conditions of a policy and its groups. -/
def AccessPolicy.allConditions : AccessPolicy F → List (AccessCondition F)
  | .mk _ conditions groups => conditions ++ AccessPolicy.conditionsOfAll groups

def AccessPolicy.conditionsOfAll : List (AccessPolicy F) → List (AccessCondition F)
  | [] => []
  | group :: groups => group.allConditions ++ AccessPolicy.conditionsOfAll groups

end

/-- The operators that a missing field is to fail. -/
def closedOps : List String := ["exists", "eq", "gt", "gte", "lt", "lte", "in", "contains"]

/-- A condition, of the text `<nil>`. -/
def AccessCondition.holdsOfNil (cond : AccessCondition F) : Bool :=
  match cond.op with
  | "eq" => textOf go cond.value = "<nil>"
  | "gt" => textOf go cond.value < "<nil>"
  | "gte" => textOf go cond.value ≤ "<nil>"
  | "lt" => "<nil>" < textOf go cond.value
  | "lte" => "<nil>" ≤ textOf go cond.value
  | "in" =>
    match cond.value with
    | .list items => items.any fun item => textOf go item = "<nil>"
    | _ => false
  | _ => false

mutual

/-- **A policy, of the text `<nil>`** for every field. -/
def AccessPolicy.holdsOfNil : AccessPolicy F → Bool
  | .mk logic conditions groups =>
    if logic = "or" then
      conditions.any (AccessCondition.holdsOfNil go) || AccessPolicy.anyHoldsOfNil groups
    else conditions.all (AccessCondition.holdsOfNil go) && AccessPolicy.allHoldOfNil groups

def AccessPolicy.anyHoldsOfNil : List (AccessPolicy F) → Bool
  | [] => false
  | group :: groups => group.holdsOfNil || AccessPolicy.anyHoldsOfNil groups

def AccessPolicy.allHoldOfNil : List (AccessPolicy F) → Bool
  | [] => true
  | group :: groups => group.holdsOfNil && AccessPolicy.allHoldOfNil groups

end

/-- Induction over a policy: from the groups to the policy. -/
theorem AccessPolicy.induct {motive : AccessPolicy F → Prop}
    (mk : ∀ logic conditions groups, (∀ group ∈ groups, motive group) →
      motive (.mk logic conditions groups)) (policy : AccessPolicy F) : motive policy :=
  @AccessPolicy.rec F motive (fun groups => ∀ group ∈ groups, motive group)
    mk nofun (fun _ _ head tail => List.forall_mem_cons.mpr ⟨head, tail⟩) policy

/-- **What a policy is once it is accepted.** -/
inductive Validated : AccessPolicy F → Prop where
  | mk {logic : String} {conditions : List (AccessCondition F)} {groups : List (AccessPolicy F)}
    (hlogic : logic = "and" ∨ logic = "or")
    (hempty : (conditions.isEmpty && groups.isEmpty) = false)
    (hgroups : ∀ group ∈ groups, Validated group) : Validated (.mk logic conditions groups)

theorem validateConditions_isEmpty {index : ℕ} {conditions conditions' : List (AccessCondition F)}
    (h : validateConditions index conditions = .ok conditions') :
    conditions'.isEmpty = conditions.isEmpty := by
  rcases conditions with _ | ⟨condition, conditions⟩
  · cases h
    rfl
  · rw [validateConditions] at h
    split at h
    · cases h
    · split at h
      · cases h
      · cases h
        rfl

theorem validateGroups_isEmpty {index : ℕ} {groups groups' : List (AccessPolicy F)}
    (h : validateGroups index groups = .ok groups') : groups'.isEmpty = groups.isEmpty := by
  rcases groups with _ | ⟨group, groups⟩
  · cases h
    rfl
  · rw [validateGroups] at h
    split at h
    · cases h
    · split at h
      · cases h
      · cases h
        rfl

theorem of_mem_validateGroups {index : ℕ} {groups groups' : List (AccessPolicy F)}
    (h : validateGroups index groups = .ok groups') {group' : AccessPolicy F}
    (hgroup : group' ∈ groups') : ∃ group ∈ groups, validateAccessPolicy group = .ok group' := by
  induction groups generalizing index groups' with
  | nil =>
    cases h
    cases hgroup
  | cons group groups ih =>
    rw [validateGroups] at h
    split at h
    · cases h
    · next first hfirst =>
      split at h
      · cases h
      · next rest hrest =>
        cases h
        rcases List.mem_cons.mp hgroup with rfl | hgroup
        · exact ⟨group, List.mem_cons_self, hfirst⟩
        · obtain ⟨g, hg, hok⟩ := ih hrest hgroup
          exact ⟨g, List.mem_cons_of_mem group hg, hok⟩

/-- **What is accepted is validated.** -/
theorem validated_of_validate {p p' : AccessPolicy F} (h : validateAccessPolicy p = .ok p') :
    Validated p' := by
  induction p using AccessPolicy.induct generalizing p' with
  | mk logic conditions groups ih =>
    rw [validateAccessPolicy] at h
    generalize normalizeLogic logic = logic at h
    split at h
    · cases h
    · next hlogic =>
      split at h
      · cases h
      · next hempty =>
        split at h
        · cases h
        · next conditions' hconditions =>
          split at h
          · cases h
          · next groups' hgroups =>
            cases h
            refine .mk (by simpa [or_iff_not_imp_left] using hlogic) ?_ fun group hgroup => ?_
            · rw [validateConditions_isEmpty hconditions, validateGroups_isEmpty hgroups]
              exact Bool.eq_false_iff.mpr hempty
            · obtain ⟨g, hg, hok⟩ := of_mem_validateGroups hgroups hgroup
              exact ih g hg hok

section Missing

variable {go} [Preorder F] [DecidableLT F]

theorem compareAny_pos_iff (left right : Value F) :
    0 < compareAny go left right ↔
      match toFloat go left, toFloat go right with
      | some lf, some rf => rf < lf
      | _, _ => textOf go right < textOf go left := by
  rw [compareAny]
  split
  · next lf rf _ _ =>
    split_ifs with hlt hgt
    · exact iff_of_false (by decide) hlt.asymm
    · exact iff_of_true (by decide) hgt
    · exact iff_of_false (by decide) hgt
  · dsimp only
    split_ifs with hlt hgt
    · exact iff_of_false (by decide) hlt.asymm
    · exact iff_of_true (by decide) hgt
    · exact iff_of_false (by decide) hgt

omit [Preorder F] [DecidableLT F] in
theorem textOf_nil : textOf go .nil = "<nil>" := by
  show trimSpace "<nil>" = "<nil>"
  decide

/-- The comparison with `nil` is one of texts. -/
theorem compareAny_nil (v : Value F) :
    compareAny go .nil v =
      if "<nil>" < textOf go v then -1 else if textOf go v < "<nil>" then 1 else 0 := by
  rw [compareAny, textOf_nil]
  rfl

theorem compareAny_nil_cases (v : Value F) :
    ("<nil>" < textOf go v ∧ compareAny go .nil v = -1) ∨
      (textOf go v = "<nil>" ∧ compareAny go .nil v = 0) ∨
      (textOf go v < "<nil>" ∧ compareAny go .nil v = 1) := by
  rw [compareAny_nil]
  rcases lt_trichotomy "<nil>" (textOf go v) with hlt | heq | hgt
  · exact Or.inl ⟨hlt, if_pos hlt⟩
  · rw [← heq]
    exact Or.inr (Or.inl ⟨rfl, by rw [if_neg (lt_irrefl _), if_neg (lt_irrefl _)]⟩)
  · exact Or.inr (Or.inr ⟨hgt, by rw [if_neg hgt.asymm, if_pos hgt]⟩)

theorem compareAny_nil_eq_zero (v : Value F) :
    compareAny go .nil v = 0 ↔ textOf go v = "<nil>" := by
  rcases @compareAny_nil_cases F go _ _ v with ⟨h, hc⟩ | ⟨h, hc⟩ | ⟨h, hc⟩
  · exact iff_of_false (by rw [hc]; decide) h.ne'
  · exact iff_of_true hc h
  · exact iff_of_false (by rw [hc]; decide) h.ne

variable {body : String}

/-- **A condition on a missing field** is one on the text `<nil>`. -/
theorem evaluateAccessCondition_missing {cond : AccessCondition F}
    (hop : cond.op ∈ closedOps) (hmissing : go.get body cond.field = none) :
    (evaluateAccessCondition go body cond).1 = cond.holdsOfNil go := by
  obtain ⟨field, op, value⟩ := cond
  dsimp only at hop hmissing
  have hcurrent : gjsonResultToValue (none : Option (Json F)) = .nil := rfl
  have hcases := @compareAny_nil_cases F go _ _ value
  simp only [closedOps, List.mem_cons, List.not_mem_nil, or_false] at hop
  rcases hop with rfl | rfl | rfl | rfl | rfl | rfl | rfl | rfl
  all_goals
    simp only [evaluateAccessCondition, AccessCondition.holdsOfNil, hmissing, hcurrent,
      decide_eq_decide, compareAny_nil_eq_zero]
  · rfl
  · rcases hcases with ⟨h, hc⟩ | ⟨h, hc⟩ | ⟨h, hc⟩
    · exact iff_of_false (by rw [hc]; decide) h.asymm
    · exact iff_of_false (by rw [hc]; decide) (by rw [h]; exact lt_irrefl _)
    · exact iff_of_true (by rw [hc]; decide) h
  · rcases hcases with ⟨h, hc⟩ | ⟨h, hc⟩ | ⟨h, hc⟩
    · exact iff_of_false (by rw [hc]; decide) h.not_ge
    · exact iff_of_true (by rw [hc]) h.le
    · exact iff_of_true (by rw [hc]; decide) h.le
  · rcases hcases with ⟨h, hc⟩ | ⟨h, hc⟩ | ⟨h, hc⟩
    · exact iff_of_true (by rw [hc]; decide) h
    · exact iff_of_false (by rw [hc]; decide) (by rw [h]; exact lt_irrefl _)
    · exact iff_of_false (by rw [hc]; decide) h.asymm
  · rcases hcases with ⟨h, hc⟩ | ⟨h, hc⟩ | ⟨h, hc⟩
    · exact iff_of_true (by rw [hc]; decide) h.le
    · exact iff_of_true (by rw [hc]) h.ge
    · exact iff_of_false (by rw [hc]; decide) h.not_ge
  · cases value with
    | list items => simp only [valueInSlice, compareAny_nil_eq_zero]
    | _ => rfl
  · rfl

/-! ### Policies on missing fields -/

theorem orConditions_missing {conditions : List (AccessCondition F)}
    (hops : ∀ cond ∈ conditions, cond.op ∈ closedOps)
    (hmissing : ∀ cond ∈ conditions, go.get body cond.field = none)
    (firstFailure : Option (AccessPolicyFailure F)) :
    (orConditions go body conditions firstFailure).1 =
      conditions.any (AccessCondition.holdsOfNil go) := by
  induction conditions generalizing firstFailure with
  | nil => rfl
  | cons cond conditions ih =>
    rw [List.forall_mem_cons] at hops hmissing
    have hcond := evaluateAccessCondition_missing hops.1 hmissing.1
    rw [orConditions, List.any_cons, ← hcond]
    rcases evaluateAccessCondition go body cond with ⟨ok, failure⟩
    cases ok
    · exact ih hops.2 hmissing.2 _
    · rfl

theorem andConditions_missing {conditions : List (AccessCondition F)}
    (hops : ∀ cond ∈ conditions, cond.op ∈ closedOps)
    (hmissing : ∀ cond ∈ conditions, go.get body cond.field = none) :
    (andConditions go body conditions).1 = conditions.all (AccessCondition.holdsOfNil go) := by
  induction conditions with
  | nil => rfl
  | cons cond conditions ih =>
    rw [List.forall_mem_cons] at hops hmissing
    have hcond := evaluateAccessCondition_missing hops.1 hmissing.1
    rw [andConditions, List.all_cons, ← hcond]
    rcases evaluateAccessCondition go body cond with ⟨ok, failure⟩
    cases ok
    · rfl
    · exact ih hops.2 hmissing.2

variable {groups : List (AccessPolicy F)}

theorem orGroups_eq
    (h : ∀ group ∈ groups, (evaluateAccessPolicy go body group).1 = group.holdsOfNil go)
    (firstFailure : Option (AccessPolicyFailure F)) :
    (orGroups go body groups firstFailure).1 = AccessPolicy.anyHoldsOfNil go groups := by
  induction groups generalizing firstFailure with
  | nil => rfl
  | cons group groups ih =>
    rw [List.forall_mem_cons] at h
    rw [orGroups, AccessPolicy.anyHoldsOfNil, ← h.1]
    rcases evaluateAccessPolicy go body group with ⟨ok, failure⟩
    cases ok
    · exact ih h.2 _
    · rfl

theorem andGroups_eq
    (h : ∀ group ∈ groups, (evaluateAccessPolicy go body group).1 = group.holdsOfNil go) :
    (andGroups go body groups).1 = AccessPolicy.allHoldOfNil go groups := by
  induction groups with
  | nil => rfl
  | cons group groups ih =>
    rw [List.forall_mem_cons] at h
    rw [andGroups, AccessPolicy.allHoldOfNil, ← h.1]
    rcases evaluateAccessPolicy go body group with ⟨ok, failure⟩
    cases ok
    · rfl
    · exact ih h.2

omit [Preorder F] [DecidableLT F] in
theorem mem_conditionsOfAll {cond : AccessCondition F} :
    cond ∈ AccessPolicy.conditionsOfAll groups ↔ ∃ group ∈ groups, cond ∈ group.allConditions := by
  induction groups with
  | nil => simp [AccessPolicy.conditionsOfAll]
  | cons group groups ih => simp [AccessPolicy.conditionsOfAll, ih]

theorem normalizeLogic_and : normalizeLogic "and" = "and" := by decide

theorem normalizeLogic_or : normalizeLogic "or" = "or" := by decide

/-- **A policy on a body without its fields** is the policy on the text `<nil>`. -/
theorem evaluateAccessPolicy_missing {policy : AccessPolicy F}
    (hvalid : Validated policy) (hops : ∀ cond ∈ policy.allConditions, cond.op ∈ closedOps)
    (hmissing : ∀ cond ∈ policy.allConditions, go.get body cond.field = none) :
    (evaluateAccessPolicy go body policy).1 = policy.holdsOfNil go := by
  induction policy using AccessPolicy.induct with
  | mk logic conditions groups ih =>
    obtain ⟨hlogic, hempty, hgroups⟩ := hvalid
    rw [AccessPolicy.allConditions, List.forall_mem_append] at hops hmissing
    have hgroup (group : AccessPolicy F) (hmem : group ∈ groups) :
        (evaluateAccessPolicy go body group).1 = group.holdsOfNil go :=
      ih group hmem (hgroups group hmem)
        (fun cond hcond => hops.2 cond (mem_conditionsOfAll.mpr ⟨group, hmem, hcond⟩))
        fun cond hcond => hmissing.2 cond (mem_conditionsOfAll.mpr ⟨group, hmem, hcond⟩)
    rw [evaluateAccessPolicy, AccessPolicy.holdsOfNil, hempty, if_neg Bool.false_ne_true]
    rcases hlogic with rfl | rfl
    · have hand := andConditions_missing hops.1 hmissing.1
      rw [normalizeLogic_and, if_neg (by decide), if_neg (by decide), ← hand]
      rcases andConditions go body conditions with ⟨ok, failure⟩
      cases ok
      · rfl
      · exact andGroups_eq hgroup
    · have hor := orConditions_missing hops.1 hmissing.1 none
      rw [normalizeLogic_or, if_pos rfl, if_pos rfl, ← hor]
      rcases orConditions go body conditions none with ⟨ok, failure⟩
      cases ok
      · exact orGroups_eq hgroup failure
      · rfl

/-! ### Comparisons as an order -/

/-- **Two of three values are numbers, and their order is not that of the texts**: then
`x > a` and `a > b`, but not `x > b`. -/
def Crosses (go : Go F (AccessPolicy F)) (x a b : Value F) : Prop :=
  match toFloat go x, toFloat go a, toFloat go b with
  | some fx, some fa, none =>
    fa < fx ∧ textOf go b < textOf go a ∧ ¬textOf go b < textOf go x
  | some fx, none, some fb =>
    textOf go a < textOf go x ∧ textOf go b < textOf go a ∧ ¬fb < fx
  | none, some fa, some fb =>
    textOf go a < textOf go x ∧ fb < fa ∧ ¬textOf go b < textOf go x
  | _, _, _ => False

/-- **When `compareAny` is transitive.** -/
theorem compareAny_trans_iff (x a b : Value F) :
    (0 < compareAny go x a → 0 < compareAny go a b → 0 < compareAny go x b) ↔
      ¬Crosses go x a b := by
  rw [compareAny_pos_iff, compareAny_pos_iff, compareAny_pos_iff, Crosses]
  rcases toFloat go x with _ | fx <;> rcases toFloat go a with _ | fa <;>
    rcases toFloat go b with _ | fb <;> dsimp only
  · exact iff_of_true (fun hxa hab => hab.trans hxa) not_false
  · exact iff_of_true (fun hxa hab => hab.trans hxa) not_false
  · exact iff_of_true (fun hxa hab => hab.trans hxa) not_false
  · rw [not_and, not_and, not_not]
  · exact iff_of_true (fun hxa hab => hab.trans hxa) not_false
  · rw [not_and, not_and, not_not]
  · rw [not_and, not_and, not_not]
  · exact iff_of_true (fun hxa hab => hab.trans hxa) not_false

/-- Comparing as less is comparing as greater the other way. -/
theorem compareAny_neg_iff (left right : Value F) :
    compareAny go left right < 0 ↔ 0 < compareAny go right left := by
  rw [compareAny_pos_iff, compareAny]
  rcases toFloat go left with _ | lf <;> rcases toFloat go right with _ | rf <;> dsimp only <;>
    split_ifs with hlt hgt
  all_goals simp [hlt]

/-- If `gt a` holds and `a` is greater than `b`, then `gt b` holds. -/
def GtLaw (go : Go F (AccessPolicy F)) (body field : String) (a b : Value F) : Prop :=
  (evaluateAccessCondition go body ⟨field, "gt", a⟩).1 = true → 0 < compareAny go a b →
    (evaluateAccessCondition go body ⟨field, "gt", b⟩).1 = true

/-- If `lt a` holds and `a` is less than `b`, then `lt b` holds. -/
def LtLaw (go : Go F (AccessPolicy F)) (body field : String) (a b : Value F) : Prop :=
  (evaluateAccessCondition go body ⟨field, "lt", a⟩).1 = true → compareAny go a b < 0 →
    (evaluateAccessCondition go body ⟨field, "lt", b⟩).1 = true

theorem gtLaw_iff (body field : String) (a b : Value F) :
    GtLaw go body field a b ↔ ¬Crosses go (gjsonResultToValue (go.get body field)) a b := by
  rw [← compareAny_trans_iff, GtLaw]
  simp only [evaluateAccessCondition, decide_eq_true_iff]

theorem ltLaw_iff (body field : String) (a b : Value F) :
    LtLaw go body field a b ↔ ¬Crosses go b a (gjsonResultToValue (go.get body field)) := by
  rw [← compareAny_trans_iff, LtLaw]
  simp only [evaluateAccessCondition, decide_eq_true_iff, compareAny_neg_iff]
  exact ⟨fun h hba hax => h hax hba, fun h hax hba => h hba hax⟩

/-- **When access policies fail closed**: a policy denies a body without its fields unless it
holds of the text `<nil>`, and the conditions are monotone but for a field and two values of
which two are numbers in an order that is not that of the texts. -/
theorem accessPolicy_iff {raw : String} {policy : AccessPolicy F}
    (haccepted : parseAccessPolicy go raw = .ok policy)
    (hops : ∀ cond ∈ policy.allConditions, cond.op ∈ closedOps) {body : String}
    (hmissing : ∀ cond ∈ policy.allConditions, go.get body cond.field = none)
    (body' field : String) (a b : Value F) :
    ((evaluateAccessPolicy go body policy).1 = false ↔ policy.holdsOfNil go = false) ∧
      (GtLaw go body' field a b ↔
        ¬Crosses go (gjsonResultToValue (go.get body' field)) a b) ∧
      (LtLaw go body' field a b ↔
        ¬Crosses go b a (gjsonResultToValue (go.get body' field))) := by
  have hvalid : Validated policy := by
    rw [parseAccessPolicy] at haccepted
    split at haccepted
    · cases haccepted
    · exact validated_of_validate haccepted
  refine ⟨?_, gtLaw_iff body' field a b, ltLaw_iff body' field a b⟩
  rw [evaluateAccessPolicy_missing hvalid hops hmissing]

end Missing

end Evaluation

/-! ### Two policies -/

/-- Whole numbers, a body with the level `9`, and one policy with one condition. -/
def oneCondition (cond : AccessCondition ℤ) : Go ℤ (AccessPolicy ℤ) where
  parseFloat := atoi
  formatFloat n := if n = 2 then "2" else if n = 9 then "9" else "10"
  get body field :=
    if body = "\x7b\"level\":9\x7d" ∧ field = "level" then some (.number 9) else none
  unmarshal _ := .ok (.mk "" [cond] [])

theorem parse_oneCondition {cond : AccessCondition ℤ} (hfield : trimSpace cond.field = cond.field)
    (hne : cond.field ≠ "") (hop : normalizePolicyOp cond.op = cond.op)
    (hsupported : cond.op ∈ supportedAccessPolicyOps)
    (hlist : ¬(cond.op ∈ ["in", "not_in"] ∧ ¬cond.value.isList)) (raw : String) :
    parseAccessPolicy (oneCondition cond) raw = .ok (.mk "and" [cond] []) := by
  have hvalid : validateAccessCondition cond 0 = .ok cond := by
    rw [validateAccessCondition, hfield, if_neg hne, hop, if_neg (not_not.mpr hsupported),
      if_neg hlist]
  have hlogic : normalizeLogic "" = "and" := by decide
  show validateAccessPolicy (.mk "" [cond] []) = _
  rw [validateAccessPolicy, hlogic, if_neg (by decide), if_neg (by simp), validateConditions,
    hvalid]
  rfl

/-- A role among some that are allowed: missing, it is none of them. And the level `9` is above
`2`, which is above `1`. -/
theorem accessPolicy_in :
    (evaluateAccessPolicy (oneCondition ⟨"role", "in", .list [.string "admin"]⟩) "\x7b\x7d"
        (.mk "and" [⟨"role", "in", .list [.string "admin"]⟩] [])).1 = false ∧
      GtLaw (oneCondition ⟨"role", "in", .list [.string "admin"]⟩) "\x7b\"level\":9\x7d" "level"
        (.float 2) (.float 1) ∧
      (evaluateAccessCondition (oneCondition ⟨"role", "in", .list [.string "admin"]⟩)
        "\x7b\"level\":9\x7d" ⟨"level", "gt", .float 2⟩).1 = true ∧
      0 < compareAny (oneCondition ⟨"role", "in", .list [.string "admin"]⟩) (.float 2)
        (.float 1) :=
  have h := @accessPolicy_iff ℤ (oneCondition ⟨"role", "in", .list [.string "admin"]⟩) _ _ "" _
    (parse_oneCondition (by decide) (by decide) (by decide) (by decide) (by decide) "")
    (by simp [AccessPolicy.allConditions, AccessPolicy.conditionsOfAll, closedOps])
    "\x7b\x7d"
    (by simp [AccessPolicy.allConditions, AccessPolicy.conditionsOfAll, oneCondition])
    "\x7b\"level\":9\x7d" "level" (.float 2) (.float 1)
  ⟨h.1.mpr (by decide), h.2.1.mpr (by
    simp [Crosses, toFloat, oneCondition, gjsonResultToValue, Json.toValue]), by decide, by decide⟩

/-- A level above `2`: missing, it is `<nil>`, and above `2`. And the level `9` is above the
text `10a`, which is above `10`. -/
theorem not_accessPolicy_gt :
    ¬((parseAccessPolicy (oneCondition ⟨"level", "gt", .float 2⟩) "" =
            .ok (.mk "and" [⟨"level", "gt", .float 2⟩] []) →
          (evaluateAccessPolicy (oneCondition ⟨"level", "gt", .float 2⟩) "\x7b\x7d"
            (.mk "and" [⟨"level", "gt", .float 2⟩] [])).1 = false) ∧
        GtLaw (oneCondition ⟨"level", "gt", .float 2⟩) "\x7b\"level\":9\x7d" "level"
          (.string "10a") (.float 10)) := by
  rintro ⟨h, -⟩
  exact absurd (h (parse_oneCondition (by decide) (by decide) (by decide) (by decide)
    (by decide) "")) (by decide)

end NewApiPool.OAuth
