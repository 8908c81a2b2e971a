import Mathlib.Data.Rat.Defs
import NewApiPool.Lib.Backtrack
import NewApiPool.Lib.JsText

/-!
# The tiers of the price editor

`generateExprFromVisualConfig` writes the tiers of the editor as a billing expression, and
`tryParseVisualConfig` reads an expression with regular expressions. One of its two ways ends with
a check: what would be written for the tiers that were read is the expression, up to white space.
The other one, for an expression of one tier, has no such check.

Numbers of JavaScript are a parameter (`Numbers`). A field that is missing, `null` or the empty
text is `missing`, and `Number` of a text that is no numeral is `nan`.
-/

namespace NewApiPool.TierEditor

open JsText Backtrack

abbrev Text := List Char

/-! ### The data of the editor -/

inductive ConditionVar
  | len
  | p
  | c
deriving DecidableEq, Repr

inductive Op
  | lt
  | le
  | gt
  | ge
deriving DecidableEq, Repr

/-- The entries of `BILLING_CACHE_VAR_MAP`, each a variable and its field of a tier. -/
inductive CacheVar
  | cr
  | cc
  | cc1h
  | img
  | img_o
  | ai
  | ao
deriving DecidableEq, Repr

inductive CacheMode
  | timed
  | generic
deriving DecidableEq, Repr

inductive Value (ν : Type)
  | missing
  | nan
  | num (n : ν)
deriving DecidableEq, Repr

structure Condition (ν : Type) where
  var : Option ConditionVar
  op : Option Op
  value : Value ν
deriving DecidableEq, Repr

structure Tier (ν : Type) where
  conditions : List (Condition ν)
  input_unit_cost : Value ν
  output_unit_cost : Value ν
  /-- The fields of `BILLING_CACHE_VAR_MAP`. -/
  cost : CacheVar → Value ν
  label : Text
  cache_mode : Option CacheMode

structure Config (ν : Type) where
  tiers : List (Tier ν)

/-- The numbers of JavaScript, with exact values. -/
structure Numbers (ν : Type) where
  zero : ν
  value : ν → ℚ
  value_inj : ∀ m n, value m = value n → m = n
  value_zero : value zero = 0
  /-- `Number(text)`, if it is not `NaN` -/
  number : Text → Option ν
  /-- `String(n)` -/
  print : ν → Text
  number_print : ∀ n, number (print n) = some n
  print_ne_nil : ∀ n, print n ≠ []
  print_chars : ∀ n, ∀ c ∈ print n, c.isDigit = true ∨ c ∈ ['.', 'e', 'E', '+', '-']
  print_natural : ∀ n, ∀ k : ℕ, value n = k → '-' ∉ print n

section Editor

variable {ν : Type} [DecidableEq ν] (js : Numbers ν)

def ConditionVar.text : ConditionVar → Text
  | .len => "len".toList
  | .p => "p".toList
  | .c => "c".toList

def Op.text : Op → Text
  | .lt => "<".toList
  | .le => "<=".toList
  | .gt => ">".toList
  | .ge => ">=".toList

def CacheVar.text : CacheVar → Text
  | .cr => "cr".toList
  | .cc => "cc".toList
  | .cc1h => "cc1h".toList
  | .img => "img".toList
  | .img_o => "img_o".toList
  | .ai => "ai".toList
  | .ao => "ao".toList

/-- `BILLING_CACHE_VAR_MAP` -/
def cacheVarMap : List CacheVar := [.cr, .cc, .cc1h, .img, .img_o, .ai, .ao]

/-! ### Writing -/

/-- `Number(value) || 0` -/
def Value.amount : Value ν → ν
  | .num n => n
  | .missing | .nan => js.zero

/-- `${c.var} ${c.op} ${c.value}`, if all of them are there. -/
def Condition.text (c : Condition ν) : Option Text :=
  match c.var, c.op, c.value with
  | some v, some op, .num n => some (v.text ++ " ".toList ++ op.text ++ " ".toList ++ js.print n)
  | some v, some op, .nan => some (v.text ++ " ".toList ++ op.text ++ " NaN".toList)
  | _, _, _ => none

def buildConditionStr (conditions : List (Condition ν)) : Text :=
  " && ".toList.intercalate (conditions.filterMap (Condition.text js))

def getTierCacheMode (tier : Tier ν) : CacheMode :=
  match tier.cache_mode with
  | some mode => mode
  | none => if 0 < js.value ((tier.cost .cc1h).amount js) then .timed else .generic

def normalizeVisualTier (tier : Tier ν) : Tier ν :=
  { tier with cache_mode := some (getTierCacheMode js tier) }

def createDefaultVisualConfig : Config ν where
  tiers := [normalizeVisualTier js {
    conditions := []
    input_unit_cost := .num js.zero
    output_unit_cost := .num js.zero
    cost := fun _ => .missing
    label := "base".toList
    cache_mode := some .generic }]

def normalizeVisualConfig (config : Config ν) : Config ν :=
  if config.tiers.isEmpty then createDefaultVisualConfig js
  else { tiers := config.tiers.map (normalizeVisualTier js) }

/-- A summand: a variable times its price. -/
def term (var : Text) (cost : ν) : Text := var ++ " * ".toList ++ js.print cost

def buildTierBodyExpr (tier : Tier ν) : Text :=
  " + ".toList.intercalate (
    term js "p".toList (tier.input_unit_cost.amount js) ::
    term js "c".toList (tier.output_unit_cost.amount js) ::
    (cacheVarMap.filter fun cv => (tier.cost cv).amount js ≠ js.zero).map fun cv =>
      term js cv.text ((tier.cost cv).amount js))

/-- `tier("…", …)` -/
def tierExpr (label body : Text) : Text :=
  "tier(\"".toList ++ label ++ "\", ".toList ++ body ++ ")".toList

/-- The label of a tier of several. -/
def defaultLabel (i : ℕ) : Text := "第".toList ++ (toString (i + 1)).toList ++ "档".toList

/-- A tier of several, at index `i`. -/
def tierPart (count i : ℕ) (t : Tier ν) : Text :=
  let label := if t.label.isEmpty then defaultLabel i else t.label
  let body := tierExpr label (buildTierBodyExpr js t)
  let cond := buildConditionStr js t.conditions
  if i < count - 1 ∧ cond ≠ [] then cond ++ " ? ".toList ++ body else body

def generateExprFromVisualConfig (config : Config ν) : Text :=
  match config.tiers with
  | [] => "p * 0 + c * 0".toList
  | [t] =>
    let label := if t.label.isEmpty then "default".toList else t.label
    let body := tierExpr label (buildTierBodyExpr js t)
    let cond := buildConditionStr js t.conditions
    if cond ≠ [] then cond ++ " ? ".toList ++ body ++ " : p * 0 + c * 0".toList else body
  | tiers => " : ".toList.intercalate (tiers.mapIdx (tierPart js tiers.length))

/-! ### Reading -/

/-- `[\d.eE+-]` -/
def isNumberChar (c : Char) : Bool := c.isDigit || ['.', 'e', 'E', '+', '-'].contains c

/-- `[\d.eE+]` -/
def isCountChar (c : Char) : Bool := c.isDigit || ['.', 'e', 'E', '+'].contains c

/-- `\s*` -/
def spaces : Matcher Text := many isWhiteSpace

/-- `v\s*\*\s*([\d.eE+-]+)` -/
def product (var : Text) : Matcher Text := do
  let _ ← lit var
  let _ ← spaces
  let _ ← lit "*".toList
  let _ ← spaces
  many1 isNumberChar

/-- `\s*\+\s*v\s*\*\s*([\d.eE+-]+)` -/
def summand (var : Text) : Matcher Text := do
  let _ ← spaces
  let _ ← lit "+".toList
  let _ ← spaces
  product var

/-- `(?:\s*\+\s*v\s*\*\s*([\d.eE+-]+))?` for one variable after the other: those that are there. -/
def optCacheStr : List CacheVar → Matcher (List (CacheVar × Text))
  | [] => pure []
  | cv :: cvs => do
    let x ← optional (summand cv.text)
    let xs ← optCacheStr cvs
    pure (x.toList.map (Prod.mk cv) ++ xs)

/-- The numbers that are captured in a body. -/
structure Body where
  input : Text
  output : Text
  cache : List (CacheVar × Text)
deriving DecidableEq, Repr

def bodyPat : Matcher Body := do
  let x ← product "p".toList
  let y ← summand "c".toList
  let zs ← optCacheStr cacheVarMap
  pure ⟨x, y, zs⟩

/-- `tier\("([^"]*)",\s*body\)` -/
def tierPat : Matcher (Text × Body) := do
  let _ ← lit "tier(\"".toList
  let label ← many (· ≠ '"')
  let _ ← lit "\",".toList
  let _ ← spaces
  let body ← bodyPat
  let _ ← lit ")".toList
  pure (label, body)

/-- `(p|c|len)\s*(<|<=|>|>=)\s*([\d.eE+]+)` -/
def condition : Matcher (ConditionVar × Op × Text) := do
  let v ← oneOf ConditionVar.text [.p, .c, .len]
  let _ ← spaces
  let op ← oneOf Op.text [.lt, .le, .gt, .ge]
  let _ ← spaces
  let n ← many1 isCountChar
  pure (v, op, n)

/-- `\s*&&\s*` -/
def andSign : Matcher Unit := do
  let _ ← spaces
  let _ ← lit "&&".toList
  let _ ← spaces
  pure ()

def condGroup : Matcher Text := captured do
  let first ← condition
  let rest ← star do
    let _ ← andSign
    condition
  pure (first :: rest)

def tierRe : Matcher (Option Text × Text × Body) := do
  let cond ← optional do
    let cond ← condGroup
    let _ ← spaces
    let _ ← lit "?".toList
    let _ ← spaces
    pure cond
  let tier ← tierPat
  pure (cond, tier)

/-- `Number(text)` as a field. -/
def numberOf (text : Text) : Value ν := ((js.number text).map .num).getD .nan

/-- The conditions of `condStr`, which is empty if there are none. -/
def parseConditions (condStr : Text) : List (Condition ν) :=
  if condStr.isEmpty then []
  else (split andSign condStr.length condStr).filterMap fun cp =>
    (matchWhole condition (trim cp)).map fun cm => ⟨some cm.1, some cm.2.1, numberOf js cm.2.2⟩

def readTier (conditions : List (Condition ν)) (label : Text) (body : Body) : Tier ν where
  conditions := conditions
  input_unit_cost := numberOf js body.input
  output_unit_cost := numberOf js body.output
  cost := fun cv => ((body.cache.lookup cv).map (numberOf js)).getD .missing
  label := label
  cache_mode := none

/-- `/^v\d+:([\s\S]*)$/` -/
def versionMatch (exprStr : Text) : Option Text :=
  matchWhole (do
    let _ ← lit "v".toList
    let _ ← many1 Char.isDigit
    let _ ← lit ":".toList
    many fun _ => true) exprStr

/-- `s.replace(/\s+/g, '')` -/
def squash (s : Text) : Text := s.filter fun c => !isWhiteSpace c

/-- An expression without its version. -/
def parseTiers (exprStr : Text) : Option (Config ν) :=
  match matchWhole tierPat exprStr with
  | some simple => some (normalizeVisualConfig js
      ⟨[normalizeVisualTier js (readTier js [] simple.1 simple.2)]⟩)
  | none =>
    let tiers := (execAll tierRe exprStr.length exprStr).map fun found =>
      normalizeVisualTier js
        (readTier js (parseConditions js (found.2.1.1.getD [])) found.2.1.2.1 found.2.1.2.2)
    if tiers.isEmpty then none
    else
      let cfg := normalizeVisualConfig js ⟨tiers⟩
      if squash (generateExprFromVisualConfig js cfg) = squash exprStr then some cfg else none

def tryParseVisualConfig (exprStr : Text) : Option (Config ν) :=
  if exprStr.isEmpty then none else parseTiers js ((versionMatch exprStr).getD exprStr)

end Editor

end NewApiPool.TierEditor
