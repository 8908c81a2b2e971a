import NewApiPool.Lib.JsText
import NewApiPool.Lib.TopLevel

/-!
# The request rules of the price editor

`buildRequestRuleExpr` writes the groups of rules of the editor as an expression, a product of
factors `(condition && condition ? multiplier : 1)`, and `tryParseRequestRuleExpr` reads an
expression with regular expressions, after it was cut at the ` * ` and the ` && ` outside of the
parentheses.

A regular expression is a function that takes what it matches from the front of a text, since
none of them has to go back. Fields that are missing or `null` are the empty text that
`normalizeCondition` makes of them.
-/

namespace NewApiPool.RequestRules

open JsText

abbrev Text := List Char

/-! ### Conditions -/

inductive Source
  | param
  | header
deriving DecidableEq, Repr

inductive MatchMode
  | eq
  | contains
  | gt
  | gte
  | lt
  | lte
  | present
  | range
deriving DecidableEq, Repr

inductive TimeFunc
  | hour
  | minute
  | weekday
  | month
  | day
deriving DecidableEq, Repr

inductive Condition
  | request (source : Source) (path : Text) (mode : MatchMode) (value : Text)
  | time (timeFunc : TimeFunc) (timezone : Text) (mode : MatchMode)
      (value rangeStart rangeEnd : Text)
deriving DecidableEq, Repr

structure RuleGroup where
  conditions : List Condition
  multiplier : Text
deriving DecidableEq, Repr

/-- `getRequestRuleMatchOptions` of a source besides the time. -/
def requestMatchOptions : Source → List MatchMode
  | .header => [.eq, .contains, .present]
  | .param => [.eq, .contains, .present, .gt, .gte, .lt, .lte]

/-- `getRequestRuleMatchOptions` of the time. -/
def timeMatchOptions : List MatchMode := [.eq, .gte, .lt, .range]

def normalizeCondition : Condition → Condition
  | .request source path mode value =>
    .request source path (if mode ∈ requestMatchOptions source then mode else .eq) value
  | .time timeFunc timezone mode value rangeStart rangeEnd =>
    .time timeFunc (if timezone = [] then "Asia/Shanghai".toList else timezone)
      (if mode ∈ timeMatchOptions then mode else .gte) value rangeStart rangeEnd

def RuleGroup.normalize (g : RuleGroup) : RuleGroup :=
  { g with conditions := g.conditions.map normalizeCondition }

/-! ### Numbers -/

/-- `p?` of a regular expression. -/
def dropOptional (p : Char → Bool) : Text → Text
  | [] => []
  | c :: s => if p c then s else c :: s

/-- `(?:[eE][+-]?\d+)?$`. -/
def isExponent : Text → Bool
  | [] => true
  | c :: s =>
    (c == 'e' || c == 'E') &&
      (!(dropOptional (fun c => c == '+' || c == '-') s).isEmpty &&
        (dropOptional (fun c => c == '+' || c == '-') s).all Char.isDigit)

/-- `(?:\d+\.?\d*|\.\d+)(?:[eE][+-]?\d+)?$`. -/
def isUnsigned (s : Text) : Bool :=
  if (s.takeWhile Char.isDigit).isEmpty then
    match s with
    | '.' :: s => !(s.takeWhile Char.isDigit).isEmpty && isExponent (s.dropWhile Char.isDigit)
    | _ => false
  else isExponent ((dropOptional (· == '.') (s.dropWhile Char.isDigit)).dropWhile Char.isDigit)

/-- `NUMERIC_LITERAL_REGEX`. -/
def isNumericLiteral (s : Text) : Bool := isUnsigned (dropOptional (· == '-') s)

/-! ### Building -/

def Source.name : Source → Text
  | .param => "param".toList
  | .header => "header".toList

def TimeFunc.name : TimeFunc → Text
  | .hour => "hour".toList
  | .minute => "minute".toList
  | .weekday => "weekday".toList
  | .month => "month".toList
  | .day => "day".toList

/-- What tells a source that is there. -/
def Source.absent : Source → Text
  | .header => " != \"\"".toList
  | .param => " != nil".toList

/-- The operators of `opMap`. -/
def MatchMode.op : MatchMode → Text
  | .gt => ">".toList
  | .gte => ">=".toList
  | .lt => "<".toList
  | .lte => "<=".toList
  | _ => "==".toList

/-- A call with the literal of a text. -/
def call (name argument : Text) : Text := name ++ ("(".toList ++ (stringify argument ++ ")".toList))

/-- A text that is written as it is. -/
def isBare (s : Text) : Bool :=
  s == "true".toList || s == "false".toList || isNumericLiteral s

def buildExprLiteral (mode : MatchMode) (value : Text) : Text :=
  if mode = .contains then stringify (trim value)
  else if isBare (trim value) then trim value
  else stringify (trim value)

/-- `buildTimeConditionExpr`, for a condition that is normalised. -/
def buildTimeConditionExpr (timeFunc : TimeFunc) (timezone : Text) (mode : MatchMode)
    (value rangeStart rangeEnd : Text) : Text :=
  let fn := call timeFunc.name timezone
  if mode = .range then
    if !isNumericLiteral (trim rangeStart) || !isNumericLiteral (trim rangeEnd) then []
    else fn ++ " >= ".toList ++ trim rangeStart ++ " || ".toList ++ fn ++ " < ".toList ++
      trim rangeEnd
  else if !isNumericLiteral (trim value) then []
  else fn ++ " ".toList ++ mode.op ++ " ".toList ++ trim value

def buildRequestConditionExpr (cond : Condition) : Text :=
  match normalizeCondition cond with
  | .time timeFunc timezone mode value rangeStart rangeEnd =>
    buildTimeConditionExpr timeFunc timezone mode value rangeStart rangeEnd
  | .request source path mode value =>
    if trim path = [] then []
    else
      let sourceExpr := call source.name (trim path)
      match mode with
      | .present => sourceExpr ++ source.absent
      | .contains =>
        match source with
        | .header =>
          "has(".toList ++ sourceExpr ++ ", ".toList ++ buildExprLiteral mode value ++ ")".toList
        | .param =>
          sourceExpr ++ " != nil && has(".toList ++ sourceExpr ++ ", ".toList ++
            buildExprLiteral mode value ++ ")".toList
      | .gt | .gte | .lt | .lte =>
        if !isNumericLiteral (trim value) then []
        else sourceExpr ++ " != nil && ".toList ++ sourceExpr ++ " ".toList ++ mode.op ++
          " ".toList ++ trim value
      | .eq | .range => sourceExpr ++ " == ".toList ++ buildExprLiteral mode value

/-- A condition among others: with parentheses, if there is an ` || ` in it. -/
def wrap (e : Text) : Text :=
  if " || ".toList <:+: e then "(".toList ++ e ++ ")".toList else e

/-- The conditions of a factor. -/
def combine : List Text → Text
  | [e] => e
  | es => " && ".toList.intercalate (es.map wrap)

def buildRuleGroupFactor (group : RuleGroup) : Text :=
  if !isNumericLiteral (trim group.multiplier) then []
  else
    let condExprs := (group.conditions.map buildRequestConditionExpr).filter (!·.isEmpty)
    if condExprs = [] then []
    else "(".toList ++ combine condExprs ++ " ? ".toList ++ trim group.multiplier ++
      " : 1)".toList

def buildRequestRuleExpr (groups : List RuleGroup) : Text :=
  " * ".toList.intercalate ((groups.map buildRuleGroupFactor).filter (!·.isEmpty))

/-! ### Parts of the regular expressions -/

def lit : Text → Text → Option Text
  | [], s => some s
  | _ :: _, [] => none
  | c :: w, d :: s => if c = d then lit w s else none

/-- `[...]+`. -/
def run (p : Char → Bool) (s : Text) : Option (Text × Text) :=
  if (s.takeWhile p).isEmpty then none else some (s.takeWhile p, s.dropWhile p)

/-- `[\d.eE+-]`. -/
def isNumberChar (c : Char) : Bool :=
  c.isDigit || c == '.' || c == 'e' || c == 'E' || c == '+' || c == '-'

/-- `\("([^"]+)"\)`. -/
def argument (s : Text) : Option (Text × Text) := do
  let s ← lit "(\"".toList s
  let (a, s) ← run (· != '"') s
  let s ← lit "\")".toList s
  pure (a, s)

/-- `("(?:[^"\\]|\\.)*")`, without the quotes. -/
def literal (s : Text) : Option (Text × Text) := do
  let s ← lit "\"".toList s
  literalBody s

/-- One of several words. -/
def oneOf {α : Type} (name : α → Text) (xs : List α) (s : Text) : Option (α × Text) :=
  xs.findSome? fun x => (lit (name x) s).map (x, ·)

/-! ### Parsing -/

/-- What `JSON.parse` throws. -/
structure SyntaxError
deriving DecidableEq, Repr

/-- What is returned, which can be `null`, or what is thrown. -/
abbrev Parsed (α : Type) := Except SyntaxError (Option α)

/-- `parseExprLiteral`, with `JSON.parse` for what is neither a boolean nor a number. What `String`
makes of the arrays and the objects that it reads is `composite`. -/
def parseExprLiteral (composite : Text → Option Text) (raw : Text) : Option Text :=
  let text := trim raw
  if isBare text then some text
  else
    match text.head? with
    | some '"' => parseString text
    | some '[' | some '{' => composite text
    -- `null`, or an exception
    | _ => none

def timeFunc : Text → Option (TimeFunc × Text) :=
  oneOf TimeFunc.name [.hour, .minute, .weekday, .month, .day]

def operator (modes : List MatchMode) : Text → Option (MatchMode × Text) :=
  oneOf (fun mode => " ".toList ++ (mode.op ++ " ".toList)) modes

/-- A range, up to what is behind it. -/
def timeRange (closing s : Text) : Option Condition := do
  let (f, s) ← timeFunc s
  let (timezone, s) ← argument s
  let s ← lit " >= ".toList s
  let (rangeStart, s) ← run isNumberChar s
  let s ← lit (" || ".toList ++ (f.name ++ ("(\"".toList ++ (timezone ++ "\") < ".toList)))) s
  let (rangeEnd, s) ← run isNumberChar s
  if s = closing then some (.time f timezone .range [] rangeStart rangeEnd) else none

def timeSimple (s : Text) : Option Condition := do
  let (f, s) ← timeFunc s
  let (timezone, s) ← argument s
  let (mode, s) ← operator [.eq, .gte, .lt] s
  let (value, s) ← run isNumberChar s
  if s = [] then some (.time f timezone mode value [] []) else none

def tryParseTimeCondition (expr : Text) : Option Condition :=
  (timeRange [] expr).or
    (((lit "(".toList expr).bind (timeRange ")".toList)).or (timeSimple expr))

/-- `header("…") != ""` and `param("…") != nil`. -/
def presence (source : Source) (s : Text) : Option Condition := do
  let s ← lit source.name s
  let (path, s) ← argument s
  if s = source.absent then some (.request source path .present []) else none

/-- `JSON.parse` of a literal that was matched. -/
def parseContains (source : Source) (path body : Text) : Parsed Condition :=
  match unescape body with
  | some value => .ok (some (.request source path .contains value))
  | none => .error ⟨⟩

def headerContains (s : Text) : Option (Parsed Condition) := do
  let s ← lit "has(header".toList s
  let (path, s) ← argument s
  let s ← lit ", ".toList s
  let (body, s) ← literal s
  if s = ")".toList then some (parseContains .header path body) else none

def paramContains (s : Text) : Option (Parsed Condition) := do
  let s ← lit "param".toList s
  let (path, s) ← argument s
  let s ← lit " != nil && has(param".toList s
  let (again, s) ← argument s
  let s ← lit ", ".toList s
  let (body, s) ← literal s
  if s = ")".toList ∧ path = again then some (parseContains .param path body) else none

def paramCompare (s : Text) : Option Condition := do
  let s ← lit "param".toList s
  let (path, s) ← argument s
  let s ← lit " != nil && param".toList s
  let (again, s) ← argument s
  let (mode, s) ← operator [.gt, .gte, .lt, .lte] s
  let (value, s) ← run isNumberChar s
  if s = [] ∧ path = again then some (.request .param path mode value) else none

/-- The last regular expression, the dot of which takes all characters but the ends of lines. -/
def equality (composite : Text → Option Text) (s : Text) : Option (Parsed Condition) := do
  let (source, s) ← oneOf Source.name [.param, .header] s
  let (path, s) ← argument s
  let s ← lit " == ".toList s
  if s ≠ [] ∧ s.all (!isLineTerminator ·) then
    some (.ok ((parseExprLiteral composite s).map (.request source path .eq ·)))
  else none

def tryParseRequestCondition (composite : Text → Option Text) (expr : Text) : Parsed Condition :=
  match (tryParseTimeCondition expr).or ((presence .header expr).or (presence .param expr)) with
  | some cond => .ok (some cond)
  | none =>
    ((headerContains expr).or ((paramContains expr).or
      (((paramCompare expr).map (.ok <| some ·)).or (equality composite expr)))).getD (.ok none)

/-- Cut at the separator outside of the parentheses, without what is empty. -/
def splitTopLevel (sep expr : Text) : List Text :=
  ((TopLevel.split sep expr).map trim).filter (!·.isEmpty)

def splitTopLevelMultiply (expr : Text) : List Text := splitTopLevel " * ".toList expr

def splitTopLevelAnd (expr : Text) : List Text := splitTopLevel " && ".toList expr

/-- The loop over the parts, which returns with the first one that is not read. -/
def parseAll {α : Type} (f : Text → Parsed α) : List Text → Parsed (List α)
  | [] => .ok (some [])
  | part :: parts =>
    match f part with
    | .error e => .error e
    | .ok none => .ok none
    | .ok (some x) => (parseAll f parts).map (Option.map (x :: ·))

/-- `/^\((.+) \? ([\d.eE+-]+) : 1\)$/s`. The number is found from the end. -/
def groupFactor (part : Text) : Option (Text × Text) := do
  let s ← lit "(".toList part
  let s ← lit ")1 : ".toList s.reverse
  let (multiplier, s) ← run isNumberChar s
  let s ← lit " ? ".toList s
  if s = [] then none else some (s.reverse, multiplier.reverse)

def tryParseRuleGroupFactor (composite : Text → Option Text) (part : Text) : Parsed RuleGroup :=
  match groupFactor part with
  | none => .ok none
  | some (conditionStr, multiplier) =>
    match parseAll (fun ap => tryParseRequestCondition composite (trim ap))
        (splitTopLevelAnd conditionStr) with
    | .error e => .error e
    | .ok none | .ok (some []) => .ok none
    | .ok (some conditions) => .ok (some ⟨conditions.map normalizeCondition, multiplier⟩)

def tryParseRequestRuleExpr (composite : Text → Option Text) (expr : Text) :
    Parsed (List RuleGroup) :=
  if trim expr = [] then .ok (some [])
  else parseAll (tryParseRuleGroupFactor composite) (splitTopLevelMultiply (trim expr))

/-! ### What is complete, and what is legible -/

/-- A condition that is filled in. -/
def Condition.Complete : Condition → Prop
  | .request source path mode value =>
    path ≠ [] ∧ mode ∈ requestMatchOptions source ∧ (mode ≠ .present → value ≠ []) ∧
      (mode ∈ [.gt, .gte, .lt, .lte] → isNumericLiteral (trim value) = true)
  | .time _ timezone mode value rangeStart rangeEnd =>
    timezone ≠ [] ∧ mode ∈ timeMatchOptions ∧
      if mode = .range then
        isNumericLiteral (trim rangeStart) = true ∧ isNumericLiteral (trim rangeEnd) = true
      else isNumericLiteral (trim value) = true

/-- The groups that the editor is to bring back. -/
def RuleGroup.Complete (g : RuleGroup) : Prop :=
  isNumericLiteral (trim g.multiplier) = true ∧ ∀ c ∈ g.conditions, c.Complete

/-- The texts of a condition stand in the expression as they are, and those its mode has no use
for are empty. -/
def Condition.Legible : Condition → Prop
  | .request _ path mode value =>
    trim path = path ∧ (∀ c ∈ path, isPlain c = true) ∧ trim value = value ∧
      (mode = .present → value = []) ∧
      (mode = .eq → ∀ c ∈ value, c ≠ '\u2028' ∧ c ≠ '\u2029')
  | .time _ timezone mode value rangeStart rangeEnd =>
    (∀ c ∈ timezone, isPlain c = true) ∧ trim value = value ∧ trim rangeStart = rangeStart ∧
      trim rangeEnd = rangeEnd ∧
      if mode = .range then value = [] else rangeStart = [] ∧ rangeEnd = []

def Condition.isRange : Condition → Bool
  | .time _ _ .range _ _ _ => true
  | _ => false

/-- What a condition is in its factor. -/
def RuleGroup.piece (g : RuleGroup) (c : Condition) : Text :=
  if g.conditions.length = 1 then buildRequestConditionExpr c
  else wrap (buildRequestConditionExpr c)

structure RuleGroup.Legible (g : RuleGroup) : Prop where
  multiplier : trim g.multiplier = g.multiplier
  nonempty : g.conditions ≠ []
  conditions : ∀ c ∈ g.conditions, c.Legible
  /-- Only a range is put in parentheses. -/
  bare : g.conditions.length ≠ 1 → ∀ c ∈ g.conditions,
    c.isRange = true ∨ ¬" || ".toList <:+: buildRequestConditionExpr c
  /-- The factor is cut between its conditions, and nowhere else. -/
  splits : TopLevel.Splits " && ".toList (g.conditions.map g.piece)

/-- What comes back: every rule group is legible on its own, and the text of all of them is cut
between two factors only. -/
structure Legible (groups : List RuleGroup) : Prop where
  each : ∀ g ∈ groups, g.Legible
  /-- The expression is cut between its factors, and nowhere else. -/
  splits : TopLevel.Splits " * ".toList (groups.map buildRuleGroupFactor)

end NewApiPool.RequestRules
