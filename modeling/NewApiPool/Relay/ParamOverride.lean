import Mathlib.Data.List.AList
import NewApiPool.Lib.Fallible
import NewApiPool.Lib.GoText

/-!
# The parameter overrides of a channel

The rules a channel has for the requests that are sent to it: members that are set in the body,
and operations, each under conditions. The operations on headers work on the header override
of the context, the others on the body.

The body is of a type `B`, and what `gjson`, `sjson` and the encoder do on it is in `Libs`, as
are the letter case of Unicode and regular expressions.
-/

namespace NewApiPool.Relay

open GoText

/-! ### Values -/

mutual

/-- A decoded value. A number is kept as `%v` prints it. -/
inductive Value
  | nil
  | bool (b : Bool)
  | number (printed : String)
  | string (s : String)
  | list (items : Values)
  | map (members : Members)

inductive Values
  | nil
  | cons (item : Value) (rest : Values)

/-- The members of an object, in the order of their keys. -/
inductive Members
  | nil
  | cons (key : String) (value : Value) (rest : Members)

end

mutual

/-- `fmt.Sprintf` with `%v`. -/
def Value.sprint : Value → String
  | .nil => "<nil>"
  | .bool b => if b then "true" else "false"
  | .number printed => printed
  | .string s => s
  | .list items => "[" ++ " ".intercalate items.sprints ++ "]"
  | .map members => "map[" ++ " ".intercalate members.sprints ++ "]"

def Values.sprints : Values → List String
  | .nil => []
  | .cons item rest => item.sprint :: rest.sprints

def Members.sprints : Members → List String
  | .nil => []
  | .cons key value rest => (key ++ ":" ++ value.sprint) :: rest.sprints

end

def Values.toList : Values → List Value
  | .nil => []
  | .cons item rest => item :: rest.toList

namespace Members

def toList : Members → List (String × Value)
  | .nil => []
  | .cons key value rest => (key, value) :: rest.toList

def get? (members : Members) (key : String) : Option Value := members.toList.lookup key

/-- A member that is a string. -/
def string? (members : Members) (key : String) : Option String :=
  match members.get? key with
  | some (.string s) => some s
  | _ => none

/-- A member that is a `bool`, or `false`. -/
def flag (members : Members) (key : String) : Bool :=
  match members.get? key with
  | some (.bool b) => b
  | _ => false

end Members

/-! ### Rules -/

structure ConditionOperation where
  path : String
  mode : String
  value : Value := .nil
  invert : Bool := false
  passMissingKey : Bool := false

structure ParamOperation where
  path : String := ""
  mode : String
  value : Value := .nil
  keepOrigin : Bool := false
  source : String := ""
  target : String := ""
  conditions : List ConditionOperation := []
  logic : String := "OR"

/-- One condition of a list of them. -/
def parseCondition : Value → Option ConditionOperation
  | .map members =>
    let path := (members.string? "path").getD ""
    let mode := (members.string? "mode").getD ""
    if trimSpace path = "" ∨ trimSpace mode = "" then none
    else some { path, mode, value := (members.get? "value").getD .nil,
                invert := members.flag "invert",
                passMissingKey := members.flag "pass_missing_key" }
  | _ => none

def parseConditionOperations : Value → Option (List ConditionOperation)
  | .map members =>
    let conditions := members.toList.filterMap fun (key, value) =>
      if trimSpace key = "" then none else some { path := trimSpace key, mode := "full", value }
    if conditions.isEmpty then none else some conditions
  | .list items => items.toList.mapM parseCondition
  | _ => none

/-- One operation. It must have a mode, and conditions that are read. -/
def parseOperation : Value → Option ParamOperation
  | .map members => do
    let mode ← members.string? "mode"
    let conditions ← match members.get? "conditions" with
      | none => some []
      | some conditions => parseConditionOperations conditions
    return {
      path := (members.string? "path").getD ""
      mode
      value := (members.get? "value").getD .nil
      keepOrigin := members.flag "keep_origin"
      source := (members.string? "from").getD ""
      target := (members.string? "to").getD ""
      conditions
      logic := (members.string? "logic").getD "OR" }
  | _ => none

def tryParseOperations (paramOverride : Members) : Option (List ParamOperation) :=
  match paramOverride.get? "operations" with
  | some (.list ops) => ops.toList.mapM parseOperation
  | _ => none

/-! ### The context and the libraries -/

/-- A map whose keys are texts. -/
abbrev GoMap (α : Type*) := AList fun _ : String => α

structure LastError where
  statusCode : Int
  message : String
  code : String
  type : String
  skipRetry : Bool

/-- What a rule is told of the attempts before. -/
structure Retry where
  index : ℕ := 0
  lastError : Option LastError := none

/-- The context, but for the headers. No operation changes it. -/
structure Env where
  model : Option String
  upstreamModel : Option String
  originalModel : Option String
  requestPath : Option String
  retry : Retry
  isChannelTest : Bool

/-- The headers of the context: those of the client and the override. -/
structure ContextHeaders where
  request : GoMap String
  override : GoMap String

/-- What the code uses of the libraries. -/
structure Libs (B : Type) where
  toLower : String → String
  /-- ASCII text has the lower case of ASCII -/
  toLower_ascii : ∀ s : String, (∀ c ∈ s.toList, c.toNat < 128) → toLower s = GoText.toLower s
  equalFold : String → String → Bool
  /-- `json.Unmarshal` into a value -/
  decode : String → Option Value
  /-- `regexp.Compile` and `MatchString` -/
  compile : String → Option (String → Bool)
  /-- `checkSingleCondition`, which reads the body and the context as JSON -/
  checkSingleCondition : B → Env → ContextHeaders → ConditionOperation → Except String Bool
  /-- an operation on the body -/
  edit : B → Env → ContextHeaders → ParamOperation → Except String B
  applyOperationsLegacy : B → List (String × Value) → Except String B
  /-- `gjson.Get` and `sjson.Set`, at a path that may count from the end -/
  get : B → String → Option Value
  set : B → String → Value → Except String B

variable {B : Type} (go : Libs B)

/-! ### The headers of the context -/

def normalizeHeaderContextKey (key : String) : String := trimSpace (go.toLower key)

/-- The value of a header: that of the override, or that of the client. -/
def getHeaderValueFromContext (headers : ContextHeaders) (headerName : String) : Option String :=
  let headerName := normalizeHeaderContextKey go headerName
  if headerName = "" then none
  else [headers.override, headers.request].findSome? fun source =>
    ((source.lookup headerName).map trimSpace).filter (· ≠ "")

def splitHeaderListValue (raw : String) : List String :=
  ((split ',' raw).map trimSpace).filter (· ≠ "")

mutual

/-- `parseHeaderReplacementTokens` -/
def Value.replacementTokens : Value → Except String (List String)
  | .nil => .ok []
  | .string raw => .ok (splitHeaderListValue raw)
  | .list items => items.replacementTokens.map List.eraseDups
  | .map _ => .error "header replacement value must be string, array or null"
  | .bool b => .ok [if b then "true" else "false"]
  | .number printed => .ok ([trimSpace printed].filter (· ≠ ""))

def Values.replacementTokens : Values → Except String (List String)
  | .nil => .ok []
  | .cons item rest => do return (← item.replacementTokens) ++ (← rest.replacementTokens)

end

/-- What a mapping makes of one token. -/
def replaceToken (mapping : Members) (keepOnlyDeclared : Bool) (token : String) :
    Except String (List String) :=
  let wildcard := if keepOnlyDeclared then none else mapping.get? "*"
  match (mapping.get? token).or wildcard with
  | some replacement => replacement.replacementTokens
  | none => .ok (if keepOnlyDeclared then [] else [token])

def resolveHeaderOverrideValueByMapping (headers : ContextHeaders) (headerName : String)
    (mapping : Members) : Except String (Option String) := do
  if mapping.toList.isEmpty then throw "header value mapping cannot be empty"
  let appendTokens ← ((mapping.get? "$append").getD .nil).replacementTokens
  let sourceTokens :=
    ((getHeaderValueFromContext go headers headerName).map splitHeaderListValue).getD []
  let replaced ← sourceTokens.mapM (replaceToken mapping (mapping.flag "$keep_only_declared"))
  let resultTokens := (replaced.flatten ++ appendTokens).eraseDups
  return if resultTokens.isEmpty then none else some (",".intercalate resultTokens)

/-- `resolveHeaderOverrideValue`: `none` deletes the header. -/
def resolveHeaderOverrideValue (headers : ContextHeaders) (headerName : String) :
    Value → Except String (Option String)
  | .nil => .error "header value is required"
  | .map mapping => resolveHeaderOverrideValueByMapping go headers headerName mapping
  | value => .ok (Option.some (trimSpace value.sprint) |>.filter (· ≠ ""))

def setHeaderOverrideInContext (headers : ContextHeaders) (headerName : String) (value : Value)
    (keepOrigin : Bool) : Except String ContextHeaders := do
  let headerName := normalizeHeaderContextKey go headerName
  if headerName = "" then throw "header name is required"
  if keepOrigin ∧ ((headers.override.lookup headerName).map trimSpace).any (· ≠ "") then
    return headers
  match ← resolveHeaderOverrideValue go headers headerName value with
  | none => return { headers with override := headers.override.erase headerName }
  | some headerValue =>
    return { headers with override := headers.override.insert headerName headerValue }

def deleteHeaderOverrideInContext (headers : ContextHeaders) (headerName : String) :
    Except String ContextHeaders := do
  let headerName := normalizeHeaderContextKey go headerName
  if headerName = "" then throw "header name is required"
  return { headers with override := headers.override.erase headerName }

/-- `copyHeaderInContext`: `none` is the error `errSourceHeaderNotFound`, which every caller takes
for nothing to do. -/
def copyHeaderInContext (headers : ContextHeaders) (fromHeader toHeader : String)
    (keepOrigin : Bool) : Except String (Option ContextHeaders) := do
  let fromHeader := normalizeHeaderContextKey go fromHeader
  let toHeader := normalizeHeaderContextKey go toHeader
  if fromHeader = "" ∨ toHeader = "" then throw "copy_header from/to is required"
  match getHeaderValueFromContext go headers fromHeader with
  | none => return none
  | some value => setHeaderOverrideInContext go headers toHeader (.string value) keepOrigin

def moveHeaderInContext (headers : ContextHeaders) (fromHeader toHeader : String)
    (keepOrigin : Bool) : Except String (Option ContextHeaders) := do
  let fromHeader := normalizeHeaderContextKey go fromHeader
  let toHeader := normalizeHeaderContextKey go toHeader
  if fromHeader = "" ∨ toHeader = "" then throw "move_header from/to is required"
  match ← copyHeaderInContext go headers fromHeader toHeader keepOrigin with
  | none => return none
  | some headers =>
    if go.equalFold fromHeader toHeader then return headers
    else deleteHeaderOverrideInContext go headers fromHeader

/-! ### The names of `pass_headers` -/

/-- The names among `values`, each once. -/
def headerNames (values : List String) : List String :=
  ((values.map (normalizeHeaderContextKey go)).filter (· ≠ "")).eraseDups

/-- The names among `values`, of which there must be one. -/
def requireHeaderNames (values : List String) : Except String (List String) :=
  if (headerNames go values).isEmpty then .error "pass_headers value is invalid"
  else .ok (headerNames go values)

mutual

/-- `parseHeaderPassThroughNames`, where `ofText` reads the text of a string. -/
def Value.passThroughNames (ofText : String → Except String (List String)) :
    Value → Except String (List String)
  | .nil => .error "pass_headers value is required"
  | .string raw => ofText raw
  | .list items => requireHeaderNames go (items.toList.map Value.sprint)
  | .map members => requireHeaderNames go (members.passThroughNames ofText "headers" ++
      members.passThroughNames ofText "names" ++ members.passThroughNames ofText "header")
  | _ => .error "pass_headers value must be string, array or object"

/-- The names of a member, or none. -/
def Members.passThroughNames (ofText : String → Except String (List String)) :
    Members → (key : String) → List String
  | .nil, _ => []
  | .cons name value rest, key =>
    if name = key then
      match value.passThroughNames ofText with
      | .ok names => names
      | .error _ => []
    else rest.passThroughNames ofText key

end

/-- The names in a text: a list at commas, or a JSON value. The texts inside that value are
shorter, and `depth` bounds how deep they are. -/
def passThroughNamesOfText : (depth : ℕ) → String → Except String (List String)
  | 0, _ => .error "pass_headers value is invalid"
  | depth + 1, raw =>
    let trimmed := trimSpace raw
    if trimmed = "" then .error "pass_headers value is required"
    else
      let parsed :=
        if startsWith trimmed "[" || startsWith trimmed "\x7b" then go.decode trimmed else none
      match parsed with
      | some value => value.passThroughNames go (passThroughNamesOfText depth)
      | none => requireHeaderNames go (split ',' trimmed)

def parseHeaderPassThroughNames (value : Value) : Except String (List String) :=
  value.passThroughNames go fun raw => passThroughNamesOfText go (raw.length + 1) raw

/-- The loop of `pass_headers`. -/
def passHeaders (keepOrigin : Bool) (headers : ContextHeaders) (headerName : String) :
    Except String ContextHeaders := do
  return (← copyHeaderInContext go headers headerName headerName keepOrigin).getD headers

/-! ### `sync_fields` -/

inductive SyncTarget
  | json (key : String)
  | header (key : String)

def parseSyncTarget (spec : String) : Except String SyncTarget :=
  let raw := trimSpace spec
  if raw = "" then .error "sync_fields target is required"
  else
    match split ':' raw with
    | kind :: rest@(_ :: _) =>
      let kind := go.toLower (trimSpace kind)
      let key := trimSpace (":".intercalate rest)
      if key = "" then .error ("sync_fields target key is required: " ++ raw)
      else if kind = "json" ∨ kind = "body" then .ok (.json key)
      else if kind = "header" then .ok (.header key)
      else .error ("sync_fields target prefix is invalid: " ++ raw)
    | _ => .ok (.json raw)

def readSyncTargetValue (body : B) (headers : ContextHeaders) : SyncTarget → Option Value
  | .json key =>
    match go.get body key with
    | none | some .nil => none
    | some (.string s) => if trimSpace s = "" then none else some (.string s)
    | some value => some value
  | .header key => (getHeaderValueFromContext go headers key).map .string

def writeSyncTargetValue (body : B) (headers : ContextHeaders) (value : Value) :
    SyncTarget → Except String (B × ContextHeaders)
  | .json key => do return (← go.set body key value, headers)
  | .header key => do return (body, ← setHeaderOverrideInContext go headers key value false)

/-- `syncFieldsBetweenTargets`: the side that is missing is written. -/
def syncFieldsBetweenTargets (body : B) (headers : ContextHeaders) (fromSpec toSpec : String) :
    Except String (B × ContextHeaders) := do
  let fromTarget ← parseSyncTarget go fromSpec
  let toTarget ← parseSyncTarget go toSpec
  match readSyncTargetValue go body headers fromTarget,
      readSyncTargetValue go body headers toTarget with
  | some value, none => writeSyncTargetValue go body headers value toTarget
  | none, some value => writeSyncTargetValue go body headers value fromTarget
  | _, _ => return (body, headers)

/-! ### An error that is asked for -/

structure ParamOverrideReturnError where
  message : String
  statusCode : ℤ := 400
  code : String := "invalid_request"
  type : String := "invalid_request_error"
  skipRetry : Bool := true
deriving DecidableEq, Repr

def ParamOverrideReturnError.error (err : ParamOverrideReturnError) : String :=
  if err.message = "" then "param override return error" else err.message

/-- The integer that a number is, as `%v` prints it: in digits, or with an exponent (`1.5e+06`). -/
def printedInt (printed : String) : Option ℤ :=
  match printed.splitOn "e+" with
  | [digits] => digits.toInt?
  | [mantissa, exponent] => do
    let shift ← exponent.toNat?
    match mantissa.splitOn "." with
    | [digits] => return (← digits.toInt?) * 10 ^ shift
    | [whole, fraction] =>
      guard (fraction.length ≤ shift)
      return (← (whole ++ fraction).toInt?) * 10 ^ (shift - fraction.length)
    | _ => none
  | _ => none

/-- `parseOverrideInt`. The conversion of a larger number gives another one. -/
def parseOverrideInt : Value → Option ℤ
  | .number printed => (printedInt printed).filter fun n => -2 ^ 63 ≤ n ∧ n < 2 ^ 63
  | _ => none

/-- A status code, if there is one under this name. -/
def Members.statusCode? (members : Members) (key : String) : Option (Except String ℤ) :=
  (members.get? key).map fun raw =>
    match parseOverrideInt raw with
    | some statusCode => .ok statusCode
    | none => .error s!"return_error {key} must be an integer"

/-- The text of a member that has one, or else a default. -/
def textOr (text : Option String) (default : String) : String :=
  if trimSpace (text.getD "") = "" then default else trimSpace (text.getD "")

/-- The checks that are made of every error. -/
def ParamOverrideReturnError.check (err : ParamOverrideReturnError) :
    Except String ParamOverrideReturnError :=
  if err.message = "" then .error "return_error message is required"
  else if err.statusCode < 100 ∨ 511 < err.statusCode then
    .error s!"return_error status code out of range: {err.statusCode}"
  else .ok err

/-- What the members of an object say of the error. -/
def Members.returnError (members : Members) (statusCode : ℤ) : ParamOverrideReturnError where
  message := textOr (members.string? "message") (trimSpace ((members.string? "msg").getD ""))
  statusCode := statusCode
  code := textOr ((members.get? "code").map Value.sprint) "invalid_request"
  type := textOr (members.string? "type") "invalid_request_error"
  skipRetry :=
    match members.get? "skip_retry" with
    | some (.bool skipRetry) => skipRetry
    | _ => true

def parseParamOverrideReturnError : Value → Except String ParamOverrideReturnError
  | .nil => .error "return_error value is required"
  | .string raw => ParamOverrideReturnError.check { message := trimSpace raw }
  | .map members => do
    let statusCode ←
      ((members.statusCode? "status_code").or (members.statusCode? "status")).getD (.ok 400)
    (members.returnError statusCode).check
  | .bool _ | .number _ | .list _ => .error "return_error value must be string or object"

/-- The text of the error with which the operation ends, be it the one that is asked for or one of
what it is asked with. -/
def returnErrorMessage (value : Value) : String :=
  match parseParamOverrideReturnError value with
  | .ok err => err.error
  | .error message => message

/-- What the client is told: `NewAPIErrorFromParamOverride`, with its own defaults. -/
def newAPIErrorFromParamOverride (err : ParamOverrideReturnError) : ParamOverrideReturnError where
  message := textOr (some err.message) "request blocked by param override"
  statusCode := if err.statusCode < 100 ∨ 511 < err.statusCode then 400 else err.statusCode
  code := if trimSpace err.code = "" then "invalid_request" else err.code
  type := if trimSpace err.type = "" then "invalid_request_error" else err.type
  skipRetry := err.skipRetry

/-- An error with all that the client is to be told of it. -/
structure ParamOverrideReturnError.Valid (err : ParamOverrideReturnError) : Prop where
  message : trimSpace err.message = err.message ∧ err.message ≠ ""
  statusCode : 100 ≤ err.statusCode ∧ err.statusCode ≤ 511
  code : trimSpace err.code ≠ ""
  type : trimSpace err.type ≠ ""

theorem trimSpace_textOr {text : Option String} {default : String}
    (h : trimSpace default = default) : trimSpace (textOr text default) = textOr text default := by
  rw [textOr]
  split_ifs
  · exact h
  · exact trimSpace_trimSpace _

theorem textOr_ne {text : Option String} {default : String} (h : default ≠ "") :
    textOr text default ≠ "" := by
  rw [textOr]
  split_ifs with htext
  · exact h
  · exact htext

theorem ParamOverrideReturnError.valid_of_check {err err' : ParamOverrideReturnError}
    (hcheck : err.check = .ok err') (hmessage : trimSpace err.message = err.message)
    (hcode : trimSpace err.code ≠ "") (htype : trimSpace err.type ≠ "") : err'.Valid := by
  rw [check] at hcheck
  split_ifs at hcheck with hne hrange
  obtain rfl := Except.ok.inj hcheck
  exact ⟨⟨hmessage, hne⟩, by omega, hcode, htype⟩

/-- **What is parsed is valid**, whatever the operation gives and leaves out. -/
theorem valid_of_parse {value : Value} {err : ParamOverrideReturnError}
    (h : parseParamOverrideReturnError value = .ok err) : err.Valid := by
  have hplain (s : String) (hs : (s.toList.all fun c => !isSpace c) = true) : trimSpace s = s :=
    trimSpace_of_forall fun c hc => by simpa using List.all_eq_true.1 hs c hc
  have hblank : trimSpace "invalid_request" = "invalid_request" ∧
      trimSpace "invalid_request_error" = "invalid_request_error" :=
    ⟨hplain _ (by decide), hplain _ (by decide)⟩
  -- the defaults are valid, and what replaces them is not blank
  cases value with
  | nil | bool b | number printed | list items => cases h
  | string raw =>
    have hcheck : ParamOverrideReturnError.check { message := trimSpace raw } = .ok err := h
    refine ParamOverrideReturnError.valid_of_check hcheck (trimSpace_trimSpace raw) ?_ ?_
    · rw [hblank.1]
      decide
    · rw [hblank.2]
      decide
  | map members =>
    obtain ⟨statusCode, -, hcheck⟩ := Fallible.bind_eq_ok_iff.1 h
    refine ParamOverrideReturnError.valid_of_check hcheck ?_ ?_ ?_
    · dsimp only [Members.returnError]
      rw [trimSpace_textOr (trimSpace_trimSpace _)]
    · dsimp only [Members.returnError]
      rw [trimSpace_textOr hblank.1]
      exact textOr_ne (by decide)
    · dsimp only [Members.returnError]
      rw [trimSpace_textOr hblank.2]
      exact textOr_ne (by decide)

/-- **The client is told what is parsed**: none of the second defaults is taken. -/
theorem newAPIErrorFromParamOverride_of_parse {value : Value} {err : ParamOverrideReturnError}
    (h : parseParamOverrideReturnError value = .ok err) :
    newAPIErrorFromParamOverride err = err ∧ returnErrorMessage value = err.message := by
  obtain ⟨⟨htrim, hne⟩, hstatus, hcode, htype⟩ := valid_of_parse h
  constructor
  · have hmessage : textOr (some err.message) "request blocked by param override" =
        err.message := by
      rw [textOr, Option.getD_some, htrim, if_neg hne]
    rw [newAPIErrorFromParamOverride, hmessage, if_neg (by omega), if_neg hcode, if_neg htype]
  · rw [returnErrorMessage, h]
    exact if_neg hne

/-! ### Applying the rules -/

/-- The operations that read and write the body only. -/
def bodyModes : List String :=
  ["delete", "set", "move", "copy", "prepend", "append", "trim_prefix", "trim_suffix",
    "ensure_prefix", "ensure_suffix", "trim_space", "to_lower", "to_upper", "replace",
    "regex_replace", "prune_objects"]

/-- `strings.TrimSpace` of a name, or else of the path. -/
def headerOrPath (name path : String) : String :=
  if trimSpace name = "" then trimSpace path else trimSpace name

def checkConditions (body : B) (env : Env) (headers : ContextHeaders)
    (conditions : List ConditionOperation) (logic : String) : Except String Bool := do
  if conditions.isEmpty then return true
  let results ← conditions.mapM (go.checkSingleCondition body env headers)
  return if logic.toUpper = "AND" then results.all id else results.any id

/-- An operation whose conditions hold. -/
def runOperation (env : Env) (op : ParamOperation) (body : B) (headers : ContextHeaders) :
    Except String (B × ContextHeaders) :=
  if op.mode ∈ bodyModes then do
    return (← go.edit body env headers op, headers)
  else
    match op.mode with
    | "return_error" => .error (returnErrorMessage op.value)
    | "set_header" => do
      return (body, ← setHeaderOverrideInContext go headers op.path op.value op.keepOrigin)
    | "delete_header" => do return (body, ← deleteHeaderOverrideInContext go headers op.path)
    | "copy_header" => do
      let copied ← copyHeaderInContext go headers (headerOrPath op.source op.path)
        (headerOrPath op.target op.path) op.keepOrigin
      return (body, copied.getD headers)
    | "move_header" => do
      let moved ← moveHeaderInContext go headers (headerOrPath op.source op.path)
        (headerOrPath op.target op.path) op.keepOrigin
      return (body, moved.getD headers)
    | "pass_headers" => do
      let names ← parseHeaderPassThroughNames go op.value
      return (body, ← names.foldlM (passHeaders go op.keepOrigin) headers)
    | "sync_fields" => syncFieldsBetweenTargets go body headers op.source op.target
    | mode => .error ("unknown operation: " ++ mode)

/-- One round of the loop of `applyOperations`. -/
def applyOperation (env : Env) (state : B × ContextHeaders) (op : ParamOperation) :
    Except String (B × ContextHeaders) := do
  if ← checkConditions go state.1 env state.2 op.conditions op.logic then
    runOperation go env op state.1 state.2
  else return state

def applyOperations (env : Env) (ops : List ParamOperation) (body : B)
    (headers : ContextHeaders) : Except String (B × ContextHeaders) :=
  ops.foldlM (applyOperation go env) (body, headers)

def buildLegacyParamOverride (paramOverride : Members) : List (String × Value) :=
  paramOverride.toList.filter fun entry => !go.equalFold (trimSpace entry.1) "operations"

/-- `ApplyParamOverride`: the body, and what the operations make of the headers. -/
def applyParamOverride (env : Env) (paramOverride : Members) (body : B)
    (headers : ContextHeaders) : Except String (B × ContextHeaders) :=
  match tryParseOperations paramOverride with
  | some operations => do
    let legacyOverride := buildLegacyParamOverride go paramOverride
    let workingJSON ←
      if legacyOverride.isEmpty then pure body else go.applyOperationsLegacy body legacyOverride
    applyOperations go env operations workingJSON headers
  | none => do return (← go.applyOperationsLegacy body paramOverride.toList, headers)

end NewApiPool.Relay
