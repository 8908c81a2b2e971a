import NewApiPool.Lib.Stateful
import NewApiPool.Relay.HeaderOverride

/-!
# Applying the rules in place

The operations change the maps of the context and the lines of the audit where they are, one
operation after the other, and an error leaves what was changed before it. The maps of a request
are in memory (`Memory`), and the fields of a request refer to them.

`ApplyParamOverrideWithRelayInfo` gives the operations maps of their own, copied from those of the
request, and writes to the request only after the last operation. So an error leaves the request,
and every map it refers to, as they were, and no body is returned
(`applyParamOverrideWithRelayInfo_of_err`). The conditions, and what an operation writes to a
header, are those of `NewApiPool.Relay.ParamOverride`, where the context is returned.
-/

namespace NewApiPool.Relay

open GoText Stateful

/-! ### Memory -/

/-- The maps of headers, and the lines of the audit that is recorded. -/
structure Memory where
  maps : List (GoMap String)
  lines : List String := []

abbrev Run (α : Type) := EStateM String Memory α

/-- The context of the rules: where its maps of headers are, and whether it has a recorder. -/
structure Context where
  env : Env
  requestHeaders : ℕ
  headerOverride : ℕ
  recorder : Bool

/-- The headers of a context. -/
def Context.headers (ctx : Context) (mem : Memory) : ContextHeaders where
  request := (mem.maps[ctx.requestHeaders]?).getD ∅
  override := (mem.maps[ctx.headerOverride]?).getD ∅

def Context.load (ctx : Context) : Run ContextHeaders := do return ctx.headers (← get)

/-- The override of a context becomes another one. -/
def Context.store (ctx : Context) (headers : ContextHeaders) : Run Unit :=
  modify fun mem => { mem with maps := mem.maps.set ctx.headerOverride headers.override }

/-! ### The libraries, path by path -/

/-- `isPathBasedOperation` -/
def pathModes : List String :=
  ["delete", "set", "prepend", "append", "trim_prefix", "trim_suffix", "ensure_prefix",
    "ensure_suffix", "trim_space", "to_lower", "to_upper", "replace", "regex_replace",
    "prune_objects"]

/-- The operations on the body, one path at a time. -/
structure PathEdits (B : Type) where
  processNegativeIndex : B → String → String
  resolveOperationPaths : B → String → Except String (List String)
  /-- an operation at one path; `none` skips the path -/
  editPath : B → Env → ContextHeaders → ParamOperation → String → Except String (Option B)
  moveValue : B → String → String → Except String B
  copyValue : B → String → String → Except String B

/-- An operation on the body: at every path that is meant, or between two paths. -/
def PathEdits.edit {B : Type} (edits : PathEdits B) (body : B) (env : Env)
    (headers : ContextHeaders) (op : ParamOperation) : Except String B :=
  let source := edits.processNegativeIndex body op.source
  let target := edits.processNegativeIndex body op.target
  if op.mode ∈ pathModes then do
    let paths ← edits.resolveOperationPaths body (edits.processNegativeIndex body op.path)
    paths.foldlM (fun body path =>
      return (← edits.editPath body env headers op path).getD body) body
  else if op.mode = "move" then edits.moveValue body source target
  else if op.source = "" ∨ op.target = "" then .error "copy from/to is required"
  else edits.copyValue body source target

/-- What the code uses of the libraries, and its operations on the body. -/
structure PathLibs (B : Type) extends Libs B, PathEdits B where
  edit_eq : toLibs.edit = toPathEdits.edit
  debugEnabled : Bool
  /-- `common.GetJsonString` -/
  getJsonString : Value → String

variable {B : Type} (go : PathLibs B)

/-! ### The audit -/

def paramOverrideKeyAuditPaths : List String :=
  ["model", "original_model", "upstream_model", "service_tier", "inference_geo", "speed"]

def shouldAuditParamPath (path : String) : Bool :=
  trimSpace path ≠ "" && (go.debugEnabled || trimSpace path ∈ paramOverrideKeyAuditPaths)

def shouldEnableParamOverrideAudit (paramOverride : Members) : Bool :=
  go.debugEnabled ||
    match tryParseOperations paramOverride with
    | some operations =>
      let paths := operations.flatMap fun op => [op.path, op.target]
      let keys := (buildLegacyParamOverride go.toLibs paramOverride).map Prod.fst
      (paths ++ keys).any (shouldAuditParamPath go)
    | none => (paramOverride.toList.map Prod.fst).any (shouldAuditParamPath go)

def formatParamOverrideAuditValue : Value → String
  | .nil => "<empty>"
  | .string s => s
  | value => go.getJsonString value

/-- What a line is about. -/
structure AuditEntry where
  mode : String
  path : String := ""
  source : String := ""
  target : String := ""
  value : Value := .nil

/-- `buildParamOverrideAuditLine`: `none` is no line. -/
def buildParamOverrideAuditLine (entry : AuditEntry) : Option String :=
  let mode := trimSpace entry.mode
  let path := trimSpace entry.path
  let source := trimSpace entry.source
  let target := trimSpace entry.target
  let value := formatParamOverrideAuditValue go entry.value
  let atPath (line : String) := if path = "" then none else some line
  let between (line : String) := if source = "" ∨ target = "" then none else some line
  if !(go.debugEnabled || shouldAuditParamPath go path || shouldAuditParamPath go target) then none
  else if mode ∈ ["set", "set_header"] then atPath (mode ++ " " ++ path ++ " = " ++ value)
  else if mode ∈ ["copy", "move", "copy_header", "move_header", "sync_fields"] then
    between (mode ++ " " ++ source ++ " -> " ++ target)
  else if mode ∈ ["prepend", "append", "trim_prefix", "trim_suffix", "ensure_prefix",
      "ensure_suffix"] then
    atPath (mode ++ " " ++ path ++ " with " ++ value)
  else if mode ∈ ["delete", "trim_space", "to_lower", "to_upper", "delete_header"] then
    atPath (mode ++ " " ++ path)
  else if mode ∈ ["replace", "regex_replace"] then
    atPath (mode ++ " " ++ path ++ " from " ++ source ++ " to " ++ target)
  else if mode ∈ ["pass_headers", "return_error"] then some (mode ++ " " ++ value)
  else some (if path = "" then mode else mode ++ " " ++ path)

def recordOperation (ctx : Context) (entry : AuditEntry) : Run Unit :=
  if ctx.recorder then
    modify fun mem =>
      match buildParamOverrideAuditLine go entry with
      | some line =>
        if line = "" ∨ line ∈ mem.lines then mem else { mem with lines := mem.lines ++ [line] }
      | none => mem
  else pure ()

/-! ### Operations -/

/-- The error of an operation. -/
def failed {α : Type} (mode : String) (m : Run α) : Run α :=
  mapError (fun message => "operation " ++ mode ++ " failed: " ++ message) m

/-- What is recorded of an operation at one path. -/
def pathEntry (op : ParamOperation) (path : String) : AuditEntry :=
  if op.mode ∈ ["replace", "regex_replace"] then
    { mode := op.mode, path, source := op.source, target := op.target }
  else if op.mode ∈ ["delete", "trim_space", "to_lower", "to_upper"] then { mode := op.mode, path }
  else { mode := op.mode, path, value := op.value }

/-- One path of an operation on the body. Pruning is not recorded. -/
def runPath (ctx : Context) (headers : ContextHeaders) (op : ParamOperation) (body : B)
    (path : String) : Run B := do
  match ← ofExcept (go.editPath body ctx.env headers op path) with
  | none => return body
  | some body' =>
    if op.mode ≠ "prune_objects" then recordOperation go ctx (pathEntry op path)
    return body'

/-- `move` or `copy` between two paths of the body. -/
def runTransfer (ctx : Context) (op : ParamOperation) (body : B)
    (transfer : B → String → String → Except String B) : Run B := do
  let source := go.processNegativeIndex body op.source
  let target := go.processNegativeIndex body op.target
  let body' ← failed op.mode (ofExcept (transfer body source target))
  recordOperation go ctx { mode := op.mode, source, target }
  return body'

/-- An operation on the body. -/
def runEdit (ctx : Context) (op : ParamOperation) (body : B) : Run B :=
  if op.mode ∈ pathModes then do
    let headers ← ctx.load
    let paths ←
      ofExcept (go.resolveOperationPaths body (go.processNegativeIndex body op.path))
    failed op.mode (paths.foldlM (runPath go ctx headers op) body)
  else if op.mode = "move" then runTransfer go ctx op body go.moveValue
  else if op.source = "" ∨ op.target = "" then throw "copy from/to is required"
  else runTransfer go ctx op body go.copyValue

/-- A header of the override is written. -/
def writeHeader (ctx : Context) (write : ContextHeaders → Except String ContextHeaders) :
    Run Unit := do
  ctx.store (← ofExcept (write (← ctx.load)))

/-- `copyHeaderInContext`: whether the source is there. -/
def copyHeader (ctx : Context) (fromHeader toHeader : String) (keepOrigin : Bool) : Run Bool := do
  match ← ofExcept
    (copyHeaderInContext go.toLibs (← ctx.load) fromHeader toHeader keepOrigin) with
  | none => return false
  | some headers =>
    ctx.store headers
    return true

/-- `moveHeaderInContext`: a header is copied, and then the source is deleted. -/
def moveHeader (ctx : Context) (fromHeader toHeader : String) (keepOrigin : Bool) : Run Unit := do
  let fromHeader := normalizeHeaderContextKey go.toLibs fromHeader
  let toHeader := normalizeHeaderContextKey go.toLibs toHeader
  if fromHeader = "" ∨ toHeader = "" then throw "move_header from/to is required"
  else if ← copyHeader go ctx fromHeader toHeader keepOrigin then
    if go.equalFold fromHeader toHeader then return ()
    else writeHeader ctx fun headers => deleteHeaderOverrideInContext go.toLibs headers fromHeader
  else return ()

/-- One name of `pass_headers`. -/
def passHeader (ctx : Context) (keepOrigin : Bool) (_ : Unit) (headerName : String) : Run Unit := do
  let _ ← copyHeader go ctx headerName headerName keepOrigin
  return ()

/-- `syncFieldsBetweenTargets` -/
def syncFields (ctx : Context) (op : ParamOperation) (body : B) : Run B := do
  let (body', headers) ←
    ofExcept (syncFieldsBetweenTargets go.toLibs body (← ctx.load) op.source op.target)
  ctx.store headers
  return body'

/-- An operation whose conditions hold. -/
def runInPlace (ctx : Context) (op : ParamOperation) (body : B) : Run B :=
  if op.mode ∈ bodyModes then runEdit go ctx op body
  else
    let source := headerOrPath op.source op.path
    let target := headerOrPath op.target op.path
    match op.mode with
    | "return_error" => do
      recordOperation go ctx { mode := op.mode, path := op.path, value := op.value }
      throw (returnErrorMessage op.value)
    | "set_header" => do
      failed op.mode (writeHeader ctx fun headers =>
        setHeaderOverrideInContext go.toLibs headers op.path op.value op.keepOrigin)
      recordOperation go ctx { mode := op.mode, path := op.path, value := op.value }
      return body
    | "delete_header" => do
      failed op.mode (writeHeader ctx fun headers =>
        deleteHeaderOverrideInContext go.toLibs headers op.path)
      recordOperation go ctx { mode := op.mode, path := op.path }
      return body
    | "copy_header" => do
      let _ ← failed op.mode (copyHeader go ctx source target op.keepOrigin)
      recordOperation go ctx { mode := op.mode, source, target }
      return body
    | "move_header" => do
      failed op.mode (moveHeader go ctx source target op.keepOrigin)
      recordOperation go ctx { mode := op.mode, source, target }
      return body
    | "pass_headers" => do
      let names ← ofExcept (parseHeaderPassThroughNames go.toLibs op.value)
      failed op.mode (names.foldlM (passHeader go ctx op.keepOrigin) ())
      recordOperation go ctx
        { mode := op.mode, value := .list ((names.map Value.string).foldr .cons .nil) }
      return body
    | "sync_fields" => do
      let body' ← failed op.mode (syncFields go ctx op body)
      recordOperation go ctx { mode := op.mode, source := op.source, target := op.target }
      return body'
    | mode => throw ("unknown operation: " ++ mode)

/-- One round of the loop of `applyOperations`. -/
def applyInPlace (ctx : Context) (body : B) (op : ParamOperation) : Run B := do
  if ← ofExcept
    (checkConditions go.toLibs body ctx.env (← ctx.load) op.conditions op.logic) then
    runInPlace go ctx op body
  else return body

/-- `applyOperationsLegacy` -/
def applyLegacyInPlace (ctx : Context) (body : B) (entries : List (String × Value)) : Run B := do
  let body' ← ofExcept (go.applyOperationsLegacy body entries)
  (entries.map fun entry => { mode := "set", path := entry.1, value := entry.2 }).foldlM
    (fun _ entry => recordOperation go ctx entry) ()
  return body'

/-- `ApplyParamOverride` -/
def applyParamOverrideInPlace (ctx : Context) (paramOverride : Members) (body : B) : Run B :=
  match tryParseOperations paramOverride with
  | some operations => do
    let legacyOverride := buildLegacyParamOverride go.toLibs paramOverride
    let workingJSON ←
      if legacyOverride.isEmpty then pure body else applyLegacyInPlace go ctx body legacyOverride
    operations.foldlM (applyInPlace go ctx) workingJSON
  | none => applyLegacyInPlace go ctx body paramOverride.toList

/-! ### What is written -/

variable {go} {ctx : Context} {n : ℕ}

/-- The maps that were there are as they were. -/
def KeepsMaps (n : ℕ) (mem mem' : Memory) : Prop := AgreeBelow n mem.maps mem'.maps

instance : Std.Refl (KeepsMaps n) := ⟨fun mem => AgreeBelow.refl n mem.maps⟩

instance : IsTrans Memory (KeepsMaps n) := ⟨fun _ _ _ h h' => AgreeBelow.trans h h'⟩

theorem respects_load : Respects (KeepsMaps n) ctx.load :=
  respects_get.bind fun _ => respects_pure _

theorem respects_store (h : n ≤ ctx.headerOverride) (headers : ContextHeaders) :
    Respects (KeepsMaps n) (ctx.store headers) :=
  respects_modify fun mem => agreeBelow_set h mem.maps headers.override

theorem respects_recordOperation (entry : AuditEntry) :
    Respects (KeepsMaps n) (recordOperation go ctx entry) := by
  rw [recordOperation]
  split_ifs
  · refine respects_modify fun mem => ?_
    split
    · split_ifs
      · exact AgreeBelow.refl n mem.maps
      · exact AgreeBelow.refl n mem.maps
    · exact AgreeBelow.refl n mem.maps
  · exact respects_pure _

theorem respects_recorded {α : Type} (entry : AuditEntry) (a : α) :
    Respects (KeepsMaps n) (do recordOperation go ctx entry; return a) :=
  (respects_recordOperation entry).bind fun _ => respects_pure _

theorem respects_runPath (headers : ContextHeaders) (op : ParamOperation) (body : B)
    (path : String) : Respects (KeepsMaps n) (runPath go ctx headers op body path) := by
  refine (respects_ofExcept _).bind fun edited => ?_
  cases edited with
  | none => exact respects_pure _
  | some body' =>
    dsimp only
    split_ifs
    · exact respects_recorded _ _
    · exact respects_pure _

theorem respects_runTransfer (op : ParamOperation) (body : B)
    (transfer : B → String → String → Except String B) :
    Respects (KeepsMaps n) (runTransfer go ctx op body transfer) :=
  ((respects_ofExcept _).mapError _).bind fun _ => respects_recorded _ _

theorem respects_runEdit (op : ParamOperation) (body : B) :
    Respects (KeepsMaps n) (runEdit go ctx op body) := by
  rw [runEdit]
  split_ifs
  · refine respects_load.bind fun headers => (respects_ofExcept _).bind fun paths => ?_
    exact (respects_foldlM (respects_runPath headers op) paths body).mapError _
  · exact respects_runTransfer op body _
  · exact respects_throw _
  · exact respects_runTransfer op body _

section Headers

variable (h : n ≤ ctx.headerOverride)

include h

theorem respects_writeHeader (write : ContextHeaders → Except String ContextHeaders) :
    Respects (KeepsMaps n) (writeHeader ctx write) :=
  respects_load.bind fun _ => (respects_ofExcept _).bind fun headers => respects_store h headers

theorem respects_copyHeader (fromHeader toHeader : String) (keepOrigin : Bool) :
    Respects (KeepsMaps n) (copyHeader go ctx fromHeader toHeader keepOrigin) := by
  refine respects_load.bind fun _ => (respects_ofExcept _).bind fun copied => ?_
  cases copied with
  | none => exact respects_pure _
  | some headers => exact (respects_store h headers).bind fun _ => respects_pure _

theorem respects_moveHeader (fromHeader toHeader : String) (keepOrigin : Bool) :
    Respects (KeepsMaps n) (moveHeader go ctx fromHeader toHeader keepOrigin) := by
  rw [moveHeader]
  split
  · exact respects_throw _
  · refine (respects_copyHeader h _ _ _).bind fun found => ?_
    split_ifs
    · exact respects_pure _
    · exact respects_writeHeader h _
    · exact respects_pure _

theorem respects_syncFields (op : ParamOperation) (body : B) :
    Respects (KeepsMaps n) (syncFields go ctx op body) :=
  respects_load.bind fun _ => (respects_ofExcept _).bind fun written =>
    (respects_store h written.2).bind fun _ => respects_pure _

/-- **One operation writes the override of the context, and no other map.** -/
theorem respects_runInPlace (op : ParamOperation) (body : B) :
    Respects (KeepsMaps n) (runInPlace go ctx op body) := by
  rw [runInPlace]
  split_ifs
  · exact respects_runEdit op body
  · dsimp only
    split
    · exact (respects_recordOperation _).bind fun _ => respects_throw _
    · exact ((respects_writeHeader h _).mapError _).bind fun _ => respects_recorded _ _
    · exact ((respects_writeHeader h _).mapError _).bind fun _ => respects_recorded _ _
    · exact ((respects_copyHeader h _ _ _).mapError _).bind fun _ => respects_recorded _ _
    · exact ((respects_moveHeader h _ _ _).mapError _).bind fun _ => respects_recorded _ _
    · refine (respects_ofExcept _).bind fun names => ?_
      refine Respects.bind (Respects.mapError (respects_foldlM (fun _ name => ?_) names ()) _)
        fun _ => respects_recorded _ _
      exact (respects_copyHeader h _ _ _).bind fun _ => respects_pure _
    · exact ((respects_syncFields h op body).mapError _).bind fun _ => respects_recorded _ _
    · exact respects_throw _

theorem respects_applyInPlace (body : B) (op : ParamOperation) :
    Respects (KeepsMaps n) (applyInPlace go ctx body op) := by
  refine respects_load.bind fun _ => (respects_ofExcept _).bind fun holds => ?_
  split_ifs
  · exact respects_runInPlace h op body
  · exact respects_pure _

end Headers

theorem respects_applyLegacyInPlace (body : B) (entries : List (String × Value)) :
    Respects (KeepsMaps n) (applyLegacyInPlace go ctx body entries) :=
  (respects_ofExcept _).bind fun _ =>
    (respects_foldlM (fun _ _ => respects_recordOperation _) _ ()).bind fun _ =>
      respects_pure _

/-- **All the rules**, however they end. -/
theorem respects_applyParamOverrideInPlace (h : n ≤ ctx.headerOverride) (paramOverride : Members)
    (body : B) : Respects (KeepsMaps n) (applyParamOverrideInPlace go ctx paramOverride body) := by
  rw [applyParamOverrideInPlace]
  split
  · dsimp only
    split_ifs
    · exact (respects_pure body).bind fun workingJSON =>
        respects_foldlM (respects_applyInPlace h) _ workingJSON
    · exact (respects_applyLegacyInPlace body _).bind fun workingJSON =>
        respects_foldlM (respects_applyInPlace h) _ workingJSON
  · exact respects_applyLegacyInPlace body _

/-! ### A request -/

/-- `RelayInfo`, as the overrides read and write it. Its override at runtime is a map in memory. -/
structure RelayInfoRef where
  request : ClientRequest
  retry : Retry := {}
  channelMeta : Option ChannelMeta := none
  runtimeHeadersOverride : Option ℕ := none
  useRuntimeHeadersOverride : Bool := false
  paramOverrideAudit : List String := []

/-- A request, with its map in memory. -/
structure Process where
  maps : List (GoMap String)
  info : RelayInfoRef
  valid : ∀ i ∈ info.runtimeHeadersOverride, i < maps.length

/-- The override at runtime. A map that is `nil` has no entries. -/
def Process.runtimeHeadersOverride (p : Process) : GoMap String :=
  (p.info.runtimeHeadersOverride.bind fun i => p.maps[i]?).getD ∅

/-- The request as it is read. -/
def Process.relayInfo (p : Process) : RelayInfo where
  request := p.info.request
  retry := p.info.retry
  channelMeta := p.info.channelMeta
  runtimeHeadersOverride := p.runtimeHeadersOverride
  useRuntimeHeadersOverride := p.info.useRuntimeHeadersOverride

/-- What a call returns to Go: a body and an error, of which a caller reads the body only if there
is no error. -/
structure Returned (B : Type) where
  body : Option B
  err : Option String

variable (go)

/-- `BuildParamOverrideContext`: the maps of the context are new ones. -/
def Process.buildContext (p : Process) (recorder : Bool) : Context × Memory :=
  let headers := buildContextHeaders go.toLibs p.relayInfo
  ({ env := buildEnv p.relayInfo
     requestHeaders := p.maps.length
     headerOverride := p.maps.length + 1
     recorder },
    { maps := p.maps ++ [headers.request, headers.override] })

/-- The rules of a channel, applied to the context of a request. -/
def Process.runRules (p : Process) (paramOverride : Members) (body : B) :
    Context × EStateM.Result String Memory B :=
  let (ctx, mem) := p.buildContext go (shouldEnableParamOverrideAudit go paramOverride)
  (ctx, applyParamOverrideInPlace go ctx paramOverride body mem)

theorem Process.agreeBelow_runRules (p : Process) (paramOverride : Members) (body : B) :
    AgreeBelow p.maps.length p.maps (final (p.runRules go paramOverride body).2).maps := by
  let context := p.buildContext go (shouldEnableParamOverrideAudit go paramOverride)
  have hnew : p.maps.length ≤ context.1.headerOverride := Nat.le_succ p.maps.length
  have hbuild : AgreeBelow p.maps.length p.maps context.2.maps :=
    fun h => ⟨h.trans (by simp [context, Process.buildContext]),
      fun _ hi => List.getElem?_append_left hi⟩
  exact hbuild.trans ((respects_applyParamOverrideInPlace hnew paramOverride body).run context.2)

/-- `syncRuntimeHeaderOverrideFromContext`, and what is recorded -/
def Process.sync (p : Process) (ctx : Context) (mem : Memory) : Process where
  maps := mem.maps ++ [sanitizeHeaderOverrideMap go.toLibs id (ctx.headers mem).override]
  info :=
    { p.info with
      runtimeHeadersOverride := some mem.maps.length
      useRuntimeHeadersOverride := true
      paramOverrideAudit := if ctx.recorder then mem.lines else [] }
  valid i hi := by
    rw [← Option.some.inj (Option.mem_def.1 hi)]
    simp

def Process.getParamOverrideMap (p : Process) : Members :=
  (p.info.channelMeta.map ChannelMeta.paramOverride).getD .nil

def Process.applyParamOverrideWithRelayInfo (p : Process) (body : B) : Returned B × Process :=
  match p.getParamOverrideMap with
  | .nil => (⟨some body, none⟩, p)
  | paramOverride =>
    match h : p.runRules go paramOverride body with
    | (_, .error err mem) =>
      (⟨none, some err⟩,
        { maps := mem.maps
          info := p.info
          valid := fun i hi => by
            have hkeeps := p.agreeBelow_runRules go paramOverride body
            rw [h] at hkeeps
            exact (p.valid i hi).trans_le (hkeeps le_rfl).1 })
    | (ctx, .ok result mem) => (⟨some result, none⟩, p.sync go ctx mem)

/-! ### Errors -/

variable {go}

/-- The override at runtime is that of the map it refers to. -/
theorem Process.runtimeHeadersOverride_congr (p : Process) {p' : Process}
    (hinfo : p'.info.runtimeHeadersOverride = p.info.runtimeHeadersOverride)
    (hmaps : ∀ i < p.maps.length, p'.maps[i]? = p.maps[i]?) :
    p'.runtimeHeadersOverride = p.runtimeHeadersOverride := by
  rw [runtimeHeadersOverride, runtimeHeadersOverride, hinfo]
  cases hmap : p.info.runtimeHeadersOverride with
  | none => rfl
  | some i => rw [Option.bind_some, Option.bind_some, hmaps i (p.valid i hmap)]

theorem Process.applyParamOverrideWithRelayInfo_cases (go : PathLibs B) (p : Process) (body : B) :
    (p.getParamOverrideMap = .nil ∧
      p.applyParamOverrideWithRelayInfo go body = (⟨some body, none⟩, p)) ∨
    (p.getParamOverrideMap ≠ .nil ∧ ∃ err mem hvalid,
      (p.runRules go p.getParamOverrideMap body).2 = .error err mem ∧
      p.applyParamOverrideWithRelayInfo go body =
        (⟨none, some err⟩, ⟨mem.maps, p.info, hvalid⟩)) ∨
    (p.getParamOverrideMap ≠ .nil ∧ ∃ result mem,
      (p.runRules go p.getParamOverrideMap body).2 = .ok result mem ∧
      p.applyParamOverrideWithRelayInfo go body = (⟨some result, none⟩,
        p.sync go (p.runRules go p.getParamOverrideMap body).1 mem)) := by
  generalize hresult : p.applyParamOverrideWithRelayInfo go body = result
  rw [Process.applyParamOverrideWithRelayInfo] at hresult
  split at hresult
  · rename_i hnil
    exact .inl ⟨hnil, hresult.symm⟩
  · rename_i hne
    split at hresult
    · rename_i hrun
      rw [hrun]
      exact .inr (.inl ⟨hne, _, _, _, rfl, hresult.symm⟩)
    · rename_i hrun
      rw [hrun]
      exact .inr (.inr ⟨hne, _, _, rfl, hresult.symm⟩)

/-- **An error leaves the request as it was**, with all the maps there were, and gives no body. -/
theorem applyParamOverrideWithRelayInfo_of_err (go : PathLibs B) (p : Process) (body : B)
    (h : (p.applyParamOverrideWithRelayInfo go body).1.err ≠ none) :
    (p.applyParamOverrideWithRelayInfo go body).1.body = none ∧
      (p.applyParamOverrideWithRelayInfo go body).2.info = p.info ∧
      (p.applyParamOverrideWithRelayInfo go body).2.runtimeHeadersOverride =
        p.runtimeHeadersOverride ∧
      ∀ i < p.maps.length,
        (p.applyParamOverrideWithRelayInfo go body).2.maps[i]? = p.maps[i]? := by
  obtain ⟨-, heq⟩ | ⟨-, err, mem, hvalid, hrun, heq⟩ | ⟨-, result, mem, -, heq⟩ :=
    p.applyParamOverrideWithRelayInfo_cases go body
  · rw [heq] at h
    exact absurd rfl h
  · have hkeeps := p.agreeBelow_runRules go p.getParamOverrideMap body
    rw [hrun] at hkeeps
    rw [heq]
    exact ⟨rfl, rfl, p.runtimeHeadersOverride_congr rfl (hkeeps le_rfl).2, (hkeeps le_rfl).2⟩
  · rw [heq] at h
    exact absurd rfl h

/-- Libraries of a body of which nothing is read, path by path. -/
def plainEdits : PathEdits Unit where
  processNegativeIndex _ path := path
  resolveOperationPaths _ path := .ok [path]
  editPath _ _ _ _ _ := .ok (some ())
  moveValue _ _ _ := .ok ()
  copyValue _ _ _ := .ok ()

def plainPathLibs : PathLibs Unit :=
  { plainLibs, plainEdits with
    edit := plainEdits.edit
    edit_eq := rfl
    debugEnabled := true
    getJsonString := Value.sprint }

/-- A rule that sets the header `x`, and one that blocks the request. -/
def blockingRules : Members :=
  let setHeader : Members := .cons "mode" (.string "set_header") (.cons "path" (.string "x")
    (.cons "value" (.string "new") .nil))
  let returnError : Members := .cons "mode" (.string "return_error")
    (.cons "value" (.string "blocked") .nil)
  .cons "operations" (.list (.cons (.map setHeader) (.cons (.map returnError) .nil))) .nil

/-- A request that has been tried before: it has an override at runtime, and an audit. -/
def triedRequest : Process where
  maps := [AList.singleton "x" "old"]
  info :=
    { request := plainRequest
      channelMeta := some { firstProvider.channelMeta with paramOverride := blockingRules }
      runtimeHeadersOverride := some 0
      useRuntimeHeadersOverride := true
      paramOverrideAudit := ["set model = gpt-5"] }
  valid := by decide

/-- A request that is blocked keeps its override and its audit. -/
theorem applyParamOverrideWithRelayInfo_triedRequest :
    (triedRequest.applyParamOverrideWithRelayInfo plainPathLibs ()).1.body = none ∧
      (triedRequest.applyParamOverrideWithRelayInfo plainPathLibs ()).2.info = triedRequest.info ∧
      (triedRequest.applyParamOverrideWithRelayInfo plainPathLibs ()).2.runtimeHeadersOverride =
        triedRequest.runtimeHeadersOverride ∧
      ∀ i < triedRequest.maps.length,
        (triedRequest.applyParamOverrideWithRelayInfo plainPathLibs ()).2.maps[i]? =
          triedRequest.maps[i]? :=
  applyParamOverrideWithRelayInfo_of_err plainPathLibs triedRequest () (by decide +kernel)

end NewApiPool.Relay
