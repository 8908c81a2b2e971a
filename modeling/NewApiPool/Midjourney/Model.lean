import NewApiPool.Lib.Runs
import NewApiPool.Billing.Accounts

/-!
# Midjourney tasks

A Midjourney request is forwarded to the upstream, and a row of `midjourneys` keeps
what came of it: `RelayMidjourneySubmit` and `RelaySwapFace` insert the row and, once
they return, charge the user and the token; `RelayMidjourneyNotify` overwrites it with
what the upstream reports; `UpdateMidjourneyTaskBulk` polls the upstream about the rows
that are not at 100%, writes what it hears, and gives the quota of the row back to the
user when the task has failed.

Whether a request is charged is decided by a flag that several branches of the submission
clear, while the quota of the row, which is what is given back, is the price of the
request whatever has become of the flag. The books of a task
(`NewApiPool.Midjourney.Book`) keep what has really been moved on its account.

The poller works on copies it has loaded at the beginning of a round, and a notification
saves a row it has loaded before; so an event is a load, or one statement that writes
rows. The money that goes with an insert or with a guarded write moves in the same event:
the movements commute, and the one function that looks at a balance, the check of a
submission, gets what the cache of the user answers.
-/

namespace NewApiPool.Midjourney

open Billing GoText

/-! ### The data -/

/-- `model.Midjourney`. The primary key is the position of the row. -/
structure MidjourneyRow where
  code : Int
  userId : Int
  action : String
  mjId : String
  prompt : String
  promptEn : String
  description : String
  state : String
  submitTime : Int
  startTime : Int
  finishTime : Int
  imageUrl : String
  videoUrl : String
  videoUrls : String
  status : String
  progress : String
  failReason : String
  channelId : Int
  quota : Int
  buttons : String
  properties : String
deriving DecidableEq, Repr

/-- The fields of `dto.MidjourneyRequest` that a submission reads. -/
structure MidjourneyRequest where
  prompt : String
  customId : String
  action : String
  index : Int
  taskId : String
  content : String
deriving DecidableEq, Repr

/-- The `properties` of a response, if they are an object: the two entries that are
looked up, if they are strings. -/
structure ResponseProperties where
  imageUrl : Option String
  status : Option String
deriving DecidableEq, Repr

/-- `dto.MidjourneyResponse`. -/
structure MidjourneyResponse where
  code : Int
  description : String
  properties : Option ResponseProperties
  result : String
deriving DecidableEq, Repr

/-- `dto.MidjourneyResponseWithStatusCode`, with the body it was read from. -/
structure Reply where
  statusCode : Int
  response : MidjourneyResponse
  body : String
deriving DecidableEq, Repr

/-- The fields of `dto.MidjourneyDto` that are stored; `buttons` and `properties` as they
are marshalled, `none` where they are nil. -/
structure MidjourneyDto where
  mjId : String
  promptEn : String
  state : String
  submitTime : Int
  startTime : Int
  finishTime : Int
  imageUrl : String
  videoUrl : String
  videoUrls : Option (List String)
  status : String
  progress : String
  failReason : String
  buttons : Option String
  properties : Option String
deriving DecidableEq, Repr

/-- The setting a submission reads, and `json.Marshal` on the two types it is used for. -/
structure Settings where
  mjActionCheckSuccessEnabled : Bool
  marshalVideoUrls : Option (List String) → String
  marshalResponse : MidjourneyResponse → String

/-- The fields of `RelayInfo` that `PostConsumeQuota` reads. `RelayMidjourney` makes the
relay info itself and opens no billing session, so that there is no billing source. -/
structure Payer where
  userId : Int
  tokenId : Int
  isPlayground : Bool
deriving DecidableEq, Repr

/-- How a handler ends before its time. -/
inductive Abort where
  /-- It returns this response. -/
  | response (r : MidjourneyResponse)
  /-- It indexes out of range, or through a nil pointer. -/
  | panic
deriving DecidableEq, Repr

/-- `MidjourneyErrorWrapper` with `MjRequestError`. -/
def requestError (desc : String) : Abort := .response ⟨4, desc, none, ""⟩

/-! ### The actions -/

def mjActionInPaint : String := "INPAINT"

def mjActionCustomZoom : String := "CUSTOM_ZOOM"

def mjActionUpload : String := "UPLOAD"

def mjActionSwapFace : String := "SWAP_FACE"

/-- The relay modes that lead to `RelayMidjourneySubmit`. -/
inductive RelayMode where
  | action
  | video
  | imagine
  | describe
  | edits
  | shorten
  | blend
  | upload
  | change
  | simpleChange
  | modal
  | unknown
deriving DecidableEq, Repr

/-- An element of a slice. -/
def index {α : Type} (l : List α) (i : Nat) : Except Abort α :=
  match l[i]? with
  | some a => .ok a
  | none => .error .panic

/-- An index in a custom id. -/
def parseIndex (splits : List String) : Except Abort Int := do
  match atoi (← index splits 3) with
  | some n => .ok n
  | none => .error (requestError "index_parse_failed")

def coverPlusActionToNormalAction (req : MidjourneyRequest) : Except Abort MidjourneyRequest := do
  if req.customId = "" then .error (requestError "custom_id_is_required")
  else
    let splits := splitOn "::" req.customId
    let second ← index splits 1
    let action ← if second = "JOB" then index splits 2 else .ok second
    if action = "" then .error (requestError "unknown_action")
    else if contains action "upsample" then
      return { req with index := ← parseIndex splits, action := "UPSCALE" }
    else if contains action "variation" then
      if action = "variation" then
        return { req with index := ← parseIndex splits, action := "VARIATION" }
      else if action = "low_variation" then
        return { req with index := 1, action := "LOW_VARIATION" }
      else if action = "high_variation" then
        return { req with index := 1, action := "HIGH_VARIATION" }
      -- the action of the request stays
      else return { req with index := 1 }
    else if contains action "pan" then return { req with index := 1, action := "PAN" }
    else if contains action "reroll" then return { req with index := 1, action := "REROLL" }
    else if action = "Outpaint" then return { req with index := 1, action := "ZOOM" }
    else if action = "CustomZoom" then
      return { req with index := 1, action := mjActionCustomZoom }
    else if action = "Inpaint" then return { req with index := 1, action := mjActionInPaint }
    else .error (requestError ("unknown_action:" ++ req.customId))

/-- `ConvertSimpleChangeParams`: the task id and the action, `none` if it cannot be
parsed. -/
def convertSimpleChangeParams (content : String) : Except Abort (Option (String × String)) :=
  match split ' ' content with
  | [taskId, change] =>
    -- `action[1:2]` of an action of one letter is out of range
    let withIndex (action : String) : List Char → Except Abort (Option (String × String))
      | [] => .error .panic
      | d :: _ => .ok (if '1' ≤ d ∧ d ≤ '4' then some (taskId, action) else none)
    match change.toList.map Char.toLower with
    | [] => .error .panic
    | 'u' :: rest => withIndex "UPSCALE" rest
    | 'v' :: rest => withIndex "VARIATION" rest
    | ['r'] => .ok (some (taskId, "REROLL"))
    | _ => .ok none
  | _ => .ok none

/-! ### The submission -/

/-- A call of `RelayMidjourneySubmit`: the request, and what it is answered on its way. -/
structure SubmitCall where
  relayMode : RelayMode
  request : MidjourneyRequest
  info : Payer
  /-- The `channel_id` of the gin context. -/
  channelId : Int
  /-- What `GetChannelById` finds for an original task: whether the channel is enabled. -/
  originChannel : Option Bool
  /-- `ModelPriceHelperPerCall` -/
  price : Except String Int
  /-- `GetUserQuota` -/
  userQuota : Except String Int
  /-- `DoMidjourneyHttpRequest` -/
  reply : Except MidjourneyResponse Reply
  /-- Whether `GetChannelById` finds the channel that has no account. -/
  channelFound : Bool
  /-- The clock, in milliseconds. -/
  now : Int
  insertFails : Bool

/-- The id of the original task, and the request with its action, for the modes that act
on one. -/
def originTaskId (mode : RelayMode) (req : MidjourneyRequest) :
    Except Abort (String × MidjourneyRequest) := do
  match mode with
  | .change =>
    if req.action = "" then .error (requestError "action_is_required")
    else if req.index = 0 then .error (requestError "index_is_required")
    else return (req.taskId, req)
  | .simpleChange =>
    if req.content = "" then .error (requestError "content_is_required")
    else
      match ← convertSimpleChangeParams req.content with
      | none => .error (requestError "content_parse_failed")
      | some (taskId, action) => return (taskId, { req with action := action })
  | .modal => return (req.taskId, { req with action := "MODAL" })
  | .video => return (req.taskId, { req with action := "VIDEO" })
  | _ => return ("", req)

def getByMJId (rows : List MidjourneyRow) (userId : Int) (mjId : String) :
    Option MidjourneyRow :=
  rows.find? fun r => decide (r.userId = userId ∧ r.mjId = mjId)

/-- The first half of `RelayMidjourneySubmit`: the request as it is acted upon, with its
action, and the channel. -/
def submitRequest (cfg : Settings) (rows : List MidjourneyRow) (call : SubmitCall) :
    Except Abort (MidjourneyRequest × Int) := do
  let (mode, req) ←
    if call.relayMode = .action then
      pure (RelayMode.change, ← coverPlusActionToNormalAction call.request)
    else pure (call.relayMode, call.request)
  let req := if mode = .video then { req with action := "VIDEO" } else req
  match mode with
  | .imagine =>
    if req.prompt = "" then .error (requestError "prompt_is_required")
    else return ({ req with action := "IMAGINE" }, call.channelId)
  | .describe => return ({ req with action := "DESCRIBE" }, call.channelId)
  | .edits => return ({ req with action := "EDITS" }, call.channelId)
  | .shorten => return ({ req with action := "SHORTEN" }, call.channelId)
  | .blend => return ({ req with action := "BLEND" }, call.channelId)
  | .upload => return ({ req with action := mjActionUpload }, call.channelId)
  | _ =>
    if req.taskId = "" then return (req, call.channelId)
    else
      let (mjId, req) ← originTaskId mode req
      match getByMJId rows call.info.userId mjId with
      | none => .error (requestError "task_not_found")
      | some originTask =>
        if cfg.mjActionCheckSuccessEnabled ∧ originTask.status ≠ "SUCCESS" ∧ mode ≠ .modal then
          .error (requestError "task_status_not_success")
        else
          match call.originChannel with
          | none => .error (requestError "get_channel_info_failed")
          | some false => .error (requestError "该任务所属渠道已被禁用")
          | some true => return ({ req with prompt := originTask.prompt }, originTask.channelId)

/-- Whether the action is free of charge. -/
def freeAction (action : String) : Bool :=
  action == mjActionInPaint || action == mjActionCustomZoom

/-- 1 is a success, 21 a task that exists already, 22 a task that waits. -/
def acceptedCode (code : Int) : Bool := code == 1 || code == 21 || code == 22

/-- The row as a submission makes it, before it looks at the code of the response. -/
def newRow (userId : Int) (action prompt : String) (resp : MidjourneyResponse)
    (submitTime startTime channelId quota : Int) : MidjourneyRow :=
  { code := resp.code, userId := userId, action := action, mjId := resp.result
    prompt := prompt, promptEn := "", description := resp.description, state := ""
    submitTime := submitTime, startTime := startTime, finishTime := 0, imageUrl := ""
    videoUrl := "", videoUrls := "", status := "", progress := "0%", failReason := ""
    channelId := channelId, quota := quota, buttons := "", properties := "" }

/-- A task that exists already: its image and its status, if the response has both. -/
def MidjourneyRow.existing (t : MidjourneyRow) (now : Int) (resp : MidjourneyResponse) :
    MidjourneyRow :=
  match resp.properties with
  | some ⟨some imageUrl, some status⟩ =>
    if status = "SUCCESS" then
      { t with
        imageUrl := imageUrl, status := status, progress := "100%"
        startTime := now, finishTime := now }
    else { t with imageUrl := imageUrl, status := status }
  | _ => t

/-- The code of the response after that: an existing task that has succeeded counts as a
submission that has. -/
def codeAfter (resp : MidjourneyResponse) : Int :=
  match resp.code, resp.properties with
  | 21, some ⟨some _, some status⟩ => if status = "SUCCESS" then 1 else 21
  | code, _ => code

/-- The row as `RelayMidjourneySubmit` inserts it. -/
def submittedRow (call : SubmitCall) (req : MidjourneyRequest) (channelId quota : Int)
    (resp : MidjourneyResponse) : MidjourneyRow :=
  let t := newRow call.info.userId req.action req.prompt resp call.now 0 channelId quota
  let t := if acceptedCode resp.code then t else { t with failReason := resp.description }
  let t := if resp.code = 21 then t.existing call.now resp else t
  if codeAfter resp = 1 ∧ req.action = mjActionUpload then
    { t with progress := "100%", status := "SUCCESS" }
  else t

/-- The body that is passed on to the client: existing and waiting tasks are successes. -/
def submittedBody (req : MidjourneyRequest) (reply : Reply) : String :=
  let body := if reply.response.code = 21 ∧ freeAction req.action = false then
    replaceAll "\"code\":21" "\"code\":1" reply.body else reply.body
  if codeAfter reply.response = 22 then replaceAll "\"code\":22" "\"code\":1" body else body

/-- What a handler does: how it ends, what it writes to the client, the row it inserts,
and the amount that the deferred function charges. -/
structure Outcome where
  abort : Option Abort := none
  written : Option (Int × String) := none
  inserted : Option MidjourneyRow := none
  charge : Option Int := none
deriving DecidableEq, Repr

/-- A handler that ends with the response of an error, before it has done anything. -/
def Outcome.refused (desc : String) : Outcome := { abort := some (requestError desc) }

def relayMidjourneySubmit (cfg : Settings) (rows : List MidjourneyRow) (call : SubmitCall) :
    Outcome :=
  match submitRequest cfg rows call with
  | .error a => { abort := some a }
  | .ok (req, channelId) =>
    let consumeQuota := !freeAction req.action
    match call.price, call.userQuota with
    | .error e, _ => .refused e
    | .ok _, .error e => .refused e
    | .ok quota, .ok userQuota =>
      if consumeQuota ∧ userQuota - quota < 0 then .refused "quota_not_enough"
      else
        match call.reply with
        | .error r => { abort := some (.response r) }
        | .ok reply =>
          let resp := reply.response
          if resp.code = 3 ∧ call.channelFound = false then
            -- the deferred function runs while the panic unwinds, with the flag still set
            { abort := some .panic
              charge := if consumeQuota ∧ reply.statusCode = 200 then some quota else none }
          else
            let consumeQuota := consumeQuota && acceptedCode resp.code
            let charge := if consumeQuota ∧ reply.statusCode = 200 then some quota else none
            if call.insertFails then
              { Outcome.refused "insert_midjourney_task_failed" with charge := charge }
            else
              { inserted := some (submittedRow call req channelId quota resp)
                written := some (reply.statusCode, submittedBody req reply)
                charge := charge }

/-- A call of `RelaySwapFace`. -/
structure SwapFaceCall where
  sourceBase64 : String
  targetBase64 : String
  info : Payer
  channelId : Int
  price : Except String Int
  userQuota : Except String Int
  reply : Except MidjourneyResponse Reply
  /-- `info.StartTime` -/
  startTime : Int
  now : Int
  insertFails : Bool

def relaySwapFace (cfg : Settings) (call : SwapFaceCall) : Outcome :=
  if call.sourceBase64 = "" ∨ call.targetBase64 = "" then
    .refused "sour_base64_and_target_base64_is_required"
  else
    match call.price, call.userQuota with
    | .error e, _ => .refused e
    | .ok _, .error e => .refused e
    | .ok quota, .ok userQuota =>
      if userQuota - quota < 0 then .refused "quota_not_enough"
      else
        match call.reply with
        | .error r => { abort := some (.response r) }
        | .ok reply =>
          let resp := reply.response
          let charge := if reply.statusCode = 200 ∧ resp.code = 1 then some quota else none
          if call.insertFails then
            { Outcome.refused "insert_midjourney_task_failed" with charge := charge }
          else
            { inserted := some (newRow call.info.userId mjActionSwapFace "InsightFace" resp
                call.startTime call.now call.channelId quota)
              written := some (reply.statusCode, cfg.marshalResponse resp)
              charge := charge }

/-- `PostConsumeQuota` of a relay info without a billing source. -/
def postConsumeQuota (info : Payer) (w : Accounts) (quota : Int) : Except String Accounts :=
  match (if quota > 0 then decreaseUserQuota none w info.userId quota
    else increaseUserQuota none w info.userId (-quota)) with
  | .error e => .error e
  | .ok w' =>
    if info.isPlayground then .ok w'
    else if quota > 0 then decreaseTokenQuota none w' info.tokenId quota
    else increaseTokenQuota none w' info.tokenId (-quota)

/-- The deferred function: an error of `PostConsumeQuota` is logged only. -/
def chargedAccounts (info : Payer) (w : Accounts) : Option Int → Accounts
  | none => w
  | some quota =>
    match postConsumeQuota info w quota with
    | .ok w' => w'
    | .error _ => w

/-! ### The notification -/

/-- `GetByOnlyMJId`: the row with the smallest key. -/
def getByOnlyMJId (rows : List MidjourneyRow) (mjId : String) : Option Nat :=
  rows.findIdx? fun r => r.mjId == mjId

/-- The row as `RelayMidjourneyNotify` saves it. -/
def MidjourneyRow.notified (cfg : Settings) (t : MidjourneyRow) (req : MidjourneyDto) :
    MidjourneyRow :=
  { t with
    progress := req.progress, promptEn := req.promptEn, state := req.state
    submitTime := req.submitTime, startTime := req.startTime, finishTime := req.finishTime
    imageUrl := req.imageUrl, videoUrl := req.videoUrl
    videoUrls := cfg.marshalVideoUrls req.videoUrls
    status := req.status, failReason := req.failReason }

/-! ### The poller -/

/-- The item of a reply as it is acted upon: after an hour a task that is not at 100% has
failed. -/
def timedOut (now : Int) (t : MidjourneyRow) (item : MidjourneyDto) : MidjourneyDto :=
  if now - t.submitTime > 3600000 ∧ t.progress ≠ "100%" then
    { item with failReason := "上游任务超时（超过1小时）", status := "FAILURE" }
  else item

/-- Whether an item names videos. -/
def MidjourneyDto.hasVideoUrls (item : MidjourneyDto) : Bool :=
  match item.videoUrls with
  | some (_ :: _) => true
  | _ => false

def checkMjTaskNeedUpdate (cfg : Settings) (old : MidjourneyRow) (new : MidjourneyDto) : Bool :=
  old.code != 1 || old.progress != new.progress || old.promptEn != new.promptEn ||
  old.state != new.state || old.submitTime != new.submitTime ||
  old.startTime != new.startTime || old.finishTime != new.finishTime ||
  old.imageUrl != new.imageUrl || old.status != new.status ||
  old.failReason != new.failReason || (old.progress != "100%" && new.failReason != "") ||
  old.videoUrl != new.videoUrl ||
  (if new.hasVideoUrls then old.videoUrls != cfg.marshalVideoUrls new.videoUrls
    else old.videoUrls != "")

/-- The copy with what the item says. -/
def MidjourneyRow.applyItem (cfg : Settings) (t : MidjourneyRow) (item : MidjourneyDto) :
    MidjourneyRow :=
  { t with
    code := 1, progress := item.progress, promptEn := item.promptEn, state := item.state
    submitTime := item.submitTime, startTime := item.startTime, finishTime := item.finishTime
    imageUrl := item.imageUrl, status := item.status, failReason := item.failReason
    properties := item.properties.getD t.properties, buttons := item.buttons.getD t.buttons
    videoUrl := item.videoUrl
    videoUrls := if item.hasVideoUrls then cfg.marshalVideoUrls item.videoUrls else "" }

/-- Whether the poller takes a task for failed, of which it hears `item`. -/
def buildFails (item : MidjourneyDto) : Bool :=
  (item.progress != "100%" && item.failReason != "") ||
  (item.progress == "100%" && item.status == "FAILURE")

/-- The copy as `UpdateMidjourneyTaskBulk` writes it. -/
def MidjourneyRow.polled (cfg : Settings) (t : MidjourneyRow) (item : MidjourneyDto) :
    MidjourneyRow :=
  let t' := t.applyItem cfg item
  if buildFails item then { t' with progress := "100%" } else t'

def shouldReturnQuota (t : MidjourneyRow) (item : MidjourneyDto) : Bool :=
  buildFails item && t.quota != 0

/-! ### The system -/

/-- What has been moved on account of one submission: what `PostConsumeQuota` has consumed
of the user and of the token, what was given back to the user, and how often. -/
structure Book where
  userId : Int
  tokenId : Int
  consumed : Int
  tokenConsumed : Int
  returned : Int
  refunds : Nat
deriving DecidableEq, Repr

/-- A row, and the books of its submission. -/
structure Task where
  row : MidjourneyRow
  book : Book
deriving DecidableEq, Repr

/-- A row that was loaded. -/
structure Copy where
  id : Nat
  row : MidjourneyRow
deriving DecidableEq, Repr

/-- A round of the poller: the rows without a task id that it has still to write off, its
copies by task id, the task ids of the channels it has still to ask, and the items of a
reply it has still to come to. -/
structure Round where
  nullTaskIds : List Nat
  taskM : String → Option Copy
  taskChannelM : Int → List String
  items : List MidjourneyDto

/-- The state: the rows with their books, the books of the submissions that have left no
row, the rounds of the pollers, the saves of the notifications, and the accounts. -/
structure State where
  tasks : List Task
  lost : List Book
  rounds : Nat → Option Round
  saves : Nat → Option Copy
  accounts : Accounts

/-- What a channel has to say. -/
inductive Answer where
  /-- `CacheGetChannel` does not find it. -/
  | missing
  /-- The request fails, or is not answered by a list. -/
  | silent
  | items (items : List MidjourneyDto)
deriving DecidableEq, Repr

/-- What can happen: a submission or a swap of faces, a notification that loads its row and saves
it, and the steps of the polling loops with the answers of the channels. -/
inductive Event where
  | submit (call : SubmitCall)
  | swapFace (call : SwapFaceCall)
  /-- A notification loads its row. -/
  | notify (j : Nat) (req : MidjourneyDto)
  /-- A notification saves its row. -/
  | save (j : Nat)
  /-- A poller loads the rows that are not at 100%. -/
  | poll (i : Nat)
  /-- A poller writes off the rows without a task id. -/
  | fixNull (i : Nat)
  /-- A poller asks a channel; the order of the channels is that of a Go map. -/
  | channel (i : Nat) (channelId : Int) (answer : Answer)
  /-- A poller comes to the next item of a reply. -/
  | item (i : Nat) (now : Int)
  /-- A round ends. -/
  | done (i : Nat)

/-- The books of a submission of which nothing has been given back. -/
def newBook (info : Payer) (charge : Option Int) : Book :=
  { userId := info.userId, tokenId := info.tokenId, consumed := charge.getD 0
    tokenConsumed := if info.isPlayground then 0 else charge.getD 0, returned := 0, refunds := 0 }

/-- The books after a refund. -/
def Book.refund (b : Book) (quota : Int) : Book :=
  { b with returned := b.returned + quota, refunds := b.refunds + 1 }

/-- The row as the bulk updates leave it, with a reason if one is given. -/
def MidjourneyRow.writtenOff (failReason : Option String) (t : MidjourneyRow) : MidjourneyRow :=
  { t with status := "FAILURE", progress := "100%", failReason := failReason.getD t.failReason }

/-- A round as it begins. Of several rows with one task id the last is kept. -/
def beginRound (tasks : List Task) : Round :=
  let copies := tasks.zipIdx.filterMap fun p =>
    if p.1.row.progress ≠ "100%" then some (Copy.mk p.2 p.1.row) else none
  { nullTaskIds := (copies.filter fun c => c.row.mjId == "").map Copy.id
    taskM := fun mjId =>
      if mjId = "" then none else (copies.filter fun c => c.row.mjId == mjId).getLast?
    taskChannelM := fun channelId =>
      (copies.filter fun c => c.row.mjId != "" && c.row.channelId == channelId).map (·.row.mjId)
    items := [] }

namespace State

variable (x : State)

/-- The state before anything was submitted. -/
def fresh (w : Accounts) : State := ⟨[], [], fun _ => none, fun _ => none, w⟩

def rows : List MidjourneyRow := x.tasks.map Task.row

/-- The books of all submissions. -/
def books : List Book := x.tasks.map Task.book ++ x.lost

/-- The state with a round replaced. -/
def setRound (i : Nat) (r : Option Round) : State :=
  { x with rounds := Function.update x.rounds i r }

/-- The state with the rows that are written off by a bulk update. -/
def writeOff (failReason : Option String) (hit : Nat → MidjourneyRow → Bool) : State :=
  { x with tasks := x.tasks.mapIdx fun k t =>
      if hit k t.row then { t with row := t.row.writtenOff failReason } else t }

/-- What becomes of a handler that was called by `info`. A submission that leaves no row
has books of its own. -/
def handled (info : Payer) (o : Outcome) : State :=
  let y := { x with accounts := chargedAccounts info x.accounts o.charge }
  match o.inserted with
  | some row => { y with tasks := x.tasks ++ [⟨row, newBook info o.charge⟩] }
  | none => { y with lost := x.lost ++ [newBook info o.charge] }

/-- `Update`: the row is saved as it is. -/
def update (c : Copy) : State :=
  match x.tasks[c.id]? with
  | some t => { x with tasks := x.tasks.set c.id { t with row := c.row } }
  | none => x

/-- `UpdateWithStatus`, and the refund if it is won and one is due. -/
def updateWithStatus (c : Copy) (fromStatus : String) (refund : Bool) : State :=
  match x.tasks[c.id]? with
  | some t =>
    if t.row.status = fromStatus then
      if refund then
        match increaseUserQuota none x.accounts c.row.userId c.row.quota with
        | .ok w =>
          { x with
            tasks := x.tasks.set c.id ⟨c.row, t.book.refund c.row.quota⟩, accounts := w }
        | .error _ => x.update c
      else x.update c
    else x
  | none => x

/-- What the poller does with an item about its copy `c`, which it keeps under `mjId`. The
copy has what was written, whether the write is won or not. -/
def pollItem (cfg : Settings) (i : Nat) (r : Round) (mjId : String) (c : Copy)
    (item : MidjourneyDto) : State :=
  if checkMjTaskNeedUpdate cfg c.row item then
    let c' := { c with row := c.row.polled cfg item }
    (x.updateWithStatus c' c.row.status (shouldReturnQuota c.row item)).setRound i
      (some { r with taskM := Function.update r.taskM mjId (some c') })
  else x.setRound i (some r)

end State

/-- **The system.** An event that does not apply leaves the state alone. -/
def step (cfg : Settings) (x : State) : Event → State
  | .submit call => x.handled call.info (relayMidjourneySubmit cfg x.rows call)
  | .swapFace call => x.handled call.info (relaySwapFace cfg call)
  | .notify j req =>
    match x.saves j, getByOnlyMJId x.rows req.mjId with
    | none, some k =>
      match x.tasks[k]? with
      | some t => { x with saves := Function.update x.saves j (some ⟨k, t.row.notified cfg req⟩) }
      | none => x
    | _, _ => x
  | .save j =>
    match x.saves j with
    | some c => { x.update c with saves := Function.update x.saves j none }
    | none => x
  | .poll i =>
    match x.rounds i with
    | none => x.setRound i (some (beginRound x.tasks))
    | some _ => x
  | .fixNull i =>
    match x.rounds i with
    | some r => (x.writeOff none fun k _ => decide (k ∈ r.nullTaskIds)).setRound i
        (some { r with nullTaskIds := [] })
    | none => x
  | .channel i channelId answer =>
    match x.rounds i with
    | some r =>
      -- the channels come one after the other, after the rows without a task id
      if r.nullTaskIds = [] ∧ r.items = [] ∧ r.taskChannelM channelId ≠ [] then
        let r' := { r with taskChannelM := Function.update r.taskChannelM channelId [] }
        match answer with
        | .missing =>
          let reason := "获取渠道信息失败，请联系管理员，渠道ID：" ++ toString channelId
          (x.writeOff (some reason) fun _ t =>
            decide (t.mjId ∈ r.taskChannelM channelId)).setRound i (some r')
        | .silent => x.setRound i (some r')
        | .items items => x.setRound i (some { r' with items := items })
      else x
    | none => x
  | .item i now =>
    match x.rounds i with
    | some r =>
      match r.items with
      | [] => x
      | first :: rest =>
        match r.taskM first.mjId with
        -- an item nobody has asked for: the poller panics
        | none => x.setRound i none
        | some c =>
          x.pollItem cfg i { r with items := rest } first.mjId c (timedOut now c.row first)
    | none => x
  | .done i =>
    match x.rounds i with
    | some r => if r.nullTaskIds = [] ∧ r.items = [] then x.setRound i none else x
    | none => x

end NewApiPool.Midjourney
