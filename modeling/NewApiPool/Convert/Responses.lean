import Mathlib.Logic.Function.Basic
import NewApiPool.Convert.ToClaude

/-!
# A Responses stream for a chat client

`OaiResponsesToChatStreamHandler` reads the events of the Responses API and sends chat
completion chunks: text as it comes, and tool calls under the index their call id was
given first, as long as no text was sent. `ResponsesResponseToChatCompletionsResponse` does
the same to a whole response.

The chunks go to the client as they are, or through `HandleStreamFormat` if it speaks
Claude's language; in that case the usage is put into the state of the converter before
the last of them. So what the handler sends is a list of both (`Sent`).
-/

namespace NewApiPool.Convert

/-! ### Data -/

/-- `dto.ResponsesOutputContent` -/
structure OutputContent where
  type : String
  text : String
deriving DecidableEq, Repr

/-- `dto.ResponsesOutput`; `arguments` is the text that `ArgumentsString` makes of the raw
field. -/
structure OutputItem where
  type : String
  id : String := ""
  role : String := ""
  content : List OutputContent := []
  callId : String := ""
  name : String := ""
  arguments : String := ""
deriving DecidableEq, Repr

/-- `dto.OpenAIResponsesResponse` -/
structure Response where
  model : String := ""
  output : List OutputItem := []
  usage : Option Usage := none
deriving DecidableEq, Repr

/-- `dto.ResponsesStreamResponse`, by its `Type`. -/
inductive ResponsesEvent where
  | created (response : Option Response)
  | reasoningSummaryTextDelta (delta : String)
  | reasoningSummaryTextDone
  | outputTextDelta (delta : String)
  /-- `response.output_item.added` and `response.output_item.done`, which the handler does
  not tell apart -/
  | outputItem (item : Option OutputItem)
  | functionCallArgumentsDelta (itemId delta : String)
  | completed (response : Option Response)
  /-- `response.error` and `response.failed` -/
  | failed
  /-- the types the handler does nothing on -/
  | other (type : String)
deriving DecidableEq, Repr

/-- What the handler hands on, in order. -/
inductive Sent where
  | chunk (chunk : Chunk)
  /-- `info.ClaudeConvertInfo.Usage = usage` -/
  | usage (usage : Usage)
deriving DecidableEq, Repr

/-- What the handler uses of its surroundings. -/
structure ResponsesEnv where
  responseId : String
  upstreamModelName : String
  shouldIncludeUsage : Bool
  estimatePromptTokens : Int
  /-- `EstimateTokenByModel` for the upstream model -/
  estimateToken : String → Int

/-- The local variables of the handler. A missing key of a map of texts reads as the empty
text, as in the source. -/
structure Handler where
  model : String
  usage : Usage := {}
  outputText : String := ""
  usageText : String := ""
  sentStart : Bool := false
  sentStop : Bool := false
  sawToolCall : Bool := false
  streamErr : Bool := false
  toolCallIndexByID : List (String × Nat) := []
  toolCallNameByID : String → String := fun _ => ""
  toolCallArgsByID : String → String := fun _ => ""
  toolCallNameSent : String → Bool := fun _ => false
  toolCallCanonicalIDByItemID : String → String := fun _ => ""
  hasSentReasoningSummary : Bool := false
  needsReasoningSummarySeparator : Bool := false
  sent : List Sent := []

/-! ### The handler -/

section Handler

variable (env : ResponsesEnv)

def Handler.sendChatChunk (h : Handler) (chunk : Chunk) : Handler :=
  { h with sent := h.sent ++ [Sent.chunk chunk] }

def Handler.sendStartIfNeeded (h : Handler) : Handler :=
  if h.sentStart then h
  else
    { h.sendChatChunk (generateStartEmptyResponse env.responseId h.model) with
      sentStart := true }

/-- A chunk with one choice. -/
def Handler.chunk (h : Handler) (delta : Delta) : Chunk :=
  { id := env.responseId, model := h.model, choices := [{ delta }] }

def Handler.sendReasoningSummaryDelta (h : Handler) (delta : String) : Handler :=
  if delta = "" then h
  else
    let delta :=
      if h.needsReasoningSummarySeparator then
        if GoText.startsWith delta "\n\n" then delta
        else if GoText.startsWith delta "\n" then "\n" ++ delta
        else "\n\n" ++ delta
      else delta
    let h := { h with needsReasoningSummarySeparator := false }.sendStartIfNeeded env
    let h := { h with usageText := h.usageText ++ delta }
    { h.sendChatChunk (h.chunk env { reasoningContent := some delta }) with
      hasSentReasoningSummary := true }

/-- The index of a call id, new or not. -/
def Handler.toolCallIndex (h : Handler) (callID : String) : Nat :=
  (h.toolCallIndexByID.lookup callID).getD h.toolCallIndexByID.length

/-- The name that goes with a call id. -/
def Handler.toolCallName (h : Handler) (callID name : String) : String :=
  if name ≠ "" then name else h.toolCallNameByID callID

/-- The tool call a delta is sent as: the name goes with the first of them only. -/
def Handler.toolCall (h : Handler) (callID name argsDelta : String) : ToolCall :=
  { index := some (h.toolCallIndex callID)
    id := callID
    name := if h.toolCallNameSent callID then "" else h.toolCallName callID name
    arguments := argsDelta }

/-- The entries of the maps for a call that is sent. -/
def Handler.noteToolCall (h : Handler) (callID name : String) : Handler :=
  { h with
    toolCallIndexByID :=
      if (h.toolCallIndexByID.lookup callID).isSome then h.toolCallIndexByID
      else h.toolCallIndexByID ++ [(callID, h.toolCallIndexByID.length)]
    toolCallNameByID :=
      Function.update h.toolCallNameByID callID (h.toolCallName callID name)
    toolCallNameSent := Function.update h.toolCallNameSent callID
      (h.toolCallNameSent callID || h.toolCallName callID name != "")
    sawToolCall := true }

def Handler.sendToolCallDelta (h : Handler) (callID name argsDelta : String) : Handler :=
  if callID = "" then h
  -- the text that was streamed is preferred to tool calls
  else if h.outputText ≠ "" then h
  else
    let h := h.sendStartIfNeeded env
    let tool := h.toolCall callID name argsDelta
    { (h.noteToolCall callID name).sendChatChunk (h.chunk env { toolCalls := [tool] }) with
      usageText := h.usageText ++ tool.name ++ argsDelta }

/-- What an item adds to the arguments that were sent: the rest of them, or all of them
again if they do not begin with those. -/
def argsDelta (prevArgs newArgs : String) : String :=
  if newArgs = "" then ""
  else if GoText.startsWith newArgs prevArgs then
    String.ofList (newArgs.toList.drop prevArgs.toList.length)
  else newArgs

/-- The id under which a function call is known. -/
def OutputItem.canonicalID (item : OutputItem) : String :=
  if GoText.trimSpace item.callId ≠ "" then GoText.trimSpace item.callId
  else GoText.trimSpace item.id

/-- The entries of the maps for an item. -/
def Handler.noteItem (h : Handler) (item : OutputItem) : Handler :=
  let itemID := GoText.trimSpace item.id
  let callID := item.canonicalID
  let name := GoText.trimSpace item.name
  { h with
    toolCallCanonicalIDByItemID :=
      if itemID ≠ "" ∧ callID ≠ "" then
        Function.update h.toolCallCanonicalIDByItemID itemID callID
      else h.toolCallCanonicalIDByItemID
    toolCallNameByID :=
      if name ≠ "" then Function.update h.toolCallNameByID callID name
      else h.toolCallNameByID
    toolCallArgsByID :=
      if item.arguments ≠ "" then Function.update h.toolCallArgsByID callID item.arguments
      else h.toolCallArgsByID }

/-- The case of `response.output_item.added` and `response.output_item.done`. -/
def Handler.outputItem (h : Handler) (item : OutputItem) : Handler :=
  if item.type ≠ "function_call" then h
  else
    (h.noteItem item).sendToolCallDelta env item.canonicalID (GoText.trimSpace item.name)
      (argsDelta (h.toolCallArgsByID item.canonicalID) item.arguments)

/-- The call a delta of arguments is for. -/
def Handler.deltaCallID (h : Handler) (itemId : String) : String :=
  let itemID := GoText.trimSpace itemId
  if h.toolCallCanonicalIDByItemID itemID ≠ "" then h.toolCallCanonicalIDByItemID itemID
  else itemID

/-- The arguments of a call, longer by a delta. -/
def Handler.noteArguments (h : Handler) (callID delta : String) : Handler :=
  { h with
    toolCallArgsByID :=
      Function.update h.toolCallArgsByID callID (h.toolCallArgsByID callID ++ delta) }

/-- The case of `response.function_call_arguments.delta`. -/
def Handler.argumentsDelta (h : Handler) (itemId delta : String) : Handler :=
  let callID := h.deltaCallID itemId
  if callID = "" then h
  else (h.noteArguments callID delta).sendToolCallDelta env callID "" delta

/-- The usage of a chat completion, from that of a response: what is zero there stays as
it is. -/
def readUsage (usage : Usage) (u : Usage) : Usage :=
  let usage :=
    if u.inputTokens ≠ 0 then
      { usage with promptTokens := u.inputTokens, inputTokens := u.inputTokens } else usage
  let usage :=
    if u.outputTokens ≠ 0 then
      { usage with completionTokens := u.outputTokens, outputTokens := u.outputTokens }
    else usage
  let usage := { usage with
    totalTokens :=
      if u.totalTokens ≠ 0 then u.totalTokens
      else usage.promptTokens + usage.completionTokens }
  let usage :=
    match u.inputTokensDetails with
    | some details =>
      { usage with
        promptTokensDetails := { usage.promptTokensDetails with
          cachedTokens := details.cachedTokens
          imageTokens := details.imageTokens
          audioTokens := details.audioTokens } }
    | none => usage
  if u.reasoningTokens ≠ 0 then { usage with reasoningTokens := u.reasoningTokens } else usage

/-- The stop chunk, after the usage. -/
def Handler.sendStop (h : Handler) : Handler :=
  let finishReason := if h.sawToolCall ∧ h.outputText = "" then "tool_calls" else "stop"
  let h := { h with sent := h.sent ++ [Sent.usage h.usage] }
  h.sendChatChunk (generateStopResponse env.responseId h.model finishReason)

/-- The model of a response, and its usage if `withUsage`. -/
def Handler.readResponse (h : Handler) (response : Option Response) (withUsage : Bool) :
    Handler :=
  match response with
  | some r =>
    { h with
      model := if r.model ≠ "" then r.model else h.model
      usage := match r.usage, withUsage with
        | some u, true => readUsage h.usage u
        | _, _ => h.usage }
  | none => h

/-- What a stream ends with: a start and a stop, as far as they were not sent. -/
def Handler.sendStopIfNeeded (h : Handler) : Handler :=
  let h := h.sendStartIfNeeded env
  if h.sentStop then h else { h.sendStop env with sentStop := true }

/-- The case of `response.output_text.delta`. -/
def Handler.outputTextDelta (h : Handler) (delta : String) : Handler :=
  let h := h.sendStartIfNeeded env
  if delta ≠ "" then
    { h with
      outputText := h.outputText ++ delta
      usageText := h.usageText ++ delta }.sendChatChunk (h.chunk env { content := some delta })
  else h

/-- The data handler, on one event. -/
def Handler.step (h : Handler) (event : ResponsesEvent) : Handler :=
  if h.streamErr then h
  else
    match event with
    | .created response => h.readResponse response false
    | .reasoningSummaryTextDelta delta => h.sendReasoningSummaryDelta env delta
    | .reasoningSummaryTextDone =>
      if h.hasSentReasoningSummary then { h with needsReasoningSummarySeparator := true } else h
    | .outputTextDelta delta => h.outputTextDelta env delta
    | .outputItem item =>
      match item with
      | some item => h.outputItem env item
      | none => h
    | .functionCallArgumentsDelta itemId delta => h.argumentsDelta env itemId delta
    | .completed response => (h.readResponse response true).sendStopIfNeeded env
    | .failed => { h with streamErr := true }
    | .other _ => h

/-- The usage, estimated if there is none. -/
def Handler.estimateUsage (h : Handler) : Handler :=
  { h with
    usage :=
      if h.usage.totalTokens = 0 then
        responseText2Usage env.estimateToken h.usageText env.estimatePromptTokens
      else h.usage }

/-- What comes after the last event; a stream that failed gets no more chunks. -/
def Handler.finish (h : Handler) : Handler :=
  if h.streamErr then h else (h.estimateUsage env).sendStopIfNeeded env

/-- `OaiResponsesToChatStreamHandler`: all that it hands on, and its variables at the end. -/
def oaiResponsesToChatStreamHandler (events : List ResponsesEvent) : Handler :=
  (events.foldl (Handler.step env) { model := env.upstreamModelName }).finish env

/-- The chunks that an OpenAI client gets. -/
def openAIChunks (events : List ResponsesEvent) : List Chunk :=
  let h := oaiResponsesToChatStreamHandler env events
  h.sent.filterMap (fun
    | .chunk chunk => some chunk
    | .usage _ => none) ++
  if env.shouldIncludeUsage ∧ h.streamErr = false then
    [{ id := env.responseId, model := h.model, usage := some h.usage }]
  else []

/-- What is sent, through `HandleStreamFormat`. -/
def claudeSend (info : RelayInfo) : List Sent → RelayInfo × List Event
  | [] => (info, [])
  | .usage usage :: rest => claudeSend { info with usage := some usage } rest
  | .chunk chunk :: rest =>
    let (info, events) := handleStreamFormat info chunk
    let (info, later) := claudeSend info rest
    (info, events ++ later)

/-- The events that a Claude client gets. -/
def claudeEvents (info : RelayInfo) (events : List ResponsesEvent) : List Event :=
  (claudeSend info (oaiResponsesToChatStreamHandler env events).sent).2

end Handler

/-! ### A whole response -/

/-- A message of a chat completion. -/
structure ChatMessage where
  content : String
  toolCalls : List ToolCall
  finishReason : String
deriving DecidableEq, Repr

def extractOutputTextFromResponses (output : List OutputItem) : String :=
  let text := String.join <| output.map fun out =>
    if out.type ≠ "message" ∨ (out.role ≠ "" ∧ out.role ≠ "assistant") then ""
    else String.join ((out.content.filter fun c => c.type = "output_text").map (·.text))
  if text ≠ "" then text
  else String.join (output.map fun out => String.join (out.content.map (·.text)))

/-- `ResponsesResponseToChatCompletionsResponse`, with its usage. -/
def responsesResponseToChatCompletionsResponse (resp : Response) : ChatMessage × Usage :=
  let text := extractOutputTextFromResponses resp.output
  let usage := match resp.usage with
    | some u => readUsage {} u
    | none => {}
  let toolCalls :=
    if text = "" then
      resp.output.filterMap fun out =>
        let name := GoText.trimSpace out.name
        if out.type ≠ "function_call" ∨ name = "" then none
        else some { id := out.canonicalID, name, arguments := out.arguments }
    else []
  ({ content := if toolCalls ≠ [] then "" else text
     toolCalls
     finishReason := if toolCalls ≠ [] then "tool_calls" else "stop" }, usage)

end NewApiPool.Convert
