import NewApiPool.Convert.Chat

/-!
# An OpenAI stream for a Claude client

`StreamResponseOpenAI2Claude` turns one chunk into the events of a Claude stream. It keeps
its place in `RelayInfo`: how many chunks were sent, which kind of block is open, the
index of the last block, and for tool calls, which may be open side by side, the index of
the first and how many there are.

A chunk is the first one if `SendResponseCount` is 1. That counter belongs to
`HandleStreamFormat`, and `HandleFinalResponse`, which replays the last chunk once the
upstream is done, does not touch it; nor does it go through the line that remembers the
usage of a chunk.
-/

namespace NewApiPool.Convert

/-! ### Events -/

/-- `ContentBlock` of a `content_block_start`. -/
inductive ContentBlock where
  | toolUse (id name : String)
  | thinking
  | text
deriving DecidableEq, Repr

/-- `Delta` of a `content_block_delta`. -/
inductive BlockDelta where
  | inputJson (partialJson : String)
  | thinking (thinking : String)
  | text (text : String)
deriving DecidableEq, Repr

/-- `dto.ClaudeUsage`; the last field is `CacheCreation`. -/
structure ClaudeUsage where
  inputTokens : Int
  outputTokens : Int
  cacheCreationInputTokens : Int := 0
  cacheReadInputTokens : Int := 0
  cacheCreation : Option (Int × Int) := none
deriving DecidableEq, Repr

/-- The values of `dto.ClaudeResponse` the converter makes, by their `Type`. -/
inductive Event where
  | messageStart (id model : String) (usage : ClaudeUsage)
  | contentBlockStart (index : Int) (block : ContentBlock)
  | contentBlockDelta (index : Int) (delta : BlockDelta)
  | contentBlockStop (index : Int)
  | messageDelta (stopReason : String) (usage : ClaudeUsage)
  | messageStop
deriving DecidableEq, Repr

/-- A content event is one about a block. -/
def Event.isContent : Event → Bool
  | .contentBlockStart .. | .contentBlockDelta .. | .contentBlockStop .. => true
  | .messageStart .. | .messageDelta .. | .messageStop => false

/-- `OpenAIFinishReasonToClaudeStopReason` -/
def stopReasonOpenAI2Claude (finishReason : String) : String :=
  let reason := GoText.toLower finishReason
  if reason = "stop" then "end_turn"
  else if reason = "stop_sequence" then "stop_sequence"
  else if reason = "length" ∨ reason = "max_tokens" then "max_tokens"
  else if reason = "content_filter" then "refusal"
  else if reason = "tool_calls" then "tool_use"
  else finishReason

def normalizeCacheCreationSplit (totalTokens tokens5m tokens1h : Int) : Int × Int :=
  let remainder := max (totalTokens - tokens5m - tokens1h) 0
  (tokens5m + remainder, tokens1h)

/-- `buildClaudeUsageFromOpenAIUsage`, for a usage that is not nil. -/
def buildClaudeUsageFromOpenAIUsage (usage : Usage) : ClaudeUsage :=
  let split := normalizeCacheCreationSplit usage.promptTokensDetails.cachedCreationTokens
    usage.claudeCacheCreation5mTokens usage.claudeCacheCreation1hTokens
  { inputTokens := usage.promptTokens
    outputTokens := usage.completionTokens
    cacheCreationInputTokens := usage.promptTokensDetails.cachedCreationTokens
    cacheReadInputTokens := usage.promptTokensDetails.cachedTokens
    cacheCreation := if split.1 > 0 ∨ split.2 > 0 then some split else none }

/-! ### The state of the converter -/

inductive LastMessagesType where
  | none
  | text
  | tools
  | thinking
deriving DecidableEq, Repr

/-- The fields of `RelayInfo` and of its `ClaudeConvertInfo` the converter uses, as
`GenRelayInfoClaude` leaves them. -/
structure RelayInfo where
  sendResponseCount : Nat := 0
  finishReason : String := ""
  estimatePromptTokens : Int := 0
  lastMessagesType : LastMessagesType := .none
  index : Int := 0
  usage : Option Usage := none
  done : Bool := false
  toolCallBaseIndex : Int := 0
  toolCallMaxIndexOffset : Int := 0
deriving DecidableEq, Repr

def stopOpenBlocks (info : RelayInfo) : List Event :=
  match info.lastMessagesType with
  | .text | .thinking => [.contentBlockStop info.index]
  | .tools => (List.range (info.toolCallMaxIndexOffset + 1).toNat).map fun offset : Nat =>
      .contentBlockStop (info.toolCallBaseIndex + offset)
  | .none => []

def stopOpenBlocksAndAdvance (info : RelayInfo) : RelayInfo × List Event :=
  match info.lastMessagesType with
  | .none => (info, [])
  | .tools =>
    ({ info with
        index := info.toolCallBaseIndex + info.toolCallMaxIndexOffset + 1
        toolCallBaseIndex := 0
        toolCallMaxIndexOffset := 0
        lastMessagesType := .none }, stopOpenBlocks info)
  | .text | .thinking =>
    ({ info with index := info.index + 1, lastMessagesType := .none }, stopOpenBlocks info)

/-! ### Text and reasoning -/

/-- The two kinds of content that come as plain text. -/
inductive Prose where
  | thinking
  | text
deriving DecidableEq, Repr

/-- The type of the messages of a kind. -/
def Prose.messagesType : Prose → LastMessagesType
  | .thinking => .thinking
  | .text => .text

/-- The block of a kind. -/
def Prose.block : Prose → ContentBlock
  | .thinking => .thinking
  | .text => .text

def Prose.delta : Prose → String → BlockDelta
  | .thinking, s => .thinking s
  | .text, s => .text s

/-- The text a choice without tool calls is converted to: the reasoning, and the content
only where there is no reasoning. -/
def Delta.prose (delta : Delta) : Option (Prose × String) :=
  if delta.getReasoningContent ≠ "" then some (.thinking, delta.getReasoningContent)
  else if delta.getContentString ≠ "" then some (.text, delta.getContentString)
  else none

/-- Text of the first chunk: a block is started in any case. -/
def firstProse (info : RelayInfo) (kind : Prose) (s : String) : RelayInfo × List Event :=
  let (info, stops) :=
    if info.lastMessagesType ≠ kind.messagesType then stopOpenBlocksAndAdvance info
    else (info, [])
  ({ info with lastMessagesType := kind.messagesType },
    stops ++ [.contentBlockStart info.index kind.block,
      .contentBlockDelta info.index (kind.delta s)])

/-- Text of a later chunk: a block is started unless one of its kind is open. -/
def laterProse (info : RelayInfo) (kind : Prose) (s : String) : RelayInfo × List Event :=
  if info.lastMessagesType ≠ kind.messagesType then
    let (info, stops) := stopOpenBlocksAndAdvance info
    ({ info with lastMessagesType := kind.messagesType },
      stops ++ [.contentBlockStart info.index kind.block,
        .contentBlockDelta info.index (kind.delta s)])
  else (info, [.contentBlockDelta info.index (kind.delta s)])

/-! ### Tool calls -/

/-- Where a call is placed among those of its run; `i` is its position in the chunk. -/
def ToolCall.offset (toolCall : ToolCall) (i : Nat) : Int := toolCall.index.getD i

/-- The events of one call of a later chunk, at block `index`. -/
def ToolCall.events (toolCall : ToolCall) (index : Int) : List Event :=
  (if toolCall.name ≠ "" then
    [.contentBlockStart index (.toolUse toolCall.id toolCall.name)] else []) ++
  (if toolCall.arguments ≠ "" then
    [.contentBlockDelta index (.inputJson toolCall.arguments)] else [])

/-- Tool calls of the first chunk: the first of them is block 0, with or without a name,
and the others are not read. -/
def firstToolCalls (info : RelayInfo) : List ToolCall → RelayInfo × List Event
  | [] => (info, [])
  | toolCall :: _ =>
    ({ info with
        lastMessagesType := .tools
        toolCallBaseIndex := 0
        toolCallMaxIndexOffset := 0 },
      .contentBlockStart 0 (.toolUse toolCall.id toolCall.name) ::
        if toolCall.arguments ≠ "" then
          [.contentBlockDelta 0 (.inputJson toolCall.arguments)] else [])

/-- Tool calls of a later chunk: they go on with the open run of tool calls, or begin one. -/
def laterToolCalls (info : RelayInfo) (toolCalls : List ToolCall) : RelayInfo × List Event :=
  let (info, stops) :=
    if info.lastMessagesType ≠ .tools then
      let (info, stops) := stopOpenBlocksAndAdvance info
      ({ info with toolCallBaseIndex := info.index, toolCallMaxIndexOffset := 0 }, stops)
    else (info, [])
  let base := info.toolCallBaseIndex
  let maxOffset := toolCalls.zipIdx.foldl (fun m c => max m (c.1.offset c.2))
    info.toolCallMaxIndexOffset
  ({ info with
      lastMessagesType := .tools
      toolCallMaxIndexOffset := maxOffset
      index := base + maxOffset },
    stops ++ toolCalls.zipIdx.flatMap fun c => c.1.events (base + c.1.offset c.2))

/-! ### One chunk -/

/-- The content of a choice of the first chunk. -/
def firstContent (info : RelayInfo) (delta : Delta) : RelayInfo × List Event :=
  let (info, tools) := firstToolCalls info delta.toolCalls
  match delta.prose with
  | some (kind, s) =>
    let (info, prose) := firstProse info kind s
    (info, tools ++ prose)
  | none => (info, tools)

theorem firstContent_of_prose {info : RelayInfo} {delta : Delta} {kind : Prose} {s : String}
    (h : delta.prose = some (kind, s)) :
    firstContent info delta =
      ((firstProse (firstToolCalls info delta.toolCalls).1 kind s).1,
        (firstToolCalls info delta.toolCalls).2 ++
          (firstProse (firstToolCalls info delta.toolCalls).1 kind s).2) := by
  simp only [firstContent, h]

theorem firstContent_of_no_prose {info : RelayInfo} {delta : Delta} (h : delta.prose = none) :
    firstContent info delta = firstToolCalls info delta.toolCalls := by
  simp only [firstContent, h]

/-- The content of a choice of a later chunk. -/
def laterContent (info : RelayInfo) (delta : Delta) : RelayInfo × List Event :=
  if delta.toolCalls ≠ [] then laterToolCalls info delta.toolCalls
  else
    match delta.prose with
    | some (kind, s) => laterProse info kind s
    | none => (info, [])

/-- What ends a message: the open blocks are stopped, and the usage is told if it is
known. -/
def finish (info : RelayInfo) (usage : Option Usage) (stopReason : String) : List Event :=
  stopOpenBlocks info ++
    (match usage with
      | some u => [.messageDelta stopReason (buildClaudeUsageFromOpenAIUsage u)]
      | none => []) ++
    [.messageStop]

/-- The `message_start`. -/
def messageStart (info : RelayInfo) (chunk : Chunk) : Event :=
  .messageStart chunk.id chunk.model
    { inputTokens := info.estimatePromptTokens, outputTokens := 0 }

/-- `info.FinishReason = *choice.FinishReason` -/
def RelayInfo.setFinishReason (info : RelayInfo) (choice : Choice) : RelayInfo :=
  { info with finishReason := choice.finishReason.getD "" }

/-- `info.ClaudeConvertInfo.Done = true` -/
def RelayInfo.setDone (info : RelayInfo) : RelayInfo := { info with done := true }

/-- What a choice with a finish reason ends with, once its content `r` is converted. -/
def finishChoice (r : RelayInfo × List Event) (usage : Option Usage) : RelayInfo × List Event :=
  (r.1.setDone,
    r.2 ++ finish r.1 (usage.or r.1.usage) (stopReasonOpenAI2Claude r.1.finishReason))

/-- `StreamResponseOpenAI2Claude` on the first chunk, after the `message_start`. -/
def firstChunk (info : RelayInfo) (chunk : Chunk) : RelayInfo × List Event :=
  match chunk.choices with
  | [] => (info, [])
  | choice :: _ =>
    let (info, content) := firstContent info choice.delta
    if choice.isFinished then finishChoice (info.setFinishReason choice, content) chunk.usage
    else (info, content)

/-- `StreamResponseOpenAI2Claude` on a later chunk. -/
def laterChunk (info : RelayInfo) (chunk : Chunk) : RelayInfo × List Event :=
  match chunk.choices with
  | [] =>
    match chunk.usage.or info.usage with
    | some u =>
      let stopReason := stopReasonOpenAI2Claude info.finishReason
      (info.setDone, finish info (some u) (if stopReason = "" then "end_turn" else stopReason))
    | none => (info, [])
  | choice :: _ =>
    if choice.isFinished then
      let info := info.setFinishReason choice
      -- the usage of the state is looked up here, and the chunk is dropped all the same
      if chunk.usage = none then (info, [])
      else finishChoice (laterContent info choice.delta) chunk.usage
    else laterContent info choice.delta

def streamResponseOpenAI2Claude (info : RelayInfo) (chunk : Chunk) : RelayInfo × List Event :=
  if info.done then (info, [])
  else if info.sendResponseCount = 1 then
    let (info', events) := firstChunk info chunk
    (info', messageStart info chunk :: events)
  else laterChunk info chunk

/-! The branches, one by one. -/

section Branches

variable {info : RelayInfo} {chunk : Chunk} {choice : Choice} {choices : List Choice}

theorem firstChunk_of_no_choice (h : chunk.choices = []) : firstChunk info chunk = (info, []) := by
  simp only [firstChunk, h]

theorem firstChunk_of_content (h : chunk.choices = choice :: choices)
    (hfin : choice.isFinished = false) :
    firstChunk info chunk = firstContent info choice.delta := by
  simp [firstChunk, h, hfin]

theorem firstChunk_of_finished (h : chunk.choices = choice :: choices)
    (hfin : choice.isFinished = true) :
    firstChunk info chunk =
      finishChoice ((firstContent info choice.delta).1.setFinishReason choice,
        (firstContent info choice.delta).2) chunk.usage := by
  simp [firstChunk, h, hfin]

theorem laterChunk_of_usage {u : Usage} (h : chunk.choices = [])
    (hu : chunk.usage.or info.usage = some u) :
    laterChunk info chunk =
      (info.setDone, finish info (some u)
        (if stopReasonOpenAI2Claude info.finishReason = "" then "end_turn"
          else stopReasonOpenAI2Claude info.finishReason)) := by
  simp only [laterChunk, h, hu]

theorem laterChunk_of_no_usage (h : chunk.choices = []) (hu : chunk.usage.or info.usage = none) :
    laterChunk info chunk = (info, []) := by
  simp only [laterChunk, h, hu]

theorem laterChunk_of_content (h : chunk.choices = choice :: choices)
    (hfin : choice.isFinished = false) :
    laterChunk info chunk = laterContent info choice.delta := by
  simp [laterChunk, h, hfin]

theorem laterChunk_of_deferred (h : chunk.choices = choice :: choices)
    (hfin : choice.isFinished = true) (hu : chunk.usage = none) :
    laterChunk info chunk = (info.setFinishReason choice, []) := by
  simp [laterChunk, h, hfin, hu]

theorem laterChunk_of_finished (h : chunk.choices = choice :: choices)
    (hfin : choice.isFinished = true) (hu : chunk.usage.isSome = true) :
    laterChunk info chunk =
      finishChoice (laterContent (info.setFinishReason choice) choice.delta) chunk.usage := by
  have hne : chunk.usage ≠ none := Option.isSome_iff_ne_none.mp hu
  simp [laterChunk, h, hfin, hne]

end Branches

/-! ### The callers -/

/-- `HandleStreamFormat` for a Claude client, with `handleClaudeFormat`. -/
def handleStreamFormat (info : RelayInfo) (chunk : Chunk) : RelayInfo × List Event :=
  let info := { info with sendResponseCount := info.sendResponseCount + 1 }
  let info := { info with usage := chunk.usage.or info.usage }
  streamResponseOpenAI2Claude info chunk

/-- Chunk after chunk through `HandleStreamFormat`. -/
def handleStream (info : RelayInfo) : List Chunk → RelayInfo × List Event
  | [] => (info, [])
  | chunk :: chunks =>
    let (info, events) := handleStreamFormat info chunk
    let (info, rest) := handleStream info chunks
    (info, events ++ rest)

/-- What `OaiStreamHandler` uses of its surroundings. -/
structure StreamEnv where
  /-- the model is an audio model -/
  isAudioModel : Bool
  /-- `EstimateTokenByModel` for the upstream model -/
  estimateToken : String → Int
  /-- `applyUsagePostProcessing`, which depends on the channel and the last chunk -/
  applyUsagePostProcessing : Usage → Chunk → Usage

def validUsage (usage : Option Usage) : Bool :=
  usage.any fun u => u.promptTokens != 0 || u.completionTokens != 0

/-- `processTokens` for chat completions: the text of all choices, and the greatest number
of tool calls in one of them. -/
def processTokens (chunks : List Chunk) : String × Int :=
  let choices := chunks.flatMap Chunk.choices
  (String.join (choices.map fun choice =>
      choice.delta.getContentString ++ choice.delta.getReasoningContent ++
        String.join (choice.delta.toolCalls.map fun tool => tool.name ++ tool.arguments)),
    choices.foldl (fun count choice => max count choice.delta.toolCalls.length) 0)

def responseText2Usage (estimateToken : String → Int) (text : String) (promptTokens : Int) :
    Usage :=
  { promptTokens
    completionTokens := estimateToken text
    totalTokens := promptTokens + estimateToken text }

/-- The usage `OaiStreamHandler` ends with: that of the last chunk, for an audio model that
of the chunk before it, or an estimate. -/
def finalUsage (env : StreamEnv) (info : RelayInfo) (chunks : List Chunk) (last : Chunk) :
    Usage :=
  let secondLast := chunks.dropLast.getLast?.bind Chunk.usage
  let found :=
    if validUsage last.usage then last.usage
    else if env.isAudioModel ∧ validUsage secondLast then secondLast
    else none
  let usage := found.getD <|
    let (text, toolCount) := processTokens chunks
    let estimate := responseText2Usage env.estimateToken text info.estimatePromptTokens
    { estimate with completionTokens := estimate.completionTokens + toolCount * 7 }
  env.applyUsagePostProcessing usage last

/-- `HandleFinalResponse` for a Claude client. -/
def handleFinalResponse (info : RelayInfo) (last : Chunk) (usage : Usage) :
    RelayInfo × List Event :=
  let (info, events) := streamResponseOpenAI2Claude { info with usage := some usage } last
  ({ info with done := true }, events)

/-- The data handler of `OaiStreamHandler`: a chunk is handled when the next one is there. -/
def scanStream (info : RelayInfo) (lastStreamData : Option Chunk) :
    List Chunk → RelayInfo × Option Chunk × List Event
  | [] => (info, lastStreamData, [])
  | data :: rest =>
    match lastStreamData with
    | none => scanStream info (some data) rest
    | some last =>
      let (info, events) := handleStreamFormat info last
      let (info, lastStreamData, later) := scanStream info (some data) rest
      (info, lastStreamData, events ++ later)

/-- `OaiStreamHandler` for a Claude client. -/
def oaiStreamHandler (env : StreamEnv) (info : RelayInfo) (chunks : List Chunk) : List Event :=
  match scanStream info none chunks with
  -- an empty text is not a chunk, and nothing is sent
  | (_, none, events) => events
  | (info, some last, events) =>
    events ++ (handleFinalResponse info last (finalUsage env info chunks last)).2

end NewApiPool.Convert
