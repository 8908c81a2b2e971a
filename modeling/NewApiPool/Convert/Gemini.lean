import Mathlib.Logic.Function.Basic
import NewApiPool.Convert.Accumulate

/-!
# A Gemini stream for a chat client

`streamResponseGeminiChat2OpenAI` makes a chunk of each streamed response, whose texts are
all content or, if there is a thought among the parts, all reasoning.
`GeminiChatStreamHandler` gives the tool calls indices by their ids, sends a start chunk
before the first one (with the names of its tool calls), and a stop chunk after the response
that says `STOP`. `responseGeminiChat2OpenAI` makes a chat completion of a whole response.

Ids of tool calls are `call_` and a new UUID; the `n`-th UUID that is made is `uuid n`, and
how many were made is passed along.
-/

namespace NewApiPool.Convert

/-! ### Data -/

/-- `dto.GeminiInlineData` -/
structure GeminiInlineData where
  mimeType : String
  data : String
deriving DecidableEq, Repr

/-- `dto.FunctionCall`; `arguments` is the text that `json.Marshal` makes of the field, if it
does. -/
structure FunctionCall where
  functionName : String
  arguments : Option String
deriving DecidableEq, Repr

/-- `dto.GeminiPartExecutableCode` -/
structure ExecutableCode where
  language : String
  code : String
deriving DecidableEq, Repr

/-- `dto.GeminiPart`; of the result of an execution, the output. -/
structure GeminiPart where
  text : String := ""
  thought : Bool := false
  inlineData : Option GeminiInlineData := none
  functionCall : Option FunctionCall := none
  executableCode : Option ExecutableCode := none
  codeExecutionResult : Option String := none
deriving DecidableEq, Repr

/-- `dto.GeminiChatCandidate` -/
structure GeminiChatCandidate where
  parts : List GeminiPart
  finishReason : Option String := none
  index : Int := 0
deriving DecidableEq, Repr

/-- `dto.GeminiChatResponse` -/
structure GeminiChatResponse where
  candidates : List GeminiChatCandidate
deriving DecidableEq, Repr

/-! ### Parts -/

section Parts

variable (uuid : Nat → String)

/-- `getResponseToolCall`, with the `n`-th UUID -/
def getResponseToolCall (n : Nat) (call : FunctionCall) : Option ToolCall :=
  call.arguments.map fun arguments =>
    { id := "call_" ++ uuid n, name := call.functionName, arguments }

def imgText (inlineData : GeminiInlineData) : String :=
  "![image](data:" ++ inlineData.mimeType ++ ";base64," ++ inlineData.data ++ ")"

/-- The finish reason for one of Gemini's. -/
def geminiFinishReason (reason : String) : String :=
  if reason = "STOP" then "stop"
  else if reason = "MAX_TOKENS" then "length"
  else "content_filter"

/-- The local variables of the loop over the parts. -/
structure PartsState where
  texts : List String := []
  toolCalls : List ToolCall := []
  isTools : Bool := false
  isThought : Bool := false
  /-- how many UUIDs were made -/
  uuids : Nat
deriving DecidableEq, Repr

/-- A part of a streamed response. -/
def PartsState.addStream (s : PartsState) (part : GeminiPart) : PartsState :=
  match part.inlineData, part.functionCall with
  | some inlineData, _ =>
    if GoText.startsWith inlineData.mimeType "image" then
      { s with texts := s.texts ++ [imgText inlineData] }
    else s
  | none, some call =>
    match getResponseToolCall uuid s.uuids call with
    | some tool =>
      { s with
        isTools := true
        toolCalls := s.toolCalls ++ [{ tool with index := some s.toolCalls.length }]
        uuids := s.uuids + 1 }
    | none => { s with isTools := true }
  | none, none =>
    if part.thought then { s with isThought := true, texts := s.texts ++ [part.text] }
    else
      match part.executableCode, part.codeExecutionResult with
      | some code, _ =>
        { s with
          texts := s.texts ++ ["```" ++ code.language ++ "\n" ++ code.code ++ "\n```\n"] }
      | none, some output => { s with texts := s.texts ++ ["```output\n" ++ output ++ "\n```\n"] }
      | none, none => if part.text ≠ "\n" then { s with texts := s.texts ++ [part.text] } else s

/-- The choice for a candidate of a streamed response, and how many UUIDs were made. -/
def streamChoice (uuids : Nat) (candidate : GeminiChatCandidate) : (Int × Choice) × Nat :=
  let s := candidate.parts.foldl (PartsState.addStream uuid) { uuids }
  let text := "\n".intercalate s.texts
  let finishReason :=
    if s.isTools then some "tool_calls"
    else if candidate.finishReason = some "STOP" then none
    else candidate.finishReason.map geminiFinishReason
  let delta : Delta :=
    if s.isThought then { reasoningContent := some text, toolCalls := s.toolCalls }
    else { content := some text, toolCalls := s.toolCalls }
  ((candidate.index, { delta, finishReason }), s.uuids)

/-- The choices for the candidates. -/
def streamChoices (uuids : Nat) : List GeminiChatCandidate → List (Int × Choice) × Nat
  | [] => ([], uuids)
  | candidate :: candidates =>
    let (choice, uuids) := streamChoice uuid uuids candidate
    let (choices, uuids) := streamChoices uuids candidates
    (choice :: choices, uuids)

/-- `streamResponseGeminiChat2OpenAI`: the choices with their indices, and whether it says
`STOP`. -/
def streamResponseGeminiChat2OpenAI (uuids : Nat) (response : GeminiChatResponse) :
    (List (Int × Choice) × Bool) × Nat :=
  let (choices, uuids) := streamChoices uuid uuids response.candidates
  ((choices, response.candidates.any (·.finishReason = some "STOP")), uuids)

/-! ### The stream handler -/

/-- The variables of the handler. A missing key of a map reads as 0, or as no entry. -/
structure GeminiStream where
  uuids : Nat := 0
  finishReason : String := "stop"
  toolCallIndexByChoice : Int → List (String × Nat) := fun _ => []
  nextToolCallIndexByChoice : Int → Nat := fun _ => 0
  sendResponseCount : Nat := 0
  sent : List Chunk := []

/-- What the handler uses of its surroundings; `usage` is what was counted. -/
structure GeminiEnv where
  id : String
  upstreamModelName : String
  shouldIncludeUsage : Bool
  usage : Usage

/-- The index of one tool call. -/
def GeminiStream.setIndex (s : GeminiStream) (choiceKey : Int) (tool : ToolCall) :
    GeminiStream × ToolCall :=
  if tool.id = "" then (s, tool)
  else
    match (s.toolCallIndexByChoice choiceKey).lookup tool.id with
    | some idx => (s, { tool with index := some idx })
    | none =>
      let idx := s.nextToolCallIndexByChoice choiceKey
      ({ s with
          nextToolCallIndexByChoice :=
            Function.update s.nextToolCallIndexByChoice choiceKey (idx + 1)
          toolCallIndexByChoice :=
            Function.update s.toolCallIndexByChoice choiceKey
              (s.toolCallIndexByChoice choiceKey ++ [(tool.id, idx)]) },
        { tool with index := some idx })

/-- The indices of the tool calls of a choice. -/
def GeminiStream.setIndices (s : GeminiStream) (choiceKey : Int) :
    List ToolCall → GeminiStream × List ToolCall
  | [] => (s, [])
  | tool :: tools =>
    let (s, tool) := s.setIndex choiceKey tool
    let (s, tools) := s.setIndices choiceKey tools
    (s, tool :: tools)

/-- The indices of all tool calls of a response. -/
def GeminiStream.setAllIndices (s : GeminiStream) :
    List (Int × Choice) → GeminiStream × List Choice
  | [] => (s, [])
  | (choiceKey, choice) :: choices =>
    let (s, toolCalls) := s.setIndices choiceKey choice.delta.toolCalls
    let (s, choices) := s.setAllIndices choices
    (s, { choice with delta := { choice.delta with toolCalls } } :: choices)

/-- `handleStream`, for an OpenAI client. -/
def GeminiStream.handleStream (s : GeminiStream) (chunk : Chunk) : GeminiStream :=
  { s with sendResponseCount := s.sendResponseCount + 1, sent := s.sent ++ [chunk] }

/-- `ClearToolCalls`, on a choice -/
def Choice.clearToolCalls (choice : Choice) : Choice :=
  { choice with
    delta := { choice.delta with
      toolCalls := choice.delta.toolCalls.map fun tool => { tool with id := "", name := "" } } }

/-- The tool calls of the start chunk: all but the arguments. -/
def copiedToolCalls (toolCalls : List ToolCall) : List ToolCall :=
  toolCalls.map fun tool => { tool with arguments := "" }

/-- What is sent before the first response, and what is left of that. -/
def GeminiStream.first (env : GeminiEnv) (s : GeminiStream) (choices : List Choice) :
    GeminiStream × List Choice :=
  let toolCalls := (choices.head?.map (·.delta.toolCalls)).getD []
  let emptyResponse := generateStartEmptyResponse env.id env.upstreamModelName
  if toolCalls ≠ [] then
    let start : Choice :=
      { delta := { content := some "", toolCalls := copiedToolCalls toolCalls } }
    let s := { s with finishReason := "tool_calls" }.handleStream
      { emptyResponse with choices := [start] }
    let choices := choices.map Choice.clearToolCalls
    (s, choices.modifyHead fun choice =>
      if choice.isFinished then { choice with finishReason := none } else choice)
  else (s.handleStream emptyResponse, choices)

/-- The callback of `GeminiChatStreamHandler`. -/
def GeminiStream.callback (env : GeminiEnv) (s : GeminiStream)
    (geminiResponse : GeminiChatResponse) : GeminiStream :=
  let ((choices, isStop), uuids) := streamResponseGeminiChat2OpenAI uuid s.uuids geminiResponse
  let (s, choices) := { s with uuids }.setAllIndices choices
  let (s, choices) := if s.sendResponseCount = 0 then s.first env choices else (s, choices)
  let s := s.handleStream { id := env.id, model := env.upstreamModelName, choices }
  if isStop then
    s.handleStream (generateStopResponse env.id env.upstreamModelName s.finishReason)
  else s

/-- `GeminiChatStreamHandler`: the chunks that are sent. -/
def geminiChatStreamHandler (env : GeminiEnv) (responses : List GeminiChatResponse) : List Chunk :=
  (responses.foldl (GeminiStream.callback uuid env) {}).sent ++
    if env.shouldIncludeUsage then
      [{ id := env.id, model := env.upstreamModelName, usage := some env.usage }]
    else []

/-! ### A whole response -/

/-- The variables of the loop over the parts of a whole response. -/
structure WholeState where
  texts : List String := []
  toolCalls : List ToolCall := []
  reasoningContent : String := ""
  finishReason : String := "stop"
  uuids : Nat
deriving DecidableEq, Repr

/-- A part of a whole response. -/
def WholeState.add (s : WholeState) (part : GeminiPart) : WholeState :=
  match part.inlineData, part.functionCall with
  | some inlineData, _ =>
    { s with
      texts := s.texts ++
        [if GoText.startsWith inlineData.mimeType "image" then imgText inlineData
          else "[media](data:" ++ inlineData.mimeType ++ ";base64," ++ inlineData.data ++ ")"] }
  | none, some call =>
    match getResponseToolCall uuid s.uuids call with
    | some tool =>
      { s with
        finishReason := "tool_calls", toolCalls := s.toolCalls ++ [tool], uuids := s.uuids + 1 }
    | none => { s with finishReason := "tool_calls" }
  | none, none =>
    if part.thought then { s with reasoningContent := part.text }
    else
      match part.executableCode, part.codeExecutionResult with
      | some code, _ =>
        { s with texts := s.texts ++ ["```" ++ code.language ++ "\n" ++ code.code ++ "\n```"] }
      | none, some output => { s with texts := s.texts ++ ["```output\n" ++ output ++ "\n```"] }
      | none, none => if part.text ≠ "\n" then { s with texts := s.texts ++ [part.text] } else s

/-- The choice for a candidate; `isToolCall` tells whether it or one before it has a tool
call. -/
def wholeChoice (uuids : Nat) (isToolCall : Bool) (candidate : GeminiChatCandidate) :
    Completion × Bool × Nat :=
  let s := candidate.parts.foldl (WholeState.add uuid) { uuids }
  let isToolCall := isToolCall || s.toolCalls ≠ []
  let finishReason :=
    if isToolCall then "tool_calls"
    else (candidate.finishReason.map geminiFinishReason).getD s.finishReason
  (⟨"\n".intercalate s.texts, s.reasoningContent, s.toolCalls, finishReason⟩, isToolCall, s.uuids)

/-- The choices for the candidates of a whole response, with their indices. -/
def wholeChoices (uuids : Nat) (isToolCall : Bool) :
    List GeminiChatCandidate → List (Int × Completion)
  | [] => []
  | candidate :: candidates =>
    let (choice, isToolCall, uuids) := wholeChoice uuid uuids isToolCall candidate
    (candidate.index, choice) :: wholeChoices uuids isToolCall candidates

def responseGeminiChat2OpenAI (uuids : Nat) (response : GeminiChatResponse) :
    List (Int × Completion) :=
  wholeChoices uuid uuids false response.candidates

end Parts

end NewApiPool.Convert
