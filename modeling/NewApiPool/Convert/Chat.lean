import Mathlib.Algebra.Order.Group.Int
import NewApiPool.Lib.GoText

/-!
# Chat completion chunks

The data of `dto/openai_response.go` that the stream converters read and write: a chunk
has choices, of which they read the first, a choice has a delta and perhaps a finish
reason, and the delta has text, reasoning and pieces of tool calls.

Pointers are options, and the empty text is not the same as no text only where the source
asks for `nil`. The name and the arguments of `FunctionResponse` are fields of the call.
-/

namespace NewApiPool.Convert

/-- `dto.InputTokenDetails` -/
structure InputTokenDetails where
  cachedTokens : Int := 0
  cachedCreationTokens : Int := 0
  imageTokens : Int := 0
  audioTokens : Int := 0
deriving DecidableEq, Repr

/-- `dto.Usage` -/
structure Usage where
  promptTokens : Int := 0
  completionTokens : Int := 0
  totalTokens : Int := 0
  promptTokensDetails : InputTokenDetails := {}
  reasoningTokens : Int := 0
  inputTokens : Int := 0
  outputTokens : Int := 0
  inputTokensDetails : Option InputTokenDetails := none
  claudeCacheCreation5mTokens : Int := 0
  claudeCacheCreation1hTokens : Int := 0
deriving DecidableEq, Repr

/-- `dto.ToolCallResponse` -/
structure ToolCall where
  index : Option Int := none
  id : String := ""
  name : String := ""
  arguments : String := ""
deriving DecidableEq, Repr

/-- `dto.ChatCompletionsStreamResponseChoiceDelta` -/
structure Delta where
  content : Option String := none
  reasoningContent : Option String := none
  reasoning : Option String := none
  toolCalls : List ToolCall := []
deriving DecidableEq, Repr

def Delta.getContentString (delta : Delta) : String := delta.content.getD ""

/-- `GetReasoningContent`: the older field is read only where the newer one is missing. -/
def Delta.getReasoningContent (delta : Delta) : String :=
  match delta.reasoningContent, delta.reasoning with
  | some s, _ => s
  | none, some s => s
  | none, none => ""

/-- `dto.ChatCompletionsStreamResponseChoice` -/
structure Choice where
  delta : Delta := {}
  finishReason : Option String := none
deriving DecidableEq, Repr

/-- `FinishReason != nil && *FinishReason != ""` -/
def Choice.isFinished (choice : Choice) : Bool := choice.finishReason.getD "" != ""

/-- `dto.ChatCompletionsStreamResponse` -/
structure Chunk where
  id : String := ""
  model : String := ""
  choices : List Choice := []
  usage : Option Usage := none
deriving DecidableEq, Repr

def Chunk.isFinished (chunk : Chunk) : Bool := chunk.choices.head?.any Choice.isFinished

def generateStartEmptyResponse (id model : String) : Chunk :=
  { id, model, choices := [{ delta := { content := some "" } }] }

def generateStopResponse (id model finishReason : String) : Chunk :=
  { id, model, choices := [{ finishReason := some finishReason }] }

end NewApiPool.Convert
