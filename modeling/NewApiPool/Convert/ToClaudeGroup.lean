import NewApiPool.Convert.ToClaudeFormat

/-!
# Blocks for a Claude upstream

The second pass puts the content of each message behind what is there, in blocks that carry the role
of their message (`blocksOf`). So what one message adds is all there is to say (`blocksOf_add`):
its texts, up to the rules for texts, its calls and its result.
-/

namespace NewApiPool.Convert.ToClaudeRequest

open JsonDoc Edits

variable {ν Input : Type}

/-- The blocks of messages, each with the role of its message. -/
def blocksOf (messages : List (ClaudeMessage ν Input)) : List (String × Block ν Input) :=
  messages.flatMap fun message => message.content.toBlocks.map fun block => (message.role, block)

def Block.text? : Block ν Input → Option String
  | .text s => some s
  | _ => none

def Block.toolUse? : Block ν Input → Option (String × String × Input)
  | .toolUse id name input => some (id, name, input)
  | _ => none

def Block.toolResult? : Block ν Input → Option (String × Doc ν)
  | .toolResult toolUseId content => some (toolUseId, content)
  | _ => none

/-- The texts of blocks. -/
def textBlocks (blocks : List (String × Block ν Input)) : List (String × String) :=
  blocks.filterMap fun block => block.2.text?.map fun text => (block.1, text)

/-- The call of a tool, with its arguments. -/
def Services.use (services : Services Input) (call : ToolCallRequest) :
    Option (String × String × Input) :=
  (services.unmarshal call.arguments).map fun input => (call.id, call.name, input)

/-! ### The second pass -/

section Group

variable {services : Services Input} {message : ChatMessage ν} {messages : List (ChatMessage ν)}
  {s : Grouping ν Input}

/-- The blocks that a message adds. -/
def Grouping.added (services : Services Input) (s : Grouping ν Input) (message : ChatMessage ν) :
    List (String × Block ν Input) :=
  if message.role = "system" then []
  else blocksOf (s.opening message) ++
    if message.role = "tool" then [("user", .toolResult message.toolCallId message.content)]
    else (services.claudeContent message).toBlocks.map fun block => (message.role, block)

/-- What the second pass does to formatted messages. -/
structure Groups (services : Services Input) (s : Grouping ν Input)
    (messages : List (ChatMessage ν)) (s' : Grouping ν Input) : Prop where
  toolUses : (blocksOf s'.claudeMessages).filterMap (fun block => block.2.toolUse?) =
    (blocksOf s.claudeMessages).filterMap (fun block => block.2.toolUse?) ++
      (callsOf messages).filterMap services.use
  toolResults : (blocksOf s'.claudeMessages).filterMap (fun block => block.2.toolResult?) =
    (blocksOf s.claudeMessages).filterMap (fun block => block.2.toolResult?) ++
      resultsOf messages
  system : Edited TextRule
    (s.systemMessages.map (fun text => ("system", text)) ++ textsOf (· = "system") messages)
    (s'.systemMessages.map fun text => ("system", text))
  texts : Edited TextRule (textBlocks (blocksOf s.claudeMessages) ++ textsOf isSpeaker messages)
    (textBlocks (blocksOf s'.claudeMessages))
  roles : ∀ P : String → Prop, P "user" → ((∀ c ∈ s'.claudeMessages, P c.role) ↔
    (∀ c ∈ s.claudeMessages, P c.role) ∧
      ∀ message ∈ messages, message.role ≠ "system" → message.role ≠ "tool" → P message.role)
  answers : (∀ block ∈ blocksOf s.claudeMessages,
      block.2.toolResult?.isSome → block.1 = "user") →
    ∀ block ∈ blocksOf s'.claudeMessages, block.2.toolResult?.isSome → block.1 = "user"

end Group

end NewApiPool.Convert.ToClaudeRequest
