import Mathlib.Data.List.Nodup

/-!
# Messages of a chat request

A message of an OpenAI chat request (`dto.Message`): its content is a text or a list of texts and
images, it may hold tool calls, and a message of the role `tool` has the result of the call whose
id it carries.

A converter of requests puts messages one behind the other; where they hold calls and results is
read off with their places in the list (`callRefs`, `resultRefs`).
-/

namespace NewApiPool.Convert

/-- `dto.MediaContent`: a text, or an image of a URL. -/
inductive MediaContent
  | text (text : String)
  | imageUrl (url detail mimeType : String)
deriving DecidableEq

/-- `dto.ToolCallRequest`, of the type `function` -/
structure ToolCallRequest where
  id : String
  name : String
  arguments : String
deriving DecidableEq

/-- The content of a message. -/
inductive MessageContent
  | null
  | str (content : String)
  | media (content : List MediaContent)
deriving DecidableEq

/-- `dto.Message` -/
structure Message where
  role : String
  content : MessageContent := .null
  toolCalls : List ToolCallRequest := []
  toolCallId : String := ""
  name : Option String := none
deriving DecidableEq

/-- `toJSONString`, of the text that `Marshal` gives if it does -/
def toJSONString (marshalled : Option String) : String := marshalled.getD "\x7b\x7d"

def Message.parseContent (message : Message) : List MediaContent :=
  match message.content with
  | .null => []
  | .str content => [.text content]
  | .media content => content

/-- The message has content or calls. -/
def Message.isFilled (message : Message) : Bool :=
  message.parseContent ≠ [] || message.toolCalls ≠ []

/-- The texts and images of a message; the content of a tool message is a result. -/
def Message.items (message : Message) : List MediaContent :=
  if message.role = "tool" then [] else message.parseContent

/-- The tool calls of messages: each with the place of its message, and its id. -/
def callRefs (messages : List Message) : List (ℕ × String) :=
  messages.zipIdx.flatMap fun m => m.1.toolCalls.map fun call => (m.2, call.id)

/-- The tool messages: each with its place, and the id that it carries. -/
def resultRefs (messages : List Message) : List (ℕ × String) :=
  messages.zipIdx.filterMap fun m =>
    if m.1.role = "tool" then some (m.2, m.1.toolCallId) else none

/-- The ids of the tool calls. -/
def callIds (messages : List Message) : List String :=
  messages.flatMap fun message => message.toolCalls.map ToolCallRequest.id

/-- A message, if it has content or calls. -/
def Message.ifFilled (message : Message) : List Message :=
  if message.isFilled then [message] else []

section Filled

variable (message : Message)

theorem isFilled_eq_false_iff :
    message.isFilled = false ↔ message.parseContent = [] ∧ message.toolCalls = [] := by
  simp [Message.isFilled]

theorem flatMap_items_ifFilled : message.ifFilled.flatMap Message.items = message.items := by
  rw [Message.ifFilled]
  split_ifs with h
  · rw [List.flatMap_singleton]
  · have hempty := ((isFilled_eq_false_iff message).1 (Bool.eq_false_iff.2 h)).1
    rw [Message.items, hempty, ite_self]
    rfl

theorem callIds_ifFilled :
    callIds message.ifFilled = message.toolCalls.map ToolCallRequest.id := by
  rw [Message.ifFilled]
  split_ifs with h
  · exact List.flatMap_singleton _ _
  · rw [((isFilled_eq_false_iff message).1 (Bool.eq_false_iff.2 h)).2]
    rfl

theorem eq_of_mem_ifFilled {message message' : Message} (h : message' ∈ message.ifFilled) :
    message' = message := by
  rw [Message.ifFilled] at h
  split_ifs at h
  · exact List.mem_singleton.1 h
  · exact absurd h List.not_mem_nil

end Filled

section Refs

variable {messages : List Message} {i : ℕ} {id : String}

theorem mem_callRefs :
    (i, id) ∈ callRefs messages ↔
      ∃ message, messages[i]? = some message ∧ id ∈ message.toolCalls.map ToolCallRequest.id := by
  simp only [callRefs, List.mem_flatMap, List.mem_map, Prod.mk.injEq]
  constructor
  · rintro ⟨⟨message, j⟩, hmem, call, hcall, rfl, rfl⟩
    exact ⟨message, List.mem_zipIdx_iff_getElem?.1 hmem, call, hcall, rfl⟩
  · rintro ⟨message, hmessage, call, hcall, rfl⟩
    exact ⟨(message, i), List.mem_zipIdx_iff_getElem?.2 hmessage, call, hcall, rfl, rfl⟩

/-- A call before a place is one of the messages before it. -/
theorem mem_callIds_of_lt {before after : List Message} (h : (i, id) ∈ callRefs (before ++ after))
    (hlt : i < before.length) : id ∈ callIds before := by
  obtain ⟨message, hmessage, hid⟩ := mem_callRefs.1 h
  rw [List.getElem?_append_left hlt] at hmessage
  exact List.mem_flatMap.2 ⟨message, List.mem_of_getElem? hmessage, hid⟩

theorem resultRefs_eq_nil_iff :
    resultRefs messages = [] ↔ ∀ message ∈ messages, message.role ≠ "tool" := by
  rw [resultRefs, List.filterMap_eq_nil_iff]
  constructor
  · rintro h message hmem hrole
    obtain ⟨i, hi⟩ := List.mem_iff_getElem?.1 hmem
    have hnone := h (message, i) (List.mem_zipIdx_iff_getElem?.2 hi)
    rw [if_pos hrole] at hnone
    exact absurd hnone (Option.some_ne_none _)
  · rintro h ⟨message, i⟩ hmem
    exact if_neg (h message (List.mem_of_getElem? (List.mem_zipIdx_iff_getElem?.1 hmem)))

theorem resultRefs_append_cons {before : List Message} (hbefore : ∀ m ∈ before, m.role ≠ "tool")
    {message : Message} (hrole : message.role = "tool") (after : List Message) :
    ∃ rest, resultRefs (before ++ message :: after) =
      (before.length, message.toolCallId) :: rest := by
  have hnone := resultRefs_eq_nil_iff.2 hbefore
  rw [resultRefs] at hnone
  rw [resultRefs, List.zipIdx_append, List.filterMap_append, hnone, List.nil_append, Nat.zero_add,
    List.zipIdx_cons]
  exact ⟨_, by simp only [List.filterMap_cons, hrole, if_true]; rfl⟩

end Refs

end NewApiPool.Convert
