import NewApiPool.Convert.Gemini
import NewApiPool.Convert.Message
import NewApiPool.Lib.Concat
import NewApiPool.Lib.Json

/-!
# A Gemini request for an OpenAI upstream

`GeminiToOpenAIRequest` makes a message of each content of the request. Its function calls get ids
that are counted within the content; a function response becomes a message of its own, put before
the message of its content, with the id of the last call of the same content. A content with calls
loses its texts and images.

A response stands in a later content than its call, where there is no call to count. So the links
and the content are kept if and only if there are no responses, calls are in one content at most and
alone there, and no part has two kinds of content; the stop sequences, of which four are taken
always, if there are none or at least four (`geminiToOpenAIRequest_iff`).
-/

namespace NewApiPool.Convert.GeminiRequest

/-- `dto.GeminiFileData` -/
structure GeminiFileData where
  mimeType : String
  fileUri : String
deriving DecidableEq

/-- `dto.GeminiFunctionResponse`, with the text that `Marshal` gives for the response if it does. -/
structure GeminiFunctionResponse where
  name : String
  response : Option String
deriving DecidableEq

/-- `dto.GeminiPart`, of a request -/
structure Part where
  text : String := ""
  inlineData : Option GeminiInlineData := none
  fileData : Option GeminiFileData := none
  functionCall : Option FunctionCall := none
  functionResponse : Option GeminiFunctionResponse := none
deriving DecidableEq

/-- `dto.GeminiChatContent` -/
structure GeminiChatContent where
  role : String
  parts : List Part
deriving DecidableEq

/-- A slice: the elements up to its length, and those that its capacity has room for. -/
structure Slice (α : Type) where
  elems : List α
  spare : List α

/-- `s[:n]`, which may reach up to the capacity; `none` if it panics. -/
def Slice.upTo {α : Type} (s : Slice α) (n : ℕ) : Option (List α) :=
  if n ≤ (s.elems ++ s.spare).length then some ((s.elems ++ s.spare).take n) else none

/-- `dto.GeminiChatRequest`: the contents, the instructions and the stop sequences -/
structure GeminiChatRequest where
  contents : List GeminiChatContent
  systemInstructions : Option GeminiChatContent := none
  stopSequences : Slice String := ⟨[], []⟩

/-- `dto.GeneralOpenAIRequest`: the messages and the stop sequences -/
structure GeneralOpenAIRequest where
  messages : List Message
  stop : List String := []
deriving DecidableEq

def convertGeminiRoleToOpenAI (geminiRole : String) : String :=
  if geminiRole = "model" then "assistant"
  else if geminiRole = "function" then "function"
  else "user"

def extractTextFromGeminiParts (parts : List Part) : String :=
  "\n".intercalate ((parts.map Part.text).filter (· ≠ ""))

def ofInlineData (inlineData : GeminiInlineData) : MediaContent :=
  .imageUrl ("data:" ++ inlineData.mimeType ++ ";base64," ++ inlineData.data) "auto"
    inlineData.mimeType

def ofFileData (fileData : GeminiFileData) : MediaContent :=
  .imageUrl fileData.fileUri "auto" fileData.mimeType

/-- What a part is taken for: the first that it has. -/
inductive Kind
  | media (content : MediaContent)
  | call (functionCall : FunctionCall)
  | response (functionResponse : GeminiFunctionResponse)
  | other

def Part.kind (part : Part) : Kind :=
  if part.text ≠ "" then .media (.text part.text)
  else
    match part.inlineData, part.fileData, part.functionCall, part.functionResponse with
    | some inlineData, _, _, _ => .media (ofInlineData inlineData)
    | none, some fileData, _, _ => .media (ofFileData fileData)
    | none, none, some functionCall, _ => .call functionCall
    | none, none, none, some functionResponse => .response functionResponse
    | none, none, none, none => .other

/-- `fmt.Sprintf("call_%d", n)` -/
def callId (n : ℕ) : String := "call_" ++ toString n

/-- The variables of the loop over parts, and the tool messages that it has added. -/
structure PartsState where
  mediaContents : List MediaContent := []
  toolCalls : List ToolCallRequest := []
  toolMessages : List Message := []

def PartsState.add (s : PartsState) (part : Part) : PartsState :=
  match part.kind with
  | .media content => { s with mediaContents := s.mediaContents ++ [content] }
  | .call functionCall =>
    { s with toolCalls := s.toolCalls ++ [{
        id := callId (s.toolCalls.length + 1)
        name := functionCall.functionName
        arguments := toJSONString functionCall.arguments }] }
  | .response functionResponse =>
    { s with toolMessages := s.toolMessages ++ [{
        role := "tool"
        toolCallId := callId s.toolCalls.length
        content := .str (toJSONString functionResponse.response) }] }
  | .other => s

/-- The message of a content, after its parts. -/
def PartsState.message (s : PartsState) (role : String) : Message :=
  if s.toolCalls ≠ [] then { role, toolCalls := s.toolCalls }
  else
    match s.mediaContents with
    | [] => { role }
    | [.text text] => { role, content := .str text }
    | contents => { role, content := .media contents }

/-- The messages that a content adds. -/
def GeminiChatContent.messages (content : GeminiChatContent) : List Message :=
  let s := content.parts.foldl PartsState.add {}
  s.toolMessages ++ (s.message (convertGeminiRoleToOpenAI content.role)).ifFilled

/-- The message of the instructions. -/
def GeminiChatRequest.systemMessages (request : GeminiChatRequest) : List Message :=
  match request.systemInstructions with
  | none => []
  | some instructions =>
    [{ role := "system", content := .str (extractTextFromGeminiParts instructions.parts) }]

def GeminiChatRequest.stop (request : GeminiChatRequest) : Option (List String) :=
  if request.stopSequences.elems = [] then some [] else request.stopSequences.upTo 4

/-- **`GeminiToOpenAIRequest`**: the messages and the stop sequences; `none` if it panics. -/
def geminiToOpenAIRequest (request : GeminiChatRequest) : Option GeneralOpenAIRequest := do
  let messages := request.contents.flatMap GeminiChatContent.messages
  let stop ← request.stop
  return { messages := request.systemMessages ++ messages, stop }

/-! ### What is kept -/

/-- The calls and responses of a request, by the names of the functions. -/
inductive Event
  | call (name : String)
  | response (name : String)

def Kind.event : Kind → Option Event
  | .call functionCall => some (.call functionCall.functionName)
  | .response functionResponse => some (.response functionResponse.name)
  | _ => none

def GeminiChatRequest.events (request : GeminiChatRequest) : List Event :=
  request.contents.flatMap fun content => content.parts.filterMap fun part => part.kind.event

/-- **The number of the call that each response answers**: the first call of its name that is not
answered yet. None if there is no such call before it. -/
def answered (waiting : List (ℕ × String)) (next : ℕ) : List Event → Option (List ℕ)
  | [] => some []
  | .call name :: events => answered (waiting ++ [(next, name)]) (next + 1) events
  | .response name :: events =>
    match waiting.find? fun call => call.2 = name with
    | none => none
    | some call => (answered (waiting.erase call) next events).map (call.1 :: ·)

/-- The texts, images and files of a part. -/
def Part.items (part : Part) : List MediaContent :=
  (if part.text ≠ "" then [.text part.text] else []) ++
    ((part.inlineData.map ofInlineData).toList ++ (part.fileData.map ofFileData).toList)

def GeminiChatContent.items (content : GeminiChatContent) : List MediaContent :=
  content.parts.flatMap Part.items

/-- **The tool messages carry the ids of the calls that they answer**, each with the number of its
call, and are behind the messages with these. -/
def Linked (messages : List Message) (numbers : List ℕ) : Prop :=
  List.Forall₂ (fun result number => ∃ call, (callRefs messages)[number]? = some call ∧
    call.2 = result.2 ∧ call.1 < result.1) (resultRefs messages) numbers

/-- **Links and content are kept**: the ids of the calls are distinct, each tool message carries the
id of the call that it answers and is behind its message, the texts, images and files are there once
and in order, and so are the first four stop sequences. -/
structure Kept (request : GeminiChatRequest) (numbers : List ℕ) (out : GeneralOpenAIRequest) :
    Prop where
  nodup : (callIds out.messages).Nodup
  linked : Linked out.messages numbers
  items : out.messages.flatMap Message.items =
    request.systemMessages.flatMap Message.items ++
      request.contents.flatMap GeminiChatContent.items
  stop : out.stop = request.stopSequences.elems.take 4

/-- The content has a function call. -/
def GeminiChatContent.hasCalls (content : GeminiChatContent) : Prop :=
  ∃ part ∈ content.parts, ∃ functionCall, part.kind = .call functionCall

/-- **What can be converted**: a request without responses to calls, with one content of calls at
most and nothing beside them there, whose parts are one item each, and with no stop sequences or
four at least. -/
structure Convertible (request : GeminiChatRequest) : Prop where
  noResponse : ∀ content ∈ request.contents, ∀ part ∈ content.parts, ∀ functionResponse,
    part.kind ≠ .response functionResponse
  oneCaller : request.contents.Pairwise fun content content' =>
    ¬(content.hasCalls ∧ content'.hasCalls)
  alone : ∀ content ∈ request.contents, content.hasCalls → content.items = []
  single : ∀ content ∈ request.contents, ¬content.hasCalls →
    ∀ part ∈ content.parts, part.items.length ≤ 1
  stop : request.stopSequences.elems = [] ∨ 4 ≤ request.stopSequences.elems.length

/-! ### The parts of a content -/

section Parts

variable {parts : List Part} {part : Part} {s : PartsState}

def Kind.media? : Kind → Option MediaContent
  | .media content => some content
  | _ => none

def Kind.isCall : Kind → Bool
  | .call _ => true
  | _ => false

/-- A part is taken for the first text, image or file that it has. -/
theorem media?_kind (part : Part) : part.kind.media? = part.items.head? := by
  rw [Part.kind, Part.items]
  split_ifs with htext
  · rfl
  · obtain ⟨text, inlineData, fileData, functionCall, functionResponse⟩ := part
    cases inlineData <;> cases fileData <;> cases functionCall <;> cases functionResponse <;> rfl

theorem add_mediaContents (s : PartsState) (part : Part) :
    (s.add part).mediaContents = s.mediaContents ++ part.kind.media?.toList := by
  rw [PartsState.add]
  cases part.kind <;> simp [Kind.media?]

theorem foldl_mediaContents (s : PartsState) (parts : List Part) :
    (parts.foldl PartsState.add s).mediaContents =
      s.mediaContents ++ parts.filterMap fun part => part.kind.media? := by
  induction parts generalizing s with
  | nil => simp
  | cons part parts ih =>
    rw [List.foldl_cons, ih, add_mediaContents, List.append_assoc]
    cases h : part.kind.media? <;> simp [h]

/-- The ids of calls are counted. -/
def Counted (s : PartsState) : Prop :=
  s.toolCalls.map ToolCallRequest.id =
    (List.range s.toolCalls.length).map fun n => callId (n + 1)

theorem Counted.add (h : Counted s) (part : Part) : Counted (s.add part) := by
  rw [PartsState.add]
  split
  · exact h
  · rw [Counted] at h ⊢
    simp [h, List.range_succ]
  · exact h
  · exact h

theorem length_toolCalls_add (s : PartsState) (part : Part) :
    (s.add part).toolCalls.length = s.toolCalls.length + if part.kind.isCall then 1 else 0 := by
  rw [PartsState.add]
  cases part.kind <;> simp [Kind.isCall]

theorem counted_foldl (parts : List Part) (h : Counted s) :
    Counted (parts.foldl PartsState.add s) := by
  induction parts generalizing s with
  | nil => exact h
  | cons part parts ih => exact ih (h.add part)

/-- A content has as many calls as parts that are calls. -/
theorem length_toolCalls_foldl (s : PartsState) (parts : List Part) :
    (parts.foldl PartsState.add s).toolCalls.length =
      s.toolCalls.length + parts.countP fun part => part.kind.isCall := by
  induction parts generalizing s with
  | nil => rfl
  | cons part parts ih =>
    rw [List.foldl_cons, ih, length_toolCalls_add, List.countP_cons]
    omega

theorem toolMessages_add (s : PartsState) (part : Part) :
    ∃ added, (s.add part).toolMessages = s.toolMessages ++ added ∧
      (added = [] ↔ ∀ functionResponse, part.kind ≠ .response functionResponse) ∧
      ∀ message ∈ added, message.role = "tool" ∧ message.toolCalls = [] ∧
        message.toolCallId = callId s.toolCalls.length := by
  rw [PartsState.add]
  cases hkind : part.kind with
  | response functionResponse =>
    refine ⟨_, rfl, iff_of_false (List.cons_ne_nil _ _) fun h => h functionResponse rfl, ?_⟩
    rintro message hmem
    rw [List.mem_singleton.1 hmem]
    exact ⟨rfl, rfl, rfl⟩
  | media | call | other => exact ⟨[], (List.append_nil _).symm, iff_of_true rfl nofun, nofun⟩

/-- **The tool messages of a content** carry the id of no call if it has none. -/
theorem toolMessages_foldl (s : PartsState) (parts : List Part) :
    ∃ added, (parts.foldl PartsState.add s).toolMessages = s.toolMessages ++ added ∧
      (added = [] ↔ ∀ part ∈ parts, ∀ functionResponse, part.kind ≠ .response functionResponse) ∧
      ∀ message ∈ added, message.role = "tool" ∧ message.toolCalls = [] ∧
        (s.toolCalls = [] → (∀ part ∈ parts, part.kind.isCall = false) →
          message.toolCallId = callId 0) := by
  induction parts generalizing s with
  | nil => exact ⟨[], (List.append_nil _).symm, iff_of_true rfl nofun, nofun⟩
  | cons part parts ih =>
    obtain ⟨first, hfirst, hfirstNil, hfirstRole⟩ := toolMessages_add s part
    obtain ⟨rest, hrest, hrestNil, hrestRole⟩ := ih (s.add part)
    refine ⟨first ++ rest, ?_, ?_, ?_⟩
    · rw [List.foldl_cons, hrest, hfirst, List.append_assoc]
    · rw [List.append_eq_nil_iff, hfirstNil, hrestNil, List.forall_mem_cons]
    · rintro message hmem
      rcases List.mem_append.1 hmem with hmem | hmem
      · obtain ⟨hrole, hcalls, hid⟩ := hfirstRole message hmem
        exact ⟨hrole, hcalls, fun hnone _ => by rw [hid, hnone]; rfl⟩
      · obtain ⟨hrole, hcalls, hid⟩ := hrestRole message hmem
        refine ⟨hrole, hcalls, fun hnone hparts => ?_⟩
        rw [List.forall_mem_cons] at hparts
        refine hid (List.eq_nil_of_length_eq_zero ?_) hparts.2
        rw [length_toolCalls_add, hnone, hparts.1]
        rfl

end Parts

/-! ### The messages of a content -/

section Messages

variable {content : GeminiChatContent}

/-- The number of calls of a content. -/
def GeminiChatContent.callCount (content : GeminiChatContent) : ℕ :=
  content.parts.countP fun part => part.kind.isCall

theorem isCall_iff (kind : Kind) :
    kind.isCall = true ↔ ∃ functionCall, kind = .call functionCall := by
  cases kind <;> simp [Kind.isCall]

theorem hasCalls_iff (content : GeminiChatContent) : content.hasCalls ↔ content.callCount ≠ 0 := by
  simp only [GeminiChatContent.hasCalls, GeminiChatContent.callCount, ← isCall_iff, ne_eq,
    List.countP_eq_zero, not_forall, not_not, exists_prop]

theorem convertGeminiRoleToOpenAI_ne_tool (role : String) :
    convertGeminiRoleToOpenAI role ≠ "tool" := by
  rw [convertGeminiRoleToOpenAI]
  split_ifs <;> decide

theorem message_role (s : PartsState) (role : String) : (s.message role).role = role := by
  rw [PartsState.message]
  split_ifs
  · rfl
  · split <;> rfl

theorem message_toolCalls (s : PartsState) (role : String) :
    (s.message role).toolCalls = s.toolCalls := by
  rw [PartsState.message]
  split_ifs with h
  · rfl
  · rw [not_not.1 h]
    split <;> rfl

theorem message_parseContent (s : PartsState) (role : String) :
    (s.message role).parseContent = if s.toolCalls = [] then s.mediaContents else [] := by
  rw [PartsState.message, ite_not]
  split_ifs
  · split
    · rename_i h
      exact h.symm
    · rename_i h
      exact h.symm
    · rfl
  · rfl

/-- The tool messages of a content, and its own message if it is filled. -/
theorem messages_eq (content : GeminiChatContent) :
    ∃ toolMessages own, content.messages = toolMessages ++ own ∧
      (toolMessages = [] ↔ ∀ part ∈ content.parts, ∀ functionResponse,
        part.kind ≠ .response functionResponse) ∧
      (∀ message ∈ toolMessages, message.role = "tool" ∧ message.toolCalls = [] ∧
        (¬content.hasCalls → message.toolCallId = callId 0)) ∧
      (∀ message ∈ own, message.role ≠ "tool") ∧
      callIds own = (List.range content.callCount).map (fun n => callId (n + 1)) ∧
      own.flatMap Message.items =
        if content.callCount = 0 then content.parts.filterMap fun part => part.kind.media?
        else [] := by
  obtain ⟨added, hadded, hnil, hrole⟩ := toolMessages_foldl {} content.parts
  have hcount := length_toolCalls_foldl {} content.parts
  have hids : Counted (content.parts.foldl PartsState.add {}) := counted_foldl content.parts rfl
  have hmedia := foldl_mediaContents {} content.parts
  rw [List.nil_append] at hadded hmedia
  rw [List.length_nil, Nat.zero_add] at hcount
  have hcalls : (content.parts.foldl PartsState.add {}).toolCalls = [] ↔ content.callCount = 0 := by
    rw [← List.length_eq_zero_iff, hcount]
    rfl
  refine ⟨added, _, by rw [GeminiChatContent.messages, hadded], hnil, ?_, ?_, ?_, ?_⟩
  · rintro message hmem
    obtain ⟨htool, hnone, hid⟩ := hrole message hmem
    refine ⟨htool, hnone, fun hno => hid rfl fun part hpart => ?_⟩
    rw [hasCalls_iff, not_not, GeminiChatContent.callCount, List.countP_eq_zero] at hno
    exact Bool.eq_false_iff.2 (hno part hpart)
  · rintro message hmem
    rw [eq_of_mem_ifFilled hmem, message_role]
    exact convertGeminiRoleToOpenAI_ne_tool content.role
  · rw [callIds_ifFilled, message_toolCalls, hids, hcount]
    rfl
  · rw [flatMap_items_ifFilled, Message.items, message_role,
      if_neg (convertGeminiRoleToOpenAI_ne_tool content.role), message_parseContent, hmedia]
    simp only [hcalls]

/-! ### The whole request -/

theorem callId_injective : Function.Injective callId := by
  intro n m h
  have htext : toString n = toString m := by
    have hlist := congrArg String.toList h
    rw [callId, callId, String.toList_append, String.toList_append] at hlist
    exact String.toList_inj.1 (List.append_cancel_left hlist)
  have hindex := JsonDoc.index?_toString n
  rw [htext, JsonDoc.index?_toString] at hindex
  exact (Option.some.inj hindex).symm

theorem callIds_append (messages messages' : List Message) :
    callIds (messages ++ messages') = callIds messages ++ callIds messages' :=
  List.flatMap_append

theorem callIds_messages (content : GeminiChatContent) :
    callIds content.messages = (List.range content.callCount).map fun n => callId (n + 1) := by
  obtain ⟨toolMessages, own, hmessages, -, htool, -, hids, -⟩ := messages_eq content
  have hnone : callIds toolMessages = [] :=
    List.flatMap_eq_nil_iff.2 fun message hmem => by rw [(htool message hmem).2.1]; rfl
  rw [hmessages, callIds_append, hnone, hids, List.nil_append]

theorem items_messages (content : GeminiChatContent) :
    content.messages.flatMap Message.items =
      if content.callCount = 0 then content.parts.filterMap fun part => part.kind.media?
      else [] := by
  obtain ⟨toolMessages, own, hmessages, -, htool, -, -, hitems⟩ := messages_eq content
  have hnone : toolMessages.flatMap Message.items = [] :=
    List.flatMap_eq_nil_iff.2 fun message hmem => if_pos (htool message hmem).1
  rw [hmessages, List.flatMap_append, hnone, hitems, List.nil_append]

theorem callIds_systemMessages (request : GeminiChatRequest) :
    callIds request.systemMessages = [] := by
  rw [GeminiChatRequest.systemMessages]
  split <;> rfl

theorem role_systemMessages (request : GeminiChatRequest) :
    ∀ message ∈ request.systemMessages, message.role ≠ "tool" := by
  rw [GeminiChatRequest.systemMessages]
  split
  · exact nofun
  · rintro message hmem
    rw [List.mem_singleton.1 hmem]
    exact fun h => absurd h (by decide : "system" ≠ "tool")

theorem callIds_flatMap (contents : List GeminiChatContent) :
    callIds (contents.flatMap GeminiChatContent.messages) =
      contents.flatMap fun content =>
        (List.range content.callCount).map fun n => callId (n + 1) := by
  induction contents with
  | nil => rfl
  | cons content contents ih =>
    rw [List.flatMap_cons, List.flatMap_cons, callIds_append, callIds_messages, ih]

/-- **The ids are distinct** if and only if calls are in one content at most. -/
theorem nodup_callIds_iff (contents : List GeminiChatContent) :
    (callIds (contents.flatMap GeminiChatContent.messages)).Nodup ↔
      contents.Pairwise fun content content' => ¬(content.hasCalls ∧ content'.hasCalls) := by
  rw [callIds_flatMap, List.nodup_flatMap]
  have hnodup : ∀ content ∈ contents,
      ((List.range content.callCount).map fun n => callId (n + 1)).Nodup := fun _ _ =>
    List.nodup_range.map fun _ _ h => Nat.succ_injective (callId_injective h)
  refine (and_iff_right hnodup).trans (iff_of_eq (congrArg (List.Pairwise · contents) ?_))
  funext content content'
  rw [hasCalls_iff, hasCalls_iff, ne_eq, ne_eq, ← not_or, not_not, eq_iff_iff]
  refine ⟨fun h => ?_, fun h => ?_⟩
  · by_contra hboth
    obtain ⟨hpos, hpos'⟩ := not_or.1 hboth
    exact h (List.mem_map.2 ⟨0, List.mem_range.2 (Nat.pos_of_ne_zero hpos), rfl⟩)
      (List.mem_map.2 ⟨0, List.mem_range.2 (Nat.pos_of_ne_zero hpos'), rfl⟩)
  · rcases h with h | h
    · simp [Function.onFun, h]
    · simp [Function.onFun, h]

/-- **A tool message that carries the id of a call before it** is not there: the ids are counted
anew in its content. The induction is on the contents that are left; the messages before them have
no tool message, and if they have calls, no content has that is left. -/
theorem noResponse_of_linked {contents : List GeminiChatContent} {before : List Message}
    {numbers : List ℕ} (hbefore : ∀ message ∈ before, message.role ≠ "tool")
    (hids : ∀ id ∈ callIds before, ∃ n, id = callId (n + 1))
    (hapart : callIds before ≠ [] → ∀ content ∈ contents, ¬content.hasCalls)
    (hcallers : contents.Pairwise fun content content' => ¬(content.hasCalls ∧ content'.hasCalls))
    (hlinked : Linked (before ++ contents.flatMap GeminiChatContent.messages) numbers) :
    ∀ content ∈ contents, ∀ part ∈ content.parts, ∀ functionResponse,
      part.kind ≠ .response functionResponse := by
  induction contents generalizing before with
  | nil => exact nofun
  | cons content contents ih =>
    obtain ⟨toolMessages, own, hmessages, hnil, htool, hown, hownIds, -⟩ := messages_eq content
    rw [List.flatMap_cons, hmessages] at hlinked
    obtain ⟨hfirst, hcallers⟩ := List.pairwise_cons.1 hcallers
    cases toolMessages with
    | nil =>
      rw [List.nil_append, ← List.append_assoc] at hlinked
      have hbefore' := List.forall_mem_append.2 ⟨hbefore, hown⟩
      refine List.forall_mem_cons.2 ⟨hnil.1 rfl, ih hbefore' ?_ ?_ hcallers hlinked⟩
      · rw [callIds_append, hownIds]
        refine List.forall_mem_append.2 ⟨hids, ?_⟩
        rintro id hid
        obtain ⟨n, -, rfl⟩ := List.mem_map.1 hid
        exact ⟨n, rfl⟩
      · rw [callIds_append, hownIds]
        rintro hne content' hcontent' hcalls
        by_cases hcontent : content.hasCalls
        · exact hfirst content' hcontent' ⟨hcontent, hcalls⟩
        · rw [hasCalls_iff, not_not] at hcontent
          rw [hcontent, List.range_zero, List.map_nil, List.append_nil] at hne
          exact hapart hne content' (List.mem_cons_of_mem _ hcontent') hcalls
    | cons toolMessage toolMessages =>
      obtain ⟨hrole, -, hid⟩ := htool toolMessage List.mem_cons_self
      rw [List.cons_append, List.cons_append] at hlinked
      obtain ⟨rest, hrefs⟩ := resultRefs_append_cons hbefore hrole
        (toolMessages ++ own ++ contents.flatMap GeminiChatContent.messages)
      rw [Linked, hrefs] at hlinked
      obtain ⟨_, _, ⟨⟨i, id⟩, hcall, rfl, hlt⟩, -, -⟩ := List.forall₂_cons_left_iff.1 hlinked
      have hmem := mem_callIds_of_lt (List.mem_of_getElem? hcall) hlt
      obtain ⟨n, hn⟩ := hids _ hmem
      have hno := hapart (List.ne_nil_of_mem hmem) content List.mem_cons_self
      exact absurd (callId_injective (hn.symm.trans (hid hno))) (Nat.succ_ne_zero n)

theorem resultRefs_eq_nil (request : GeminiChatRequest)
    (h : ∀ content ∈ request.contents, ∀ part ∈ content.parts, ∀ functionResponse,
      part.kind ≠ .response functionResponse) :
    resultRefs (request.systemMessages ++
      request.contents.flatMap GeminiChatContent.messages) = [] := by
  rw [resultRefs_eq_nil_iff, List.forall_mem_append]
  refine ⟨role_systemMessages request, fun message hmem => ?_⟩
  obtain ⟨content, hcontent, hmem⟩ := List.mem_flatMap.1 hmem
  obtain ⟨toolMessages, own, hmessages, hnil, -, hown, -, -⟩ := messages_eq content
  rw [hmessages, hnil.2 (h content hcontent), List.nil_append] at hmem
  exact hown message hmem

theorem answered_eq_nil {events : List Event} (h : ∀ name, .response name ∉ events)
    (waiting : List (ℕ × String)) (next : ℕ) : answered waiting next events = some [] := by
  induction events generalizing waiting next with
  | nil => rfl
  | cons event events ih =>
    have hrest : ∀ name, .response name ∉ events := fun name hmem =>
      h name (List.mem_cons_of_mem _ hmem)
    cases event with
    | call name => exact ih hrest _ _
    | response name => exact absurd List.mem_cons_self (h name)

theorem response_notMem_events (request : GeminiChatRequest)
    (h : ∀ content ∈ request.contents, ∀ part ∈ content.parts, ∀ functionResponse,
      part.kind ≠ .response functionResponse) (name : String) :
    .response name ∉ request.events := by
  rintro hmem
  obtain ⟨content, hcontent, hmem⟩ := List.mem_flatMap.1 hmem
  obtain ⟨part, hpart, hevent⟩ := List.mem_filterMap.1 hmem
  cases hkind : part.kind with
  | response functionResponse => exact h content hcontent part hpart functionResponse hkind
  | media | call | other => simp [hkind, Kind.event] at hevent

/-- **The items of a content are kept** if it has no calls and no part has two, or it has none. -/
theorem items_messages_eq_iff (content : GeminiChatContent) :
    content.messages.flatMap Message.items = content.items ↔
      (content.hasCalls → content.items = []) ∧
        (¬content.hasCalls → ∀ part ∈ content.parts, part.items.length ≤ 1) := by
  rw [items_messages, hasCalls_iff, not_not]
  have hhead {α : Type} (l : List α) : l.head?.toList = l ↔ l.length ≤ 1 := by
    rcases l with _ | ⟨a, _ | ⟨b, l⟩⟩ <;> simp
  split_ifs with hcount
  · rw [imp_iff_right hcount, and_iff_right fun hne => absurd hcount hne,
      List.filterMap_eq_flatMap_toList, GeminiChatContent.items, Concat.flatMap_eq_iff]
    · exact forall₂_congr fun part _ => by rw [media?_kind, hhead]
    · rintro part -
      rw [media?_kind]
      cases part.items <;> simp
  · rw [imp_iff_right hcount, and_iff_left fun h => absurd h hcount, eq_comm]

theorem length_items_messages_le (content : GeminiChatContent) :
    (content.messages.flatMap Message.items).length ≤ content.items.length := by
  rw [items_messages]
  split_ifs
  · rw [List.filterMap_eq_flatMap_toList, GeminiChatContent.items]
    refine Concat.length_flatMap_le fun part _ => ?_
    rw [media?_kind]
    cases part.items <;> simp
  · exact Nat.zero_le _

/-- **The stop sequences are kept** if there are none, or four to take. -/
theorem stop_eq_iff (request : GeminiChatRequest) :
    request.stop = some (request.stopSequences.elems.take 4) ↔
      request.stopSequences.elems = [] ∨ 4 ≤ request.stopSequences.elems.length := by
  rw [GeminiChatRequest.stop]
  split_ifs with hnil
  · exact iff_of_true (by rw [hnil]; rfl) (.inl hnil)
  rw [or_iff_right hnil, Slice.upTo]
  refine ⟨fun h => ?_, fun h => ?_⟩
  · split_ifs at h with hroom
    have hlength := congrArg List.length (Option.some.inj h)
    rw [List.length_take, List.length_take, Nat.min_eq_left hroom] at hlength
    omega
  · rw [if_pos (by rw [List.length_append]; omega), List.take_append_of_le_length h]

theorem geminiToOpenAIRequest_eq_some {request : GeminiChatRequest} {out : GeneralOpenAIRequest} :
    geminiToOpenAIRequest request = some out ↔
      ∃ stop, request.stop = some stop ∧
        { messages := request.systemMessages ++
            request.contents.flatMap GeminiChatContent.messages, stop } = out := by
  rw [geminiToOpenAIRequest, Option.bind_eq_bind, Option.bind_eq_some_iff]
  exact exists_congr fun stop => and_congr_right fun _ => Option.some_inj

theorem forall_items_messages_iff (contents : List GeminiChatContent) :
    (contents.flatMap GeminiChatContent.messages).flatMap Message.items =
        contents.flatMap GeminiChatContent.items ↔
      ∀ content ∈ contents, (content.hasCalls → content.items = []) ∧
        (¬content.hasCalls → ∀ part ∈ content.parts, part.items.length ≤ 1) := by
  rw [List.flatMap_assoc, Concat.flatMap_eq_iff fun content _ => length_items_messages_le content]
  exact forall₂_congr fun content _ => items_messages_eq_iff content

/-- **Links and content are kept** if and only if the request can be converted, for a request whose
responses stand behind the calls that they answer. -/
theorem geminiToOpenAIRequest_iff (request : GeminiChatRequest) {numbers : List ℕ}
    (h : answered [] 0 request.events = some numbers) :
    (∃ out, geminiToOpenAIRequest request = some out ∧ Kept request numbers out) ↔
      Convertible request := by
  refine ⟨fun ⟨out, hout, hkept⟩ => ?_, fun hconv => ?_⟩
  · obtain ⟨stop, hstop, rfl⟩ := geminiToOpenAIRequest_eq_some.1 hout
    obtain ⟨hnodup, hlinked, hitems, hstop'⟩ := hkept
    rw [callIds_append, callIds_systemMessages, List.nil_append, nodup_callIds_iff] at hnodup
    rw [List.flatMap_append, List.append_cancel_left_eq, forall_items_messages_iff] at hitems
    refine ⟨noResponse_of_linked (role_systemMessages request) ?_ ?_ hnodup hlinked, hnodup,
      fun content hcontent => (hitems content hcontent).1,
      fun content hcontent => (hitems content hcontent).2, ?_⟩
    · rw [callIds_systemMessages]
      exact nofun
    · exact fun hne => absurd (callIds_systemMessages request) hne
    · rw [← stop_eq_iff, hstop]
      exact congrArg some hstop'
  · obtain ⟨hnone, hcallers, halone, hsingle, hstop⟩ := hconv
    refine ⟨_, geminiToOpenAIRequest_eq_some.2 ⟨_, (stop_eq_iff _).2 hstop, rfl⟩, ?_, ?_, ?_, rfl⟩
    · rw [callIds_append, callIds_systemMessages, List.nil_append]
      exact (nodup_callIds_iff _).2 hcallers
    · obtain rfl := Option.some.inj
        ((answered_eq_nil (response_notMem_events request hnone) [] 0).symm.trans h)
      rw [Linked, resultRefs_eq_nil request hnone]
      exact .nil
    · rw [List.flatMap_append, List.append_cancel_left_eq, forall_items_messages_iff]
      exact fun content hcontent => ⟨halone content hcontent, hsingle content hcontent⟩

def greeting : GeminiChatRequest := { contents := [⟨"user", [{ text := "Hi" }]⟩] }

theorem geminiToOpenAIRequest_greeting :
    ∃ out, geminiToOpenAIRequest greeting = some out ∧ Kept greeting [] out := by
  have hkind : ∀ content ∈ greeting.contents, ∀ part ∈ content.parts,
      part.kind = .media (.text "Hi") ∧ part.items.length ≤ 1 := by
    simp [greeting, Part.kind, Part.items]
  refine (geminiToOpenAIRequest_iff greeting rfl).2
    ⟨?_, List.pairwise_singleton _ _, ?_, ?_, .inl rfl⟩
  · rintro content hcontent part hpart _ h
    exact Kind.noConfusion ((hkind content hcontent part hpart).1.symm.trans h)
  · rintro content hcontent ⟨part, hpart, _, h⟩
    exact Kind.noConfusion ((hkind content hcontent part hpart).1.symm.trans h)
  · exact fun content hcontent _ part hpart => (hkind content hcontent part hpart).2

/-- A call, and its response in the next content. -/
def weather : GeminiChatRequest :=
  { contents := [⟨"model", [{ functionCall := some ⟨"get_weather", some "null"⟩ }]⟩,
      ⟨"function", [{ functionResponse := some ⟨"get_weather", some "null"⟩ }]⟩] }

/-- The response carries the id of no call. -/
theorem geminiToOpenAIRequest_weather :
    answered [] 0 weather.events = some [0] ∧
      ¬∃ out, geminiToOpenAIRequest weather = some out ∧ Kept weather [0] out := by
  refine ⟨rfl, ?_⟩
  rintro ⟨out, hout, hkept⟩
  obtain ⟨stop, -, rfl⟩ := geminiToOpenAIRequest_eq_some.1 hout
  have hresults : resultRefs (weather.systemMessages ++
      weather.contents.flatMap GeminiChatContent.messages) = [(1, "call_0")] := by decide
  have hcalls : callRefs (weather.systemMessages ++
      weather.contents.flatMap GeminiChatContent.messages) = [(0, "call_1")] := by decide
  have hlinked := hkept.linked
  rw [Linked, hresults, hcalls] at hlinked
  obtain ⟨_, _, ⟨call, hcall, hid, -⟩, -⟩ := List.forall₂_cons_left_iff.1 hlinked
  obtain rfl := List.mem_singleton.1 (List.mem_of_getElem? hcall)
  exact absurd hid (by decide)

end Messages

end NewApiPool.Convert.GeminiRequest
