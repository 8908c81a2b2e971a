import Mathlib.Data.List.Perm.Subperm
import NewApiPool.Convert.Responses
import NewApiPool.Convert.ToClaudeRequest
import NewApiPool.Lib.GoText
import NewApiPool.Lib.Runs

/-!
# Turns of a chat with a model of the Responses API

A chat client may be served by a model of the Responses API: its request is made into one of the
Responses API by `ChatCompletionsRequestToResponsesRequest`, and the response into a message of the
chat by `ResponsesResponseToChatCompletionsResponse`. The client sends the whole chat each time, and
so what the model said in one turn comes back to it in the next ones through both of them.

The API takes an input only if every call of a tool in it has an output after it and every output
belongs to a call. Calls may come without an id, or with blanks around it, and one conversion trims
what the other one does not. Still, whatever the responses are, if the client answers the calls
that it is shown, in any order, the input of every turn is taken, and it has what the model said, in
order (`NewApiPool.Convert.ToResponses.answered_run`).
-/

namespace NewApiPool

namespace Convert

namespace ToResponses

open EventSystem JsonDoc ToClaudeRequest

variable {ν : Type}

/-! ### Chat requests -/

/-- `dto.MediaContent`, as `ParseContent` makes it, with all it has. -/
inductive MediaContent
  | text (text : String)
  | imageUrl (url detail : String)
  | inputAudio (data format : String)
  | fileId (fileId : String)
  | file (filename fileData : String)
  | videoUrl (url : String)
deriving DecidableEq, Repr

def member (item : List (String × Doc ν)) (key : String) : Option String :=
  (item.lookup key).bind str?

/-- One part of a content; parts that are not well formed are passed over. -/
def parsePart (part : Doc ν) : Option MediaContent := do
  let item ← obj? part
  let contentType ← member item "type"
  if contentType = "text" then
    return .text (← member item "text")
  else if contentType = "image_url" then
    match item.lookup "image_url" with
    | some (.str url) => return .imageUrl url "high"
    | some (.obj image) =>
      return .imageUrl ((member image "url").getD "") ((member image "detail").getD "high")
    | _ => return .imageUrl "" "high"
  else if contentType = "input_audio" then
    let audio ← (item.lookup "input_audio").bind obj?
    return .inputAudio (← member audio "data") (← member audio "format")
  else if contentType = "file" then
    let file ← (item.lookup "file").bind obj?
    match member file "file_id" with
    | some fileId => return .fileId fileId
    | none => return .file (← member file "filename") (← member file "file_data")
  else if contentType = "video_url" then
    return .videoUrl (← member item "video_url")
  else none

/-- `dto.ToolCallRequest` -/
structure ToolCallRequest where
  id : String
  type : String
  name : String
  arguments : String
deriving DecidableEq, Repr

/-- `dto.Message`; a content that is missing is null. -/
structure Message (ν : Type) where
  role : String
  content : Doc ν := .null
  toolCalls : List ToolCallRequest := []
  toolCallId : String := ""

/-- `ParseContent`, of a content that is not a text -/
def Message.parseContent (msg : Message ν) : List MediaContent :=
  match msg.content with
  | .arr parts => parts.filterMap parsePart
  | _ => []

/-- `dto.GeneralOpenAIRequest` -/
structure Request (ν : Type) where
  model : String
  n : Option ℤ := none
  messages : List (Message ν)

/-! ### Responses requests -/

/-- What `normalizeChatImageURLToString` makes of an image. -/
inductive ImageURL
  | url (url : String)
  | object (url detail : String)
deriving DecidableEq, Repr

/-- A part of the content of an item. -/
inductive ContentPart
  | text (type text : String)
  | inputImage (imageUrl : ImageURL)
  | inputAudio (data format : String)
  | inputFileId (fileId : String)
  | inputFile (filename fileData : String)
  | inputVideo (url : String)
deriving DecidableEq, Repr

inductive ItemContent
  | text (content : String)
  | parts (content : List ContentPart)
deriving DecidableEq, Repr

/-- An item of the input. -/
inductive InputItem
  | message (role : String) (content : ItemContent)
  | functionCall (callId name arguments : String)
  | functionCallOutput (callId output : String)
deriving DecidableEq, Repr

/-- `dto.OpenAIResponsesRequest` -/
structure ResponsesRequest where
  model : String
  input : List InputItem
  instructions : Option String
deriving DecidableEq, Repr

def normalizeChatImageURLToString (url detail : String) : ImageURL :=
  if url ≠ "" then .url url else .object url detail

def contentPart (role : String) : MediaContent → ContentPart
  | .text text => .text (if role = "assistant" then "output_text" else "input_text") text
  | .imageUrl url detail => .inputImage (normalizeChatImageURLToString url detail)
  | .inputAudio data format => .inputAudio data format
  | .fileId fileId => .inputFileId fileId
  | .file filename fileData => .inputFile filename fileData
  | .videoUrl url => .inputVideo url

/-- A call of the assistant, if it has an id and a name and is of a function. -/
def functionCall? (tc : ToolCallRequest) : Option InputItem :=
  if GoText.trimSpace tc.id = "" then none
  else if tc.type ≠ "" ∧ tc.type ≠ "function" then none
  else if GoText.trimSpace tc.name = "" then none
  else some (.functionCall tc.id (GoText.trimSpace tc.name) tc.arguments)

section Convert

variable (marshal : Doc ν → String)

/-- The output of a tool, as a text. -/
def Message.output (msg : Message ν) : String :=
  match msg.content with
  | .null => ""
  | .str content => content
  | content => marshal content

/-- The text of a system message. -/
def Message.instruction (msg : Message ν) : String :=
  match msg.content with
  | .null => ""
  | .str content => GoText.trimSpace content
  | _ => GoText.trimSpace <| "\n".intercalate <| msg.parseContent.filterMap fun part =>
    match part with
    | .text text => if GoText.trimSpace text ≠ "" then some text else none
    | _ => none

def Message.itemContent (msg : Message ν) (role : String) : ItemContent :=
  match msg.content with
  | .null => .text ""
  | .str content => .text content
  | _ => .parts (msg.parseContent.map (contentPart role))

/-- The items that a message is made into. -/
def Message.inputItems (msg : Message ν) : List InputItem :=
  let role := GoText.trimSpace msg.role
  if role = "" then []
  else if role = "tool" ∨ role = "function" then
    let callID := GoText.trimSpace msg.toolCallId
    if callID = "" then
      [.message "user" (.text ("[tool_output_missing_call_id] " ++ msg.output marshal))]
    else [.functionCallOutput callID (msg.output marshal)]
  else if role = "system" ∨ role = "developer" then []
  else .message role (msg.itemContent role) ::
    if role = "assistant" then msg.toolCalls.filterMap functionCall? else []

/-- The texts of the system messages. -/
def instructions (messages : List (Message ν)) : Option String :=
  let instructionsParts := (messages.filter fun msg =>
    GoText.trimSpace msg.role = "system" ∨ GoText.trimSpace msg.role = "developer").filterMap
      fun msg => if msg.instruction ≠ "" then some msg.instruction else none
  if instructionsParts = [] then none else some ("\n\n".intercalate instructionsParts)

def chatCompletionsRequestToResponsesRequest (req : Request ν) :
    Except String ResponsesRequest :=
  if req.model = "" then .error "model is required"
  else if 1 < req.n.getD 1 then .error "n>1 is not supported in responses compatibility mode"
  else .ok ⟨req.model, req.messages.flatMap (Message.inputItems marshal),
    instructions req.messages⟩

end Convert

/-! ### Turns -/

/-- The message that the client gets, as it puts it into the chat. -/
def replyOf (resp : Response) : Message ν :=
  let msg := (responsesResponseToChatCompletionsResponse resp).1
  { role := "assistant", content := .str msg.content
    toolCalls := msg.toolCalls.map fun tc => ⟨tc.id, "function", tc.name, tc.arguments⟩ }

/-- The answer to a call. -/
def answerOf (answer : String × Doc ν) : Message ν :=
  { role := "tool", content := answer.2, toolCallId := answer.1 }

/-- A message of the client, or a turn of the model with the client's answers to its calls. -/
inductive Event (ν : Type) where
  | say (msg : Message ν)
  | turn (resp : Response) (answers : List (String × Doc ν))

/-- The chat that the client has, and what the model has said. -/
structure State (ν : Type) where
  messages : List (Message ν)
  said : List String

def State.init : State ν := ⟨[], []⟩

def step (s : State ν) : Event ν → State ν
  | .say msg => { s with messages := s.messages ++ [msg] }
  | .turn resp answers => ⟨s.messages ++ replyOf resp :: answers.map answerOf,
      s.said ++ [(responsesResponseToChatCompletionsResponse resp).1.content]⟩

/-- The client does not speak for the model or a tool, and answers each call once. -/
def Allowed (_ : State ν) : Event ν → Prop
  | .say msg => GoText.trimSpace msg.role ∉ ["assistant", "tool", "function"]
  | .turn resp answers =>
    (answers.map Prod.fst).Perm ((replyOf resp : Message ν).toolCalls.map ToolCallRequest.id)

instance decidableAllowed (s : State ν) : ∀ e : Event ν, Decidable (Allowed s e)
  | .say _ => inferInstanceAs (Decidable (_ ∉ _))
  | .turn _ _ => inferInstanceAs (Decidable (List.Perm _ _))

def InputItem.callId? : InputItem → Option String
  | .functionCall callId _ _ => some callId
  | _ => none

def InputItem.outputId? : InputItem → Option String
  | .functionCallOutput callId _ => some callId
  | _ => none

/-- A text of the model. -/
def InputItem.said? : InputItem → Option String
  | .message role (.text content) => if role = "assistant" then some content else none
  | _ => none

/-- **The API takes the input**: the calls and the outputs belong together one by one, and no
output comes before its call. -/
structure Answered (input : List InputItem) : Prop where
  all : (input.filterMap InputItem.outputId?).Perm (input.filterMap InputItem.callId?)
  after (n : ℕ) : ((input.take n).filterMap InputItem.outputId?).Subperm
    ((input.take n).filterMap InputItem.callId?)

/-! ### Inputs that belong together -/

variable {items items' : List InputItem} {marshal : Doc ν → String} {msg : Message ν}
  {resp : Response} {s : State ν} {e : Event ν}

theorem answered_nil : Answered [] where
  all := List.Perm.refl _
  after n := by rw [List.take_nil]; exact List.Subperm.refl _

theorem Answered.append (h : Answered items) (h' : Answered items') :
    Answered (items ++ items') where
  all := by
    rw [List.filterMap_append, List.filterMap_append]
    exact h.all.append h'.all
  after n := by
    rw [List.take_append, List.filterMap_append, List.filterMap_append]
    exact (h.after n).append (h'.after (n - items.length))

theorem answered_of_none (h : ∀ item ∈ items, item.callId? = none ∧ item.outputId? = none) :
    Answered items := by
  have hcalls (l : List InputItem) (hl : l ⊆ items) : l.filterMap InputItem.callId? = [] :=
    List.filterMap_eq_nil_iff.mpr fun item hitem => (h item (hl hitem)).1
  have houtputs (l : List InputItem) (hl : l ⊆ items) : l.filterMap InputItem.outputId? = [] :=
    List.filterMap_eq_nil_iff.mpr fun item hitem => (h item (hl hitem)).2
  refine ⟨?_, fun n => ?_⟩
  · rw [hcalls items (List.Subset.refl _), houtputs items (List.Subset.refl _)]
  · rw [hcalls _ (List.take_subset n items), houtputs _ (List.take_subset n items)]

/-- **Calls, and then their outputs.** -/
theorem answered_of_calls (hcalls : ∀ item ∈ items, item.outputId? = none)
    (houtputs : ∀ item ∈ items', item.callId? = none)
    (h : (items'.filterMap InputItem.outputId?).Perm (items.filterMap InputItem.callId?)) :
    Answered (items ++ items') := by
  have hnone (l : List InputItem) (hl : l ⊆ items) : l.filterMap InputItem.outputId? = [] :=
    List.filterMap_eq_nil_iff.mpr fun item hitem => hcalls item (hl hitem)
  have hnone' (l : List InputItem) (hl : l ⊆ items') : l.filterMap InputItem.callId? = [] :=
    List.filterMap_eq_nil_iff.mpr fun item hitem => houtputs item (hl hitem)
  refine ⟨?_, fun n => ?_⟩
  · rw [List.filterMap_append, List.filterMap_append, hnone items (List.Subset.refl _),
      hnone' items' (List.Subset.refl _), List.nil_append, List.append_nil]
    exact h
  · rw [List.take_append, List.filterMap_append, List.filterMap_append,
      hnone _ (List.take_subset n items), hnone' _ (List.take_subset _ items'), List.nil_append,
      List.append_nil]
    rcases Nat.lt_or_ge n items.length with hlt | hge
    · rw [Nat.sub_eq_zero_of_le hlt.le, List.take_zero]
      exact List.nil_subperm
    · rw [List.take_of_length_le hge]
      exact ((List.take_sublist _ items').filterMap _).subperm.trans h.subperm

/-! ### What the client says -/

theorem said?_user (text : String) : (InputItem.message "user" (.text text)).said? = none := by
  rw [InputItem.said?, if_neg (by decide)]

/-- A message of the client has no calls, no outputs and no text of the model. -/
theorem inputItems_say (h : GoText.trimSpace msg.role ∉ ["assistant", "tool", "function"]) :
    ∀ item ∈ msg.inputItems marshal,
      item.callId? = none ∧ item.outputId? = none ∧ item.said? = none := by
  rw [List.mem_cons, List.mem_cons, List.mem_singleton, not_or] at h
  obtain ⟨hassistant, htool⟩ := h
  intro item hitem
  rw [Message.inputItems] at hitem
  dsimp only at hitem
  split at hitem
  · cases hitem
  split at hitem
  · cases hitem
  obtain rfl := List.mem_singleton.mp hitem
  refine ⟨rfl, rfl, ?_⟩
  cases msg.itemContent (GoText.trimSpace msg.role) with
  | text content => exact if_neg hassistant
  | parts content => rfl

/-! ### What the model says -/

theorem trimSpace_canonicalID (out : OutputItem) :
    GoText.trimSpace out.canonicalID = out.canonicalID := by
  rw [OutputItem.canonicalID]
  split <;> exact GoText.trimSpace_trimSpace _

/-- The calls that the client gets have trimmed ids and names, and the names are not empty. -/
theorem toolCalls_trimmed (resp : Response) :
    ∀ tc ∈ (responsesResponseToChatCompletionsResponse resp).1.toolCalls,
      GoText.trimSpace tc.id = tc.id ∧ GoText.trimSpace tc.name = tc.name ∧ tc.name ≠ "" := by
  intro tc htc
  rw [responsesResponseToChatCompletionsResponse] at htc
  dsimp only at htc
  split at htc
  · obtain ⟨out, -, hout⟩ := List.mem_filterMap.mp htc
    split at hout
    · cases hout
    · next hname =>
      rw [not_or] at hname
      obtain rfl := Option.some.inj hout
      exact ⟨trimSpace_canonicalID out, GoText.trimSpace_trimSpace _, hname.2⟩
  · cases htc

theorem trimSpace_assistant : GoText.trimSpace "assistant" = "assistant" := by
  decide +kernel

theorem trimSpace_tool : GoText.trimSpace "tool" = "tool" := by
  decide +kernel

/-- The message of the model, as items: its text, and its calls that have an id. -/
theorem inputItems_replyOf (resp : Response) : (replyOf resp).inputItems marshal =
    .message "assistant" (.text (responsesResponseToChatCompletionsResponse resp).1.content) ::
      (replyOf resp : Message ν).toolCalls.filterMap functionCall? := by
  have hrole : GoText.trimSpace (replyOf resp : Message ν).role = "assistant" :=
    trimSpace_assistant
  rw [Message.inputItems, hrole]
  rfl

theorem callIds_replyOf (resp : Response) :
    ((replyOf resp : Message ν).toolCalls.filterMap functionCall?).filterMap InputItem.callId? =
      ((replyOf resp : Message ν).toolCalls.map ToolCallRequest.id).filter (· ≠ "") := by
  have htrimmed := toolCalls_trimmed resp
  rw [replyOf]
  dsimp only
  generalize (responsesResponseToChatCompletionsResponse resp).1.toolCalls = toolCalls at htrimmed
  induction toolCalls with
  | nil => rfl
  | cons tc toolCalls ih =>
    obtain ⟨⟨hid, hname, hne⟩, hrest⟩ := List.forall_mem_cons.mp htrimmed
    have hcall : functionCall? ⟨tc.id, "function", tc.name, tc.arguments⟩ =
        if tc.id = "" then none else some (.functionCall tc.id tc.name tc.arguments) := by
      rw [functionCall?]
      dsimp only
      rw [hid, hname, if_neg (fun h => h.2 rfl : ¬("function" ≠ "" ∧ "function" ≠ "function")),
        if_neg hne]
    rw [List.map_cons, List.map_cons, List.filterMap_cons, hcall]
    by_cases hempty : tc.id = ""
    · rw [if_pos hempty, List.filter_cons, if_neg (by rwa [decide_eq_true_eq, not_not])]
      exact ih hrest
    · rw [if_neg hempty, List.filter_cons, if_pos (decide_eq_true hempty)]
      exact congrArg (tc.id :: ·) (ih hrest)

/-- The answer to a call, as an item: without an id, it is taken for a text of the user. -/
theorem inputItems_answerOf {answer : String × Doc ν} (h : GoText.trimSpace answer.1 = answer.1) :
    (answerOf answer).inputItems marshal =
      [if answer.1 = "" then
        .message "user" (.text ("[tool_output_missing_call_id] " ++
          (answerOf answer).output marshal))
      else .functionCallOutput answer.1 ((answerOf answer).output marshal)] := by
  have hrole : GoText.trimSpace (answerOf answer).role = "tool" := trimSpace_tool
  have hid : GoText.trimSpace (answerOf answer).toolCallId = answer.1 := h
  rw [Message.inputItems, hrole, hid, if_neg (by decide), if_pos (Or.inl rfl)]
  dsimp only
  split <;> rfl

variable {answers : List (String × Doc ν)}

theorem outputIds_answers (h : ∀ answer ∈ answers, GoText.trimSpace answer.1 = answer.1) :
    (((answers.map answerOf).flatMap (Message.inputItems marshal)).filterMap
        InputItem.outputId?) = (answers.map Prod.fst).filter (· ≠ "") := by
  induction answers with
  | nil => rfl
  | cons answer answers ih =>
    obtain ⟨hid, hrest⟩ := List.forall_mem_cons.mp h
    rw [List.map_cons, List.flatMap_cons, inputItems_answerOf hid, List.singleton_append,
      List.map_cons]
    by_cases hempty : answer.1 = ""
    · rw [if_pos hempty, List.filter_cons, if_neg (by rwa [decide_eq_true_eq, not_not])]
      exact ih hrest
    · rw [if_neg hempty, List.filter_cons, if_pos (decide_eq_true hempty)]
      exact congrArg (answer.1 :: ·) (ih hrest)

theorem answers_item {item : InputItem}
    (h : ∀ answer ∈ answers, GoText.trimSpace answer.1 = answer.1)
    (hitem : item ∈ (answers.map answerOf).flatMap (Message.inputItems marshal)) :
    item.callId? = none ∧ item.said? = none := by
  obtain ⟨msg, hmsg, hitem⟩ := List.mem_flatMap.mp hitem
  obtain ⟨answer, hanswer, rfl⟩ := List.mem_map.mp hmsg
  rw [inputItems_answerOf (h answer hanswer), List.mem_singleton] at hitem
  subst hitem
  split
  · exact ⟨rfl, said?_user _⟩
  · exact ⟨rfl, rfl⟩

/-- **A turn** comes with the outputs of its calls. -/
theorem answered_turn (h : (answers.map Prod.fst).Perm
      ((replyOf resp : Message ν).toolCalls.map ToolCallRequest.id)) :
    Answered ((replyOf resp :: answers.map answerOf).flatMap (Message.inputItems marshal)) ∧
      ((replyOf resp :: answers.map answerOf).flatMap (Message.inputItems marshal)).filterMap
        InputItem.said? = [(responsesResponseToChatCompletionsResponse resp).1.content] := by
  have hids (answer : String × Doc ν) (hanswer : answer ∈ answers) :
      GoText.trimSpace answer.1 = answer.1 := by
    obtain ⟨tc, htc, heq⟩ := List.mem_map.mp (h.mem_iff.mp (List.mem_map_of_mem hanswer))
    obtain ⟨call, hcall, rfl⟩ := List.mem_map.mp htc
    rw [← heq]
    exact (toolCalls_trimmed resp call hcall).1
  have hcall (item : InputItem)
      (hitem : item ∈ (replyOf resp : Message ν).toolCalls.filterMap functionCall?) :
      item.outputId? = none ∧ item.said? = none := by
    obtain ⟨tc, -, htc⟩ := List.mem_filterMap.mp hitem
    rw [functionCall?] at htc
    split at htc
    · cases htc
    split at htc
    · cases htc
    split at htc
    · cases htc
    · obtain rfl := Option.some.inj htc
      exact ⟨rfl, rfl⟩
  rw [List.flatMap_cons, inputItems_replyOf]
  constructor
  · refine answered_of_calls (fun item hitem => ?_)
      (fun item hitem => (answers_item hids hitem).1) ?_
    · rcases List.mem_cons.mp hitem with rfl | hitem
      · rfl
      · exact (hcall item hitem).1
    · rw [outputIds_answers hids, List.filterMap_cons_none rfl, callIds_replyOf]
      exact h.filter _
  · have htext : (InputItem.message "assistant"
        (.text (responsesResponseToChatCompletionsResponse resp).1.content)).said? =
          some (responsesResponseToChatCompletionsResponse resp).1.content := by
      rw [InputItem.said?, if_pos rfl]
    rw [List.filterMap_append, List.filterMap_cons_some htext,
      List.filterMap_eq_nil_iff.mpr fun item hitem => (hcall item hitem).2,
      List.filterMap_eq_nil_iff.mpr fun item hitem => (answers_item hids hitem).2]
    rfl

/-! ### All turns -/

/-- What is kept: the chat makes an input that belongs together and has what was said. -/
structure Kept (marshal : Doc ν → String) (s : State ν) : Prop where
  answered : Answered (s.messages.flatMap (Message.inputItems marshal))
  said : (s.messages.flatMap (Message.inputItems marshal)).filterMap InputItem.said? = s.said

theorem Kept.step (h : Kept marshal s) (hallowed : Allowed s e) : Kept marshal (step s e) := by
  cases e with
  | say msg =>
    have hmsg : ∀ item ∈ msg.inputItems marshal, item.callId? = none ∧ item.outputId? = none ∧
        item.said? = none := inputItems_say hallowed
    constructor
    · rw [ToResponses.step, List.flatMap_append, List.flatMap_singleton]
      exact h.answered.append (answered_of_none fun item hitem =>
        ⟨(hmsg item hitem).1, (hmsg item hitem).2.1⟩)
    · rw [ToResponses.step, List.flatMap_append, List.flatMap_singleton, List.filterMap_append,
        h.said, List.filterMap_eq_nil_iff.mpr fun item hitem => (hmsg item hitem).2.2,
        List.append_nil]
  | turn resp answers =>
    obtain ⟨hanswered, hsaid⟩ := @answered_turn _ marshal _ _ hallowed
    constructor
    · rw [ToResponses.step, List.flatMap_append]
      exact h.answered.append hanswered
    · rw [ToResponses.step, List.flatMap_append, List.filterMap_append, h.said, hsaid]

theorem kept_init (marshal : Doc ν → String) : Kept marshal .init := ⟨answered_nil, rfl⟩

/-- **In every turn the API takes the input**, and it has the texts of the model, whatever the
responses were and in whatever order their calls were answered. -/
theorem answered_run (marshal : Doc ν → String) {es : List (Event ν)}
    (hes : Along step Allowed .init es) {model : String} (hmodel : model ≠ "") {n : Option ℤ}
    (hn : n.getD 1 ≤ 1) :
    ∃ r, chatCompletionsRequestToResponsesRequest marshal
        ⟨model, n, (run step .init es).messages⟩ = .ok r ∧
      Answered r.input ∧ r.input.filterMap InputItem.said? = (run step .init es).said := by
  have hkept : Kept marshal (run step .init es) :=
    inv_run (fun _ _ h hallowed => h.step hallowed) (kept_init marshal) hes
  refine ⟨⟨model, _, instructions (run step .init es).messages⟩, ?_, hkept.answered, hkept.said⟩
  rw [chatCompletionsRequestToResponsesRequest, if_neg hmodel, if_neg (not_lt.mpr hn)]
  rfl

section Sample

/-- Two calls, the second one without an id, and blanks around the other one's. -/
def forecast : Response where
  output := [{ type := "function_call", callId := " c1 ", name := "weather", arguments := "Rome" },
    { type := "function_call", name := "clock", arguments := "" }]

def reply : Response where
  output := [{ type := "message", role := "assistant", content := [⟨"output_text", "Sunny"⟩] }]

/-- The client answers the second call first. -/
def rome : List (Event ℤ) :=
  [.say { role := "user", content := .str "How is the weather in Rome?" },
    .turn forecast [("", .str "12:00"), ("c1", .str "sun")], .turn reply []]

theorem along_rome : Along step Allowed .init rome :=
  ⟨by decide +kernel, by decide +kernel, by decide +kernel, trivial⟩

theorem answered_rome :
    ∃ r, chatCompletionsRequestToResponsesRequest (fun _ => "")
        ⟨"gpt", none, (run step .init rome).messages⟩ = .ok r ∧
      Answered r.input ∧ r.input.filterMap InputItem.said? = (run step .init rome).said :=
  answered_run (fun _ => "") along_rome (by decide) (by decide)

end Sample

end ToResponses

end Convert

end NewApiPool
