import NewApiPool.Convert.Gemini
import NewApiPool.Convert.MarkdownImages
import NewApiPool.Convert.ToResponses
import NewApiPool.Lib.Fallible

/-!
# Turns of a chat with Gemini

A chat client may be served by Gemini: `CovertOpenAI2Gemini` makes contents of the messages of its
request, and `responseGeminiChat2OpenAI` a message of the chat of the response. The client sends the
whole chat each time, and so what Gemini said in one turn comes back to it in the next ones through
both of them.

Gemini knows no ids of calls. It takes contents only if behind a content with function calls there
is one with as many responses, which it reads by name; the ids that the client answers with are made
by the one conversion and forgotten by the other. Whatever Gemini says, if the client answers each
call it is shown, in any order, then in every later turn each content with calls has the responses
to them behind it, and the calls are those that Gemini made
(`NewApiPool.Convert.ToGemini.paired_run`).
-/

namespace NewApiPool

namespace Convert

namespace ToGemini

open EventSystem Fallible JsonDoc ToClaudeRequest

variable {ν : Type}

/-! ### Chat messages -/

/-- `dto.Message`, with the name it may have -/
structure Message (ν : Type) extends ToResponses.Message ν where
  name : Option String := none

def Message.parseContent (msg : Message ν) : List ToResponses.MediaContent :=
  match msg.content with
  | .str text => [.text text]
  | _ => msg.toMessage.parseContent

def textItem (item : Doc ν) : Option String := do
  let members ← obj? item
  if ToResponses.member members "type" = some "text" then ToResponses.member members "text"
  else none

def Message.stringContent (msg : Message ν) : String :=
  match msg.content with
  | .str text => text
  | .arr items => String.join (items.filterMap textItem)
  | _ => ""

/-- `ToFileSource`: what a part refers to, and its type if that is known. -/
def toFileSource : ToResponses.MediaContent → Option (String × String)
  | .imageUrl url _ => if url = "" then none else some (url, "")
  | .inputAudio data format =>
    if data = "" then none else some (data, if format ≠ "" then "audio/" ++ format else "")
  | .file _ fileData => if fileData = "" then none else some (fileData, "")
  | .videoUrl url => if url = "" then none else some (url, "")
  | .text _ | .fileId _ => none

/-! ### Gemini requests -/

inductive PartData (ν : Type)
  | text (text : String)
  | inlineData (mimeType data : String)
  | functionCall (functionName : String) (arguments : Doc ν)
  | functionResponse (name : String) (response : Doc ν)

/-- `dto.GeminiPart` -/
structure Part (ν : Type) where
  data : PartData ν
  thoughtSignature : Option String := none

/-- `dto.GeminiChatContent` -/
structure Content (ν : Type) where
  role : String := ""
  parts : List (Part ν)

/-- `dto.GeminiChatRequest` -/
structure Request (ν : Type) where
  contents : List (Content ν)
  systemInstructions : Option (Content ν)

/-- What a request is refused for. -/
inductive Failure
  | invalidArguments (name arguments : String)
  | markdownImage
  | fileData (source : String)
  | mimeType (mimeType source : String)
deriving DecidableEq, Repr

def thoughtSignatureBypassValue : String := "context_engineering_is_the_way_to_go"

def geminiSupportedMimeTypes : List String :=
  ["application/pdf", "audio/mpeg", "audio/mp3", "audio/wav", "image/png", "image/jpeg",
    "image/jpg", "image/webp", "image/heic", "image/heif", "text/plain", "video/mov", "video/mpeg",
    "video/mp4", "video/mpg", "video/avi", "video/wmv", "video/mpegps", "video/flv"]

/-- What the conversion uses: JSON, the files that parts refer to, and whether the channel wants
signatures. -/
structure Env (ν : Type) where
  /-- `json.Unmarshal` -/
  unmarshal : String → Option (Doc ν)
  decodeBase64ImageData : String → Option (String × String)
  /-- `GetBase64Data`: the data of a file, and its type -/
  getBase64Data : String × String → Option (String × String)
  attachThoughtSignature : Bool

section Convert

variable (env : Env ν)

/-- `json.Unmarshal` into a map, which null makes nil -/
def Env.unmarshalMap (text : String) : Option (Doc ν) :=
  match env.unmarshal text with
  | some (.obj members) => some (.obj members)
  | some .null => some .null
  | _ => none

/-- The arguments of a call. -/
def Env.arguments (text : String) : Option (Doc ν) :=
  if text = "" then some (.obj []) else env.unmarshalMap text

def Env.callPart (call : ToResponses.ToolCallRequest) : Except Failure (Part ν) :=
  match env.arguments call.arguments with
  | some args => .ok ⟨.functionCall call.name args, none⟩
  | none => .error (.invalidArguments call.name call.arguments)

/-- `hasFunctionCallContent`, of a call -/
def hasFunctionCallContent : PartData ν → Bool
  | .functionCall name (.obj members) => GoText.trimSpace name ≠ "" || !members.isEmpty
  | .functionCall name _ => GoText.trimSpace name ≠ ""
  | _ => false

def PartData.isText : PartData ν → Bool
  | .text _ => true
  | _ => false

/-- The first of the parts that are asked for gets the signature. -/
def signFirst (asked : PartData ν → Bool) : List (Part ν) → List (Part ν)
  | [] => []
  | part :: parts =>
    if asked part.data then ⟨part.data, some thoughtSignatureBypassValue⟩ :: parts
    else part :: signFirst asked parts

def ofRequestPart : MarkdownImages.RequestPart → Part ν
  | .text text => ⟨.text text, none⟩
  | .inlineData mimeType data signature => ⟨.inlineData mimeType data, signature⟩

/-- The part for a file. -/
def Env.fileParts : Option (String × String) → Except Failure (List (Part ν))
  | none => .ok []
  | some source =>
    match env.getBase64Data source with
    | none => .error (.fileData source.1)
    | some (base64Data, mimeType) =>
      if GoText.toLower mimeType ∈ geminiSupportedMimeTypes then
        .ok [⟨.inlineData mimeType base64Data, none⟩]
      else .error (.mimeType mimeType source.1)

/-- The parts for one part of a content. -/
def Env.mediaParts (attach : Bool) (part : ToResponses.MediaContent) :
    Except Failure (List (Part ν)) :=
  match part with
  | .text text =>
    match MarkdownImages.Decoder.convertText
        ⟨env.decodeBase64ImageData, if attach then some thoughtSignatureBypassValue else none⟩
        text with
    | some parts => .ok (parts.map ofRequestPart)
    | none => .error .markdownImage
  | media => env.fileParts (toFileSource media)

/-- The parts of a message that is not of a tool. -/
def Env.parts (msg : Message ν) : Except Failure (List (Part ν)) := do
  let attach := env.attachThoughtSignature && (msg.role = "assistant" || msg.role = "model")
  let calls ← msg.toolCalls.mapM env.callPart
  let media ← msg.parseContent.mapM (env.mediaParts attach)
  let signed := calls.any fun part => hasFunctionCallContent part.data
  let parts := (if attach then signFirst hasFunctionCallContent calls else calls) ++ media.flatten
  return if attach && !signed then signFirst PartData.isText parts else parts

/-- The response that is in a message of a tool. -/
def Env.response (content : String) : Doc ν :=
  match env.unmarshalMap content with
  | some response => response
  | none =>
    match env.unmarshal content with
    | some (.arr items) => .obj [("result", .arr items)]
    | _ => .obj [("content", .str content)]

/-- A response is put into the last content, or behind it if that is the model's. -/
def addResponse (contents : List (Content ν)) (part : Part ν) : List (Content ν) :=
  match contents.getLast? with
  | none => [⟨"user", [part]⟩]
  | some last =>
    if last.role = "model" then contents ++ [⟨"user", [part]⟩]
    else contents.dropLast ++ [{ last with parts := last.parts ++ [part] }]

/-- The variables of the loop over the messages; of the names of the calls, the last one with an id
is first. -/
structure Loop (ν : Type) where
  contents : List (Content ν) := []
  toolCallIds : List (String × String) := []

def Loop.add (s : Loop ν) (msg : Message ν) : Except Failure (Loop ν) :=
  if msg.role = "system" ∨ msg.role = "developer" then .ok s
  else if msg.role = "tool" ∨ msg.role = "function" then
    let name := msg.name.getD ((s.toolCallIds.lookup msg.toolCallId).getD "")
    let part := ⟨.functionResponse name (env.response msg.stringContent), none⟩
    .ok { s with contents := addResponse s.contents part }
  else do
    let parts ← env.parts msg
    let role := if msg.role = "assistant" then "model" else msg.role
    return {
      contents := s.contents ++ if parts = [] then [] else [⟨role, parts⟩]
      toolCallIds := (msg.toolCalls.map fun call => (call.id, call.name)).reverse ++ s.toolCallIds }

/-- The texts of the system messages, as instructions. -/
def systemInstructions (messages : List (Message ν)) : Option (Content ν) :=
  let systemContent := (messages.filter fun msg => msg.role = "system" ∨ msg.role = "developer").map
    Message.stringContent
  if systemContent = [] then none
  else some { parts := [⟨.text ("\n".intercalate systemContent), none⟩] }

def covertOpenAI2Gemini (messages : List (Message ν)) : Except Failure (Request ν) := do
  let s ← messages.foldlM (Loop.add env) {}
  return { contents := s.contents, systemInstructions := systemInstructions messages }

end Convert

/-! ### Turns -/

/-- The message that the client gets, as it puts it into the chat. -/
def replyOf (choice : Completion) : Message ν where
  role := "assistant"
  content := .str choice.content
  toolCalls := choice.toolCalls.map fun call => ⟨call.id, "function", call.name, call.arguments⟩

/-- The answer to a call. -/
def answerOf (answer : String × Doc ν) : Message ν where
  role := "tool"
  content := answer.2
  toolCallId := answer.1

/-- The call in a part of a response, with the text of its arguments. -/
def called? (part : GeminiPart) : Option (String × String) :=
  match part.inlineData, part.functionCall with
  | none, some call => call.arguments.map fun arguments => (call.functionName, arguments)
  | _, _ => none

/-- A message of the client, or a turn of Gemini with the client's answers to its calls. -/
inductive Event (ν : Type)
  | say (msg : Message ν)
  | turn (candidate : GeminiChatCandidate) (answers : List (String × Doc ν))

/-- The chat that the client has, how many UUIDs were made, and what Gemini has called. -/
structure State (ν : Type) where
  messages : List (Message ν) := []
  uuids : ℕ := 0
  called : List (String × String) := []

section Turns

variable (uuid : ℕ → String)

def step (s : State ν) : Event ν → State ν
  | .say msg => { s with messages := s.messages ++ [msg] }
  | .turn candidate answers =>
    let (choice, _, uuids) := wholeChoice uuid s.uuids false candidate
    { messages := s.messages ++ replyOf choice :: answers.map answerOf
      uuids
      called := s.called ++ candidate.parts.filterMap called? }

/-- The client does not speak for the model or a tool, and answers each call once. -/
def Allowed (s : State ν) : Event ν → Prop
  | .say msg => msg.role ∉ ["assistant", "model", "tool", "function"] ∧ msg.toolCalls = []
  | .turn candidate answers => (answers.map Prod.fst).Perm
      ((wholeChoice uuid s.uuids false candidate).1.toolCalls.map ToolCall.id)

instance decidableAllowed (s : State ν) : ∀ e : Event ν, Decidable (Allowed uuid s e)
  | .say _ => inferInstanceAs (Decidable (_ ∧ _))
  | .turn _ _ => inferInstanceAs (Decidable (List.Perm _ _))

end Turns

def PartData.call? : PartData ν → Option (String × Doc ν)
  | .functionCall functionName arguments => some (functionName, arguments)
  | _ => none

def PartData.response? : PartData ν → Option String
  | .functionResponse name _ => some name
  | _ => none

/-- The calls of a content. -/
def Content.calls (content : Content ν) : List (String × Doc ν) :=
  (content.parts.map Part.data).filterMap PartData.call?

/-- The names of its responses. -/
def Content.responses (content : Content ν) : List String :=
  (content.parts.map Part.data).filterMap PartData.response?

/-- **The contents are what Gemini takes**: behind a content with calls there is one of responses
to them, and there are no other responses. -/
inductive Paired : List (Content ν) → Prop
  | nil : Paired []
  | plain {content rest} : content.calls = [] → content.responses = [] → Paired rest →
      Paired (content :: rest)
  | exchange {content answers rest} : content.role = "model" → content.calls ≠ [] →
      content.responses = [] → answers.role = "user" →
      (∀ part ∈ answers.parts, part.data.response?.isSome) →
      answers.responses.Perm (content.calls.map Prod.fst) → Paired rest →
      Paired (content :: answers :: rest)

/-- The message can be converted. -/
def Converts (env : Env ν) (msg : Message ν) : Prop :=
  msg.role ∈ ["system", "developer", "tool", "function"] ∨ ∃ parts, env.parts msg = .ok parts

/-- A call of Gemini, and how it comes back: with the same name, and the arguments in its text. -/
def Returns (env : Env ν) (call : String × String) (part : String × Doc ν) : Prop :=
  part.1 = call.1 ∧ env.arguments call.2 = some part.2

/-! ### The parts of a message -/

variable {env : Env ν} {msg : Message ν} {uuid : ℕ → String}

theorem map_data_signFirst (asked : PartData ν → Bool) (parts : List (Part ν)) :
    (signFirst asked parts).map Part.data = parts.map Part.data := by
  induction parts with
  | nil => rfl
  | cons part parts ih =>
    rw [signFirst]
    split
    · rfl
    · rw [List.map_cons, ih, List.map_cons]

theorem callPart_eq_ok {call : ToResponses.ToolCallRequest} {part : Part ν}
    (h : env.callPart call = .ok part) :
    ∃ args, part.data = .functionCall call.name args ∧
      env.arguments call.arguments = some args := by
  rw [Env.callPart] at h
  cases hargs : env.arguments call.arguments with
  | none =>
    rw [hargs] at h
    cases h
  | some args =>
    rw [hargs] at h
    obtain rfl := Except.ok.inj h
    exact ⟨args, rfl, rfl⟩

/-- The parts for a part of a content are no calls and no responses. -/
theorem mediaParts_eq_ok {attach : Bool} {media : ToResponses.MediaContent} {parts : List (Part ν)}
    (h : env.mediaParts attach media = .ok parts) :
    ∀ part ∈ parts, part.data.call? = none ∧ part.data.response? = none := by
  have hfile (source : Option (String × String)) (h : env.fileParts source = .ok parts) :
      ∀ part ∈ parts, part.data.call? = none ∧ part.data.response? = none := by
    rw [Env.fileParts.eq_def] at h
    split at h
    · obtain rfl := Except.ok.inj h
      exact fun part hpart => absurd hpart List.not_mem_nil
    split at h
    · cases h
    split at h
    · obtain rfl := Except.ok.inj h
      intro part hpart
      obtain rfl := List.mem_singleton.mp hpart
      exact ⟨rfl, rfl⟩
    · cases h
  cases media with
  | text text =>
    rw [Env.mediaParts] at h
    split at h
    · obtain rfl := Except.ok.inj h
      intro part hpart
      obtain ⟨requestPart, -, rfl⟩ := List.mem_map.mp hpart
      cases requestPart <;> exact ⟨rfl, rfl⟩
    · cases h
  | imageUrl url detail => exact hfile (toFileSource (.imageUrl url detail)) h
  | inputAudio data format => exact hfile (toFileSource (.inputAudio data format)) h
  | fileId fileId => exact hfile (toFileSource (.fileId fileId)) h
  | file filename fileData => exact hfile (toFileSource (.file filename fileData)) h
  | videoUrl url => exact hfile (toFileSource (.videoUrl url)) h

theorem forall₂_calls {toolCalls : List ToResponses.ToolCallRequest} {calls : List (Part ν)}
    (h : List.Forall₂ (fun call part => env.callPart call = .ok part) toolCalls calls) :
    List.Forall₂ (fun call part => Returns env (call.name, call.arguments) part) toolCalls
        ((calls.map Part.data).filterMap PartData.call?) ∧
      (calls.map Part.data).filterMap PartData.response? = [] := by
  induction h with
  | nil => exact ⟨.nil, rfl⟩
  | @cons call part toolCalls calls hpart _ ih =>
    obtain ⟨args, hdata, hargs⟩ := callPart_eq_ok hpart
    rw [List.map_cons, hdata]
    exact ⟨.cons ⟨rfl, hargs⟩ ih.1, ih.2⟩

/-- **The parts of a message** have its calls, and no responses. -/
theorem parts_spec {parts : List (Part ν)} (h : env.parts msg = .ok parts) :
    List.Forall₂ (fun call part => Returns env (call.name, call.arguments) part) msg.toolCalls
        ((parts.map Part.data).filterMap PartData.call?) ∧
      (parts.map Part.data).filterMap PartData.response? = [] := by
  rw [Env.parts] at h
  obtain ⟨calls, hcalls, h⟩ := bind_eq_ok_iff.mp h
  obtain ⟨media, hmedia, h⟩ := bind_eq_ok_iff.mp h
  have hdata : parts.map Part.data = calls.map Part.data ++ media.flatten.map Part.data := by
    obtain rfl := Except.ok.inj h
    split_ifs <;> simp only [map_data_signFirst, List.map_append]
  have hnone : ∀ data ∈ media.flatten.map Part.data,
      data.call? = none ∧ data.response? = none := by
    intro data hmem
    obtain ⟨part, hpart, rfl⟩ := List.mem_map.mp hmem
    obtain ⟨parts, hparts, hpart⟩ := List.mem_flatten.mp hpart
    obtain ⟨content, -, hcontent⟩ := exists_of_mem_mapM hmedia hparts
    exact mediaParts_eq_ok hcontent part hpart
  obtain ⟨hreturns, hresponses⟩ := forall₂_calls (mapM_eq_ok_iff.mp hcalls)
  rw [hdata, List.filterMap_append, List.filterMap_append, hresponses,
    List.filterMap_eq_nil_iff.mpr fun data hmem => (hnone data hmem).1,
    List.filterMap_eq_nil_iff.mpr fun data hmem => (hnone data hmem).2, List.append_nil]
  exact ⟨hreturns, rfl⟩

/-! ### One message after the other -/

variable {s s' : Loop ν}

theorem Paired.append {contents contents' : List (Content ν)} (h : Paired contents)
    (h' : Paired contents') : Paired (contents ++ contents') := by
  induction h with
  | nil => exact h'
  | plain hcalls hresponses _ ih => exact .plain hcalls hresponses ih
  | exchange hrole hcalls hresponses hanswers hparts hperm _ ih =>
    exact .exchange hrole hcalls hresponses hanswers hparts hperm ih

/-- A message that is not of a tool or the system makes at most one content, with its calls. -/
theorem add_own (hrole : msg.role ∉ ["system", "developer", "tool", "function"])
    (h : Loop.add env s msg = .ok s') :
    ∃ parts, env.parts msg = .ok parts ∧
      s'.contents = s.contents ++ (if parts = [] then []
        else [⟨if msg.role = "assistant" then "model" else msg.role, parts⟩]) ∧
      s'.toolCallIds =
        (msg.toolCalls.map fun call => (call.id, call.name)).reverse ++ s.toolCallIds := by
  simp only [List.mem_cons, List.not_mem_nil, or_false, not_or] at hrole
  obtain ⟨hsystem, hdeveloper, htool, hfunction⟩ := hrole
  rw [Loop.add, if_neg (not_or.mpr ⟨hsystem, hdeveloper⟩), if_neg (not_or.mpr ⟨htool, hfunction⟩)]
    at h
  obtain ⟨parts, hparts, h⟩ := bind_eq_ok_iff.mp h
  obtain rfl := Except.ok.inj h
  exact ⟨parts, hparts, rfl, rfl⟩

/-- What the client says has no calls and no responses. -/
theorem add_say (hrole : msg.role ∉ ["assistant", "model", "tool", "function"])
    (hcalls : msg.toolCalls = []) (h : Loop.add env s msg = .ok s') :
    ∃ new, s'.contents = s.contents ++ new ∧ Paired new ∧ new.flatMap Content.calls = [] := by
  by_cases hsystem : msg.role = "system" ∨ msg.role = "developer"
  · rw [Loop.add, if_pos hsystem] at h
    obtain rfl := Except.ok.inj h
    exact ⟨[], (List.append_nil _).symm, .nil, rfl⟩
  have hown : msg.role ∉ ["system", "developer", "tool", "function"] := by
    simp only [List.mem_cons, List.not_mem_nil, or_false, not_or] at hrole hsystem ⊢
    exact ⟨hsystem.1, hsystem.2, hrole.2.2.1, hrole.2.2.2⟩
  obtain ⟨parts, hparts, hcontents, -⟩ := add_own hown h
  obtain ⟨hreturns, hresponses⟩ := parts_spec hparts
  rw [hcalls, List.forall₂_nil_left_iff] at hreturns
  refine ⟨_, hcontents, ?_, ?_⟩
  · split_ifs
    · exact .nil
    · exact .plain hreturns hresponses .nil
    · exact .plain hreturns hresponses .nil
  · split_ifs
    · rfl
    · exact (List.flatMap_singleton _ _).trans hreturns
    · exact (List.flatMap_singleton _ _).trans hreturns

/-- The response for an answer. -/
def responsePart (env : Env ν) (toolCallIds : List (String × String)) (answer : String × Doc ν) :
    Part ν :=
  ⟨.functionResponse ((toolCallIds.lookup answer.1).getD "")
    (env.response (answerOf answer).stringContent), none⟩

theorem add_answer (s : Loop ν) (answer : String × Doc ν) :
    Loop.add env s (answerOf answer) =
      .ok { s with
        contents := addResponse s.contents (responsePart env s.toolCallIds answer) } := by
  have hrole : (answerOf answer).role = "tool" := rfl
  have hsystem : ¬((answerOf answer).role = "system" ∨ (answerOf answer).role = "developer") := by
    rw [hrole]
    decide
  rw [Loop.add, if_neg hsystem, if_pos (Or.inl hrole)]
  rfl

theorem foldlM_answers {before : List (Content ν)} {parts : List (Part ν)}
    (hcontents : s.contents = before ++ [⟨"user", parts⟩]) (answers : List (String × Doc ν)) :
    (answers.map answerOf).foldlM (Loop.add env) s =
      .ok { s with
        contents := before ++
          [⟨"user", parts ++ answers.map (responsePart env s.toolCallIds)⟩] } := by
  induction answers generalizing s parts with
  | nil =>
    rw [List.map_nil, List.map_nil, List.append_nil, ← hcontents]
    rfl
  | cons answer answers ih =>
    have hadd : addResponse s.contents (responsePart env s.toolCallIds answer) =
        before ++ [⟨"user", parts ++ [responsePart env s.toolCallIds answer]⟩] := by
      rw [addResponse, hcontents, List.getLast?_concat]
      dsimp only
      rw [if_neg (by decide), List.dropLast_concat]
    rw [List.map_cons, List.foldlM_cons, add_answer, hadd]
    refine (ih (s := { s with contents := _ }) rfl).trans ?_
    rw [List.map_cons, List.append_assoc, List.singleton_append]

variable {answers : List (String × Doc ν)}

/-- **The responses to a content of the model** are a content behind it. -/
theorem foldlM_answers_model {before : List (Content ν)} {last : Content ν}
    (hcontents : s.contents = before ++ [last]) (hrole : last.role = "model")
    (hanswers : answers ≠ []) :
    (answers.map answerOf).foldlM (Loop.add env) s =
      .ok { s with
        contents := s.contents ++ [⟨"user", answers.map (responsePart env s.toolCallIds)⟩] } := by
  obtain ⟨answer, answers, rfl⟩ := List.exists_cons_of_ne_nil hanswers
  have hadd : addResponse s.contents (responsePart env s.toolCallIds answer) =
      s.contents ++ [⟨"user", [responsePart env s.toolCallIds answer]⟩] := by
    rw [addResponse, hcontents, List.getLast?_concat]
    dsimp only
    rw [if_pos hrole]
  rw [List.map_cons, List.foldlM_cons, add_answer, hadd]
  exact foldlM_answers (s := { s with contents := _ }) rfl answers

/-! ### A turn -/

variable {toolCalls : List ToolCall}

theorem lookup_toolCallIds (hnodup : (toolCalls.map ToolCall.id).Nodup)
    (old : List (String × String)) {call : ToolCall} (hcall : call ∈ toolCalls) :
    ((toolCalls.map fun call => (call.id, call.name)).reverse ++ old).lookup call.id =
      some call.name := by
  have hkeys : (((toolCalls.map fun call => (call.id, call.name)).reverse).map Prod.fst).Nodup := by
    rw [List.map_reverse, List.nodup_reverse, List.map_map]
    exact hnodup
  have hmem : (call.id, call.name) ∈ (toolCalls.map fun call => (call.id, call.name)).reverse :=
    List.mem_reverse.mpr (List.mem_map_of_mem hcall)
  rw [List.lookup_append, (lookup_eq_some_iff hkeys).mpr hmem, Option.some_or]

/-- **The responses have the names of the calls**, however they are ordered. -/
theorem responses_perm (hnodup : (toolCalls.map ToolCall.id).Nodup)
    (hanswers : (answers.map Prod.fst).Perm (toolCalls.map ToolCall.id))
    (old : List (String × String)) :
    (answers.map fun answer => ((((toolCalls.map fun call => (call.id, call.name)).reverse ++
        old).lookup answer.1).getD "")).Perm (toolCalls.map ToolCall.name) := by
  have hmap := hanswers.map fun id =>
    ((((toolCalls.map fun call => (call.id, call.name)).reverse ++ old).lookup id).getD "")
  rw [List.map_map, List.map_map] at hmap
  refine hmap.trans (List.Perm.of_eq (List.map_congr_left fun call hcall => ?_))
  rw [Function.comp_apply, lookup_toolCallIds hnodup old hcall, Option.getD_some]

def toolCall (uuid : ℕ → String) (call : (String × String) × ℕ) : ToolCall :=
  { id := "call_" ++ uuid call.2, name := call.1.1, arguments := call.1.2 }

theorem add_called (uuid : ℕ → String) (s : WholeState) (part : GeminiPart) :
    (s.add uuid part).toolCalls =
        s.toolCalls ++ ((called? part).toList.zipIdx s.uuids).map (toolCall uuid) ∧
      (s.add uuid part).uuids = s.uuids + (called? part).toList.length := by
  rw [WholeState.add, called?]
  cases part.inlineData with
  | some inlineData => exact ⟨(List.append_nil _).symm, rfl⟩
  | none =>
    cases part.functionCall with
    | some call =>
      dsimp only
      rw [getResponseToolCall]
      cases call.arguments with
      | some arguments => exact ⟨rfl, rfl⟩
      | none => exact ⟨(List.append_nil _).symm, rfl⟩
    | none =>
      dsimp only
      split
      · exact ⟨(List.append_nil _).symm, rfl⟩
      split
      · exact ⟨(List.append_nil _).symm, rfl⟩
      · exact ⟨(List.append_nil _).symm, rfl⟩
      · split_ifs <;> exact ⟨(List.append_nil _).symm, rfl⟩

/-- The calls that the client is shown are those in the parts, each with an id. -/
theorem foldl_called (uuid : ℕ → String) (parts : List GeminiPart) (s : WholeState) :
    (parts.foldl (WholeState.add uuid) s).toolCalls =
      s.toolCalls ++ ((parts.filterMap called?).zipIdx s.uuids).map (toolCall uuid) := by
  induction parts generalizing s with
  | nil => exact (List.append_nil _).symm
  | cons part parts ih =>
    obtain ⟨htoolCalls, huuids⟩ := add_called uuid s part
    have hcons : (part :: parts).filterMap called? =
        (called? part).toList ++ parts.filterMap called? := by
      cases hpart : called? part with
      | none => exact List.filterMap_cons_none hpart
      | some call => exact List.filterMap_cons_some hpart
    rw [List.foldl_cons, ih, htoolCalls, huuids, hcons, List.zipIdx_append, List.map_append,
      List.append_assoc]

theorem toolCalls_wholeChoice (uuid : ℕ → String) (n : ℕ) (candidate : GeminiChatCandidate) :
    (wholeChoice uuid n false candidate).1.toolCalls =
      ((candidate.parts.filterMap called?).zipIdx n).map (toolCall uuid) :=
  (foldl_called uuid candidate.parts { uuids := n }).trans (List.nil_append _)

theorem nodup_ids (huuid : Function.Injective uuid) (calls : List (String × String)) (n : ℕ) :
    (((calls.zipIdx n).map (toolCall uuid)).map ToolCall.id).Nodup := by
  have hids : ((calls.zipIdx n).map (toolCall uuid)).map ToolCall.id =
      (List.range' n calls.length).map fun i => "call_" ++ uuid i := by
    rw [← List.zipIdx_map_snd n calls, List.map_map, List.map_map]
    rfl
  rw [hids]
  refine List.Nodup.map (fun i j hij => huuid ?_) List.nodup_range'
  have hlist := congrArg String.toList hij
  rw [String.toList_append, String.toList_append] at hlist
  exact String.toList_inj.mp (List.append_cancel_left hlist)

/-- The message of the model makes a content with its calls. -/
theorem add_reply {choice : Completion} (h : Loop.add env s (replyOf choice) = .ok s') :
    ∃ parts, s'.contents = s.contents ++ (if parts = [] then [] else [⟨"model", parts⟩]) ∧
      s'.toolCallIds =
        (choice.toolCalls.map fun call => (call.id, call.name)).reverse ++ s.toolCallIds ∧
      List.Forall₂ (fun call part => Returns env (call.name, call.arguments) part)
        choice.toolCalls ((parts.map Part.data).filterMap PartData.call?) ∧
      (parts.map Part.data).filterMap PartData.response? = [] := by
  have hrole : (replyOf choice : Message ν).role = "assistant" := rfl
  have hown : (replyOf choice : Message ν).role ∉ ["system", "developer", "tool", "function"] := by
    rw [hrole]
    decide
  obtain ⟨parts, hparts, hcontents, hids⟩ := add_own hown h
  obtain ⟨hreturns, hresponses⟩ := parts_spec hparts
  rw [hrole, if_pos rfl] at hcontents
  rw [replyOf, List.map_map] at hids
  rw [replyOf, List.forall₂_map_left_iff] at hreturns
  exact ⟨parts, hcontents, hids, hreturns, hresponses⟩

theorem names_of_returns {parts : List (String × Doc ν)}
    (h : List.Forall₂ (fun call part => Returns env (call.name, call.arguments) part) toolCalls
      parts) :
    parts.map Prod.fst = toolCalls.map ToolCall.name := by
  induction h with
  | nil => rfl
  | cons hreturns _ ih => rw [List.map_cons, List.map_cons, hreturns.1, ih]

theorem answers_content (env : Env ν) (ids : List (String × String))
    (answers : List (String × Doc ν)) :
    (⟨"user", answers.map (responsePart env ids)⟩ : Content ν).calls = [] ∧
      (⟨"user", answers.map (responsePart env ids)⟩ : Content ν).responses =
        answers.map fun answer => (ids.lookup answer.1).getD "" := by
  rw [Content.calls, Content.responses, List.map_map, List.filterMap_map, List.filterMap_map]
  exact ⟨List.filterMap_eq_nil_iff.mpr fun _ _ => rfl, congrFun List.filterMap_eq_map answers⟩

/-- **A turn** adds the calls of Gemini, with the responses to them behind them. -/
theorem add_turn (huuid : Function.Injective uuid) {n : ℕ} {candidate : GeminiChatCandidate}
    (hanswers : (answers.map Prod.fst).Perm
      ((wholeChoice uuid n false candidate).1.toolCalls.map ToolCall.id))
    (h : (replyOf (wholeChoice uuid n false candidate).1 :: answers.map answerOf).foldlM
      (Loop.add env) s = .ok s') :
    ∃ new, s'.contents = s.contents ++ new ∧ Paired new ∧
      List.Forall₂ (Returns env) (candidate.parts.filterMap called?)
        (new.flatMap Content.calls) := by
  have hnodup := nodup_ids huuid (candidate.parts.filterMap called?) n
  have hcalled : (((candidate.parts.filterMap called?).zipIdx n).map (toolCall uuid)).map
      (fun call => (call.name, call.arguments)) = candidate.parts.filterMap called? := by
    rw [List.map_map]
    exact List.zipIdx_map_fst n _
  rw [← toolCalls_wholeChoice] at hnodup hcalled
  generalize (wholeChoice uuid n false candidate).1 = choice at hanswers h hnodup hcalled
  rw [List.foldlM_cons] at h
  obtain ⟨s₁, hreply, h⟩ := bind_eq_ok_iff.mp h
  obtain ⟨parts, hcontents, hids, hreturns, hresponses⟩ := add_reply hreply
  rw [← hcalled]
  simp only [List.forall₂_map_left_iff]
  by_cases hnone : choice.toolCalls = []
  · -- no calls, and so no answers
    rw [hnone, List.map_nil, List.perm_nil, List.map_eq_nil_iff] at hanswers
    rw [hanswers] at h
    obtain rfl := Except.ok.inj h
    rw [hnone, List.forall₂_nil_left_iff] at hreturns
    rw [hnone]
    refine ⟨_, hcontents, ?_, ?_⟩
    · split_ifs
      · exact .nil
      · exact .plain hreturns hresponses .nil
    · split_ifs
      · exact .nil
      · rw [List.forall₂_nil_left_iff, List.flatMap_singleton]
        exact hreturns
  · have hne : (parts.map Part.data).filterMap PartData.call? ≠ [] := by
      intro hnil
      rw [hnil, List.forall₂_nil_right_iff] at hreturns
      exact hnone hreturns
    have hparts : parts ≠ [] := by
      rintro rfl
      exact hne rfl
    have hsome : answers ≠ [] := by
      rintro rfl
      exact hnone (List.map_eq_nil_iff.mp (List.nil_perm.mp hanswers))
    rw [if_neg hparts] at hcontents
    rw [foldlM_answers_model hcontents rfl hsome] at h
    obtain rfl := Except.ok.inj h
    obtain ⟨hanswersCalls, hanswersNames⟩ := answers_content env s₁.toolCallIds answers
    refine ⟨_, by rw [hcontents, List.append_assoc], ?_, ?_⟩
    · refine .exchange rfl hne hresponses rfl (fun part hpart => ?_) ?_ .nil
      · obtain ⟨answer, -, rfl⟩ := List.mem_map.mp hpart
        rfl
      · rw [hanswersNames, Content.calls, names_of_returns hreturns, hids]
        exact responses_perm hnodup hanswers _
    · rw [List.singleton_append, List.flatMap_cons, List.flatMap_singleton, hanswersCalls,
        List.append_nil]
      exact hreturns

/-! ### All turns -/

theorem Converts.add (h : Converts env msg) (s : Loop ν) :
    ∃ s', Loop.add env s msg = .ok s' := by
  rw [Loop.add]
  split
  · exact ⟨_, rfl⟩
  · next hsystem =>
    split
    · exact ⟨_, rfl⟩
    · next htool =>
      rcases h with h | ⟨parts, hparts⟩
      · simp only [List.mem_cons, List.not_mem_nil, or_false] at h
        tauto
      · rw [hparts]
        exact ⟨_, rfl⟩

/-- What is kept: once its messages are converted, the contents are what Gemini takes and have its
calls. -/
def Kept (env : Env ν) (s : State ν) : Prop :=
  ∀ loop, s.messages.foldlM (Loop.add env) {} = .ok loop →
    Paired loop.contents ∧
      List.Forall₂ (Returns env) s.called (loop.contents.flatMap Content.calls)

theorem Kept.step {s : State ν} {e : Event ν} (huuid : Function.Injective uuid) (h : Kept env s)
    (hallowed : Allowed uuid s e) : Kept env (step uuid s e) := by
  cases e with
  | say msg =>
    intro loop' hloop
    rw [ToGemini.step, List.foldlM_append] at hloop
    obtain ⟨loop, hbefore, hlast⟩ := bind_eq_ok_iff.mp hloop
    rw [List.foldlM_cons] at hlast
    obtain ⟨_, hsay, hnil⟩ := bind_eq_ok_iff.mp hlast
    obtain rfl := Except.ok.inj hnil
    obtain ⟨hpaired, hreturns⟩ := h loop hbefore
    obtain ⟨new, hcontents, hnew, hnone⟩ := add_say hallowed.1 hallowed.2 hsay
    rw [hcontents, List.flatMap_append, hnone, List.append_nil]
    exact ⟨hpaired.append hnew, hreturns⟩
  | turn candidate answers =>
    intro loop' hloop
    rw [ToGemini.step] at hloop ⊢
    dsimp only at hloop ⊢
    rw [List.foldlM_append] at hloop
    obtain ⟨loop, hbefore, hturn⟩ := bind_eq_ok_iff.mp hloop
    obtain ⟨hpaired, hreturns⟩ := h loop hbefore
    obtain ⟨new, hcontents, hnew, hcalls⟩ := add_turn huuid hallowed hturn
    rw [hcontents, List.flatMap_append]
    exact ⟨hpaired.append hnew, List.rel_append hreturns hcalls⟩

theorem kept_init (env : Env ν) : Kept env {} := by
  intro loop hloop
  obtain rfl := Except.ok.inj hloop
  exact ⟨.nil, .nil⟩

/-- **In every turn Gemini is sent its calls**, with the names and the arguments it gave, and behind
each content with calls the responses to them, whatever it called and in whatever order the client
answered. -/
theorem paired_run (huuid : Function.Injective uuid) {es : List (Event ν)}
    (hes : Along (step uuid) (Allowed uuid) {} es)
    (hmessages : ∀ msg ∈ (run (step uuid) {} es).messages, Converts env msg) :
    ∃ request, covertOpenAI2Gemini env (run (step uuid) {} es).messages = .ok request ∧
      Paired request.contents ∧
      List.Forall₂ (Returns env) (run (step uuid) {} es).called
        (request.contents.flatMap Content.calls) := by
  have hkept : Kept env (run (step uuid) {} es) :=
    inv_run (fun _ _ h hallowed => h.step huuid hallowed) (kept_init env) hes
  obtain ⟨loop, hloop⟩ := exists_foldlM_ok (fun msg hmsg s => (hmessages msg hmsg).add s) {}
  refine ⟨⟨loop.contents, systemInstructions (run (step uuid) {} es).messages⟩, ?_,
    hkept loop hloop⟩
  rw [covertOpenAI2Gemini, hloop]
  rfl

section Sample

def romeArguments : String := "\x7b\"city\":\"Rome\"\x7d"

/-- A channel that wants signatures. -/
def sampleEnv : Env ℤ where
  unmarshal := fun text =>
    if text = romeArguments then some (.obj [("city", .str "Rome")]) else none
  decodeBase64ImageData := fun _ => none
  getBase64Data := fun _ => none
  attachThoughtSignature := true

/-- Two calls after a thought. -/
def forecast : GeminiChatCandidate where
  parts := [{ text := "Rome", thought := true },
    { functionCall := some ⟨"weather", some romeArguments⟩ },
    { functionCall := some ⟨"clock", some romeArguments⟩ }]

/-- The client answers the second call first. -/
def rome : List (Event ℤ) :=
  [.say { role := "user", content := .str "How is the weather in Rome?" },
    .turn forecast [("call_1", .str "12:00"), ("call_0", .str "sun")],
    .turn { parts := [{ text := "Sunny" }] } []]

theorem toString_injective : Function.Injective (toString : ℕ → String) := by
  intro n m h
  have hindex := index?_toString n
  rw [h, index?_toString] at hindex
  exact (Option.some.inj hindex).symm

theorem along_rome : Along (step toString) (Allowed toString) {} rome :=
  ⟨by decide +kernel, by decide +kernel, by decide +kernel, trivial⟩

theorem converts_rome : ∀ msg ∈ (run (step toString) {} rome).messages, Converts sampleEnv msg := by
  intro msg hmsg
  have hlist : (run (step toString) {} rome).messages = [
    { role := "user", content := .str "How is the weather in Rome?" },
    { role := "assistant", content := .str "",
      toolCalls := [⟨"call_0", "function", "weather", romeArguments⟩,
        ⟨"call_1", "function", "clock", romeArguments⟩] },
    answerOf ("call_1", .str "12:00"), answerOf ("call_0", .str "sun"),
    { role := "assistant", content := .str "Sunny" }] := by rfl
  rw [hlist] at hmsg
  simp only [List.mem_cons, List.not_mem_nil, or_false] at hmsg
  rcases hmsg with rfl | rfl | rfl | rfl | rfl
  · exact .inr ⟨_, rfl⟩
  · exact .inr ⟨_, rfl⟩
  · exact .inl (by decide)
  · exact .inl (by decide)
  · exact .inr ⟨_, rfl⟩

theorem paired_rome :
    ∃ request, covertOpenAI2Gemini sampleEnv (run (step toString) {} rome).messages =
        .ok request ∧ Paired request.contents ∧
      List.Forall₂ (Returns sampleEnv) (run (step toString) {} rome).called
        (request.contents.flatMap Content.calls) :=
  paired_run toString_injective along_rome converts_rome

end Sample

end ToGemini

end Convert

end NewApiPool
