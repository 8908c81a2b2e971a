import NewApiPool.Convert.Message
import NewApiPool.Lib.GoText
import NewApiPool.Lib.Json

/-!
# A chat request for a Claude upstream

`RequestOpenAI2ClaudeMessage` goes over the messages twice. The first pass makes one message of two
that follow each other with one role and a text each: the later one takes the place of the earlier
one, with both texts. The second pass sets the system apart, lets the messages begin with the user,
puts tool results into a message of the user, and makes blocks of contents and calls.

What is read from the request without a type of its own is a document: the parameters of a tool,
`stop`, and the content of a message. The members of an object there have distinct names.
-/

namespace NewApiPool.Convert.ToClaudeRequest

open JsonDoc

variable {ν Input : Type}

/-! ### Requests -/

/-- `types.NewFileSourceFromData` -/
structure FileSource where
  data : String
  mimeType : String
deriving DecidableEq

/-- `dto.MediaContent`, as `ParseContent` makes it -/
inductive Media
  | text (text : String)
  | imageUrl (url : String)
  | inputAudio (data format : String)
  | file (fileData : String)
  | videoUrl (url : String)
deriving DecidableEq

def Media.toFileSource : Media → Option FileSource
  | .text _ => none
  | .imageUrl url => if url = "" then none else some ⟨url, ""⟩
  | .inputAudio data format =>
    if data = "" then none else some ⟨data, if format = "" then "" else "audio/" ++ format⟩
  | .file fileData => if fileData = "" then none else some ⟨fileData, ""⟩
  | .videoUrl url => if url = "" then none else some ⟨url, ""⟩

def Media.text? : Media → Option String
  | .text s => some s
  | _ => none

/-- A value that is a text. -/
def str? : Doc ν → Option String
  | .str s => some s
  | _ => none

/-- The members of a value that is an object. -/
def obj? : Doc ν → Option (List (String × Doc ν))
  | .obj members => some members
  | _ => none

/-- The URL of an image, in a text or in an object. -/
def imageUrl (imageUrl : Option (Doc ν)) : String :=
  match imageUrl with
  | some (.str url) => url
  | some (.obj members) => ((members.lookup "url").bind str?).getD ""
  | _ => ""

/-- One part of a content; parts that are not well formed are passed over. -/
def parsePart (part : Doc ν) : Option Media := do
  let item ← obj? part
  let contentType ← (item.lookup "type").bind str?
  if contentType = "text" then
    return .text (← (item.lookup "text").bind str?)
  else if contentType = "image_url" then
    return .imageUrl (imageUrl (item.lookup "image_url"))
  else if contentType = "input_audio" then
    let audio ← (item.lookup "input_audio").bind obj?
    return .inputAudio (← (audio.lookup "data").bind str?) (← (audio.lookup "format").bind str?)
  else if contentType = "file" then
    let file ← (item.lookup "file").bind obj?
    if ((file.lookup "file_id").bind str?).isSome then return .file ""
    let _ ← (file.lookup "filename").bind str?
    return .file (← (file.lookup "file_data").bind str?)
  else if contentType = "video_url" then
    return .videoUrl (← (item.lookup "video_url").bind str?)
  else none

/-- `dto.Message`; a content that is missing is null. -/
structure ChatMessage (ν : Type) where
  role : String
  content : Doc ν := .null
  toolCalls : Option (List ToolCallRequest) := none
  toolCallId : String := ""

def ChatMessage.parseContent (message : ChatMessage ν) : List Media :=
  match message.content with
  | .str content => [.text content]
  | .arr parts => parts.filterMap parsePart
  | _ => []

def ChatMessage.isStringContent (message : ChatMessage ν) : Bool := (str? message.content).isSome

/-- `StringContent`, of a text -/
def ChatMessage.stringContent (message : ChatMessage ν) : String := (str? message.content).getD ""

def ChatMessage.parseToolCalls (message : ChatMessage ν) : List ToolCallRequest :=
  message.toolCalls.getD []

/-- A tool that the model may call. -/
structure ToolRequest (ν : Type) where
  name : String
  description : String
  parameters : Doc ν

/-- `dto.GeneralOpenAIRequest`: the tools, `stop` and the messages -/
structure ChatRequest (ν : Type) where
  tools : List (ToolRequest ν) := []
  stop : Doc ν := .null
  messages : List (ChatMessage ν)

/-! ### Claude requests -/

/-- `dto.Tool` -/
structure ClaudeTool (ν : Type) where
  name : String
  description : String
  inputSchema : List (String × Doc ν)

/-- `dto.ClaudeMediaMessage`, of these types; the input of a call is an object. -/
inductive Block (ν Input : Type)
  | text (text : String)
  | source (type mediaType data : String)
  | toolUse (id name : String) (input : Input)
  | toolResult (toolUseId : String) (content : Doc ν)

/-- The content of a message. -/
inductive ClaudeContent (ν Input : Type)
  | str (content : String)
  | blocks (content : List (Block ν Input))

/-- `dto.ClaudeMessage` -/
structure ClaudeMessage (ν Input : Type) where
  role : String
  content : ClaudeContent ν Input

/-- `dto.ClaudeRequest`: what this conversion writes of it -/
structure ClaudeRequest (ν Input : Type) where
  tools : List (ClaudeTool ν)
  stopSequences : List String
  system : List String
  messages : List (ClaudeMessage ν Input)

/-- The blocks of a content; a text is one block. -/
def ClaudeContent.toBlocks : ClaudeContent ν Input → List (Block ν Input)
  | .str content => [.text content]
  | .blocks content => content

/-- What the conversion calls: `GetBase64Data`, for the data and the type of a file, and
`Unmarshal` for the arguments of a call. -/
structure Services (Input : Type) where
  getBase64Data : FileSource → String × String
  unmarshal : String → Option Input

/-! ### Tools and stop sequences -/

/-- The type in a schema; `none` if it is not a text. -/
def schemaType (params : List (String × Doc ν)) : Option (List (String × Doc ν)) :=
  match params.lookup "type" with
  | none => some []
  | some .null => some []
  | some (.str type) => some [("type", .str type)]
  | some _ => none

/-- `InputSchema`; `none` if it panics. -/
def inputSchema (params : List (String × Doc ν)) : Option (List (String × Doc ν)) := do
  let type ← schemaType params
  return type ++ [("properties", (params.lookup "properties").getD .null),
    ("required", (params.lookup "required").getD .null)] ++
      params.filter fun param => param.1 ∉ ["type", "properties", "required"]

/-- The stop sequences; `none` if it panics. -/
def stopSequences : Doc ν → Option (List String)
  | .str stop => some [stop]
  | .arr stops => stops.mapM str?
  | _ => some []

/-! ### The first pass -/

/-- Empty content becomes a placeholder. -/
def filled : Doc ν → Doc ν
  | .null => .str "..."
  | .str content => .str (if content = "" then "..." else content)
  | content => content

/-- `fmtMessage` with a content -/
def ChatMessage.format (message : ChatMessage ν) (content : Doc ν) : ChatMessage ν :=
  { role := message.role
    content := filled content
    toolCalls := if message.role = "assistant" then message.toolCalls else none
    toolCallId := if message.role = "tool" then message.toolCallId else "" }

/-- A message goes into the text of the last one. -/
def ChatMessage.joins (last message : ChatMessage ν) : Bool :=
  last.role = message.role && last.role ≠ "tool" && last.isStringContent &&
    message.isStringContent

def joinedContent (last message : ChatMessage ν) : Doc ν :=
  .str (GoText.trim '"' (last.stringContent ++ " " ++ message.stringContent))

/-- The variables of the first loop. -/
structure Formatting (ν : Type) where
  formatMessages : List (ChatMessage ν) := []
  lastMessage : ChatMessage ν := { role := "tool" }

def Formatting.add (s : Formatting ν) (message : ChatMessage ν) : Formatting ν :=
  if s.lastMessage.joins message then
    let fmtMessage := message.format (joinedContent s.lastMessage message)
    -- the last message has a role of its own, so it is in the list
    { formatMessages := s.formatMessages.dropLast ++ [fmtMessage], lastMessage := fmtMessage }
  else
    let fmtMessage := message.format message.content
    { formatMessages := s.formatMessages ++ [fmtMessage], lastMessage := fmtMessage }

/-! ### The second pass -/

/-- A text that is not empty, or a file. -/
def Services.mediaBlock (services : Services Input) (media : Media) : Option (Block ν Input) :=
  match media with
  | .text s => if s ≠ "" then some (.text s) else none
  | media => do
    let source ← media.toFileSource
    let (base64Data, mimeType) := services.getBase64Data source
    return .source (if GoText.startsWith mimeType "application/pdf" then "document" else "image")
      mimeType base64Data

/-- A call, if its arguments are an object. -/
def Services.toolUse (services : Services Input) (toolCall : ToolCallRequest) :
    Option (Block ν Input) := do
  let input ← services.unmarshal toolCall.arguments
  return .toolUse toolCall.id toolCall.name input

/-- The content of a message that is not a tool result. -/
def Services.claudeContent (services : Services Input) (message : ChatMessage ν) :
    ClaudeContent ν Input :=
  if message.isStringContent ∧ message.toolCalls = none then
    .str (if message.stringContent = "" then "..." else message.stringContent)
  else
    .blocks (message.parseContent.filterMap services.mediaBlock ++
      message.parseToolCalls.filterMap services.toolUse)

/-- A tool result goes to the end of the last message, if it is one of the user. -/
def addToolResult (claudeMessages : List (ClaudeMessage ν Input)) (message : ChatMessage ν) :
    List (ClaudeMessage ν Input) :=
  let result := .toolResult message.toolCallId message.content
  match claudeMessages.getLast? with
  | some last =>
    if last.role = "user" then
      claudeMessages.dropLast ++ [⟨last.role, .blocks (last.content.toBlocks ++ [result])⟩]
    else claudeMessages ++ [⟨"user", .blocks [result]⟩]
  | none => claudeMessages ++ [⟨"user", .blocks [result]⟩]

/-- The texts for the system: of a text this one, of parts those of their type. -/
def ChatMessage.systemTexts (message : ChatMessage ν) : List String :=
  (message.parseContent.filterMap Media.text?).filter (· ≠ "")

/-- The variables of the second loop. -/
structure Grouping (ν Input : Type) where
  claudeMessages : List (ClaudeMessage ν Input) := []
  isFirstMessage : Bool := true
  systemMessages : List String := []

/-- The message of the user that comes first, if another role would. -/
def Grouping.opening (s : Grouping ν Input) (message : ChatMessage ν) :
    List (ClaudeMessage ν Input) :=
  if s.isFirstMessage ∧ message.role ≠ "user" then [⟨"user", .blocks [.text "..."]⟩] else []

def Grouping.add (services : Services Input) (s : Grouping ν Input) (message : ChatMessage ν) :
    Grouping ν Input :=
  if message.role = "system" then
    { s with systemMessages := s.systemMessages ++ message.systemTexts }
  else
    let claudeMessages := s.claudeMessages ++ s.opening message
    { s with
      isFirstMessage := false
      claudeMessages :=
        if message.role = "tool" then addToolResult claudeMessages message
        else claudeMessages ++ [⟨message.role, services.claudeContent message⟩] }

/-- The messages after the first pass. -/
def formatMessages (messages : List (ChatMessage ν)) : List (ChatMessage ν) :=
  (messages.foldl Formatting.add {}).formatMessages

/-- What the second pass makes of them. -/
def Services.group (services : Services Input) (messages : List (ChatMessage ν)) :
    Grouping ν Input :=
  messages.foldl (Grouping.add services) {}

end NewApiPool.Convert.ToClaudeRequest
