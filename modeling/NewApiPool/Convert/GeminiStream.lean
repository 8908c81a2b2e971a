import NewApiPool.Convert.Accumulate

/-!
# An OpenAI stream for a Gemini client

`StreamResponseOpenAI2Gemini` makes a Gemini response of each chunk by itself. A piece of a tool
call becomes a function call with what it has of the name and the arguments; arguments that are no
JSON are put under `arguments`. A delta that has a list of tool calls, empty or not, loses its text.

So a client gets the texts and the calls that the chunks make together if and only if each call is
in one piece and no delta with tool calls has a text (`streamOpenAI2Gemini_iff`).
-/

namespace NewApiPool.Convert.GeminiStream

open Keyed

/-- `dto.ChatCompletionsStreamResponseChoiceDelta`, where no tool calls are not an empty list of
them -/
structure StreamDelta where
  content : Option String := none
  toolCalls : Option (List ToolCall) := none
deriving DecidableEq

/-- `dto.ChatCompletionsStreamResponseChoice` -/
structure StreamChoice where
  index : Int := 0
  delta : StreamDelta := {}
  finishReason : Option String := none
deriving DecidableEq

/-- `dto.ChatCompletionsStreamResponse` -/
structure StreamChunk where
  choices : List StreamChoice := []
  usage : Option Usage := none
deriving DecidableEq

/-- The arguments of a function call, of some type. -/
structure Arguments (α : Type) where
  /-- `json.Unmarshal` into a map -/
  unmarshal : String → Option α
  /-- the empty map -/
  empty : α
  /-- the map with a text under `arguments` -/
  wrap : String → α

/-- `dto.GeminiPart`: a text, or a function call with its arguments -/
inductive StreamPart (α : Type)
  | text (text : String)
  | functionCall (functionName : String) (arguments : α)
deriving DecidableEq

/-- `dto.GeminiChatCandidate` -/
structure StreamCandidate (α : Type) where
  index : Int
  finishReason : Option String
  parts : List (StreamPart α)
deriving DecidableEq

/-- `dto.GeminiUsageMetadata` -/
structure GeminiUsageMetadata where
  promptTokenCount : Int
  candidatesTokenCount : Int
  totalTokenCount : Int
deriving DecidableEq

/-- `dto.GeminiChatResponse` -/
structure StreamResponse (α : Type) where
  candidates : List (StreamCandidate α)
  usageMetadata : GeminiUsageMetadata
deriving DecidableEq

def StreamDelta.getContentString (delta : StreamDelta) : String := delta.content.getD ""

/-- The tool calls of a delta. -/
def StreamDelta.pieces (delta : StreamDelta) : List ToolCall := delta.toolCalls.getD []

/-- The finish reason of a candidate. -/
def convertFinishReason (finishReason : String) : String :=
  if finishReason = "length" then "MAX_TOKENS"
  else if finishReason = "content_filter" then "SAFETY"
  else "STOP"

variable {α : Type}

/-- The arguments of a tool call. -/
def Arguments.parse (env : Arguments α) (arguments : String) : α :=
  if arguments = "" then env.empty else (env.unmarshal arguments).getD (env.wrap arguments)

/-- The parts of a choice. -/
def StreamDelta.parts (env : Arguments α) (delta : StreamDelta) : List (StreamPart α) :=
  match delta.toolCalls with
  | some toolCalls =>
    toolCalls.map fun toolCall => .functionCall toolCall.name (env.parse toolCall.arguments)
  | none => if delta.getContentString ≠ "" then [.text delta.getContentString] else []

def StreamChoice.candidate (env : Arguments α) (choice : StreamChoice) : StreamCandidate α :=
  { index := choice.index
    finishReason := choice.finishReason.map convertFinishReason
    parts := choice.delta.parts env }

/-- **`StreamResponseOpenAI2Gemini`**; `none` where nothing is sent. -/
def streamResponseOpenAI2Gemini (env : Arguments α) (estimatePromptTokens : Int)
    (openAIResponse : StreamChunk) : Option (StreamResponse α) :=
  let hasContent := openAIResponse.choices.any fun choice =>
    choice.delta.getContentString ≠ "" || choice.delta.pieces ≠ []
  let hasFinishReason := openAIResponse.choices.any fun choice => choice.finishReason.isSome
  if hasContent = false ∧ hasFinishReason = false then none
  else some {
    candidates := openAIResponse.choices.map (StreamChoice.candidate env)
    usageMetadata := match openAIResponse.usage with
      | none => ⟨estimatePromptTokens, 0, estimatePromptTokens⟩
      | some usage => ⟨usage.promptTokens, usage.completionTokens, usage.totalTokens⟩ }

/-- The responses that `handleGeminiFormat` sends for chunks, one after the other. -/
def streamOpenAI2Gemini (env : Arguments α) (estimatePromptTokens : Int)
    (chunks : List StreamChunk) : List (StreamResponse α) :=
  chunks.filterMap (streamResponseOpenAI2Gemini env estimatePromptTokens)

/-! ### What a client reads -/

/-- The choices of an index, over the stream. -/
def choicesAt (index : Int) (chunks : List StreamChunk) : List StreamChoice :=
  (chunks.flatMap StreamChunk.choices).filter fun choice => choice.index = index

/-- The parts of the candidates of an index, over the stream. -/
def partsAt (index : Int) (responses : List (StreamResponse α)) : List (StreamPart α) :=
  ((responses.flatMap StreamResponse.candidates).filter fun candidate =>
    candidate.index = index).flatMap StreamCandidate.parts

def textOf (parts : List (StreamPart α)) : String :=
  String.join (parts.map fun part =>
    match part with
    | .text text => text
    | .functionCall .. => "")

/-- The function calls among parts. -/
def callsOf (parts : List (StreamPart α)) : List (String × α) :=
  parts.filterMap fun part =>
    match part with
    | .text _ => none
    | .functionCall functionName arguments => some (functionName, arguments)

/-- The pieces of tool calls of choices, with their places in the deltas. -/
def piecesOf (choices : List StreamChoice) : List (ToolCall × Nat) :=
  choices.flatMap fun choice => choice.delta.pieces.zipIdx

/-- **The tool calls that the pieces make together**, with the arguments parsed. -/
def wholeCalls (env : Arguments α) (choices : List StreamChoice) : List (String × α) :=
  (addCalls [] (piecesOf choices)).map fun call => (call.2.name, env.parse call.2.arguments)

/-- The index of the call that a piece belongs to. -/
def pieceIndex (piece : ToolCall × Nat) : Int := piece.1.index.getD piece.2

section Stream

variable {env : Arguments α} {choices : List StreamChoice} {chunk : StreamChunk}

theorem parts_of_none {estimatePromptTokens : Int}
    (h : streamResponseOpenAI2Gemini env estimatePromptTokens chunk = none) :
    ∀ choice ∈ chunk.choices, choice.delta.parts env = [] := by
  rintro choice hchoice
  rw [streamResponseOpenAI2Gemini] at h
  split_ifs at h with hempty
  have hchoice' := List.any_eq_false.1 hempty.1 choice hchoice
  simp only [ne_eq, decide_not, Bool.or_eq_true, Bool.not_eq_true', decide_eq_false_iff_not,
    not_or, not_not] at hchoice'
  rw [StreamDelta.parts]
  cases hcalls : choice.delta.toolCalls with
  | none => exact if_neg (not_not.2 hchoice'.1)
  | some toolCalls =>
    have hnil : toolCalls = [] := by
      have hpieces := hchoice'.2
      rwa [StreamDelta.pieces, hcalls] at hpieces
    rw [hnil]
    rfl

theorem candidates_of_some {estimatePromptTokens : Int} {response : StreamResponse α}
    (h : streamResponseOpenAI2Gemini env estimatePromptTokens chunk = some response) :
    response.candidates = chunk.choices.map (StreamChoice.candidate env) := by
  rw [streamResponseOpenAI2Gemini] at h
  split_ifs at h
  rw [← Option.some.inj h]

/-- **The parts of an index** are those of its choices. -/
theorem partsAt_stream (env : Arguments α) (estimatePromptTokens index : Int)
    (chunks : List StreamChunk) :
    partsAt index (streamOpenAI2Gemini env estimatePromptTokens chunks) =
      (choicesAt index chunks).flatMap fun choice => choice.delta.parts env := by
  induction chunks with
  | nil => rfl
  | cons chunk chunks ih =>
    rw [streamOpenAI2Gemini, List.filterMap_cons]
    rw [choicesAt, List.flatMap_cons, List.filter_append, List.flatMap_append, ← choicesAt, ← ih]
    cases h : streamResponseOpenAI2Gemini env estimatePromptTokens chunk with
    | none =>
      have hnone : (chunk.choices.filter fun choice => choice.index = index).flatMap
          (fun choice => choice.delta.parts env) = [] :=
        List.flatMap_eq_nil_iff.2 fun choice hchoice =>
          parts_of_none h choice (List.mem_of_mem_filter hchoice)
      rw [hnone]
      rfl
    | some response =>
      have hparts : (response.candidates.filter fun candidate => candidate.index = index).flatMap
          StreamCandidate.parts = (chunk.choices.filter fun choice => choice.index = index).flatMap
            fun choice => choice.delta.parts env := by
        rw [candidates_of_some h, List.filter_map, List.flatMap_map]
        rfl
      simp only [partsAt, List.flatMap_cons, List.filter_append, List.flatMap_append, hparts]
      rfl

theorem textOf_append (parts parts' : List (StreamPart α)) :
    textOf (parts ++ parts') = textOf parts ++ textOf parts' := by
  simp [textOf]

theorem textOf_parts (env : Arguments α) (delta : StreamDelta) :
    textOf (delta.parts env) = if delta.toolCalls = none then delta.getContentString else "" := by
  rw [StreamDelta.parts]
  cases delta.toolCalls with
  | none =>
    rw [if_pos rfl]
    simp only
    split_ifs with hcontent
    · simp [textOf]
    · exact (not_not.1 hcontent).symm
  | some toolCalls =>
    rw [if_neg (Option.some_ne_none _), textOf, GoText.join_eq_empty_iff, List.forall_mem_map]
    exact List.forall_mem_map.2 fun toolCall _ => rfl

/-- **The text that is sent** is all if no delta with tool calls has a text. -/
theorem textOf_parts_iff (env : Arguments α) (choices : List StreamChoice) :
    textOf (choices.flatMap fun choice => choice.delta.parts env) =
        String.join (choices.map fun choice => choice.delta.getContentString) ↔
      ∀ choice ∈ choices, choice.delta.toolCalls ≠ none → choice.delta.getContentString = "" := by
  have htexts : textOf (choices.flatMap fun choice => choice.delta.parts env) =
      String.join (choices.map fun choice => textOf (choice.delta.parts env)) := by
    induction choices with
    | nil => rfl
    | cons choice choices ih =>
      rw [List.flatMap_cons, textOf_append, ih, List.map_cons, String.join_cons]
  rw [htexts, GoText.join_map_eq_iff]
  · refine forall₂_congr fun choice _ => ?_
    rw [textOf_parts]
    split_ifs with hcalls
    · exact iff_of_true rfl fun h => absurd hcalls h
    · exact ⟨fun h _ => h.symm, fun h => (h hcalls).symm⟩
  · rintro choice -
    rw [textOf_parts]
    split_ifs
    · exact Nat.le_refl _
    · exact Nat.zero_le _

/-- The function calls that are sent: one for each piece. -/
theorem callsOf_parts (env : Arguments α) (choices : List StreamChoice) :
    callsOf (choices.flatMap fun choice => choice.delta.parts env) =
      (piecesOf choices).map fun piece => (piece.1.name, env.parse piece.1.arguments) := by
  have hparts (delta : StreamDelta) : callsOf (delta.parts env) =
      delta.pieces.zipIdx.map fun piece => (piece.1.name, env.parse piece.1.arguments) := by
    rw [StreamDelta.parts, StreamDelta.pieces]
    cases delta.toolCalls with
    | none =>
      simp only
      split_ifs <;> rfl
    | some toolCalls =>
      have hfst := congrArg (List.map fun toolCall : ToolCall =>
        (toolCall.name, env.parse toolCall.arguments)) (List.zipIdx_map_fst 0 toolCalls)
      rw [List.map_map] at hfst
      rw [callsOf, List.filterMap_map, Option.getD_some]
      exact List.filterMap_eq_map.symm ▸ hfst.symm
  induction choices with
  | nil => rfl
  | cons choice choices ih =>
    rw [List.flatMap_cons, callsOf, List.filterMap_append, ← callsOf, ← callsOf, hparts, ih,
      ← List.map_append]
    rfl

theorem addCalls_eq (pieces : List (ToolCall × Nat)) :
    addCalls [] pieces = pieces.foldl (fun calls piece =>
      alter (pieceIndex piece) {} (fun acc => acc.add piece.1) calls) [] := rfl

theorem addCalls_of_nodup {pieces : List (ToolCall × Nat)} (h : (pieces.map pieceIndex).Nodup) :
    addCalls [] pieces = pieces.map fun piece => (pieceIndex piece, piece.1.whole) := by
  have h' : (([] : List (Int × CallAcc)).map Prod.fst ++ pieces.map pieceIndex).Nodup := h
  rw [addCalls_eq, foldl_alter_of_nodup h', List.nil_append]
  simp only [CallAcc.add_empty]

/-- **The calls that are sent** are those of the pieces together if each call is in one piece. -/
theorem callsOf_parts_iff (env : Arguments α) (choices : List StreamChoice) :
    callsOf (choices.flatMap fun choice => choice.delta.parts env) = wholeCalls env choices ↔
      ((piecesOf choices).map pieceIndex).Nodup := by
  rw [callsOf_parts, wholeCalls]
  refine ⟨fun h => ?_, fun h => ?_⟩
  · have hlength := congrArg List.length h
    rw [List.length_map, List.length_map] at hlength
    rw [addCalls_eq] at hlength
    have hnil : (([] : List (Int × CallAcc)).map Prod.fst).Nodup := List.nodup_nil
    exact nodup_of_length_foldl_alter hnil (hlength.symm.trans (Nat.zero_add _).symm)
  · rw [addCalls_of_nodup h, List.map_map]
    refine List.map_congr_left fun piece _ => ?_
    simp [ToolCall.whole]

/-- **A Gemini client gets the texts and the calls** that the chunks make together if and only if
each call is in one piece and no delta with tool calls has a text. -/
theorem streamOpenAI2Gemini_iff (env : Arguments α) (estimatePromptTokens index : Int)
    (chunks : List StreamChunk) :
    callsOf (partsAt index (streamOpenAI2Gemini env estimatePromptTokens chunks)) =
          wholeCalls env (choicesAt index chunks) ∧
        textOf (partsAt index (streamOpenAI2Gemini env estimatePromptTokens chunks)) =
          String.join ((choicesAt index chunks).map fun choice =>
            choice.delta.getContentString) ↔
      ((piecesOf (choicesAt index chunks)).map pieceIndex).Nodup ∧
        ∀ choice ∈ choicesAt index chunks,
          choice.delta.toolCalls ≠ none → choice.delta.getContentString = "" := by
  rw [partsAt_stream]
  exact and_congr (callsOf_parts_iff env _) (textOf_parts_iff env _)

/-- Arguments as texts, of which the empty object is read. -/
def emptyObjects : Arguments String where
  unmarshal s := if s = "\x7b\x7d" then some s else none
  empty := "\x7b\x7d"
  wrap s := "arguments: " ++ s

def StreamChunk.ofPiece (piece : ToolCall) : StreamChunk :=
  { choices := [{ delta := { toolCalls := some [piece] } }] }

/-- A call in two pieces. -/
def halves : List StreamChunk :=
  [.ofPiece { index := some 0, id := "a", name := "f", arguments := "\x7b" },
    .ofPiece { index := some 0, arguments := "\x7d" }]

/-- The halves are sent as two calls. -/
theorem streamOpenAI2Gemini_halves :
    callsOf (partsAt 0 (streamOpenAI2Gemini emptyObjects 0 halves)) =
        [("f", "arguments: \x7b"), ("", "arguments: \x7d")] ∧
      wholeCalls emptyObjects (choicesAt 0 halves) = [("f", "\x7b\x7d")] ∧
      callsOf (partsAt 0 (streamOpenAI2Gemini emptyObjects 0 halves)) ≠
        wholeCalls emptyObjects (choicesAt 0 halves) := by
  decide

end Stream

end NewApiPool.Convert.GeminiStream
