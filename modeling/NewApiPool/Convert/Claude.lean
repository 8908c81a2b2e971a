import NewApiPool.Convert.Accumulate

/-!
# A Claude stream for a chat client

`StreamResponseClaude2OpenAI` makes a chunk of every event of a Claude stream, without a
state: the index of a tool call is that of its block less one, and 0 for the first two
blocks. `ResponseClaude2OpenAI` makes a chat completion of a whole message and keeps the
last of its texts.

A stream tells the blocks of a message one after the other (`Encodes`). The chunks and the
chat completion agree if the first two blocks are not both tool calls, and no text comes
before the last one (`claudeAgrees_iff`).

The values of `Input` are a type `J`, with `json.Marshal` and `json.Unmarshal` between them
and texts.
-/

namespace NewApiPool

namespace Convert

open Keyed

/-! ### Data -/

section Data

variable (J : Type) [Inhabited J]

/-- `dto.ClaudeMediaMessage`; the default of `J` is `nil`. -/
structure ClaudeMediaMessage where
  type : String := ""
  text : Option String := none
  model : String := ""
  stopReason : Option String := none
  partialJson : Option String := none
  thinking : Option String := none
  id : String := ""
  name : String := ""
  input : J := default

/-- `dto.ClaudeResponse`, a whole message or an event. -/
structure ClaudeResponse where
  id : String := ""
  type : String := ""
  content : List (ClaudeMediaMessage J) := []
  stopReason : String := ""
  model : String := ""
  index : Option Int := none
  contentBlock : Option (ClaudeMediaMessage J) := none
  delta : Option (ClaudeMediaMessage J) := none
  message : Option (ClaudeMediaMessage J) := none

end Data

variable {J : Type} [Inhabited J]

def ClaudeMediaMessage.getText (m : ClaudeMediaMessage J) : String := m.text.getD ""

def claudeStopReasonToOpenAIFinishReason (stopReason : String) : String :=
  let lower := GoText.toLower stopReason
  if lower = "stop_sequence" then "stop"
  else if lower = "end_turn" then "stop"
  else if lower = "max_tokens" then "length"
  else if lower = "tool_use" then "tool_calls"
  else if lower = "refusal" then "content_filter"
  else stopReason

/-! ### The functions -/

/-- The only way an event can make the converter panic. -/
inductive Panic where
  | nilPointer
deriving DecidableEq, Repr

/-- The index that a tool call gets. -/
def fcIdx (index : Option Int) : Int :=
  match index with
  | some i => if i - 1 < 0 then 0 else i - 1
  | none => 0

/-- The chunk for a choice; tool calls take the place of the content. -/
def claudeChunk (id model : String) (choice : Choice) (tools : List ToolCall) : Chunk :=
  { id, model
    choices :=
      [if tools ≠ [] then
        { choice with delta := { choice.delta with content := none, toolCalls := tools } }
      else choice] }

/-- `StreamResponseClaude2OpenAI`; no chunk is `nil`. -/
def streamResponseClaude2OpenAI (r : ClaudeResponse J) : Except Panic (Option Chunk) :=
  if r.type = "message_start" then
    let choice : Choice := { delta := { content := some "" } }
    match r.message with
    | some m => .ok (some (claudeChunk m.id m.model choice []))
    | none => .ok (some (claudeChunk "" r.model choice []))
  else if r.type = "content_block_start" then
    match r.contentBlock with
    | some b =>
      let content := if b.type = "text" then b.text else none
      let tools : List ToolCall :=
        if b.type = "tool_use" then
          [{ index := some (fcIdx r.index), id := b.id, name := b.name, arguments := "" }]
        else []
      .ok (some (claudeChunk "" r.model { delta := { content } } tools))
    | none => .ok none
  else if r.type = "content_block_delta" then
    match r.delta with
    | some d =>
      if d.type = "input_json_delta" then
        match d.partialJson with
        | some arguments =>
          .ok (some (claudeChunk "" r.model { delta := { content := d.text } }
            [{ index := some (fcIdx r.index), arguments }]))
        | none => .error .nilPointer
      else
        let reasoningContent :=
          if d.type = "signature_delta" then some "\n"
          else if d.type = "thinking_delta" then d.thinking
          else none
        .ok (some (claudeChunk "" r.model
          { delta := { content := d.text, reasoningContent } } []))
    | none => .ok (some (claudeChunk "" r.model {} []))
  else if r.type = "message_delta" then
    let finishReason :=
      match r.delta.bind (·.stopReason) with
      | some reason =>
        if claudeStopReasonToOpenAIFinishReason reason ≠ "null" then
          some (claudeStopReasonToOpenAIFinishReason reason)
        else none
      | none => none
    .ok (some (claudeChunk "" r.model { finishReason } []))
  else .ok none

/-- The chunks of a stream. -/
def claudeChunks : List (ClaudeResponse J) → Except Panic (List Chunk)
  | [] => .ok []
  | event :: events => do
    let chunk ← streamResponseClaude2OpenAI event
    let chunks ← claudeChunks events
    return chunk.toList ++ chunks

/-- The state of the loop over the blocks: the text and the thinking that came last, and the
tool calls. -/
def addBlock (marshal : J → String) (acc : String × String × List ToolCall)
    (message : ClaudeMediaMessage J) : String × String × List ToolCall :=
  let (text, thinking, tools) := acc
  if message.type = "tool_use" then
    (text, thinking,
      tools ++ [{ id := message.id, name := message.name, arguments := marshal message.input }])
  else if message.type = "thinking" then (text, message.thinking.getD thinking, tools)
  else if message.type = "text" then (message.getText, thinking, tools)
  else acc

/-- `ResponseClaude2OpenAI`. The thinking of the first block is written to the same field
as the last one, and before it. -/
def responseClaude2OpenAI (marshal : J → String) (r : ClaudeResponse J) : Completion :=
  let responseText := (r.content.head?.map (·.getText)).getD ""
  let (text, thinking, tools) := r.content.foldl (addBlock marshal) (responseText, "", [])
  { content := text
    reasoningContent := thinking
    toolCalls := tools
    finishReason := claudeStopReasonToOpenAIFinishReason r.stopReason }

/-! ### Messages and their streams -/

/-- A block of a message. -/
inductive ClaudeBlock (J : Type) where
  | text (text : String)
  | thinking (thinking : String)
  | toolUse (id name : String) (input : J)
deriving DecidableEq, Repr

/-- A block, as a message has it. -/
def ClaudeBlock.media : ClaudeBlock J → ClaudeMediaMessage J
  | .text t => { type := "text", text := some t }
  | .thinking t => { type := "thinking", thinking := some t }
  | .toolUse id name input => { type := "tool_use", id, name, input }

def ClaudeBlock.isToolUse : ClaudeBlock J → Bool
  | .toolUse .. => true
  | _ => false

/-- The text of a block, if it is one. -/
def ClaudeBlock.text? : ClaudeBlock J → Option String
  | .text t => some t
  | _ => none

def claudeMessage (id model : String) (blocks : List (ClaudeBlock J)) (stopReason : String) :
    ClaudeResponse J :=
  { id, type := "message", model, content := blocks.map ClaudeBlock.media, stopReason }

/-- `content_block_start` -/
def blockStart (index : Nat) (block : ClaudeMediaMessage J) : ClaudeResponse J :=
  { type := "content_block_start", index := some index, contentBlock := some block }

/-- `content_block_delta` -/
def blockDelta (index : Nat) (delta : ClaudeMediaMessage J) : ClaudeResponse J :=
  { type := "content_block_delta", index := some index, delta := some delta }

/-- `message_start` -/
def claudeMessageStart (message : Option (ClaudeMediaMessage J)) : ClaudeResponse J :=
  { type := "message_start", message }

/-- `message_delta`, with the stop reason -/
def claudeMessageDelta (stopReason : String) : ClaudeResponse J :=
  { type := "message_delta", delta := some { stopReason := some stopReason } }

/-- What a thinking block goes on with. -/
inductive ThinkingDelta where
  | thinking (thinking : String)
  | signature

def ThinkingDelta.media : ThinkingDelta → ClaudeMediaMessage J
  | .thinking t => { type := "thinking_delta", thinking := some t }
  | .signature => { type := "signature_delta" }

/-- What a client reads of it. -/
def ThinkingDelta.text : ThinkingDelta → String
  | .thinking t => t
  | .signature => "\n"

/-- **The events of a block**, and the tool call they tell: the id, the name and the
concatenated arguments, which have to be a text of the input. The start may have a text
already. -/
inductive BlockEvents (unmarshal : String → Option J) (index : Nat) :
    ClaudeBlock J → Option CallAcc → List (ClaudeResponse J) → Prop
  | text (start : Option String) (deltas : List String) :
      BlockEvents unmarshal index (.text (start.getD "" ++ String.join deltas)) none
        (blockStart index { type := "text", text := start } ::
          deltas.map fun delta => blockDelta index { type := "text_delta", text := some delta })
  | thinking (thinking : String) (start : Option String) (deltas : List ThinkingDelta) :
      BlockEvents unmarshal index (.thinking thinking) none
        (blockStart index { type := "thinking", thinking := start } ::
          deltas.map fun delta => blockDelta index delta.media)
  | toolUse (id name : String) (shell input : J) (pieces : List String)
      (hinput : unmarshal (String.join pieces) = some input) :
      BlockEvents unmarshal index (.toolUse id name input) (some ⟨id, name, String.join pieces⟩)
        (blockStart index { type := "tool_use", id, name, input := shell } ::
          pieces.map fun piece =>
            blockDelta index { type := "input_json_delta", partialJson := some piece })

/-- The events of the blocks from `index` on, one block after the other. -/
inductive BlocksEvents (unmarshal : String → Option J) :
    Nat → List (ClaudeBlock J) → List CallAcc → List (ClaudeResponse J) → Prop
  | nil {index : Nat} : BlocksEvents unmarshal index [] [] []
  | cons {index : Nat} {block : ClaudeBlock J} {blocks : List (ClaudeBlock J)}
      {call : Option CallAcc} {calls : List CallAcc} {events later : List (ClaudeResponse J)}
      (hblock : BlockEvents unmarshal index block call events)
      (hlater : BlocksEvents unmarshal (index + 1) blocks calls later) :
      BlocksEvents unmarshal index (block :: blocks) (call.toList ++ calls) (events ++ later)

/-- An event that tells nothing of the message: `ping`, `content_block_stop`, `message_stop`
and what else is not known, and a `message_delta` without a stop reason. -/
def ClaudeResponse.isQuiet (r : ClaudeResponse J) : Bool :=
  r.type ≠ "message_start" && r.type ≠ "content_block_start" &&
    r.type ≠ "content_block_delta" &&
    (r.type ≠ "message_delta" || (r.delta.bind (·.stopReason)).isNone)

/-- **A stream of a message**, with quiet events anywhere; the message has a stop reason. -/
def ClaudeEncodes (unmarshal : String → Option J) (events : List (ClaudeResponse J))
    (blocks : List (ClaudeBlock J)) (calls : List CallAcc) (stopReason : String) : Prop :=
  stopReason ≠ "" ∧ stopReason ≠ "null" ∧
  ∃ (start : Option (ClaudeMediaMessage J)) (body : List (ClaudeResponse J)),
    BlocksEvents unmarshal 0 blocks calls body ∧
    events.filter (fun r => !r.isQuiet) =
      claudeMessageStart start :: body ++ [claudeMessageDelta stopReason]

/-! ### What a client makes of the events -/

/-- A client that has `acc` has `acc'` after the chunks of `events`. -/
def Reads (acc : Accumulated) (events : List (ClaudeResponse J)) (acc' : Accumulated) : Prop :=
  ∃ chunks, claudeChunks events = .ok chunks ∧ chunks.foldl Accumulated.add acc = acc'

variable {acc acc' : Accumulated}

theorem reads_nil_iff :
    Reads acc ([] : List (ClaudeResponse J)) acc' ↔ acc = acc' := by
  constructor
  · rintro ⟨chunks, hok, hfold⟩
    cases hok
    exact hfold
  · rintro rfl
    exact ⟨[], rfl, rfl⟩

variable {events : List (ClaudeResponse J)}

theorem reads_cons_iff {event : ClaudeResponse J} :
    Reads acc (event :: events) acc' ↔
      ∃ chunk, streamResponseClaude2OpenAI event = .ok chunk ∧
        Reads (chunk.toList.foldl Accumulated.add acc) events acc' := by
  constructor
  · rintro ⟨chunks, hok, hfold⟩
    rw [claudeChunks] at hok
    rcases hchunk : streamResponseClaude2OpenAI event with e | chunk
    · rw [hchunk] at hok
      cases hok
    · rcases hchunks : claudeChunks events with e | later
      · rw [hchunk, hchunks] at hok
        cases hok
      · rw [hchunk, hchunks] at hok
        cases hok
        rw [List.foldl_append] at hfold
        exact ⟨chunk, rfl, later, hchunks, hfold⟩
  · rintro ⟨chunk, hchunk, later, hchunks, hfold⟩
    refine ⟨chunk.toList ++ later, ?_, by rw [List.foldl_append, hfold]⟩
    rw [claudeChunks, hchunk, hchunks]
    rfl

theorem Reads.unique {acc'' : Accumulated}
    (h' : Reads acc events acc') (h'' : Reads acc events acc'') : acc' = acc'' := by
  obtain ⟨chunks, hok, rfl⟩ := h'
  obtain ⟨_, hok', rfl⟩ := h''
  rw [hok] at hok'
  cases hok'
  rfl

theorem Reads.cons {mid : Accumulated} {event : ClaudeResponse J} {chunk : Chunk}
    (hchunk : streamResponseClaude2OpenAI event = .ok (some chunk)) (hadd : acc.add chunk = mid)
    (h : Reads mid events acc') : Reads acc (event :: events) acc' := by
  refine reads_cons_iff.mpr ⟨some chunk, hchunk, ?_⟩
  rw [Option.toList_some, List.foldl_cons, List.foldl_nil, hadd]
  exact h

theorem Reads.append {mid : Accumulated} {later : List (ClaudeResponse J)}
    (h : Reads acc events mid) (h' : Reads mid later acc') : Reads acc (events ++ later) acc' := by
  induction events generalizing acc with
  | nil => exact reads_nil_iff.mp h ▸ h'
  | cons event events ih =>
    obtain ⟨chunk, hchunk, htail⟩ := reads_cons_iff.mp h
    exact reads_cons_iff.mpr ⟨chunk, hchunk, ih htail⟩

theorem choices_claudeChunk (id model : String) (choice : Choice) :
    (claudeChunk id model choice []).choices = [choice] := rfl

theorem choices_claudeChunk_tool (id model : String) (content : Option String) (tool : ToolCall) :
    (claudeChunk id model { delta := { content } } [tool]).choices =
      [{ delta := { toolCalls := [tool] } }] := rfl

/-- A quiet event has no chunk, or one that tells nothing. -/
theorem streamResponse_of_quiet {r : ClaudeResponse J} (h : r.isQuiet) (acc : Accumulated) :
    ∃ chunk, streamResponseClaude2OpenAI r = .ok chunk ∧
      chunk.toList.foldl Accumulated.add acc = acc := by
  simp only [ClaudeResponse.isQuiet, ne_eq, Bool.and_eq_true, Bool.or_eq_true,
    decide_eq_true_eq, Option.isNone_iff_eq_none] at h
  obtain ⟨⟨⟨hstart, hblock⟩, hdelta⟩, hstop⟩ := h
  rw [streamResponseClaude2OpenAI, if_neg hstart, if_neg hblock, if_neg hdelta]
  by_cases hmessage : r.type = "message_delta"
  · rw [if_pos hmessage, hstop.resolve_left (not_not_intro hmessage)]
    exact ⟨_, rfl, acc.add_empty (choices_claudeChunk "" r.model {})⟩
  · rw [if_neg hmessage]
    exact ⟨none, rfl, rfl⟩

theorem Reads.of_filter
    (h : Reads acc (events.filter fun r => !r.isQuiet) acc') : Reads acc events acc' := by
  induction events generalizing acc with
  | nil => exact h
  | cons event events ih =>
    rcases hquiet : event.isQuiet
    · rw [List.filter_cons_of_pos (by rw [hquiet]; rfl)] at h
      obtain ⟨chunk, hchunk, htail⟩ := reads_cons_iff.mp h
      exact reads_cons_iff.mpr ⟨chunk, hchunk, ih htail⟩
    · rw [List.filter_cons_of_neg (by rw [hquiet]; decide)] at h
      obtain ⟨chunk, hchunk, hfold⟩ := streamResponse_of_quiet hquiet acc
      exact reads_cons_iff.mpr ⟨chunk, hchunk, hfold.symm ▸ ih h⟩

/-! ### What a client makes of a block -/

/-- Deltas that each change what a client has by `effect`. -/
theorem reads_map {β : Type} (g : β → ClaudeResponse J) (effect : Accumulated → β → Accumulated)
    (h : ∀ b acc, ∃ chunk, streamResponseClaude2OpenAI (g b) = .ok (some chunk) ∧
      acc.add chunk = effect acc b) (bs : List β) (acc : Accumulated) :
    Reads acc (bs.map g) (bs.foldl effect acc) := by
  induction bs generalizing acc with
  | nil => exact reads_nil_iff.mpr rfl
  | cons b bs ih =>
    obtain ⟨chunk, hchunk, hadd⟩ := h b acc
    exact .cons hchunk hadd (ih _)

theorem foldl_text (deltas : List String) (acc : Accumulated) :
    deltas.foldl (fun (acc : Accumulated) delta => { acc with text := acc.text ++ delta }) acc =
      { acc with text := acc.text ++ String.join deltas } := by
  induction deltas generalizing acc with
  | nil => simp
  | cons delta deltas ih => simp [ih, String.append_assoc]

theorem foldl_reasoning (deltas : List ThinkingDelta) (acc : Accumulated) :
    deltas.foldl (fun (acc : Accumulated) delta =>
        { acc with reasoning := acc.reasoning ++ delta.text }) acc =
      { acc with reasoning := acc.reasoning ++ String.join (deltas.map ThinkingDelta.text) } := by
  induction deltas generalizing acc with
  | nil => simp
  | cons delta deltas ih => simp [ih, String.append_assoc]

theorem CallAcc.add_arguments (acc : CallAcc) (first : ToolCall) (index : Option Int)
    (second : String) :
    (acc.add first).add { index, arguments := second } =
      acc.add { first with arguments := first.arguments ++ second } := by
  have hkeep (s : String) : (if s = "" then "" else s) = s := by
    split
    · next h => exact h.symm
    · rfl
  change CallAcc.mk (if (acc.add first).id = "" then "" else (acc.add first).id)
    (if (acc.add first).name = "" then "" else (acc.add first).name)
    ((acc.add first).arguments ++ second) = _
  rw [hkeep, hkeep, CallAcc.add, CallAcc.add, String.append_assoc]

theorem foldl_alter (key : Int) (index : Option Int) (pieces : List String) (acc : Accumulated)
    (first : ToolCall) (calls : List (Int × CallAcc))
    (hcalls : acc.calls = alter key {} (·.add first) calls) :
    pieces.foldl (fun (acc : Accumulated) piece =>
        { acc with calls := (alter key {} (·.add { index, arguments := piece }) acc.calls) }) acc =
      { acc with
        calls := (alter key {}
          (·.add { first with arguments := first.arguments ++ String.join pieces }) calls) } := by
  induction pieces generalizing acc first with
  | nil => simp [← hcalls]
  | cons piece pieces ih =>
    rw [List.foldl_cons, ih _ { first with arguments := first.arguments ++ piece } ?_]
    · simp [String.append_assoc]
    · simp only [hcalls, alter_alter, CallAcc.add_arguments]

/-- Where the call of a block goes. -/
def placeCall (index : Nat) (calls : List (Int × CallAcc)) (call : Option CallAcc) :
    List (Int × CallAcc) :=
  match call with
  | some c =>
    alter (fcIdx (some index)) {}
      (·.add ⟨some (fcIdx (some index)), c.id, c.name, c.arguments⟩) calls
  | none => calls

variable {index : Nat}

/-- **What a block adds**: its text, and its tool call. -/
theorem BlockEvents.reads {unmarshal : String → Option J} {block : ClaudeBlock J}
    {call : Option CallAcc}
    (h : BlockEvents unmarshal index block call events) (acc : Accumulated) :
    ∃ reasoning, Reads acc events
      ⟨acc.text ++ block.text?.getD "", reasoning, placeCall index acc.calls call,
        acc.finishReasons⟩ := by
  cases h with
  | text start deltas =>
    have hstart : acc.add (claudeChunk "" "" { delta := { content := start } } []) =
        { acc with text := acc.text ++ start.getD "" } := by
      rcases start with _ | start
      · rw [acc.add_empty (choices_claudeChunk ..)]
        simp
      · exact acc.add_content (choices_claudeChunk ..)
    have htext := reads_map
      (fun delta => (blockDelta index { type := "text_delta", text := some delta } :
        ClaudeResponse J))
      (fun acc delta => { acc with text := acc.text ++ delta })
      (fun delta acc => ⟨_, rfl, acc.add_content (choices_claudeChunk "" "" _)⟩) deltas
      { acc with text := acc.text ++ start.getD "" }
    rw [foldl_text, String.append_assoc] at htext
    exact ⟨acc.reasoning, .cons rfl hstart htext⟩
  | thinking thinking start deltas =>
    have hstart : acc.add (claudeChunk "" "" {} []) = acc :=
      acc.add_empty (choices_claudeChunk "" "" _)
    have hthinking := reads_map
      (fun delta : ThinkingDelta => (blockDelta index delta.media : ClaudeResponse J))
      (fun acc delta => { acc with reasoning := acc.reasoning ++ delta.text })
      (fun delta acc => by
        cases delta with
        | thinking t => exact ⟨_, rfl, acc.add_reasoning (choices_claudeChunk "" "" _)⟩
        | signature => exact ⟨_, rfl, acc.add_reasoning (choices_claudeChunk "" "" _)⟩) deltas acc
    rw [foldl_reasoning] at hthinking
    refine ⟨acc.reasoning ++ String.join (deltas.map ThinkingDelta.text), .cons rfl hstart ?_⟩
    simpa [ClaudeBlock.text?, placeCall] using hthinking
  | toolUse id name shell input pieces hinput =>
    have hstart : acc.add (claudeChunk "" "" {}
        [{ index := some (fcIdx (some index)), id, name, arguments := "" }]) =
        { acc with calls := (alter (fcIdx (some index)) {}
          (·.add ⟨some (fcIdx (some index)), id, name, ""⟩) acc.calls) } :=
      acc.add_piece rfl (choices_claudeChunk_tool "" "" none _)
    have hpieces := reads_map
      (fun piece => (blockDelta index { type := "input_json_delta", partialJson := some piece } :
        ClaudeResponse J))
      (fun acc piece =>
        { acc with calls := (alter (fcIdx (some index)) {}
          (·.add { index := some (fcIdx (some index)), arguments := piece }) acc.calls) })
      (fun piece acc =>
        ⟨_, rfl, acc.add_piece rfl (choices_claudeChunk_tool "" "" none _)⟩)
      pieces
      { acc with calls := (alter (fcIdx (some index)) {}
        (·.add ⟨some (fcIdx (some index)), id, name, ""⟩) acc.calls) }
    rw [foldl_alter _ _ _ _ _ _ rfl] at hpieces
    refine ⟨acc.reasoning, .cons rfl hstart ?_⟩
    simpa [ClaudeBlock.text?, placeCall] using hpieces

theorem fcIdx_some (index : Nat) : fcIdx (some index) = ((index - 1 : Nat) : Int) := by
  simp only [fcIdx]
  split <;> omega

/-- The tool call of a block with an index of its own. -/
theorem placeCall_of_lt {calls : List (Int × CallAcc)} (hindex : 1 ≤ index)
    (hkeys : ∀ e ∈ calls, e.1 < (index : Int) - 1) (call : Option CallAcc) :
    (placeCall index calls call).map Prod.snd = calls.map Prod.snd ++ call.toList ∧
      ∀ e ∈ placeCall index calls call, e.1 < ((index + 1 : Nat) : Int) - 1 := by
  rcases call with _ | c
  · refine ⟨(List.append_nil _).symm, fun e he => ?_⟩
    have := hkeys e he
    omega
  · have hkey : fcIdx (some index) = (index : Int) - 1 := by rw [fcIdx_some]; omega
    have hnew : fcIdx (some index) ∉ calls.map Prod.fst := by
      intro hmem
      obtain ⟨e, he, heq⟩ := List.mem_map.mp hmem
      have := hkeys e he
      omega
    rw [placeCall, alter_of_not_mem hnew, List.map_append, CallAcc.add_empty]
    refine ⟨rfl, fun e he => ?_⟩
    rcases List.mem_append.mp he with he | he
    · have := hkeys e he
      omega
    · rw [List.mem_singleton.mp he]
      push_cast
      omega

variable {blocks : List (ClaudeBlock J)} {calls : List CallAcc}

/-- **What blocks add**: their texts, and their tool calls where each has an index of its
own. -/
theorem BlocksEvents.reads {unmarshal : String → Option J}
    (h : BlocksEvents unmarshal index blocks calls events) (acc : Accumulated) :
    ∃ acc', Reads acc events acc' ∧
      acc'.text = acc.text ++ String.join (blocks.filterMap ClaudeBlock.text?) ∧
      acc'.finishReasons = acc.finishReasons ∧
      (1 ≤ index → (∀ e ∈ acc.calls, e.1 < (index : Int) - 1) →
        acc'.toolCalls = acc.toolCalls ++ calls) := by
  induction h generalizing acc with
  | nil => exact ⟨acc, reads_nil_iff.mpr rfl, by simp, rfl, fun _ _ => (List.append_nil _).symm⟩
  | @cons index block blocks call calls events later hblock _ ih =>
    obtain ⟨reasoning, hfirst⟩ := hblock.reads acc
    obtain ⟨acc', hlater, htext, hfinish, hcalls⟩ := ih
      ⟨acc.text ++ block.text?.getD "", reasoning, placeCall index acc.calls call,
        acc.finishReasons⟩
    refine ⟨acc', hfirst.append hlater, ?_, hfinish, fun hindex hkeys => ?_⟩
    · rw [htext, String.append_assoc]
      rcases htext? : block.text? with _ | t
      · simp [htext?]
      · simp [htext?]
    · obtain ⟨hplace, hkeys'⟩ := placeCall_of_lt hindex hkeys call
      rw [hcalls (Nat.le_succ_of_le hindex) hkeys', ← List.append_assoc]
      exact congrArg (· ++ calls) hplace

/-- The first two blocks are tool calls. -/
def twoToolsFirst : List (ClaudeBlock J) → Bool
  | first :: second :: _ => first.isToolUse && second.isToolUse
  | _ => false

theorem BlockEvents.isSome_call {unmarshal : String → Option J}
    {block : ClaudeBlock J} {call : Option CallAcc}
    (h : BlockEvents unmarshal index block call events) : call.isSome = block.isToolUse := by
  cases h <;> rfl

/-- **The blocks of a message**: the first two of them have the same index. -/
theorem BlocksEvents.reads_zero {unmarshal : String → Option J}
    (h : BlocksEvents unmarshal 0 blocks calls events) :
    ∃ acc, Reads {} events acc ∧ acc.text = String.join (blocks.filterMap ClaudeBlock.text?) ∧
      acc.finishReasons = [] ∧
      if twoToolsFirst blocks then acc.toolCalls.length + 1 = calls.length
      else acc.toolCalls = calls := by
  obtain ⟨acc, hreads, htext, hfinish, -⟩ := h.reads {}
  refine ⟨acc, hreads, by rw [htext, String.empty_append], hfinish, ?_⟩
  cases h with
  | nil =>
    rw [← reads_nil_iff.mp hreads]
    rfl
  | @cons _ block blocks call calls events later hblock hlater =>
    obtain ⟨reasoning, hfirst⟩ := hblock.reads {}
    obtain ⟨acc', hrest, -, -, hcalls⟩ := hlater.reads _
    rw [hreads.unique (hfirst.append hrest)]
    rcases call with _ | c
    · -- no call has index 0 yet
      have htool : block.isToolUse = false := hblock.isSome_call.symm
      have hnot : twoToolsFirst (block :: blocks) = false := by
        rcases blocks with _ | ⟨second, blocks⟩
        · rfl
        · rw [twoToolsFirst, htool]
          rfl
      rw [hnot]
      exact hcalls le_rfl nofun
    · have htool : block.isToolUse = true := hblock.isSome_call.symm
      cases hlater with
      | nil =>
        rw [← reads_nil_iff.mp hrest]
        rfl
      | @cons _ second blocks call calls events later hsecond hlater =>
        obtain ⟨reasoning', hsecond'⟩ := hsecond.reads _
        obtain ⟨acc'', hrest', -, -, hcalls'⟩ := hlater.reads _
        rw [hrest.unique (hsecond'.append hrest')]
        have htwo : twoToolsFirst (block :: second :: blocks) = call.isSome := by
          rw [twoToolsFirst, htool, hsecond.isSome_call, Bool.true_and]
        rw [htwo]
        rcases call with _ | c'
        · exact hcalls' (by decide) (by simp [placeCall, alter, fcIdx])
        · -- the second call goes to the entry of the first
          rw [hcalls' (by decide) (by simp [placeCall, alter, fcIdx])]
          simp [placeCall, alter, fcIdx, Accumulated.toolCalls, Nat.add_comm]

/-! ### The whole message -/

/-- The tool call of a block in the chat completion. -/
def ClaudeBlock.toolCall? (marshal : J → String) : ClaudeBlock J → Option ToolCall
  | .toolUse id name input => some { id, name, arguments := marshal input }
  | _ => none

theorem foldl_addBlock (marshal : J → String) (blocks : List (ClaudeBlock J))
    (acc : String × String × List ToolCall) :
    ((blocks.map ClaudeBlock.media).foldl (addBlock marshal) acc).1 =
        (blocks.filterMap ClaudeBlock.text?).getLast?.getD acc.1 ∧
      ((blocks.map ClaudeBlock.media).foldl (addBlock marshal) acc).2.2 =
        acc.2.2 ++ blocks.filterMap (ClaudeBlock.toolCall? marshal) := by
  induction blocks generalizing acc with
  | nil => exact ⟨rfl, (List.append_nil _).symm⟩
  | cons block blocks ih =>
    rw [List.map_cons, List.foldl_cons, (ih _).1, (ih _).2]
    cases block with
    | text t =>
      rw [List.filterMap_cons_some (show (ClaudeBlock.text t : ClaudeBlock J).text? = some t
        from rfl), List.getLast?_cons, Option.getD_some]
      exact ⟨rfl, rfl⟩
    | thinking t => exact ⟨rfl, rfl⟩
    | toolUse id name input =>
      refine ⟨rfl, ?_⟩
      exact (List.append_assoc acc.2.2 [_] _)

/-- The text of the chat completion is the last text of the message. -/
theorem content_responseClaude2OpenAI (marshal : J → String) (id model : String)
    (blocks : List (ClaudeBlock J)) (stopReason : String) :
    (responseClaude2OpenAI marshal (claudeMessage id model blocks stopReason)).content =
      (blocks.filterMap ClaudeBlock.text?).getLast?.getD "" := by
  refine (foldl_addBlock marshal blocks _).1.trans ?_
  rcases blocks with _ | ⟨block, blocks⟩
  · rfl
  · cases block with
    | text t =>
      rw [List.filterMap_cons_some (show (ClaudeBlock.text t : ClaudeBlock J).text? = some t
        from rfl), List.getLast?_cons]
      rfl
    | thinking | toolUse => rfl

theorem toolCalls_responseClaude2OpenAI (marshal : J → String) (id model : String)
    (blocks : List (ClaudeBlock J)) (stopReason : String) :
    (responseClaude2OpenAI marshal (claudeMessage id model blocks stopReason)).toolCalls =
      blocks.filterMap (ClaudeBlock.toolCall? marshal) :=
  (foldl_addBlock marshal blocks _).2

/-- The same call, with arguments of the same value. -/
def SameCall (unmarshal : String → Option J) (acc : CallAcc) (call : ToolCall) : Prop :=
  acc.id = call.id ∧ acc.name = call.name ∧
    unmarshal acc.arguments = unmarshal call.arguments ∧ (unmarshal acc.arguments).isSome

/-- The calls that a stream tells are those of the message. -/
theorem BlocksEvents.sameCalls {unmarshal : String → Option J} {marshal : J → String}
    (hround : ∀ v, unmarshal (marshal v) = some v)
    (h : BlocksEvents unmarshal index blocks calls events) :
    List.Forall₂ (SameCall unmarshal) calls
      (blocks.filterMap (ClaudeBlock.toolCall? marshal)) := by
  induction h with
  | nil => exact .nil
  | cons hblock _ ih =>
    cases hblock with
    | text | thinking => exact ih
    | toolUse id name shell input pieces hinput =>
      refine .cons ⟨rfl, rfl, ?_, by rw [hinput]; rfl⟩ ih
      rw [hinput, hround]

/-- **The chunks agree with the chat completion**: every tool call of the stream is there,
in order, with its id, its name and its arguments, and so are the text and the finish
reason. -/
def ClaudeAgrees (unmarshal : String → Option J) (events : List (ClaudeResponse J))
    (calls : List CallAcc) (whole : Completion) : Prop :=
  ∃ chunks, claudeChunks events = .ok chunks ∧
    (accumulate chunks).toolCalls = calls ∧ (accumulate chunks).text = whole.content ∧
    List.Forall₂ (SameCall unmarshal) (accumulate chunks).toolCalls whole.toolCalls ∧
    (accumulate chunks).finishReasons = [whole.finishReason]

theorem finishReason_ne {stopReason : String} (hempty : stopReason ≠ "")
    (hnull : stopReason ≠ "null") :
    claudeStopReasonToOpenAIFinishReason stopReason ≠ "" ∧
      claudeStopReasonToOpenAIFinishReason stopReason ≠ "null" := by
  unfold claudeStopReasonToOpenAIFinishReason
  dsimp only
  split_ifs
  all_goals first
    | exact ⟨hempty, hnull⟩
    | decide

/-- **When a Claude stream agrees with its message**: only the last text is not empty, and
the first two blocks are not both tool calls. -/
theorem claudeAgrees_iff {unmarshal : String → Option J} {marshal : J → String}
    (hround : ∀ v, unmarshal (marshal v) = some v) {events : List (ClaudeResponse J)}
    {blocks : List (ClaudeBlock J)} {calls : List CallAcc} {stopReason : String}
    (henc : ClaudeEncodes unmarshal events blocks calls stopReason) (id model : String) :
    ClaudeAgrees unmarshal events calls
        (responseClaude2OpenAI marshal (claudeMessage id model blocks stopReason)) ↔
      (∀ t ∈ (blocks.filterMap ClaudeBlock.text?).dropLast, t = "") ∧
        twoToolsFirst blocks = false := by
  obtain ⟨hempty, hnull, start, body, hbody, hfilter⟩ := henc
  obtain ⟨acc, hreads, htext, hfinish, hcalls⟩ := hbody.reads_zero
  obtain ⟨hne, hne'⟩ := finishReason_ne hempty hnull
  have hstart : Reads {} [claudeMessageStart start] {} := by
    rcases start with _ | m
    · exact .cons rfl (Accumulated.add_content _ (choices_claudeChunk "" "" _))
        (reads_nil_iff.mpr rfl)
    · exact .cons rfl (Accumulated.add_content _ (choices_claudeChunk m.id m.model _))
        (reads_nil_iff.mpr rfl)
  have hstop : Reads acc [(claudeMessageDelta stopReason : ClaudeResponse J)]
      { acc with finishReasons := [claudeStopReasonToOpenAIFinishReason stopReason] } := by
    have hreason : (if claudeStopReasonToOpenAIFinishReason stopReason ≠ "null" then
        some (claudeStopReasonToOpenAIFinishReason stopReason) else none) =
        some (claudeStopReasonToOpenAIFinishReason stopReason) := if_pos hne'
    have hchunk : streamResponseClaude2OpenAI (claudeMessageDelta stopReason : ClaudeResponse J) =
        .ok (some (claudeChunk "" ""
          { finishReason := some (claudeStopReasonToOpenAIFinishReason stopReason) } [])) := by
      rw [← hreason]
      rfl
    refine .cons hchunk (Accumulated.add_finish _ hne (choices_claudeChunk ..)) ?_
    rw [hfinish]
    exact reads_nil_iff.mpr rfl
  have hend : Reads {} events
      { acc with finishReasons := [claudeStopReasonToOpenAIFinishReason stopReason] } := by
    refine Reads.of_filter ?_
    rw [hfilter]
    exact (hstart.append hreads).append hstop
  obtain ⟨chunks, hok, hacc⟩ := hend
  have hagree : ClaudeAgrees unmarshal events calls
      (responseClaude2OpenAI marshal (claudeMessage id model blocks stopReason)) ↔
      acc.toolCalls = calls ∧
        String.join (blocks.filterMap ClaudeBlock.text?) =
          (blocks.filterMap ClaudeBlock.text?).getLast?.getD "" := by
    rw [← htext, ← content_responseClaude2OpenAI marshal id model blocks stopReason]
    constructor
    · rintro ⟨chunks', hok', hcalls', htext', -⟩
      rw [hok] at hok'
      cases hok'
      rw [accumulate, hacc] at hcalls' htext'
      exact ⟨hcalls', htext'⟩
    · rintro ⟨hcalls', htext'⟩
      refine ⟨chunks, hok, ?_⟩
      rw [accumulate, hacc, toolCalls_responseClaude2OpenAI]
      exact ⟨hcalls', htext', hcalls' ▸ hbody.sameCalls hround, rfl⟩
  rw [hagree, GoText.join_eq_getLast_iff, and_comm]
  refine and_congr_right fun _ => ?_
  rcases htwo : twoToolsFirst blocks
  · rw [htwo] at hcalls
    exact iff_of_true hcalls rfl
  · rw [htwo, if_pos rfl] at hcalls
    refine iff_of_false (fun heq => ?_) (by decide)
    rw [heq] at hcalls
    omega

/-! ### Two streams -/

/-- Two values of `Input`: `nil` and the empty object. -/
inductive EmptyInput where
  | null
  | object
deriving DecidableEq, Repr, Inhabited

/-- `json.Marshal` -/
def EmptyInput.marshal : EmptyInput → String
  | .null => "null"
  | .object => "\x7b\x7d"

/-- `json.Unmarshal` -/
def EmptyInput.unmarshal (s : String) : Option EmptyInput :=
  if s = "null" then some .null else if s = "\x7b\x7d" then some .object else none

/-- The events of a call without arguments, in two pieces. -/
def toolUseEvents (index : Nat) (id name : String) : List (ClaudeResponse EmptyInput) :=
  [blockStart index { type := "tool_use", id, name, input := .object },
    blockDelta index { type := "input_json_delta", partialJson := some "\x7b" },
    blockDelta index { type := "input_json_delta", partialJson := some "\x7d" },
    { type := "content_block_stop", index := some index }]

theorem blockEvents_toolUse (index : Nat) (id name : String) :
    BlockEvents EmptyInput.unmarshal index (.toolUse id name .object)
      (some ⟨id, name, "\x7b\x7d"⟩) ((toolUseEvents index id name).take 3) :=
  .toolUse id name EmptyInput.object EmptyInput.object ["\x7b", "\x7d"] (by decide)

/-- A text and a tool call. -/
theorem claudeAgrees_text_and_call :
    let events := claudeMessageStart none ::
      ([blockStart 0 { type := "text", text := some "" },
        blockDelta 0 { type := "text_delta", text := some "Hi" },
        { type := "content_block_stop", index := some 0 }] ++ toolUseEvents 1 "a" "f") ++
      [claudeMessageDelta "tool_use", { type := "message_stop" }]
    ClaudeAgrees EmptyInput.unmarshal events [⟨"a", "f", "\x7b\x7d"⟩]
      (responseClaude2OpenAI EmptyInput.marshal (claudeMessage "msg" "claude"
        [.text "Hi", .toolUse "a" "f" .object] "tool_use")) := by
  intro events
  have hround : ∀ v, EmptyInput.unmarshal (EmptyInput.marshal v) = some v := by
    intro v
    cases v <;> decide
  have henc : ClaudeEncodes EmptyInput.unmarshal events
      [.text "Hi", .toolUse "a" "f" .object] [⟨"a", "f", "\x7b\x7d"⟩] "tool_use" :=
    ⟨by decide, by decide, none, _,
      .cons (.text (some "") ["Hi"]) (.cons (blockEvents_toolUse 1 "a" "f") .nil), rfl⟩
  exact (claudeAgrees_iff hround henc "msg" "claude").mpr ⟨by decide, rfl⟩

/-- A message of two tool calls: both get the index 0, and a client makes one call of
them. -/
theorem not_claudeAgrees_two_calls :
    let events := claudeMessageStart none ::
      (toolUseEvents 0 "a" "f" ++ toolUseEvents 1 "b" "g") ++
      [claudeMessageDelta "tool_use", { type := "message_stop" }]
    let blocks : List (ClaudeBlock EmptyInput) :=
      [.toolUse "a" "f" .object, .toolUse "b" "g" .object]
    let calls : List CallAcc := [⟨"a", "f", "\x7b\x7d"⟩, ⟨"b", "g", "\x7b\x7d"⟩]
    ClaudeEncodes EmptyInput.unmarshal events blocks calls "tool_use" ∧
      (∃ chunks, claudeChunks events = .ok chunks ∧
        (accumulate chunks).toolCalls = [⟨"a", "f", "\x7b\x7d\x7b\x7d"⟩]) ∧
      ¬ ClaudeAgrees EmptyInput.unmarshal events calls
        (responseClaude2OpenAI EmptyInput.marshal
          (claudeMessage "msg" "claude" blocks "tool_use")) := by
  intro events blocks calls
  refine ⟨⟨by decide, by decide, none, _, .cons (blockEvents_toolUse 0 "a" "f")
    (.cons (blockEvents_toolUse 1 "b" "g") .nil), rfl⟩, ⟨_, rfl, by decide⟩, ?_⟩
  rintro ⟨chunks, hok, hcalls, -⟩
  cases hok
  exact absurd hcalls (by decide)

end Convert

end NewApiPool