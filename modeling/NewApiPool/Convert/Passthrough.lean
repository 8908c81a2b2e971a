import NewApiPool.Convert.ToClaude

/-!
# An OpenAI stream for an OpenAI client

`OaiStreamHandler` hands the data of a stream on as it came. A chunk is sent when the next one is
there, so that the last one can be looked at: if it has the usage, and the client did not ask for
that, it is only sent if it has a text besides.

A last chunk with the usage and no choices is kept back by that test, as it should be
(`oaiPassthrough_eq`). So is one with the usage and a finish reason or a piece of a tool call.
-/

namespace NewApiPool.Convert

/-- What `OaiStreamHandler` uses of its surroundings. -/
structure PassthroughEnv where
  /-- the client asked for the usage -/
  shouldIncludeUsage : Bool
  /-- the model is an audio model -/
  isAudioModel : Bool
  /-- `Unmarshal` of a chunk -/
  unmarshal : String → Option Chunk
  /-- `Unmarshal` of the usage of a chunk alone -/
  unmarshalUsage : String → Option Usage
  /-- the usage that is counted or found, after `applyUsagePostProcessing` -/
  usage : List String → Usage

/-- What is written to the client. -/
inductive Written
  | data (data : String)
  | usage (chunk : Chunk)
  | done
deriving DecidableEq

/-- `sendStreamData`, if nothing is to be formatted. -/
def sendData (data : String) : List Written := if data = "" then [] else [.data data]

/-- The variables of the loop. -/
structure LastData where
  lastStreamData : String := ""
  secondLastStreamData : String := ""

/-- The data handler: what is sent, and the last chunks after it. -/
def LastData.handle (isAudioModel : Bool) (last : LastData) (data : String) :
    List Written × LastData :=
  (if last.lastStreamData ≠ "" then sendData last.lastStreamData else [],
    if data = "" then last
    else
      { lastStreamData := data
        secondLastStreamData := if isAudioModel ∧ last.lastStreamData ≠ "" then last.lastStreamData
          else last.secondLastStreamData })

/-- One chunk after the other through the data handler. -/
def LastData.scan (isAudioModel : Bool) (last : LastData) : List String → List Written × LastData
  | [] => ([], last)
  | data :: chunks =>
    ((last.handle isAudioModel data).1 ++
        ((last.handle isAudioModel data).2.scan isAudioModel chunks).1,
      ((last.handle isAudioModel data).2.scan isAudioModel chunks).2)

/-- A choice has a text or reasoning. -/
def Choice.hasText (choice : Choice) : Bool :=
  choice.delta.getContentString != "" || choice.delta.getReasoningContent != ""

namespace PassthroughEnv

variable (env : PassthroughEnv)

/-- `handleLastResponse`: whether the last chunk is to be sent. -/
def shouldSendLastResp (lastStreamData : String) : Bool :=
  match env.unmarshal lastStreamData with
  | none => true
  | some last =>
    if validUsage last.usage ∧ env.shouldIncludeUsage = false then last.choices.any Choice.hasText
    else true

/-- Whether the upstream sent a usage. -/
def containStreamUsage (last : LastData) : Bool :=
  (env.isAudioModel && last.secondLastStreamData != "" &&
      validUsage (env.unmarshalUsage last.secondLastStreamData)) ||
    validUsage ((env.unmarshal last.lastStreamData).bind Chunk.usage)

/-- `HandleFinalResponse` for an OpenAI client. -/
def finalResponse (last : LastData) (chunks : List String) : List Written :=
  let response := (env.unmarshal last.lastStreamData).getD {}
  (if env.shouldIncludeUsage ∧ env.containStreamUsage last = false then
    [.usage { id := response.id, model := response.model, usage := some (env.usage chunks) }]
  else []) ++ [.done]

/-- **`OaiStreamHandler`** for an OpenAI client, without forced format and without thinking in the
content. -/
def oaiPassthrough (chunks : List String) : List Written :=
  let scanned := LastData.scan env.isAudioModel {} chunks
  scanned.1 ++
    (if env.shouldSendLastResp scanned.2.lastStreamData then sendData scanned.2.lastStreamData
    else []) ++
    env.finalResponse scanned.2 chunks

end PassthroughEnv

/-! ### The chunks before the last one -/

theorem LastData.scan_eq (isAudioModel : Bool) (last : LastData) (hlast : last.lastStreamData ≠ "")
    {chunks : List String} (h : ∀ data ∈ chunks, data ≠ "") :
    last.scan isAudioModel chunks =
      (((last.lastStreamData :: chunks).dropLast).map Written.data,
        ⟨(last.lastStreamData :: chunks).getLast (List.cons_ne_nil _ _),
          if isAudioModel then
            ((last.lastStreamData :: chunks).dropLast.getLast?).getD last.secondLastStreamData
          else last.secondLastStreamData⟩) := by
  induction chunks generalizing last with
  | nil => simp [LastData.scan]
  | cons data chunks ih =>
    obtain ⟨hdata, hchunks⟩ := List.forall_mem_cons.1 h
    have hnext : last.handle isAudioModel data = ([.data last.lastStreamData],
        ⟨data, if isAudioModel then last.lastStreamData else last.secondLastStreamData⟩) := by
      rw [LastData.handle, if_pos hlast, sendData, if_neg hlast, if_neg hdata]
      simp [hlast]
    rw [LastData.scan, hnext]
    simp only
    rw [ih _ hdata hchunks]
    simp only [List.dropLast_cons_cons, List.map_cons, List.singleton_append,
      List.getLast?_cons, Option.getD_some, List.getLast_cons (List.cons_ne_nil data chunks)]
    cases isAudioModel <;> rfl

/-- The last chunk before another one, which is kept for an audio model. -/
def secondLast (isAudioModel : Bool) (chunks : List String) : String :=
  if isAudioModel then chunks.getLast?.getD "" else ""

/-- **The chunks but the last one** are sent when the stream has been read. -/
theorem LastData.scan_concat (isAudioModel : Bool) {chunks : List String} {last : String}
    (h : ∀ data ∈ chunks ++ [last], data ≠ "") :
    LastData.scan isAudioModel {} (chunks ++ [last]) =
      (chunks.map Written.data, ⟨last, secondLast isAudioModel chunks⟩) := by
  obtain ⟨data, rest, hcons⟩ := List.exists_cons_of_ne_nil (List.append_ne_nil_of_right_ne_nil
    chunks (List.cons_ne_nil last []))
  have hfirst (hdata : data ≠ "") :
      (⟨"", ""⟩ : LastData).handle isAudioModel data = ([], ⟨data, ""⟩) := by
    rw [LastData.handle, if_neg hdata]
    simp
  rw [hcons] at h
  obtain ⟨hdata, hrest⟩ := List.forall_mem_cons.1 h
  have hscan := LastData.scan_eq isAudioModel ⟨data, ""⟩ hdata hrest
  simp only [← hcons, List.dropLast_concat, List.getLast_concat] at hscan
  rw [hcons, LastData.scan, hfirst hdata]
  simp only [hscan, secondLast, List.nil_append]

/-! ### The last chunk -/

namespace PassthroughEnv

variable (env : PassthroughEnv)

/-- The last chunk is the usage alone, and the client did not ask for it. -/
def isUsageOnly (last : String) : Bool :=
  !env.shouldIncludeUsage &&
    (env.unmarshal last).any fun chunk => validUsage chunk.usage && chunk.choices.isEmpty

/-- The last chunk has the usage and choices, but no text, and the client did not ask for it. -/
def keepsBackChoices (last : String) : Bool :=
  !env.shouldIncludeUsage && (env.unmarshal last).any fun chunk =>
    validUsage chunk.usage && !chunk.choices.isEmpty && !chunk.choices.any Choice.hasText

/-- **What is kept back** is the usage alone, or choices without a text. -/
theorem shouldSendLastResp_eq (last : String) :
    env.shouldSendLastResp last = !(env.isUsageOnly last || env.keepsBackChoices last) := by
  rw [shouldSendLastResp, isUsageOnly, keepsBackChoices]
  cases env.unmarshal last with
  | none => simp
  | some chunk =>
    simp only [Option.any_some]
    generalize validUsage chunk.usage = valid
    generalize chunk.choices = choices
    cases env.shouldIncludeUsage with
    | true => simp
    | false =>
      cases valid with
      | false => simp
      | true => cases choices <;> simp

/-- **The chunks of the upstream are sent**, in order and each once, and after them a usage if the
client asked for one and none came. The last one is kept back if it is the usage alone and the
client did not ask for it. -/
theorem oaiPassthrough_eq {chunks : List String} {last : String}
    (hdata : ∀ data ∈ chunks ++ [last], data ≠ "") (h : env.keepsBackChoices last = false) :
    env.oaiPassthrough (chunks ++ [last]) =
      (chunks ++ if env.isUsageOnly last then [] else [last]).map Written.data ++
        env.finalResponse ⟨last, secondLast env.isAudioModel chunks⟩ (chunks ++ [last]) := by
  have hlast : last ≠ "" := hdata last (by simp)
  have hsend : env.shouldSendLastResp last = !env.isUsageOnly last := by
    rw [shouldSendLastResp_eq, h, Bool.or_false]
  simp only [oaiPassthrough, LastData.scan_concat env.isAudioModel hdata, hsend, sendData, hlast,
    if_false]
  cases env.isUsageOnly last <;> simp

section Sample

/-- The surroundings of a client that did not ask for the usage. Three texts are chunks: one with a
text, one with a finish reason and the usage, and the usage alone. -/
def sampleEnv : PassthroughEnv where
  shouldIncludeUsage := false
  isAudioModel := false
  unmarshal data :=
    if data = "text" then some { choices := [{ delta := { content := some "Hi" } }] }
    else if data = "stop" then
      some { choices := [{ finishReason := some "stop" }], usage := some { promptTokens := 9 } }
    else if data = "usage" then some { usage := some { promptTokens := 9 } }
    else none
  unmarshalUsage _ := none
  usage _ := {}

theorem oaiPassthrough_usage :
    sampleEnv.oaiPassthrough (["text", "text"] ++ ["usage"]) =
      (["text", "text"] ++ if sampleEnv.isUsageOnly "usage" then [] else ["usage"]).map
          Written.data ++
        sampleEnv.finalResponse ⟨"usage", secondLast sampleEnv.isAudioModel ["text", "text"]⟩
          (["text", "text"] ++ ["usage"]) :=
  sampleEnv.oaiPassthrough_eq (by decide) (by decide)

/-- What is written is the chunks of the upstream alone, but for a last one without choices. -/
def ForwardsOnly (env : PassthroughEnv) (chunks : List String) (last : String) : Prop :=
  ∃ withheld : Bool, (withheld = true → ∃ chunk, env.unmarshal last = some chunk ∧
      chunk.choices = []) ∧
    env.oaiPassthrough (chunks ++ [last]) =
      (chunks ++ if withheld then [] else [last]).map Written.data ++ [.done]

/-- **A client that asked for the usage** is sent one, if the upstream did not. -/
theorem not_forwardsOnly_asked :
    ¬∀ (env : PassthroughEnv) (chunks : List String) (last : String),
      (∀ data ∈ chunks ++ [last], data ≠ "") → env.ForwardsOnly chunks last := by
  intro h
  obtain ⟨withheld, -, hsent⟩ := h { sampleEnv with shouldIncludeUsage := true } [] "text"
    (by decide)
  have hwritten : PassthroughEnv.oaiPassthrough { sampleEnv with shouldIncludeUsage := true }
      ([] ++ ["text"]) = [.data "text", .usage { usage := some {} }, .done] := by decide
  rw [hwritten] at hsent
  cases withheld <;> simp at hsent

/-- A finish reason in the chunk with the usage does not reach a client that did not ask for
one. -/
theorem not_forwardsOnly_stop : ¬sampleEnv.ForwardsOnly ["text"] "stop" := by
  rintro ⟨withheld, hempty, hsent⟩
  have hwritten : sampleEnv.oaiPassthrough (["text"] ++ ["stop"]) = [.data "text", .done] := by
    decide
  have hstop : sampleEnv.unmarshal "stop" =
      some { choices := [{ finishReason := some "stop" }], usage := some { promptTokens := 9 } } :=
    rfl
  rw [hwritten] at hsent
  cases withheld with
  | true =>
    obtain ⟨chunk, hchunk, hchoices⟩ := hempty rfl
    rw [hstop] at hchunk
    cases hchunk
    cases hchoices
  | false => simp at hsent

end Sample

end PassthroughEnv

end NewApiPool.Convert
