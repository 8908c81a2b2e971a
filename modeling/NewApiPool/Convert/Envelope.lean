import NewApiPool.Convert.Responses

/-!
# The envelope of a Claude stream

A Claude stream is one `message_start`, the events of its content, one `message_delta`
with the stop reason and the usage, and one `message_stop`
(`NewApiPool.Convert.Envelope`). Whether `OaiStreamHandler` sends one depends on three
things that are easy to tell from the chunks.

* The last chunk is replayed by `HandleFinalResponse`, which does not count it. A stream
  of one chunk has no first chunk then, and a stream of two chunks has two.
* A finish reason in the first chunk closes the message at once, with a `message_delta`
  only if the usage is in the same chunk.
* A finish reason in a later chunk closes the message only if the usage is in the same
  chunk; otherwise the chunk is dropped, and it takes a chunk without choices to close it.

`NewApiPool.Convert.Chunk.closes` is the last point, and
`NewApiPool.Convert.streamCloses` puts it together. The handler of the Responses API sends
its finish reason in a chunk without usage and nothing after it, so it never closes a
message.
-/

namespace NewApiPool.Convert

/-- **The envelope**: a start, content, and an end with a stop reason and usage. -/
def Envelope (events : List Event) : Prop :=
  ∃ id model usage₀ content stopReason usage,
    events = .messageStart id model usage₀ :: content ++
      [.messageDelta stopReason usage, .messageStop] ∧
    stopReason ≠ "" ∧ ∀ e ∈ content, e.isContent = true

/-! ### Content and the rest -/

/-- The events that are not about a block. -/
def outer (events : List Event) : List Event := events.filter fun e => !e.isContent

@[simp] theorem outer_append (es fs : List Event) : outer (es ++ fs) = outer es ++ outer fs :=
  List.filter_append ..

variable {es : List Event}

theorem outer_eq_nil : outer es = [] ↔ ∀ e ∈ es, e.isContent = true := by
  simp [outer]

@[simp] theorem outer_nil : outer [] = [] := rfl

/-- An envelope has three events that are not content. -/
theorem Envelope.outer_eq (h : Envelope es) :
    ∃ id model usage₀ stopReason usage,
      outer es = [.messageStart id model usage₀, .messageDelta stopReason usage,
        .messageStop] := by
  obtain ⟨id, model, usage₀, content, stopReason, usage, rfl, -, hcontent⟩ := h
  refine ⟨id, model, usage₀, stopReason, usage, ?_⟩
  have hnil : outer content = [] := outer_eq_nil.mpr hcontent
  change outer ([.messageStart id model usage₀] ++ content ++ _) = _
  rw [outer_append, outer_append, hnil]
  rfl

/-! ### What the content of a chunk does

It is content, and it leaves alone what decides on the envelope. -/

/-- The fields that only `finish` and the callers change. -/
structure SameFrame (info info' : RelayInfo) : Prop where
  done : info'.done = info.done
  usage : info'.usage = info.usage
  sendResponseCount : info'.sendResponseCount = info.sendResponseCount
  finishReason : info'.finishReason = info.finishReason

theorem SameFrame.refl (info : RelayInfo) : SameFrame info info := ⟨rfl, rfl, rfl, rfl⟩

theorem SameFrame.trans {a b c : RelayInfo} (h : SameFrame a b) (h' : SameFrame b c) :
    SameFrame a c :=
  ⟨h'.done.trans h.done, h'.usage.trans h.usage,
    h'.sendResponseCount.trans h.sendResponseCount, h'.finishReason.trans h.finishReason⟩

/-- What a function makes of the state for a piece of content. -/
def IsContent (info : RelayInfo) (r : RelayInfo × List Event) : Prop :=
  SameFrame info r.1 ∧ outer r.2 = []

theorem outer_stopOpenBlocks (info : RelayInfo) : outer (stopOpenBlocks info) = [] := by
  rw [outer_eq_nil]
  intro e he
  unfold stopOpenBlocks at he
  split at he
  all_goals simp at he
  · rw [he]; rfl
  · rw [he]; rfl
  · obtain ⟨offset, -, rfl⟩ := he
    rfl

theorem isContent_stopOpenBlocksAndAdvance (info : RelayInfo) :
    IsContent info (stopOpenBlocksAndAdvance info) := by
  unfold stopOpenBlocksAndAdvance
  split
  · exact ⟨.refl info, rfl⟩
  all_goals exact ⟨⟨rfl, rfl, rfl, rfl⟩, outer_stopOpenBlocks info⟩

theorem isContent_firstToolCalls (info : RelayInfo) (toolCalls : List ToolCall) :
    IsContent info (firstToolCalls info toolCalls) := by
  cases toolCalls with
  | nil => exact ⟨.refl info, rfl⟩
  | cons toolCall _ =>
    refine ⟨⟨rfl, rfl, rfl, rfl⟩, ?_⟩
    simp only [firstToolCalls]
    split_ifs <;> rfl

theorem isContent_firstProse (info : RelayInfo) (kind : Prose) (s : String) :
    IsContent info (firstProse info kind s) := by
  unfold firstProse
  obtain ⟨hframe, houter⟩ := isContent_stopOpenBlocksAndAdvance info
  split_ifs with h
  · exact ⟨hframe.trans ⟨rfl, rfl, rfl, rfl⟩, by rw [outer_append, houter]; rfl⟩
  · exact ⟨⟨rfl, rfl, rfl, rfl⟩, rfl⟩

theorem isContent_laterProse (info : RelayInfo) (kind : Prose) (s : String) :
    IsContent info (laterProse info kind s) := by
  unfold laterProse
  obtain ⟨hframe, houter⟩ := isContent_stopOpenBlocksAndAdvance info
  split_ifs with h
  · exact ⟨hframe.trans ⟨rfl, rfl, rfl, rfl⟩, by rw [outer_append, houter]; rfl⟩
  · exact ⟨.refl info, rfl⟩

theorem outer_toolCall_events (toolCall : ToolCall) (index : Int) :
    outer (toolCall.events index) = [] := by
  unfold ToolCall.events
  split_ifs <;> rfl

theorem isContent_laterToolCalls (info : RelayInfo) (toolCalls : List ToolCall) :
    IsContent info (laterToolCalls info toolCalls) := by
  have hcalls : ∀ base, outer (toolCalls.zipIdx.flatMap fun c =>
      c.1.events (base + c.1.offset c.2)) = [] := by
    intro base
    rw [outer_eq_nil]
    intro e he
    obtain ⟨c, -, hc⟩ := List.mem_flatMap.mp he
    exact outer_eq_nil.mp (outer_toolCall_events _ _) e hc
  unfold laterToolCalls
  obtain ⟨hframe, houter⟩ := isContent_stopOpenBlocksAndAdvance info
  split_ifs with h
  · exact ⟨hframe.trans ⟨rfl, rfl, rfl, rfl⟩, by rw [outer_append, hcalls, List.append_nil, houter]⟩
  · exact ⟨⟨rfl, rfl, rfl, rfl⟩, by rw [outer_append, hcalls]; rfl⟩

theorem isContent_firstContent (info : RelayInfo) (delta : Delta) :
    IsContent info (firstContent info delta) := by
  obtain ⟨hframe, houter⟩ := isContent_firstToolCalls info delta.toolCalls
  rcases hprose : delta.prose with _ | ⟨kind, s⟩
  · rw [firstContent_of_no_prose hprose]
    exact ⟨hframe, houter⟩
  · rw [firstContent_of_prose hprose]
    obtain ⟨hframe', houter'⟩ := isContent_firstProse (firstToolCalls info delta.toolCalls).1 kind s
    exact ⟨hframe.trans hframe', by rw [outer_append, houter, houter']; rfl⟩

theorem isContent_laterContent (info : RelayInfo) (delta : Delta) :
    IsContent info (laterContent info delta) := by
  unfold laterContent
  split_ifs with h
  · exact isContent_laterToolCalls info delta.toolCalls
  · split
    · exact isContent_laterProse info _ _
    · exact ⟨.refl info, rfl⟩

/-! ### What a chunk does -/

theorem stopReasonOpenAI2Claude_ne_empty {finishReason : String} (h : finishReason ≠ "") :
    stopReasonOpenAI2Claude finishReason ≠ "" := by
  unfold stopReasonOpenAI2Claude
  dsimp only
  split_ifs
  all_goals first | exact h | decide

/-- The events end a message, after content. -/
def Closing (events : List Event) : Prop :=
  ∃ content stopReason usage,
    events = content ++ [.messageDelta stopReason usage, .messageStop] ∧
    stopReason ≠ "" ∧ outer content = []

theorem Closing.cons_content {fs : List Event} (hes : outer es = []) (h : Closing fs) :
    Closing (es ++ fs) := by
  obtain ⟨content, stopReason, usage, rfl, hreason, hcontent⟩ := h
  exact ⟨es ++ content, stopReason, usage, by rw [List.append_assoc], hreason,
    by rw [outer_append, hes, hcontent]; rfl⟩

theorem closing_finish (info : RelayInfo) (u : Usage) {stopReason : String}
    (h : stopReason ≠ "") : Closing (finish info (some u) stopReason) :=
  ⟨stopOpenBlocks info, stopReason, _, List.append_assoc .., h, outer_stopOpenBlocks info⟩

theorem Closing.envelope (h : Closing es) (info : RelayInfo) (chunk : Chunk) :
    Envelope (messageStart info chunk :: es) := by
  obtain ⟨content, stopReason, usage, rfl, hreason, hcontent⟩ := h
  exact ⟨_, _, _, content, stopReason, usage, rfl, hreason, outer_eq_nil.mp hcontent⟩

theorem not_envelope_of_content (h : outer es = []) (info : RelayInfo)
    (chunk : Chunk) : ¬ Envelope (messageStart info chunk :: es) := by
  intro henv
  obtain ⟨id, model, usage₀, stopReason, usage, houter⟩ := henv.outer_eq
  change outer ([messageStart info chunk] ++ es) = _ at houter
  rw [outer_append, h] at houter
  cases houter

/-- **A later chunk closes the message**: it has no choices and a usage is known, or it has
the finish reason and the usage both. -/
def Chunk.closes (chunk : Chunk) (usageKnown : Bool) : Bool :=
  match chunk.choices with
  | [] => chunk.usage.isSome || usageKnown
  | choice :: _ => choice.isFinished && chunk.usage.isSome

variable {chunk : Chunk}

theorem Chunk.closes_of_no_choice (h : chunk.choices = []) (known : Bool) :
    chunk.closes known = (chunk.usage.isSome || known) := by
  simp only [Chunk.closes, h]

theorem Chunk.closes_of_choice {choice : Choice} {choices : List Choice}
    (h : chunk.choices = choice :: choices) (known : Bool) :
    chunk.closes known = (choice.isFinished && chunk.usage.isSome) := by
  simp only [Chunk.closes, h]

theorem laterChunk_closing (info : RelayInfo) (h : chunk.closes info.usage.isSome = true) :
    Closing (laterChunk info chunk).2 ∧ (laterChunk info chunk).1.done = true := by
  rcases hchoices : chunk.choices with _ | ⟨choice, choices⟩
  · rw [Chunk.closes_of_no_choice hchoices, ← Option.isSome_or] at h
    obtain ⟨u, hu⟩ := Option.isSome_iff_exists.mp h
    rw [laterChunk_of_usage hchoices hu]
    refine ⟨closing_finish info u ?_, rfl⟩
    split_ifs with hreason
    · decide
    · exact hreason
  · rw [Chunk.closes_of_choice hchoices, Bool.and_eq_true] at h
    obtain ⟨hfin, husage⟩ := h
    obtain ⟨u, hu⟩ := Option.isSome_iff_exists.mp husage
    rw [laterChunk_of_finished hchoices hfin husage, hu]
    obtain ⟨hframe, houter⟩ := isContent_laterContent (info.setFinishReason choice) choice.delta
    refine ⟨Closing.cons_content houter (closing_finish _ u ?_), rfl⟩
    rw [hframe.finishReason]
    exact stopReasonOpenAI2Claude_ne_empty (bne_iff_ne.mp hfin)

/-- A chunk that does not close the message has content, or nothing. -/
theorem laterChunk_open (info : RelayInfo) (h : chunk.closes info.usage.isSome = false) :
    outer (laterChunk info chunk).2 = [] ∧ (laterChunk info chunk).1.done = info.done ∧
      (laterChunk info chunk).1.usage = info.usage ∧
      (laterChunk info chunk).1.sendResponseCount = info.sendResponseCount := by
  rcases hchoices : chunk.choices with _ | ⟨choice, choices⟩
  · rw [Chunk.closes_of_no_choice hchoices, ← Option.isSome_or, Option.isSome_eq_false_iff,
      Option.isNone_iff_eq_none] at h
    rw [laterChunk_of_no_usage hchoices h]
    exact ⟨rfl, rfl, rfl, rfl⟩
  · rw [Chunk.closes_of_choice hchoices] at h
    rcases hfin : choice.isFinished
    · rw [laterChunk_of_content hchoices hfin]
      obtain ⟨hframe, houter⟩ := isContent_laterContent info choice.delta
      exact ⟨houter, hframe.done, hframe.usage, hframe.sendResponseCount⟩
    · rw [hfin, Bool.true_and, Option.isSome_eq_false_iff, Option.isNone_iff_eq_none] at h
      rw [laterChunk_of_deferred hchoices hfin h]
      exact ⟨rfl, rfl, rfl, rfl⟩

/-- The first chunk without a finish reason has content. -/
theorem firstChunk_open (info : RelayInfo) (h : chunk.isFinished = false) :
    IsContent info (firstChunk info chunk) := by
  unfold Chunk.isFinished at h
  rcases hchoices : chunk.choices with _ | ⟨choice, choices⟩
  · rw [firstChunk_of_no_choice hchoices]
    exact ⟨.refl info, rfl⟩
  · rw [hchoices] at h
    rw [firstChunk_of_content hchoices (by simpa using h)]
    exact isContent_firstContent info choice.delta

/-- The first chunk with a finish reason has content and the end; the `message_delta` is
there if a usage is. -/
theorem firstChunk_finished (info : RelayInfo) (h : chunk.isFinished = true) :
    (firstChunk info chunk).1.done = true ∧
      match chunk.usage.or info.usage with
      | some _ => Closing (firstChunk info chunk).2
      | none => outer (firstChunk info chunk).2 = [.messageStop] := by
  unfold Chunk.isFinished at h
  rcases hchoices : chunk.choices with _ | ⟨choice, choices⟩
  · rw [hchoices] at h
    cases h
  · rw [hchoices] at h
    have hfin : choice.isFinished = true := by simpa using h
    rw [firstChunk_of_finished hchoices hfin]
    obtain ⟨hframe, houter⟩ := isContent_firstContent info choice.delta
    have husage : ((firstContent info choice.delta).1.setFinishReason choice).usage =
        info.usage := hframe.usage
    refine ⟨rfl, ?_⟩
    simp only [finishChoice, husage]
    rcases chunk.usage.or info.usage with _ | u
    · simp only [outer_append, houter, finish, outer_stopOpenBlocks]
      rfl
    · exact Closing.cons_content houter
        (closing_finish _ u (stopReasonOpenAI2Claude_ne_empty (bne_iff_ne.mp hfin)))

/-! ### What a run of chunks does -/

/-- The state in which `HandleStreamFormat` converts a chunk. -/
def RelayInfo.receive (info : RelayInfo) (chunk : Chunk) : RelayInfo :=
  { info with
    sendResponseCount := info.sendResponseCount + 1
    usage := chunk.usage.or info.usage }

variable {info : RelayInfo}

theorem handleStreamFormat_of_done (h : info.done = true) (chunk : Chunk) :
    handleStreamFormat info chunk = (info.receive chunk, []) :=
  if_pos h

theorem handleStreamFormat_first (info : RelayInfo) (hdone : info.done = false)
    (hcount : info.sendResponseCount = 0) (chunk : Chunk) :
    handleStreamFormat info chunk =
      ((firstChunk (info.receive chunk) chunk).1,
        messageStart (info.receive chunk) chunk :: (firstChunk (info.receive chunk) chunk).2) := by
  have hdone' : ¬ (info.receive chunk).done = true := by
    rw [show (info.receive chunk).done = info.done from rfl, hdone]
    decide
  have hcount' : (info.receive chunk).sendResponseCount = 1 := congrArg (· + 1) hcount
  exact (if_neg hdone').trans (if_pos hcount')

theorem handleStreamFormat_later (hdone : info.done = false)
    (hcount : 0 < info.sendResponseCount) (chunk : Chunk) :
    handleStreamFormat info chunk = laterChunk (info.receive chunk) chunk := by
  have hdone' : ¬ (info.receive chunk).done = true := by
    rw [show (info.receive chunk).done = info.done from rfl, hdone]
    decide
  have hcount' : ¬ (info.receive chunk).sendResponseCount = 1 := by
    rw [show (info.receive chunk).sendResponseCount = info.sendResponseCount + 1 from rfl]
    omega
  exact (if_neg hdone').trans (if_neg hcount')

theorem handleStream_of_done (h : info.done = true) (chunks : List Chunk) :
    (handleStream info chunks).2 = [] ∧ (handleStream info chunks).1.done = true := by
  induction chunks generalizing info with
  | nil => exact ⟨rfl, h⟩
  | cons chunk chunks ih =>
    simp only [handleStream, handleStreamFormat_of_done h, List.nil_append]
    exact ih (show (info.receive chunk).done = true from h)

/-- Some chunk of a run closes the message. -/
def closesIn (usageKnown : Bool) : List Chunk → Bool
  | [] => false
  | chunk :: chunks =>
    chunk.closes usageKnown || closesIn (usageKnown || chunk.usage.isSome) chunks

theorem isSome_receive_usage (info : RelayInfo) (chunk : Chunk) :
    (info.receive chunk).usage.isSome = (info.usage.isSome || chunk.usage.isSome) :=
  Option.isSome_or.trans (Bool.or_comm ..)

theorem closes_receive (info : RelayInfo) (chunk : Chunk) :
    chunk.closes (info.receive chunk).usage.isSome = chunk.closes info.usage.isSome := by
  rw [isSome_receive_usage]
  unfold Chunk.closes
  split
  · rw [Bool.or_comm info.usage.isSome, ← Bool.or_assoc, Bool.or_self]
  · rfl

/-- **Later chunks, one of which closes the message**, end it. -/
theorem handleStream_closing (hdone : info.done = false)
    (hcount : 0 < info.sendResponseCount) {chunks : List Chunk}
    (h : closesIn info.usage.isSome chunks = true) :
    Closing (handleStream info chunks).2 ∧ (handleStream info chunks).1.done = true := by
  induction chunks generalizing info with
  | nil => cases h
  | cons chunk chunks ih =>
    simp only [handleStream, handleStreamFormat_later hdone hcount]
    rw [closesIn, ← closes_receive, ← isSome_receive_usage] at h
    rcases hc : chunk.closes (info.receive chunk).usage.isSome
    · rw [hc, Bool.false_or] at h
      obtain ⟨houter, hdone', husage, hcount'⟩ := laterChunk_open _ hc
      rw [← husage] at h
      obtain ⟨hrest, hend⟩ := ih (hdone'.trans hdone) (by rw [hcount']; exact Nat.succ_pos _) h
      exact ⟨Closing.cons_content houter hrest, hend⟩
    · obtain ⟨hclosing, hend⟩ := laterChunk_closing _ hc
      obtain ⟨hnil, hend'⟩ := handleStream_of_done hend chunks
      rw [hnil, List.append_nil]
      exact ⟨hclosing, hend'⟩

/-- Later chunks, none of which closes the message, are content. -/
theorem handleStream_open (hdone : info.done = false)
    (hcount : 0 < info.sendResponseCount) {chunks : List Chunk}
    (h : closesIn info.usage.isSome chunks = false) :
    outer (handleStream info chunks).2 = [] ∧ (handleStream info chunks).1.done = false ∧
      (handleStream info chunks).1.sendResponseCount =
        info.sendResponseCount + chunks.length := by
  induction chunks generalizing info with
  | nil => exact ⟨rfl, hdone, rfl⟩
  | cons chunk chunks ih =>
    simp only [handleStream, handleStreamFormat_later hdone hcount]
    rw [closesIn, ← closes_receive, ← isSome_receive_usage, Bool.or_eq_false_iff] at h
    obtain ⟨houter, hdone', husage, hcount'⟩ := laterChunk_open _ h.1
    obtain ⟨hrest, hend, hlast⟩ := ih (hdone'.trans hdone)
      (by rw [hcount']; exact Nat.succ_pos _) (by rw [husage]; exact h.2)
    refine ⟨by rw [outer_append, houter, hrest]; rfl, hend, ?_⟩
    rw [hlast, hcount', List.length_cons]
    exact Nat.add_right_comm ..

/-! ### The handler of chat streams -/

/-- The data handler has handled all chunks but the last. -/
theorem scanStream_some (info : RelayInfo) (first : Chunk) (chunks : List Chunk) (last : Chunk) :
    scanStream info (some first) (chunks ++ [last]) =
      ((handleStream info (first :: chunks)).1, some last,
        (handleStream info (first :: chunks)).2) := by
  induction chunks generalizing info first with
  | nil => simp [scanStream, handleStream]
  | cons chunk chunks ih =>
    simp only [List.cons_append, scanStream, ih, handleStream]

theorem oaiStreamHandler_concat (env : StreamEnv) (info : RelayInfo) (chunks : List Chunk)
    (last : Chunk) :
    ∃ usage, oaiStreamHandler env info (chunks ++ [last]) =
      (handleStream info chunks).2 ++
        (handleFinalResponse (handleStream info chunks).1 last usage).2 := by
  have hscan : scanStream info none (chunks ++ [last]) =
      ((handleStream info chunks).1, some last, (handleStream info chunks).2) := by
    rcases chunks with _ | ⟨first, chunks⟩
    · rfl
    · exact scanStream_some info first chunks last
  refine ⟨finalUsage env (handleStream info chunks).1 (chunks ++ [last]) last, ?_⟩
  simp only [oaiStreamHandler, hscan]

/-- The replay of the last chunk, by the state it is replayed in. -/
theorem handleFinalResponse_of_done (h : info.done = true) (last : Chunk)
    (usage : Usage) : (handleFinalResponse info last usage).2 = [] := by
  simp [handleFinalResponse, streamResponseOpenAI2Claude, h]

theorem handleFinalResponse_first (hdone : info.done = false)
    (hcount : info.sendResponseCount = 1) (last : Chunk) (usage : Usage) :
    (handleFinalResponse info last usage).2 =
      messageStart { info with usage := some usage } last ::
        (firstChunk { info with usage := some usage } last).2 := by
  simp [handleFinalResponse, streamResponseOpenAI2Claude, hdone, hcount]

theorem handleFinalResponse_later (hdone : info.done = false)
    (hcount : info.sendResponseCount ≠ 1) (last : Chunk) (usage : Usage) :
    (handleFinalResponse info last usage).2 =
      (laterChunk { info with usage := some usage } last).2 := by
  simp [handleFinalResponse, streamResponseOpenAI2Claude, hdone, hcount]

/-- Some chunk closes the message; for the last one a usage is known in any case. -/
def closesFrom (usageKnown : Bool) : List Chunk → Bool
  | [] => false
  | [last] => last.closes true
  | chunk :: chunks =>
    chunk.closes usageKnown || closesFrom (usageKnown || chunk.usage.isSome) chunks

theorem closesFrom_concat (usageKnown : Bool) (chunks : List Chunk) (last : Chunk) :
    closesFrom usageKnown (chunks ++ [last]) =
      (closesIn usageKnown chunks || last.closes true) := by
  induction chunks generalizing usageKnown with
  | nil => simp [closesFrom, closesIn]
  | cons chunk chunks ih =>
    rw [List.cons_append, closesFrom, ih, closesIn, Bool.or_assoc]
    simp

/-- **The streams that `OaiStreamHandler` wraps up.** A first chunk with a finish reason has
the usage too, and is not the only chunk; after a first chunk without one there are two
chunks or more, and one of them closes the message. -/
def streamCloses : List Chunk → Bool
  | first :: second :: rest =>
    if first.isFinished then first.usage.isSome
    else !rest.isEmpty && closesFrom first.usage.isSome (second :: rest)
  | _ => false

theorem not_envelope_single (env : StreamEnv) (promptTokens : Int) (last : Chunk) :
    ¬ Envelope (oaiStreamHandler env { estimatePromptTokens := promptTokens } [last]) := by
  obtain ⟨usage, h⟩ :=
    oaiStreamHandler_concat env { estimatePromptTokens := promptTokens } [] last
  rw [List.nil_append] at h
  rw [h, handleFinalResponse_later rfl Nat.zero_ne_one, handleStream, List.nil_append]
  intro henv
  obtain ⟨id, model, usage₀, stopReason, usage', houter⟩ := henv.outer_eq
  rcases hc : last.closes true
  · obtain ⟨hnil, -⟩ := laterChunk_open { estimatePromptTokens := promptTokens, usage } hc
    rw [hnil] at houter
    cases houter
  · obtain ⟨⟨content, _, _, hes, -, hcontent⟩, -⟩ :=
      laterChunk_closing { estimatePromptTokens := promptTokens, usage } hc
    rw [hes, outer_append, hcontent] at houter
    cases houter

variable {first : Chunk}

/-- After a first chunk with a finish reason nothing counts any more. -/
theorem envelope_first_finished (env : StreamEnv) (promptTokens : Int)
    (hfin : first.isFinished = true) (chunks : List Chunk) (last : Chunk) :
    Envelope (oaiStreamHandler env { estimatePromptTokens := promptTokens }
      (first :: chunks ++ [last])) ↔ first.usage.isSome = true := by
  set info : RelayInfo := { estimatePromptTokens := promptTokens } with hinfo
  obtain ⟨usage, h⟩ := oaiStreamHandler_concat env info (first :: chunks) last
  obtain ⟨hdone, hend⟩ := firstChunk_finished (info.receive first) hfin
  obtain ⟨hnil, hdone'⟩ := handleStream_of_done hdone chunks
  have husage : first.usage.or (info.receive first).usage = first.usage := by
    rw [hinfo, RelayInfo.receive, Option.or_none, Option.or_self]
  rw [h]
  simp only [handleStream, handleStreamFormat_first info rfl rfl, hnil,
    handleFinalResponse_of_done hdone', List.append_nil]
  rw [husage] at hend
  rcases hu : first.usage with _ | u
  · rw [hu] at hend
    refine iff_of_false (fun henv => ?_) (by decide)
    obtain ⟨id, model, usage₀, stopReason, usage', houter⟩ := henv.outer_eq
    change outer ([messageStart _ _] ++ _) = _ at houter
    rw [outer_append, hend] at houter
    cases houter
  · rw [hu] at hend
    exact iff_of_true (hend.envelope _ _) rfl

/-- After a first chunk without a finish reason a single chunk is taken for a first one
again. -/
theorem not_envelope_two (env : StreamEnv) (promptTokens : Int)
    (hfin : first.isFinished = false) (last : Chunk) :
    ¬ Envelope (oaiStreamHandler env { estimatePromptTokens := promptTokens }
      [first, last]) := by
  set info : RelayInfo := { estimatePromptTokens := promptTokens } with hinfo
  obtain ⟨usage, h⟩ := oaiStreamHandler_concat env info [first] last
  obtain ⟨hframe, houter⟩ := firstChunk_open (info.receive first) hfin
  change oaiStreamHandler env info ([first] ++ [last]) = _ at h
  change ¬ Envelope (oaiStreamHandler env info ([first] ++ [last]))
  rw [h]
  simp only [handleStream, handleStreamFormat_first info rfl rfl, List.append_nil]
  rw [handleFinalResponse_first hframe.done hframe.sendResponseCount]
  intro henv
  obtain ⟨id, model, usage₀, stopReason, usage', heq⟩ := henv.outer_eq
  change outer ([messageStart _ _] ++ _ ++ ([messageStart _ _] ++ _)) = _ at heq
  simp only [outer_append, houter] at heq
  cases heq

theorem envelope_last {content : List Event} (hcontent : outer content = []) (start : RelayInfo)
    (first : Chunk) (hu : info.usage.isSome = true) (last : Chunk) :
    Envelope (messageStart start first :: (content ++ (laterChunk info last).2)) ↔
      last.closes true = true := by
  rcases hc : last.closes true
  · have hclose : last.closes info.usage.isSome = false := by rw [hu, hc]
    obtain ⟨hopen, -⟩ := laterChunk_open info hclose
    refine iff_of_false (not_envelope_of_content ?_ start first) (by decide)
    rw [outer_append, hcontent, hopen]
    rfl
  · have hclose : last.closes info.usage.isSome = true := by rw [hu, hc]
    obtain ⟨hclosing, -⟩ := laterChunk_closing info hclose
    exact iff_of_true ((hclosing.cons_content hcontent).envelope start first) rfl

/-- After a first chunk without a finish reason, and with two chunks or more to come, it
depends on whether one of these closes the message. -/
theorem envelope_later (env : StreamEnv) (promptTokens : Int) {second : Chunk}
    (hfin : first.isFinished = false) (chunks : List Chunk) (last : Chunk) :
    Envelope (oaiStreamHandler env { estimatePromptTokens := promptTokens }
        (first :: second :: chunks ++ [last])) ↔
      (closesIn first.usage.isSome (second :: chunks) || last.closes true) = true := by
  set info : RelayInfo := { estimatePromptTokens := promptTokens } with hinfo
  obtain ⟨usage, h⟩ := oaiStreamHandler_concat env info (first :: second :: chunks) last
  obtain ⟨hframe, houter⟩ := firstChunk_open (info.receive first) hfin
  have hknown : (firstChunk (info.receive first) first).1.usage.isSome = first.usage.isSome := by
    rw [hframe.usage, isSome_receive_usage, hinfo]
    rfl
  have hcount : 0 < (firstChunk (info.receive first) first).1.sendResponseCount := by
    rw [hframe.sendResponseCount]
    exact Nat.succ_pos _
  rw [h, handleStream, handleStreamFormat_first info rfl rfl, ← hknown]
  dsimp only
  generalize hrest : handleStream (firstChunk (info.receive first) first).1 (second :: chunks) =
    r
  rcases hc : closesIn (firstChunk (info.receive first) first).1.usage.isSome (second :: chunks)
  · obtain ⟨hcontent, hdone, hlast⟩ := handleStream_open (hframe.done.trans rfl) hcount hc
    rw [hrest] at hcontent hdone hlast
    have hcount' : r.1.sendResponseCount ≠ 1 := by
      rw [hlast, List.length_cons]
      omega
    rw [handleFinalResponse_later hdone hcount', Bool.false_or]
    have hopen : outer ((firstChunk (info.receive first) first).2 ++ r.2) = [] := by
      rw [outer_append, houter, hcontent]
      rfl
    rw [List.cons_append, List.cons_append]
    exact envelope_last hopen _ _ rfl last
  · obtain ⟨hclosing, hdone⟩ := handleStream_closing (hframe.done.trans rfl) hcount hc
    rw [hrest] at hclosing hdone
    rw [handleFinalResponse_of_done hdone, List.append_nil, Bool.true_or]
    exact iff_of_true ((Closing.cons_content houter hclosing).envelope _ _) rfl

theorem envelope_oaiStreamHandler_iff (env : StreamEnv) (promptTokens : Int)
    (chunks : List Chunk) :
    Envelope (oaiStreamHandler env { estimatePromptTokens := promptTokens } chunks) ↔
      streamCloses chunks = true := by
  match chunks with
  | [] =>
    refine iff_of_false (fun henv => ?_) (by decide)
    obtain ⟨id, model, usage₀, stopReason, usage, houter⟩ := henv.outer_eq
    cases houter
  | [last] =>
    exact iff_of_false (not_envelope_single env promptTokens last) (by simp [streamCloses])
  | [first, last] =>
    rcases hfin : first.isFinished
    · exact iff_of_false (not_envelope_two env promptTokens hfin last)
        (by simp [streamCloses, hfin])
    · rw [streamCloses, if_pos hfin]
      exact envelope_first_finished env promptTokens hfin [] last
  | first :: second :: third :: rest =>
    obtain ⟨mid, last, hmid⟩ : ∃ mid last, third :: rest = mid ++ [last] :=
      ⟨_, _, (List.dropLast_append_getLast (List.cons_ne_nil third rest)).symm⟩
    rcases hfin : first.isFinished
    · have hcond : streamCloses (first :: second :: third :: rest) =
          (closesIn first.usage.isSome (second :: mid) || last.closes true) := by
        rw [streamCloses, hfin, hmid, ← List.cons_append, closesFrom_concat, ← hmid]
        rfl
      rw [hcond, hmid]
      exact envelope_later env promptTokens hfin mid last
    · rw [streamCloses, if_pos hfin, hmid]
      exact envelope_first_finished env promptTokens hfin (second :: mid) last

/-! ### The handler of the Responses API -/

/-- A chunk with choices and without usage; the usage of the converter does not matter. -/
def Sent.isPlain : Sent → Prop
  | .chunk c => c.choices ≠ [] ∧ c.usage = none
  | .usage _ => True

theorem Chunk.closes_eq_false (h : chunk.choices ≠ [] ∧ chunk.usage = none)
    (known : Bool) : chunk.closes known = false := by
  obtain ⟨choice, choices, hchoices⟩ := List.exists_cons_of_ne_nil h.1
  rw [Chunk.closes_of_choice hchoices, h.2, Option.isSome_none, Bool.and_false]

/-- Plain chunks after the first never close a message. -/
theorem outer_claudeSend (hdone : info.done = false)
    (hcount : 0 < info.sendResponseCount) {sent : List Sent} (h : ∀ s ∈ sent, s.isPlain) :
    outer (claudeSend info sent).2 = [] := by
  induction sent generalizing info with
  | nil => rfl
  | cons s rest ih =>
    rw [List.forall_mem_cons] at h
    cases s with
    | usage usage =>
      have hdone' : { info with usage := some usage }.done = false := hdone
      exact ih hdone' hcount h.2
    | chunk chunk =>
      simp only [claudeSend, handleStreamFormat_later hdone hcount, outer_append]
      obtain ⟨houter, hdone', -, hcount'⟩ :=
        laterChunk_open (info.receive chunk) (Chunk.closes_eq_false h.1 _)
      rw [houter, ih (hdone'.trans hdone) (by rw [hcount']; exact Nat.succ_pos _) h.2]
      rfl

section Responses

variable (env : ResponsesEnv)

/-- What is sent begins with the start chunk, and goes on with plain chunks. -/
structure Handler.Plain (h : Handler) : Prop where
  before : h.sentStart = false → h.sent = []
  after : h.sentStart = true →
    ∃ model rest, h.sent = .chunk (generateStartEmptyResponse env.responseId model) :: rest ∧
      ∀ s ∈ rest, s.isPlain

variable {env}

variable {h : Handler}

theorem Handler.Plain.congr {h' : Handler} (hp : h.Plain env)
    (hstart : h'.sentStart = h.sentStart) (hsent : h'.sent = h.sent) : h'.Plain env := by
  refine ⟨?_, ?_⟩
  all_goals rw [hstart, hsent]
  · exact hp.before
  · exact hp.after

theorem Handler.plain_sendStartIfNeeded (hp : h.Plain env) :
    (h.sendStartIfNeeded env).Plain env ∧ (h.sendStartIfNeeded env).sentStart = true := by
  unfold Handler.sendStartIfNeeded
  split_ifs with hstart
  · exact ⟨hp, hstart⟩
  · have hnil : h.sent = [] := hp.before (Bool.eq_false_iff.mpr hstart)
    exact ⟨⟨nofun, fun _ => ⟨h.model, [], by simp [Handler.sendChatChunk, hnil], by simp⟩⟩, rfl⟩

theorem Handler.Plain.append {h' : Handler} (hp : h.Plain env) (hstart : h.sentStart = true)
    {sent : List Sent} (hsent : h'.sent = h.sent ++ sent) (hstart' : h'.sentStart = true)
    (hplain : ∀ s ∈ sent, s.isPlain) : h'.Plain env := by
  obtain ⟨model, rest, heq, hrest⟩ := hp.after hstart
  refine ⟨fun hfalse => absurd (hstart'.symm.trans hfalse) (by decide), fun _ => ?_⟩
  refine ⟨model, rest ++ sent, by rw [hsent, heq, List.cons_append], ?_⟩
  exact List.forall_mem_append.mpr ⟨hrest, hplain⟩

theorem isPlain_chunk (h : Handler) (delta : Delta) : (Sent.chunk (h.chunk env delta)).isPlain :=
  ⟨List.cons_ne_nil _ _, rfl⟩

theorem Handler.plain_sendStop (hp : h.Plain env) (hstart : h.sentStart = true) :
    (h.sendStop env).Plain env := by
  refine hp.append hstart (List.append_assoc h.sent [_] [_]) hstart ?_
  rw [List.singleton_append, List.forall_mem_cons, List.forall_mem_singleton]
  exact ⟨trivial, List.cons_ne_nil _ _, rfl⟩

theorem Handler.plain_sendStopIfNeeded (hp : h.Plain env) :
    (h.sendStopIfNeeded env).Plain env := by
  obtain ⟨hp', hstart⟩ := Handler.plain_sendStartIfNeeded hp
  unfold Handler.sendStopIfNeeded
  dsimp only
  split_ifs
  · exact hp'
  · exact (Handler.plain_sendStop hp' hstart).congr rfl rfl

theorem Handler.plain_readResponse (hp : h.Plain env) (response : Option Response)
    (withUsage : Bool) : (h.readResponse response withUsage).Plain env := by
  cases response with
  | none => exact hp
  | some r => exact hp.congr rfl rfl

theorem Handler.plain_noteItem (hp : h.Plain env) (item : OutputItem) :
    (h.noteItem item).Plain env :=
  hp.congr (by simp only [Handler.noteItem]) (by simp only [Handler.noteItem])

theorem Handler.plain_noteArguments (hp : h.Plain env) (callID delta : String) :
    (h.noteArguments callID delta).Plain env :=
  hp.congr rfl rfl

theorem Handler.plain_sendToolCallDelta (hp : h.Plain env) (callID name argsDelta : String) :
    (h.sendToolCallDelta env callID name argsDelta).Plain env := by
  unfold Handler.sendToolCallDelta
  split_ifs
  · exact hp
  · exact hp
  · obtain ⟨hp', hstart⟩ := Handler.plain_sendStartIfNeeded hp
    exact hp'.append hstart rfl hstart (List.forall_mem_singleton.mpr (isPlain_chunk _ _))

theorem Handler.plain_sendReasoningSummaryDelta (hp : h.Plain env)
    (delta : String) : (h.sendReasoningSummaryDelta env delta).Plain env := by
  unfold Handler.sendReasoningSummaryDelta
  split
  · exact hp
  · obtain ⟨hp', hstart⟩ := Handler.plain_sendStartIfNeeded
      (h := { h with needsReasoningSummarySeparator := false }) (hp.congr rfl rfl)
    exact hp'.append hstart rfl hstart (List.forall_mem_singleton.mpr (isPlain_chunk _ _))

theorem Handler.plain_outputTextDelta (hp : h.Plain env) (delta : String) :
    (h.outputTextDelta env delta).Plain env := by
  obtain ⟨hp', hstart⟩ := Handler.plain_sendStartIfNeeded hp
  unfold Handler.outputTextDelta
  dsimp only
  split
  · exact hp'.append hstart rfl hstart (List.forall_mem_singleton.mpr (isPlain_chunk _ _))
  · exact hp'

theorem Handler.plain_step (hp : h.Plain env) (event : ResponsesEvent) :
    (h.step env event).Plain env := by
  unfold Handler.step
  split
  · exact hp
  cases event with
  | created response => exact Handler.plain_readResponse hp response false
  | reasoningSummaryTextDelta delta => exact Handler.plain_sendReasoningSummaryDelta hp delta
  | reasoningSummaryTextDone =>
    dsimp only
    split
    · exact hp.congr rfl rfl
    · exact hp
  | outputTextDelta delta => exact Handler.plain_outputTextDelta hp delta
  | outputItem item =>
    cases item with
    | none => exact hp
    | some item =>
      dsimp only
      unfold Handler.outputItem
      split_ifs
      · exact hp
      · exact Handler.plain_sendToolCallDelta (Handler.plain_noteItem hp item) _ _ _
  | functionCallArgumentsDelta itemId delta =>
    dsimp only
    unfold Handler.argumentsDelta
    dsimp only
    split_ifs
    · exact hp
    · exact Handler.plain_sendToolCallDelta (Handler.plain_noteArguments hp _ _) _ _ _
  | completed response =>
    exact Handler.plain_sendStopIfNeeded (Handler.plain_readResponse hp response true)
  | failed => exact hp.congr rfl rfl
  | other type => exact hp

theorem Handler.plain_finish (hp : h.Plain env) : (h.finish env).Plain env := by
  unfold Handler.finish
  split
  · exact hp
  · exact Handler.plain_sendStopIfNeeded (hp.congr rfl rfl)

theorem Handler.plain_foldl (hp : h.Plain env) (events : List ResponsesEvent) :
    (events.foldl (Handler.step env) h).Plain env := by
  induction events generalizing h with
  | nil => exact hp
  | cons event events ih => exact ih (Handler.plain_step hp event)

/-- **A message of the Responses API is never closed.** -/
theorem not_envelope_claudeEvents (promptTokens : Int) (events : List ResponsesEvent) :
    ¬ Envelope (claudeEvents env { estimatePromptTokens := promptTokens } events) := by
  have hinit : Handler.Plain env { model := env.upstreamModelName } := ⟨fun _ => rfl, nofun⟩
  have hp : (oaiResponsesToChatStreamHandler env events).Plain env :=
    Handler.plain_finish (Handler.plain_foldl hinit events)
  unfold claudeEvents
  rcases hstart : (oaiResponsesToChatStreamHandler env events).sentStart
  · rw [hp.before hstart]
    intro henv
    obtain ⟨id, model, usage₀, stopReason, usage, houter⟩ := henv.outer_eq
    cases houter
  · obtain ⟨model, rest, hsent, hrest⟩ := hp.after hstart
    rw [hsent]
    simp only [claudeSend, List.cons_append,
      handleStreamFormat_first { estimatePromptTokens := promptTokens } rfl rfl]
    obtain ⟨hframe, houter⟩ := firstChunk_open
      (RelayInfo.receive { estimatePromptTokens := promptTokens } _)
      (show (generateStartEmptyResponse env.responseId model).isFinished = false from rfl)
    refine not_envelope_of_content ?_ _ _
    rw [outer_append, houter, outer_claudeSend hframe.done
      (by rw [hframe.sendResponseCount]; exact Nat.succ_pos _) hrest]
    rfl

end Responses

/-- **Which streams have an envelope**: the chat streams of `streamCloses`, and no stream of
the Responses API. -/
theorem envelope_iff (promptTokens : Int) (env : StreamEnv) (chunks : List Chunk)
    (renv : ResponsesEnv) (events : List ResponsesEvent) :
    (Envelope (oaiStreamHandler env { estimatePromptTokens := promptTokens } chunks) ↔
      streamCloses chunks = true) ∧
    ¬ Envelope (claudeEvents renv { estimatePromptTokens := promptTokens } events) :=
  ⟨envelope_oaiStreamHandler_iff env promptTokens chunks,
    not_envelope_claudeEvents promptTokens events⟩

/-- The stream of an upstream that does not tell its usage: a role, a text and a finish
reason. The client gets the text, and neither `content_block_stop` nor the end. -/
theorem no_envelope_without_usage :
    let env : StreamEnv := ⟨false, fun _ => 1, fun usage _ => usage⟩
    let chunks : List Chunk :=
      [{ choices := [{ delta := { content := some "" } }] },
        { choices := [{ delta := { content := some "Hi" } }] },
        { choices := [{ finishReason := some "stop" }] }]
    oaiStreamHandler env {} chunks =
      [.messageStart "" "" { inputTokens := 0, outputTokens := 0 },
        .contentBlockStart 0 .text, .contentBlockDelta 0 (.text "Hi")] ∧
    ¬ Envelope (oaiStreamHandler env {} chunks) := by
  refine ⟨by decide, ?_⟩
  exact fun h => absurd ((envelope_oaiStreamHandler_iff _ 0 _).mp h) (by decide)

end NewApiPool.Convert
