import NewApiPool.Convert.Envelope

/-!
# What the converter reads, and where it is

The events about blocks depend on less than the chunks and on less than `RelayInfo`. Of a
chunk, `NewApiPool.Convert.contentPieces` and `NewApiPool.Convert.firstPieces` are what is
read: the tool calls, or else the reasoning, or else the text; of the first chunk its first
tool call, and text after it. Of the state, `NewApiPool.Convert.Cursor` is what matters:
which block is open, or which run of tool calls.

`NewApiPool.Convert.content_handleStream` says that the content events of a stream are what
`NewApiPool.Convert.Cursor.feedAll` makes of its pieces, with the open blocks stopped at
the end if the message is closed.
-/

namespace NewApiPool.Convert

/-! ### Pieces -/

/-- A delta of a tool call as the converter takes it: where its block is, counted from the
first of the run, the id and the name if it starts the block, and the arguments. -/
structure CallPiece where
  offset : Int
  start : Option (String × String)
  arguments : String
deriving DecidableEq, Repr

/-- One thing that is converted at a time. -/
inductive Piece where
  | prose (kind : Prose) (s : String)
  | calls (calls : List CallPiece)
deriving DecidableEq, Repr

/-- A call of a later chunk, at position `i`. -/
def ToolCall.piece (toolCall : ToolCall) (i : Nat) : CallPiece where
  offset := toolCall.offset i
  start := if toolCall.name ≠ "" then some (toolCall.id, toolCall.name) else none
  arguments := toolCall.arguments

/-- The call of the first chunk that is read. -/
def ToolCall.firstPiece (toolCall : ToolCall) : CallPiece where
  offset := 0
  start := some (toolCall.id, toolCall.name)
  arguments := toolCall.arguments

/-- The calls of a later chunk. -/
def toolPieces (toolCalls : List ToolCall) : List CallPiece :=
  toolCalls.zipIdx.map fun c => c.1.piece c.2

/-- The text of a delta, as a piece. -/
def prosePieces (delta : Delta) : List Piece :=
  (delta.prose.map fun p => Piece.prose p.1 p.2).toList

/-- What is read of a later chunk's choice. -/
def contentPieces (delta : Delta) : List Piece :=
  if delta.toolCalls ≠ [] then [.calls (toolPieces delta.toolCalls)]
  else prosePieces delta

/-- What is read of the first chunk's choice. -/
def firstPieces (delta : Delta) : List Piece :=
  (delta.toolCalls.head?.map fun toolCall => Piece.calls [toolCall.firstPiece]).toList ++
    prosePieces delta

/-- What is read of a later chunk: nothing if it has a finish reason and no usage. -/
def Chunk.laterPieces (chunk : Chunk) : List Piece :=
  match chunk.choices with
  | [] => []
  | choice :: _ =>
    if choice.isFinished && chunk.usage.isNone then [] else contentPieces choice.delta

/-- What is read of later chunks, until one of them closes the message. -/
def laterPieces (usageKnown : Bool) : List Chunk → List Piece
  | [] => []
  | chunk :: chunks =>
    chunk.laterPieces ++
      if chunk.closes usageKnown then []
      else laterPieces (usageKnown || chunk.usage.isSome) chunks

/-- **What is read of a stream**: the pieces of the first chunk, and those of the later ones up to
the end, as the branches of the converter take them. -/
def pieces : List Chunk → List Piece
  | [] => []
  | first :: rest =>
    (first.choices.head?.elim [] fun choice => firstPieces choice.delta) ++
      if first.isFinished then [] else laterPieces first.usage.isSome rest

/-- The stream closes its message. -/
def streamDone : List Chunk → Bool
  | [] => false
  | first :: rest => first.isFinished || closesIn first.usage.isSome rest

/-! ### The cursor -/

/-- Where the converter is: between blocks, in a block of text, or in a run of tool calls
that began at `base` and mentioned offsets up to `maxOffset`. -/
inductive Cursor where
  | idle (index : Int)
  | prose (kind : Prose) (index : Int)
  | tools (base maxOffset : Int)
deriving DecidableEq, Repr

/-- The cursor of a state. -/
def RelayInfo.cursor (info : RelayInfo) : Cursor :=
  match info.lastMessagesType with
  | .none => .idle info.index
  | .text => .prose .text info.index
  | .thinking => .prose .thinking info.index
  | .tools => .tools info.toolCallBaseIndex info.toolCallMaxIndexOffset

/-- The index of the next block. -/
def Cursor.next : Cursor → Int
  | .idle index => index
  | .prose _ index => index + 1
  | .tools base maxOffset => base + maxOffset + 1

/-- The events that stop what is open. -/
def Cursor.stops : Cursor → List Event
  | .idle _ => []
  | .prose _ index => [.contentBlockStop index]
  | .tools base maxOffset =>
    (List.range (maxOffset + 1).toNat).map fun offset : Nat => .contentBlockStop (base + offset)

/-- The events of a call in a run that began at `base`. -/
def CallPiece.events (base : Int) (call : CallPiece) : List Event :=
  (match call.start with
    | some (id, name) => [.contentBlockStart (base + call.offset) (.toolUse id name)]
    | none => []) ++
  (if call.arguments ≠ "" then
    [.contentBlockDelta (base + call.offset) (.inputJson call.arguments)] else [])

/-- The greatest offset, after more calls. -/
def maxOffset (m : Int) (calls : List CallPiece) : Int :=
  calls.foldl (fun m call => max m call.offset) m

theorem le_maxOffset (m : Int) (calls : List CallPiece) : m ≤ maxOffset m calls := by
  induction calls generalizing m with
  | nil => exact le_rfl
  | cons call calls ih => exact (le_max_left m call.offset).trans (ih _)

theorem offset_le_maxOffset (m : Int) {calls : List CallPiece} {call : CallPiece}
    (h : call ∈ calls) : call.offset ≤ maxOffset m calls := by
  induction calls generalizing m with
  | nil => cases h
  | cons call' calls ih =>
    rcases List.mem_cons.mp h with rfl | h
    · exact (le_max_right m call.offset).trans (le_maxOffset _ calls)
    · exact ih _ h

def Cursor.feed (c : Cursor) : Piece → Cursor × List Event
  | .prose kind s =>
    match c with
    | .prose kind' index =>
      if kind' = kind then (c, [.contentBlockDelta index (kind.delta s)])
      else
        (.prose kind c.next, c.stops ++ [.contentBlockStart c.next kind.block,
          .contentBlockDelta c.next (kind.delta s)])
    | .idle _ | .tools .. =>
      (.prose kind c.next, c.stops ++ [.contentBlockStart c.next kind.block,
        .contentBlockDelta c.next (kind.delta s)])
  | .calls calls =>
    match c with
    | .tools base m => (.tools base (maxOffset m calls), calls.flatMap (CallPiece.events base))
    | .idle _ | .prose .. =>
      (.tools c.next (maxOffset 0 calls), c.stops ++ calls.flatMap (CallPiece.events c.next))

def Cursor.feedAll (c : Cursor) : List Piece → Cursor × List Event
  | [] => (c, [])
  | p :: ps => (((c.feed p).1.feedAll ps).1, (c.feed p).2 ++ ((c.feed p).1.feedAll ps).2)

theorem Cursor.feedAll_append (c : Cursor) (ps qs : List Piece) :
    c.feedAll (ps ++ qs) =
      (((c.feedAll ps).1.feedAll qs).1, (c.feedAll ps).2 ++ ((c.feedAll ps).1.feedAll qs).2) := by
  induction ps generalizing c with
  | nil => rfl
  | cons p ps ih => simp only [List.cons_append, Cursor.feedAll, ih, List.append_assoc]

theorem Cursor.feedAll_singleton (c : Cursor) (p : Piece) : c.feedAll [p] = c.feed p := by
  simp only [Cursor.feedAll, List.append_nil]

/-! ### The converter follows the cursor -/

theorem stopOpenBlocks_eq (info : RelayInfo) : stopOpenBlocks info = info.cursor.stops := by
  unfold stopOpenBlocks RelayInfo.cursor
  cases info.lastMessagesType <;> rfl

theorem stopOpenBlocksAndAdvance_snd (info : RelayInfo) :
    (stopOpenBlocksAndAdvance info).2 = info.cursor.stops := by
  rw [← stopOpenBlocks_eq]
  unfold stopOpenBlocksAndAdvance stopOpenBlocks
  cases info.lastMessagesType <;> rfl

theorem stopOpenBlocksAndAdvance_index (info : RelayInfo) :
    (stopOpenBlocksAndAdvance info).1.index = info.cursor.next := by
  unfold stopOpenBlocksAndAdvance RelayInfo.cursor
  cases info.lastMessagesType <;> rfl

theorem laterProse_eq (info : RelayInfo) (kind : Prose) (s : String) :
    ((laterProse info kind s).1.cursor, (laterProse info kind s).2) =
      info.cursor.feed (.prose kind s) := by
  have hadvance : info.lastMessagesType ≠ kind.messagesType →
      ((laterProse info kind s).1.cursor, (laterProse info kind s).2) =
        (.prose kind info.cursor.next, info.cursor.stops ++
          [.contentBlockStart info.cursor.next kind.block,
            .contentBlockDelta info.cursor.next (kind.delta s)]) := by
    intro h
    rw [laterProse, if_pos h, ← stopOpenBlocksAndAdvance_snd, ← stopOpenBlocksAndAdvance_index]
    cases kind <;> rfl
  have hstay : info.lastMessagesType = kind.messagesType →
      laterProse info kind s = (info, [.contentBlockDelta info.index (kind.delta s)]) := by
    intro h
    rw [laterProse, if_neg (not_not_intro h)]
  rcases hlast : info.lastMessagesType <;> rcases kind
  all_goals
    first
    | rw [hadvance (by rw [hlast]; decide)]
      simp [RelayInfo.cursor, hlast, Cursor.feed]
    | rw [hstay hlast]
      simp [RelayInfo.cursor, hlast, Cursor.feed]

theorem foldl_offset_eq (m : Int) (toolCalls : List ToolCall) :
    toolCalls.zipIdx.foldl (fun m c => max m (c.1.offset c.2)) m =
      maxOffset m (toolPieces toolCalls) := by
  rw [maxOffset, toolPieces, List.foldl_map]
  rfl

theorem toolCall_events_eq (base : Int) (toolCall : ToolCall) (i : Nat) :
    toolCall.events (base + toolCall.offset i) = (toolCall.piece i).events base := by
  unfold ToolCall.events CallPiece.events ToolCall.piece
  split_ifs <;> rfl

theorem flatMap_events_eq (base : Int) (toolCalls : List ToolCall) :
    (toolCalls.zipIdx.flatMap fun c => c.1.events (base + c.1.offset c.2)) =
      (toolPieces toolCalls).flatMap (CallPiece.events base) := by
  rw [toolPieces, List.flatMap_map]
  exact List.flatMap_congr fun c _ => toolCall_events_eq base c.1 c.2

theorem laterToolCalls_eq (info : RelayInfo) (toolCalls : List ToolCall) :
    ((laterToolCalls info toolCalls).1.cursor, (laterToolCalls info toolCalls).2) =
      info.cursor.feed (.calls (toolPieces toolCalls)) := by
  have hbegin : info.lastMessagesType ≠ .tools →
      ((laterToolCalls info toolCalls).1.cursor, (laterToolCalls info toolCalls).2) =
        (.tools info.cursor.next (maxOffset 0 (toolPieces toolCalls)), info.cursor.stops ++
          (toolPieces toolCalls).flatMap (CallPiece.events info.cursor.next)) := by
    intro h
    rw [← stopOpenBlocksAndAdvance_snd, ← stopOpenBlocksAndAdvance_index, ← foldl_offset_eq,
      ← flatMap_events_eq, laterToolCalls, if_pos h]
    rfl
  have hgoOn : info.lastMessagesType = .tools →
      ((laterToolCalls info toolCalls).1.cursor, (laterToolCalls info toolCalls).2) =
        (.tools info.toolCallBaseIndex
            (maxOffset info.toolCallMaxIndexOffset (toolPieces toolCalls)),
          (toolPieces toolCalls).flatMap (CallPiece.events info.toolCallBaseIndex)) := by
    intro h
    rw [← foldl_offset_eq, ← flatMap_events_eq, laterToolCalls, if_neg (not_not_intro h)]
    rfl
  rcases hlast : info.lastMessagesType
  all_goals
    first
    | rw [hbegin (by rw [hlast]; decide)]
      simp [RelayInfo.cursor, hlast, Cursor.feed]
    | rw [hgoOn hlast]
      simp [RelayInfo.cursor, hlast, Cursor.feed]

theorem laterContent_eq (info : RelayInfo) (delta : Delta) :
    ((laterContent info delta).1.cursor, (laterContent info delta).2) =
      info.cursor.feedAll (contentPieces delta) := by
  unfold laterContent contentPieces prosePieces
  split_ifs with h
  · rw [Cursor.feedAll_singleton]
    exact laterToolCalls_eq info delta.toolCalls
  · rcases delta.prose with _ | ⟨kind, s⟩
    · rfl
    · exact (laterProse_eq info kind s).trans (Cursor.feedAll_singleton ..).symm

/-- The first chunk is read with no block open; then `firstProse` does what `laterProse`
does. -/
theorem firstContent_eq (info : RelayInfo) (hlast : info.lastMessagesType = .none)
    (hindex : info.index = 0) (delta : Delta) :
    ((firstContent info delta).1.cursor, (firstContent info delta).2) =
      (Cursor.idle 0).feedAll (firstPieces delta) := by
  have hcursor : info.cursor = .idle 0 := by simp [RelayInfo.cursor, hlast, hindex]
  have htools : ((firstToolCalls info delta.toolCalls).1.cursor,
      (firstToolCalls info delta.toolCalls).2) =
        (Cursor.idle 0).feedAll (delta.toolCalls.head?.map fun toolCall =>
          Piece.calls [toolCall.firstPiece]).toList := by
    rcases delta.toolCalls with _ | ⟨toolCall, rest⟩
    · exact congrArg (·, []) hcursor
    · simp [firstToolCalls, RelayInfo.cursor, Cursor.feedAll, Cursor.feed, Cursor.next,
        Cursor.stops, maxOffset, CallPiece.events, ToolCall.firstPiece]
  rw [firstPieces, Cursor.feedAll_append, ← htools]
  rcases hprose : delta.prose with _ | ⟨kind, s⟩
  · rw [firstContent_of_no_prose hprose, prosePieces, hprose]
    simp [Cursor.feedAll]
  · have hne : (firstToolCalls info delta.toolCalls).1.lastMessagesType ≠ kind.messagesType := by
      rcases delta.toolCalls with _ | ⟨toolCall, rest⟩
      · rw [firstToolCalls, hlast]
        cases kind <;> decide
      · cases kind <;> exact LastMessagesType.noConfusion
    have hfirst : firstProse (firstToolCalls info delta.toolCalls).1 kind s =
        laterProse (firstToolCalls info delta.toolCalls).1 kind s := by
      rw [firstProse, laterProse, if_pos hne, if_pos hne]
    rw [firstContent_of_prose hprose, hfirst, prosePieces, hprose, Option.map_some,
      Option.toList_some, Cursor.feedAll_singleton, ← laterProse_eq]

/-! ### Streams -/

/-- The events about blocks. -/
def content (events : List Event) : List Event := events.filter Event.isContent

@[simp] theorem content_append (es fs : List Event) :
    content (es ++ fs) = content es ++ content fs :=
  List.filter_append ..

theorem content_of_outer {es : List Event} (h : outer es = []) : content es = es :=
  List.filter_eq_self.mpr (outer_eq_nil.mp h)

theorem content_finish (info : RelayInfo) (usage : Option Usage) (stopReason : String) :
    content (finish info usage stopReason) = info.cursor.stops := by
  unfold finish
  rw [content_append, content_append, content_of_outer (outer_stopOpenBlocks info),
    stopOpenBlocks_eq]
  cases usage <;> simp [content, Event.isContent]

/-- A later chunk feeds its pieces, and stops what is open if it closes the message. -/
theorem laterChunk_eq (info : RelayInfo) (chunk : Chunk) :
    (laterChunk info chunk).1.cursor = (info.cursor.feedAll chunk.laterPieces).1 ∧
      content (laterChunk info chunk).2 =
        (info.cursor.feedAll chunk.laterPieces).2 ++
          if chunk.closes info.usage.isSome then
            (info.cursor.feedAll chunk.laterPieces).1.stops
          else [] := by
  rcases hchoices : chunk.choices with _ | ⟨choice, choices⟩
  · have hpieces : chunk.laterPieces = [] := by simp only [Chunk.laterPieces, hchoices]
    rw [hpieces, Chunk.closes_of_no_choice hchoices, ← Option.isSome_or]
    rcases hu : chunk.usage.or info.usage with _ | u
    · rw [laterChunk_of_no_usage hchoices hu]
      exact ⟨rfl, rfl⟩
    · rw [laterChunk_of_usage hchoices hu]
      exact ⟨rfl, by rw [content_finish]; rfl⟩
  · rw [Chunk.closes_of_choice hchoices]
    rcases hfin : choice.isFinished
    · have hpieces : chunk.laterPieces = contentPieces choice.delta := by
        simp only [Chunk.laterPieces, hchoices, hfin]
        rfl
      rw [hpieces, laterChunk_of_content hchoices hfin, ← laterContent_eq]
      refine ⟨rfl, ?_⟩
      rw [content_of_outer (isContent_laterContent info choice.delta).2]
      exact (List.append_nil _).symm
    · rcases hu : chunk.usage with _ | u
      · have hpieces : chunk.laterPieces = [] := by
          simp only [Chunk.laterPieces, hchoices, hfin, hu]
          rfl
        rw [hpieces, laterChunk_of_deferred hchoices hfin hu]
        exact ⟨rfl, rfl⟩
      · have hpieces : chunk.laterPieces = contentPieces choice.delta := by
          simp only [Chunk.laterPieces, hchoices, hfin, hu]
          rfl
        have heq := laterContent_eq (info.setFinishReason choice) choice.delta
        rw [show (info.setFinishReason choice).cursor = info.cursor from rfl] at heq
        rw [hpieces, laterChunk_of_finished hchoices hfin (by rw [hu]; rfl), ← heq]
        refine ⟨rfl, ?_⟩
        rw [finishChoice, content_append, content_finish,
          content_of_outer (isContent_laterContent _ choice.delta).2]
        rfl

theorem handleStream_done_content {info : RelayInfo} (h : info.done = true)
    (chunks : List Chunk) : content (handleStream info chunks).2 = [] := by
  rw [(handleStream_of_done h chunks).1]
  rfl

/-- Later chunks feed their pieces until the message is closed. -/
theorem content_handleStream_later {info : RelayInfo} (hdone : info.done = false)
    (hcount : 0 < info.sendResponseCount) (chunks : List Chunk) :
    content (handleStream info chunks).2 =
      (info.cursor.feedAll (laterPieces info.usage.isSome chunks)).2 ++
        if closesIn info.usage.isSome chunks then
          (info.cursor.feedAll (laterPieces info.usage.isSome chunks)).1.stops
        else [] := by
  induction chunks generalizing info with
  | nil => rfl
  | cons chunk chunks ih =>
    simp only [handleStream, handleStreamFormat_later hdone hcount, content_append]
    obtain ⟨hcursor, hcontent⟩ := laterChunk_eq (info.receive chunk) chunk
    rw [show (info.receive chunk).cursor = info.cursor from rfl] at hcursor hcontent
    rcases hc : chunk.closes info.usage.isSome
    all_goals
      have hreceive := (closes_receive info chunk).trans hc
      rw [hcontent, laterPieces, closesIn, hreceive, hc, ← isSome_receive_usage]
    · obtain ⟨-, hdone', husage, hcount'⟩ := laterChunk_open _ hreceive
      rw [ih (hdone'.trans hdone) (by rw [hcount']; exact Nat.succ_pos _), hcursor, husage]
      simp [Cursor.feedAll_append]
    · obtain ⟨-, hend⟩ := laterChunk_closing _ hreceive
      rw [handleStream_done_content hend]
      simp

/-- **The content events of a stream** are what the cursor makes of its pieces. -/
theorem content_handleStream (promptTokens : Int) (chunks : List Chunk) :
    content (handleStream { estimatePromptTokens := promptTokens } chunks).2 =
      ((Cursor.idle 0).feedAll (pieces chunks)).2 ++
        if streamDone chunks then ((Cursor.idle 0).feedAll (pieces chunks)).1.stops else [] := by
  rcases chunks with _ | ⟨first, rest⟩
  · rfl
  set info : RelayInfo := { estimatePromptTokens := promptTokens } with hinfo
  simp only [handleStream, handleStreamFormat_first info rfl rfl, content_append]
  rw [show content (messageStart (info.receive first) first ::
    (firstChunk (info.receive first) first).2) =
      content (firstChunk (info.receive first) first).2 from rfl]
  have hknown : (info.receive first).usage.isSome = first.usage.isSome := by
    rw [isSome_receive_usage, hinfo]
    rfl
  rcases hfin : first.isFinished
  · obtain ⟨hframe, houter⟩ := firstChunk_open (info.receive first) hfin
    have hfirst : ((firstChunk (info.receive first) first).1.cursor,
        (firstChunk (info.receive first) first).2) = (Cursor.idle 0).feedAll
          (first.choices.head?.elim [] fun choice => firstPieces choice.delta) := by
      unfold Chunk.isFinished at hfin
      rcases hchoices : first.choices with _ | ⟨choice, choices⟩
      · rw [firstChunk_of_no_choice hchoices]
        rfl
      · rw [hchoices] at hfin
        rw [firstChunk_of_content hchoices (by simpa using hfin)]
        exact firstContent_eq _ rfl rfl choice.delta
    rw [content_handleStream_later (hframe.done.trans rfl)
      (by rw [hframe.sendResponseCount]; exact Nat.succ_pos _), content_of_outer houter,
      hframe.usage, hknown, pieces, streamDone, hfin, Cursor.feedAll_append, ← hfirst]
    simp
  · obtain ⟨hdone, -⟩ := firstChunk_finished (info.receive first) hfin
    rw [handleStream_done_content hdone, List.append_nil, pieces, streamDone, hfin]
    have hfin' := hfin
    unfold Chunk.isFinished at hfin'
    rcases hchoices : first.choices with _ | ⟨choice, choices⟩
    · rw [hchoices] at hfin'
      cases hfin'
    · rw [hchoices] at hfin'
      have hfirst := firstContent_eq (info.receive first) rfl rfl choice.delta
      rw [firstChunk_of_finished hchoices (by simpa using hfin'), finishChoice, content_append,
        content_finish, content_of_outer (isContent_firstContent _ choice.delta).2]
      simp only [List.head?_cons, Option.elim_some, if_true, List.append_nil, Bool.true_or,
        ← hfirst]
      rfl

end NewApiPool.Convert
