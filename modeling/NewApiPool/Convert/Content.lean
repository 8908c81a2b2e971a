import NewApiPool.Convert.Pieces

/-!
# What a converted stream keeps

The text of a Claude message is that of its text deltas, the reasoning that of its thinking
deltas, and a tool call is a block with an id, a name and its pieces of JSON. Against it
stand the content, the reasoning and the tool calls of the chunks.

What gets lost is what is not read. A chunk is read as the first one, as a later one, or
not at all: because of a finish reason without usage, or because the message is closed
(`NewApiPool.Convert.readings`). A later chunk with tool calls is read for these alone, and
one with reasoning for that alone; of the tool calls of the first chunk only the first is
read. `NewApiPool.Convert.proseOf_iff` says that nothing else happens to the text.

With tool calls there is one more thing: what is read of a call after a text goes to
another block. So a call is kept if one delta that is read names it, and what comes after
it is read in the same run of tool calls (`NewApiPool.Convert.CallsKept`).
-/

namespace NewApiPool.Convert

open GoText

/-! ### How chunks are read -/

/-- A chunk is read as the first one, as a later one, or not at all. -/
inductive Reading where
  | first
  | later
  | skipped
deriving DecidableEq, Repr

/-- The first choices of chunks that are not read. -/
def skippedReadings (chunks : List Chunk) : List (Delta × Reading) :=
  chunks.flatMap fun chunk =>
    (chunk.choices.head?.map fun choice => (choice.delta, Reading.skipped)).toList

/-- The first choice of a later chunk. -/
def Chunk.laterReading (chunk : Chunk) : List (Delta × Reading) :=
  (chunk.choices.head?.map fun choice =>
    (choice.delta, if choice.isFinished && chunk.usage.isNone then .skipped else .later)).toList

/-- The first choices of later chunks. -/
def laterReadings (usageKnown : Bool) : List Chunk → List (Delta × Reading)
  | [] => []
  | chunk :: chunks =>
    chunk.laterReading ++
      if chunk.closes usageKnown then skippedReadings chunks
      else laterReadings (usageKnown || chunk.usage.isSome) chunks

/-- **How the chunks of a stream are read.** -/
def readings : List Chunk → List (Delta × Reading)
  | [] => []
  | first :: rest =>
    (first.choices.head?.map fun choice => (choice.delta, Reading.first)).toList ++
      if first.isFinished then skippedReadings rest else laterReadings first.usage.isSome rest

/-- The deltas of a stream: those of the first choices. -/
def deltas (chunks : List Chunk) : List Delta :=
  chunks.flatMap fun chunk => (chunk.choices.head?.map Choice.delta).toList

/-- What is read of a delta. -/
def readPieces (x : Delta × Reading) : List Piece :=
  match x.2 with
  | .first => firstPieces x.1
  | .later => contentPieces x.1
  | .skipped => []

theorem map_fst_skippedReadings (chunks : List Chunk) :
    (skippedReadings chunks).map Prod.fst = deltas chunks := by
  rw [skippedReadings, deltas, List.map_flatMap]
  exact List.flatMap_congr fun chunk _ => by cases chunk.choices <;> rfl

theorem map_fst_laterReadings (known : Bool) (chunks : List Chunk) :
    (laterReadings known chunks).map Prod.fst = deltas chunks := by
  induction chunks generalizing known with
  | nil => rfl
  | cons chunk chunks ih =>
    have hhead : chunk.laterReading.map Prod.fst =
        (chunk.choices.head?.map Choice.delta).toList := by
      unfold Chunk.laterReading
      cases chunk.choices <;> rfl
    rw [laterReadings, List.map_append, hhead]
    split_ifs
    · rw [map_fst_skippedReadings]
      rfl
    · rw [ih]
      rfl

theorem map_fst_readings (chunks : List Chunk) :
    (readings chunks).map Prod.fst = deltas chunks := by
  rcases chunks with _ | ⟨first, rest⟩
  · rfl
  · have hhead : ((first.choices.head?.map fun choice =>
        (choice.delta, Reading.first)).toList).map Prod.fst =
          (first.choices.head?.map Choice.delta).toList := by
      cases first.choices <;> rfl
    rw [readings, List.map_append, hhead]
    split_ifs
    · rw [map_fst_skippedReadings]
      rfl
    · rw [map_fst_laterReadings]
      rfl

theorem flatMap_skippedReadings (chunks : List Chunk) :
    (skippedReadings chunks).flatMap readPieces = [] := by
  rw [List.flatMap_eq_nil_iff]
  intro x hx
  obtain ⟨chunk, -, hchunk⟩ := List.mem_flatMap.mp hx
  obtain ⟨choice, -, rfl⟩ := Option.map_eq_some_iff.mp (Option.mem_toList.mp hchunk)
  rfl

theorem flatMap_laterReading (chunk : Chunk) :
    chunk.laterReading.flatMap readPieces = chunk.laterPieces := by
  unfold Chunk.laterReading Chunk.laterPieces
  rcases chunk.choices with _ | ⟨choice, choices⟩
  · rfl
  · simp only [List.head?_cons, Option.map_some, Option.toList_some, List.flatMap_singleton]
    split_ifs <;> rfl

theorem flatMap_laterReadings (known : Bool) (chunks : List Chunk) :
    (laterReadings known chunks).flatMap readPieces = laterPieces known chunks := by
  induction chunks generalizing known with
  | nil => rfl
  | cons chunk chunks ih =>
    rw [laterReadings, laterPieces, List.flatMap_append, flatMap_laterReading]
    split_ifs
    · rw [flatMap_skippedReadings]
    · rw [ih]

/-- What is read of a stream is what is read of its deltas. -/
theorem flatMap_readings (chunks : List Chunk) :
    (readings chunks).flatMap readPieces = pieces chunks := by
  rcases chunks with _ | ⟨first, rest⟩
  · rfl
  · rw [readings, pieces, List.flatMap_append]
    congr 1
    · cases first.choices with
      | nil => rfl
      | cons choice choices => exact List.flatMap_singleton ..
    · split_ifs
      · exact flatMap_skippedReadings rest
      · exact flatMap_laterReadings _ rest

/-! ### Text and reasoning -/

/-- The text of a delta event, if it is of the kind. -/
def Event.prose (kind : Prose) : Event → Option String
  | .contentBlockDelta _ (.text s) => if kind = .text then some s else none
  | .contentBlockDelta _ (.thinking s) => if kind = .thinking then some s else none
  | _ => none

/-- The text of a kind in a list of events. -/
def proseOf (kind : Prose) (events : List Event) : String :=
  String.join (events.filterMap (Event.prose kind))

/-- The text of a kind in a delta. -/
def Delta.text (kind : Prose) (delta : Delta) : String :=
  match kind with
  | .text => delta.getContentString
  | .thinking => delta.getReasoningContent

/-- The text of a kind in a piece. -/
def Piece.text (kind : Prose) : Piece → Option String
  | .prose kind' s => if kind = kind' then some s else none
  | .calls _ => none

/-- The text of a kind is read. -/
def readsText (kind : Prose) (x : Delta × Reading) : Bool :=
  match x.2, kind with
  | .first, .thinking => true
  | .first, .text => x.1.getReasoningContent = ""
  | .later, .thinking => x.1.toolCalls.isEmpty
  | .later, .text => x.1.toolCalls.isEmpty && decide (x.1.getReasoningContent = "")
  | .skipped, _ => false

theorem filterMap_prose_stops (kind : Prose) (c : Cursor) :
    c.stops.filterMap (Event.prose kind) = [] := by
  rw [List.filterMap_eq_nil_iff]
  intro e he
  cases c with
  | idle => cases he
  | prose =>
    rw [List.mem_singleton.mp he]
    rfl
  | tools =>
    obtain ⟨offset, -, rfl⟩ := List.mem_map.mp he
    rfl

theorem filterMap_prose_calls (kind : Prose) (base : Int) (calls : List CallPiece) :
    (calls.flatMap (CallPiece.events base)).filterMap (Event.prose kind) = [] := by
  have hcall : ∀ call : CallPiece, (call.events base).filterMap (Event.prose kind) = [] := by
    intro call
    rcases hstart : call.start with _ | ⟨id, name⟩ <;>
      by_cases hargs : call.arguments = "" <;>
      simp [CallPiece.events, hstart, hargs, Event.prose]
  rw [List.filterMap_flatMap, List.flatMap_eq_nil_iff]
  exact fun call _ => hcall call

theorem filterMap_prose_feed (kind : Prose) (c : Cursor) (p : Piece) :
    (c.feed p).2.filterMap (Event.prose kind) = (p.text kind).toList := by
  cases p with
  | prose kind' s =>
    have hdelta : ∀ i, Event.prose kind (.contentBlockDelta i (kind'.delta s)) =
        (Piece.prose kind' s).text kind := by
      intro i
      cases kind <;> cases kind' <;> rfl
    have hstart : ∀ i, Event.prose kind (.contentBlockStart i kind'.block) = none := fun _ => rfl
    have hbegin : ∀ i, (c.stops ++ [Event.contentBlockStart i kind'.block,
        Event.contentBlockDelta i (kind'.delta s)]).filterMap (Event.prose kind) =
          ((Piece.prose kind' s).text kind).toList := by
      intro i
      rw [List.filterMap_append, filterMap_prose_stops, List.nil_append, List.filterMap_cons,
        hstart]
      simp only [List.filterMap_cons, hdelta, List.filterMap_nil]
      cases (Piece.prose kind' s).text kind <;> rfl
    cases c with
    | idle => exact hbegin _
    | tools => exact hbegin _
    | prose kind'' i =>
      by_cases hkind : kind'' = kind'
      · simp only [Cursor.feed, if_pos hkind, List.filterMap_cons, hdelta, List.filterMap_nil]
        cases (Piece.prose kind' s).text kind <;> rfl
      · simp only [Cursor.feed, if_neg hkind]
        exact hbegin _
  | calls calls =>
    cases c with
    | tools base m => exact filterMap_prose_calls kind base calls
    | idle i =>
      simp only [Cursor.feed, List.filterMap_append, filterMap_prose_stops,
        filterMap_prose_calls]
      rfl
    | prose kind' i =>
      simp only [Cursor.feed, List.filterMap_append, filterMap_prose_stops,
        filterMap_prose_calls]
      rfl

theorem filterMap_prose_feedAll (kind : Prose) (c : Cursor) (ps : List Piece) :
    (c.feedAll ps).2.filterMap (Event.prose kind) = ps.filterMap (Piece.text kind) := by
  induction ps generalizing c with
  | nil => rfl
  | cons p ps ih =>
    rw [Cursor.feedAll, List.filterMap_append, filterMap_prose_feed, ih, List.filterMap_cons]
    cases p.text kind <;> rfl

theorem filterMap_prose_content (kind : Prose) (events : List Event) :
    (content events).filterMap (Event.prose kind) = events.filterMap (Event.prose kind) := by
  rw [content, List.filterMap_filter]
  exact List.filterMap_congr fun e _ => by cases e <;> rfl

theorem proseOf_handleStream (kind : Prose) (promptTokens : Int) (chunks : List Chunk) :
    proseOf kind (handleStream { estimatePromptTokens := promptTokens } chunks).2 =
      String.join ((pieces chunks).filterMap (Piece.text kind)) := by
  rw [proseOf, ← filterMap_prose_content, content_handleStream, List.filterMap_append,
    filterMap_prose_feedAll]
  split_ifs
  · rw [filterMap_prose_stops, List.append_nil]
  · rw [List.filterMap_nil, List.append_nil]

theorem join_readPieces (kind : Prose) (x : Delta × Reading) :
    String.join ((readPieces x).filterMap (Piece.text kind)) =
      if readsText kind x then x.1.text kind else "" := by
  have hprose : String.join ((prosePieces x.1).filterMap (Piece.text kind)) =
      if kind = .text ∧ x.1.getReasoningContent ≠ "" then "" else x.1.text kind := by
    unfold prosePieces Delta.prose
    by_cases hreason : x.1.getReasoningContent = "" <;>
      by_cases hcontent : x.1.getContentString = "" <;> cases kind <;>
      simp [hreason, hcontent, Piece.text, Delta.text]
  rcases x with ⟨delta, reading⟩
  dsimp only at hprose
  cases reading with
  | first =>
    have hcalls : ((delta.toolCalls.head?.map fun toolCall =>
        Piece.calls [toolCall.firstPiece]).toList).filterMap (Piece.text kind) = [] := by
      cases delta.toolCalls <;> rfl
    simp only [readPieces, firstPieces, List.filterMap_append, hcalls, List.nil_append, hprose]
    by_cases hreason : delta.getReasoningContent = "" <;> cases kind <;>
      simp [readsText, hreason]
  | later =>
    simp only [readPieces, contentPieces]
    rcases htools : delta.toolCalls with _ | ⟨toolCall, rest⟩
    · rw [if_neg (by simp), hprose]
      by_cases hreason : delta.getReasoningContent = "" <;> cases kind <;>
        simp [readsText, htools, hreason]
    · rw [if_pos (List.cons_ne_nil toolCall rest)]
      cases kind <;> simp [readsText, htools, Piece.text, List.filterMap_cons]
  | skipped => simp [readPieces, readsText]

/-- **The text of a kind is kept** exactly if none is left unread. -/
theorem proseOf_iff (kind : Prose) (promptTokens : Int) (chunks : List Chunk) :
    proseOf kind (handleStream { estimatePromptTokens := promptTokens } chunks).2 =
        String.join ((deltas chunks).map (Delta.text kind)) ↔
      ∀ x ∈ readings chunks, readsText kind x = false → x.1.text kind = "" := by
  rw [proseOf_handleStream, ← flatMap_readings, join_flatMap_filterMap, ← map_fst_readings,
    List.map_map, ← join_ite_eq_iff (fun x : Delta × Reading => x.1.text kind)]
  simp only [join_readPieces]
  rfl

end NewApiPool.Convert
