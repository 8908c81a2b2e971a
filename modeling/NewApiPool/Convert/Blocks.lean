import NewApiPool.Convert.Pieces
import NewApiPool.Lib.Blocks

/-!
# The blocks of a converted stream

A Claude client wants its blocks numbered 0, 1, 2, …, each with a start, deltas of its own
kind and a stop. For text and reasoning the converter does that. A run of tool calls, from
the first call to the next text, it places by the upstream's own numbers: call `i` of the
stream is block `i` counted from the first block of the run. That is right as long as the
calls of the run are numbered 0, 1, 2, … in the run, and each of them is started in it.

`NewApiPool.Convert.blocksInOrder` is this condition. It fails where tool calls go on after
a text, since the numbers of the second run do not begin at 0, and where the first chunk
has two calls, of which only the first is read.
-/

namespace NewApiPool.Convert

open NumberedBlocks

/-! ### Events as acts on blocks -/

/-- The kind of a block. -/
inductive BlockKind where
  | text
  | thinking
  | toolUse
deriving DecidableEq, Repr

/-- The kind of a block that is started. -/
def ContentBlock.kind : ContentBlock → BlockKind
  | .toolUse .. => .toolUse
  | .thinking => .thinking
  | .text => .text

/-- The kind of block a delta is for. -/
def BlockDelta.kind : BlockDelta → BlockKind
  | .inputJson _ => .toolUse
  | .thinking _ => .thinking
  | .text _ => .text

/-- The kind of block a text is for. -/
def Prose.kind : Prose → BlockKind
  | .thinking => .thinking
  | .text => .text

/-- What an event does to a block. -/
def Event.act : Event → Option (Act BlockKind)
  | .contentBlockStart index block => some (.start index block.kind)
  | .contentBlockDelta index delta => some (.delta index delta.kind)
  | .contentBlockStop index => some (.stop index)
  | .messageStart .. | .messageDelta .. | .messageStop => none

/-- What events do to the blocks. -/
def acts (events : List Event) : List (Act BlockKind) := events.filterMap Event.act

@[simp] theorem acts_append (es fs : List Event) : acts (es ++ fs) = acts es ++ acts fs :=
  List.filterMap_append

@[simp] theorem acts_nil : acts [] = [] := rfl

theorem acts_content (events : List Event) : acts (content events) = acts events := by
  rw [acts, content, List.filterMap_filter]
  exact List.filterMap_congr fun e _ => by cases e <;> rfl

/-! ### The condition -/

/-- A run of tool calls: how many were started, and the greatest offset mentioned. -/
structure ToolRun where
  started : Int
  maxOffset : Int
deriving DecidableEq, Repr

/-- A call takes its place in a run: one that is started comes next, and arguments are for
a call that is started. -/
def ToolRun.add (run : ToolRun) (call : CallPiece) : Option ToolRun :=
  if call.start.isSome then
    if call.offset = run.started then
      some ⟨run.started + 1, max run.maxOffset call.offset⟩
    else none
  else if call.arguments = "" ∨ (0 ≤ call.offset ∧ call.offset < run.started) then
    some ⟨run.started, max run.maxOffset call.offset⟩
  else none

def ToolRun.addAll (run : ToolRun) : List CallPiece → Option ToolRun
  | [] => some run
  | call :: calls => (run.add call).bind fun run => run.addAll calls

/-- A run may end if every call it mentions is started. -/
def ToolRun.complete (run : ToolRun) : Bool := decide (run.maxOffset < run.started)

/-- **The pieces number their calls in order**: each run of tool calls does from 0 on, and
is complete before a text or the end. -/
def blocksInOrder (run : Option ToolRun) : List Piece → Bool
  | [] => run.all ToolRun.complete
  | .prose .. :: ps => run.all ToolRun.complete && blocksInOrder none ps
  | .calls calls :: ps =>
    ((run.getD ⟨0, 0⟩).addAll calls).any fun run => blocksInOrder (some run) ps

/-! ### The board under a cursor -/

/-- A cursor, and the run of tool calls it is in. -/
inductive Tracks : Cursor → Option ToolRun → Prop
  | idle (index : Int) : Tracks (.idle index) none
  | prose (kind : Prose) (index : Int) : Tracks (.prose kind index) none
  | tools {base started m : Int} (hstarted : 0 ≤ started) (hm : 0 ≤ m)
    (hle : started ≤ m + 1) : Tracks (.tools base m) (some ⟨started, m⟩)

/-- The blocks that are open. -/
def board : Cursor → Option ToolRun → Board BlockKind
  | .idle index, _ => .clear index
  | .prose kind index, _ => ⟨index + 1, interval index (index + 1) kind.kind⟩
  | .tools base _, run =>
    ⟨base + (run.getD ⟨0, 0⟩).started,
      interval base (base + (run.getD ⟨0, 0⟩).started) .toolUse⟩

theorem acts_tools_stops (base : Int) (n : Nat) :
    acts ((List.range n).map fun offset : Nat => Event.contentBlockStop (base + offset)) =
      (List.range n).map fun offset : Nat => Act.stop (base + offset) := by
  rw [acts, List.filterMap_map, ← List.filterMap_eq_map]
  rfl

variable {c : Cursor} {run : Option ToolRun}

/-- **What is open can be stopped** if the run is complete, and nothing is open then. -/
theorem run_stops (h : Tracks c run) :
    (board c run).run (acts c.stops) =
      if run.all ToolRun.complete then some (.clear c.next) else none := by
  cases h with
  | idle index => rfl
  | prose kind index =>
    simp only [Cursor.stops, acts, List.filterMap_cons, Event.act, List.filterMap_nil,
      Board.run_cons, Board.run_nil, board, Board.step]
    rw [if_pos (isSome_interval.mpr ⟨le_rfl, Int.lt_succ index⟩), update_interval_stop,
      interval_of_le le_rfl]
    rfl
  | @tools base started m hstarted hm hle =>
    simp only [Cursor.stops, board, acts_tools_stops, Board.run_stops, Option.getD_some,
      Option.all_some, ToolRun.complete, Cursor.next]
    have hcast : ((m + 1).toNat : Int) = m + 1 := Int.toNat_of_nonneg (by omega)
    by_cases hlt : m < started
    · have heq : started = m + 1 := by omega
      rw [if_pos (by omega), hcast, heq, interval_of_le le_rfl, ← add_assoc]
      simp [Board.clear]
    · rw [if_neg (by omega)]
      simp [hlt]

theorem acts_call (base : Int) (call : CallPiece) :
    acts (call.events base) =
      (if call.start.isSome then [Act.start (base + call.offset) BlockKind.toolUse] else []) ++
        if call.arguments ≠ "" then [Act.delta (base + call.offset) BlockKind.toolUse]
        else [] := by
  unfold CallPiece.events
  by_cases hargs : call.arguments = "" <;> rcases call.start with _ | ⟨id, name⟩ <;>
    simp [hargs, acts, Event.act, ContentBlock.kind, BlockDelta.kind]

/-- The board in a run of tool calls. -/
def toolBoard (base started : Int) : Board BlockKind :=
  ⟨base + started, interval base (base + started) .toolUse⟩

theorem toolBoard_start {base started : Int} (h : 0 ≤ started) (offset : Int) :
    (toolBoard base started).step (.start (base + offset) .toolUse) =
      if offset = started then some (toolBoard base (started + 1)) else none := by
  unfold toolBoard
  rw [Board.step_start]
  dsimp only
  by_cases hnext : offset = started
  · rw [if_pos (by omega), if_pos hnext, hnext, update_interval_start (by omega), ← add_assoc]
  · rw [if_neg (by omega), if_neg hnext]

theorem toolBoard_delta (base started offset : Int) :
    (toolBoard base started).step (.delta (base + offset) .toolUse) =
      if 0 ≤ offset ∧ offset < started then some (toolBoard base started) else none := by
  unfold toolBoard
  rw [Board.step_delta]
  refine if_congr ?_ rfl rfl
  rw [interval_eq_some]
  omega

/-- **A call on the board** does what it does to the run. -/
theorem run_call {base : Int} {run : ToolRun} (h : 0 ≤ run.started) (call : CallPiece) :
    (toolBoard base run.started).run (acts (call.events base)) =
      (run.add call).map fun run' => toolBoard base run'.started := by
  rw [acts_call, Board.run_append, ToolRun.add]
  rcases call.start with _ | start
  · by_cases hargs : call.arguments = ""
    · simp [hargs]
    · simp only [Option.isSome_none, Bool.false_eq_true, if_false, Board.run_nil,
        Option.bind_some, ne_eq, hargs, not_false_eq_true, if_true, Board.run_cons,
        toolBoard_delta, false_or]
      split_ifs <;> rfl
  · simp only [Option.isSome_some, if_true, Board.run_cons, toolBoard_start h, Board.run_nil]
    by_cases hnext : call.offset = run.started
    · have hdelta := toolBoard_delta base (run.started + 1) call.offset
      rw [if_pos (by omega)] at hdelta
      rw [if_pos hnext, if_pos hnext]
      split_ifs <;> simp [hdelta]
    · rw [if_neg hnext, if_neg hnext]
      rfl

theorem ToolRun.add_maxOffset {run run' : ToolRun} {call : CallPiece}
    (h : run.add call = some run') :
    run'.maxOffset = max run.maxOffset call.offset ∧ run.started ≤ run'.started ∧
      (run.started ≤ run.maxOffset + 1 → run'.started ≤ run'.maxOffset + 1) := by
  unfold ToolRun.add at h
  split_ifs at h with hstart hnext hargs
  · cases h
    refine ⟨rfl, ?_, fun _ => ?_⟩
    · exact (Int.lt_succ run.started).le
    · dsimp only
      omega
  · cases h
    refine ⟨rfl, le_rfl, fun hle => ?_⟩
    dsimp only
    omega

/-- **Calls on the board** do what they do to the run. -/
theorem run_calls {base : Int} (run : ToolRun) (h : 0 ≤ run.started) (calls : List CallPiece) :
    (toolBoard base run.started).run (acts (calls.flatMap (CallPiece.events base))) =
      (run.addAll calls).map fun run' => toolBoard base run'.started := by
  induction calls generalizing run with
  | nil => rfl
  | cons call calls ih =>
    rw [List.flatMap_cons, acts_append, Board.run_append, run_call h, ToolRun.addAll]
    rcases hadd : run.add call with _ | run'
    · rfl
    · exact ih run' (h.trans (ToolRun.add_maxOffset hadd).2.1)

theorem ToolRun.addAll_maxOffset {run run' : ToolRun} {calls : List CallPiece}
    (h : run.addAll calls = some run') :
    run'.maxOffset = Convert.maxOffset run.maxOffset calls ∧ run.started ≤ run'.started ∧
      (run.started ≤ run.maxOffset + 1 → run'.started ≤ run'.maxOffset + 1) := by
  induction calls generalizing run with
  | nil =>
    cases h
    exact ⟨rfl, le_rfl, id⟩
  | cons call calls ih =>
    rw [ToolRun.addAll, Option.bind_eq_some_iff] at h
    obtain ⟨mid, hadd, hrest⟩ := h
    obtain ⟨hmax, hle, hbound⟩ := ToolRun.add_maxOffset hadd
    obtain ⟨hmax', hle', hbound'⟩ := ih hrest
    refine ⟨?_, hle.trans hle', fun h => hbound' (hbound h)⟩
    rw [hmax', hmax]
    rfl

/-! ### Pieces on the board -/

theorem toolBoard_zero (base : Int) : toolBoard base 0 = .clear base := by
  rw [toolBoard, add_zero, interval_of_le le_rfl]
  rfl

/-- A text starts a block, after the open ones are stopped. -/
theorem run_begin_prose (h : Tracks c run) (kind : Prose) (s : String) :
    (board c run).run (acts (c.stops ++ [.contentBlockStart c.next kind.block,
        .contentBlockDelta c.next (kind.delta s)])) =
      if run.all ToolRun.complete then some (board (.prose kind c.next) none) else none := by
  have hkind : kind.block.kind = kind.kind ∧ (kind.delta s).kind = kind.kind := by
    cases kind <;> exact ⟨rfl, rfl⟩
  rw [acts_append, Board.run_append, run_stops h]
  split_ifs
  · simp only [acts, List.filterMap_cons, Event.act, List.filterMap_nil, hkind.1, hkind.2,
      Option.bind_some, Board.run_cons, Board.run_nil, Board.step, Board.clear, if_true,
      update_clear, interval_eq_some.mpr ⟨le_refl c.next, Int.lt_succ c.next⟩]
    rfl
  · rfl

theorem run_feed_prose (h : Tracks c run) (kind : Prose) (s : String) :
    (board c run).run (acts (c.feed (.prose kind s)).2) =
        (if run.all ToolRun.complete then some (board (c.feed (.prose kind s)).1 none)
          else none) ∧
      Tracks (c.feed (.prose kind s)).1 none := by
  have hbegin := run_begin_prose h kind s
  cases h with
  | idle index => exact ⟨hbegin, .prose ..⟩
  | tools => exact ⟨hbegin, .prose ..⟩
  | prose kind' index =>
    by_cases hkind : kind' = kind
    · subst hkind
      have hfeed : (Cursor.prose kind' index).feed (.prose kind' s) =
          (.prose kind' index, [.contentBlockDelta index (kind'.delta s)]) := by
        simp only [Cursor.feed, if_true]
      have hdelta : (kind'.delta s).kind = kind'.kind := by cases kind' <;> rfl
      rw [hfeed]
      refine ⟨?_, .prose ..⟩
      simp [acts, Event.act, hdelta, board, Board.step_delta,
        interval_eq_some.mpr ⟨le_refl index, Int.lt_succ index⟩]
    · have hfeed : (Cursor.prose kind' index).feed (.prose kind s) =
          (.prose kind (index + 1), (Cursor.prose kind' index).stops ++
            [.contentBlockStart (index + 1) kind.block,
              .contentBlockDelta (index + 1) (kind.delta s)]) := by
        simp only [Cursor.feed, if_neg hkind, Cursor.next]
      rw [hfeed]
      exact ⟨hbegin, .prose ..⟩

/-- Calls begin a run, after the open block is stopped. -/
theorem run_begin_calls (h : Tracks c none) (calls : List CallPiece) :
    (board c none).run (acts (c.stops ++ calls.flatMap (CallPiece.events c.next))) =
      ((ToolRun.mk 0 0).addAll calls).map fun run => toolBoard c.next run.started := by
  rw [acts_append, Board.run_append, run_stops h, Option.all_none, if_pos rfl, Option.bind_some,
    ← toolBoard_zero]
  exact run_calls ⟨0, 0⟩ le_rfl calls

theorem run_feed_calls (h : Tracks c run) (calls : List CallPiece) :
    (board c run).run (acts (c.feed (.calls calls)).2) = ((run.getD ⟨0, 0⟩).addAll calls).map
          (fun run' => board (c.feed (.calls calls)).1 (some run')) ∧
      ∀ run', (run.getD ⟨0, 0⟩).addAll calls = some run' →
        Tracks (c.feed (.calls calls)).1 (some run') := by
  have hnew : ∀ run', (ToolRun.mk 0 0).addAll calls = some run' →
      ∀ base, Tracks (.tools base (maxOffset 0 calls)) (some run') := by
    intro run' hadd base
    obtain ⟨hmax, hle, hbound⟩ := ToolRun.addAll_maxOffset hadd
    obtain ⟨started, m⟩ := run'
    dsimp only at hmax hle hbound
    subst hmax
    exact .tools hle (le_maxOffset 0 calls) (hbound (by decide))
  cases h with
  | idle index => exact ⟨run_begin_calls (.idle index) calls, fun run' hadd => hnew run' hadd _⟩
  | prose kind index =>
    exact ⟨run_begin_calls (.prose kind index) calls, fun run' hadd => hnew run' hadd _⟩
  | @tools base started m hstarted hm hle =>
    refine ⟨run_calls ⟨started, m⟩ hstarted calls, ?_⟩
    rintro ⟨started', m'⟩ hadd
    obtain ⟨hmax, hle', hbound⟩ := ToolRun.addAll_maxOffset hadd
    dsimp only at hmax hle' hbound
    subst hmax
    exact .tools (hstarted.trans hle') (hm.trans (le_maxOffset m calls)) (hbound hle)

/-- **The pieces of a stream are disciplined** if they number their calls in order. -/
theorem run_feedAll (h : Tracks c run) (ps : List Piece) :
    (∃ next, (board c run).run (acts ((c.feedAll ps).2 ++ (c.feedAll ps).1.stops)) =
      some (.clear next)) ↔ blocksInOrder run ps = true := by
  induction ps generalizing c run with
  | nil =>
    simp only [Cursor.feedAll, List.nil_append, run_stops h, blocksInOrder]
    split_ifs with hrun
    · exact iff_of_true ⟨_, rfl⟩ hrun
    · exact iff_of_false (by rintro ⟨_, ⟨⟩⟩) hrun
  | cons p ps ih =>
    simp only [Cursor.feedAll, List.append_assoc]
    rw [acts_append]
    simp only [Board.run_append]
    cases p with
    | prose kind s =>
      obtain ⟨hrun, htracks⟩ := run_feed_prose h kind s
      rw [hrun, blocksInOrder]
      split_ifs with hcomplete
      · rw [Option.bind_some, ih htracks, hcomplete, Bool.true_and]
      · refine iff_of_false (by rintro ⟨_, ⟨⟩⟩) ?_
        rw [Bool.eq_false_iff.mpr hcomplete]
        exact Bool.false_ne_true
    | calls calls =>
      obtain ⟨hrun, htracks⟩ := run_feed_calls h calls
      rw [hrun, blocksInOrder]
      rcases hadd : (run.getD ⟨0, 0⟩).addAll calls with _ | run'
      · exact iff_of_false (by rintro ⟨_, ⟨⟩⟩) Bool.false_ne_true
      · exact ih (htracks run' hadd)

/-! ### Streams -/

/-- The stream is ended by a finish reason with usage: both in its last chunk, or the usage
in a last chunk without choices, after the finish reason. -/
def Ended (chunks : List Chunk) : Prop :=
  ∃ body last, chunks = body ++ [last] ∧ last.usage.isSome = true ∧
    (last.isFinished = true ∨ (last.choices = [] ∧ ∃ chunk ∈ body, chunk.isFinished = true))

theorem closesIn_append (known : Bool) (chunks : List Chunk) (last : Chunk)
    (h : ∀ known, last.closes known = true) : closesIn known (chunks ++ [last]) = true := by
  induction chunks generalizing known with
  | nil => simp [closesIn, h]
  | cons chunk chunks ih => rw [List.cons_append, closesIn, ih, Bool.or_true]

theorem Ended.streamDone {chunks : List Chunk} (h : Ended chunks) : streamDone chunks = true := by
  obtain ⟨body, last, rfl, husage, hend⟩ := h
  have hcloses : ∀ known, last.closes known = true := by
    intro known
    rcases hchoices : last.choices with _ | ⟨choice, choices⟩
    · rw [Chunk.closes_of_no_choice hchoices, husage, Bool.true_or]
    · rcases hend with hfin | ⟨hnil, -⟩
      · rw [Chunk.isFinished, hchoices] at hfin
        rw [Chunk.closes_of_choice hchoices, husage, Bool.and_true]
        simpa using hfin
      · rw [hchoices] at hnil
        cases hnil
  rcases body with _ | ⟨first, body⟩
  · rcases hend with hfin | ⟨-, chunk, hmem, -⟩
    · rw [List.nil_append, Convert.streamDone, hfin, Bool.true_or]
    · cases hmem
  · rw [List.cons_append, Convert.streamDone, closesIn_append _ _ _ hcloses, Bool.or_true]

theorem disciplined_of_streamDone (promptTokens : Int) {chunks : List Chunk}
    (h : streamDone chunks = true) :
    Disciplined (acts (handleStream { estimatePromptTokens := promptTokens } chunks).2) ↔
      blocksInOrder none (pieces chunks) = true := by
  rw [← acts_content, content_handleStream, h, if_pos rfl]
  exact run_feedAll (.idle 0) (pieces chunks)

/-- **Which streams are disciplined**: those that are read as pieces with their calls in
order. -/
theorem disciplined_iff_blocksInOrder (promptTokens : Int) {chunks : List Chunk}
    (h : Ended chunks) :
    Disciplined (acts (handleStream { estimatePromptTokens := promptTokens } chunks).2) ↔
      blocksInOrder none (pieces chunks) = true :=
  disciplined_of_streamDone promptTokens h.streamDone

/-- A text and two calls side by side. -/
theorem disciplined_two_calls :
    let chunks : List Chunk :=
      [{ choices := [{ delta := { content := some "Hi" } }] },
        { choices := [{ delta := { toolCalls :=
            [{ index := some 0, id := "a", name := "f", arguments := "\x7b" },
              { index := some 1, id := "b", name := "g" }] } }] },
        { choices := [{ delta := { toolCalls := [{ index := some 0, arguments := "\x7d" }] } }] },
        { choices := [{ finishReason := some "tool_calls" }], usage := some {} }]
    Ended chunks ∧ Disciplined (acts (handleStream { estimatePromptTokens := 3 } chunks).2) := by
  intro chunks
  have hend : Ended chunks :=
    ⟨chunks.take 3, { choices := [{ finishReason := some "tool_calls" }], usage := some {} }, rfl,
      rfl, Or.inl rfl⟩
  exact ⟨hend, (disciplined_iff_blocksInOrder 3 hend).mpr (by decide)⟩

/-- The deltas of tool calls in a stream. -/
def callDeltas (chunks : List Chunk) : List CallPiece :=
  chunks.flatMap fun chunk =>
    chunk.choices.head?.elim [] fun choice => toolPieces choice.delta.toolCalls

/-- The calls appear as 0, 1, 2, …, each with its name at its first delta; `k` of them have
appeared. -/
def wellNumbered (k : Int) : List CallPiece → Bool
  | [] => true
  | call :: calls =>
    if 0 ≤ call.offset ∧ call.offset < k then wellNumbered k calls
    else call.offset = k && call.start.isSome && wellNumbered (k + 1) calls

/-- Call 0, a text, and call 1: the block of call 1 is 3, although 2 is the next. -/
theorem not_disciplined_call_text_call :
    let chunks : List Chunk :=
      [{ choices := [{ delta := { content := some "" } }] },
        { choices := [{ delta := { toolCalls :=
            [{ index := some 0, id := "a", name := "f", arguments := "\x7b\x7d" }] } }] },
        { choices := [{ delta := { content := some "Hi" } }] },
        { choices := [{ delta := { toolCalls :=
            [{ index := some 1, id := "b", name := "g", arguments := "\x7b\x7d" }] } }] },
        { choices := [{ finishReason := some "tool_calls" }], usage := some {} }]
    Ended chunks ∧ wellNumbered 0 (callDeltas chunks) = true ∧
      Event.contentBlockStart 3 (.toolUse "b" "g") ∈ (handleStream {} chunks).2 ∧
      ¬ Disciplined (acts (handleStream {} chunks).2) := by
  intro chunks
  refine ⟨⟨chunks.take 4, { choices := [{ finishReason := some "tool_calls" }], usage := some {} },
    rfl, rfl, Or.inl rfl⟩, by decide, by decide, ?_⟩
  exact fun h => absurd ((disciplined_of_streamDone 0 (by decide)).mp h) (by decide)

end NewApiPool.Convert
