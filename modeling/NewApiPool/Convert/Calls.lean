import Mathlib.Data.List.Dedup
import NewApiPool.Convert.Content
import NewApiPool.Lib.Collect

/-!
# The tool calls of a converted stream

A Claude client puts a tool call together from its block: the id and the name of the start,
and the pieces of JSON under the same index. An OpenAI client puts it together from the
deltas with its tool index. `NewApiPool.Convert.Preserved` says that the two get the same
calls, and the same text and reasoning.

A delta that is read goes to the block at its tool index counted from the first block of
its run. As the runs have different blocks (`NewApiPool.Convert.tagged_keys`), the client
sees for each delta the run and the index; and what it makes of one call does not depend on
the others. So the question is one about the deltas of one call: one of them names it, none
before has arguments, and all after it with arguments are read in the same run.
-/

namespace NewApiPool.Convert

open Collect GoText

/-! ### Blocks as collected marks -/

/-- What a client that collects tool calls makes of an event. -/
def Event.mark : Event → Option (Mark Int (String × String))
  | .contentBlockStart index (.toolUse id name) => some ⟨some index, some (id, name), ""⟩
  | .contentBlockDelta index (.inputJson s) => some ⟨some index, none, s⟩
  | _ => none

/-- **The tool calls a Claude client collects**: id, name and arguments. -/
def toolBlocks (events : List Event) : List ((String × String) × String) :=
  collect (events.filterMap Event.mark)

/-- Which run of tool calls the stream is in, or was in last. -/
structure RunState where
  run : Nat
  inRun : Bool
deriving DecidableEq, Repr

/-- The run a tool call is in: the open one, or a new one. -/
def RunState.enter (s : RunState) : Nat := if s.inRun then s.run else s.run + 1

/-- The state after a piece. -/
def RunState.feed (s : RunState) : Piece → RunState
  | .prose .. => ⟨s.run, false⟩
  | .calls _ => ⟨s.enter, true⟩

/-- The block at offset 0 of a run that is open or begins here. -/
def Cursor.base : Cursor → Int
  | .tools base _ => base
  | c => c.next

/-- The calls that are read, each with the first block and the number of its run. -/
def tagged (c : Cursor) (s : RunState) : List Piece → List (Int × Nat × CallPiece)
  | [] => []
  | .prose kind t :: ps => tagged (c.feed (.prose kind t)).1 (s.feed (.prose kind t)) ps
  | .calls calls :: ps =>
    calls.map (fun call => (c.base, s.enter, call)) ++
      tagged (c.feed (.calls calls)).1 (s.feed (.calls calls)) ps

/-- A call as a mark under its block. -/
def blockMark (x : Int × Nat × CallPiece) : Mark Int (String × String) :=
  ⟨some (x.1 + x.2.2.offset), x.2.2.start, x.2.2.arguments⟩

/-- A call as a mark under its run and its offset. -/
def runMark (x : Int × Nat × CallPiece) : Mark (Nat × Int) (String × String) :=
  ⟨some (x.2.1, x.2.2.offset), x.2.2.start, x.2.2.arguments⟩

theorem filterMap_mark_stops (c : Cursor) : c.stops.filterMap Event.mark = [] := by
  rw [List.filterMap_eq_nil_iff]
  intro e he
  cases c with
  | idle => cases he
  | prose =>
    rw [List.mem_singleton.mp he]
    rfl
  | tools =>
    obtain ⟨offset, -, rfl⟩ := List.mem_map.mp he
    rfl

theorem filterMap_mark_prose (c : Cursor) (kind : Prose) (t : String) :
    (c.feed (.prose kind t)).2.filterMap Event.mark = [] := by
  have hbegin : ∀ i, (c.stops ++ [Event.contentBlockStart i kind.block,
      Event.contentBlockDelta i (kind.delta t)]).filterMap Event.mark = [] := by
    intro i
    rw [List.filterMap_append, filterMap_mark_stops]
    cases kind <;> rfl
  cases c with
  | idle => exact hbegin _
  | tools => exact hbegin _
  | prose kind' i =>
    by_cases hkind : kind' = kind
    · simp only [Cursor.feed, if_pos hkind]
      cases kind <;> rfl
    · simp only [Cursor.feed, if_neg hkind]
      exact hbegin _

theorem filterMap_mark_calls (c : Cursor) (calls : List CallPiece) :
    (c.feed (.calls calls)).2.filterMap Event.mark =
      (calls.flatMap (CallPiece.events c.base)).filterMap Event.mark := by
  cases c with
  | tools base m => rfl
  | idle i =>
    simp only [Cursor.feed, List.filterMap_append, filterMap_mark_stops]
    rfl
  | prose kind i =>
    simp only [Cursor.feed, List.filterMap_append, filterMap_mark_stops]
    rfl

theorem same_call (base : Int) (run : Nat) (call : CallPiece)
    {ms ns : List (Mark Int (String × String))} (h : Same ms ns) :
    Same ((call.events base).filterMap Event.mark ++ ms) (blockMark (base, run, call) :: ns) := by
  rcases call with ⟨offset, _ | ⟨id, name⟩, arguments⟩
  · by_cases hargs : arguments = ""
    · subst hargs
      exact h.trans ⟨(same_cons_empty _ ns).collect.symm, fun k =>
        ((same_cons_empty _ ns).textAt k).symm⟩
    · simp only [CallPiece.events, hargs, ne_eq, not_false_eq_true, if_true, List.nil_append,
        List.filterMap_cons, Event.mark, List.filterMap_nil, List.singleton_append]
      exact h.cons _
  · by_cases hargs : arguments = ""
    · subst hargs
      simp only [CallPiece.events, ne_eq, not_true_eq_false, if_false, List.append_nil,
        List.filterMap_cons, Event.mark, List.filterMap_nil, List.singleton_append]
      exact h.cons _
    · simp only [CallPiece.events, hargs, ne_eq, not_false_eq_true, if_true,
        List.filterMap_cons, Event.mark, List.filterMap_nil, List.cons_append,
        List.nil_append]
      exact ((h.cons _).cons _).trans (same_cons_cons _ _ _ ns)

theorem same_calls (base : Int) (run : Nat) (calls : List CallPiece)
    {ms ns : List (Mark Int (String × String))} (h : Same ms ns) :
    Same ((calls.flatMap (CallPiece.events base)).filterMap Event.mark ++ ms)
      ((calls.map fun call => blockMark (base, run, call)) ++ ns) := by
  induction calls with
  | nil => exact h
  | cons call calls ih =>
    rw [List.flatMap_cons, List.filterMap_append, List.append_assoc]
    exact same_call base run call ih

theorem same_feedAll (c : Cursor) (s : RunState) (ps : List Piece) :
    Same ((c.feedAll ps).2.filterMap Event.mark) ((tagged c s ps).map blockMark) := by
  induction ps generalizing c s with
  | nil => exact .refl _
  | cons p ps ih =>
    rw [Cursor.feedAll, List.filterMap_append]
    cases p with
    | prose kind t =>
      rw [filterMap_mark_prose]
      exact ih _ _
    | calls calls =>
      rw [filterMap_mark_calls, tagged, List.map_append, List.map_map]
      exact same_calls c.base s.enter calls (ih _ _)

theorem toolBlocks_handleStream (promptTokens : Int) (chunks : List Chunk) (s : RunState) :
    toolBlocks (handleStream { estimatePromptTokens := promptTokens } chunks).2 =
      collect ((tagged (.idle 0) s (pieces chunks)).map blockMark) := by
  have hcontent : ∀ events : List Event,
      (content events).filterMap Event.mark = events.filterMap Event.mark := by
    intro events
    rw [content, List.filterMap_filter]
    exact List.filterMap_congr fun e _ => by cases e <;> rfl
  rw [toolBlocks, ← hcontent, content_handleStream, List.filterMap_append]
  have hstops : (if streamDone chunks then ((Cursor.idle 0).feedAll (pieces chunks)).1.stops
      else []).filterMap Event.mark = [] := by
    split_ifs
    · exact filterMap_mark_stops _
    · rfl
  rw [hstops, List.append_nil]
  exact (same_feedAll (.idle 0) s (pieces chunks)).collect

/-! ### The blocks of different runs are different -/

/-- The run state knows whether a run is open. -/
def Agrees : Cursor → RunState → Prop
  | .tools .., s => s.inRun = true
  | .idle _, s | .prose .., s => s.inRun = false

theorem agrees_feed (c : Cursor) (s : RunState) (p : Piece) : Agrees (c.feed p).1 (s.feed p) := by
  cases p with
  | calls calls => cases c <;> rfl
  | prose kind t =>
    cases c with
    | idle => rfl
    | tools => rfl
    | prose kind' i =>
      by_cases hkind : kind' = kind
      · simp only [Cursor.feed, if_pos hkind]
        rfl
      · simp only [Cursor.feed, if_neg hkind]
        rfl

theorem next_le_feed_prose (c : Cursor) (kind : Prose) (t : String) :
    c.next ≤ (c.feed (.prose kind t)).1.next := by
  cases c with
  | idle => exact (Int.lt_succ _).le
  | tools => exact (Int.lt_succ _).le
  | prose kind' i =>
    by_cases hkind : kind' = kind
    · simp only [Cursor.feed, if_pos hkind]
      exact le_rfl
    · simp only [Cursor.feed, if_neg hkind]
      exact (Int.lt_succ _).le

/-- After calls the cursor is in their run, and past them. -/
theorem feed_calls (c : Cursor) (calls : List CallPiece) :
    ∃ m, (c.feed (.calls calls)).1 = .tools c.base m ∧ c.next ≤ c.base + m + 1 ∧
      ∀ call ∈ calls, call.offset ≤ m := by
  have hnew : 0 ≤ maxOffset 0 calls := le_maxOffset 0 calls
  cases c with
  | tools base m =>
    refine ⟨_, rfl, ?_, fun call hcall => offset_le_maxOffset m hcall⟩
    have := le_maxOffset m calls
    simp only [Cursor.next, Cursor.base]
    omega
  | idle i =>
    refine ⟨_, rfl, ?_, fun call hcall => offset_le_maxOffset 0 hcall⟩
    simp only [Cursor.next, Cursor.base]
    omega
  | prose kind i =>
    refine ⟨_, rfl, ?_, fun call hcall => offset_le_maxOffset 0 hcall⟩
    simp only [Cursor.next, Cursor.base]
    omega

variable {c : Cursor} {s : RunState} {ps : List Piece}

/-- **Where the calls to come are**: in the open run, or in a later run and behind it. -/
theorem tagged_bound (h : Agrees c s) (hpos : ∀ x ∈ tagged c s ps, 0 ≤ x.2.2.offset) :
    ∀ x ∈ tagged c s ps,
      (s.inRun = true ∧ x.2.1 = s.run ∧ x.1 = c.base) ∨
        (s.run < x.2.1 ∧ c.next ≤ x.1 + x.2.2.offset) := by
  induction ps generalizing c s with
  | nil => exact fun x hx => nomatch hx
  | cons p ps ih =>
    cases p with
    | prose kind t =>
      intro x hx
      rcases ih (agrees_feed c s _) hpos x hx with ⟨hfalse, -⟩ | ⟨hrun, hnext⟩
      · cases hfalse
      · exact Or.inr ⟨hrun, (next_le_feed_prose c kind t).trans hnext⟩
    | calls calls =>
      obtain ⟨m, hfeed, hnext, -⟩ := feed_calls c calls
      rw [tagged, List.forall_mem_append] at hpos
      -- a call of the run these calls are in
      have hhere : ∀ x : Int × Nat × CallPiece, x.1 = c.base → x.2.1 = s.enter →
          0 ≤ x.2.2.offset → (s.inRun = true ∧ x.2.1 = s.run ∧ x.1 = c.base) ∨
            (s.run < x.2.1 ∧ c.next ≤ x.1 + x.2.2.offset) := by
        intro x hbase hrun hoffset
        rw [hrun, hbase]
        rcases hin : s.inRun
        · right
          have hidle : c.base = c.next := by
            cases c with
            | tools => exact absurd (h.symm.trans hin) (by decide)
            | idle => rfl
            | prose => rfl
          rw [hidle, RunState.enter, hin]
          exact ⟨Nat.lt_succ_self _, le_add_of_nonneg_right hoffset⟩
        · exact Or.inl ⟨rfl, if_pos hin, rfl⟩
      intro x hx
      rcases List.mem_append.mp hx with hx | hx
      · have hoffset := hpos.1 x hx
        obtain ⟨call, -, rfl⟩ := List.mem_map.mp hx
        exact hhere _ rfl rfl hoffset
      · rcases ih (agrees_feed c s _) hpos.2 x hx with ⟨-, hrun, hbase⟩ | ⟨hrun, hafter⟩
        · rw [hfeed] at hbase
          exact hhere x hbase hrun (hpos.2 x hx)
        · rw [hfeed] at hafter
          refine Or.inr ⟨lt_of_le_of_lt ?_ hrun, hnext.trans hafter⟩
          change s.run ≤ if s.inRun then s.run else s.run + 1
          split_ifs
          · exact le_rfl
          · exact Nat.le_succ _

/-- **The runs have different blocks**: two calls have the same block exactly if they have
the same run and the same offset. -/
theorem tagged_keys (hpos : ∀ x ∈ tagged c s ps, 0 ≤ x.2.2.offset) :
    ∀ x ∈ tagged c s ps, ∀ y ∈ tagged c s ps,
      (blockMark y).key = (blockMark x).key ↔ (runMark y).key = (runMark x).key := by
  induction ps generalizing c s with
  | nil => exact fun x hx => nomatch hx
  | cons p ps ih =>
    cases p with
    | prose kind t => exact ih hpos
    | calls calls =>
      obtain ⟨m, hfeed, -, hmax⟩ := feed_calls c calls
      rw [tagged, List.forall_mem_append] at hpos
      have hbound := tagged_bound (agrees_feed c s (.calls calls)) hpos.2
      rw [hfeed] at hbound
      -- a call of this piece and one to come
      have hmixed : ∀ call ∈ calls, ∀ y ∈ tagged (c.feed (.calls calls)).1
          (s.feed (.calls calls)) ps,
          y.1 + y.2.2.offset = c.base + call.offset ↔
            (y.2.1, y.2.2.offset) = (s.enter, call.offset) := by
        intro call hcall y hy
        rw [hfeed] at hy
        have hle := hmax call hcall
        rw [Prod.mk.injEq]
        rcases hbound y hy with ⟨-, hrun, hbase⟩ | ⟨hrun, hafter⟩
        · rw [hbase, hrun]
          change c.base + _ = _ ↔ s.enter = s.enter ∧ _
          omega
        · change s.enter < y.2.1 at hrun
          change c.base + m + 1 ≤ _ at hafter
          omega
      intro x hx y hy
      simp only [blockMark, runMark, Option.some.injEq]
      rcases List.mem_append.mp hx with hx | hx <;> rcases List.mem_append.mp hy with hy | hy
      · obtain ⟨call, -, rfl⟩ := List.mem_map.mp hx
        obtain ⟨call', -, rfl⟩ := List.mem_map.mp hy
        simp
      · obtain ⟨call, hcall, rfl⟩ := List.mem_map.mp hx
        exact hmixed call hcall y hy
      · obtain ⟨call, hcall, rfl⟩ := List.mem_map.mp hy
        rw [eq_comm, @eq_comm _ (_, _)]
        exact hmixed call hcall x hx
      · simpa [blockMark, runMark] using ih hpos.2 x hx y hy

/-- So the client sees for each call the run and the offset. -/
theorem collect_blockMark (hpos : ∀ x ∈ tagged c s ps, 0 ≤ x.2.2.offset) :
    collect ((tagged c s ps).map blockMark) = collect ((tagged c s ps).map runMark) :=
  collect_congr (fun _ => rfl) (fun _ => rfl) (fun _ => rfl) (tagged_keys hpos)

/-! ### The deltas of tool calls, and how they are read -/

/-- A delta of a tool call: its tool index, the run it is read in if it is read, and
whether it starts a block. -/
structure CallDelta where
  index : Int
  call : ToolCall
  run : Option Nat
  starts : Bool
deriving DecidableEq, Repr

/-- The tool calls of a delta with their tool indices. -/
def Delta.indexed (delta : Delta) : List (Int × ToolCall) :=
  delta.toolCalls.zipIdx.map fun c => (c.1.offset c.2, c.1)

/-- A call that is not read. -/
def unreadCall (c : Int × ToolCall) : CallDelta := ⟨c.1, c.2, none, false⟩

/-- A call of a later chunk. -/
def laterCall (run : Nat) (c : Int × ToolCall) : CallDelta :=
  ⟨c.1, c.2, some run, c.2.name ≠ ""⟩

/-- How the calls of a delta are read. -/
def readCalls (run : Nat) (x : Delta × Reading) : List CallDelta :=
  match x.2, x.1.indexed with
  | .first, c :: cs => ⟨c.1, c.2, some run, true⟩ :: cs.map unreadCall
  | .first, [] => []
  | .later, cs => cs.map (laterCall run)
  | .skipped, cs => cs.map unreadCall

/-- **The deltas of the tool calls of a stream**, as they are read. -/
def callTrace (s : RunState) : List (Delta × Reading) → List CallDelta
  | [] => []
  | x :: xs => readCalls s.enter x ++ callTrace ((readPieces x).foldl RunState.feed s) xs

/-- The delta as a mark under its run and its tool index. -/
def CallDelta.mark (d : CallDelta) : Mark (Nat × Int) (String × String) :=
  ⟨d.run.map (·, d.index), if d.starts then some (d.call.id, d.call.name) else none,
    d.call.arguments⟩

theorem map_readCalls (run : Nat) (x : Delta × Reading) :
    (readCalls run x).map (fun d => (d.index, d.call)) = x.1.indexed := by
  rcases x with ⟨delta, _ | _ | _⟩
  · simp only [readCalls]
    cases delta.indexed with
    | nil => rfl
    | cons c cs => simp [unreadCall, Function.comp_def]
  · simp [readCalls, laterCall, Function.comp_def]
  · simp [readCalls, unreadCall, Function.comp_def]

theorem map_callTrace (s : RunState) (xs : List (Delta × Reading)) :
    (callTrace s xs).map (fun d => (d.index, d.call)) =
      (xs.map Prod.fst).flatMap Delta.indexed := by
  induction xs generalizing s with
  | nil => rfl
  | cons x xs ih =>
    rw [callTrace, List.map_append, map_readCalls, ih, List.map_cons, List.flatMap_cons]

theorem tagged_append (c : Cursor) (s : RunState) (ps qs : List Piece) :
    tagged c s (ps ++ qs) =
      tagged c s ps ++ tagged (c.feedAll ps).1 (ps.foldl RunState.feed s) qs := by
  induction ps generalizing c s with
  | nil => rfl
  | cons p ps ih =>
    cases p with
    | prose kind t => exact ih _ _
    | calls calls =>
      rw [List.cons_append, tagged, ih, ← List.append_assoc]
      rfl

theorem tagged_prosePieces (c : Cursor) (s : RunState) (delta : Delta) :
    tagged c s (prosePieces delta) = [] := by
  unfold prosePieces
  cases delta.prose <;> rfl

theorem indexed_cons {delta : Delta} {toolCall : ToolCall} {rest : List ToolCall}
    (h : delta.toolCalls = toolCall :: rest) :
    delta.indexed = (toolCall.offset 0, toolCall) ::
      (rest.zipIdx 1).map fun c => (c.1.offset c.2, c.1) := by
  rw [Delta.indexed, h]
  rfl

/-- The first call of the first chunk has tool index 0, which it is read as. -/
def firstAtZero (xs : List (Delta × Reading)) : Prop :=
  ∀ x ∈ xs, x.2 = .first → ∀ toolCall ∈ x.1.toolCalls.head?, toolCall.offset 0 = 0

/-- What is read of the calls of a delta are the calls of its pieces. -/
theorem map_mark_readCalls (c : Cursor) (s : RunState) {x : Delta × Reading}
    (h : x.2 = .first → ∀ toolCall ∈ x.1.toolCalls.head?, toolCall.offset 0 = 0) :
    ((readCalls s.enter x).map CallDelta.mark).filter (fun m => m.key.isSome) =
      (tagged c s (readPieces x)).map runMark := by
  have hunread : ∀ cs : List (Int × ToolCall),
      ((cs.map unreadCall).map CallDelta.mark).filter (fun m => m.key.isSome) = [] := by
    intro cs
    rw [List.map_map, List.filter_eq_nil_iff]
    intro m hm
    obtain ⟨c, -, rfl⟩ := List.mem_map.mp hm
    exact Bool.false_ne_true
  rcases x with ⟨delta, _ | _ | _⟩
  · rcases hcalls : delta.toolCalls with _ | ⟨toolCall, rest⟩
    · simp only [readCalls, readPieces, firstPieces, Delta.indexed, hcalls, tagged_append,
        tagged_prosePieces]
      rfl
    · have hzero : toolCall.offset 0 = 0 := h rfl toolCall (by rw [hcalls]; rfl)
      simp only [readCalls, indexed_cons hcalls, List.map_cons, readPieces, firstPieces, hcalls,
        tagged_append, tagged_prosePieces]
      rw [List.filter_cons_of_pos rfl, hunread]
      simp [CallDelta.mark, runMark, tagged, ToolCall.firstPiece, hzero]
  · simp only [readCalls, readPieces, contentPieces]
    rcases hcalls : delta.toolCalls with _ | ⟨toolCall, rest⟩
    · rw [if_neg (by simp), tagged_prosePieces, Delta.indexed, hcalls]
      rfl
    · rw [if_pos (List.cons_ne_nil _ _), ← hcalls, Delta.indexed, toolPieces,
        List.filter_eq_self.mpr]
      · simp only [tagged, List.append_nil, List.map_map]
        refine List.map_congr_left fun c _ => ?_
        simp [CallDelta.mark, laterCall, runMark, ToolCall.piece]
      · intro m hm
        obtain ⟨d, hd, rfl⟩ := List.mem_map.mp hm
        obtain ⟨c, -, rfl⟩ := List.mem_map.mp hd
        rfl
  · exact hunread delta.indexed

/-- **What is read of the calls** of a stream are the calls of its pieces. -/
theorem map_mark_callTrace (c : Cursor) (s : RunState) {xs : List (Delta × Reading)}
    (h : firstAtZero xs) :
    ((callTrace s xs).map CallDelta.mark).filter (fun m => m.key.isSome) =
      (tagged c s (xs.flatMap readPieces)).map runMark := by
  induction xs generalizing c s with
  | nil => rfl
  | cons x xs ih =>
    rw [firstAtZero, List.forall_mem_cons] at h
    rw [callTrace, List.flatMap_cons, tagged_append, List.map_append, List.map_append,
      List.filter_append, map_mark_readCalls c s h.1, ih _ _ h.2]

theorem tagged_offset_nonneg (c : Cursor) (s : RunState) {xs : List (Delta × Reading)}
    (h : firstAtZero xs) (hpos : ∀ d ∈ callTrace s xs, 0 ≤ d.index) :
    ∀ x ∈ tagged c s (xs.flatMap readPieces), 0 ≤ x.2.2.offset := by
  intro x hx
  have hmem : runMark x ∈ (callTrace s xs).map CallDelta.mark := by
    have hmark := List.mem_map_of_mem (f := runMark) hx
    rw [← map_mark_callTrace c s h] at hmark
    exact (List.mem_filter.mp hmark).1
  obtain ⟨d, hd, heq⟩ := List.mem_map.mp hmem
  have hkey : d.run.map (·, d.index) = some (x.2.1, x.2.2.offset) := congrArg Mark.key heq
  obtain ⟨r, -, hr⟩ := Option.map_eq_some_iff.mp hkey
  have hindex : d.index = x.2.2.offset := congrArg Prod.snd hr
  rw [← hindex]
  exact hpos d hd

variable {chunks : List Chunk}

/-- **What the client collects** is what it collects of the trace of the deltas. -/
theorem toolBlocks_eq_collect (promptTokens : Int) (s : RunState)
    (h : firstAtZero (readings chunks)) (hpos : ∀ d ∈ callTrace s (readings chunks), 0 ≤ d.index) :
    toolBlocks (handleStream { estimatePromptTokens := promptTokens } chunks).2 =
      collect ((callTrace s (readings chunks)).map CallDelta.mark) := by
  rw [toolBlocks_handleStream promptTokens chunks s, ← flatMap_readings,
    collect_blockMark (tagged_offset_nonneg (.idle 0) s h hpos),
    ← map_mark_callTrace (.idle 0) s h, collect_filter]

/-! ### One call -/

/-- The first of some texts that is not empty. -/
def firstNonempty (texts : List String) : String := (texts.find? (· ≠ "")).getD ""

/-- The deltas of a call. -/
def own (l : List CallDelta) (t : Int) : List CallDelta := l.filter (·.index = t)

/-- **The call an OpenAI client puts together** from deltas with its tool index. -/
def callOf (calls : List (Int × ToolCall)) (t : Int) : (String × String) × String :=
  let deltas := (calls.filter (·.1 = t)).map Prod.snd
  ((firstNonempty (deltas.map (·.id)), firstNonempty (deltas.map (·.name))),
    String.join (deltas.map (·.arguments)))

/-- **A call is kept**: one of its deltas, `s`, starts a block with its id and its name;
none before it has arguments, and those after it that have are read in the same run. -/
def CallKept (deltas : List CallDelta) : Prop :=
  ∃ pre s post, deltas = pre ++ s :: post ∧ s.starts = true ∧
    s.call.id = firstNonempty (deltas.map (·.call.id)) ∧
    s.call.name = firstNonempty (deltas.map (·.call.name)) ∧
    (∀ d ∈ pre, d.starts = false ∧ d.call.arguments = "") ∧
    ∀ d ∈ post, d.starts = false ∧ (d.run ≠ s.run → d.call.arguments = "")

/-- Every call is kept: the deltas that are its own are enough for a client to collect it. -/
def CallsKept (l : List CallDelta) : Prop := ∀ d ∈ l, CallKept (own l d.index)

/-- A delta that starts a block is read. -/
def StartsRead (l : List CallDelta) : Prop := ∀ d ∈ l, d.starts = true → d.run.isSome = true

theorem own_append (l l' : List CallDelta) (t : Int) : own (l ++ l') t = own l t ++ own l' t :=
  List.filter_append ..

theorem own_cons_self (d : CallDelta) (l : List CallDelta) :
    own (d :: l) d.index = d :: own l d.index :=
  List.filter_cons_of_pos (by simp)

variable {l : List CallDelta}

theorem mem_own {t : Int} {d : CallDelta} :
    d ∈ own l t ↔ d ∈ l ∧ d.index = t := by
  simp [own]

theorem callOf_eq (l : List CallDelta) (t : Int) :
    callOf (l.map fun d => (d.index, d.call)) t =
      ((firstNonempty ((own l t).map (·.call.id)), firstNonempty ((own l t).map (·.call.name))),
        String.join ((own l t).map (·.call.arguments))) := by
  simp only [callOf, own, List.filter_map, List.map_map, Function.comp_def]

/-- The text that goes to a block of a call depends on the deltas of that call only. -/
theorem textAt_mark (r : Nat) (t : Int) (l : List CallDelta)
    (h : ∀ d ∈ own l t, d.starts = false) :
    textAt (r, t) (l.map CallDelta.mark) =
      String.join ((own l t).map fun d => if d.run = some r then d.call.arguments else "") := by
  induction l with
  | nil => rfl
  | cons d l ih =>
    rw [List.map_cons, textAt]
    by_cases hindex : d.index = t
    · subst hindex
      rw [own_cons_self, List.forall_mem_cons] at h
      rw [own_cons_self, List.map_cons, String.join_cons, ih h.2]
      have hkey : d.mark.key = some (r, d.index) ↔ d.run = some r := by
        unfold CallDelta.mark
        cases d.run <;> simp
      have hitem : d.mark.item = none := by simp [CallDelta.mark, h.1]
      by_cases hrun : d.run = some r
      · rw [if_pos (hkey.mpr hrun), hitem, if_neg (by simp), if_pos hrun]
        rfl
      · rw [if_neg (fun hk => hrun (hkey.mp hk)), if_neg hrun, String.empty_append]
    · have hkey : d.mark.key ≠ some (r, t) := by
        unfold CallDelta.mark
        cases d.run with
        | none => simp
        | some r' => simp [hindex]
      have hown : own (d :: l) t = own l t := List.filter_cons_of_neg (by simpa using hindex)
      rw [hown] at h ⊢
      rw [if_neg hkey, ih h]

/-- Where a list has one element that meets `p`, it splits there in one way. -/
theorem append_cons_inj_of_unique {α : Type*} {p : α → Bool} {pre pre' post post' : List α}
    {s s' : α} (h : pre ++ s :: post = pre' ++ s' :: post') (hs' : p s' = true)
    (hpre : ∀ x ∈ pre, p x = false) (hpost : ∀ x ∈ post, p x = false) :
    pre = pre' ∧ s = s' ∧ post = post' := by
  induction pre generalizing pre' with
  | nil =>
    cases pre' with
    | nil => simpa using h
    | cons x pre' =>
      simp only [List.nil_append, List.cons_append, List.cons.injEq] at h
      have hmem : s' ∈ post := by rw [h.2]; simp
      exact absurd (hs'.symm.trans (hpost s' hmem)) (by decide)
  | cons y pre ih =>
    rw [List.forall_mem_cons] at hpre
    cases pre' with
    | nil =>
      simp only [List.nil_append, List.cons_append, List.cons.injEq] at h
      rw [← h.1] at hs'
      exact absurd (hs'.symm.trans hpre.1) (by decide)
    | cons x pre' =>
      simp only [List.cons_append, List.cons.injEq] at h
      obtain ⟨h1, h2, h3⟩ := ih h.2 hpre.2
      exact ⟨by rw [h.1, h1], h2, h3⟩

/-- The text of a call that is kept is all in its block. -/
theorem join_of_kept {pre post : List CallDelta} {s : CallDelta} {r : Nat} (hrun : s.run = some r)
    (hpre : ∀ d ∈ pre, d.call.arguments = "")
    (hpost : ∀ d ∈ post, d.run ≠ s.run → d.call.arguments = "") :
    s.call.arguments ++
        String.join (post.map fun d => if d.run = some r then d.call.arguments else "") =
      String.join ((pre ++ s :: post).map (·.call.arguments)) := by
  have hnil : String.join (pre.map (·.call.arguments)) = "" := by
    rw [join_eq_empty_iff, List.forall_mem_map]
    exact hpre
  rw [List.map_append, String.join_append, hnil, String.empty_append, List.map_cons,
    String.join_cons, String.append_right_inj]
  have hjoin := (join_ite_eq_iff (fun d : CallDelta => d.call.arguments)
    (fun d => decide (d.run = some r)) post).mpr fun d hd hne =>
      hpost d hd (by rw [hrun]; simpa using hne)
  simpa using hjoin

/-- **Where every call is kept, each block is a call.** -/
theorem collect_of_kept (hkept : CallsKept l) (hread : StartsRead l) :
    ∀ a b, l = a ++ b →
      collect (b.map CallDelta.mark) =
        ((b.filter (·.starts)).map (·.index)).map
          (callOf (l.map fun d => (d.index, d.call))) := by
  intro a b
  induction b generalizing a with
  | nil => exact fun _ => rfl
  | cons d b ih =>
    intro hl
    have htail := ih (a ++ [d]) (by rw [hl, List.append_assoc]; rfl)
    rw [List.map_cons]
    rcases hstarts : d.starts
    · have hitem : d.mark.item = none := by simp [CallDelta.mark, hstarts]
      rw [collect_cons_none (Or.inr hitem), List.filter_cons_of_neg (by simp [hstarts]), htail]
    · have hmem : d ∈ l := by rw [hl]; simp
      obtain ⟨r, hrun⟩ := Option.isSome_iff_exists.mp (hread d hmem hstarts)
      obtain ⟨pre, s, post, hown, -, hid, hname, hpre, hpost⟩ := hkept d hmem
      have hsplit : pre ++ s :: post = own a d.index ++ d :: own b d.index := by
        rw [← hown, hl, own_append, own_cons_self]
      obtain ⟨rfl, rfl, rfl⟩ := append_cons_inj_of_unique hsplit hstarts
        (fun x hx => (hpre x hx).1) fun x hx => (hpost x hx).1
      have hkey : s.mark.key = some (r, s.index) := by simp [CallDelta.mark, hrun]
      have hitem : s.mark.item = some (s.call.id, s.call.name) := by
        simp [CallDelta.mark, hstarts]
      rw [collect_cons_some hkey hitem, List.filter_cons_of_pos hstarts, htail,
        textAt_mark r s.index b fun x hx => (hpost x hx).1, List.map_cons, List.map_cons, callOf_eq]
      refine congrArg₂ List.cons ?_ rfl
      rw [← hid, ← hname, hown]
      exact congrArg (Prod.mk _)
        (join_of_kept hrun (fun x hx => (hpre x hx).2) fun x hx => (hpost x hx).2)

/-! ### All calls -/

theorem countP_starts (l : List CallDelta) (t : Int) :
    ((l.filter (·.starts)).map (·.index)).count t = (own l t).countP (·.starts) := by
  rw [List.count, List.countP_map, List.countP_filter, own, List.countP_filter]
  refine List.countP_congr fun d _ => ?_
  simp [and_comm]

theorem countP_of_kept (hkept : CallsKept l) {d : CallDelta} (hd : d ∈ l) :
    (own l d.index).countP (·.starts) = 1 := by
  obtain ⟨pre, s, post, hown, hs, -, -, hpre, hpost⟩ := hkept d hd
  have hzero : ∀ ds : List CallDelta, (∀ x ∈ ds, x.starts = false) →
      ds.countP (·.starts) = 0 := by
    intro ds h
    rw [List.countP_eq_zero]
    exact fun x hx => by simp [h x hx]
  rw [hown, List.countP_append, List.countP_cons, hzero pre fun x hx => (hpre x hx).1,
    hzero post fun x hx => (hpost x hx).1, hs]
  rfl

theorem perm_starts (hkept : CallsKept l) :
    ((l.filter (·.starts)).map (·.index)).Perm (l.map (·.index)).dedup := by
  refine (List.perm_ext_iff_of_nodup ?_ (List.nodup_dedup _)).mpr fun t => ?_
  · rw [List.nodup_iff_count_le_one]
    intro t
    rw [countP_starts]
    by_cases ht : ∃ d ∈ l, d.index = t
    · obtain ⟨d, hd, rfl⟩ := ht
      rw [countP_of_kept hkept hd]
    · have hnil : own l t = [] := by
        rw [List.eq_nil_iff_forall_not_mem]
        exact fun d hd => ht ⟨d, mem_own.mp hd⟩
      rw [hnil]
      exact Nat.zero_le _
  · rw [List.mem_dedup]
    constructor
    · intro ht
      obtain ⟨d, hd, rfl⟩ := List.mem_map.mp ht
      exact List.mem_map_of_mem (List.mem_filter.mp hd).1
    · intro ht
      obtain ⟨d, hd, rfl⟩ := List.mem_map.mp ht
      rw [← List.count_pos_iff, countP_starts, countP_of_kept hkept hd]
      exact Nat.one_pos

/-- The calls an OpenAI client puts together. -/
def chatCalls (calls : List (Int × ToolCall)) : List ((String × String) × String) :=
  (calls.map Prod.fst).dedup.map (callOf calls)

/-- **Kept calls are collected**: where every call is kept, a client collects the calls that were
sent, up to their order. -/
theorem perm_of_kept (hkept : CallsKept l) (hread : StartsRead l) :
    (collect (l.map CallDelta.mark)).Perm (chatCalls (l.map fun d => (d.index, d.call))) := by
  have hindex : (l.map fun d => (d.index, d.call)).map Prod.fst = l.map (·.index) := by
    rw [List.map_map]
    rfl
  rw [collect_of_kept hkept hread [] l rfl, chatCalls, hindex]
  exact (perm_starts hkept).map _

/-! ### The converse

It needs a way to tell the blocks of two calls apart, which is the id. -/

/-- **The ids identify the calls**: every call has one, no two the same, and a delta has no
other. -/
def Identified (calls : List (Int × ToolCall)) : Prop :=
  ∀ c ∈ calls, (callOf calls c.1).1.1 ≠ "" ∧
    (c.2.id = "" ∨ c.2.id = (callOf calls c.1).1.1) ∧
    ∀ c' ∈ calls, (callOf calls c.1).1.1 = (callOf calls c'.1).1.1 → c.1 = c'.1

/-- The ids that are collected are those of the deltas that start a block. -/
theorem map_id_collect (hread : StartsRead l) :
    (collect (l.map CallDelta.mark)).map (·.1.1) = (l.filter (·.starts)).map (·.call.id) := by
  induction l with
  | nil => rfl
  | cons d l ih =>
    rw [StartsRead, List.forall_mem_cons] at hread
    rw [List.map_cons]
    rcases hstarts : d.starts
    · rw [collect_cons_none (Or.inr (by simp [CallDelta.mark, hstarts])), ih hread.2,
        List.filter_cons_of_neg (by simp [hstarts])]
    · obtain ⟨r, hrun⟩ := Option.isSome_iff_exists.mp (hread.1 hstarts)
      have hkey : d.mark.key = some (r, d.index) := by simp [CallDelta.mark, hrun]
      have hitem : d.mark.item = some (d.call.id, d.call.name) := by
        simp [CallDelta.mark, hstarts]
      rw [collect_cons_some hkey hitem, List.filter_cons_of_pos hstarts, List.map_cons,
        List.map_cons, ih hread.2]

theorem mem_collect_append {κ β : Type*} [DecidableEq κ] {x : β × String}
    {ms : List (Mark κ β)} (h : x ∈ collect ms) (ns : List (Mark κ β)) :
    x ∈ collect (ns ++ ms) := by
  induction ns with
  | nil => exact h
  | cons n ns ih =>
    rw [List.cons_append]
    rcases hkey : n.key with _ | k
    · rwa [collect_cons_none (Or.inl hkey)]
    · rcases hitem : n.item with _ | item
      · rwa [collect_cons_none (Or.inr hitem)]
      · rw [collect_cons_some hkey hitem]
        exact List.mem_cons_of_mem _ ih

section Converse

variable {l : List CallDelta} (hread : StartsRead l)
  (hids : Identified (l.map fun d => (d.index, d.call)))
  (hperm : (collect (l.map CallDelta.mark)).Perm (chatCalls (l.map fun d => (d.index, d.call))))

include hread hids hperm

/-- A delta that starts a block has the id of its call. -/
theorem id_of_starts {d : CallDelta} (hd : d ∈ l) (hstarts : d.starts = true) :
    d.call.id = (callOf (l.map fun d => (d.index, d.call)) d.index).1.1 := by
  have hmem : d.call.id ∈ (chatCalls (l.map fun d => (d.index, d.call))).map (·.1.1) := by
    rw [← (hperm.map (·.1.1)).mem_iff, map_id_collect hread]
    exact List.mem_map_of_mem (List.mem_filter.mpr ⟨hd, hstarts⟩)
  obtain ⟨x, hx, hid⟩ := List.mem_map.mp hmem
  obtain ⟨t, ht, rfl⟩ := List.mem_map.mp hx
  rw [List.mem_dedup, List.map_map] at ht
  obtain ⟨d', hd', rfl⟩ := List.mem_map.mp ht
  have hne := (hids _ (List.mem_map_of_mem hd')).1
  rcases (hids _ (List.mem_map_of_mem hd)).2.1 with hempty | heq
  · exact absurd (hid.trans hempty) hne
  · exact heq

theorem countP_own {d : CallDelta} (hd : d ∈ l) : (own l d.index).countP (·.starts) = 1 := by
  have hcount := (hperm.map (·.1.1)).count_eq
    (callOf (l.map fun d => (d.index, d.call)) d.index).1.1
  rw [map_id_collect hread, chatCalls, List.map_map] at hcount
  -- the ids tell the calls apart
  have hinj : ∀ d' ∈ l, (callOf (l.map fun d => (d.index, d.call)) d'.index).1.1 =
      (callOf (l.map fun d => (d.index, d.call)) d.index).1.1 ↔ d'.index = d.index := by
    intro d' hd'
    exact ⟨fun h => (hids _ (List.mem_map_of_mem hd')).2.2 _ (List.mem_map_of_mem hd) h,
      fun h => by rw [h]⟩
  have hleft : ((l.filter (·.starts)).map (·.call.id)).count
      (callOf (l.map fun d => (d.index, d.call)) d.index).1.1 =
        (own l d.index).countP (·.starts) := by
    rw [← countP_starts, List.count, List.count, List.countP_map, List.countP_map]
    refine List.countP_congr fun d' hd' => ?_
    obtain ⟨hmem, hstarts⟩ := List.mem_filter.mp hd'
    simp only [Function.comp, beq_iff_eq]
    rw [id_of_starts hread hids hperm hmem hstarts, hinj d' hmem]
  have hright : ((l.map fun d => (d.index, d.call)).map Prod.fst).dedup.countP
      ((fun x => x == (callOf (l.map fun d => (d.index, d.call)) d.index).1.1) ∘
        (fun x => x.1.1) ∘ callOf (l.map fun d => (d.index, d.call))) =
      ((l.map fun d => (d.index, d.call)).map Prod.fst).dedup.count d.index := by
    refine List.countP_congr fun t ht => ?_
    rw [List.mem_dedup, List.map_map] at ht
    obtain ⟨d', hd', rfl⟩ := List.mem_map.mp ht
    simp only [Function.comp, beq_iff_eq]
    exact hinj d' hd'
  rw [← hleft, hcount, List.count, List.countP_map, hright]
  refine List.count_eq_one_of_mem (List.nodup_dedup _) (List.mem_dedup.mpr ?_)
  rw [List.map_map]
  exact List.mem_map_of_mem hd

/-- **Collected calls are kept**: where a client collects the calls that were sent, up to their
order, every one of them is kept. -/
theorem kept_of_perm : CallsKept l := by
  intro d hd
  have hcount := countP_own hread hids hperm hd
  obtain ⟨s, hs, hstarts⟩ := List.countP_pos_iff.mp (hcount ▸ Nat.one_pos)
  obtain ⟨hsl, hindex⟩ := mem_own.mp hs
  rw [← hindex] at hcount ⊢
  obtain ⟨a, b, hl⟩ := List.append_of_mem hsl
  have hown : own l s.index = own a s.index ++ s :: own b s.index := by
    conv_lhs => rw [hl]
    rw [own_append, own_cons_self]
  rw [hown, List.countP_append, List.countP_cons, if_pos hstarts] at hcount
  have hpre : ∀ x ∈ own a s.index, x.starts = false := by
    have hzero : (own a s.index).countP (·.starts) = 0 := by omega
    rw [List.countP_eq_zero] at hzero
    exact fun x hx => by simpa using hzero x hx
  have hpost : ∀ x ∈ own b s.index, x.starts = false := by
    have hzero : (own b s.index).countP (·.starts) = 0 := by omega
    rw [List.countP_eq_zero] at hzero
    exact fun x hx => by simpa using hzero x hx
  obtain ⟨r, hrun⟩ := Option.isSome_iff_exists.mp (hread s hsl hstarts)
  -- the block of `s` is the call
  have hblock : ((s.call.id, s.call.name), s.call.arguments ++
      String.join ((own b s.index).map fun d => if d.run = some r then d.call.arguments else ""))
        = callOf (l.map fun d => (d.index, d.call)) s.index := by
    have hmem : ((s.call.id, s.call.name), s.call.arguments ++
        textAt (r, s.index) (b.map CallDelta.mark)) ∈ collect (l.map CallDelta.mark) := by
      rw [hl, List.map_append, List.map_cons]
      refine mem_collect_append ?_ _
      have hkey : s.mark.key = some (r, s.index) := by simp [CallDelta.mark, hrun]
      have hitem : s.mark.item = some (s.call.id, s.call.name) := by
        simp [CallDelta.mark, hstarts]
      rw [collect_cons_some hkey hitem]
      exact List.mem_cons_self
    rw [textAt_mark r s.index b hpost, hperm.mem_iff] at hmem
    obtain ⟨t, ht, heq⟩ := List.mem_map.mp hmem
    rw [List.mem_dedup, List.map_map] at ht
    obtain ⟨d', hd', rfl⟩ := List.mem_map.mp ht
    have hid : (callOf (l.map fun d => (d.index, d.call)) d'.index).1.1 =
        (callOf (l.map fun d => (d.index, d.call)) s.index).1.1 :=
      (congrArg (·.1.1) heq).trans (id_of_starts hread hids hperm hsl hstarts)
    rw [← heq]
    exact congrArg _ ((hids _ (List.mem_map_of_mem hd')).2.2 _ (List.mem_map_of_mem hsl) hid)
  rw [callOf_eq] at hblock
  have htext : s.call.arguments ++
      String.join ((own b s.index).map fun d => if d.run = some r then d.call.arguments else "") =
        String.join ((own l s.index).map (·.call.arguments)) := congrArg Prod.snd hblock
  rw [hown, List.map_append, String.join_append, List.map_cons, String.join_cons] at htext
  have hite := length_join_ite_le (fun d : CallDelta => d.call.arguments)
    (fun d => decide (d.run = some r)) (own b s.index)
  simp only [decide_eq_true_eq] at hite
  have hpreText : String.join ((own a s.index).map (·.call.arguments)) = "" := by
    rw [← String.length_eq_zero_iff]
    have hlen := congrArg String.length htext
    simp only [String.length_append] at hlen
    omega
  rw [hpreText, String.empty_append, String.append_right_inj] at htext
  have hpostText := (join_ite_eq_iff (fun d : CallDelta => d.call.arguments)
    (fun d => decide (d.run = some r)) (own b s.index)).mp (by simpa using htext)
  refine ⟨own a s.index, s, own b s.index, hown, hstarts, congrArg (·.1.1) hblock,
    congrArg (·.1.2) hblock, fun x hx => ⟨hpre x hx, ?_⟩, fun x hx => ⟨hpost x hx, fun hne => ?_⟩⟩
  · rw [join_eq_empty_iff, List.forall_mem_map] at hpreText
    exact hpreText x hx
  · rw [hrun] at hne
    exact hpostText x hx (by simpa using hne)

end Converse

/-! ### Streams -/

theorem startsRead_callTrace (s : RunState) (xs : List (Delta × Reading)) :
    StartsRead (callTrace s xs) := by
  have hunread : ∀ cs : List (Int × ToolCall), StartsRead (cs.map unreadCall) := by
    intro cs d hd hstarts
    obtain ⟨c, -, rfl⟩ := List.mem_map.mp hd
    cases hstarts
  have hhead : ∀ run x, StartsRead (readCalls run x) := by
    rintro run ⟨delta, _ | _ | _⟩
    · simp only [readCalls]
      cases delta.indexed with
      | nil => exact fun d hd => nomatch hd
      | cons c cs => exact List.forall_mem_cons.mpr ⟨fun _ => rfl, hunread cs⟩
    · intro d hd _
      obtain ⟨c, -, rfl⟩ := List.mem_map.mp hd
      rfl
    · exact hunread delta.indexed
  induction xs generalizing s with
  | nil => exact fun d hd => nomatch hd
  | cons x xs ih => exact List.forall_mem_append.mpr ⟨hhead _ x, ih _⟩

/-- The deltas of the tool calls of a stream, with their tool indices. -/
def indexedCalls (chunks : List Chunk) : List (Int × ToolCall) :=
  (deltas chunks).flatMap Delta.indexed

/-- **The content of a stream is preserved**: the text, the reasoning, and the tool calls. -/
structure Preserved (promptTokens : Int) (chunks : List Chunk) : Prop where
  text : proseOf .text (handleStream { estimatePromptTokens := promptTokens } chunks).2 =
    String.join ((deltas chunks).map Delta.getContentString)
  thinking : proseOf .thinking (handleStream { estimatePromptTokens := promptTokens } chunks).2 =
    String.join ((deltas chunks).map Delta.getReasoningContent)
  calls : (toolBlocks (handleStream { estimatePromptTokens := promptTokens } chunks).2).Perm
    (chatCalls (indexedCalls chunks))

/-- **Nothing of the stream is lost**: no text and no reasoning is left unread, every tool
call is kept, and the tool indices are as they are read. -/
structure Kept (chunks : List Chunk) : Prop where
  prose : ∀ kind, ∀ x ∈ readings chunks, readsText kind x = false → x.1.text kind = ""
  calls : CallsKept (callTrace ⟨0, false⟩ (readings chunks))
  firstAtZero : firstAtZero (readings chunks)
  nonneg : ∀ c ∈ indexedCalls chunks, 0 ≤ c.1

theorem map_callTrace_readings (chunks : List Chunk) :
    (callTrace ⟨0, false⟩ (readings chunks)).map (fun d => (d.index, d.call)) =
      indexedCalls chunks := by
  rw [map_callTrace, map_fst_readings, indexedCalls]

theorem calls_handleStream (promptTokens : Int)
    (hfirst : firstAtZero (readings chunks)) (hpos : ∀ c ∈ indexedCalls chunks, 0 ≤ c.1) :
    toolBlocks (handleStream { estimatePromptTokens := promptTokens } chunks).2 =
      collect ((callTrace ⟨0, false⟩ (readings chunks)).map CallDelta.mark) := by
  refine toolBlocks_eq_collect promptTokens _ hfirst fun d hd => ?_
  refine hpos (d.index, d.call) ?_
  rw [← map_callTrace_readings]
  exact List.mem_map_of_mem hd

theorem Kept.preserved (h : Kept chunks) (promptTokens : Int) :
    Preserved promptTokens chunks where
  text := (proseOf_iff .text promptTokens chunks).mpr (h.prose .text)
  thinking := (proseOf_iff .thinking promptTokens chunks).mpr (h.prose .thinking)
  calls := by
    rw [calls_handleStream promptTokens h.firstAtZero h.nonneg, ← map_callTrace_readings]
    exact perm_of_kept h.calls (startsRead_callTrace _ _)

/-- A stream of the protocol: the ids identify the tool calls, the tool indices are not
negative, and the first chunk's first call has index 0. -/
structure Regular (chunks : List Chunk) : Prop where
  identified : Identified (indexedCalls chunks)
  firstAtZero : Convert.firstAtZero (readings chunks)
  nonneg : ∀ c ∈ indexedCalls chunks, 0 ≤ c.1

theorem Preserved.kept {promptTokens : Int}
    (h : Preserved promptTokens chunks) (hreg : Regular chunks) : Kept chunks where
  prose kind :=
    match kind with
    | .text => (proseOf_iff .text promptTokens chunks).mp h.text
    | .thinking => (proseOf_iff .thinking promptTokens chunks).mp h.thinking
  calls := by
    have hperm := h.calls
    have hids := hreg.identified
    rw [calls_handleStream promptTokens hreg.firstAtZero hreg.nonneg,
      ← map_callTrace_readings] at hperm
    rw [← map_callTrace_readings] at hids
    exact kept_of_perm (startsRead_callTrace _ _) hids hperm
  firstAtZero := hreg.firstAtZero
  nonneg := hreg.nonneg

/-- **Which streams are preserved**: those of which nothing is lost; and where the tool
calls have ids that identify them, only those. -/
theorem preserved_iff_kept (promptTokens : Int) (chunks : List Chunk) :
    (Kept chunks → Preserved promptTokens chunks) ∧
      (Regular chunks → (Preserved promptTokens chunks ↔ Kept chunks)) :=
  ⟨fun h => h.preserved promptTokens,
    fun hreg => ⟨fun h => h.kept hreg, fun h => h.preserved promptTokens⟩⟩

/-- A text and a tool call in two pieces. -/
theorem preserved_text_and_call :
    let chunks : List Chunk :=
      [{ choices := [{ delta := { content := some "Hi" } }] },
        { choices := [{ delta := { toolCalls :=
            [{ index := some 0, id := "a", name := "f", arguments := "\x7b" }] } }] },
        { choices := [{ delta := { toolCalls := [{ index := some 0, arguments := "\x7d" }] } }] },
        { choices := [{ finishReason := some "tool_calls" }], usage := some {} }]
    Regular chunks ∧ Preserved 3 chunks := by
  intro chunks
  have hreg : Regular chunks := by
    refine ⟨?_, ?_, by decide⟩
    · unfold Identified
      decide
    · unfold firstAtZero
      decide
  refine ⟨hreg, ((preserved_iff_kept 3 chunks).2 hreg).mpr ⟨?_, ?_, hreg.firstAtZero, hreg.nonneg⟩⟩
  · intro kind
    cases kind <;> decide
  · intro d hd
    have hindex : d.index = 0 := by
      revert d
      decide
    rw [hindex]
    exact ⟨[], _, _, rfl, rfl, rfl, rfl, by decide, by decide⟩

/-- A chunk with content and a tool call: the content is lost. -/
theorem not_preserved_content_and_call :
    let chunks : List Chunk :=
      [{ choices := [{ delta := { content := some "" } }] },
        { choices := [{ delta := { content := some "Hi", toolCalls :=
            [{ index := some 0, id := "a", name := "f", arguments := "\x7b\x7d" }] } }] },
        { choices := [{ finishReason := some "tool_calls" }], usage := some {} }]
    proseOf .text (handleStream {} chunks).2 = "" ∧
      String.join ((deltas chunks).map Delta.getContentString) = "Hi" ∧
      ¬ Preserved 0 chunks := by
  intro chunks
  refine ⟨by decide, by decide, fun h => ?_⟩
  exact absurd ((proseOf_iff .text 0 chunks).mp h.text) (by decide)

end NewApiPool.Convert
