import NewApiPool.Convert.Gemini

/-!
# A Gemini stream against the whole response

The parts of one candidate are thoughts, texts and function calls, and a stream cuts them
into pieces. A piece with a thought is sent as reasoning, whatever else is in it, and the
texts of a piece are put together with line feeds; every piece with a function call but the
first has a finish reason of its own; and the whole response has the last thought only.

So the chunks agree with the whole response if a piece with a thought has one line, there
are no function calls after the first piece, and no thought but the last has a text
(`geminiAgrees_iff`).
-/

namespace NewApiPool.Convert

open Keyed

/-! ### Parts of a candidate -/

/-- A part of a candidate. -/
inductive ChatPart where
  | thought (text : String)
  | text (text : String)
  | call (name arguments : String)
deriving DecidableEq, Repr

namespace ChatPart

/-- A part, as Gemini sends it. -/
def gemini : ChatPart → GeminiPart
  | .thought t => { text := t, thought := true }
  | .text t => { text := t }
  | .call name arguments => { functionCall := some ⟨name, some arguments⟩ }

def thought? : ChatPart → Option String
  | .thought t => some t
  | _ => none

def text? : ChatPart → Option String
  | .text t => some t
  | _ => none

def call? : ChatPart → Option (String × String)
  | .call name arguments => some (name, arguments)
  | _ => none

/-- What is put together with line feeds; a line feed itself is left out. -/
def line? : ChatPart → Option String
  | .thought t => some t
  | .text t => if t ≠ "\n" then some t else none
  | .call .. => none

end ChatPart

/-- The thoughts among the parts. -/
def thoughtsOf (parts : List ChatPart) : List String := parts.filterMap ChatPart.thought?

def textsOf (parts : List ChatPart) : List String := parts.filterMap ChatPart.text?

/-- The function calls, with their names and arguments. -/
def functionCalls (parts : List ChatPart) : List (String × String) :=
  parts.filterMap ChatPart.call?

def linesOf (parts : List ChatPart) : List String := parts.filterMap ChatPart.line?

section Cons

variable (t name arguments : String) (parts : List ChatPart)

@[simp] theorem thoughtsOf_thought :
    thoughtsOf (.thought t :: parts) = t :: thoughtsOf parts := rfl

@[simp] theorem thoughtsOf_text : thoughtsOf (.text t :: parts) = thoughtsOf parts := rfl

@[simp] theorem textsOf_text : textsOf (.text t :: parts) = t :: textsOf parts := rfl

@[simp] theorem linesOf_text :
    linesOf (.text t :: parts) = if t ≠ "\n" then t :: linesOf parts else linesOf parts := by
  rw [linesOf, List.filterMap_cons, ChatPart.line?]
  by_cases ht : t ≠ "\n"
  · rw [if_pos ht, if_pos ht]
    rfl
  · rw [if_neg ht, if_neg ht]
    rfl

end Cons

/-- The text of a piece. -/
def pieceText (piece : List ChatPart) : String := "\n".intercalate (linesOf piece)

section Parts

variable (uuid : Nat → String)

/-- The tool calls that are made of function calls, the `n`-th UUID first. -/
def newTools (n : Nat) : List (String × String) → List ToolCall
  | [] => []
  | (name, arguments) :: calls =>
    { id := "call_" ++ uuid n, name, arguments } :: newTools (n + 1) calls

theorem newTools_append (n : Nat) (calls later : List (String × String)) :
    newTools uuid n (calls ++ later) =
      newTools uuid n calls ++ newTools uuid (n + calls.length) later := by
  induction calls generalizing n with
  | nil => rfl
  | cons call calls ih =>
    rw [List.cons_append, newTools, ih, newTools, List.length_cons, Nat.add_right_comm]
    rfl

theorem length_newTools (n : Nat) (calls : List (String × String)) :
    (newTools uuid n calls).length = calls.length := by
  induction calls generalizing n with
  | nil => rfl
  | cons call calls ih => rw [newTools, List.length_cons, ih, List.length_cons]

/-- A tool call without its index. -/
def ToolCall.bare (tool : ToolCall) : ToolCall := { tool with index := none }

/-- **The loop over the parts of a piece.** -/
theorem foldl_addStream (parts : List ChatPart) (s : PartsState) :
    let s' := (parts.map ChatPart.gemini).foldl (PartsState.addStream uuid) s
    s'.texts = s.texts ++ linesOf parts ∧
      s'.toolCalls.map ToolCall.bare =
        s.toolCalls.map ToolCall.bare ++ newTools uuid s.uuids (functionCalls parts) ∧
      s'.isTools = (s.isTools || functionCalls parts ≠ []) ∧
      s'.isThought = (s.isThought || thoughtsOf parts ≠ []) ∧
      s'.uuids = s.uuids + (functionCalls parts).length := by
  induction parts generalizing s with
  | nil => simp [linesOf, functionCalls, thoughtsOf, newTools]
  | cons part parts ih =>
    obtain ⟨htexts, htools, hisTools, hthought, huuids⟩ := ih (s.addStream uuid part.gemini)
    rw [List.map_cons, List.foldl_cons]
    cases part with
    | thought t =>
      refine ⟨htexts.trans (List.append_assoc s.texts [t] _), htools, hisTools, ?_, huuids⟩
      refine hthought.trans ?_
      simp [thoughtsOf, ChatPart.thought?, ChatPart.gemini, PartsState.addStream]
    | text t =>
      have hadd : s.addStream uuid (ChatPart.text t).gemini =
          { s with texts := s.texts ++ (ChatPart.text t).line?.toList } := by
        rw [ChatPart.line?]
        by_cases ht : t ≠ "\n"
        · rw [if_pos ht]
          exact if_pos ht
        · rw [if_neg ht, Option.toList_none, List.append_nil]
          exact if_neg ht
      rw [hadd] at htexts htools hisTools hthought huuids ⊢
      refine ⟨htexts.trans ?_, htools, hisTools, hthought, huuids⟩
      rw [List.append_assoc, linesOf, linesOf, List.filterMap_cons]
      cases (ChatPart.text t).line? <;> rfl
    | call name arguments =>
      refine ⟨htexts, htools.trans ?_, ?_, hthought, huuids.trans ?_⟩
      · simp [functionCalls, ChatPart.call?, newTools, ChatPart.gemini, PartsState.addStream,
          getResponseToolCall, ToolCall.bare]
      · refine hisTools.trans ?_
        simp [functionCalls, ChatPart.call?, ChatPart.gemini, PartsState.addStream,
          getResponseToolCall]
      · simp [functionCalls, ChatPart.call?, ChatPart.gemini, PartsState.addStream,
          getResponseToolCall]
        omega

/-- **The loop over the parts of a whole response.** -/
theorem foldl_addWhole (parts : List ChatPart) (s : WholeState) :
    let s' := (parts.map ChatPart.gemini).foldl (WholeState.add uuid) s
    s'.texts = s.texts ++ (textsOf parts).filter (· ≠ "\n") ∧
      s'.toolCalls = s.toolCalls ++ newTools uuid s.uuids (functionCalls parts) ∧
      s'.reasoningContent = (thoughtsOf parts).getLast?.getD s.reasoningContent := by
  induction parts generalizing s with
  | nil => simp [textsOf, functionCalls, thoughtsOf, newTools]
  | cons part parts ih =>
    obtain ⟨htexts, htools, hthought⟩ := ih (s.add uuid part.gemini)
    rw [List.map_cons, List.foldl_cons]
    cases part with
    | thought t =>
      refine ⟨htexts, htools, hthought.trans ?_⟩
      rw [thoughtsOf, thoughtsOf, List.filterMap_cons_some (show (ChatPart.thought t).thought? =
        some t from rfl), List.getLast?_cons]
      rfl
    | text t =>
      have hadd : s.add uuid (ChatPart.text t).gemini =
          { s with texts := s.texts ++ [t].filter (· ≠ "\n") } := by
        by_cases ht : t ≠ "\n"
        · rw [List.filter_cons_of_pos (by simpa using ht)]
          exact if_pos ht
        · rw [List.filter_cons_of_neg (by simpa using ht), List.filter_nil, List.append_nil]
          exact if_neg ht
      rw [hadd] at htexts htools hthought ⊢
      refine ⟨htexts.trans ?_, htools, hthought⟩
      rw [List.append_assoc, ← List.filter_append]
      rfl
    | call name arguments =>
      refine ⟨htexts, htools.trans ?_, hthought⟩
      simp [functionCalls, ChatPart.call?, newTools, ChatPart.gemini, WholeState.add,
        getResponseToolCall]

/-! ### A piece of a stream -/

/-- The choice for a piece, with its tool calls. -/
def pieceChoice (piece : List ChatPart) (toolCalls : List ToolCall) : Choice :=
  { delta :=
      if thoughtsOf piece ≠ [] then { reasoningContent := some (pieceText piece), toolCalls }
      else { content := some (pieceText piece), toolCalls }
    finishReason := if functionCalls piece ≠ [] then some "tool_calls" else none }

/-- A streamed response. -/
def pieceResponse (index : Int) (piece : List ChatPart) (finishReason : Option String) :
    GeminiChatResponse :=
  ⟨[⟨piece.map ChatPart.gemini, finishReason, index⟩]⟩

/-- `STOP` is not a finish reason of the choice. -/
theorem streamResponse_piece (n : Nat) (index : Int) (piece : List ChatPart) (stop : Bool) :
    ∃ tools, tools.map ToolCall.bare = newTools uuid n (functionCalls piece) ∧
      streamResponseGeminiChat2OpenAI uuid n
          (pieceResponse index piece (if stop then some "STOP" else none)) =
        (([(index, pieceChoice piece tools)], stop), n + (functionCalls piece).length) := by
  obtain ⟨htexts, htools, hisTools, hthought, huuids⟩ := foldl_addStream uuid piece { uuids := n }
  refine ⟨_, htools, ?_⟩
  have hreason : (if ((piece.map ChatPart.gemini).foldl (PartsState.addStream uuid)
      { uuids := n }).isTools then some "tool_calls"
      else if (if stop then some "STOP" else none) = some "STOP" then none
      else (if stop then some "STOP" else none).map geminiFinishReason) =
      if functionCalls piece ≠ [] then some "tool_calls" else none := by
    rw [hisTools]
    cases stop <;> simp
  have hstop : ([⟨piece.map ChatPart.gemini, if stop then some "STOP" else none, index⟩] :
      List GeminiChatCandidate).any (·.finishReason = some "STOP") = stop := by
    cases stop <;> rfl
  rw [streamResponseGeminiChat2OpenAI, pieceResponse, hstop]
  simp only [streamChoices, streamChoice, hreason, htexts, hthought, huuids, List.nil_append,
    Bool.false_or, decide_eq_true_eq]
  rfl

/-- Tool calls with the indices from `m` on. -/
def withIndex (m : Nat) : List ToolCall → List ToolCall
  | [] => []
  | tool :: tools => { tool with index := some (m : Int) } :: withIndex (m + 1) tools

variable {uuid}

/-- The ids that are known are those of the first `n` UUIDs. -/
def GeminiStream.Knows (uuid : Nat → String) (s : GeminiStream) (index : Int) (n : Nat) : Prop :=
  s.nextToolCallIndexByChoice index = n ∧
    ∀ e ∈ s.toolCallIndexByChoice index, ∃ k < n, e.1 = "call_" ++ uuid k

variable {s : GeminiStream} {index : Int}

theorem GeminiStream.Knows.congr {s' : GeminiStream} {n m : Nat}
    (hs : s.Knows uuid index n) (hi : s'.toolCallIndexByChoice = s.toolCallIndexByChoice)
    (hn : s'.nextToolCallIndexByChoice = s.nextToolCallIndexByChoice) (hnm : n = m) :
    s'.Knows uuid index m := by
  subst hnm
  rw [Knows, hi, hn]
  exact hs

/-- **New tool calls get the next indices**, and nothing else changes. -/
theorem setIndices_new (huuid : Function.Injective uuid) {n : Nat}
    {tools : List ToolCall} {calls : List (String × String)}
    (htools : tools.map ToolCall.bare = newTools uuid n calls) (hs : s.Knows uuid index n) :
    (s.setIndices index tools).2 = withIndex n (newTools uuid n calls) ∧
      (s.setIndices index tools).1.Knows uuid index (n + calls.length) ∧
      ∃ indices next, (s.setIndices index tools).1 =
        { s with toolCallIndexByChoice := indices, nextToolCallIndexByChoice := next } := by
  induction calls generalizing n tools s with
  | nil =>
    rw [newTools, List.map_eq_nil_iff] at htools
    subst htools
    exact ⟨rfl, hs, _, _, rfl⟩
  | cons call calls ih =>
    obtain ⟨name, arguments⟩ := call
    rw [newTools] at htools
    obtain ⟨tool, tools, rfl, htool, htools⟩ := List.map_eq_cons_iff.mp htools
    have hid : tool.id = "call_" ++ uuid n := congrArg ToolCall.id htool
    have hne : tool.id ≠ "" := by
      rw [hid]
      intro h
      exact absurd (String.append_eq_empty_iff.mp h).1 (by decide)
    -- the UUID is a new one
    have hnew : (s.toolCallIndexByChoice index).lookup tool.id = none := by
      rw [List.lookup_eq_none_iff]
      intro e he
      obtain ⟨k, hk, heq⟩ := hs.2 e he
      rw [hid, heq, bne_iff_ne]
      intro h
      have := huuid ((String.append_right_inj _).mp h)
      omega
    have hset : s.setIndex index tool =
        ({ s with
            nextToolCallIndexByChoice :=
              Function.update s.nextToolCallIndexByChoice index (n + 1)
            toolCallIndexByChoice :=
              Function.update s.toolCallIndexByChoice index
                (s.toolCallIndexByChoice index ++ [(tool.id, n)]) },
          { tool with index := some (n : Int) }) := by
      rw [GeminiStream.setIndex, if_neg hne, hnew, hs.1]
    have hknows : GeminiStream.Knows uuid (s.setIndex index tool).1 index (n + 1) := by
      rw [hset]
      refine ⟨Function.update_self .., fun e he => ?_⟩
      dsimp only at he
      rw [Function.update_self, List.mem_append, List.mem_singleton] at he
      rcases he with he | rfl
      · obtain ⟨k, hk, heq⟩ := hs.2 e he
        exact ⟨k, Nat.lt_succ_of_lt hk, heq⟩
      · exact ⟨n, Nat.lt_succ_self n, hid⟩
    obtain ⟨htools', hknows', indices, next, hsame⟩ := ih htools hknows
    rw [GeminiStream.setIndices]
    refine ⟨?_, ?_, indices, next, ?_⟩
    · rw [newTools, withIndex, ← htools', ← htool, hset]
      rfl
    · rw [List.length_cons, Nat.add_comm calls.length, ← Nat.add_assoc]
      exact hknows'
    · refine hsame.trans ?_
      rw [hset]

/-! ### What a client makes of a piece -/

theorem natCast_injective : Function.Injective fun i : Nat => (i : Int) :=
  fun _ _ => Int.ofNat_inj.mp

theorem addCalls_withIndex (old : List CallAcc) (tools : List ToolCall) (j : Nat) :
    addCalls (number (fun i : Nat => (i : Int)) old) ((withIndex old.length tools).zipIdx j) =
      number (fun i : Nat => (i : Int)) (old ++ tools.map ToolCall.whole) := by
  induction tools generalizing old j with
  | nil => rw [List.map_nil, List.append_nil]; rfl
  | cons tool tools ih =>
    have hlen : (old ++ [tool.whole]).length = old.length + 1 := by simp
    rw [withIndex, List.zipIdx_cons, addCalls, List.foldl_cons, Option.getD_some,
      alter_number_length natCast_injective, CallAcc.add_empty]
    have htail := ih (old ++ [tool.whole]) (j + 1)
    rw [hlen, List.append_assoc] at htail
    exact htail

/-- A tool call of the first response: what is left of it after the start chunk. -/
def clearedToolCalls (tools : List ToolCall) : List ToolCall :=
  tools.map fun tool => { tool with id := "", name := "" }

/-- The arguments go to the tool calls of the start chunk. -/
theorem addCalls_cleared (old : List CallAcc) (tools : List ToolCall) (j : Nat) :
    addCalls (number (fun i : Nat => (i : Int))
        (old ++ (copiedToolCalls tools).map ToolCall.whole))
        ((withIndex old.length (clearedToolCalls tools)).zipIdx j) =
      number (fun i : Nat => (i : Int)) (old ++ tools.map ToolCall.whole) := by
  induction tools generalizing old j with
  | nil => rfl
  | cons tool tools ih =>
    have hlen : (old ++ [tool.whole]).length = old.length + 1 := by simp
    have hadd : CallAcc.add ⟨tool.id, tool.name, ""⟩
        { index := some (old.length : Int), arguments := tool.arguments } = tool.whole := by
      have hkeep (t : String) : (if t = "" then "" else t) = t := by
        split
        · next h => exact h.symm
        · rfl
      rw [CallAcc.add, hkeep, hkeep, String.empty_append, ToolCall.whole]
    have htail := ih (old ++ [tool.whole]) (j + 1)
    rw [hlen, List.append_assoc, List.append_assoc] at htail
    refine Eq.trans ?_ htail
    refine congrArg (fun calls => addCalls calls
      ((withIndex (old.length + 1) (clearedToolCalls tools)).zipIdx (j + 1))) ?_
    refine (alter_number_of_split natCast_injective old _ _).trans ?_
    rw [List.singleton_append]
    exact congrArg (fun e => number _ (old ++ e :: _)) hadd

theorem copiedToolCalls_withIndex (m : Nat) (tools : List ToolCall) :
    copiedToolCalls (withIndex m tools) = withIndex m (copiedToolCalls tools) := by
  induction tools generalizing m with
  | nil => rfl
  | cons tool tools ih => exact congrArg (_ :: ·) (ih (m + 1))

theorem clearedToolCalls_withIndex (m : Nat) (tools : List ToolCall) :
    clearedToolCalls (withIndex m tools) = withIndex m (clearedToolCalls tools) := by
  induction tools generalizing m with
  | nil => rfl
  | cons tool tools ih => exact congrArg (_ :: ·) (ih (m + 1))

theorem Accumulated.addChoice_piece (acc : Accumulated) (piece : List ChatPart)
    (tools : List ToolCall) (finishReason : Option String) :
    acc.addChoice { pieceChoice piece tools with finishReason } =
      { text := acc.text ++ if thoughtsOf piece ≠ [] then "" else pieceText piece
        reasoning := acc.reasoning ++ if thoughtsOf piece ≠ [] then pieceText piece else ""
        calls := addCalls acc.calls tools.zipIdx
        finishReasons := acc.finishReasons ++ finishReason.toList.filter (· ≠ "") } := by
  rw [Accumulated.addChoice, pieceChoice]
  by_cases hthought : thoughtsOf piece ≠ []
  · rw [if_pos hthought, if_pos hthought, if_pos hthought]
    rfl
  · rw [if_neg hthought, if_neg hthought, if_neg hthought]
    rfl

/-- **What a client has after the pieces of `cut`.** -/
def cutMessage (uuid : Nat → String) (cut : List (List ChatPart)) : Accumulated :=
  { text := String.join (cut.map fun piece =>
      if thoughtsOf piece ≠ [] then "" else pieceText piece)
    reasoning := String.join (cut.map fun piece =>
      if thoughtsOf piece ≠ [] then pieceText piece else "")
    calls := number (fun i : Nat => (i : Int))
      ((newTools uuid 0 (functionCalls cut.flatten)).map ToolCall.whole)
    finishReasons := cut.tail.flatMap fun piece =>
      if functionCalls piece ≠ [] then ["tool_calls"] else [] }

/-- **The handler follows a stream of pieces.** -/
structure GeminiStream.Follows (uuid : Nat → String) (index : Int) (cut : List (List ChatPart))
    (s : GeminiStream) : Prop where
  uuids : s.uuids = (functionCalls cut.flatten).length
  knows : s.Knows uuid index s.uuids
  count : s.sendResponseCount = 0 ↔ cut = []
  finishReason : s.finishReason =
    if functionCalls (cut.headD []) ≠ [] then "tool_calls" else "stop"
  acc : accumulate s.sent = cutMessage uuid cut

theorem geminiFollows_init (index : Int) : GeminiStream.Follows uuid index [] {} where
  uuids := rfl
  knows := ⟨rfl, nofun⟩
  count := by simp
  finishReason := rfl
  acc := rfl

/-- What is sent for a choice: the start before the first one, and the choice. -/
def GeminiStream.sendChoice (env : GeminiEnv) (s : GeminiStream) (choice : Choice) :
    GeminiStream :=
  let (s, choices) :=
    if s.sendResponseCount = 0 then s.first env [choice] else (s, [choice])
  s.handleStream { id := env.id, model := env.upstreamModelName, choices }

theorem pieceChoice_toolCalls (piece : List ChatPart) (tools tools' : List ToolCall) :
    { pieceChoice piece tools with
      delta := { (pieceChoice piece tools).delta with toolCalls := tools' } } =
      pieceChoice piece tools' := by
  rw [pieceChoice, pieceChoice]
  split <;> rfl

theorem callback_piece (env : GeminiEnv) (s : GeminiStream) (index : Int)
    (piece : List ChatPart) (stop : Bool) :
    ∃ tools, tools.map ToolCall.bare = newTools uuid s.uuids (functionCalls piece) ∧
      s.callback uuid env (pieceResponse index piece (if stop then some "STOP" else none)) =
        let r := GeminiStream.setIndices
          { s with uuids := s.uuids + (functionCalls piece).length } index tools
        let s' := r.1.sendChoice env (pieceChoice piece r.2)
        if stop then
          s'.handleStream (generateStopResponse env.id env.upstreamModelName s'.finishReason)
        else s' := by
  obtain ⟨tools, htools, hstream⟩ := streamResponse_piece uuid s.uuids index piece stop
  refine ⟨tools, htools, ?_⟩
  have htool : (pieceChoice piece tools).delta.toolCalls = tools := by
    rw [pieceChoice]
    split <;> rfl
  simp only [GeminiStream.callback, hstream, GeminiStream.setAllIndices, htool,
    pieceChoice_toolCalls, GeminiStream.sendChoice]

theorem newTools_ne_nil {n : Nat} {calls : List (String × String)} :
    withIndex n (newTools uuid n calls) ≠ [] ↔ calls ≠ [] := by
  cases calls <;> simp [newTools, withIndex]

theorem Accumulated.add_choice (acc : Accumulated) (id model : String) (choice : Choice) :
    acc.add { id, model, choices := [choice] } = acc.addChoice choice := rfl

/-- What is left of the first piece after a start chunk with its tool calls. -/
theorem clearToolCalls_piece {piece : List ChatPart} (hcalls : functionCalls piece ≠ [])
    (tools : List ToolCall) :
    ([pieceChoice piece tools].map Choice.clearToolCalls).modifyHead (fun choice =>
        if choice.isFinished then { choice with finishReason := none } else choice) =
      [{ pieceChoice piece (clearedToolCalls tools) with finishReason := none }] := by
  have hclear : (pieceChoice piece tools).clearToolCalls =
      pieceChoice piece (clearedToolCalls tools) := by
    have htool : (pieceChoice piece tools).delta.toolCalls = tools := by
      rw [pieceChoice]
      split <;> rfl
    rw [Choice.clearToolCalls, htool]
    exact pieceChoice_toolCalls piece tools _
  have hfinished : (pieceChoice piece (clearedToolCalls tools)).isFinished = true := by
    rw [Choice.isFinished, pieceChoice, if_pos hcalls]
    rfl
  rw [List.map_singleton, hclear, List.modifyHead_cons, hfinished]
  rfl

/-- The start chunk's choice, for the tool calls of the first piece. -/
def startChoice (toolCalls : List ToolCall) : Choice :=
  { delta := { content := some "", toolCalls := copiedToolCalls toolCalls } }

theorem addChoice_startChoice (tools : List ToolCall) :
    Accumulated.addChoice {} (startChoice (withIndex 0 tools)) =
      { calls := number (fun i : Nat => (i : Int))
          ((copiedToolCalls tools).map ToolCall.whole) } := by
  rw [startChoice, copiedToolCalls_withIndex, Accumulated.addChoice]
  exact congrArg (fun calls : List (Int × CallAcc) => ({ calls } : Accumulated))
    (addCalls_withIndex [] (copiedToolCalls tools) 0)

/-- **The first piece**, with its start chunk. -/
theorem sendChoice_first (env : GeminiEnv) (hcount : s.sendResponseCount = 0)
    (hsent : accumulate s.sent = {}) (hfinish : s.finishReason = "stop") (piece : List ChatPart) :
    let s' := s.sendChoice env
      (pieceChoice piece (withIndex 0 (newTools uuid 0 (functionCalls piece))))
    accumulate s'.sent = cutMessage uuid [piece] ∧
      s'.finishReason = (if functionCalls piece ≠ [] then "tool_calls" else "stop") ∧
      s'.sendResponseCount ≠ 0 ∧ s'.uuids = s.uuids ∧
      s'.toolCallIndexByChoice = s.toolCallIndexByChoice ∧
      s'.nextToolCallIndexByChoice = s.nextToolCallIndexByChoice := by
  intro s'
  have htool (tools : List ToolCall) : (([pieceChoice piece tools].head?.map
      (·.delta.toolCalls)).getD []) = tools := by
    show (pieceChoice piece tools).delta.toolCalls = tools
    rw [pieceChoice]
    split <;> rfl
  by_cases hcalls : functionCalls piece ≠ []
  · -- the start chunk has the ids and names, the piece has the arguments
    have hs' : s' = GeminiStream.handleStream
        (GeminiStream.handleStream { s with finishReason := "tool_calls" }
          ⟨env.id, env.upstreamModelName,
            [startChoice (withIndex 0 (newTools uuid 0 (functionCalls piece)))], none⟩)
        ⟨env.id, env.upstreamModelName,
          [{ pieceChoice piece (clearedToolCalls (withIndex 0
            (newTools uuid 0 (functionCalls piece)))) with finishReason := none }], none⟩ := by
      simp only [s', GeminiStream.sendChoice, if_pos hcount, GeminiStream.first, htool,
        if_pos (newTools_ne_nil.mpr hcalls), clearToolCalls_piece hcalls]
      rfl
    rw [hs']
    refine ⟨?_, (if_pos hcalls).symm, Nat.succ_ne_zero _, rfl, rfl, rfl⟩
    have hcleared := addCalls_cleared [] (newTools uuid 0 (functionCalls piece)) 0
    simp only [GeminiStream.handleStream, accumulate_concat, Accumulated.add_choice, hsent,
      addChoice_startChoice, Accumulated.addChoice_piece, clearedToolCalls_withIndex]
    rw [cutMessage, List.flatten_singleton, List.map_singleton, List.map_singleton]
    simp only [String.join_cons, String.join_nil, String.append_empty, String.empty_append]
    exact congrArg (fun calls => Accumulated.mk _ _ calls []) hcleared
  · have hnil : functionCalls piece = [] := not_not.mp hcalls
    have hs' : s' = GeminiStream.handleStream
        (s.handleStream (generateStartEmptyResponse env.id env.upstreamModelName))
        ⟨env.id, env.upstreamModelName, [pieceChoice piece []], none⟩ := by
      simp only [s', hnil, newTools, withIndex, GeminiStream.sendChoice, if_pos hcount,
        GeminiStream.first, htool, ne_eq, not_true_eq_false, if_false]
    rw [hs', if_neg hcalls]
    refine ⟨?_, hfinish, Nat.succ_ne_zero _, rfl, rfl, rfl⟩
    have hreason : pieceChoice piece [] = { pieceChoice piece [] with finishReason := none } := by
      rw [pieceChoice, if_neg hcalls]
    have hempty : Accumulated.add {} (generateStartEmptyResponse env.id env.upstreamModelName) =
        {} := by
      rw [Accumulated.add_content {} (show (generateStartEmptyResponse env.id
        env.upstreamModelName).choices = [{ delta := { content := some "" } }] from rfl)]
      rfl
    simp only [GeminiStream.handleStream, accumulate_concat, Accumulated.add_choice, hsent,
      hempty]
    rw [hreason, Accumulated.addChoice_piece, cutMessage, List.flatten_singleton, hnil,
      List.map_singleton, List.map_singleton]
    simp only [String.join_cons, String.join_nil, String.append_empty, String.empty_append]
    rfl

/-- **A later piece** of a choice: what a client accumulates is the message of the pieces before
with this one added, whose tool calls are numbered after theirs. -/
theorem sendChoice_later (env : GeminiEnv) (hcount : s.sendResponseCount ≠ 0)
    {cut : List (List ChatPart)} (hcut : cut ≠ []) (hsent : accumulate s.sent = cutMessage uuid cut)
    (piece : List ChatPart) :
    let s' := s.sendChoice env (pieceChoice piece (withIndex (functionCalls cut.flatten).length
      (newTools uuid (functionCalls cut.flatten).length (functionCalls piece))))
    accumulate s'.sent = cutMessage uuid (cut ++ [piece]) ∧
      s'.finishReason = s.finishReason ∧
      s'.sendResponseCount ≠ 0 ∧ s'.uuids = s.uuids ∧
      s'.toolCallIndexByChoice = s.toolCallIndexByChoice ∧
      s'.nextToolCallIndexByChoice = s.nextToolCallIndexByChoice := by
  intro s'
  have hs' : s' = s.handleStream ⟨env.id, env.upstreamModelName,
      [pieceChoice piece (withIndex (functionCalls cut.flatten).length
        (newTools uuid (functionCalls cut.flatten).length (functionCalls piece)))], none⟩ := by
    simp only [s', GeminiStream.sendChoice, if_neg hcount]
  rw [hs']
  refine ⟨?_, rfl, Nat.succ_ne_zero _, rfl, rfl, rfl⟩
  have hcalls := addCalls_withIndex
    ((newTools uuid 0 (functionCalls cut.flatten)).map ToolCall.whole)
    (newTools uuid (functionCalls cut.flatten).length (functionCalls piece)) 0
  have hall : functionCalls (cut ++ [piece]).flatten =
      functionCalls cut.flatten ++ functionCalls piece := by
    rw [List.flatten_append, List.flatten_singleton, functionCalls, List.filterMap_append]
    rfl
  rw [List.length_map, length_newTools, ← List.map_append] at hcalls
  have hnew := newTools_append uuid 0 (functionCalls cut.flatten) (functionCalls piece)
  rw [Nat.zero_add] at hnew
  have hchoice := Accumulated.addChoice_piece (cutMessage uuid cut) piece
    (withIndex (functionCalls cut.flatten).length
      (newTools uuid (functionCalls cut.flatten).length (functionCalls piece)))
    (if functionCalls piece ≠ [] then some "tool_calls" else none)
  rw [GeminiStream.handleStream, accumulate_concat, hsent]
  refine hchoice.trans ?_
  rw [cutMessage, cutMessage, hall, hnew, ← hcalls, List.map_append, List.map_append,
    List.tail_append_of_ne_nil hcut, List.flatMap_append]
  simp only [String.join_append, List.map_singleton, String.join_cons, String.join_nil,
    String.append_empty, List.flatMap_singleton]
  congr 2
  split <;> rfl

/-- **The handler follows a stream by one piece.** -/
theorem GeminiStream.Follows.sendChoice (huuid : Function.Injective uuid) (env : GeminiEnv)
    {cut : List (List ChatPart)} (hs : s.Follows uuid index cut)
    {piece : List ChatPart} {tools : List ToolCall}
    (htools : tools.map ToolCall.bare = newTools uuid s.uuids (functionCalls piece)) :
    let r := GeminiStream.setIndices
      { s with uuids := s.uuids + (functionCalls piece).length } index tools
    (r.1.sendChoice env (pieceChoice piece r.2)).Follows uuid index (cut ++ [piece]) := by
  intro r
  have hknows : GeminiStream.Knows uuid
      { s with uuids := s.uuids + (functionCalls piece).length } index s.uuids := hs.knows
  obtain ⟨htools', hknows', indices, next, hsame⟩ := setIndices_new huuid htools hknows
  have huuids : s.uuids + (functionCalls piece).length =
      (functionCalls (cut ++ [piece]).flatten).length := by
    rw [hs.uuids, List.flatten_append, List.flatten_singleton, functionCalls, functionCalls,
      functionCalls, List.filterMap_append, List.length_append]
  have hsent : r.1.sent = s.sent := (congrArg GeminiStream.sent hsame :)
  have hfinish : r.1.finishReason = s.finishReason :=
    (congrArg GeminiStream.finishReason hsame :)
  have hcount : r.1.sendResponseCount = s.sendResponseCount :=
    (congrArg GeminiStream.sendResponseCount hsame :)
  have huuids' : r.1.uuids = s.uuids + (functionCalls piece).length :=
    (congrArg GeminiStream.uuids hsame :)
  rw [show r.2 = _ from htools', hs.uuids]
  by_cases hcut : cut = []
  · subst hcut
    rw [show (functionCalls ([] : List (List ChatPart)).flatten).length = 0 from rfl]
    obtain ⟨hacc, hreason, hsent', hu, hi, hn⟩ := sendChoice_first env
      (hcount.trans (hs.count.mpr rfl)) ((congrArg accumulate hsent).trans hs.acc)
      (hfinish.trans hs.finishReason) piece
    exact
      { uuids := hu.trans (huuids'.trans huuids)
        knows := hknows'.congr hi hn (hu.trans huuids').symm
        count := iff_of_false hsent' (List.cons_ne_nil _ _)
        finishReason := hreason
        acc := hacc }
  · obtain ⟨hacc, hreason, hsent', hu, hi, hn⟩ := sendChoice_later env
      (hcount.trans_ne (hs.count.not.mpr hcut)) hcut ((congrArg accumulate hsent).trans hs.acc)
      piece
    obtain ⟨first, rest, rfl⟩ := List.exists_cons_of_ne_nil hcut
    exact
      { uuids := hu.trans (huuids'.trans huuids)
        knows := hknows'.congr hi hn (hu.trans huuids').symm
        count := iff_of_false hsent' (List.cons_ne_nil _ _)
        finishReason := hreason.trans (hfinish.trans hs.finishReason)
        acc := hacc }

/-- **The handler follows every stream of pieces**, before it says `STOP`. -/
theorem follows_pieces (huuid : Function.Injective uuid) (env : GeminiEnv) (index : Int)
    (cut : List (List ChatPart)) :
    ((cut.map fun piece => pieceResponse index piece none).foldl
      (GeminiStream.callback uuid env) {}).Follows uuid index cut := by
  induction cut using List.reverseRecOn with
  | nil => exact geminiFollows_init index
  | append_singleton cut piece ih =>
    rw [List.map_append, List.foldl_append, List.map_singleton, List.foldl_cons, List.foldl_nil]
    obtain ⟨tools, htools, hcallback⟩ := callback_piece env _ index piece false
    exact hcallback ▸ ih.sendChoice huuid env htools

/-- The streamed responses that `init` and `last` cut a candidate into; the last one says
`STOP`. -/
def cutResponses (index : Int) (init : List (List ChatPart)) (last : List ChatPart) :
    List GeminiChatResponse :=
  init.map (fun piece => pieceResponse index piece none) ++ [pieceResponse index last (some "STOP")]

/-- **What a client makes of a stream.** -/
theorem accumulate_geminiChatStreamHandler (huuid : Function.Injective uuid) (env : GeminiEnv)
    (index : Int) (init : List (List ChatPart)) (last : List ChatPart) :
    accumulate (geminiChatStreamHandler uuid env (cutResponses index init last)) =
      { cutMessage uuid (init ++ [last]) with
        finishReasons := (cutMessage uuid (init ++ [last])).finishReasons ++
          [if functionCalls ((init ++ [last]).headD []) ≠ [] then "tool_calls" else "stop"] } := by
  obtain ⟨tools, htools, hcallback⟩ := callback_piece env
    ((init.map fun piece => pieceResponse index piece none).foldl
      (GeminiStream.callback uuid env) {}) index last true
  have hfollows := (follows_pieces huuid env index init).sendChoice huuid env htools
  have hsent : accumulate (geminiChatStreamHandler uuid env (cutResponses index init last)) =
      accumulate
        ((cutResponses index init last).foldl (GeminiStream.callback uuid env) {}).sent := by
    rw [geminiChatStreamHandler]
    split
    · rw [accumulate_concat, Accumulated.add_of_no_choice _ rfl]
    · rw [List.append_nil]
  have hresponses : (cutResponses index init last).foldl (GeminiStream.callback uuid env) {} =
      GeminiStream.callback uuid env ((init.map fun piece => pieceResponse index piece none).foldl
        (GeminiStream.callback uuid env) {}) (pieceResponse index last (some "STOP")) := by
    rw [cutResponses, List.foldl_append, List.foldl_cons, List.foldl_nil]
  rw [if_pos rfl] at hcallback
  dsimp only at hcallback
  have hreason : (if functionCalls ((init ++ [last]).headD []) ≠ [] then "tool_calls" else "stop") ≠
      "" := by
    split <;> decide
  rw [hsent, hresponses, hcallback, if_pos rfl, GeminiStream.handleStream, accumulate_concat,
    hfollows.finishReason, Accumulated.add_finish _ hreason rfl, hfollows.acc]

end Parts

/-! ### Texts and separators -/

/-- **A text that is made of `texts` in their order**, with line feeds between them as
separators. -/
inductive MadeOf : List String → String → Prop
  | nil : MadeOf [] ""
  | text {texts : List String} {s : String} (t : String) (h : MadeOf texts s) :
    MadeOf (t :: texts) (t ++ s)
  | separator {texts : List String} {s : String} (h : MadeOf texts s) : MadeOf texts ("\n" ++ s)
  | blank {texts : List String} {s : String} (h : MadeOf texts s) : MadeOf ("\n" :: texts) s

theorem MadeOf.append {texts texts' : List String} {s s' : String} (h : MadeOf texts s)
    (h' : MadeOf texts' s') : MadeOf (texts ++ texts') (s ++ s') := by
  induction h with
  | nil => rwa [List.nil_append, String.empty_append]
  | text t _ ih =>
    rw [List.cons_append, String.append_assoc]
    exact ih.text t
  | separator _ ih =>
    rw [String.append_assoc]
    exact ih.separator
  | blank _ ih => exact ih.blank

/-- What the code makes of texts: single line feeds go, and the others are joined by line
feeds. -/
theorem madeOf_intercalate (texts : List String) :
    MadeOf texts ("\n".intercalate (texts.filter (· ≠ "\n"))) := by
  induction texts with
  | nil => exact .nil
  | cons t texts ih =>
    by_cases ht : t ≠ "\n"
    · rw [List.filter_cons_of_pos (by simpa using ht)]
      by_cases hrest : texts.filter (· ≠ "\n") = []
      · rw [hrest, String.intercalate_nil] at ih
        have htext := ih.text t
        rw [String.append_empty] at htext
        rwa [hrest, String.intercalate_singleton]
      · rw [String.intercalate_cons_of_ne_nil hrest, String.append_assoc]
        exact ih.separator.text t
    · rw [not_not] at ht
      rw [ht, List.filter_cons_of_neg (by simp)]
      exact ih.blank

theorem madeOf_join {α : Type*} {f : α → List String} {g : α → String} {l : List α}
    (h : ∀ x ∈ l, MadeOf (f x) (g x)) : MadeOf (l.flatMap f) (String.join (l.map g)) := by
  induction l with
  | nil => exact .nil
  | cons x l ih =>
    rw [List.forall_mem_cons] at h
    rw [List.flatMap_cons, List.map_cons, String.join_cons]
    exact h.1.append (ih h.2)

/-! ### Thoughts of a piece -/

/-- The lines are the thoughts and the texts that are no line feeds. -/
theorem length_linesOf (parts : List ChatPart) :
    (linesOf parts).length =
      (thoughtsOf parts).length + ((textsOf parts).filter (· ≠ "\n")).length := by
  induction parts with
  | nil => rfl
  | cons part parts ih =>
    cases part with
    | thought t =>
      rw [thoughtsOf_thought, List.length_cons, Nat.add_right_comm]
      exact congrArg Nat.succ ih
    | text t =>
      rw [thoughtsOf_text, linesOf_text, textsOf_text]
      by_cases ht : t = "\n"
      · simpa [ht] using ih
      · simpa [ht, ← Nat.add_assoc] using ih
    | call name arguments => exact ih

theorem thoughtsOf_sublist (parts : List ChatPart) :
    (thoughtsOf parts).Sublist (linesOf parts) := by
  induction parts with
  | nil => exact .slnil
  | cons part parts ih =>
    cases part with
    | thought t => exact ih.cons_cons t
    | text t =>
      rw [thoughtsOf_text, linesOf_text]
      split
      · exact ih.cons t
      · exact ih
    | call name arguments => exact ih

theorem linesOf_of_no_thought {parts : List ChatPart} (h : thoughtsOf parts = []) :
    linesOf parts = (textsOf parts).filter (· ≠ "\n") := by
  induction parts with
  | nil => rfl
  | cons part parts ih =>
    cases part with
    | thought t => exact absurd h (List.cons_ne_nil _ _)
    | text t =>
      rw [linesOf_text, textsOf_text, ih h]
      by_cases ht : t = "\n"
      · simp [ht]
      · simp [ht]
    | call name arguments => exact ih h

/-- The reasoning that is sent for a piece. -/
def pieceReasoning (piece : List ChatPart) : String :=
  if thoughtsOf piece ≠ [] then pieceText piece else ""

/-- The content that is sent for a piece. -/
def pieceContent (piece : List ChatPart) : String :=
  if thoughtsOf piece ≠ [] then "" else pieceText piece

/-- A piece with a thought has nothing else to say. -/
def OneLine (piece : List ChatPart) : Prop := thoughtsOf piece ≠ [] → (linesOf piece).length = 1

/-- The reasoning of a piece is not shorter than its thoughts. -/
theorem length_pieceReasoning (piece : List ChatPart) :
    (String.join (thoughtsOf piece)).length + (if thoughtsOf piece ≠ [] then
      (linesOf piece).length - 1 else 0) ≤ (pieceReasoning piece).length := by
  rw [pieceReasoning]
  by_cases h : thoughtsOf piece ≠ []
  · have hsum := GoText.length_join_le_of_sublist (thoughtsOf_sublist piece)
    have hsep : "\n".length = 1 := rfl
    rw [if_pos h, if_pos h, pieceText, GoText.length_intercalate, hsep, Nat.one_mul]
    exact Nat.add_le_add_right hsum _
  · rw [not_not] at h
    simp [h]

/-- **The reasoning of a piece is its thoughts** if there is one line. -/
theorem join_thoughtsOf_eq_iff (piece : List ChatPart) :
    String.join (thoughtsOf piece) = pieceReasoning piece ↔ OneLine piece := by
  constructor
  · intro heq h
    have hlen := length_pieceReasoning piece
    have hone := length_linesOf piece
    have hpos := List.length_pos_iff.mpr h
    rw [heq, if_pos h] at hlen
    omega
  · intro h
    by_cases hthought : thoughtsOf piece ≠ []
    · have hone := h hthought
      have hpos := List.length_pos_iff.mpr hthought
      have hsame : thoughtsOf piece = linesOf piece :=
        (thoughtsOf_sublist piece).eq_of_length_le (by omega)
      rw [pieceReasoning, if_pos hthought, pieceText, hsame]
      obtain ⟨line, hline⟩ := List.length_eq_one_iff.mp hone
      rw [hline, String.intercalate_singleton, String.join_cons, String.join_nil,
        String.append_empty]
    · rw [pieceReasoning, if_neg hthought, not_not.mp hthought, String.join_nil]

theorem madeOf_pieceContent {piece : List ChatPart} (h : OneLine piece) :
    MadeOf (textsOf piece) (pieceContent piece) := by
  have hmade := madeOf_intercalate (textsOf piece)
  by_cases hthought : thoughtsOf piece ≠ []
  · have hone := h hthought
    have hpos := List.length_pos_iff.mpr hthought
    have hlen := length_linesOf piece
    have hnil : (textsOf piece).filter (· ≠ "\n") = [] := by
      rw [← List.length_eq_zero_iff]
      omega
    rw [hnil, String.intercalate_nil] at hmade
    rwa [pieceContent, if_pos hthought]
  · rw [pieceContent, if_neg hthought, pieceText, linesOf_of_no_thought (not_not.mp hthought)]
    exact hmade

/-! ### Agreement -/

/-- How a message with these parts ends. -/
def endReason (parts : List ChatPart) : String :=
  if functionCalls parts ≠ [] then "tool_calls" else "stop"

/-- **A stream agrees with its parts**, and so does the whole response `w`. -/
structure GeminiAgrees (parts : List ChatPart) (acc : Accumulated) (w : Completion) : Prop where
  reasoning : acc.reasoning = String.join (thoughtsOf parts)
  text : MadeOf (textsOf parts) acc.text
  calls : acc.toolCalls.map (fun call => (call.name, call.arguments)) = functionCalls parts
  indices : (acc.calls.map Prod.fst).Nodup
  finishReasons : acc.finishReasons = [endReason parts]
  whole_reasoning : w.reasoningContent = acc.reasoning
  whole_text : MadeOf (textsOf parts) w.content
  whole_calls : w.toolCalls.map (fun call => (call.name, call.arguments)) = functionCalls parts
  whole_finishReason : w.finishReason = endReason parts

section Agreement

variable {uuid : Nat → String}

theorem map_newTools (n : Nat) (calls : List (String × String)) :
    (newTools uuid n calls).map (fun call => (call.name, call.arguments)) = calls := by
  induction calls generalizing n with
  | nil => rfl
  | cons call calls ih => rw [newTools, List.map_cons, ih]

/-- **The whole response**: the message has the texts of the parts joined, the last of their
thoughts, and a tool call for each function call. -/
theorem responseGeminiChat2OpenAI_parts (n : Nat) (index : Int) (parts : List ChatPart) :
    responseGeminiChat2OpenAI uuid n (pieceResponse index parts (some "STOP")) =
      [(index,
        { content := "\n".intercalate ((textsOf parts).filter (· ≠ "\n"))
          reasoningContent := (thoughtsOf parts).getLast?.getD ""
          toolCalls := newTools uuid n (functionCalls parts)
          finishReason := endReason parts })] := by
  obtain ⟨htexts, htools, hthought⟩ := foldl_addWhole uuid parts { uuids := n }
  rw [List.nil_append] at htexts htools
  have hreason : (if newTools uuid n (functionCalls parts) ≠ [] then "tool_calls" else "stop") =
      endReason parts := by
    rw [endReason]
    congr 1
    cases functionCalls parts <;> simp [newTools]
  simp only [responseGeminiChat2OpenAI, pieceResponse, wholeChoices, wholeChoice, htexts, htools,
    hthought, ← hreason]
  simp [geminiFinishReason]

/-- Every piece but the first with a function call has a finish reason. -/
theorem finishReasons_eq_iff (init : List (List ChatPart)) (last : List ChatPart) :
    (cutMessage uuid (init ++ [last])).finishReasons ++
        [endReason ((init ++ [last]).headD [])] = [endReason (init ++ [last]).flatten] ↔
      ∀ piece ∈ (init ++ [last]).tail, functionCalls piece = [] := by
  have hnil : (cutMessage uuid (init ++ [last])).finishReasons = [] ↔
      ∀ piece ∈ (init ++ [last]).tail, functionCalls piece = [] := by
    rw [cutMessage, List.flatMap_eq_nil_iff]
    refine forall₂_congr fun piece _ => ?_
    split
    · next h => exact iff_of_false (List.cons_ne_nil _ _) h
    · next h => exact iff_of_true rfl (not_not.mp h)
  rw [← hnil]
  obtain ⟨first, rest, hcut⟩ := List.exists_cons_of_ne_nil
    (show init ++ [last] ≠ [] from List.append_ne_nil_of_right_ne_nil _ (List.cons_ne_nil _ _))
  constructor
  · intro heq
    have hlen := congrArg List.length heq
    rw [List.length_append, List.length_singleton, List.length_singleton] at hlen
    exact List.length_eq_zero_iff.mp (by omega)
  · intro h
    rw [h, List.nil_append]
    -- the calls are those of the first piece
    have hrest : functionCalls rest.flatten = [] := by
      rw [hnil, hcut, List.tail_cons] at h
      rw [functionCalls, List.filterMap_flatten, List.flatten_eq_nil_iff]
      exact List.forall_mem_map.mpr h
    have hall : functionCalls (init ++ [last]).flatten = functionCalls first := by
      rw [hcut, List.flatten_cons, functionCalls, List.filterMap_append]
      exact (congrArg (functionCalls first ++ ·) hrest).trans (List.append_nil _)
    rw [endReason, endReason, hall, hcut, List.headD_cons]

/-- **When a Gemini stream agrees with the whole response**: the pieces with thoughts have
one line each, there is no function call after the first piece, and only the last thought
has a text. -/
theorem geminiAgrees_iff (huuid : Function.Injective uuid) (env : GeminiEnv) (index : Int)
    (init : List (List ChatPart)) (last : List ChatPart) (n : Nat) :
    (∃ w, responseGeminiChat2OpenAI uuid n
          (pieceResponse index (init ++ [last]).flatten (some "STOP")) = [(index, w)] ∧
        GeminiAgrees (init ++ [last]).flatten
          (accumulate (geminiChatStreamHandler uuid env (cutResponses index init last))) w) ↔
      (∀ piece ∈ init ++ [last], OneLine piece) ∧
        (∀ piece ∈ (init ++ [last]).tail, functionCalls piece = []) ∧
        ∀ t ∈ (thoughtsOf (init ++ [last]).flatten).dropLast, t = "" := by
  have hacc := accumulate_geminiChatStreamHandler huuid env index init last
  have hfinish := @finishReasons_eq_iff uuid init last
  have hwhole := @responseGeminiChat2OpenAI_parts uuid n index (init ++ [last]).flatten
  generalize hcut : init ++ [last] = cut at *
  have hthoughts : String.join (thoughtsOf cut.flatten) =
      String.join (cut.map fun piece => String.join (thoughtsOf piece)) := by
    rw [← List.flatMap_id, thoughtsOf, GoText.join_flatMap_filterMap]
    rfl
  have htexts : textsOf cut.flatten = cut.flatMap textsOf := by
    rw [textsOf, List.filterMap_flatten, List.flatMap_def]
    rfl
  have hreasoning : String.join (thoughtsOf cut.flatten) = (cutMessage uuid cut).reasoning ↔
      ∀ piece ∈ cut, OneLine piece := by
    rw [hthoughts]
    refine (GoText.join_map_eq_iff fun piece _ => ?_).trans
      (forall₂_congr fun piece _ => join_thoughtsOf_eq_iff piece)
    exact (Nat.le_add_right _ _).trans (length_pieceReasoning piece)
  constructor
  · rintro ⟨w, hw, hagree⟩
    rw [hacc] at hagree
    have hw' := List.head_eq_of_cons_eq (hwhole.symm.trans hw)
    have hlast := hagree.whole_reasoning.trans hagree.reasoning
    refine ⟨hreasoning.mp hagree.reasoning.symm, hfinish.mp hagree.finishReasons, ?_⟩
    rw [← GoText.join_eq_getLast_iff, ← hlast, ← (Prod.mk.inj hw').2]
  · rintro ⟨hone, hcalls, hlast⟩
    refine ⟨_, hwhole, ?_⟩
    rw [hacc]
    exact
      { reasoning := (hreasoning.mpr hone).symm
        text := by
          rw [htexts]
          exact madeOf_join fun piece hpiece => madeOf_pieceContent (hone piece hpiece)
        calls := by
          rw [Accumulated.toolCalls, cutMessage, map_snd_number, List.map_map]
          exact map_newTools 0 _
        indices := nodup_number natCast_injective _
        finishReasons := hfinish.mpr hcalls
        whole_reasoning := by
          rw [← (GoText.join_eq_getLast_iff _).mpr hlast]
          exact hreasoning.mpr hone
        whole_text := madeOf_intercalate _
        whole_calls := map_newTools n _
        whole_finishReason := rfl }

end Agreement

/-! ### Two streams -/

/-- UUIDs that are all different. -/
def tallyUuid (n : Nat) : String := String.ofList (List.replicate n '0')

theorem tallyUuid_injective : Function.Injective tallyUuid := by
  intro n m h
  simpa [tallyUuid] using congrArg String.length h

def plainGeminiEnv : GeminiEnv := ⟨"chatcmpl-1", "gemini", false, {}⟩

/-- A call with a thought, and then texts. -/
theorem geminiAgrees_call_then_text :
    ∃ w, responseGeminiChat2OpenAI tallyUuid 0 (pieceResponse 0
          [.call "f" "\x7b\x7d", .thought "hm", .text "hello", .text "\n"] (some "STOP")) =
        [(0, w)] ∧
      GeminiAgrees [.call "f" "\x7b\x7d", .thought "hm", .text "hello", .text "\n"]
        (accumulate (geminiChatStreamHandler tallyUuid plainGeminiEnv
          (cutResponses 0 [[.call "f" "\x7b\x7d", .thought "hm"], []]
            [.text "hello", .text "\n"]))) w :=
  (geminiAgrees_iff tallyUuid_injective plainGeminiEnv 0
    [[.call "f" "\x7b\x7d", .thought "hm"], []] [.text "hello", .text "\n"] 0).mpr
      ⟨by simp +decide [OneLine], by decide, by decide⟩

/-- A thought and a text in one piece: both are sent as reasoning. -/
theorem not_geminiAgrees_thought_with_text :
    ¬∃ w, responseGeminiChat2OpenAI tallyUuid 0
          (pieceResponse 0 [.thought "hm", .text "hello"] (some "STOP")) = [(0, w)] ∧
      GeminiAgrees [.thought "hm", .text "hello"]
        (accumulate (geminiChatStreamHandler tallyUuid plainGeminiEnv
          (cutResponses 0 [] [.thought "hm", .text "hello"]))) w := by
  rintro ⟨w, -, h⟩
  exact absurd h.reasoning (by decide)

end NewApiPool.Convert
