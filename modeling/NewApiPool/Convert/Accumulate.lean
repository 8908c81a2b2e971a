import NewApiPool.Lib.Keyed
import NewApiPool.Convert.Chat

/-!
# What a client makes of a stream

An OpenAI client puts the chunks of a stream together: the texts and the reasoning are
concatenated, and a piece of a tool call goes to the call of its index. The id and the name
of a call are the first that come, its arguments are all that come.
-/

namespace NewApiPool.Convert

open Keyed

/-- A tool call that is put together from its pieces. -/
structure CallAcc where
  id : String := ""
  name : String := ""
  arguments : String := ""
deriving DecidableEq, Repr

/-- One more piece of a call. -/
def CallAcc.add (acc : CallAcc) (piece : ToolCall) : CallAcc :=
  { id := if acc.id = "" then piece.id else acc.id
    name := if acc.name = "" then piece.name else acc.name
    arguments := acc.arguments ++ piece.arguments }

/-- The call that a single piece makes. -/
def ToolCall.whole (call : ToolCall) : CallAcc := ⟨call.id, call.name, call.arguments⟩

@[simp] theorem CallAcc.add_empty (piece : ToolCall) :
    CallAcc.add {} piece = piece.whole := by
  simp [CallAcc.add, ToolCall.whole]

/-- **A message that is put together from chunks.** -/
structure Accumulated where
  text : String := ""
  reasoning : String := ""
  /-- the tool calls, with their indices -/
  calls : List (Int × CallAcc) := []
  finishReasons : List String := []
deriving DecidableEq, Repr

/-- The pieces of tool calls of a delta; a piece without an index goes by its place. -/
def addCalls (calls : List (Int × CallAcc)) (pieces : List (ToolCall × Nat)) :
    List (Int × CallAcc) :=
  pieces.foldl (fun calls piece => alter (piece.1.index.getD piece.2) {} (·.add piece.1) calls)
    calls

def Accumulated.addChoice (acc : Accumulated) (choice : Choice) : Accumulated :=
  { text := acc.text ++ choice.delta.getContentString
    reasoning := acc.reasoning ++ choice.delta.getReasoningContent
    calls := addCalls acc.calls choice.delta.toolCalls.zipIdx
    finishReasons := acc.finishReasons ++ choice.finishReason.toList.filter (· ≠ "") }

/-- One more chunk: of its choices the first is read. -/
def Accumulated.add (acc : Accumulated) (chunk : Chunk) : Accumulated :=
  match chunk.choices with
  | choice :: _ => acc.addChoice choice
  | [] => acc

/-- The message that chunks make. -/
def accumulate (chunks : List Chunk) : Accumulated := chunks.foldl Accumulated.add {}

theorem accumulate_concat (chunks : List Chunk) (chunk : Chunk) :
    accumulate (chunks ++ [chunk]) = (accumulate chunks).add chunk := by
  rw [accumulate, List.foldl_append]
  rfl

/-! ### Chunks of one kind -/

section Chunks

variable {chunk : Chunk} (acc : Accumulated)

theorem Accumulated.add_of_no_choice (h : chunk.choices = []) : acc.add chunk = acc := by
  rw [Accumulated.add, h]

theorem Accumulated.add_content {text : String}
    (h : chunk.choices = [{ delta := { content := some text } }]) :
    acc.add chunk = { acc with text := acc.text ++ text } := by
  simp [Accumulated.add, h, Accumulated.addChoice, Delta.getContentString,
    Delta.getReasoningContent, addCalls]

theorem Accumulated.add_reasoning {text : String}
    (h : chunk.choices = [{ delta := { reasoningContent := some text } }]) :
    acc.add chunk = { acc with reasoning := acc.reasoning ++ text } := by
  simp [Accumulated.add, h, Accumulated.addChoice, Delta.getContentString,
    Delta.getReasoningContent, addCalls]

theorem Accumulated.add_finish {reason : String} (hreason : reason ≠ "")
    (h : chunk.choices = [{ finishReason := some reason }]) :
    acc.add chunk = { acc with finishReasons := acc.finishReasons ++ [reason] } := by
  simp [Accumulated.add, h, Accumulated.addChoice, Delta.getContentString,
    Delta.getReasoningContent, addCalls, hreason]

theorem Accumulated.add_piece {piece : ToolCall} {index : Int} (hindex : piece.index = some index)
    (h : chunk.choices = [{ delta := { toolCalls := [piece] } }]) :
    acc.add chunk = { acc with calls := alter index {} (·.add piece) acc.calls } := by
  simp [Accumulated.add, h, Accumulated.addChoice, Delta.getContentString,
    Delta.getReasoningContent, addCalls, hindex]

theorem Accumulated.add_empty (h : chunk.choices = [{}]) : acc.add chunk = acc := by
  simp [Accumulated.add, h, Accumulated.addChoice, Delta.getContentString,
    Delta.getReasoningContent, addCalls]

end Chunks

/-- A chat completion: the content and the rest of its message, and the finish reason. -/
structure Completion where
  content : String
  reasoningContent : String
  toolCalls : List ToolCall
  finishReason : String
deriving DecidableEq, Repr

/-- The tool calls of a message, without their indices. -/
def Accumulated.toolCalls (acc : Accumulated) : List CallAcc := acc.calls.map Prod.snd

end NewApiPool.Convert
