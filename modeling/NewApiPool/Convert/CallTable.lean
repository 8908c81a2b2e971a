import NewApiPool.Convert.Accumulate
import NewApiPool.Convert.Responses

/-!
# The tool calls of a Responses stream, by call id

`OaiResponsesToChatStreamHandler` keeps the indices of the tool calls and what was sent of
them in several maps, and the client puts the calls together by index. Seen from outside,
this is one table of calls under their call ids: the handler represents it
(`Handler.Represents`), and `sendToolCallDelta` alters the entry of a call id
(`Handler.Represents.sendToolCallDelta`).
-/

namespace NewApiPool.Convert

open Keyed

-- comparing two call ids is never worth computing them
attribute [local irreducible] OutputItem.canonicalID GoText.trimSpace

/-! ### What was sent -/

/-- A chunk among what is handed on. -/
def Sent.chunk? : Sent → Option Chunk
  | .chunk c => some c
  | .usage _ => none

/-- The message that a client has put together so far. -/
def Handler.acc (h : Handler) : Accumulated := accumulate (h.sent.filterMap Sent.chunk?)

theorem Handler.acc_sendChatChunk (h : Handler) (chunk : Chunk) :
    (h.sendChatChunk chunk).acc = h.acc.add chunk := by
  rw [Handler.acc, Handler.sendChatChunk, List.filterMap_append]
  exact accumulate_concat _ chunk

theorem Handler.acc_usage (h : Handler) (usage : Usage) :
    { h with sent := h.sent ++ [Sent.usage usage] }.acc = h.acc := by
  refine congrArg accumulate ((List.filterMap_append ..).trans ?_)
  exact List.append_nil _

/-- The last chunk of an OpenAI client has the usage and no choices. -/
theorem accumulate_openAIChunks (env : ResponsesEnv) (events : List ResponsesEvent) :
    accumulate (openAIChunks env events) = (oaiResponsesToChatStreamHandler env events).acc := by
  obtain ⟨last, hchunks, hlast⟩ : ∃ last, openAIChunks env events =
      (oaiResponsesToChatStreamHandler env events).sent.filterMap Sent.chunk? ++ last ∧
      (last = [] ∨ ∃ chunk : Chunk, last = [chunk] ∧ chunk.choices = []) := by
    refine ⟨_, rfl, ?_⟩
    split
    · exact Or.inr ⟨_, rfl, rfl⟩
    · exact Or.inl rfl
  rw [hchunks, Handler.acc]
  rcases hlast with rfl | ⟨chunk, rfl, hchoices⟩
  · rw [List.append_nil]
  · rw [accumulate_concat, Accumulated.add_of_no_choice _ hchoices]

/-- The table of the tool calls: what a client has of each, by call id. -/
abbrev CallTable := List (String × CallAcc)

/-- One more piece of the call `callID`. -/
def CallTable.send (table : CallTable) (callID name arguments : String) : CallTable :=
  alter callID {} (·.add { id := callID, name, arguments }) table

/-- **A handler represents a table**, while its stream goes on. -/
structure Handler.Represents (h : Handler) (table : CallTable) : Prop where
  text : h.acc.text = h.outputText
  calls : h.acc.calls = number (fun i : Nat => (i : Int)) (table.map Prod.snd)
  finishReasons : h.acc.finishReasons = []
  index : h.toolCallIndexByID = (table.map Prod.fst).zipIdx
  nodup : (table.map Prod.fst).Nodup
  ids : ∀ e ∈ table, e.2.id = e.1 ∧ e.1 ≠ ""
  named : ∀ e ∈ table, h.toolCallNameSent e.1 = true ↔ e.2.name ≠ ""
  unnamed : ∀ id, id ∉ table.map Prod.fst → h.toolCallNameSent id = false
  saw : h.sawToolCall = true ↔ table ≠ []
  going : h.streamErr = false ∧ h.sentStop = false

theorem represents_init (model : String) : Handler.Represents { model } [] where
  text := rfl
  calls := rfl
  finishReasons := rfl
  index := rfl
  nodup := List.nodup_nil
  ids := nofun
  named := nofun
  unnamed _ _ := rfl
  saw := by simp
  going := ⟨rfl, rfl⟩

theorem lookup_zipIdx (ids : List String) (id : String) (n : Nat) :
    (ids.zipIdx n).lookup id = if id ∈ ids then some (ids.idxOf id + n) else none := by
  induction ids generalizing n with
  | nil => rfl
  | cons a ids ih =>
    by_cases ha : id = a
    · simp [ha]
    · have hne : (id == a) = false := beq_false_of_ne ha
      rw [List.zipIdx_cons, List.lookup_cons, hne, ih, List.idxOf_cons_ne _ (Ne.symm ha)]
      simp [ha, Nat.add_assoc, Nat.add_comm 1 n]

namespace Handler.Represents

variable {h h' : Handler} {table : CallTable} {env : ResponsesEnv}

/-- Whatever does not touch what was sent nor the maps for it. -/
theorem congr (hr : h.Represents table) (htext : h'.acc.text = h.acc.text)
    (hcalls : h'.acc.calls = h.acc.calls) (hfinish : h'.acc.finishReasons = h.acc.finishReasons)
    (hout : h'.outputText = h.outputText) (hindex : h'.toolCallIndexByID = h.toolCallIndexByID)
    (hsent : h'.toolCallNameSent = h.toolCallNameSent) (hsaw : h'.sawToolCall = h.sawToolCall)
    (herr : h'.streamErr = h.streamErr) (hstop : h'.sentStop = h.sentStop) :
    h'.Represents table where
  text := by rw [htext, hout, hr.text]
  calls := hcalls.trans hr.calls
  finishReasons := hfinish.trans hr.finishReasons
  index := hindex.trans hr.index
  nodup := hr.nodup
  ids := hr.ids
  named := by rw [hsent]; exact hr.named
  unnamed := by rw [hsent]; exact hr.unnamed
  saw := by rw [hsaw]; exact hr.saw
  going := by rw [herr, hstop]; exact hr.going

theorem toolCallIndex (hr : h.Represents table) (callID : String) :
    h.toolCallIndex callID = (table.map Prod.fst).idxOf callID := by
  rw [Handler.toolCallIndex, hr.index, lookup_zipIdx, List.length_zipIdx]
  split
  · rfl
  · next hmem => exact (List.idxOf_eq_length hmem).symm

/-- One more piece of a call, as a client reads it: the name is sent once. -/
theorem calls_send (hr : h.Represents table) (callID name args : String) :
    alter ((h.toolCallIndex callID : Nat) : Int) {} (·.add (h.toolCall callID name args))
        h.acc.calls =
      number (fun i : Nat => (i : Int))
        ((table.send callID (h.toolCallName callID name) args).map Prod.snd) := by
  have hcast : Function.Injective fun i : Nat => (i : Int) := fun _ _ => Int.ofNat_inj.mp
  have hsend : table.send callID (h.toolCallName callID name) args =
      alter callID {} (·.add (h.toolCall callID name args)) table := by
    refine alter_congr ?_ ?_
    · intro acc hmem
      have hnamed := hr.named _ hmem
      by_cases hname : acc.name = ""
      · have hsent : h.toolCallNameSent callID = false :=
          Bool.eq_false_iff.mpr fun hsent => hnamed.mp hsent hname
        simp [CallAcc.add, Handler.toolCall, hsent]
      · simp [CallAcc.add, Handler.toolCall, hname]
    · intro hnew
      simp [Handler.toolCall, hr.unnamed callID hnew, ToolCall.whole]
  rw [hsend, number_alter hcast, hr.calls, hr.toolCallIndex]

theorem sendStartIfNeeded (hr : h.Represents table) :
    (h.sendStartIfNeeded env).Represents table := by
  unfold Handler.sendStartIfNeeded
  split
  · exact hr
  · have hacc : (h.sendChatChunk (generateStartEmptyResponse env.responseId h.model)).acc =
        h.acc := by
      rw [Handler.acc_sendChatChunk, Accumulated.add_content _ rfl, String.append_empty]
    exact hr.congr (congrArg Accumulated.text hacc) (congrArg Accumulated.calls hacc)
      (congrArg Accumulated.finishReasons hacc) rfl rfl rfl rfl rfl rfl

theorem mem_send (hr : h.Represents table) {callID name args : String} {e : String × CallAcc}
    (he : e ∈ table.send callID name args) :
    (e ∈ table ∧ e.1 ≠ callID) ∨
      e.1 = callID ∧ ∃ acc : CallAcc, e.2 = acc.add { id := callID, name, arguments := args } ∧
        ((callID, acc) ∈ table ∨ callID ∉ table.map Prod.fst ∧ acc = {}) := by
  rcases mem_alter hr.nodup he with he | ⟨acc, hmem, rfl⟩ | ⟨hnew, rfl⟩
  · exact Or.inl he
  · exact Or.inr ⟨rfl, acc, rfl, Or.inl hmem⟩
  · exact Or.inr ⟨rfl, {}, rfl, Or.inr ⟨hnew, rfl⟩⟩

theorem index_send (hr : h.Represents table) (callID name args : String) :
    (h.noteToolCall callID name).toolCallIndexByID =
      ((table.send callID (h.toolCallName callID name) args).map Prod.fst).zipIdx := by
  have hlookup := lookup_zipIdx (table.map Prod.fst) callID 0
  rw [CallTable.send, map_fst_alter, Handler.noteToolCall, hr.index, hlookup]
  by_cases hmem : callID ∈ table.map Prod.fst
  · rw [if_pos hmem, if_pos hmem]
    rfl
  · rw [if_neg hmem, if_neg hmem, List.zipIdx_append, List.length_zipIdx, Nat.zero_add]
    rfl

theorem named_send (hr : h.Represents table) {callID name args : String} {e : String × CallAcc}
    (he : e ∈ table.send callID (h.toolCallName callID name) args) :
    (h.noteToolCall callID name).toolCallNameSent e.1 = true ↔ e.2.name ≠ "" := by
  change Function.update h.toolCallNameSent callID
    (h.toolCallNameSent callID || h.toolCallName callID name != "") e.1 = true ↔ e.2.name ≠ ""
  rcases hr.mem_send he with ⟨hmem, hne⟩ | ⟨heq, acc, hacc, hold⟩
  · rw [Function.update_of_ne hne]
    exact hr.named e hmem
  · have hsent : h.toolCallNameSent callID = true ↔ acc.name ≠ "" := by
      rcases hold with hmem | ⟨hnew, rfl⟩
      · exact hr.named _ hmem
      · simp [hr.unnamed callID hnew]
    rw [heq, Function.update_self, hacc, CallAcc.add, Bool.or_eq_true, hsent, bne_iff_ne]
    by_cases hname : acc.name = ""
    · simp [hname]
    · simp [hname]

theorem send (hr : h.Represents table) {callID : String} (hid : callID ≠ "")
    (name args usageText : String) :
    Handler.Represents
      { (h.noteToolCall callID name).sendChatChunk
          (h.chunk env { toolCalls := [h.toolCall callID name args] }) with usageText }
      (table.send callID (h.toolCallName callID name) args) := by
  have hacc : ((h.noteToolCall callID name).sendChatChunk
      (h.chunk env { toolCalls := [h.toolCall callID name args] })).acc =
      { h.acc with calls := (alter ((h.toolCallIndex callID : Nat) : Int) {}
        (·.add (h.toolCall callID name args)) h.acc.calls) } := by
    rw [Handler.acc_sendChatChunk]
    exact Accumulated.add_piece _ rfl rfl
  exact
    { text := (congrArg Accumulated.text hacc).trans hr.text
      calls := (congrArg Accumulated.calls hacc).trans (hr.calls_send callID name args)
      finishReasons := (congrArg Accumulated.finishReasons hacc).trans hr.finishReasons
      index := hr.index_send callID name args
      nodup := nodup_alter hr.nodup
      ids := by
        intro e he
        rcases hr.mem_send he with ⟨hmem, -⟩ | ⟨heq, acc, hacc, hold⟩
        · exact hr.ids e hmem
        · have hacc' : acc.id = "" ∨ acc.id = callID := by
            rcases hold with hmem | ⟨-, rfl⟩
            · exact Or.inr (hr.ids _ hmem).1
            · exact Or.inl rfl
          rw [heq, hacc, CallAcc.add]
          rcases hacc' with hempty | hsome
          · exact ⟨if_pos hempty, hid⟩
          · exact ⟨by rw [hsome, if_neg hid], hid⟩
      named := fun e he => hr.named_send he
      unnamed := by
        intro id hmem
        rw [CallTable.send, map_fst_alter] at hmem
        have hmem' : id ∉ table.map Prod.fst ∧ id ≠ callID := by
          split at hmem
          · next hcall => exact ⟨hmem, fun heq => hmem (heq ▸ hcall)⟩
          · exact ⟨fun h => hmem (List.mem_append_left _ h),
              fun heq => hmem (List.mem_append_right _ (List.mem_singleton.mpr heq))⟩
        have hupdate := hr.unnamed id hmem'.1
        rwa [← Function.update_of_ne hmem'.2 _ h.toolCallNameSent] at hupdate
      saw := iff_of_true rfl alter_ne_nil
      going := hr.going }

theorem toolCallName_sendStartIfNeeded (callID name : String) :
    (h.sendStartIfNeeded env).toolCallName callID name = h.toolCallName callID name := by
  unfold Handler.sendStartIfNeeded
  split <;> rfl

/-- **`sendToolCallDelta` alters the entry of the call id.** -/
theorem sendToolCallDelta (hr : h.Represents table) {callID : String} (hid : callID ≠ "")
    (htext : h.outputText = "") (name args : String) :
    (h.sendToolCallDelta env callID name args).Represents
      (table.send callID (h.toolCallName callID name) args) := by
  have hstart : (h.sendStartIfNeeded env).Represents table := hr.sendStartIfNeeded
  rw [Handler.sendToolCallDelta, if_neg hid, if_neg (not_not_intro htext),
    ← toolCallName_sendStartIfNeeded]
  exact hstart.send hid name args _

end Handler.Represents

/-! ### What the events do -/

/-- What the handler knows of the calls, apart from what was sent of them. -/
structure Notes where
  outputText : String
  names : String → String
  arguments : String → String
  canonicalIDs : String → String

/-- The notes of a handler. -/
def Handler.notes (h : Handler) : Notes :=
  ⟨h.outputText, h.toolCallNameByID, h.toolCallArgsByID, h.toolCallCanonicalIDByItemID⟩

/-- An event that says nothing of an item. -/
def ResponsesEvent.isQuiet : ResponsesEvent → Bool
  | .created _ | .reasoningSummaryTextDelta _ | .reasoningSummaryTextDone | .other _ => true
  | _ => false

namespace Handler

variable {h : Handler} {table : CallTable} {env : ResponsesEnv}

theorem notes_sendStartIfNeeded (env : ResponsesEnv) (h : Handler) :
    (h.sendStartIfNeeded env).notes = h.notes := by
  unfold sendStartIfNeeded
  split <;> rfl

theorem quiet_sendReasoningSummaryDelta (hr : h.Represents table) (delta : String) :
    (h.sendReasoningSummaryDelta env delta).Represents table ∧
      (h.sendReasoningSummaryDelta env delta).notes = h.notes := by
  unfold sendReasoningSummaryDelta
  split
  · exact ⟨hr, rfl⟩
  · have hsame : { h with needsReasoningSummarySeparator := false }.Represents table :=
      hr.congr rfl rfl rfl rfl rfl rfl rfl rfl rfl
    have hstart : ({ h with needsReasoningSummarySeparator := false }.sendStartIfNeeded
        env).Represents table := hsame.sendStartIfNeeded
    refine ⟨hstart.congr ?_ ?_ ?_ rfl rfl rfl rfl rfl rfl, notes_sendStartIfNeeded env _⟩
    all_goals
      refine (congrArg _ (acc_sendChatChunk _ _)).trans ?_
      rw [Accumulated.add_reasoning _ rfl]
      rfl

theorem step_of_going (hr : h.Represents table) (event : ResponsesEvent) :
    h.step env event = match event with
      | .created response => h.readResponse response false
      | .reasoningSummaryTextDelta delta => h.sendReasoningSummaryDelta env delta
      | .reasoningSummaryTextDone =>
        if h.hasSentReasoningSummary then { h with needsReasoningSummarySeparator := true } else h
      | .outputTextDelta delta => h.outputTextDelta env delta
      | .outputItem item => item.elim h (h.outputItem env)
      | .functionCallArgumentsDelta itemId delta => h.argumentsDelta env itemId delta
      | .completed response => (h.readResponse response true).sendStopIfNeeded env
      | .failed => { h with streamErr := true }
      | .other _ => h := by
  unfold step
  rw [hr.going.1]
  cases event with
  | outputItem item => cases item <;> rfl
  | _ => rfl

/-- **A quiet event changes neither the table nor the notes.** -/
theorem quiet_step (env : ResponsesEnv) (hr : h.Represents table) {event : ResponsesEvent}
    (hq : event.isQuiet) :
    (h.step env event).Represents table ∧ (h.step env event).notes = h.notes := by
  rw [step_of_going hr]
  cases event with
  | created response =>
    rcases response with _ | response
    · exact ⟨hr, rfl⟩
    · exact ⟨hr.congr rfl rfl rfl rfl rfl rfl rfl rfl rfl, rfl⟩
  | reasoningSummaryTextDelta delta => exact quiet_sendReasoningSummaryDelta hr delta
  | reasoningSummaryTextDone =>
    dsimp only
    split
    · exact ⟨hr.congr rfl rfl rfl rfl rfl rfl rfl rfl rfl, rfl⟩
    · exact ⟨hr, rfl⟩
  | other type => exact ⟨hr, rfl⟩
  | outputTextDelta | outputItem | functionCallArgumentsDelta | completed | failed => cases hq

theorem text_step (env : ResponsesEnv) (hr : h.Represents table) (delta : String) :
    (h.step env (.outputTextDelta delta)).Represents table ∧
      (h.step env (.outputTextDelta delta)).notes =
        { h.notes with outputText := h.outputText ++ delta } := by
  have hstep : h.step env (.outputTextDelta delta) = h.outputTextDelta env delta :=
    step_of_going hr _
  rw [hstep, outputTextDelta]
  have hstart : (h.sendStartIfNeeded env).Represents table := hr.sendStartIfNeeded
  have hnotes : (h.sendStartIfNeeded env).notes = h.notes := notes_sendStartIfNeeded env h
  have hout : (h.sendStartIfNeeded env).outputText = h.outputText :=
    congrArg Notes.outputText hnotes
  by_cases hdelta : delta = ""
  · rw [if_neg (not_not_intro hdelta), hdelta, String.append_empty]
    exact ⟨hstart, hnotes⟩
  · rw [if_pos hdelta, hout]
    have hacc : (Handler.sendChatChunk
        { h.sendStartIfNeeded env with
          outputText := h.outputText ++ delta
          usageText := (h.sendStartIfNeeded env).usageText ++ delta }
        ((h.sendStartIfNeeded env).chunk env { content := some delta })).acc =
        { (h.sendStartIfNeeded env).acc with
          text := (h.sendStartIfNeeded env).acc.text ++ delta } := by
      rw [acc_sendChatChunk]
      exact Accumulated.add_content _ rfl
    refine ⟨{ hstart with
      text := ?_
      calls := (congrArg Accumulated.calls hacc).trans hstart.calls
      finishReasons := (congrArg Accumulated.finishReasons hacc).trans hstart.finishReasons }, ?_⟩
    · rw [congrArg Accumulated.text hacc, hstart.text, hout]
      rfl
    · exact congrArg (fun n : Notes => { n with outputText := h.outputText ++ delta }) hnotes

/-- A piece of a call is sent as long as there is no text. -/
theorem Represents.sendToolCallDelta_all (hr : h.Represents table) {callID : String}
    (hid : callID ≠ "") (name args : String) :
    (h.sendToolCallDelta env callID name args).Represents
      (if h.outputText = "" then table.send callID (h.toolCallName callID name) args
      else table) := by
  split
  · next htext => exact hr.sendToolCallDelta hid htext name args
  · next htext =>
    rw [Handler.sendToolCallDelta, if_neg hid, if_pos htext]
    exact hr

theorem notes_sendToolCallDelta {callID name : String}
    (hname : h.toolCallName callID name = h.toolCallNameByID callID) (args : String) :
    (h.sendToolCallDelta env callID name args).notes = h.notes := by
  rw [sendToolCallDelta]
  split
  · rfl
  · split
    · rfl
    · refine Eq.trans ?_ (notes_sendStartIfNeeded env h)
      have hnames : (h.sendStartIfNeeded env).toolCallNameByID = h.toolCallNameByID :=
        congrArg Notes.names (notes_sendStartIfNeeded env h)
      have hupdate : Function.update (h.sendStartIfNeeded env).toolCallNameByID callID
          ((h.sendStartIfNeeded env).toolCallName callID name) =
          (h.sendStartIfNeeded env).toolCallNameByID := by
        rw [Represents.toolCallName_sendStartIfNeeded, hname, ← hnames, Function.update_eq_self]
      exact congrArg (fun names : String → String =>
        { (h.sendStartIfNeeded env).notes with names }) hupdate

/-- **An item of a function call**: what it adds to the arguments is sent. -/
theorem item_step (env : ResponsesEnv) (hr : h.Represents table) {item : OutputItem}
    (htype : item.type = "function_call") (hid : item.canonicalID ≠ "")
    (hname : GoText.trimSpace item.name ≠ "") :
    (h.step env (.outputItem (some item))).Represents
        (if h.outputText = "" then
          table.send item.canonicalID (GoText.trimSpace item.name)
            (argsDelta (h.toolCallArgsByID item.canonicalID) item.arguments)
        else table) ∧
      (h.step env (.outputItem (some item))).notes = (h.noteItem item).notes := by
  have hstep : h.step env (.outputItem (some item)) = h.outputItem env item :=
    step_of_going hr _
  have hnote : (h.noteItem item).Represents table := by
    unfold noteItem
    exact hr.congr rfl rfl rfl rfl rfl rfl rfl rfl rfl
  have hcall : (h.noteItem item).toolCallName item.canonicalID (GoText.trimSpace item.name) =
      GoText.trimSpace item.name := by rw [toolCallName, if_pos hname]
  rw [hstep, outputItem, if_neg (not_not_intro htype)]
  refine ⟨?_, notes_sendToolCallDelta (hcall.trans ?_) _⟩
  · have hout : (h.noteItem item).outputText = h.outputText := by simp only [noteItem]
    have hsend : ((h.noteItem item).sendToolCallDelta env item.canonicalID
        (GoText.trimSpace item.name)
        (argsDelta (h.toolCallArgsByID item.canonicalID) item.arguments)).Represents _ :=
      hnote.sendToolCallDelta_all hid _ _
    rwa [hcall, hout] at hsend
  · have hnames : (h.noteItem item).toolCallNameByID =
        Function.update h.toolCallNameByID item.canonicalID (GoText.trimSpace item.name) := by
      simp only [noteItem, if_pos hname]
    rw [hnames, Function.update_self]

/-- **A piece of arguments**, under the name that is known. -/
theorem arguments_step (env : ResponsesEnv) (hr : h.Represents table) {itemId : String}
    (hid : h.deltaCallID itemId ≠ "") (delta : String) :
    (h.step env (.functionCallArgumentsDelta itemId delta)).Represents
        (if h.outputText = "" then
          table.send (h.deltaCallID itemId) (h.toolCallNameByID (h.deltaCallID itemId)) delta
        else table) ∧
      (h.step env (.functionCallArgumentsDelta itemId delta)).notes =
        (h.noteArguments (h.deltaCallID itemId) delta).notes := by
  have hstep : h.step env (.functionCallArgumentsDelta itemId delta) =
      h.argumentsDelta env itemId delta := step_of_going hr _
  have hnote : (h.noteArguments (h.deltaCallID itemId) delta).Represents table :=
    hr.congr rfl rfl rfl rfl rfl rfl rfl rfl rfl
  rw [hstep, argumentsDelta, if_neg hid]
  exact ⟨hnote.sendToolCallDelta_all hid "" delta, notes_sendToolCallDelta rfl delta⟩

theorem step_other_item (env : ResponsesEnv) (hr : h.Represents table) {item : OutputItem}
    (htype : item.type ≠ "function_call") : h.step env (.outputItem (some item)) = h := by
  have hstep : h.step env (.outputItem (some item)) = h.outputItem env item :=
    step_of_going hr _
  rw [hstep, outputItem, if_pos htype]

/-! ### The end of a stream -/

/-- The finish reason that goes with a table and a text. -/
def finishReasonOf (table : CallTable) (text : String) : String :=
  if table ≠ [] ∧ text = "" then "tool_calls" else "stop"

/-- What a client has in the end. -/
structure Closes (h : Handler) (table : CallTable) (whole : String) : Prop where
  text : h.acc.text = whole
  calls : h.acc.toolCalls = table.map Prod.snd
  finishReasons : h.acc.finishReasons = [finishReasonOf table whole]
  closed : h.streamErr = false ∧ h.sentStart = true ∧ h.sentStop = true

theorem sentStart_sendStartIfNeeded (h : Handler) : (h.sendStartIfNeeded env).sentStart = true := by
  unfold sendStartIfNeeded
  split
  · assumption
  · rfl

theorem Represents.sendStopIfNeeded (hr : h.Represents table) :
    (h.sendStopIfNeeded env).Closes table h.outputText := by
  have hstart : (h.sendStartIfNeeded env).Represents table := hr.sendStartIfNeeded
  have hout : (h.sendStartIfNeeded env).outputText = h.outputText :=
    congrArg Notes.outputText (notes_sendStartIfNeeded env h)
  have hreason : (if (h.sendStartIfNeeded env).sawToolCall ∧
      (h.sendStartIfNeeded env).outputText = "" then "tool_calls" else "stop") =
      finishReasonOf table h.outputText := by
    simp only [finishReasonOf, hstart.saw, hout]
  have hne : finishReasonOf table h.outputText ≠ "" := by
    unfold finishReasonOf
    split <;> decide
  have hgo : ¬ (h.sendStartIfNeeded env).sentStop = true := by
    rw [hstart.going.2]
    decide
  rw [Handler.sendStopIfNeeded, if_neg hgo, sendStop, hreason]
  have hacc : (sendChatChunk
      { h.sendStartIfNeeded env with
        sent := (h.sendStartIfNeeded env).sent ++ [Sent.usage (h.sendStartIfNeeded env).usage] }
      (generateStopResponse env.responseId (h.sendStartIfNeeded env).model
        (finishReasonOf table h.outputText))).acc =
      { (h.sendStartIfNeeded env).acc with
        finishReasons := (h.sendStartIfNeeded env).acc.finishReasons ++
          [finishReasonOf table h.outputText] } := by
    rw [acc_sendChatChunk, Accumulated.add_finish _ hne rfl, acc_usage]
  exact
    { text := (congrArg Accumulated.text hacc).trans (hstart.text.trans hout)
      calls := by
        rw [Accumulated.toolCalls]
        exact (congrArg (List.map Prod.snd) ((congrArg Accumulated.calls hacc).trans
          hstart.calls)).trans (map_snd_number _ _)
      finishReasons := by
        refine (congrArg Accumulated.finishReasons hacc).trans ?_
        rw [hstart.finishReasons, List.nil_append]
      closed := ⟨hstart.going.1, sentStart_sendStartIfNeeded h, rfl⟩ }

theorem finish_of_closed (hclosed : h.streamErr = false ∧ h.sentStart = true ∧ h.sentStop = true) :
    (h.finish env).sent = h.sent ∧ (h.finish env).streamErr = false := by
  obtain ⟨herr, hstart, hstop⟩ := hclosed
  have hkeep : (h.estimateUsage env).sendStartIfNeeded env = h.estimateUsage env := if_pos hstart
  have hno : ¬ h.streamErr = true := by rw [herr]; decide
  rw [finish, if_neg hno, Handler.sendStopIfNeeded, hkeep]
  have hstop' : (h.estimateUsage env).sentStop = true := hstop
  rw [if_pos hstop']
  exact ⟨rfl, herr⟩

/-- **What a client makes of a stream that is completed.** -/
theorem accumulate_completed {body : List ResponsesEvent}
    (hr : (body.foldl (step env) { model := env.upstreamModelName }).Represents table)
    (response : Option Response) :
    let acc := accumulate (openAIChunks env (body ++ [.completed response]))
    let text := (body.foldl (step env) { model := env.upstreamModelName }).outputText
    acc.text = text ∧ acc.toolCalls = table.map Prod.snd ∧
      acc.finishReasons = [finishReasonOf table text] := by
  intro acc text
  have hread : ((body.foldl (step env) { model := env.upstreamModelName }).readResponse
      response true).Represents table := by
    unfold readResponse
    split
    · exact hr.congr rfl rfl rfl rfl rfl rfl rfl rfl rfl
    · exact hr
  have hout : ((body.foldl (step env) { model := env.upstreamModelName }).readResponse
      response true).outputText = text := by
    unfold readResponse
    split <;> rfl
  have hclose : Closes (List.foldl (step env) { model := env.upstreamModelName }
      (body ++ [.completed response])) table text := by
    rw [List.foldl_append, List.foldl_cons, List.foldl_nil, step_of_going hr, ← hout]
    exact hread.sendStopIfNeeded
  have hacc : acc = Handler.acc (List.foldl (step env) { model := env.upstreamModelName }
      (body ++ [.completed response])) := by
    refine (accumulate_openAIChunks env _).trans ?_
    exact congrArg (fun sent : List Sent => accumulate (sent.filterMap Sent.chunk?))
      (finish_of_closed hclose.closed).1
  rw [hacc]
  exact ⟨hclose.text, hclose.calls, hclose.finishReasons⟩

end Handler

end NewApiPool.Convert
