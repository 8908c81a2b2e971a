import NewApiPool.Convert.CallTable

/-!
# A Responses stream against the whole response

A stream of the Responses API tells the items of an output: an item is added, deltas give
its text or its arguments, and it is done with its full value; the last event has the whole
response. `Streams` says which streams tell which items, several of which may be open at the
same time.

The tool calls of the chunks are those of the whole response as long as there is no text
(`Follows.calls`). But the handler sends a call before it can know of a text that comes later,
where the whole response has the text alone. So the two agree if there is no text and the
call ids tell the calls apart, or if no call is added before the first text (`responsesAgrees_iff`).
-/

namespace NewApiPool.Convert

open Keyed

/-! ### The items of an output -/

/-- The text of an item. -/
def OutputItem.text (item : OutputItem) : String := String.join (item.content.map (·.text))

/-- A message of the assistant. What is not `output_text`, a refusal say, has no text. -/
structure OutputItem.IsMessage (item : OutputItem) : Prop where
  type : item.type = "message"
  role : item.role = "" ∨ item.role = "assistant"
  text : ∀ c ∈ item.content, c.type ≠ "output_text" → c.text = ""

/-- A function call, with an id and a name that are not blank. -/
structure OutputItem.IsCall (item : OutputItem) : Prop where
  type : item.type = "function_call"
  content : item.content = []
  id : GoText.trimSpace item.id ≠ ""
  name : GoText.trimSpace item.name ≠ ""

theorem OutputItem.IsCall.canonicalID {item : OutputItem} (h : item.IsCall) :
    item.canonicalID ≠ "" := by
  unfold OutputItem.canonicalID
  split
  · assumption
  · exact h.id

/-- What a stream has told of an item: the item, as it is in the whole response, its text or
arguments so far, and whether it is done. -/
structure Progress where
  item : OutputItem
  wf : item.IsMessage ∨ item.IsCall
  sent : String := ""
  done : Bool := false

def Progress.isCall (p : Progress) : Bool := p.item.type = "function_call"

def Progress.text (p : Progress) : String := if p.isCall then "" else p.sent

theorem Progress.isCall_iff (p : Progress) : p.isCall = true ↔ p.item.IsCall := by
  rw [Progress.isCall, decide_eq_true_eq]
  refine ⟨fun htype => p.wf.resolve_left fun hm => ?_, fun h => h.type⟩
  rw [hm.type] at htype
  exact absurd htype (by decide)

-- comparing two call ids is never worth computing them
attribute [local irreducible] OutputItem.canonicalID GoText.trimSpace

/-! ### The streams of an output -/

/-- **One event of a stream.** Texts have no item id: those of an item come before those of a
later one. Arguments have one, and two calls that are open at the same time have different
ids. -/
inductive StreamStep : List Progress → ResponsesEvent → List Progress → Prop
  /-- An event that is about no item. -/
  | quiet {ps : List Progress} {event : ResponsesEvent} (hquiet : event.isQuiet) :
      StreamStep ps event ps
  /-- A message is added, without its content. -/
  | addMessage {ps : List Progress} (p : Progress) (shell : OutputItem)
      (hkind : p.isCall = false) (hshell : shell.type = "message") (hsent : p.sent = "")
      (hopen : p.done = false) :
      StreamStep ps (.outputItem (some shell)) (ps ++ [p])
  /-- A function call is added, with arguments that may be only begun. -/
  | addCall {ps : List Progress} (p : Progress) (hkind : p.isCall = true)
      (hopen : p.done = false)
      (hid : ∀ q ∈ ps, q.isCall = true → q.done = false →
        GoText.trimSpace q.item.id ≠ GoText.trimSpace p.item.id) :
      StreamStep ps (.outputItem (some { p.item with arguments := p.sent })) (ps ++ [p])
  /-- A piece of the text of a message. -/
  | text {pre post : List Progress} (p : Progress) (delta : String) (hkind : p.isCall = false)
      (hopen : p.done = false) (hpost : ∀ q ∈ post, q.text = "") :
      StreamStep (pre ++ p :: post) (.outputTextDelta delta)
        (pre ++ { p with sent := p.sent ++ delta } :: post)
  /-- A piece of the arguments of a function call. -/
  | arguments {pre post : List Progress} (p : Progress) (delta : String)
      (hkind : p.isCall = true) (hopen : p.done = false) :
      StreamStep (pre ++ p :: post) (.functionCallArgumentsDelta p.item.id delta)
        (pre ++ { p with sent := p.sent ++ delta } :: post)
  /-- A message is done: its pieces are its text. -/
  | doneMessage {pre post : List Progress} (p : Progress) (hkind : p.isCall = false)
      (hopen : p.done = false) (htext : p.sent = p.item.text) :
      StreamStep (pre ++ p :: post) (.outputItem (some p.item))
        (pre ++ { p with done := true } :: post)
  /-- A function call is done: its pieces are the beginning of its arguments. -/
  | doneCall {pre post : List Progress} (p : Progress) (rest : String) (hkind : p.isCall = true)
      (hopen : p.done = false) (hrest : p.item.arguments = p.sent ++ rest) :
      StreamStep (pre ++ p :: post) (.outputItem (some p.item))
        (pre ++ { p with sent := p.item.arguments, done := true } :: post)

/-- **The streams that tell items.** -/
inductive Streams : List ResponsesEvent → List Progress → Prop
  | nil : Streams [] []
  | snoc {events : List ResponsesEvent} {event : ResponsesEvent} {ps ps' : List Progress}
      (hs : Streams events ps) (hstep : StreamStep ps event ps') :
      Streams (events ++ [event]) ps'

/-- **A stream of a response**: all its items are done, and then it is completed. -/
def Encodes (events : List ResponsesEvent) (response : Response) : Prop :=
  ∃ body ps, Streams body ps ∧ (∀ p ∈ ps, p.done = true) ∧ ps.map (·.item) = response.output ∧
    events = body ++ [.completed (some response)]

/-! ### Texts and calls of a stream -/

/-- The text of an event. -/
def ResponsesEvent.textDelta : ResponsesEvent → String
  | .outputTextDelta delta => delta
  | _ => ""

/-- The text of a stream. -/
def textOf (events : List ResponsesEvent) : String :=
  String.join (events.map ResponsesEvent.textDelta)

/-- An item of a function call. -/
def ResponsesEvent.isCallItem : ResponsesEvent → Bool
  | .outputItem (some item) => item.type = "function_call"
  | _ => false

theorem ResponsesEvent.textDelta_outputItem (item : Option OutputItem) :
    (ResponsesEvent.outputItem item).textDelta = "" := rfl

theorem ResponsesEvent.text_quiet {event : ResponsesEvent} (h : event.isQuiet) :
    event.textDelta = "" ∧ event.isCallItem = false := by
  cases event with
  | created | reasoningSummaryTextDelta | reasoningSummaryTextDone | other => exact ⟨rfl, rfl⟩
  | outputTextDelta | outputItem | functionCallArgumentsDelta | completed | failed => cases h

/-- **A function call comes before any text.** -/
def CallFirst (events : List ResponsesEvent) : Prop :=
  ∃ pre event post, events = pre ++ event :: post ∧ event.isCallItem = true ∧ textOf pre = ""

theorem textOf_concat (events : List ResponsesEvent) (event : ResponsesEvent) :
    textOf (events ++ [event]) = textOf events ++ event.textDelta := by
  simp [textOf]

theorem callFirst_concat (events : List ResponsesEvent) (event : ResponsesEvent) :
    CallFirst (events ++ [event]) ↔
      CallFirst events ∨ event.isCallItem = true ∧ textOf events = "" := by
  constructor
  · rintro ⟨pre, e, post, heq, hcall, htext⟩
    rcases List.eq_nil_or_concat post with rfl | ⟨post, last, rfl⟩
    · obtain ⟨rfl, hlast⟩ := List.append_inj' heq rfl
      cases hlast
      exact Or.inr ⟨hcall, htext⟩
    · rw [List.concat_eq_append, ← List.cons_append, ← List.append_assoc] at heq
      obtain ⟨rfl, -⟩ := List.append_inj' heq rfl
      exact Or.inl ⟨pre, e, post, rfl, hcall, htext⟩
  · rintro (⟨pre, e, post, rfl, hcall, htext⟩ | ⟨hcall, htext⟩)
    · exact ⟨pre, e, post ++ [event], by simp, hcall, htext⟩
    · exact ⟨events, event, [], rfl, hcall, htext⟩

/-- The function calls among the items. -/
def callsOf (ps : List Progress) : List Progress := ps.filter Progress.isCall

def callIDs (ps : List Progress) : List String := (callsOf ps).map (·.item.canonicalID)

/-- The entry of a function call. -/
def Progress.entry (p : Progress) : String × CallAcc :=
  (p.item.canonicalID, ⟨p.item.canonicalID, GoText.trimSpace p.item.name, p.sent⟩)

variable {p : Progress}

theorem callsOf_split {pre post : List Progress} (h : p.isCall = true) :
    callsOf (pre ++ p :: post) = callsOf pre ++ p :: callsOf post := by
  rw [callsOf, List.filter_append, List.filter_cons_of_pos h]
  rfl

theorem callsOf_split_message {pre post : List Progress} (h : p.isCall = false) :
    callsOf (pre ++ p :: post) = callsOf pre ++ callsOf post := by
  rw [callsOf, List.filter_append, List.filter_cons_of_neg (by rw [h]; decide)]
  rfl

variable {ps : List Progress}

theorem callsOf_concat (h : p.isCall = true) :
    callsOf (ps ++ [p]) = callsOf ps ++ [p] := callsOf_split h

/-- **The handler knows the calls of a stream without text.** -/
structure Matches (ps : List Progress) (notes : Notes) (table : CallTable) : Prop where
  table : table = (callsOf ps).map Progress.entry
  arguments : ∀ p ∈ callsOf ps, notes.arguments p.item.canonicalID = p.sent
  names : ∀ p ∈ callsOf ps, notes.names p.item.canonicalID = GoText.trimSpace p.item.name
  fresh : ∀ id, id ∉ callIDs ps → notes.arguments id = ""

/-- **The handler follows a stream.** -/
structure Follows (events : List ResponsesEvent) (ps : List Progress) (h : Handler)
    (table : CallTable) : Prop where
  represents : h.Represents table
  text : h.outputText = textOf events ∧ h.outputText = String.join (ps.map Progress.text)
  canonical : ∀ p ∈ callsOf ps, p.done = false →
    h.toolCallCanonicalIDByItemID (GoText.trimSpace p.item.id) = p.item.canonicalID
  early : table ≠ [] ↔ CallFirst events
  begun : h.outputText = "" → callsOf ps ≠ [] → table ≠ []
  calls : h.outputText = "" → (callIDs ps).Nodup → Matches ps h.notes table

theorem follows_init (model : String) : Follows [] [] { model } [] where
  represents := represents_init model
  text := ⟨rfl, rfl⟩
  canonical := nofun
  early := iff_of_false (not_not_intro rfl) fun ⟨pre, _, post, h, _⟩ => by simp at h
  begun _ h := absurd rfl h
  calls _ _ := ⟨rfl, nofun, nofun, fun _ _ => rfl⟩

/-! ### Events that are about no call -/

section Steps

variable {events : List ResponsesEvent} {ps ps' pre post : List Progress} {p p' : Progress}
  {h h' : Handler} {table : CallTable} {env : ResponsesEnv} {event : ResponsesEvent}

theorem Follows.keep (ht : Follows events ps h table) (hr : h'.Represents table)
    (hnotes : h'.notes = { h.notes with outputText := h.outputText ++ event.textDelta })
    (hevent : event.isCallItem = false) (hcalls : callsOf ps' = callsOf ps)
    (htext : String.join (ps'.map Progress.text) =
      String.join (ps.map Progress.text) ++ event.textDelta) :
    Follows (events ++ [event]) ps' h' table := by
  have hout : h'.outputText = h.outputText ++ event.textDelta := congrArg Notes.outputText hnotes
  have hempty (hnil : h'.outputText = "") : h.outputText = "" :=
    (String.append_eq_empty_iff.mp (hout ▸ hnil)).1
  have hids : callIDs ps' = callIDs ps := congrArg (List.map _) hcalls
  refine
    { represents := hr
      text := ⟨?_, ?_⟩
      canonical := ?_
      early := ?_
      begun := ?_
      calls := ?_ }
  · rw [hout, textOf_concat, ht.text.1]
  · rw [hout, htext, ht.text.2]
  · rw [hcalls, show h'.toolCallCanonicalIDByItemID = h.toolCallCanonicalIDByItemID from
      congrArg Notes.canonicalIDs hnotes]
    exact ht.canonical
  · rw [callFirst_concat, ← ht.early, hevent]
    simp
  · rw [hcalls]
    exact fun hnil => ht.begun (hempty hnil)
  · intro hnil hnodup
    rw [hids] at hnodup
    obtain ⟨htable, hargs, hnames, hfresh⟩ := ht.calls (hempty hnil) hnodup
    rw [hnotes]
    exact ⟨hcalls ▸ htable, hcalls ▸ hargs, hcalls ▸ hnames, hids ▸ hfresh⟩

/-! ### Events of a call -/

theorem Follows.call (ht : Follows events ps h table) {callID name args : String}
    (hr : h'.Represents (if h.outputText = "" then table.send callID name args else table))
    (hout : h'.outputText = h.outputText) (hevent : event.textDelta = "")
    (hbegun : event.isCallItem = true ∨ callsOf ps ≠ [])
    (htext : ps'.map Progress.text = ps.map Progress.text ∨
      ∃ p, p.isCall = true ∧ ps' = ps ++ [p])
    (hcanonical : ∀ p ∈ callsOf ps', p.done = false →
      h'.toolCallCanonicalIDByItemID (GoText.trimSpace p.item.id) = p.item.canonicalID)
    (hmatches : h.outputText = "" → (callIDs ps').Nodup →
      Matches ps' h'.notes (table.send callID name args)) :
    ∃ table', Follows (events ++ [event]) ps' h' table' := by
  have htextOf : textOf (events ++ [event]) = textOf events := by
    rw [textOf_concat, hevent, String.append_empty]
  have hjoin : String.join (ps'.map Progress.text) = String.join (ps.map Progress.text) := by
    rcases htext with htext | ⟨p, hp, rfl⟩
    · rw [htext]
    · rw [List.map_append, String.join_append]
      simp [Progress.text, hp]
  have htexts : h'.outputText = textOf (events ++ [event]) ∧
      h'.outputText = String.join (ps'.map Progress.text) := by
    rw [hout, htextOf, hjoin]
    exact ht.text
  by_cases hnil : h.outputText = ""
  · rw [if_pos hnil] at hr
    have hne : table.send callID name args ≠ [] := alter_ne_nil
    refine ⟨_, hr, htexts, hcanonical, iff_of_true hne ?_, fun _ _ => hne,
      fun _ hnodup => hmatches hnil hnodup⟩
    rw [callFirst_concat]
    rcases hbegun with hcall | hcalls
    · exact Or.inr ⟨hcall, ht.text.1 ▸ hnil⟩
    · exact Or.inl (ht.early.mp (ht.begun hnil hcalls))
  · rw [if_neg hnil] at hr
    refine ⟨_, hr, htexts, hcanonical, ?_, fun h => absurd (hout ▸ h) hnil,
      fun h => absurd (hout ▸ h) hnil⟩
    rw [callFirst_concat, ht.early, ← ht.text.1]
    exact ⟨Or.inl, fun h => h.resolve_right fun h => hnil h.2⟩

theorem send_entry (hp : p.isCall = true) (hnodup : (callIDs (pre ++ p :: post)).Nodup)
    {args : String} (hitem : p'.item = p.item) (hsent : p'.sent = p.sent ++ args) :
    CallTable.send ((callsOf (pre ++ p :: post)).map Progress.entry) p.item.canonicalID
        (GoText.trimSpace p.item.name) args =
      (callsOf (pre ++ p' :: post)).map Progress.entry := by
  have hp' : p'.isCall = true := by rw [Progress.isCall, hitem]; exact hp
  have hcall := (p.isCall_iff).mp hp
  rw [callIDs, callsOf_split hp, List.map_append, List.map_cons, List.nodup_middle,
    List.nodup_cons, List.mem_append, not_or] at hnodup
  have hpre : p.item.canonicalID ∉ ((callsOf pre).map Progress.entry).map Prod.fst := by
    rw [List.map_map]
    exact hnodup.1.1
  rw [callsOf_split hp, callsOf_split hp', List.map_append, List.map_cons, List.map_append,
    List.map_cons, CallTable.send]
  refine (alter_of_split hpre _).trans ?_
  simp [Progress.entry, CallAcc.add, hcall.canonicalID, hcall.name, hitem, hsent]

theorem callIDs_split (hitem : p'.item = p.item) :
    callIDs (pre ++ p' :: post) = callIDs (pre ++ p :: post) := by
  rcases hp : p.isCall
  · have hp' : p'.isCall = false := by rw [Progress.isCall, hitem]; exact hp
    rw [callIDs, callIDs, callsOf_split_message hp, callsOf_split_message hp']
  · have hp' : p'.isCall = true := by rw [Progress.isCall, hitem]; exact hp
    rw [callIDs, callIDs, callsOf_split hp, callsOf_split hp']
    simp [hitem]

theorem canonicalID_ne (hp : p.isCall = true) (hnodup : (callIDs (pre ++ p :: post)).Nodup)
    {q : Progress} (hq : q ∈ callsOf pre ∨ q ∈ callsOf post) :
    q.item.canonicalID ≠ p.item.canonicalID := by
  rw [callIDs, callsOf_split hp, List.map_append, List.map_cons, List.nodup_middle,
    List.nodup_cons, List.mem_append, not_or] at hnodup
  intro heq
  rcases hq with hq | hq
  · exact hnodup.1.1 (List.mem_map.mpr ⟨q, hq, heq⟩)
  · exact hnodup.1.2 (List.mem_map.mpr ⟨q, hq, heq⟩)

theorem mem_callsOf_split {q : Progress} (hp : p.isCall = true) :
    q ∈ callsOf (pre ++ p :: post) ↔ q = p ∨ q ∈ callsOf pre ∨ q ∈ callsOf post := by
  rw [callsOf_split hp, List.mem_append, List.mem_cons]
  tauto

theorem Matches.update {notes : Notes} (hm : Matches (pre ++ p :: post) notes table)
    (hp : p.isCall = true) (hnodup : (callIDs (pre ++ p :: post)).Nodup) {args : String}
    (hitem : p'.item = p.item) (hsent : p'.sent = p.sent ++ args)
    (canonicalIDs : String → String) :
    Matches (pre ++ p' :: post)
      ⟨notes.outputText, notes.names,
        Function.update notes.arguments p.item.canonicalID p'.sent, canonicalIDs⟩
      (table.send p.item.canonicalID (GoText.trimSpace p.item.name) args) := by
  have hp' : p'.isCall = true := by rw [Progress.isCall, hitem]; exact hp
  refine ⟨?_, ?_, ?_, ?_⟩
  · rw [hm.table, send_entry hp hnodup hitem hsent]
  · intro q hq
    dsimp only
    rcases (mem_callsOf_split hp').mp hq with rfl | hq
    · rw [hitem, Function.update_self]
    · rw [Function.update_of_ne (canonicalID_ne hp hnodup hq)]
      exact hm.arguments q ((mem_callsOf_split hp).mpr (Or.inr hq))
  · intro q hq
    dsimp only
    rcases (mem_callsOf_split hp').mp hq with rfl | hq
    · rw [hitem]
      exact hm.names p ((mem_callsOf_split hp).mpr (Or.inl rfl))
    · exact hm.names q ((mem_callsOf_split hp).mpr (Or.inr hq))
  · intro id hid
    dsimp only
    rw [callIDs_split hitem] at hid
    have hne : id ≠ p.item.canonicalID := by
      rintro rfl
      exact hid (List.mem_map.mpr ⟨p, (mem_callsOf_split hp).mpr (Or.inl rfl), rfl⟩)
    rw [Function.update_of_ne hne]
    exact hm.fresh id hid

/-- A call that is added to the output: its name and its arguments are noted under its id, and the
notes match the table of the client again. -/
theorem Matches.add {notes : Notes} (hm : Matches ps notes table) (hp : p.isCall = true)
    (hnodup : (callIDs (ps ++ [p])).Nodup) (canonicalIDs : String → String) :
    Matches (ps ++ [p])
      ⟨notes.outputText,
        Function.update notes.names p.item.canonicalID (GoText.trimSpace p.item.name),
        Function.update notes.arguments p.item.canonicalID p.sent, canonicalIDs⟩
      (table.send p.item.canonicalID (GoText.trimSpace p.item.name) p.sent) := by
  have hcall := (p.isCall_iff).mp hp
  have hother {q : Progress} (hq : q ∈ callsOf ps) :
      q.item.canonicalID ≠ p.item.canonicalID := canonicalID_ne hp hnodup (Or.inl hq)
  refine ⟨?_, ?_, ?_, ?_⟩
  · have hnew : p.item.canonicalID ∉ ((callsOf ps).map Progress.entry).map Prod.fst := by
      rw [List.map_map]
      intro hmem
      obtain ⟨q, hq, heq⟩ := List.mem_map.mp hmem
      exact hother hq heq
    rw [hm.table, CallTable.send, alter_of_not_mem hnew, callsOf_concat hp, List.map_append]
    simp [Progress.entry, ToolCall.whole]
  · intro q hq
    dsimp only
    rw [callsOf_concat hp, List.mem_append, List.mem_singleton] at hq
    rcases hq with hq | rfl
    · rw [Function.update_of_ne (hother hq)]
      exact hm.arguments q hq
    · rw [Function.update_self]
  · intro q hq
    dsimp only
    rw [callsOf_concat hp, List.mem_append, List.mem_singleton] at hq
    rcases hq with hq | rfl
    · rw [Function.update_of_ne (hother hq)]
      exact hm.names q hq
    · rw [Function.update_self]
  · intro id hid
    dsimp only
    rw [callIDs, callsOf_concat hp, List.map_append, List.mem_append, not_or,
      List.map_singleton, List.mem_singleton] at hid
    rw [Function.update_of_ne hid.2]
    exact hm.fresh id hid.1

theorem notes_noteItem {item : OutputItem} (hcall : item.IsCall) (h : Handler)
    (hempty : item.arguments = "" → h.toolCallArgsByID item.canonicalID = "") :
    (h.noteItem item).notes =
      ⟨h.outputText,
        Function.update h.toolCallNameByID item.canonicalID (GoText.trimSpace item.name),
        Function.update h.toolCallArgsByID item.canonicalID item.arguments,
        Function.update h.toolCallCanonicalIDByItemID (GoText.trimSpace item.id)
          item.canonicalID⟩ := by
  have harguments : (if item.arguments ≠ "" then
      Function.update h.toolCallArgsByID item.canonicalID item.arguments
      else h.toolCallArgsByID) =
      Function.update h.toolCallArgsByID item.canonicalID item.arguments := by
    split
    · rfl
    · next hnil =>
      rw [not_not.mp hnil, ← hempty (not_not.mp hnil), Function.update_eq_self]
  simp only [Handler.noteItem, Handler.notes, if_pos hcall.name,
    if_pos (And.intro hcall.id hcall.canonicalID), harguments]

/-- What is sent when an item has more arguments than were sent before. -/
theorem argsDelta_append (prev rest : String) : argsDelta prev (prev ++ rest) = rest := by
  unfold argsDelta
  split
  · next h => exact (String.append_eq_empty_iff.mp h).2.symm
  · have hstart : GoText.startsWith (prev ++ rest) prev = true := by
      simp [GoText.startsWith]
    rw [if_pos hstart]
    simp

theorem canonical_noteItem {item : OutputItem} (hcall : item.IsCall) (h : Handler) :
    (h.noteItem item).notes.canonicalIDs =
      Function.update h.toolCallCanonicalIDByItemID (GoText.trimSpace item.id)
        item.canonicalID := by
  simp only [Handler.noteItem, Handler.notes, if_pos (And.intro hcall.id hcall.canonicalID)]

theorem Follows.addCall (env : ResponsesEnv) (ht : Follows events ps h table)
    (hkind : p.isCall = true)
    (hid : ∀ q ∈ ps, q.isCall = true → q.done = false →
      GoText.trimSpace q.item.id ≠ GoText.trimSpace p.item.id) :
    ∃ table', Follows (events ++ [.outputItem (some { p.item with arguments := p.sent })])
      (ps ++ [p]) (h.step env (.outputItem (some { p.item with arguments := p.sent })))
      table' := by
  have hcall := (p.isCall_iff).mp hkind
  have hshell : { p.item with arguments := p.sent }.IsCall := ⟨hcall.1, hcall.2, hcall.3, hcall.4⟩
  have hid' : { p.item with arguments := p.sent }.canonicalID = p.item.canonicalID := by
    simp only [OutputItem.canonicalID]
  have hitem := Handler.item_step env ht.represents hshell.type hshell.canonicalID
    hshell.name
  generalize h.step env (.outputItem (some { p.item with arguments := p.sent })) = h' at hitem ⊢
  obtain ⟨hr, hnotes⟩ := hitem
  refine ht.call hr (congrArg Notes.outputText hnotes) rfl (Or.inl (decide_eq_true hcall.type))
    (Or.inr ⟨p, hkind, rfl⟩) ?_ ?_
  · -- the ids of the open calls are different
    intro q hq hopen
    have hcanonical : h'.toolCallCanonicalIDByItemID =
        Function.update h.toolCallCanonicalIDByItemID (GoText.trimSpace p.item.id)
          p.item.canonicalID := by
      rw [← hid']
      exact (congrArg Notes.canonicalIDs hnotes).trans (canonical_noteItem hshell h)
    rw [hcanonical]
    rw [callsOf_concat hkind, List.mem_append, List.mem_singleton] at hq
    rcases hq with hq | rfl
    · obtain ⟨hmem, hqcall⟩ := List.mem_filter.mp hq
      rw [Function.update_of_ne (hid q hmem hqcall hopen)]
      exact ht.canonical q hq hopen
    · rw [Function.update_self]
  · intro hnil hnodup
    have hsplit := hnodup
    rw [callIDs, callsOf_concat hkind, List.map_append, List.nodup_append] at hsplit
    have hm := ht.calls hnil hsplit.1
    have hnew : h.toolCallArgsByID p.item.canonicalID = "" :=
      hm.fresh _ fun hmem => hsplit.2.2 _ hmem _ (List.mem_singleton.mpr rfl) rfl
    have hdelta : argsDelta (h.toolCallArgsByID p.item.canonicalID) p.sent = p.sent := by
      rw [hnew]
      simpa using argsDelta_append "" p.sent
    rw [hnotes, notes_noteItem hshell h fun _ => hid' ▸ hnew, hid', hdelta]
    exact hm.add hkind hnodup _

/-- The ids of the open calls, after a piece of one of them. -/
theorem Follows.canonical_split (ht : Follows events (pre ++ p :: post) h table)
    (hp' : p'.isCall = true) (hkind : p.isCall = true) (hopen : p.done = false)
    (hitem : p'.item = p.item)
    (hcanonical : h'.toolCallCanonicalIDByItemID = h.toolCallCanonicalIDByItemID) :
    ∀ q ∈ callsOf (pre ++ p' :: post), q.done = false →
      h'.toolCallCanonicalIDByItemID (GoText.trimSpace q.item.id) = q.item.canonicalID := by
  intro q hq hqopen
  rw [hcanonical]
  rcases (mem_callsOf_split hp').mp hq with rfl | hq
  · rw [hitem]
    exact ht.canonical p ((mem_callsOf_split hkind).mpr (Or.inl rfl)) hopen
  · exact ht.canonical q ((mem_callsOf_split hkind).mpr (Or.inr hq)) hqopen

theorem map_text_split (hp : p.isCall = true) (hp' : p'.isCall = true) :
    (pre ++ p' :: post).map Progress.text = (pre ++ p :: post).map Progress.text := by
  have htext : p'.text = p.text := by rw [Progress.text, Progress.text, if_pos hp, if_pos hp']
  rw [List.map_append, List.map_cons, htext, List.map_append, List.map_cons]

theorem Follows.arguments (env : ResponsesEnv) (ht : Follows events (pre ++ p :: post) h table)
    (hkind : p.isCall = true) (hopen : p.done = false) {delta : String}
    (hitem : p'.item = p.item) (hsent : p'.sent = p.sent ++ delta) :
    ∃ table', Follows (events ++ [.functionCallArgumentsDelta p.item.id delta])
      (pre ++ p' :: post) (h.step env (.functionCallArgumentsDelta p.item.id delta)) table' := by
  have hcall := (p.isCall_iff).mp hkind
  have hp' : p'.isCall = true := by rw [Progress.isCall, hitem]; exact hkind
  have hmem : p ∈ callsOf (pre ++ p :: post) := (mem_callsOf_split hkind).mpr (Or.inl rfl)
  have hid : h.deltaCallID p.item.id = p.item.canonicalID := by
    rw [Handler.deltaCallID, ht.canonical p hmem hopen, if_pos hcall.canonicalID]
  have hne : h.deltaCallID p.item.id ≠ "" := by rw [hid]; exact hcall.canonicalID
  have hdelta := Handler.arguments_step env ht.represents hne delta
  generalize h.step env (.functionCallArgumentsDelta p.item.id delta) = h' at hdelta ⊢
  rw [hid] at hdelta
  obtain ⟨hr, hnotes⟩ := hdelta
  refine ht.call hr (congrArg Notes.outputText hnotes) rfl
    (Or.inr (List.ne_nil_of_mem hmem)) (Or.inl (map_text_split hkind hp'))
    (ht.canonical_split hp' hkind hopen hitem (congrArg Notes.canonicalIDs hnotes)) ?_
  intro hnil hnodup
  rw [callIDs_split hitem] at hnodup
  have hm := ht.calls hnil hnodup
  have hargs : h.toolCallArgsByID p.item.canonicalID = p.sent := hm.arguments p hmem
  have hname : h.toolCallNameByID p.item.canonicalID = GoText.trimSpace p.item.name :=
    hm.names p hmem
  have hnotes' : h'.notes = ⟨h.outputText, h.toolCallNameByID,
      Function.update h.toolCallArgsByID p.item.canonicalID p'.sent,
      h.toolCallCanonicalIDByItemID⟩ := by
    rw [hnotes, hsent, ← hargs]
    rfl
  rw [hnotes', hname]
  exact hm.update hkind hnodup hitem hsent _

theorem Follows.doneCall (env : ResponsesEnv) (ht : Follows events (pre ++ p :: post) h table)
    (hkind : p.isCall = true) (hopen : p.done = false) {rest : String}
    (hrest : p.item.arguments = p.sent ++ rest) (hitem : p'.item = p.item)
    (hsent : p'.sent = p.item.arguments) :
    ∃ table', Follows (events ++ [.outputItem (some p.item)]) (pre ++ p' :: post)
      (h.step env (.outputItem (some p.item))) table' := by
  have hcall := (p.isCall_iff).mp hkind
  have hp' : p'.isCall = true := by rw [Progress.isCall, hitem]; exact hkind
  have hmem : p ∈ callsOf (pre ++ p :: post) := (mem_callsOf_split hkind).mpr (Or.inl rfl)
  have hstep := Handler.item_step env ht.represents hcall.type hcall.canonicalID hcall.name
  generalize h.step env (.outputItem (some p.item)) = h' at hstep ⊢
  obtain ⟨hr, hnotes⟩ := hstep
  -- the maps have the id of the item already
  have hcanonical : h'.toolCallCanonicalIDByItemID = h.toolCallCanonicalIDByItemID := by
    refine (congrArg Notes.canonicalIDs hnotes).trans ((canonical_noteItem hcall h).trans ?_)
    rw [← ht.canonical p hmem hopen, Function.update_eq_self]
  refine ht.call hr (congrArg Notes.outputText hnotes) rfl (Or.inl (decide_eq_true hcall.type))
    (Or.inl (map_text_split hkind hp')) (ht.canonical_split hp' hkind hopen hitem hcanonical) ?_
  intro hnil hnodup
  rw [callIDs_split hitem] at hnodup
  have hm := ht.calls hnil hnodup
  have hargs : h.toolCallArgsByID p.item.canonicalID = p.sent := hm.arguments p hmem
  have hname : h.toolCallNameByID p.item.canonicalID = GoText.trimSpace p.item.name :=
    hm.names p hmem
  have hempty (harg : p.item.arguments = "") : h.toolCallArgsByID p.item.canonicalID = "" := by
    rw [hargs]
    exact (String.append_eq_empty_iff.mp (hrest ▸ harg)).1
  have hdelta : argsDelta (h.toolCallArgsByID p.item.canonicalID) p.item.arguments = rest := by
    rw [hargs, hrest, argsDelta_append]
  have hnames : Function.update h.toolCallNameByID p.item.canonicalID
      (GoText.trimSpace p.item.name) = h.toolCallNameByID := by
    rw [← hname, Function.update_eq_self]
  rw [hdelta, hnotes, notes_noteItem hcall h hempty, hnames, ← hsent]
  exact hm.update hkind hnodup hitem (hsent.trans hrest) _

/-- **The handler follows a stream by one event.** -/
theorem Follows.step (env : ResponsesEnv) (ht : Follows events ps h table)
    (hstep : StreamStep ps event ps') :
    ∃ table', Follows (events ++ [event]) ps' (h.step env event) table' := by
  cases hstep with
  | quiet hquiet =>
    obtain ⟨hr, hnotes⟩ := Handler.quiet_step env ht.represents hquiet
    obtain ⟨htext, hevent⟩ := ResponsesEvent.text_quiet hquiet
    refine ⟨table, ht.keep hr ?_ hevent rfl ?_⟩
    · rw [hnotes, htext, String.append_empty]
      rfl
    · rw [htext, String.append_empty]
  | addMessage p shell hkind hshell hsent hopen =>
    have htype : shell.type ≠ "function_call" := by rw [hshell]; decide
    rw [Handler.step_other_item env ht.represents htype]
    refine ⟨table, ht.keep ht.represents ?_ (decide_eq_false htype) ?_ ?_⟩
    · rw [ResponsesEvent.textDelta_outputItem, String.append_empty]
      rfl
    · rw [callsOf_split_message hkind, callsOf, callsOf, List.filter_nil, List.append_nil]
    · simp [ResponsesEvent.textDelta, Progress.text, hkind, hsent]
  | addCall p hkind hopen hid => exact ht.addCall env hkind hid
  | @text pre post p delta hkind hopen hpost =>
    obtain ⟨hr, hnotes⟩ := Handler.text_step env ht.represents delta
    refine ⟨table, ht.keep hr hnotes rfl ?_ ?_⟩
    · rw [callsOf_split_message hkind, callsOf_split_message (show Progress.isCall
        { p with sent := p.sent ++ delta } = false from hkind)]
    · -- the later messages have no text yet
      have hlater : String.join (post.map Progress.text) = "" := by
        rw [GoText.join_eq_empty_iff]
        intro t ht
        obtain ⟨q, hq, rfl⟩ := List.mem_map.mp ht
        exact hpost q hq
      have hold : p.text = p.sent := by rw [Progress.text, hkind]; rfl
      have hnew : Progress.text { p with sent := p.sent ++ delta } = p.sent ++ delta := by
        rw [Progress.text, show Progress.isCall { p with sent := p.sent ++ delta } = false
          from hkind]
        rfl
      simp only [List.map_append, List.map_cons, String.join_append, String.join_cons, hlater,
        hold, hnew, String.append_empty, String.append_assoc, ResponsesEvent.textDelta]
  | arguments p delta hkind hopen => exact ht.arguments env hkind hopen rfl rfl
  | @doneMessage pre post p hkind hopen htext =>
    have htype : p.item.type ≠ "function_call" := of_decide_eq_false hkind
    rw [Handler.step_other_item env ht.represents htype]
    refine ⟨table, ht.keep ht.represents ?_ hkind ?_ ?_⟩
    · rw [ResponsesEvent.textDelta_outputItem, String.append_empty]
      rfl
    · rw [callsOf_split_message hkind, callsOf_split_message (show Progress.isCall
        { p with done := true } = false from hkind)]
    · rw [ResponsesEvent.textDelta_outputItem, String.append_empty, List.map_append,
        List.map_append]
      rfl
  | doneCall p rest hkind hopen hrest => exact ht.doneCall env hkind hopen hrest rfl rfl

end Steps

variable {events : List ResponsesEvent}

/-- **The handler follows every stream.** -/
theorem Streams.follows (env : ResponsesEnv) (hs : Streams events ps) :
    ∃ table, Follows events ps
      (events.foldl (Handler.step env) { model := env.upstreamModelName }) table := by
  induction hs with
  | nil => exact ⟨[], follows_init _⟩
  | snoc _ hstep ih =>
    obtain ⟨table, ht⟩ := ih
    rw [List.foldl_append, List.foldl_cons, List.foldl_nil]
    exact ht.step env hstep

/-! ### The whole response -/

/-- What is done has its full value. -/
def Progress.Full (p : Progress) : Prop :=
  p.done = true → p.sent = if p.isCall then p.item.arguments else p.item.text

theorem Progress.full_of_open (h : p.done = false) : p.Full := by
  intro hdone
  rw [h] at hdone
  cases hdone

theorem forall_mem_split {α : Type*} {P : α → Prop} {pre post : List α} {a b : α}
    (h : ∀ x ∈ pre ++ a :: post, P x) (hb : P b) : ∀ x ∈ pre ++ b :: post, P x := by
  rw [List.forall_mem_append, List.forall_mem_cons] at h ⊢
  exact ⟨h.1, hb, h.2.2⟩

theorem Streams.full (hs : Streams events ps) :
    ∀ p ∈ ps, p.Full := by
  induction hs with
  | nil => nofun
  | snoc _ hstep ih =>
    cases hstep with
    | quiet => exact ih
    | addMessage p _ _ _ _ hopen | addCall p _ hopen =>
      exact List.forall_mem_append.mpr
        ⟨ih, List.forall_mem_singleton.mpr (Progress.full_of_open hopen)⟩
    | text p _ _ hopen | arguments p _ _ hopen =>
      exact forall_mem_split ih fun hdone => by simp [hopen] at hdone
    | doneMessage p hkind _ htext =>
      refine forall_mem_split ih fun _ => htext.trans (if_neg ?_).symm
      exact Bool.eq_false_iff.mp hkind
    | doneCall p _ hkind => exact forall_mem_split ih fun _ => (if_pos hkind).symm

/-- The call ids of an output. -/
def outputCallIDs (output : List OutputItem) : List String :=
  (output.filter fun item => item.type = "function_call").map OutputItem.canonicalID

theorem outputCallIDs_map (ps : List Progress) : outputCallIDs (ps.map (·.item)) = callIDs ps := by
  rw [outputCallIDs, List.filter_map, List.map_map]
  rfl

/-- The texts of a message are those of `output_text`. -/
theorem OutputItem.IsMessage.join_outputText {item : OutputItem} (h : item.IsMessage) :
    String.join ((item.content.filter fun c => c.type = "output_text").map (·.text)) =
      item.text := by
  rw [OutputItem.text]
  have hcontent := h.text
  generalize item.content = content at hcontent ⊢
  induction content with
  | nil => rfl
  | cons c content ih =>
    rw [List.forall_mem_cons] at hcontent
    by_cases htype : c.type = "output_text"
    · rw [List.filter_cons_of_pos (by simpa using htype), List.map_cons, List.map_cons,
        String.join_cons, String.join_cons, ih hcontent.2]
    · rw [List.filter_cons_of_neg (by simpa using htype), List.map_cons, String.join_cons,
        hcontent.1 htype, String.empty_append, ih hcontent.2]

/-- The tool call that the whole response makes of an item. -/
def OutputItem.toolCall (out : OutputItem) : Option ToolCall :=
  if out.type ≠ "function_call" ∨ GoText.trimSpace out.name = "" then none
  else some { id := out.canonicalID, name := GoText.trimSpace out.name, arguments := out.arguments }

section Whole

variable {ps : List Progress} (hdone : ∀ p ∈ ps, p.done = true) (hfull : ∀ p ∈ ps, p.Full)
include hdone hfull

/-- The text that a message or a call has in the whole response. -/
theorem text_of_done {p : Progress} (hp : p ∈ ps) : p.text = p.item.text := by
  rcases hcall : p.isCall
  · rw [Progress.text, hfull p hp (hdone p hp), hcall]
    rfl
  · rw [Progress.text, hcall, OutputItem.text, ((p.isCall_iff).mp hcall).content]
    rfl

/-- The text of the whole response is the text of the stream. -/
theorem extractOutputTextFromResponses_eq :
    extractOutputTextFromResponses (ps.map (·.item)) = String.join (ps.map Progress.text) := by
  have hitem : ∀ p ∈ ps, p.text = p.item.text := fun p hp => text_of_done hdone hfull hp
  have hall : (ps.map (·.item)).map (fun out => String.join (out.content.map (·.text))) =
      ps.map Progress.text := by
    rw [List.map_map]
    exact List.map_congr_left fun p hp => (hitem p hp).symm
  have hmessages : (ps.map (·.item)).map (fun out =>
      if out.type ≠ "message" ∨ (out.role ≠ "" ∧ out.role ≠ "assistant") then ""
      else String.join ((out.content.filter fun c => c.type = "output_text").map (·.text))) =
      ps.map Progress.text := by
    rw [List.map_map]
    refine List.map_congr_left fun p hp => ?_
    rw [hitem p hp, Function.comp_apply]
    rcases p.wf with hm | hc
    · have hread : ¬ (p.item.type ≠ "message" ∨
          (p.item.role ≠ "" ∧ p.item.role ≠ "assistant")) := by
        rw [not_or, not_and_or, not_not, not_not, not_not]
        exact ⟨hm.type, hm.role⟩
      rw [if_neg hread, hm.join_outputText]
    · have hskip : p.item.type ≠ "message" := by rw [hc.type]; decide
      rw [if_pos (Or.inl hskip), OutputItem.text, hc.content]
      rfl
  rw [extractOutputTextFromResponses, hmessages, hall]
  simp

theorem toolCalls_eq :
    ((ps.map (·.item)).filterMap OutputItem.toolCall).map ToolCall.whole =
      (callsOf ps).map fun p => p.entry.2 := by
  induction ps with
  | nil => rfl
  | cons p ps ih =>
    rw [List.forall_mem_cons] at hdone hfull
    rw [List.map_cons, callsOf]
    rcases hcall : p.isCall
    · have hskip : p.item.toolCall = none := if_pos (Or.inl (of_decide_eq_false hcall))
      rw [List.filterMap_cons_none hskip, ih hdone.2 hfull.2,
        List.filter_cons_of_neg (by simp [hcall])]
      rfl
    · have hc := (p.isCall_iff).mp hcall
      have hsent : p.sent = p.item.arguments := by rw [hfull.1 hdone.1, hcall]; rfl
      have htake : p.item.toolCall =
          some ⟨none, p.item.canonicalID, GoText.trimSpace p.item.name, p.sent⟩ := by
        rw [OutputItem.toolCall, if_neg, hsent]
        exact not_or.mpr ⟨not_not_intro hc.type, hc.name⟩
      rw [List.filterMap_cons_some htake, List.map_cons, ih hdone.2 hfull.2,
        List.filter_cons_of_pos hcall]
      rfl

end Whole

theorem responsesResponse_of_text {response : Response}
    (h : extractOutputTextFromResponses response.output ≠ "") :
    (responsesResponseToChatCompletionsResponse response).1 =
      ⟨extractOutputTextFromResponses response.output, [], "stop"⟩ := by
  simp [responsesResponseToChatCompletionsResponse, h]

theorem responsesResponse_of_no_text {response : Response}
    (h : extractOutputTextFromResponses response.output = "") :
    (responsesResponseToChatCompletionsResponse response).1 =
      ⟨"", response.output.filterMap OutputItem.toolCall,
        if response.output.filterMap OutputItem.toolCall ≠ [] then "tool_calls" else "stop"⟩ := by
  have hcalls : (response.output.filterMap fun out =>
      let name := GoText.trimSpace out.name
      if out.type ≠ "function_call" ∨ name = "" then none
      else some { id := out.canonicalID, name, arguments := out.arguments }) =
      response.output.filterMap OutputItem.toolCall := rfl
  simp only [responsesResponseToChatCompletionsResponse, h, if_true, hcalls, ite_self]

/-- **The chunks agree with the whole response**: the text, the tool calls and the finish
reason. The arguments of a call are all pieces of it that were sent, one after the other. -/
def ResponsesAgrees (env : ResponsesEnv) (events : List ResponsesEvent) (response : Response) :
    Prop :=
  let acc := accumulate (openAIChunks env events)
  let whole := (responsesResponseToChatCompletionsResponse response).1
  acc.text = whole.content ∧ acc.toolCalls = whole.toolCalls.map ToolCall.whole ∧
    acc.finishReasons = [whole.finishReason]

/-- **When a stream agrees with its response**: if it has no text, the call ids have to tell
the calls apart; if it has one, no call may come before it. -/
theorem responsesAgrees_iff (env : ResponsesEnv) {events : List ResponsesEvent}
    {response : Response} (henc : Encodes events response) :
    ResponsesAgrees env events response ↔
      if textOf events = "" then (outputCallIDs response.output).Nodup else ¬ CallFirst events := by
  obtain ⟨body, ps, hs, hdone, hitems, rfl⟩ := henc
  obtain ⟨table, ht⟩ := hs.follows env
  have hfull := hs.full
  obtain ⟨hacctext, hacccalls, hfinish⟩ :=
    Handler.accumulate_completed ht.represents (some response)
  have htextOf : textOf (body ++ [.completed (some response)]) = textOf body := by
    rw [textOf_concat]
    exact String.append_empty
  have hfirst : CallFirst (body ++ [.completed (some response)]) ↔ CallFirst body := by
    rw [callFirst_concat]
    exact or_iff_left fun h => nomatch h.1
  have hwhole : extractOutputTextFromResponses response.output = textOf body := by
    rw [← hitems, extractOutputTextFromResponses_eq hdone hfull, ← ht.text.2, ht.text.1]
  rw [ResponsesAgrees, hacctext, hacccalls, hfinish, htextOf, hfirst, ← ht.early, ht.text.1]
  by_cases hnil : textOf body = ""
  · rw [if_pos hnil, responsesResponse_of_no_text (hwhole.trans hnil), ← hitems,
      toolCalls_eq hdone hfull, outputCallIDs_map, hnil]
    constructor
    · -- a client has one call per call id
      rintro ⟨-, hcalls, -⟩
      have hids : callIDs ps = table.map Prod.fst := by
        have hmap := congrArg (List.map CallAcc.id) hcalls
        rw [List.map_map, List.map_map] at hmap
        refine hmap.symm.trans (List.map_congr_left fun e he => ?_)
        exact (ht.represents.ids e he).1
      rw [hids]
      exact ht.represents.nodup
    · intro hnodup
      have htable := (ht.calls (ht.text.1.trans hnil) hnodup).table
      have hcalls : table.map Prod.snd = (callsOf ps).map fun p => p.entry.2 := by
        rw [htable, List.map_map]
        rfl
      have hempty : table = [] ↔ (ps.map (·.item)).filterMap OutputItem.toolCall = [] := by
        rw [← List.map_eq_nil_iff (f := Prod.snd), hcalls, ← toolCalls_eq hdone hfull,
          List.map_eq_nil_iff]
      refine ⟨rfl, hcalls, ?_⟩
      simp only [Handler.finishReasonOf, ne_eq, hempty, and_true]
  · rw [if_neg hnil, responsesResponse_of_text (hwhole ▸ hnil), hwhole]
    simp [Handler.finishReasonOf, hnil]

/-! ### A call and a text -/

def weather : OutputItem :=
  { type := "function_call", id := "fc_1", callId := "call_1", name := "weather"
    arguments := "\x7b\x7d" }

def sunny : OutputItem :=
  { type := "message", id := "msg_1", role := "assistant", content := [⟨"output_text", "Sunny"⟩] }

theorem weather_isCall : weather.IsCall := ⟨rfl, rfl, by decide +kernel, by decide +kernel⟩

theorem sunny_isMessage : sunny.IsMessage := ⟨rfl, Or.inr rfl, by decide⟩

/-- The events of the call: its arguments come in two pieces. -/
def weatherEvents : List ResponsesEvent :=
  [.outputItem (some { weather with arguments := "" }),
    .functionCallArgumentsDelta "fc_1" "\x7b", .outputItem (some weather)]

/-- The events of the message. -/
def sunnyEvents : List ResponsesEvent :=
  [.outputItem (some { sunny with content := [] }), .outputTextDelta "Sunny",
    .outputItem (some sunny)]

theorem streams_weather (hs : Streams events ps) (hdone : ∀ p ∈ ps, p.done = true) :
    Streams (events ++ weatherEvents)
      (ps ++ [⟨weather, Or.inr weather_isCall, weather.arguments, true⟩]) := by
  have hadd : StreamStep ps (.outputItem (some { weather with arguments := "" }))
      (ps ++ [⟨weather, Or.inr weather_isCall, "", false⟩]) := by
    refine .addCall ⟨weather, Or.inr weather_isCall, "", false⟩ rfl rfl ?_
    intro q hq _ hopen
    rw [hdone q hq] at hopen
    cases hopen
  have hpiece : StreamStep (ps ++ [⟨weather, Or.inr weather_isCall, "", false⟩])
      (.functionCallArgumentsDelta "fc_1" "\x7b")
      (ps ++ [⟨weather, Or.inr weather_isCall, "\x7b", false⟩]) :=
    .arguments ⟨weather, Or.inr weather_isCall, "", false⟩ "\x7b" rfl rfl
  have hend : StreamStep (ps ++ [⟨weather, Or.inr weather_isCall, "\x7b", false⟩])
      (.outputItem (some weather))
      (ps ++ [⟨weather, Or.inr weather_isCall, weather.arguments, true⟩]) :=
    .doneCall ⟨weather, Or.inr weather_isCall, "\x7b", false⟩ "\x7d" rfl rfl rfl
  have h := ((hs.snoc hadd).snoc hpiece).snoc hend
  rwa [List.append_assoc, List.append_assoc] at h

theorem streams_sunny (hs : Streams events ps) :
    Streams (events ++ sunnyEvents) (ps ++ [⟨sunny, Or.inl sunny_isMessage, "Sunny", true⟩]) := by
  have hadd : StreamStep ps (.outputItem (some { sunny with content := [] }))
      (ps ++ [⟨sunny, Or.inl sunny_isMessage, "", false⟩]) :=
    .addMessage ⟨sunny, Or.inl sunny_isMessage, "", false⟩ _ rfl rfl rfl rfl
  have hpiece : StreamStep (ps ++ [⟨sunny, Or.inl sunny_isMessage, "", false⟩])
      (.outputTextDelta "Sunny") (ps ++ [⟨sunny, Or.inl sunny_isMessage, "Sunny", false⟩]) :=
    .text ⟨sunny, Or.inl sunny_isMessage, "", false⟩ "Sunny" rfl rfl nofun
  have hend : StreamStep (ps ++ [⟨sunny, Or.inl sunny_isMessage, "Sunny", false⟩])
      (.outputItem (some sunny)) (ps ++ [⟨sunny, Or.inl sunny_isMessage, "Sunny", true⟩]) :=
    .doneMessage ⟨sunny, Or.inl sunny_isMessage, "Sunny", false⟩ rfl rfl (by decide)
  have h := ((hs.snoc hadd).snoc hpiece).snoc hend
  rwa [List.append_assoc, List.append_assoc] at h

/-- What the handler needs besides the events. -/
def plainEnv : ResponsesEnv := ⟨"chatcmpl-1", "gpt", false, 0, fun _ => 0⟩

/-- A message and a call after it: the client gets the text alone, as in the whole response. -/
theorem responsesAgrees_text_then_call :
    let response : Response := { output := [sunny, weather] }
    let events := sunnyEvents ++ weatherEvents ++ [.completed (some response)]
    Encodes events response ∧ ResponsesAgrees plainEnv events response := by
  intro response events
  have henc : Encodes events response :=
    ⟨_, _, streams_weather (streams_sunny .nil) (by simp), by simp, rfl, rfl⟩
  refine ⟨henc, (responsesAgrees_iff plainEnv henc).mpr ?_⟩
  rw [if_neg (by decide +kernel)]
  rintro ⟨pre, event, post, heq, hcall, htext⟩
  -- the second event has a text, and the first two are not of a call
  rcases pre with _ | ⟨first, _ | ⟨second, pre⟩⟩
  · obtain ⟨rfl, -⟩ := List.cons.inj heq
    exact absurd hcall (by decide)
  · obtain ⟨rfl, -⟩ := List.cons.inj (List.cons.inj heq).2
    cases hcall
  · obtain ⟨rfl, -⟩ := List.cons.inj (List.cons.inj heq).2
    rw [textOf, GoText.join_eq_empty_iff] at htext
    exact absurd (htext "Sunny" (by simp [ResponsesEvent.textDelta])) (by decide)

/-- A call and a message after it: the client has the call with the text, the whole response
has the text alone. -/
theorem not_responsesAgrees_call_then_text :
    let response : Response := { output := [weather, sunny] }
    let events := weatherEvents ++ sunnyEvents ++ [.completed (some response)]
    Encodes events response ∧
      (accumulate (openAIChunks plainEnv events)).toolCalls =
        [⟨"call_1", "weather", "\x7b\x7d"⟩] ∧
      (responsesResponseToChatCompletionsResponse response).1.toolCalls = [] ∧
      ¬ ResponsesAgrees plainEnv events response := by
  intro response events
  have hcalls : (accumulate (openAIChunks plainEnv events)).toolCalls =
      [⟨"call_1", "weather", "\x7b\x7d"⟩] := by decide +kernel
  have hwhole : (responsesResponseToChatCompletionsResponse response).1.toolCalls = [] := by
    decide +kernel
  refine ⟨⟨_, _, streams_sunny (streams_weather .nil nofun), by simp, rfl, rfl⟩, hcalls, hwhole,
    ?_⟩
  rintro ⟨-, h, -⟩
  rw [hcalls, hwhole] at h
  cases h

end NewApiPool.Convert
