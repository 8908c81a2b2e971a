import NewApiPool.Relay.StreamScanner

/-!
# Writing an event stream

What is relayed is written as an event stream again: data behind `data:`, for some clients with the
name of the event in a line before it, and comments that keep the connection alive, which come from
a goroutine of their own. A mutex keeps what is written at a time together, so that a stream is any
sequence of writes.

Another gateway of this kind may be the client. It reads the data that was written, whatever else
stands between it, however its goroutines take turns (`delivered_of_written`).
-/

namespace NewApiPool.Relay

open EventSystem GoText

/-! ### The writes -/

/-- `dataReplacer`. Line feeds are replaced by themselves. -/
def escapeReturns (s : String) : String :=
  String.ofList (s.toList.flatMap fun c => if c = '\r' then ['\\', 'r'] else [c])

def writeData (data : String) : String :=
  escapeReturns data ++ if startsWith data "data" then "\n\n" else ""

def stringData (str : String) : String := writeData ("data: " ++ str)

def pingData : String := ": PING\n\n"

def done : String := stringData "[DONE]"

def claudeData (type json : String) : String :=
  writeData ("event: " ++ type ++ "\n") ++ writeData ("data: " ++ json)

def claudeChunkData (type data : String) : String :=
  writeData ("event: " ++ type ++ "\n") ++ writeData ("data: " ++ data ++ "\n")

def responseChunkData (type data : String) : String :=
  writeData ("event: " ++ type ++ "\n") ++ writeData ("data: " ++ data)

/-- What is written while the mutex is held. -/
inductive StreamWrite
  | string (str : String)
  | ping
  | claude (type json : String)
  | claudeChunk (type data : String)
  | responseChunk (type data : String)
  | done

namespace StreamWrite

def text : StreamWrite → String
  | string str => stringData str
  | ping => pingData
  | claude type json => claudeData type json
  | claudeChunk type data => claudeChunkData type data
  | responseChunk type data => responseChunkData type data
  | done => Relay.done

/-- The data that is written. -/
def data? : StreamWrite → Option String
  | string str => some str
  | ping => none
  | claude _ json => some json
  | claudeChunk _ data => some data
  | responseChunk _ data => some data
  | done => none

/-- The name of an event. -/
def event? : StreamWrite → Option String
  | claude type _ => some type
  | claudeChunk type _ => some type
  | responseChunk type _ => some type
  | _ => none

def isDone : StreamWrite → Bool
  | done => true
  | _ => false

/-- The lines of a write. -/
def lines : StreamWrite → List String
  | string str => ["data: " ++ str, ""]
  | ping => [": PING", ""]
  | claude type json => ["event: " ++ type, "data: " ++ json, ""]
  | claudeChunk type data => ["event: " ++ type, "data: " ++ data, "", ""]
  | responseChunk type data => ["event: " ++ type, "data: " ++ data, ""]
  | done => ["data: [DONE]", ""]

def OneLine (s : String) : Prop := '\n' ∉ s.toList ∧ '\r' ∉ s.toList

/-- Data that a line can carry, such as a JSON text. -/
structure Clean (data : String) : Prop where
  line : OneLine data
  trimmed : trimSpace data = data
  nonempty : data ≠ ""
  not_done : startsWith data "[DONE]" = false

/-- A write of such data, under a name of one line. -/
def Legible (w : StreamWrite) : Prop :=
  (∀ data, w.data? = some data → Clean data) ∧
    ∀ type, w.event? = some type → OneLine type

end StreamWrite

/-- `bufio.ScanLines` -/
def scanLines (body : String) : List String :=
  let pieces := split '\n' body
  -- nothing is left behind the last line feed
  (if pieces.getLast? = some "" then pieces.dropLast else pieces).map fun line =>
    trimSuffix line "\r"

/-! ### Reading what was written -/

section Lines

variable {s data line : String} {lines rest : List String} {w : StreamWrite}

theorem escapeReturns_eq_self (h : '\r' ∉ s.toList) : escapeReturns s = s := by
  have hchars : (s.toList.flatMap fun c => if c = '\r' then ['\\', 'r'] else [c]) = s.toList := by
    refine (List.flatMap_congr fun c hc => if_neg ?_).trans (List.flatMap_singleton' _)
    rintro rfl
    exact h hc
  rw [escapeReturns, hchars, String.ofList_toList]

theorem writeData_data (h : '\r' ∉ s.toList) :
    writeData ("data: " ++ s) = "data: " ++ s ++ "\n\n" := by
  have hstart : startsWith ("data: " ++ s) "data" = true := by
    rw [startsWith, List.isPrefixOf_iff_prefix, String.toList_append]
    exact ⟨[':', ' '] ++ s.toList, rfl⟩
  rw [writeData, if_pos hstart, escapeReturns_eq_self (by simp [h])]

theorem writeData_event (h : '\r' ∉ s.toList) :
    writeData ("event: " ++ s ++ "\n") = "event: " ++ s ++ "\n" := by
  have hstart : startsWith ("event: " ++ s ++ "\n") "data" = false := by
    rw [startsWith, String.toList_append, String.toList_append]
    rfl
  rw [writeData, hstart, if_neg Bool.false_ne_true, String.append_empty,
    escapeReturns_eq_self (by simp [h])]

/-- **Lines** that end in a line feed each are read as they are. -/
theorem scanLines_join (h : ∀ l ∈ lines, StreamWrite.OneLine l) :
    scanLines (String.join (lines.map (· ++ "\n"))) = lines := by
  have hjoin : String.join (lines.map (· ++ "\n")) =
      (String.singleton '\n').intercalate (lines ++ [""]) := by
    clear h
    induction lines with
    | nil => rfl
    | cons l lines ih =>
      rw [List.map_cons, String.join_cons, ih, List.cons_append,
        String.intercalate_cons_of_ne_nil (by simp)]
      rfl
  have hsplit : split '\n' (String.join (lines.map (· ++ "\n"))) = lines ++ [""] := by
    rw [hjoin]
    refine split_intercalate (by simp) fun piece hpiece hfeed => ?_
    rcases List.mem_append.mp hpiece with hline | hlast
    · exact (h piece hline).1 hfeed
    · rw [List.mem_singleton.mp hlast] at hfeed
      cases hfeed
  rw [scanLines, hsplit, List.getLast?_concat, if_pos rfl, List.dropLast_concat]
  refine (List.map_congr_left fun l hl => ?_).trans (List.map_id lines)
  have hend : endsWith l "\r" = false := by
    rw [endsWith, Bool.eq_false_iff, Ne, List.isSuffixOf_iff_suffix]
    exact fun hsuffix => (h l hl).2 (hsuffix.subset (List.mem_singleton_self _))
  rw [trimSuffix, hend]
  rfl

/-- A write is its lines, each with a line feed behind it. -/
theorem text_eq (h : w.Legible) : w.text = String.join (w.lines.map (· ++ "\n")) := by
  obtain ⟨hdata, hevent⟩ := h
  have hfeeds : "\n\n" = "\n" ++ "\n" := rfl
  have htext (s : String) (hs : '\r' ∉ s.toList) : '\r' ∉ (s ++ "\n").toList := by simp [hs]
  cases w with
  | string str =>
    have hstr := (hdata str rfl).line.2
    rw [StreamWrite.text, stringData, writeData_data hstr]
    simp [StreamWrite.lines, hfeeds, String.append_assoc]
  | ping => decide
  | claude type json | responseChunk type json =>
    have hjson := (hdata json rfl).line.2
    have htype := (hevent type rfl).2
    simp only [StreamWrite.text, claudeData, responseChunkData, writeData_event htype,
      writeData_data hjson]
    simp [StreamWrite.lines, hfeeds, String.append_assoc]
  | claudeChunk type data =>
    have hjson := (hdata data rfl).line.2
    have htype := (hevent type rfl).2
    have hdata' := writeData_data (htext data hjson)
    rw [← String.append_assoc] at hdata'
    rw [StreamWrite.text, claudeChunkData, writeData_event htype, hdata']
    simp [StreamWrite.lines, hfeeds, String.append_assoc]
  | done => decide

theorem readLine_data (h : StreamWrite.Clean data) : readLine ("data: " ++ data) = .data data := by
  have hpayload : payload ("data: " ++ data) = data := by
    have hblank : payload ("data: " ++ data) = trimSpace data := by
      rw [payload, String.toList_append, trimSpace, String.toList_ofList, trimSpace]
      rfl
    rw [hblank, h.trimmed]
  have hstart : startsWith ("data: " ++ data) "data:" = true := by
    rw [startsWith, List.isPrefixOf_iff_prefix, String.toList_append]
    exact ⟨' ' :: data.toList, rfl⟩
  have hend : isEnd ("data: " ++ data) = false := by
    rw [isEnd, startsWith_done_of_data hstart, hpayload, h.not_done, Bool.and_false,
      Bool.or_false]
  have hsome : payload? ("data: " ++ data) = some data := by
    rw [payload?, hpayload, if_pos ⟨hstart, h.nonempty⟩]
  rw [readLine_of_not_isEnd hend, hsome]
  rfl

theorem readLine_event (type : String) : readLine ("event: " ++ type) = .skip := by
  have hother : startsWith ("event: " ++ type) "data:" = false ∧
      startsWith ("event: " ++ type) "[DONE]" = false := by
    rw [startsWith, startsWith, String.toList_append]
    exact ⟨rfl, rfl⟩
  rw [readLine, if_pos hother]
  split_ifs <;> rfl

/-- **A write is read** as its data, and as the end of the stream. -/
theorem sent_lines (h : w.Legible) (rest : List String) :
    StreamScanner.sent (w.lines ++ rest) =
      if w.isDone then [] else w.data?.toList ++ StreamScanner.sent rest := by
  obtain ⟨hdata, -⟩ := h
  have hblank : readLine "" = .skip := rfl
  have hping : readLine ": PING" = .skip := rfl
  have hdone : readLine "data: [DONE]" = .done := readLine_done (by decide) (by decide)
  cases w with
  | string str =>
    simp [StreamWrite.lines, StreamScanner.sent, StreamWrite.isDone, StreamWrite.data?, hblank,
      readLine_data (hdata str rfl)]
  | claude type json | claudeChunk type json | responseChunk type json =>
    simp [StreamWrite.lines, StreamScanner.sent, StreamWrite.isDone, StreamWrite.data?, hblank,
      readLine_event, readLine_data (hdata json rfl)]
  | ping | done =>
    simp [StreamWrite.lines, StreamScanner.sent, StreamWrite.isDone, StreamWrite.data?, hblank,
      hping, hdone]

theorem forall_mem_lines (h : w.Legible) :
    ∀ l ∈ w.lines, StreamWrite.OneLine l := by
  obtain ⟨hdata, hevent⟩ := h
  have happend {start s : String} (hstart : StreamWrite.OneLine start)
      (hs : StreamWrite.OneLine s) : StreamWrite.OneLine (start ++ s) := by
    rw [StreamWrite.OneLine, String.toList_append, List.mem_append, List.mem_append]
    exact ⟨not_or.mpr ⟨hstart.1, hs.1⟩, not_or.mpr ⟨hstart.2, hs.2⟩⟩
  have hevents : StreamWrite.OneLine "event: " := ⟨by decide, by decide⟩
  have hdatas : StreamWrite.OneLine "data: " := ⟨by decide, by decide⟩
  have hblank : StreamWrite.OneLine "" := ⟨by decide, by decide⟩
  have hping : StreamWrite.OneLine ": PING" := ⟨by decide, by decide⟩
  have hdone : StreamWrite.OneLine "data: [DONE]" := ⟨by decide, by decide⟩
  cases w with
  | string str =>
    simpa [StreamWrite.lines, hblank] using happend hdatas (hdata str rfl).line
  | claude type json | claudeChunk type json | responseChunk type json =>
    simpa [StreamWrite.lines, hblank] using
      ⟨happend hevents (hevent type rfl), happend hdatas (hdata json rfl).line⟩
  | ping | done => simp [StreamWrite.lines, hblank, hping, hdone]

end Lines

/-- The data that is written before the end of the stream. -/
def written (ws : List StreamWrite) : List String :=
  (ws.takeWhile fun w => !w.isDone).filterMap StreamWrite.data?

theorem sent_flatMap_lines {ws : List StreamWrite} (h : ∀ w ∈ ws, w.Legible) :
    StreamScanner.sent (ws.flatMap StreamWrite.lines) = written ws := by
  induction ws with
  | nil => rfl
  | cons w ws ih =>
    obtain ⟨hw, hws⟩ := List.forall_mem_cons.mp h
    rw [List.flatMap_cons, sent_lines hw, ih hws, written, written, List.takeWhile_cons]
    cases w.isDone with
    | true => rfl
    | false =>
      rw [if_neg Bool.false_ne_true, Bool.not_false, if_pos rfl, List.filterMap_cons]
      cases w.data? <;> rfl

/-- The body of the response. -/
def body (ws : List StreamWrite) : String := String.join (ws.map StreamWrite.text)

theorem body_eq {ws : List StreamWrite} (h : ∀ w ∈ ws, w.Legible) :
    body ws = String.join ((ws.flatMap StreamWrite.lines).map (· ++ "\n")) := by
  induction ws with
  | nil => rfl
  | cons w ws ih =>
    obtain ⟨hw, hws⟩ := List.forall_mem_cons.mp h
    rw [List.flatMap_cons, List.map_append, String.join_append, ← ih hws, ← text_eq hw]
    exact String.join_cons

theorem scanLines_body {ws : List StreamWrite} (h : ∀ w ∈ ws, w.Legible) :
    scanLines (body ws) = ws.flatMap StreamWrite.lines := by
  rw [body_eq h]
  refine scanLines_join fun l hl => ?_
  obtain ⟨w, hw, hmem⟩ := List.mem_flatMap.mp hl
  exact forall_mem_lines (h w hw) l hmem

/-- **What is written is read** by a gateway behind this one: the data before the end of the stream,
each once and in its order, wherever the pings fell and however the goroutines of the reader took
turns. -/
theorem delivered_of_written {ws : List StreamWrite} (h : ∀ w ∈ ws, w.Legible)
    {gs : List Goroutine}
    (hgs : (run StreamScanner.step (.start (scanLines (body ws))) gs).Finished) :
    (run StreamScanner.step (.start (scanLines (body ws))) gs).delivered = written ws := by
  rw [StreamScanner.delivered_of_finished hgs, scanLines_body h, sent_flatMap_lines h]

section Sample

/-- A Claude event, a ping, a chunk, the end of the stream, and one more ping. -/
def sampleWrites : List StreamWrite :=
  [.claude "message_start" "\x7b\x7d", .ping, .string "[1]", .done, .ping]

theorem legible_of_clean {data : String} (h : StreamWrite.Clean data) :
    (StreamWrite.string data).Legible ∧ (StreamWrite.claude "message_start" data).Legible := by
  have hname : StreamWrite.OneLine "message_start" := ⟨by decide, by decide⟩
  refine ⟨⟨?_, ?_⟩, ⟨?_, ?_⟩⟩
  · rintro _ ⟨⟩
    exact h
  · rintro _ ⟨⟩
  · rintro _ ⟨⟩
    exact h
  · rintro _ ⟨⟩
    exact hname

theorem legible_sampleWrites : ∀ w ∈ sampleWrites, w.Legible := by
  have hobject : StreamWrite.Clean "\x7b\x7d" :=
    ⟨⟨by decide, by decide⟩, by decide, by decide, by decide⟩
  have hlist : StreamWrite.Clean "[1]" := ⟨⟨by decide, by decide⟩, by decide, by decide, by decide⟩
  have hping : StreamWrite.ping.Legible := ⟨by rintro _ ⟨⟩, by rintro _ ⟨⟩⟩
  have hdone : StreamWrite.done.Legible := ⟨by rintro _ ⟨⟩, by rintro _ ⟨⟩⟩
  simp only [sampleWrites, List.forall_mem_cons]
  exact ⟨(legible_of_clean hobject).2, hping, (legible_of_clean hlist).1, hdone, hping, by simp⟩

theorem delivered_sampleWrites :
    (run StreamScanner.step (.start (scanLines (body sampleWrites)))
        [.scanner, .scanner, .handler, .scanner, .scanner, .scanner, .scanner, .scanner, .scanner,
          .handler]).delivered = written sampleWrites :=
  delivered_of_written legible_sampleWrites ⟨by decide +kernel, by decide +kernel⟩

end Sample

end NewApiPool.Relay
