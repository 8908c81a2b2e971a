import Mathlib.Data.List.Basic
import NewApiPool.Lib.GoText
import NewApiPool.Lib.Runs

/-!
# The lines of an event stream

`StreamScannerHandler` reads the lines of a response in one goroutine and handles their data in
another, with a channel between them. Whatever the order in which the two go on, the data that is
handled is what the first one makes of the lines (`StreamScanner.delivered_of_finished`).

That is the data of the event stream up to its end marker if the marker stands on a line of data.
A bare `[DONE]` is let through by the test for it, but then the first five characters are cut off
as if they were `data:`, and `]` is handled as data (`delivered_eq_payloads_iff`).

The lines are those that fit the buffer of the scanner. At a longer one it stops with an error, and
the handler ends as it does at the end of the response; that limit is left out.
-/

namespace NewApiPool.Relay

open EventSystem GoText

/-! ### The two goroutines -/

/-- What the scanner does with a line. -/
inductive ReadLine
  | skip
  | data (payload : String)
  | done

/-- What stands behind the first five characters. -/
def payload (line : String) : String := trimSpace (String.ofList (line.toList.drop 5))

/-- The body of the loop over the lines. A line of fewer characters than bytes starts with neither
text, if it is not long enough in characters. -/
def readLine (line : String) : ReadLine :=
  if line.toList.length < 6 then .skip
  else if startsWith line "data:" = false ∧ startsWith line "[DONE]" = false then .skip
  else if payload line = "" then .skip
  else if startsWith (payload line) "[DONE]" then .done
  else .data (payload line)

/-- The lines that are left, the channel, whether it is closed, and what was handled. -/
structure StreamScanner where
  lines : List String
  dataChan : List String
  closed : Bool
  delivered : List String

inductive Goroutine
  | scanner
  | handler

namespace StreamScanner

/-- `make(chan string, 10)` -/
def capacity : ℕ := 10

/-- One step of one of them, if it can go on: the scanner waits where the channel is full, the
handler where it is empty. -/
def step (s : StreamScanner) : Goroutine → StreamScanner
  | .scanner =>
    if s.closed then s
    else match s.lines with
      | [] => { s with closed := true }
      | line :: lines =>
        match readLine line with
        | .skip => { s with lines := lines }
        | .done => { s with lines := lines, closed := true }
        | .data payload =>
          if s.dataChan.length < capacity then
            { s with lines := lines, dataChan := s.dataChan ++ [payload] }
          else s
  | .handler =>
    match s.dataChan with
    | [] => s
    | payload :: dataChan =>
      { s with dataChan := dataChan, delivered := s.delivered ++ [payload] }

/-- `StreamScannerHandler`, when the goroutines begin. -/
def start (lines : List String) : StreamScanner := ⟨lines, [], false, []⟩

/-- Both goroutines have returned: the channel is closed by the first one, and emptied by the
second. -/
structure Finished (s : StreamScanner) : Prop where
  closed : s.closed = true
  empty : s.dataChan = []

/-! ### Every order of the steps -/

/-- What the scanner makes of the lines. -/
def sent : List String → List String
  | [] => []
  | line :: lines =>
    match readLine line with
    | .skip => sent lines
    | .done => []
    | .data payload => payload :: sent lines

/-- What the scanner is still to send. -/
def toSend (s : StreamScanner) : List String := if s.closed then [] else sent s.lines

/-- **No data is lost, doubled or put out of order.** -/
theorem step_all (s : StreamScanner) (g : Goroutine) :
    (s.step g).delivered ++ (s.step g).dataChan ++ (s.step g).toSend =
      s.delivered ++ s.dataChan ++ s.toSend := by
  obtain ⟨lines, dataChan, closed, delivered⟩ := s
  cases g with
  | scanner =>
    cases closed with
    | true => rfl
    | false =>
      cases lines with
      | nil => rfl
      | cons line lines =>
        cases hread : readLine line with
        | skip => simp [step, toSend, sent, hread]
        | done => simp [step, toSend, sent, hread]
        | data payload =>
          by_cases hroom : dataChan.length < capacity
          · simp [step, toSend, sent, hread, hroom]
          · simp [step, toSend, sent, hread, hroom]
  | handler =>
    cases dataChan with
    | nil => rfl
    | cons payload dataChan => cases closed <;> simp [step, toSend]

theorem run_all (s : StreamScanner) (gs : List Goroutine) :
    (run step s gs).delivered ++ (run step s gs).dataChan ++ (run step s gs).toSend =
      s.delivered ++ s.dataChan ++ s.toSend :=
  inv_run_always (I := fun s' => s'.delivered ++ s'.dataChan ++ s'.toSend =
    s.delivered ++ s.dataChan ++ s.toSend) (fun s' g h => (step_all s' g).trans h) rfl gs

/-- **What was handled** when both have returned. -/
theorem delivered_of_finished {lines : List String} {gs : List Goroutine}
    (h : (run step (start lines) gs).Finished) :
    (run step (start lines) gs).delivered = sent lines := by
  have hall := run_all (start lines) gs
  rw [toSend, if_pos h.closed, h.empty, List.append_nil, List.append_nil] at hall
  exact hall

/-- What is left to do: the lines that are not read, and the data in the channel that is not
handled. -/
def work (s : StreamScanner) : ℕ :=
  2 * s.lines.length + s.dataChan.length + if s.closed then 0 else 1

/-- **One of them can go on** until both have returned. -/
theorem exists_step_work_lt {s : StreamScanner} (h : ¬s.Finished) :
    ∃ g, (s.step g).work < s.work := by
  obtain ⟨lines, dataChan, closed, delivered⟩ := s
  cases dataChan with
  | cons payload dataChan =>
    refine ⟨.handler, ?_⟩
    cases closed <;> simp [step, work]
  | nil =>
    refine ⟨.scanner, ?_⟩
    cases closed with
    | true => exact absurd ⟨rfl, rfl⟩ h
    | false =>
      cases lines with
      | nil => simp [step, work]
      | cons line lines =>
        cases hread : readLine line with
        | skip => simp [step, work, hread]
        | done =>
          simp only [step, work, hread, List.length_cons, if_false, Bool.false_eq_true, if_true]
          omega
        | data payload =>
          have hroom : 0 < capacity := by decide
          simp only [step, work, hread, hroom, List.length_cons, List.length_nil, if_false,
            Bool.false_eq_true, if_true, List.nil_append]
          omega

theorem exists_finished (s : StreamScanner) : ∃ gs, (run step s gs).Finished := by
  induction h : s.work using Nat.strongRecOn generalizing s with
  | ind n ih =>
    by_cases hfinished : s.Finished
    · exact ⟨[], hfinished⟩
    · obtain ⟨g, hg⟩ := exists_step_work_lt hfinished
      obtain ⟨gs, hgs⟩ := ih _ (h ▸ hg) (s.step g) rfl
      exact ⟨g :: gs, hgs⟩

end StreamScanner

/-! ### The data of an event stream -/

/-- A line that ends the stream. -/
def isEnd (line : String) : Bool :=
  startsWith line "[DONE]" || startsWith line "data:" && startsWith (payload line) "[DONE]"

def payload? (line : String) : Option String :=
  if startsWith line "data:" ∧ payload line ≠ "" then some (payload line) else none

/-- **The data of the lines** before the first one that ends the stream. -/
def payloads (lines : List String) : List String :=
  (lines.takeWhile fun line => !isEnd line).filterMap payload?

section Lines

variable {line : String}

/-- A text that does not begin with a space still begins so when it is trimmed. -/
theorem toList_trimSpace_cons {c : Char} (hc : isSpace c = false) (s : List Char) :
    ∃ t, (trimSpace (String.ofList (c :: s))).toList = c :: t := by
  have hleft : (c :: s).dropWhile isSpace = c :: s := by simp [hc]
  have hright : ∃ t, (s.reverse ++ [c]).dropWhile isSpace = t ++ [c] := by
    rw [List.dropWhile_append]
    split_ifs
    · exact ⟨[], by simp [hc]⟩
    · exact ⟨_, rfl⟩
  obtain ⟨t, ht⟩ := hright
  refine ⟨t.reverse, ?_⟩
  rw [trimSpace, String.toList_ofList, String.toList_ofList, hleft, List.reverse_cons, ht,
    List.reverse_append, List.reverse_singleton, List.singleton_append]

theorem toList_of_startsWith {s start : String} (h : startsWith s start = true) :
    ∃ t, s.toList = start.toList ++ t := by
  obtain ⟨t, ht⟩ := List.isPrefixOf_iff_prefix.1 h
  exact ⟨t, ht.symm⟩

theorem startsWith_done_of_data (h : startsWith line "data:" = true) :
    startsWith line "[DONE]" = false := by
  obtain ⟨t, ht⟩ := toList_of_startsWith h
  rw [startsWith, ht]
  rfl

theorem length_of_payload (h : payload line ≠ "") : ¬line.toList.length < 6 := by
  intro hlt
  have hdrop : line.toList.drop 5 = [] := List.drop_eq_nil_of_le (by omega)
  rw [payload, hdrop] at h
  exact h (by decide)

/-- **A bare end marker** is read as data. -/
theorem readLine_bare (h : startsWith line "[DONE]" = true) :
    readLine line = .data (payload line) := by
  obtain ⟨t, ht⟩ := toList_of_startsWith h
  have hdrop : line.toList.drop 5 = ']' :: t := by
    rw [ht]
    rfl
  have hlength : ¬line.toList.length < 6 := by
    rw [ht, List.length_append]
    exact not_lt.2 (Nat.le_add_right 6 _)
  obtain ⟨t', ht'⟩ := toList_trimSpace_cons (by decide : isSpace ']' = false) t
  have hpayload : (payload line).toList = ']' :: t' := by rw [payload, hdrop, ht']
  have hne : payload line ≠ "" := by
    intro hnil
    rw [hnil] at hpayload
    cases hpayload
  have hdone : startsWith (payload line) "[DONE]" = false := by
    rw [startsWith, hpayload]
    rfl
  rw [readLine, if_neg hlength, if_neg (by simp [h]), if_neg hne, hdone, if_neg Bool.false_ne_true]

theorem readLine_done (h : startsWith line "data:" = true)
    (hdone : startsWith (payload line) "[DONE]" = true) : readLine line = .done := by
  have hne : payload line ≠ "" := by
    intro hnil
    rw [hnil] at hdone
    cases hdone
  rw [readLine, if_neg (length_of_payload hne), if_neg (by simp [h]), if_neg hne, if_pos hdone]

theorem readLine_of_not_isEnd (h : isEnd line = false) :
    readLine line = ((payload? line).map ReadLine.data).getD .skip := by
  rw [isEnd, Bool.or_eq_false_iff] at h
  rw [payload?]
  by_cases hdata : startsWith line "data:" = true
  · by_cases hne : payload line = ""
    · rw [if_neg fun h => h.2 hne, readLine]
      split_ifs <;> rfl
    · have hdone : startsWith (payload line) "[DONE]" = false := by simpa [hdata] using h.2
      rw [if_pos ⟨hdata, hne⟩, readLine, if_neg (length_of_payload hne), if_neg (by simp [hdata]),
        if_neg hne, hdone, if_neg Bool.false_ne_true]
      rfl
  · have hother : startsWith line "data:" = false ∧ startsWith line "[DONE]" = false :=
      ⟨Bool.eq_false_iff.2 hdata, h.1⟩
    rw [if_neg fun h => hdata h.1, readLine, if_pos hother]
    split_ifs <;> rfl

end Lines

/-- **What the scanner sends is the data of the stream** just in case the first end marker, if there
is one, stands on a line of data. -/
theorem sent_eq_payloads_iff (lines : List String) :
    StreamScanner.sent lines = payloads lines ↔
      ∀ line, lines.find? isEnd = some line → startsWith line "data:" = true := by
  induction lines with
  | nil => simp [StreamScanner.sent, payloads]
  | cons line lines ih =>
    cases hend : isEnd line with
    | true =>
      have hnone : payloads (line :: lines) = [] := by simp [payloads, hend]
      have hfind : (line :: lines).find? isEnd = some line := by simp [hend]
      simp only [hnone, hfind, Option.some.injEq, forall_eq']
      cases hdata : startsWith line "data:" with
      | true =>
        have hdone : startsWith (payload line) "[DONE]" = true := by
          simpa [isEnd, hdata, startsWith_done_of_data hdata] using hend
        rw [StreamScanner.sent, readLine_done hdata hdone]
        simp
      | false =>
        have hbare : startsWith line "[DONE]" = true := by simpa [isEnd, hdata] using hend
        rw [StreamScanner.sent, readLine_bare hbare]
        simp
    | false =>
      have hcons : payloads (line :: lines) = (payload? line).toList ++ payloads lines := by
        simp only [payloads, List.takeWhile_cons, hend, Bool.not_false, if_true]
        cases hp : payload? line <;> simp [hp]
      have hfind : (line :: lines).find? isEnd = lines.find? isEnd := by simp [hend]
      rw [hfind, ← ih, hcons, StreamScanner.sent, readLine_of_not_isEnd hend]
      cases payload? line with
      | none => exact Iff.rfl
      | some p => simp

/-- **What is handled is the data of the stream**, in every order of the steps, just in case the
first end marker, if there is one, stands on a line of data. -/
theorem delivered_eq_payloads_iff {lines : List String} {gs : List Goroutine}
    (h : (run StreamScanner.step (.start lines) gs).Finished) :
    (run StreamScanner.step (.start lines) gs).delivered = payloads lines ↔
      ∀ line, lines.find? isEnd = some line → startsWith line "data:" = true := by
  rw [StreamScanner.delivered_of_finished h]
  exact sent_eq_payloads_iff lines

section Sample

/-- A comment, data twice, and the end of the stream. -/
def sampleLines : List String := [": keep-alive", "data: {}", "data:[1]", "data: [DONE]", "data: 2"]

theorem delivered_sampleLines :
    (run StreamScanner.step (.start sampleLines)
        [.scanner, .scanner, .handler, .scanner, .scanner, .handler]).delivered =
      payloads sampleLines :=
  (delivered_eq_payloads_iff ⟨by decide, by decide⟩).2 (by decide)

/-- **A bare end marker is handled as data.** -/
theorem not_delivered_bareDone : ¬∀ (lines : List String) (gs : List Goroutine),
    (run StreamScanner.step (.start lines) gs).Finished →
      (run StreamScanner.step (.start lines) gs).delivered = payloads lines := by
  intro h
  have hlines := h ["data: {}", "[DONE]"] [.scanner, .scanner, .scanner, .handler, .handler]
    ⟨by decide, by decide⟩
  exact absurd hlines (by decide)

end Sample

end NewApiPool.Relay
