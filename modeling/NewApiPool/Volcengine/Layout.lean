import NewApiPool.Volcengine.Protocol

/-!
# What is written and what is read

The writers of a message are functions that append bytes, and `marshal_eq_ok` says what they
append all together. The readers are run on a message that has its header only, and
`newMessageFromBytes_eq_ok_iff` says which frames they accept, and as which message: a frame
is `Laid` for it.
-/

namespace NewApiPool.Volcengine

open Bytes

universe u

theorem bind_eq_ok {ε : Type*} {α β : Type u} {x : Except ε α} {f : α → Except ε β} {b : β} :
    (x >>= f) = .ok b ↔ ∃ a, x = .ok a ∧ f a = .ok b := by
  cases x with
  | error e => exact iff_of_false nofun fun ⟨_, h, _⟩ => nomatch h
  | ok a =>
    constructor
    · exact fun h => ⟨a, rfl, h⟩
    · rintro ⟨_, h, hf⟩
      cases h
      exact hf

/-! ### The fields of a frame -/

/-- The identifier that is written with an event. -/
def idWritten (event : UInt32) (session : List UInt8) : List UInt8 :=
  if event ∈ noSessionWritten then [] else sized session

/-- The identifiers that are read with an event. -/
def idsRead (event : UInt32) (session connect : List UInt8) : List UInt8 :=
  (if event ∈ noSessionRead then [] else sized session) ++
    if event ∈ connectRead then sized connect else []

namespace Message

variable (m : Message)

/-- The bytes that the type calls for: an error code or, with some flags, a sequence. -/
def codeBytes : List UInt8 :=
  if m.msgType = msgTypeError then be32 m.errorCode
  else if m.msgTypeFlag = msgTypeFlagPositiveSeq ∨ m.msgTypeFlag = msgTypeFlagNegativeSeq then
    be32 m.sequence
  else []

/-- The bytes of the event and of its identifier, as they are written. -/
def eventWritten : List UInt8 :=
  if m.msgTypeFlag = msgTypeFlagWithEvent then
    be32 m.eventType ++ idWritten m.eventType m.sessionID
  else []

/-- The bytes of the event and of its identifiers, as they are read. -/
def eventRead : List UInt8 :=
  if m.msgTypeFlag = msgTypeFlagWithEvent then
    be32 m.eventType ++ idsRead m.eventType m.sessionID m.connectID
  else []

/-- The type of the message has a sequence, and its flag says that it is there. -/
def HasSequence : Prop :=
  m.msgType ∈ sequenceTypes ∧ (m.msgTypeFlag = msgTypeFlagPositiveSeq ∨
    m.msgTypeFlag = msgTypeFlagNegativeSeq)

instance decidableHasSequence : Decidable m.HasSequence :=
  inferInstanceAs (Decidable (_ ∧ (_ ∨ _)))

/-- **A message whose fields are called for**: its type is known, and a field that neither
the type, the flag nor the event call for is zero. The session id is called for unless the
event is one of `noSession`. -/
structure CallsFor (noSession : List UInt32) : Prop where
  msgType : m.msgType ∈ sequenceTypes ∨ m.msgType = msgTypeError
  errorCode : m.msgType ≠ msgTypeError → m.errorCode = 0
  sequence : ¬m.HasSequence → m.sequence = 0
  eventType : m.msgTypeFlag ≠ msgTypeFlagWithEvent → m.eventType = 0
  sessionID : ¬(m.msgTypeFlag = msgTypeFlagWithEvent ∧ m.eventType ∉ noSession) →
    m.sessionID = []
  connectID : ¬(m.msgTypeFlag = msgTypeFlagWithEvent ∧ m.eventType ∈ connectRead) →
    m.connectID = []

end Message

/-! ### What is written -/

/-- A writer that appends `bytes` if `p`, and fails if not. -/
def Appends (write : Writer) (p : Prop) (bytes : List UInt8) : Prop :=
  ∀ buf out, write buf = .ok out ↔ p ∧ out = buf ++ bytes

/-- The writers of a list, one after the other. -/
def writeAll (writers : List Writer) : Writer := fun buf =>
  writers.foldlM (fun buf write => write buf) buf

section Appends

variable {write : Writer} {writers writers' : List Writer} {p q : Prop} {bytes bytes' : List UInt8}

theorem appends_nil : Appends (writeAll []) True [] := by
  intro buf out
  rw [writeAll, List.foldlM_nil, List.append_nil, true_and]
  exact (Iff.of_eq (Except.ok.injEq _ _)).trans eq_comm

theorem Appends.bind {write' : Writer} (h : Appends write p bytes) (hs : Appends write' q bytes') :
    Appends (fun buf => write buf >>= write') (p ∧ q) (bytes ++ bytes') := by
  intro buf out
  rw [bind_eq_ok]
  constructor
  · rintro ⟨mid, hmid, hout⟩
    obtain ⟨hp, rfl⟩ := (h buf mid).mp hmid
    obtain ⟨hq, rfl⟩ := (hs _ out).mp hout
    exact ⟨⟨hp, hq⟩, List.append_assoc ..⟩
  · rintro ⟨⟨hp, hq⟩, rfl⟩
    exact ⟨_, (h buf _).mpr ⟨hp, rfl⟩, (hs _ _).mpr ⟨hq, (List.append_assoc ..).symm⟩⟩

theorem Appends.cons (h : Appends write p bytes) (hs : Appends (writeAll writers) q bytes') :
    Appends (writeAll (write :: writers)) (p ∧ q) (bytes ++ bytes') := by
  intro buf out
  rw [writeAll, List.foldlM_cons]
  exact h.bind hs buf out

theorem Appends.append (h : Appends (writeAll writers) p bytes)
    (hs : Appends (writeAll writers') q bytes') :
    Appends (writeAll (writers ++ writers')) (p ∧ q) (bytes ++ bytes') := by
  intro buf out
  rw [writeAll, List.foldlM_append]
  exact h.bind hs buf out

theorem Appends.one (h : Appends write p bytes) : Appends (writeAll [write]) p bytes := by
  simpa using h.cons appends_nil

theorem Appends.congr (h : Appends write p bytes) (hp : p ↔ q) : Appends write q bytes :=
  fun buf out => (h buf out).trans (and_congr_left' hp)

end Appends

theorem appends_bytes (bytes : List UInt8) :
    Appends (fun buf => .ok (buf ++ bytes)) True bytes := by
  intro buf out
  rw [true_and]
  exact (Iff.of_eq (Except.ok.injEq _ _)).trans eq_comm

theorem appends_writeSized (name : String) (s : List UInt8) :
    Appends (writeSized name s) (s.length < 2 ^ 32) (sized s) := by
  intro buf out
  rw [writeSized, maxUint32]
  split
  · exact iff_of_false nofun (by omega)
  · rw [Except.ok.injEq, List.append_assoc]
    exact ⟨fun h => ⟨by omega, h.symm⟩, fun h => h.2.symm⟩

namespace Message

variable {m : Message}

/-- The lengths that are written fit 32 bits. -/
structure Fits (m : Message) : Prop where
  sessionID : m.msgTypeFlag = msgTypeFlagWithEvent → m.eventType ∉ noSessionWritten →
    m.sessionID.length < 2 ^ 32
  payload : m.payload.length < 2 ^ 32

theorem appends_writeSessionID : Appends m.writeSessionID
    (m.eventType ∉ noSessionWritten → m.sessionID.length < 2 ^ 32)
    (if m.eventType ∈ noSessionWritten then [] else sized m.sessionID) := by
  intro buf out
  rw [writeSessionID]
  split
  · rename_i h
    rw [Except.ok.injEq, List.append_nil]
    exact ⟨fun hout => ⟨fun hne => absurd h hne, hout.symm⟩, fun hout => hout.2.symm⟩
  · rename_i h
    rw [appends_writeSized _ _ buf out]
    exact and_congr_left' ⟨fun hlen _ => hlen, fun hlen => hlen h⟩

theorem appends_event : Appends
    (writeAll (if m.msgTypeFlag = msgTypeFlagWithEvent then [m.writeEvent, m.writeSessionID]
      else []))
    (m.msgTypeFlag = msgTypeFlagWithEvent → m.eventType ∉ noSessionWritten →
      m.sessionID.length < 2 ^ 32) m.eventWritten := by
  rw [eventWritten]
  split
  · rename_i h
    refine ((appends_bytes (be32 m.eventType)).cons appends_writeSessionID.one).congr ?_
    rw [true_and, forall_prop_of_true h]
  · rename_i h
    exact appends_nil.congr (iff_of_true trivial fun h' => absurd h' h)

/-- **What `Marshal` returns**: the header, the event, the code and the payload. -/
theorem marshal_eq_ok (h : m.msgType ∈ sequenceTypes ∨ m.msgType = msgTypeError)
    {d : List UInt8} : m.marshal = .ok d ↔
      m.Fits ∧ d = m.header ++ (m.eventWritten ++ m.codeBytes ++ sized m.payload) := by
  have hcode : ∃ code, m.writers = .ok
      ((if m.msgTypeFlag = msgTypeFlagWithEvent then [m.writeEvent, m.writeSessionID] else []) ++
        code ++ [m.writePayload]) ∧ Appends (writeAll code) True m.codeBytes := by
    rw [writers, codeBytes]
    rcases h with h | h
    · have herror : m.msgType ≠ msgTypeError := fun h' =>
        (by decide : msgTypeError ∉ sequenceTypes) (h' ▸ h)
      rw [if_pos h, if_neg herror]
      split
      · exact ⟨_, rfl, (appends_bytes (be32 m.sequence)).one⟩
      · exact ⟨_, rfl, appends_nil⟩
    · rw [if_neg (by rw [h]; decide), if_pos h, if_pos h]
      exact ⟨_, rfl, (appends_bytes (be32 m.errorCode)).one⟩
  obtain ⟨code, hwriters, happ⟩ := hcode
  have hall := ((appends_event (m := m)).append happ).append
    (appends_writeSized "payload" m.payload).one
  rw [marshal, hwriters]
  refine (hall m.header d).trans (and_congr_left' ?_)
  exact ⟨fun h => ⟨h.1.1, h.2⟩, fun h => ⟨⟨h.sessionID, trivial⟩, h.payload⟩⟩

end Message

/-! ### What is read -/

/-- The readers of a list, one after the other. -/
def readAll (readers : List Reader) : Reader := fun state =>
  readers.foldlM (fun state read => read state) state

theorem readSized_eq_ok {buf s rest : List UInt8} :
    readSized [] buf = .ok (s, rest) ↔
      ∃ size tail, buf = be32 size ++ tail ∧ s = tail.take size.toNat ∧
        rest = tail.drop size.toNat := by
  have hnext (size : UInt32) (tail : List UInt8) :
      (if 0 < size then pure (tail.take size.toNat, tail.drop size.toNat) else pure ([], tail) :
        Except String _) = .ok (tail.take size.toNat, tail.drop size.toNat) := by
    split
    · rfl
    · rename_i h
      have hzero : size.toNat = 0 := by
        rw [UInt32.lt_iff_toNat_lt] at h
        simpa using h
      rw [hzero, List.take_zero, List.drop_zero]
      rfl
  rw [readSized, bind_eq_ok]
  constructor
  · rintro ⟨⟨size, tail⟩, hread, h⟩
    cases (hnext size tail).symm.trans h
    exact ⟨size, tail, readWord_eq_ok.mp hread, rfl, rfl⟩
  · rintro ⟨size, tail, rfl, rfl, rfl⟩
    exact ⟨(size, tail), readWord_be32 size tail, hnext size tail⟩

/-- With bytes left behind it, what is read has the length that is written. -/
theorem readSized_more {buf s rest : List UInt8} (hrest : rest ≠ []) :
    readSized [] buf = .ok (s, rest) ↔ s.length < 2 ^ 32 ∧ buf = sized s ++ rest := by
  rw [readSized_eq_ok]
  constructor
  · rintro ⟨size, tail, rfl, rfl, rfl⟩
    have hlt : size.toNat < tail.length := by
      rw [Ne, List.drop_eq_nil_iff] at hrest
      omega
    have hlen : (tail.take size.toNat).length = size.toNat := by
      rw [List.length_take, Nat.min_eq_left (Nat.le_of_lt hlt)]
    rw [sized, hlen, UInt32.ofNat_toNat, List.append_assoc, List.take_append_drop]
    exact ⟨size.toNat_lt, rfl⟩
  · rintro ⟨hlen, rfl⟩
    refine ⟨UInt32.ofNat s.length, s ++ rest, by rw [sized, List.append_assoc], ?_, ?_⟩
    · rw [toNat_length hlen, List.take_left]
    · rw [toNat_length hlen, List.drop_left]

/-- At the end of the bytes, what is read may be shorter. -/
theorem readSized_last {buf s : List UInt8} :
    readSized [] buf = .ok (s, []) ↔
      ∃ size : UInt32, s.length ≤ size.toNat ∧ buf = be32 size ++ s := by
  rw [readSized_eq_ok]
  constructor
  · rintro ⟨size, tail, rfl, rfl, h⟩
    have hle : tail.length ≤ size.toNat := List.drop_eq_nil_iff.mp h.symm
    rw [List.take_of_length_le hle]
    exact ⟨size, hle, rfl⟩
  · rintro ⟨size, hle, rfl⟩
    exact ⟨size, s, rfl, (List.take_of_length_le hle).symm, (List.drop_eq_nil_of_le hle).symm⟩

theorem readField (set : UInt32 → Message) {m' : Message} {buf rest : List UInt8} :
    (readWord buf >>= fun (w, tail) => pure (set w, tail)) = .ok (m', rest) ↔
      ∃ w, m' = set w ∧ buf = be32 w ++ rest := by
  rw [bind_eq_ok]
  constructor
  · rintro ⟨⟨w, tail⟩, hread, h⟩
    cases h
    exact ⟨w, rfl, readWord_eq_ok.mp hread⟩
  · rintro ⟨w, rfl, rfl⟩
    exact ⟨(w, rest), readWord_be32 w rest, rfl⟩

/-- A reader of an identifier, with bytes left behind it. -/
theorem readID (set : List UInt8 → Message) {m' : Message} {buf rest : List UInt8}
    (hrest : rest ≠ []) :
    (readSized [] buf >>= fun (id, tail) => pure (set id, tail)) = .ok (m', rest) ↔
      ∃ id, m' = set id ∧ id.length < 2 ^ 32 ∧ buf = sized id ++ rest := by
  rw [bind_eq_ok]
  constructor
  · rintro ⟨⟨id, tail⟩, hread, h⟩
    cases h
    exact ⟨id, rfl, (readSized_more hrest).mp hread⟩
  · rintro ⟨id, rfl, hid⟩
    exact ⟨(id, rest), (readSized_more hrest).mpr hid, rfl⟩

namespace Message

variable {m m' : Message} {buf rest : List UInt8}

theorem readID_unless (set : List UInt8 → Message) {id₀ : List UInt8} (hid₀ : id₀ = [])
    (hset : set id₀ = m) {skip : Prop} [Decidable skip] (hrest : rest ≠ []) :
    (if skip then pure (m, buf)
      else readSized id₀ buf >>= fun (id, tail) => pure (set id, tail)) = .ok (m', rest) ↔
      ∃ id, m' = set id ∧ (skip → id = []) ∧ id.length < 2 ^ 32 ∧
        buf = (if skip then [] else sized id) ++ rest := by
  subst hid₀ hset
  by_cases h : skip
  · simp only [if_pos h]
    constructor
    · intro hread
      cases hread
      exact ⟨[], rfl, fun _ => rfl, by decide, rfl⟩
    · rintro ⟨id, rfl, hid, -, rfl⟩
      rw [hid h]
      rfl
  · simp only [if_neg h]
    refine (readID set hrest).trans (exists_congr fun id => and_congr_right' ?_)
    exact (and_iff_right fun h' => absurd h' h).symm

theorem readSessionID_eq_ok (hm : m.sessionID = []) (hrest : rest ≠ []) :
    readSessionID (m, buf) = .ok (m', rest) ↔
      ∃ id, m' = { m with sessionID := id } ∧ (m.eventType ∈ noSessionRead → id = []) ∧
        id.length < 2 ^ 32 ∧
        buf = (if m.eventType ∈ noSessionRead then [] else sized id) ++ rest := by
  exact readID_unless (fun id => { m with sessionID := id }) hm rfl hrest

theorem readConnectID_eq_ok (hm : m.connectID = []) (hrest : rest ≠ []) :
    readConnectID (m, buf) = .ok (m', rest) ↔
      ∃ id, m' = { m with connectID := id } ∧ (m.eventType ∉ connectRead → id = []) ∧
        id.length < 2 ^ 32 ∧
        buf = (if m.eventType ∈ connectRead then sized id else []) ++ rest := by
  rw [readConnectID, ← ite_not]
  refine (readID_unless (fun id => { m with connectID := id }) hm rfl hrest).trans ?_
  simp only [ite_not]

theorem readConnectID_ne_nil (h : readConnectID (m, buf) = .ok (m', rest)) (hrest : rest ≠ []) :
    buf ≠ [] := by
  rintro rfl
  rw [readConnectID] at h
  split at h
  · cases h
  · cases h
    exact hrest rfl

/-- The readers of an event read what `eventRead` has. -/
theorem readAll_event (hs : m.sessionID = []) (hc : m.connectID = []) (hrest : rest ≠ []) :
    readAll [readEvent, readSessionID, readConnectID] (m, buf) = .ok (m', rest) ↔
      ∃ event session connect,
        m' = { m with eventType := event, sessionID := session, connectID := connect } ∧
        (event ∈ noSessionRead → session = []) ∧ (event ∉ connectRead → connect = []) ∧
        session.length < 2 ^ 32 ∧ connect.length < 2 ^ 32 ∧
        buf = be32 event ++ (idsRead event session connect ++ rest) := by
  have hevent (m₁ : Message) (rest₁ : List UInt8) :=
    @readField (fun w => { m with eventType := w }) m₁ buf rest₁
  simp only [readAll, List.foldlM_cons, List.foldlM_nil, bind_eq_ok, Prod.exists]
  constructor
  · rintro ⟨m₁, rest₁, h₁, m₂, rest₂, h₂, m₃, rest₃, h₃, h⟩
    cases h
    obtain ⟨event, rfl, rfl⟩ := (hevent m₁ rest₁).mp h₁
    have hrest₂ := readConnectID_ne_nil h₃ hrest
    obtain ⟨session, rfl, hsession, hslen, rfl⟩ :=
      (readSessionID_eq_ok (m := { m with eventType := event }) hs hrest₂).mp h₂
    obtain ⟨connect, rfl, hconnect, hclen, rfl⟩ := (readConnectID_eq_ok
      (m := { m with eventType := event, sessionID := session }) hc hrest).mp h₃
    exact ⟨event, session, connect, rfl, hsession, hconnect, hslen, hclen, by
      rw [idsRead, List.append_assoc]⟩
  · rintro ⟨event, session, connect, rfl, hsession, hconnect, hslen, hclen, rfl⟩
    rw [idsRead, List.append_assoc] at hevent ⊢
    refine ⟨_, _, (hevent _ _).mpr ⟨event, rfl, rfl⟩, _, _,
      (readSessionID_eq_ok (m := { m with eventType := event }) hs
        (List.append_ne_nil_of_right_ne_nil _ hrest)).mpr ⟨session, rfl, hsession, hslen, rfl⟩,
      _, _,
      (readConnectID_eq_ok (m := { m with eventType := event, sessionID := session }) hc
        hrest).mpr ⟨connect, rfl, hconnect, hclen, rfl⟩, rfl⟩

/-- The readers of the code and of the event that `readers` chooses. -/
def codeReaders (m : Message) : List Reader :=
  if m.msgType = msgTypeError then [readErrorCode]
  else if m.msgTypeFlag = msgTypeFlagPositiveSeq ∨ m.msgTypeFlag = msgTypeFlagNegativeSeq then
    [readSequence]
  else []

def eventReaders (m : Message) : List Reader :=
  if m.msgTypeFlag = msgTypeFlagWithEvent then [readEvent, readSessionID, readConnectID] else []

theorem readers_eq_ok {readers : List Reader} : m.readers = .ok readers ↔
    (m.msgType ∈ sequenceTypes ∨ m.msgType = msgTypeError) ∧
      readers = m.codeReaders ++ m.eventReaders ++ [readPayload] := by
  rw [Message.readers, codeReaders, eventReaders]
  by_cases htype : m.msgType ∈ sequenceTypes
  · have herror : m.msgType ≠ msgTypeError := fun h =>
      (by decide : msgTypeError ∉ sequenceTypes) (h ▸ htype)
    rw [if_pos htype, if_neg herror, and_iff_right (Or.inl htype)]
    split <;> exact (Iff.of_eq (Except.ok.injEq _ _)).trans eq_comm
  · rw [if_neg htype]
    split
    · rename_i h
      rw [and_iff_right (Or.inr h)]
      exact (Iff.of_eq (Except.ok.injEq _ _)).trans eq_comm
    · rename_i h
      exact iff_of_false nofun fun h' => h'.1.elim htype h

theorem readAll_code (hcode : m.errorCode = 0) (hsequence : m.sequence = 0)
    (htype : m.msgType ∈ sequenceTypes ∨ m.msgType = msgTypeError) :
    readAll m.codeReaders (m, buf) = .ok (m', rest) ↔
      ∃ code n, m' = { m with errorCode := code, sequence := n } ∧
        (m.msgType ≠ msgTypeError → code = 0) ∧ (¬m.HasSequence → n = 0) ∧
        buf = ({ m with errorCode := code, sequence := n } : Message).codeBytes ++ rest := by
  have hone (read : Reader) : readAll [read] (m, buf) = read (m, buf) :=
    bind_pure (read (m, buf))
  rw [codeReaders, HasSequence]
  simp only [codeBytes]
  split
  · rename_i h
    rw [hone]
    refine (readField fun w => { m with errorCode := w }).trans ?_
    constructor
    · rintro ⟨code, rfl, rfl⟩
      exact ⟨code, 0, by rw [← hsequence], fun hne => absurd h hne, fun _ => rfl, rfl⟩
    · rintro ⟨code, n, rfl, -, hn, rfl⟩
      have hzero : n = 0 := hn fun h' =>
        (by decide : msgTypeError ∉ sequenceTypes) (h ▸ h'.1)
      exact ⟨code, by rw [hzero, ← hsequence], rfl⟩
  · rename_i h
    have hmem := htype.resolve_right h
    split
    · rename_i hflag
      rw [hone]
      refine (readField fun w => { m with sequence := w }).trans ?_
      constructor
      · rintro ⟨n, rfl, rfl⟩
        exact ⟨0, n, by rw [← hcode], fun _ => rfl, fun hne => absurd ⟨hmem, hflag⟩ hne, rfl⟩
      · rintro ⟨code, n, rfl, hzero, -, rfl⟩
        exact ⟨n, by rw [hzero h, ← hcode], rfl⟩
    · rename_i hflag
      constructor
      · intro hread
        cases hread
        exact ⟨m.errorCode, m.sequence, rfl, fun _ => hcode, fun _ => hsequence, rfl⟩
      · rintro ⟨code, n, rfl, hzero, hn, rfl⟩
        rw [(hzero h).trans hcode.symm, (hn fun h' => hflag h'.2).trans hsequence.symm]
        rfl

theorem readAll_eventReaders (he : m.eventType = 0) (hs : m.sessionID = []) (hc : m.connectID = [])
    (hrest : rest ≠ []) :
    readAll m.eventReaders (m, buf) = .ok (m', rest) ↔
      ∃ event session connect,
        m' = { m with eventType := event, sessionID := session, connectID := connect } ∧
        (m.msgTypeFlag ≠ msgTypeFlagWithEvent → event = 0) ∧
        (¬(m.msgTypeFlag = msgTypeFlagWithEvent ∧ event ∉ noSessionRead) → session = []) ∧
        (¬(m.msgTypeFlag = msgTypeFlagWithEvent ∧ event ∈ connectRead) → connect = []) ∧
        session.length < 2 ^ 32 ∧ connect.length < 2 ^ 32 ∧
        buf = ({ m with eventType := event, sessionID := session, connectID := connect } :
          Message).eventRead ++ rest := by
  rw [eventReaders]
  simp only [eventRead]
  split
  · rename_i h
    refine (readAll_event hs hc hrest).trans
      (exists_congr fun event => exists_congr fun session => exists_congr fun connect => ?_)
    rw [h, List.append_assoc]
    simp
  · rename_i h
    constructor
    · intro hread
      cases hread
      exact ⟨m.eventType, m.sessionID, m.connectID, rfl, fun _ => he, fun _ => hs, fun _ => hc,
        by rw [hs]; decide, by rw [hc]; decide, rfl⟩
    · rintro ⟨event, session, connect, rfl, hevent, hsession, hconnect, -, -, rfl⟩
      rw [(hevent h).trans he.symm, (hsession fun h' => h h'.1).trans hs.symm,
        (hconnect fun h' => h h'.1).trans hc.symm]
      rfl

theorem readPayload_eq_ok (hp : m.payload = []) :
    readAll [readPayload] (m, buf) = .ok (m', []) ↔
      ∃ payload, m' = { m with payload := payload } ∧
        ∃ size : UInt32, payload.length ≤ size.toNat ∧ buf = be32 size ++ payload := by
  rw [show readAll [readPayload] (m, buf) = readPayload (m, buf) from bind_pure _, readPayload,
    hp, bind_eq_ok]
  constructor
  · rintro ⟨⟨payload, rest⟩, hread, h⟩
    cases h
    exact ⟨payload, rfl, readSized_last.mp hread⟩
  · rintro ⟨payload, rfl, h⟩
    exact ⟨(payload, []), readSized_last.mpr h, rfl⟩

/-- The header of a message, with no field behind it. -/
def bare (m : Message) : Message :=
  { m with
    eventType := 0
    sessionID := []
    connectID := []
    sequence := 0
    errorCode := 0
    payload := [] }

/-- **What the readers read** behind the header, up to the end of the bytes. -/
theorem readAll_readers (hm : m.bare = m)
    (htype : m.msgType ∈ sequenceTypes ∨ m.msgType = msgTypeError) :
    readAll (m.codeReaders ++ m.eventReaders ++ [readPayload]) (m, buf) = .ok (m', []) ↔
      m'.bare = m ∧ m'.CallsFor noSessionRead ∧ m'.sessionID.length < 2 ^ 32 ∧
        m'.connectID.length < 2 ^ 32 ∧ ∃ size : UInt32, m'.payload.length ≤ size.toNat ∧
          buf = m'.codeBytes ++ (m'.eventRead ++ (be32 size ++ m'.payload)) := by
  have he : m.eventType = 0 := (congrArg eventType hm).symm
  have hs : m.sessionID = [] := (congrArg sessionID hm).symm
  have hc : m.connectID = [] := (congrArg connectID hm).symm
  have hp : m.payload = [] := (congrArg payload hm).symm
  have hcode : m.errorCode = 0 := (congrArg errorCode hm).symm
  have hsequence : m.sequence = 0 := (congrArg sequence hm).symm
  rw [readAll, List.foldlM_append, List.foldlM_append, bind_eq_ok]
  simp only [bind_eq_ok, Prod.exists]
  constructor
  · rintro ⟨m₂, rest₂, ⟨m₁, rest₁, h₁, h₂⟩, h₃⟩
    have hrest₂ : rest₂ ≠ [] := by
      rintro rfl
      cases h₃
    obtain ⟨code, n, rfl, hcode', hn, rfl⟩ := (readAll_code hcode hsequence htype).mp h₁
    obtain ⟨event, session, connect, rfl, hevent, hsession, hconnect, hslen, hclen, rfl⟩ :=
      (readAll_eventReaders (by exact he) (by exact hs) (by exact hc) hrest₂).mp h₂
    obtain ⟨payload, rfl, size, hsize, rfl⟩ := 
      (readPayload_eq_ok (by exact hp)).mp h₃
    exact ⟨hm, ⟨htype, hcode', hn, hevent, hsession, hconnect⟩, hslen, hclen, size, hsize, rfl⟩
  · rintro ⟨rfl, h, hslen, hclen, size, hsize, rfl⟩
    have hne : be32 size ++ m'.payload ≠ [] := 
      List.append_ne_nil_of_left_ne_nil (be32_ne_nil size) _
    refine ⟨{ m' with payload := [] }, be32 size ++ m'.payload,
      ⟨{ m'.bare with errorCode := m'.errorCode, sequence := m'.sequence },
        m'.eventRead ++ (be32 size ++ m'.payload), ?_, ?_⟩, ?_⟩
    · exact (readAll_code hcode hsequence htype).mpr
        ⟨m'.errorCode, m'.sequence, rfl, h.errorCode, h.sequence, rfl⟩
    · exact (readAll_eventReaders
        (m := { m'.bare with errorCode := m'.errorCode, sequence := m'.sequence }) rfl rfl rfl
        hne).mpr ⟨m'.eventType, m'.sessionID, m'.connectID, rfl, h.eventType, h.sessionID,
          h.connectID, hslen, hclen, rfl⟩
    · exact (readPayload_eq_ok (m := { m' with payload := [] }) rfl).mpr
        ⟨m'.payload, rfl, size, hsize, rfl⟩

end Message

/-- The numbers of a header have four bits. -/
structure Message.FourBit (m : Message) : Prop where
  version_lt : m.version < 16
  headerSize_lt : m.headerSize < 16
  msgTypeFlag_lt : m.msgTypeFlag < 16
  compression_lt : m.compression < 16

/-- **A frame that is read as `m`**: the header has the numbers of `m`, the serialization in
the high half of its byte; behind it are the fields in the order of the readers, and a payload
that may be shorter than its length says. -/
structure Laid (d : List UInt8) (m : Message) : Prop where
  callsFor : m.CallsFor noSessionRead
  fourBit : m.FourBit
  serialization : m.serialization &&& 15 = 0
  sessionID_lt : m.sessionID.length < 2 ^ 32
  connectID_lt : m.connectID.length < 2 ^ 32
  bytes : ∃ (pad : List UInt8) (size : UInt32), pad.length = Message.paddingSize m.headerSize ∧
    m.payload.length ≤ size.toNat ∧
    d = [m.version <<< 4 ||| m.headerSize, m.msgType <<< 4 ||| m.msgTypeFlag,
      m.serialization ||| m.compression] ++ (pad ++ (m.codeBytes ++ (m.eventRead ++
        (be32 size ++ m.payload))))

theorem Message.CallsFor.msgType_lt {m : Message} {noSession : List UInt32}
    (h : m.CallsFor noSession) : m.msgType < 16 := by
  have hall : ∀ t ∈ sequenceTypes, t < 16 :=
    List.forall_iff_forall_mem.mp (by decide : sequenceTypes.Forall (· < 16))
  rcases h.msgType with htype | htype
  · exact hall _ htype
  · rw [htype]
    decide

/-- The message with the header of the first three bytes. -/
def headerOf (b₀ b₁ b₂ : UInt8) : Message where
  version := b₀ >>> 4
  headerSize := b₀ &&& 15
  msgType := b₁ >>> 4
  msgTypeFlag := b₁ &&& 15
  serialization := b₂ &&& 240
  compression := b₂ &&& 15

theorem bare_eq_iff {m : Message} {b₀ b₁ b₂ : UInt8} (htype : m.msgType < 16) :
    m.bare = headerOf b₀ b₁ b₂ ↔ m.FourBit ∧ m.serialization &&& 15 = 0 ∧
      b₀ = m.version <<< 4 ||| m.headerSize ∧ b₁ = m.msgType <<< 4 ||| m.msgTypeFlag ∧
      b₂ = m.serialization ||| m.compression := by
  rw [Message.bare, headerOf, Message.mk.injEq]
  constructor
  · rintro ⟨h₁, h₂, h₃, h₄, h₅, h₆, -⟩
    obtain ⟨hv, hh, h₀⟩ := halves_iff.mp ⟨h₁, h₂⟩
    obtain ⟨-, hf, h₁⟩ := halves_iff.mp ⟨h₃, h₄⟩
    obtain ⟨hs, hc, h₂⟩ := masked_iff.mp ⟨h₅, h₆⟩
    exact ⟨⟨hv, hh, hf, hc⟩, hs, h₀, h₁, h₂⟩
  · rintro ⟨⟨hv, hh, hf, hc⟩, hs, h₀, h₁', h₂'⟩
    obtain ⟨h₁, h₂⟩ := halves_iff.mpr ⟨hv, hh, h₀⟩
    obtain ⟨h₃, h₄⟩ := halves_iff.mpr ⟨htype, hf, h₁'⟩
    obtain ⟨h₅, h₆⟩ := masked_iff.mpr ⟨hs, hc, h₂'⟩
    exact ⟨h₁, h₂, h₃, h₄, h₅, h₆, rfl, rfl, rfl, rfl, rfl, rfl⟩

/-- **What `NewMessageFromBytes` accepts**, and as which message. -/
theorem newMessageFromBytes_eq_ok_iff {d : List UInt8} {m : Message} :
    newMessageFromBytes d = .ok m ↔ Laid d m := by
  rcases d with _ | ⟨b₀, _ | ⟨b₁, _ | ⟨b₂, buf⟩⟩⟩
  · exact iff_of_false (by rintro ⟨⟩) fun h => by obtain ⟨_, _, _, _, h⟩ := h.bytes; cases h
  · exact iff_of_false (by rintro ⟨⟩) fun h => by obtain ⟨_, _, _, _, h⟩ := h.bytes; cases h
  · exact iff_of_false (by rintro ⟨⟩) fun h => by obtain ⟨_, _, _, _, h⟩ := h.bytes; cases h
  have hlaid (h : Laid (b₀ :: b₁ :: b₂ :: buf) m) : m.bare = headerOf b₀ b₁ b₂ ∧
      ∃ (pad : List UInt8) (size : UInt32), pad.length = Message.paddingSize (b₀ &&& 15) ∧
        m.payload.length ≤ size.toNat ∧
        buf = pad ++ (m.codeBytes ++ (m.eventRead ++ (be32 size ++ m.payload))) := by
    obtain ⟨pad, size, hpad, hsize, hd⟩ := h.bytes
    obtain ⟨h₀, h₁, h₂, hbuf⟩ := by simpa only [List.cons_append, List.cons.injEq] using hd
    have hbare := (bare_eq_iff h.callsFor.msgType_lt).mpr ⟨h.fourBit, h.serialization, h₀, h₁, h₂⟩
    have hheader : m.headerSize = b₀ &&& 15 := congrArg Message.headerSize hbare
    exact ⟨hbare, pad, size, hheader ▸ hpad, hsize, hbuf⟩
  show (if buf.length < Message.paddingSize (b₀ &&& 15) then .error _
    else (headerOf b₀ b₁ b₂).readers >>= fun readers =>
      readAll readers (headerOf b₀ b₁ b₂, buf.drop (Message.paddingSize (b₀ &&& 15))) >>=
        fun p => if p.2 = [] then pure p.1 else .error _) = .ok m ↔ _
  split
  · rename_i hlt
    refine iff_of_false nofun fun h => ?_
    obtain ⟨-, pad, size, hpad, -, rfl⟩ := hlaid h
    rw [List.length_append] at hlt
    omega
  · rename_i hge
    rw [bind_eq_ok]
    constructor
    · rintro ⟨readers, hreaders, h⟩
      obtain ⟨htype, rfl⟩ := Message.readers_eq_ok.mp hreaders
      obtain ⟨⟨m', rest⟩, hread, hrest⟩ := bind_eq_ok.mp h
      obtain ⟨rfl, rfl⟩ : rest = [] ∧ m' = m := by
        dsimp only at hrest
        split at hrest
        · rename_i hnil
          cases hrest
          exact ⟨hnil, rfl⟩
        · cases hrest
      obtain ⟨hbare, hcalls, hs, hc, size, hsize, hbuf⟩ :=
        (Message.readAll_readers rfl htype).mp hread
      have hheader : m'.headerSize = b₀ &&& 15 := congrArg Message.headerSize hbare
      obtain ⟨hfour, hser, h₀, h₁, h₂⟩ := (bare_eq_iff hcalls.msgType_lt).mp hbare
      refine ⟨hcalls, hfour, hser, hs, hc, buf.take (Message.paddingSize (b₀ &&& 15)), size,
        ?_, hsize, ?_⟩
      · rw [hheader, List.length_take, Nat.min_eq_left (Nat.le_of_not_lt hge)]
      · rw [← hbuf, List.take_append_drop, h₀, h₁, h₂]
        rfl
    · intro h
      obtain ⟨hbare, pad, size, hpad, hsize, rfl⟩ := hlaid h
      have htype : (headerOf b₀ b₁ b₂).msgType ∈ sequenceTypes ∨
          (headerOf b₀ b₁ b₂).msgType = msgTypeError := hbare ▸ h.callsFor.msgType
      refine ⟨_, Message.readers_eq_ok.mpr ⟨htype, rfl⟩, bind_eq_ok.mpr ⟨(m, []), ?_, rfl⟩⟩
      rw [← hpad, List.drop_left]
      exact (Message.readAll_readers rfl htype).mpr
        ⟨hbare, h.callsFor, h.sessionID_lt, h.connectID_lt, size, hsize, rfl⟩

end NewApiPool.Volcengine
