import NewApiPool.Volcengine.Layout

/-!
# Frames and the messages they stand for

`Marshal` and `NewMessageFromBytes` do not agree on every frame:

* the high half of the serialization byte is read without the shift, so that it is lost when
  it is not zero;
* the events `ConnectionStarted` and `ConnectionFailed` have a connect id for the reader and
  none for the writer, and `ConnectionFinished` a session id for the writer and a connect id
  for the reader;
* in an error with an event, the writer puts the event first and the reader the code;
* a payload may be shorter than its length says.

`roundTrips_iff` says which messages come back, and `marshal_iff` which frames do.
-/

namespace NewApiPool.Volcengine

open Bytes

/-! ### Where writers and readers agree -/

/-- The events that have no identifier. -/
def eventsWithoutID : List UInt32 := [eventTypeStartConnection, eventTypeFinishConnection]

/-- The events that have a connect id for the reader, and nothing for the writer. -/
def eventsWithUnwrittenID : List UInt32 := [eventTypeConnectionStarted, eventTypeConnectionFailed]

/-- **The writers and the readers agree** about the fields between the header and the payload.
Without an event they do. With an event, the reader has no connect id to read where there is
none, and an error is one whose code is the event and whose session id, if there is one, can be
read from the four bytes in front of it on. -/
def FieldsAgree (msgType flag : UInt8) (code event : UInt32) (id : List UInt8) : Prop :=
  flag = msgTypeFlagWithEvent →
    if msgType = msgTypeError then
      code = event ∧ (event ∈ eventsWithoutID ∨
        event ∉ noSessionRead ∧ id.length = event.toNat ∧ id ++ be32 event = be32 event ++ id)
    else event ∉ eventsWithUnwrittenID ∧ (event = eventTypeConnectionFinished → id = [])

instance decidableFieldsAgree (msgType flag : UInt8) (code event : UInt32) (id : List UInt8) :
    Decidable (FieldsAgree msgType flag code event id) :=
  inferInstanceAs (Decidable (flag = msgTypeFlagWithEvent → ite _ _ _))

theorem mem_noSessionWritten {event : UInt32} :
    event ∈ noSessionWritten ↔ event ∈ eventsWithoutID ∨ event ∈ eventsWithUnwrittenID :=
  List.mem_append (s := eventsWithoutID)

theorem mem_connectRead {event : UInt32} :
    event ∈ connectRead ↔
      event ∈ eventsWithUnwrittenID ∨ event = eventTypeConnectionFinished := by
  rw [← List.mem_singleton]
  exact List.mem_append (s := eventsWithUnwrittenID)

theorem mem_noSessionRead {event : UInt32} :
    event ∈ noSessionRead ↔ event ∈ eventsWithoutID ∨ event ∈ connectRead :=
  List.mem_append (s := eventsWithoutID)

theorem not_mem_of_withoutID {event : UInt32} (h : event ∈ eventsWithoutID) :
    event ∉ connectRead := by
  have hall : eventsWithoutID.Forall (· ∉ connectRead) := by decide
  exact List.forall_iff_forall_mem.mp hall event h

/-- An event and its identifier: neither side has one, only the reader has one, they have one
each, or they have the same. -/
theorem id_cases (event : UInt32) (session connect : List UInt8) :
    (event ∈ eventsWithoutID ∧ idWritten event session = [] ∧
        idsRead event session connect = []) ∨
      (event ∈ eventsWithUnwrittenID ∧ idWritten event session = [] ∧
        idsRead event session connect = sized connect) ∨
      (event = eventTypeConnectionFinished ∧ idWritten event session = sized session ∧
        idsRead event session connect = sized connect) ∨
      (event ∉ noSessionRead ∧ idWritten event session = sized session ∧
        idsRead event session connect = sized session) := by
  rw [idWritten, idsRead]
  by_cases hread : event ∈ noSessionRead
  · rw [if_pos hread]
    rcases mem_noSessionRead.mp hread with h | h
    · rw [if_pos (mem_noSessionWritten.mpr (Or.inl h)), if_neg (not_mem_of_withoutID h)]
      exact Or.inl ⟨h, rfl, rfl⟩
    · rw [if_pos h]
      rcases mem_connectRead.mp h with h | h
      · rw [if_pos (mem_noSessionWritten.mpr (Or.inr h))]
        exact Or.inr (Or.inl ⟨h, rfl, rfl⟩)
      · rw [if_neg (by rw [h]; decide)]
        exact Or.inr (Or.inr (Or.inl ⟨h, rfl, rfl⟩))
  · have hwritten : event ∉ noSessionWritten := fun h =>
      hread (mem_noSessionRead.mpr ((mem_noSessionWritten.mp h).imp_right fun h' =>
        mem_connectRead.mpr (Or.inl h')))
    have hconnect : event ∉ connectRead := fun h => hread (mem_noSessionRead.mpr (Or.inr h))
    rw [if_neg hread, if_neg hwritten, if_neg hconnect, List.append_nil]
    exact Or.inr (Or.inr (Or.inr ⟨hread, rfl, rfl⟩))

section Agree

variable {event code : UInt32} {session connect : List UInt8}

theorem not_mem_of_not_connectRead (h : event ∉ connectRead) :
    event ∉ eventsWithUnwrittenID ∧ event ≠ eventTypeConnectionFinished :=
  ⟨fun h' => h (mem_connectRead.mpr (Or.inl h')), fun h' => h (mem_connectRead.mpr (Or.inr h'))⟩

/-- Without a code, the two sides agree when their identifiers do. -/
theorem ids_agree_iff (hsession : event ∈ noSessionRead → session = []) :
    idWritten event session = idsRead event session connect ↔
      event ∉ eventsWithUnwrittenID ∧
        (event = eventTypeConnectionFinished → session ++ connect = []) := by
  rcases id_cases event session connect with ⟨h, hw, hr⟩ | ⟨h, hw, hr⟩ | ⟨h, hw, hr⟩ | ⟨h, hw, hr⟩
  · obtain ⟨hunwritten, hfinished⟩ := not_mem_of_not_connectRead (not_mem_of_withoutID h)
    rw [hw, hr]
    exact iff_of_true rfl ⟨hunwritten, fun h' => absurd h' hfinished⟩
  · rw [hw, hr]
    exact iff_of_false (fun h' => by cases h') fun h' => h'.1 h
  · rw [hw, hr, sized_inj, hsession (by rw [h]; decide), List.nil_append, h]
    constructor
    · exact fun h' => ⟨by decide, fun _ => h'.symm⟩
    · exact fun h' => (h'.2 rfl).symm
  · obtain ⟨hunwritten, hfinished⟩ := not_mem_of_not_connectRead fun h' =>
      h (mem_noSessionRead.mpr (Or.inr h'))
    rw [hw, hr]
    exact iff_of_true rfl ⟨hunwritten, fun h' => absurd h' hfinished⟩

/-- With a code behind the event for the writer, and in front of it for the reader. -/
theorem code_agrees_iff (hsession : event ∈ noSessionRead → session = [])
    (hconnect : event ∉ connectRead → connect = []) (hlen : session.length < 2 ^ 32) :
    be32 event ++ idWritten event session ++ be32 code =
        be32 code ++ (be32 event ++ idsRead event session connect) ↔
      code = event ∧ (event ∈ eventsWithoutID ∨
        event ∉ noSessionRead ∧ (session ++ connect).length = event.toNat ∧
          session ++ connect ++ be32 event = be32 event ++ (session ++ connect)) := by
  rw [List.append_assoc, be32_append_inj, eq_comm, and_congr_right_iff]
  rintro rfl
  rcases id_cases code session connect with ⟨h, hw, hr⟩ | ⟨h, hw, hr⟩ | ⟨h, hw, hr⟩ | ⟨h, hw, hr⟩
  · rw [hw, hr, List.append_nil, List.nil_append]
    exact iff_of_true rfl (Or.inl h)
  · have hc := mem_connectRead.mpr (Or.inl h)
    rw [hw, hr]
    refine iff_of_false (fun h' => ?_) fun h' => h'.elim (fun h' => not_mem_of_withoutID h' hc)
      fun h' => h'.1 (mem_noSessionRead.mpr (Or.inr hc))
    have hlen := congrArg List.length h'
    rw [List.nil_append, List.length_append, length_be32, length_sized] at hlen
    omega
  · rw [hw, hr, hsession (by rw [h]; decide), h]
    refine iff_of_false (fun h' => ?_) fun h' => h'.elim (by decide) fun h' => h'.1 (by decide)
    exact absurd (be32_append_inj.mp (List.append_assoc .. ▸ h')).1 (by decide)
  · have hc : code ∉ connectRead := fun h' => h (mem_noSessionRead.mpr (Or.inr h'))
    have hwithout : code ∉ eventsWithoutID := fun h' => h (mem_noSessionRead.mpr (Or.inl h'))
    rw [hw, hr, hconnect hc, List.append_nil, or_iff_right hwithout, and_iff_right h, sized,
      List.append_assoc, be32_append_inj, ← UInt32.toNat_inj, toNat_length hlen,
      and_congr_right_iff]
    intro heq
    rw [heq, UInt32.ofNat_toNat]

end Agree

variable {m : Message}

/-- **When what is written behind the header is what is read**. -/
theorem fields_agree_iff (h : m.CallsFor noSessionRead) (hlen : m.sessionID.length < 2 ^ 32) :
    m.eventWritten ++ m.codeBytes = m.codeBytes ++ m.eventRead ↔
      FieldsAgree m.msgType m.msgTypeFlag m.errorCode m.eventType (m.sessionID ++ m.connectID) := by
  rw [Message.eventWritten, Message.eventRead, FieldsAgree]
  by_cases hflag : m.msgTypeFlag = msgTypeFlagWithEvent
  · have hsession (he : m.eventType ∈ noSessionRead) : m.sessionID = [] :=
      h.sessionID fun h' => h'.2 he
    have hconnect (he : m.eventType ∉ connectRead) : m.connectID = [] :=
      h.connectID fun h' => he h'.2
    rw [if_pos hflag, if_pos hflag, forall_prop_of_true hflag, Message.codeBytes]
    by_cases herror : m.msgType = msgTypeError
    · rw [if_pos herror, if_pos herror]
      exact code_agrees_iff hsession hconnect hlen
    · rw [if_neg herror, if_neg herror, if_neg (by rw [hflag]; decide), List.append_nil,
        List.nil_append, List.append_right_inj]
      exact ids_agree_iff hsession
  · rw [if_neg hflag, if_neg hflag, List.nil_append, List.append_nil]
    exact iff_of_true rfl fun h' => absurd h' hflag

variable {size : UInt32}

/-- The fields and the payload, behind the same header. -/
theorem behind_header_iff (h : m.CallsFor noSessionRead)
    (hlen : m.sessionID.length < 2 ^ 32) (hp : m.payload.length < 2 ^ 32) :
    m.eventWritten ++ m.codeBytes ++ sized m.payload =
        m.codeBytes ++ (m.eventRead ++ (be32 size ++ m.payload)) ↔
      FieldsAgree m.msgType m.msgTypeFlag m.errorCode m.eventType
          (m.sessionID ++ m.connectID) ∧ size.toNat = m.payload.length := by
  rw [← fields_agree_iff h hlen, ← List.append_assoc m.codeBytes, sized]
  constructor
  · intro heq
    obtain ⟨hfields, hsize⟩ := List.append_inj' heq (by
      rw [List.length_append, List.length_append, length_be32, length_be32])
    have hword := (be32_append_inj.mp hsize).1
    exact ⟨hfields, by rw [← hword, toNat_length hp]⟩
  · rintro ⟨hfields, hsize⟩
    rw [hfields, ← hsize, UInt32.ofNat_toNat]

namespace Message

variable {m : Message}

/-- **A message that the round trip is about**: four-bit numbers in the header, and the fields
that are called for. -/
structure WellFormed (m : Message) : Prop where
  callsFor : m.CallsFor noSessionWritten
  fourBit : m.FourBit
  serialization_lt : m.serialization < 16

/-- `NewMessageFromBytes` returns `m` from what `Marshal` makes of it. -/
def RoundTrips (m : Message) : Prop := ∃ d, m.marshal = .ok d ∧ newMessageFromBytes d = .ok m

theorem WellFormed.callsFor_read (hm : m.WellFormed)
    (hagree : FieldsAgree m.msgType m.msgTypeFlag m.errorCode m.eventType
      (m.sessionID ++ m.connectID)) : m.CallsFor noSessionRead := by
  refine { hm.callsFor with sessionID := fun h => ?_ }
  by_cases hflag : m.msgTypeFlag = msgTypeFlagWithEvent
  · have hread : m.eventType ∈ noSessionRead := by
      by_contra hne
      exact h ⟨hflag, hne⟩
    by_cases hwritten : m.eventType ∈ noSessionWritten
    · exact hm.callsFor.sessionID fun h' => h'.2 hwritten
    -- only the last event has a session id for the writer and none for the reader
    have hfinished : m.eventType = eventTypeConnectionFinished := by
      rcases mem_noSessionRead.mp hread with h' | h'
      · exact absurd (mem_noSessionWritten.mpr (Or.inl h')) hwritten
      · exact (mem_connectRead.mp h').resolve_left fun h' =>
          hwritten (mem_noSessionWritten.mpr (Or.inr h'))
    have hall := hagree hflag
    split at hall
    · rcases hall.2 with h' | h'
      · exact absurd (mem_noSessionWritten.mpr (Or.inl h')) hwritten
      · exact absurd hread h'.1
    · exact (List.append_eq_nil_iff.mp (hall.2 hfinished)).1
  · exact hm.callsFor.sessionID fun h' => hflag h'.1

theorem connectID_eq_nil (h : m.CallsFor noSessionRead)
    (hagree : FieldsAgree m.msgType m.msgTypeFlag m.errorCode m.eventType
      (m.sessionID ++ m.connectID)) : m.connectID = [] := by
  by_contra hne
  obtain ⟨hflag, hread⟩ := not_not.mp fun h' => hne (h.connectID h')
  have hall := hagree hflag
  split at hall
  · rcases hall.2 with h' | h'
    · exact not_mem_of_withoutID h' hread
    · exact h'.1 (mem_noSessionRead.mpr (Or.inr hread))
  · have hfinished := (mem_connectRead.mp hread).resolve_left hall.1
    exact hne (List.append_eq_nil_iff.mp (hall.2 hfinished)).2

theorem sessionID_lt (h : m.CallsFor noSessionRead) (hfits : m.Fits) :
    m.sessionID.length < 2 ^ 32 := by
  by_cases hread : m.msgTypeFlag = msgTypeFlagWithEvent ∧ m.eventType ∉ noSessionRead
  · refine hfits.sessionID hread.1 fun hwritten => hread.2 (mem_noSessionRead.mpr ?_)
    exact (mem_noSessionWritten.mp hwritten).imp_right fun h' => mem_connectRead.mpr (Or.inl h')
  · rw [h.sessionID hread]
    decide

/-- **When a message comes back** from its bytes as it was: exactly if its serialization is 0, its
sizes fit, and it has the fields that its header calls for, and no others. -/
theorem WellFormed.roundTrips_iff (hm : m.WellFormed) : m.RoundTrips ↔
    m.serialization = 0 ∧ m.Fits ∧ FieldsAgree m.msgType m.msgTypeFlag m.errorCode m.eventType
      (m.sessionID ++ m.connectID) := by
  constructor
  · rintro ⟨d, hd, hread⟩
    obtain ⟨hfits, rfl⟩ := (marshal_eq_ok hm.callsFor.msgType).mp hd
    have h := newMessageFromBytes_eq_ok_iff.mp hread
    obtain ⟨pad, size, hpad, -, hbytes⟩ := h.bytes
    rw [header, List.append_assoc] at hbytes
    have hbehind := (List.append_inj hbytes rfl).2
    have hfields := (List.append_inj hbehind (by rw [List.length_replicate, hpad])).2
    refine ⟨?_, hfits, ((behind_header_iff h.callsFor h.sessionID_lt hfits.payload).mp hfields).1⟩
    exact eq_zero_of_low hm.serialization_lt h.serialization
  · rintro ⟨hser, hfits, hagree⟩
    have hcalls := hm.callsFor_read hagree
    have hsession := sessionID_lt hcalls hfits
    refine ⟨_, (marshal_eq_ok hm.callsFor.msgType).mpr ⟨hfits, rfl⟩,
      newMessageFromBytes_eq_ok_iff.mpr
        { callsFor := hcalls
          fourBit := hm.fourBit
          serialization := by rw [hser]; rfl
          sessionID_lt := hsession
          connectID_lt := by rw [connectID_eq_nil hcalls hagree]; decide
          bytes := ⟨List.replicate (paddingSize m.headerSize) 0, UInt32.ofNat m.payload.length,
            List.length_replicate, Nat.le_of_eq (toNat_length hfits.payload).symm, ?_⟩ }⟩
    rw [header, (behind_header_iff hcalls hsession hfits.payload).mpr
      ⟨hagree, toNat_length hfits.payload⟩, hser, List.append_assoc]
    rfl

end Message

/-! ### Places in a frame -/

/-- The word at place `i`, and zero behind the end. -/
def wordAt (d : List UInt8) (i : ℕ) : UInt32 :=
  match readWord (d.drop i) with
  | .ok (w, _) => w
  | .error _ => 0

variable {d : List UInt8}

theorem wordAt_append {xs ys : List UInt8} {w : UInt32} {i : ℕ} (h : d = xs ++ (be32 w ++ ys))
    (hi : i = xs.length) : wordAt d i = w := by
  rw [wordAt, h, hi, List.drop_left, readWord_be32]

namespace Frame

variable (d : List UInt8)

def msgType : UInt8 := d.getD 1 0 >>> 4

def msgTypeFlag : UInt8 := d.getD 1 0 &&& 15

/-- The place behind the header. -/
def codeAt : ℕ := 3 + Message.paddingSize (d.getD 0 0 &&& 15)

/-- What stands where an error has its code. -/
def code : UInt32 := wordAt d (codeAt d)

def eventAt : ℕ :=
  codeAt d + if msgType d = msgTypeError ∨ msgTypeFlag d = msgTypeFlagPositiveSeq ∨
    msgTypeFlag d = msgTypeFlagNegativeSeq then 4 else 0

def event : UInt32 := wordAt d (eventAt d)

/-- The declared length of the identifier that is read behind the event. -/
def idSize : ℕ := (wordAt d (eventAt d + 4)).toNat

def id : List UInt8 :=
  if event d ∈ eventsWithoutID then [] else (d.drop (eventAt d + 8)).take (idSize d)

def payloadAt : ℕ :=
  if msgTypeFlag d = msgTypeFlagWithEvent then
    eventAt d + 4 + if event d ∈ eventsWithoutID then 0 else 4 + idSize d
  else eventAt d

/-- The declared length of the payload. -/
def payloadSize : ℕ := (wordAt d (payloadAt d)).toNat

/-- The padding of the header is zero. -/
def ZeroPadding : Prop := ∀ b ∈ (d.drop 3).take (Message.paddingSize (d.getD 0 0 &&& 15)), b = 0

instance decidableZeroPadding : Decidable (ZeroPadding d) :=
  List.decidableBAll (· = 0) _

end Frame

theorem idsRead_eq {event : UInt32} {session connect : List UInt8}
    (hsession : event ∈ noSessionRead → session = [])
    (hconnect : event ∉ connectRead → connect = []) :
    idsRead event session connect =
      if event ∈ eventsWithoutID then [] else sized (session ++ connect) := by
  rw [idsRead]
  by_cases hwithout : event ∈ eventsWithoutID
  · rw [if_pos hwithout, if_pos (mem_noSessionRead.mpr (Or.inl hwithout)),
      if_neg (not_mem_of_withoutID hwithout)]
    rfl
  · rw [if_neg hwithout]
    by_cases hread : event ∈ connectRead
    · have hno := mem_noSessionRead.mpr (Or.inr hread)
      rw [if_pos hno, if_pos hread, hsession hno]
      rfl
    · rw [if_neg fun h => (mem_noSessionRead.mp h).elim hwithout hread, if_neg hread,
        hconnect hread, List.append_nil, List.append_nil]

/-- **What stands where** in a frame that is read as `m`, with a payload of declared length
`size`. -/
structure Places (d : List UInt8) (m : Message) (size : UInt32) : Prop where
  msgType : Frame.msgType d = m.msgType
  msgTypeFlag : Frame.msgTypeFlag d = m.msgTypeFlag
  code : m.msgType = msgTypeError → Frame.code d = m.errorCode
  event : m.msgTypeFlag = msgTypeFlagWithEvent → Frame.event d = m.eventType
  id : m.msgTypeFlag = msgTypeFlagWithEvent → Frame.id d = m.sessionID ++ m.connectID
  payloadSize : Frame.payloadSize d = size.toNat
  length : d.length = Frame.payloadAt d + 4 + m.payload.length

theorem length_codeBytes (m : Message) : m.codeBytes.length =
    if m.msgType = msgTypeError ∨ m.msgTypeFlag = msgTypeFlagPositiveSeq ∨
      m.msgTypeFlag = msgTypeFlagNegativeSeq then 4 else 0 := by
  rw [Message.codeBytes]
  split
  · rename_i h
    rw [if_pos (Or.inl h), length_be32]
  · rename_i h
    split
    · rename_i hflag
      rw [if_pos (Or.inr hflag), length_be32]
    · rename_i hflag
      rw [if_neg fun h' => h'.elim h hflag]
      rfl

theorem payload_places {xs payload : List UInt8}
    (h : d = xs ++ (be32 size ++ payload)) (hat : Frame.payloadAt d = xs.length) :
    Frame.payloadSize d = size.toNat ∧ d.length = Frame.payloadAt d + 4 + payload.length := by
  constructor
  · rw [Frame.payloadSize, wordAt_append h hat]
  · rw [hat, h, List.length_append, List.length_append, length_be32, Nat.add_assoc]

theorem Laid.ids_lt (h : Laid d m) :
    (m.sessionID ++ m.connectID).length < 2 ^ 32 := by
  by_cases hread : m.eventType ∈ noSessionRead
  · rw [h.callsFor.sessionID fun h' => h'.2 hread]
    exact h.connectID_lt
  · rw [h.callsFor.connectID fun h' => hread (mem_noSessionRead.mpr (Or.inr h'.2)), List.append_nil]
    exact h.sessionID_lt

/-- The event and its identifier, once their place is known. -/
theorem event_places {xs ids tail : List UInt8} {event : UInt32}
    (h : d = xs ++ (be32 event ++ ((if event ∈ eventsWithoutID then [] else sized ids) ++ tail)))
    (hat : Frame.eventAt d = xs.length) (hlen : ids.length < 2 ^ 32)
    (hnone : event ∈ eventsWithoutID → ids = []) :
    Frame.event d = event ∧ Frame.id d = ids ∧ ∃ ys, d = ys ++ tail ∧
      (Frame.eventAt d + 4 + if Frame.event d ∈ eventsWithoutID then 0 else 4 + Frame.idSize d) =
        ys.length := by
  have hevent : Frame.event d = event := wordAt_append h hat
  have hid : Frame.eventAt d + 4 = (xs ++ be32 event).length := by
    rw [List.length_append, hat, length_be32]
  rw [Frame.id, hevent]
  by_cases hwithout : event ∈ eventsWithoutID
  · rw [if_pos hwithout, if_pos hwithout, hnone hwithout]
    rw [if_pos hwithout, List.nil_append, ← List.append_assoc] at h
    exact ⟨rfl, rfl, xs ++ be32 event, h, hid⟩
  · rw [if_neg hwithout, sized, List.append_assoc, ← List.append_assoc] at h
    have hsize : Frame.idSize d = ids.length := by
      rw [Frame.idSize, wordAt_append h hid, toNat_length hlen]
    rw [← List.append_assoc] at h
    have hplace : Frame.eventAt d + 8 =
        (xs ++ be32 event ++ be32 (UInt32.ofNat ids.length)).length := by
      rw [List.length_append, ← hid, length_be32]
    rw [if_neg hwithout, if_neg hwithout, hsize, hplace]
    refine ⟨rfl, ?_, xs ++ be32 event ++ be32 (UInt32.ofNat ids.length) ++ ids, ?_, ?_⟩
    · conv_lhs => rw [h]
      rw [List.drop_left, List.take_left]
    · rw [h, List.append_assoc _ ids]
    · rw [List.length_append, ← hplace]
      omega

theorem Laid.header_places (h : Laid d m)
    {pad behind : List UInt8} (hpad : pad.length = Message.paddingSize m.headerSize)
    (hd : d = [m.version <<< 4 ||| m.headerSize, m.msgType <<< 4 ||| m.msgTypeFlag,
      m.serialization ||| m.compression] ++ (pad ++ behind)) :
    Frame.msgType d = m.msgType ∧ Frame.msgTypeFlag d = m.msgTypeFlag ∧
      d.getD 0 0 &&& 15 = m.headerSize ∧
      ∃ header, d = header ++ behind ∧ Frame.codeAt d = header.length := by
  obtain ⟨-, hhead⟩ := halves_iff.mpr ⟨h.fourBit.version_lt, h.fourBit.headerSize_lt, rfl⟩
  obtain ⟨htype, hflag⟩ := halves_iff.mpr ⟨h.callsFor.msgType_lt, h.fourBit.msgTypeFlag_lt, rfl⟩
  have hsize : d.getD 0 0 &&& 15 = m.headerSize := by rw [hd]; exact hhead.symm
  refine ⟨?_, ?_, hsize, _, (List.append_assoc ..).symm ▸ hd, ?_⟩
  · rw [Frame.msgType, hd]
    exact htype.symm
  · rw [Frame.msgTypeFlag, hd]
    exact hflag.symm
  · rw [Frame.codeAt, hsize, ← hpad, List.length_append]
    rfl

theorem Laid.places (h : Laid d m) {pad : List UInt8}
    (hpad : pad.length = Message.paddingSize m.headerSize)
    (hd : d = [m.version <<< 4 ||| m.headerSize, m.msgType <<< 4 ||| m.msgTypeFlag,
      m.serialization ||| m.compression] ++ (pad ++ (m.codeBytes ++ (m.eventRead ++
        (be32 size ++ m.payload))))) : Places d m size := by
  obtain ⟨htype, hflag, -, header, hd', hcodeAt⟩ := h.header_places hpad hd
  have heventAt : Frame.eventAt d = (header ++ m.codeBytes).length := by
    rw [Frame.eventAt, hcodeAt, htype, hflag, List.length_append, length_codeBytes]
  have hcode (herror : m.msgType = msgTypeError) : Frame.code d = m.errorCode := by
    have hbytes :
        d = header ++ (be32 m.errorCode ++ (m.eventRead ++ (be32 size ++ m.payload))) := by
      rw [hd', Message.codeBytes, if_pos herror]
    exact wordAt_append hbytes hcodeAt
  rw [← List.append_assoc] at hd'
  by_cases hev : m.msgTypeFlag = msgTypeFlagWithEvent
  · have hread : m.eventRead = be32 m.eventType ++ if m.eventType ∈ eventsWithoutID then [] else
        sized (m.sessionID ++ m.connectID) := by
      rw [Message.eventRead, if_pos hev,
        idsRead_eq (fun he => h.callsFor.sessionID fun h' => h'.2 he)
        fun he => h.callsFor.connectID fun h' => he h'.2]
    have hnone (hwithout : m.eventType ∈ eventsWithoutID) : m.sessionID ++ m.connectID = [] := by
      rw [h.callsFor.sessionID fun h' => h'.2 (mem_noSessionRead.mpr (Or.inl hwithout)),
        h.callsFor.connectID fun h' => not_mem_of_withoutID hwithout h'.2, List.append_nil]
    rw [hread, List.append_assoc (be32 m.eventType)] at hd'
    obtain ⟨hevent, hid, ys, hys, hpay⟩ := event_places hd' heventAt h.ids_lt hnone
    obtain ⟨hsize, hlength⟩ := payload_places hys (by rw [Frame.payloadAt, hflag, if_pos hev, hpay])
    exact ⟨htype, hflag, hcode, fun _ => hevent, fun _ => hid, hsize, hlength⟩
  · have hread : m.eventRead = [] := by rw [Message.eventRead, if_neg hev]
    rw [hread, List.nil_append] at hd'
    obtain ⟨hsize, hlength⟩ := payload_places hd' (by
      rw [Frame.payloadAt, hflag, if_neg hev, heventAt])
    exact ⟨htype, hflag, hcode, fun h' => absurd h' hev, fun h' => absurd h' hev, hsize, hlength⟩

/-! ### The round trips -/

theorem Laid.pad_eq (h : Laid d m) (hzero : Frame.ZeroPadding d)
    {pad behind : List UInt8} (hpad : pad.length = Message.paddingSize m.headerSize)
    (hd : d = [m.version <<< 4 ||| m.headerSize, m.msgType <<< 4 ||| m.msgTypeFlag,
      m.serialization ||| m.compression] ++ (pad ++ behind)) :
    pad = List.replicate (Message.paddingSize m.headerSize) 0 := by
  obtain ⟨-, -, hsize, -⟩ := h.header_places hpad hd
  refine List.eq_replicate_iff.mpr ⟨hpad, fun b hb => hzero b ?_⟩
  rw [hsize, ← hpad, hd]
  show b ∈ (pad ++ behind).take pad.length
  rwa [List.take_left]

/-- **When a frame comes back**: it is accepted as `m`, and `Marshal` makes the same bytes of
`m` if the serialization is zero, the fields agree, and the payload is as long as it says. -/
theorem marshal_iff (hread : newMessageFromBytes d = .ok m) (hzero : Frame.ZeroPadding d) :
    m.marshal = .ok d ↔ d.getD 2 0 >>> 4 = 0 ∧
      FieldsAgree (Frame.msgType d) (Frame.msgTypeFlag d) (Frame.code d) (Frame.event d)
        (Frame.id d) ∧ Frame.payloadAt d + 4 + Frame.payloadSize d = d.length := by
  have h := newMessageFromBytes_eq_ok_iff.mp hread
  obtain ⟨pad, size, hpad, hsize, hd⟩ := h.bytes
  have hplaces := h.places hpad hd
  have hagree : FieldsAgree (Frame.msgType d) (Frame.msgTypeFlag d) (Frame.code d) (Frame.event d)
      (Frame.id d) ↔ FieldsAgree m.msgType m.msgTypeFlag m.errorCode m.eventType
        (m.sessionID ++ m.connectID) := by
    rw [hplaces.msgType, hplaces.msgTypeFlag, FieldsAgree, FieldsAgree]
    refine forall_congr' fun hflag => ?_
    rw [hplaces.event hflag, hplaces.id hflag]
    by_cases herror : m.msgType = msgTypeError
    · rw [hplaces.code herror]
    · rw [if_neg herror, if_neg herror]
  have hser : d.getD 2 0 >>> 4 = 0 ↔ m.serialization = 0 := by
    obtain ⟨hmask, -⟩ := masked_iff.mpr ⟨h.serialization, h.fourBit.compression_lt, rfl⟩
    rw [hmask, hd]
    exact high_eq_zero_iff _
  have hlength : Frame.payloadAt d + 4 + Frame.payloadSize d = d.length ↔
      size.toNat = m.payload.length := by
    rw [hplaces.length, hplaces.payloadSize]
    omega
  have hp : m.payload.length < 2 ^ 32 := Nat.lt_of_le_of_lt hsize size.toNat_lt
  rw [hagree, hser, hlength, ← behind_header_iff h.callsFor h.sessionID_lt hp,
    Message.marshal_eq_ok h.callsFor.msgType, and_iff_right ⟨fun _ _ => h.sessionID_lt, hp⟩,
    Message.header, ← h.pad_eq hzero hpad hd]
  conv_lhs => rw [hd, List.append_assoc]
  constructor
  · intro heq
    obtain ⟨hheader, hbehind⟩ := List.append_inj heq rfl
    have hbyte : m.serialization ||| m.compression = m.serialization <<< 4 ||| m.compression :=
      (List.cons.inj (List.cons.inj (List.cons.inj hheader).2).2).1
    exact ⟨(shifted_iff h.serialization h.fourBit.compression_lt).mp hbyte.symm,
      (List.append_cancel_left hbehind).symm⟩
  · rintro ⟨hzero', hfields⟩
    rw [hfields, (shifted_iff h.serialization h.fourBit.compression_lt).mpr hzero']

/-- **The two round trips**: the first is that of a message, the second that of a frame. A
frame is refused when an identifier is shorter than it says. -/
theorem frames_iff {m : Message} (hm : m.WellFormed) {d : List UInt8} {m' : Message}
    (hread : newMessageFromBytes d = .ok m') (hzero : Frame.ZeroPadding d) :
    (m.RoundTrips ↔ m.serialization = 0 ∧ m.Fits ∧
      FieldsAgree m.msgType m.msgTypeFlag m.errorCode m.eventType (m.sessionID ++ m.connectID)) ∧
    (m'.marshal = .ok d ↔ d.getD 2 0 >>> 4 = 0 ∧
      FieldsAgree (Frame.msgType d) (Frame.msgTypeFlag d) (Frame.code d) (Frame.event d)
        (Frame.id d) ∧ Frame.payloadAt d + 4 + Frame.payloadSize d = d.length) ∧
    ∀ d' : List UInt8, d'.length < Frame.payloadAt d' + 4 →
      ∀ m, newMessageFromBytes d' ≠ .ok m := by
  refine ⟨hm.roundTrips_iff, marshal_iff hread hzero, fun d' hshort m hm => ?_⟩
  have h := newMessageFromBytes_eq_ok_iff.mp hm
  obtain ⟨pad, size, hpad, -, hd⟩ := h.bytes
  have hlength := (h.places hpad hd).length
  omega

/-- The start of a session. -/
def startSession : Message :=
  { newMessage msgTypeFullClientRequest msgTypeFlagWithEvent with
    serialization := 0
    eventType := 100
    sessionID := [115, 49]
    payload := [123, 125] }

theorem startSession_wellFormed : startSession.WellFormed where
  callsFor := ⟨by decide, by decide, by decide, by decide, by decide, by decide⟩
  fourBit := ⟨by decide, by decide, by decide, by decide⟩
  serialization_lt := by decide

/-- The start of a session, and the frame of it. -/
theorem frames_startSession : startSession.RoundTrips ∧ startSession.marshal =
    .ok [17, 20, 0, 0, 0, 0, 0, 100, 0, 0, 0, 2, 115, 49, 0, 0, 0, 2, 123, 125] := by
  have hread : newMessageFromBytes
      [17, 20, 0, 0, 0, 0, 0, 100, 0, 0, 0, 2, 115, 49, 0, 0, 0, 2, 123, 125] =
        .ok startSession := by
    decide
  have h := frames_iff startSession_wellFormed hread (by decide)
  exact ⟨h.1.mpr ⟨rfl, ⟨by decide, by decide⟩, by decide⟩, h.2.1.mpr (by decide)⟩

/-- A request with a JSON payload does not come back, and a payload that is cut off is
accepted. -/
theorem not_frames_json :
    ((newMessage msgTypeFullClientRequest 0).WellFormed ∧
      ¬(newMessage msgTypeFullClientRequest 0).RoundTrips) ∧
    newMessageFromBytes [17, 16, 0, 0, 0, 0, 0, 5, 65] =
        .ok { newMessage msgTypeFullClientRequest 0 with serialization := 0, payload := [65] } ∧
      ¬({ newMessage msgTypeFullClientRequest 0 with serialization := 0, payload := [65] } :
        Message).marshal = .ok [17, 16, 0, 0, 0, 0, 0, 5, 65] := by
  have hwell : (newMessage msgTypeFullClientRequest 0).WellFormed :=
    ⟨⟨by decide, by decide, by decide, by decide, by decide, by decide⟩,
      ⟨by decide, by decide, by decide, by decide⟩, by decide⟩
  exact ⟨⟨hwell, fun h => absurd (hwell.roundTrips_iff.mp h).1 (by decide)⟩, by decide, by decide⟩

end NewApiPool.Volcengine
