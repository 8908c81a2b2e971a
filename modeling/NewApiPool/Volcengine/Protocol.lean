import NewApiPool.Lib.Bytes

/-!
# Volcengine frames

The binary frames of the Volcengine speech channel. A frame is a header of four-bit numbers,
then the fields that the type and the flag of the message call for, then the payload behind
its length. `Marshal` runs a list of writers over a buffer and `Unmarshal` a list of readers;
both lists are chosen by the type and the flag, and the identifiers among the fields by the
event.

A buffer is a list of bytes: a writer appends to it and a reader takes bytes from its front.
An `int32` is written and read by its 32 bits, and is a `UInt32` here.
-/

namespace NewApiPool.Volcengine

open Bytes

/-! ### Messages -/

def msgTypeFlagPositiveSeq : UInt8 := 0b1

def msgTypeFlagNegativeSeq : UInt8 := 0b11

def msgTypeFlagWithEvent : UInt8 := 0b100

def version1 : UInt8 := 1

def headerSize4 : UInt8 := 1

def serializationJSON : UInt8 := 0b1

def compressionNone : UInt8 := 0

def msgTypeFullClientRequest : UInt8 := 0b1

def msgTypeAudioOnlyClient : UInt8 := 0b10

def msgTypeFullServerResponse : UInt8 := 0b1001

def msgTypeAudioOnlyServer : UInt8 := 0b1011

def msgTypeFrontEndResultServer : UInt8 := 0b1100

def msgTypeError : UInt8 := 0b1111

def eventTypeStartConnection : UInt32 := 1

def eventTypeFinishConnection : UInt32 := 2

def eventTypeConnectionStarted : UInt32 := 50

def eventTypeConnectionFailed : UInt32 := 51

def eventTypeConnectionFinished : UInt32 := 52

def maxUint32 : ℕ := 2 ^ 32 - 1

structure Message where
  version : UInt8
  headerSize : UInt8
  msgType : UInt8
  msgTypeFlag : UInt8
  serialization : UInt8
  compression : UInt8
  eventType : UInt32 := 0
  sessionID : List UInt8 := []
  connectID : List UInt8 := []
  sequence : UInt32 := 0
  errorCode : UInt32 := 0
  payload : List UInt8 := []
deriving DecidableEq, Repr

def newMessage (msgType flag : UInt8) : Message where
  msgType := msgType
  msgTypeFlag := flag
  version := version1
  headerSize := headerSize4
  serialization := serializationJSON
  compression := compressionNone

/-- The types that have a sequence, in the first case of both switches. -/
def sequenceTypes : List UInt8 :=
  [msgTypeFullClientRequest, msgTypeFullServerResponse, msgTypeFrontEndResultServer,
    msgTypeAudioOnlyClient, msgTypeAudioOnlyServer]

/-- The events for which `writeSessionID` writes nothing. -/
def noSessionWritten : List UInt32 :=
  [eventTypeStartConnection, eventTypeFinishConnection, eventTypeConnectionStarted,
    eventTypeConnectionFailed]

/-- The events for which `readSessionID` reads nothing. -/
def noSessionRead : List UInt32 :=
  [eventTypeStartConnection, eventTypeFinishConnection, eventTypeConnectionStarted,
    eventTypeConnectionFailed, eventTypeConnectionFinished]

/-- The events for which `readConnectID` reads. -/
def connectRead : List UInt32 :=
  [eventTypeConnectionStarted, eventTypeConnectionFailed, eventTypeConnectionFinished]

/-! ### Writing -/

/-- What `writers` returns functions of: the buffer, with more at its end. -/
abbrev Writer := List UInt8 → Except String (List UInt8)

/-- The length of `s`, and then `s`. -/
def writeSized (name : String) (s : List UInt8) : Writer := fun buf =>
  if maxUint32 < s.length then
    .error (name ++ " size (" ++ toString s.length ++ ") exceeds max(uint32)")
  else .ok (buf ++ be32 (UInt32.ofNat s.length) ++ s)

namespace Message

variable (m : Message)

def writeEvent : Writer := fun buf => .ok (buf ++ be32 m.eventType)

def writeSessionID : Writer := fun buf =>
  if m.eventType ∈ noSessionWritten then .ok buf else writeSized "session ID" m.sessionID buf

def writeSequence : Writer := fun buf => .ok (buf ++ be32 m.sequence)

def writeErrorCode : Writer := fun buf => .ok (buf ++ be32 m.errorCode)

def writePayload : Writer := writeSized "payload" m.payload

def unsupported {α : Type} : Except String α :=
  .error ("unsupported message type: " ++ toString m.msgType.toNat)

def writers : Except String (List Writer) := do
  let event :=
    if m.msgTypeFlag = msgTypeFlagWithEvent then [m.writeEvent, m.writeSessionID] else []
  let code ←
    if m.msgType ∈ sequenceTypes then
      if m.msgTypeFlag = msgTypeFlagPositiveSeq ∨ m.msgTypeFlag = msgTypeFlagNegativeSeq then
        .ok [m.writeSequence]
      else .ok []
    else if m.msgType = msgTypeError then .ok [m.writeErrorCode]
    else m.unsupported
  return event ++ code ++ [m.writePayload]

/-- How many bytes of padding the header has behind its three bytes. -/
def paddingSize (headerSize : UInt8) : ℕ := 4 * headerSize.toNat - 3

def header : List UInt8 :=
  [m.version <<< 4 ||| m.headerSize, m.msgType <<< 4 ||| m.msgTypeFlag,
    m.serialization <<< 4 ||| m.compression] ++ List.replicate (paddingSize m.headerSize) 0

def marshal : Except String (List UInt8) := do
  let writers ← m.writers
  writers.foldlM (fun buf write => write buf) m.header

end Message

/-! ### Reading -/

/-- What `readers` returns functions of: the message and the bytes that are left. -/
abbrev Reader := Message × List UInt8 → Except String (Message × List UInt8)

/-- A length and, unless it is zero, what `buf.Next` returns: that many bytes, or all that
are left if there are fewer. -/
def readSized (old buf : List UInt8) : Except String (List UInt8 × List UInt8) := do
  let (size, rest) ← readWord buf
  if 0 < size then return (rest.take size.toNat, rest.drop size.toNat)
  else return (old, rest)

def readEvent : Reader := fun (m, buf) => do
  let (event, rest) ← readWord buf
  return ({ m with eventType := event }, rest)

def readSessionID : Reader := fun (m, buf) =>
  if m.eventType ∈ noSessionRead then return (m, buf)
  else do
    let (id, rest) ← readSized m.sessionID buf
    return ({ m with sessionID := id }, rest)

def readConnectID : Reader := fun (m, buf) =>
  if m.eventType ∈ connectRead then do
    let (id, rest) ← readSized m.connectID buf
    return ({ m with connectID := id }, rest)
  else return (m, buf)

def readSequence : Reader := fun (m, buf) => do
  let (n, rest) ← readWord buf
  return ({ m with sequence := n }, rest)

def readErrorCode : Reader := fun (m, buf) => do
  let (code, rest) ← readWord buf
  return ({ m with errorCode := code }, rest)

def readPayload : Reader := fun (m, buf) => do
  let (payload, rest) ← readSized m.payload buf
  return ({ m with payload := payload }, rest)

namespace Message

def readers (m : Message) : Except String (List Reader) := do
  let code ←
    if m.msgType ∈ sequenceTypes then
      if m.msgTypeFlag = msgTypeFlagPositiveSeq ∨ m.msgTypeFlag = msgTypeFlagNegativeSeq then
        .ok [readSequence]
      else .ok []
    else if m.msgType = msgTypeError then .ok [readErrorCode]
    else m.unsupported
  let event :=
    if m.msgTypeFlag = msgTypeFlagWithEvent then [readEvent, readSessionID, readConnectID] else []
  return code ++ event ++ [readPayload]

def unmarshal (m : Message) : List UInt8 → Except String Message
  | versionAndHeaderSize :: _ :: serializationCompression :: buf => do
    let m : Message :=
      { m with
        version := versionAndHeaderSize >>> 4
        headerSize := versionAndHeaderSize &&& 0b00001111
        -- the high half stays where it is
        serialization := serializationCompression &&& 0b11110000
        compression := serializationCompression &&& 0b00001111 }
    let paddingSize := paddingSize m.headerSize
    if buf.length < paddingSize then
      .error ("insufficient header bytes: expected " ++ toString paddingSize ++ ", got " ++
        toString buf.length)
    else
      let readers ← m.readers
      let (m, rest) ← readers.foldlM (fun state read => read state) (m, buf.drop paddingSize)
      if rest = [] then return m else .error "unexpected data after message: <nil>"
  | _ => .error "EOF"

end Message

def newMessageFromBytes (data : List UInt8) : Except String Message :=
  match data with
  | _ :: typeAndFlag :: _ :: _ =>
    (newMessage (typeAndFlag >>> 4) (typeAndFlag &&& 0b00001111)).unmarshal data
  | _ =>
    .error ("data too short: expected at least 3 bytes, got " ++ toString data.length)

example : (newMessage msgTypeFullClientRequest msgTypeFlagPositiveSeq).marshal =
    .ok [17, 17, 16, 0, 0, 0, 0, 0, 0, 0, 0, 0] := by decide

end NewApiPool.Volcengine
