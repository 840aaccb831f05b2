import EnetTcp.Item
import EnetTcp.Lib.Bytes

/-!
# Messages (TMessage.h, TMessage.cpp)

`FromBytes` reads a message and reports an error in one of two ways: it throws,
or it sets the result code and returns a message all the same. `AsBytes` writes
a message.
-/

namespace EnetTcp

open Bytes

/-- A message id and the data items. The items are never null pointers here. -/
structure TMessage where
  Id : TMessageId
  DataItems : List TDataItem
  deriving DecidableEq

/-- The value-initialised `TMessage()`. -/
def TMessage.empty : TMessage := { Id := 0, DataItems := [] }

def calculateChecksum (Message : TBytes) : UInt8 := byteSum Message

section Parse

variable (pf : Platform)

/-- `ValidMessageIDs[i]`, past the end of the vector too. -/
def messageIdAt (i : Nat) : TMessageId :=
  if h : i < ValidMessageIDs.length then ValidMessageIDs[i]
  else pf.pastMessageIDs (i - ValidMessageIDs.length)

/-- The search runs over as many entries as the vector *object* has bytes. -/
def isValidMessageID (MessageId : TMessageId) : Bool :=
  (List.range sizeofValidMessageIDs).any fun i => messageIdAt pf i == MessageId

/-- The constructors that take a message id check it. -/
def TMessage.new {σ : Type} (MId : TMessageId) (Payload : List TDataItem) :
    Prog Exn σ TMessage :=
  if isValidMessageID pf MId then return { Id := MId, DataItems := Payload }
  else throw (.logicError (text "ERR_MSG_ID_UNKNOWN"))

/-! ## 1. Reading -/

/-- The loop of `parsePayload`. Each round takes at least four bytes off
`payload_length`, so fuel beyond `payload_length` is never used up. Fewer than
four bytes that are left over are ignored. -/
def parseItems : (fuel : Nat) → (DataItemBytes : TBytes) → (payload_length : Nat) →
    (dataItems : List TDataItem) → Prog Exn Globals (List TDataItem × TError)
  | 0, _, _, _ => Prog.undefined
  | fuel + 1, DataItemBytes, payload_length, dataItems =>
    if sizeofTDataItemHeader ≤ payload_length then do
      let dataLength := (← Prog.ofOption (readU16 DataItemBytes 2)).toNat
      let DataItemLength := sizeofTDataItemHeader + dataLength
      if payload_length < DataItemLength then
        return (dataItems, ERR_MSG_PAYLOAD_DATAITEM_LEN_MISMATCH)
      let (item, result) ← fromBytes pf DataItemBytes
      if result ≠ ERR_SUCCESS then return (dataItems, result)
      parseItems fuel (DataItemBytes.drop DataItemLength) (payload_length - DataItemLength)
        (dataItems ++ [item])
    else return (dataItems, ERR_SUCCESS)

/-- The items read so far and the result code. -/
def parsePayload (Payload : TBytes) (payload_length : Nat) :
    Prog Exn Globals (List TDataItem × TError) :=
  if payload_length = 0 then return ([], ERR_SUCCESS)
  else parseItems pf (payload_length + 1) Payload payload_length []

/-- The length field of a message header. -/
def payloadSize (buf : TBytes) : Nat := ofLe ((buf.drop 1).take 4)

/-- Read a message and give the result code. The stated length is a 32-bit sum.
The payload is parsed before the checksum is looked at. -/
def FromBytes (buf : TBytes) : Prog Exn Globals (TMessage × TError) := do
  if buf.length < minimumMessageLength then
    return (← TMessage.new pf 0xFF [], ERR_MSG_TOO_SHORT)
  let type := buf.headD 0
  if !isValidMessageID pf type then return (TMessage.empty, ERR_MSG_ID_UNKNOWN)
  let statedMessageLength := (minimumMessageLength + payloadSize buf) % 2 ^ 32
  if buf.length < statedMessageLength then return (TMessage.empty, ERR_MSG_LEN_MISMATCH)
  let (dataItems, result) ← parsePayload pf (buf.drop sizeofTMessageHeader) (payloadSize buf)
  if calculateChecksum buf ≠ 0 then return (TMessage.empty, ERR_MSG_CHECKSUM)
  return (← TMessage.new pf type dataItems, result)

end Parse

/-! ## 2. Writing -/

/-- The running 32-bit sum of the lengths of the items. -/
def payloadLength (items : List TBytes) : Nat :=
  items.foldl (fun n itemBytes => (n + itemBytes.length) % 2 ^ 32) 0

/-- A frame around the bytes of the items. -/
def frameBytes (Id : TMessageId) (items : List TBytes) : TBytes :=
  let bytes := Id :: toLe 4 (payloadLength items) ++ items.flatten
  bytes ++ [-calculateChecksum bytes]

/-- `AsBytes`, for any way of computing the payload of an item. -/
def TMessage.AsBytesWith (payload : TDataItem → Option TBytes) (m : TMessage) : Option TBytes :=
  (m.DataItems.mapM fun item => (payload item).map (itemBytes item.DId)).map (frameBytes m.Id)

/-- `TMessage::AsBytes` -/
def TMessage.AsBytes (c : TConfig) (bAsReply : Bool) (m : TMessage) :
    Option TBytes :=
  m.AsBytesWith fun item => calcPayload c bAsReply item.toTItemBody

end EnetTcp
