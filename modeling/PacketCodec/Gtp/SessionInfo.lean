import PacketCodec.Bits
import PacketCodec.Bytes.Basic

/-!
# PDU session information

The content of a PDU session container. Two octets of flags and
identifiers say which of the fields behind them are there; their layout
depends on the direction, which is the high nibble of the first octet.
The flags are not kept: a field is present when its flag is set, and the
flags are written from the fields that are present.
-/

namespace PacketCodec

/-- The nibble that tells the direction. -/
def pduTypeBits : BitField := { shift := 4, width := 4 }

/-- The QoS flow identifier in the second octet. -/
def qfiBits : BitField := { shift := 0, width := 6 }

/-- The octets of a field, if it is present. -/
def presentBytes {α : Type} (write : α → Bytes) : Option α → Bytes
  | some a => write a
  | none => []

/-- The size of a field, if it is present. -/
def presentSize {α : Type} (size : Nat) : Option α → Nat
  | some _ => size
  | none => 0

/-! ## Downlink -/

/-- **Downlink information.** -/
structure DownlinkInfo where
  /-- QoS flow identifier, of six bits. -/
  qfi : UInt8 := 0
  /-- Reflective QoS indicator. -/
  rqi : Bool := false
  /-- The spare bit of the first octet. -/
  spare : Bool := false
  /-- Paging policy. -/
  ppi : Option UInt8 := none
  /-- When the packet was sent. -/
  sendingTime : Option UInt64 := none
  /-- Sequence number in the flow, of 24 bits. -/
  sequenceNumber : Option UInt32 := none
  /-- Sequence number in the multicast flow. -/
  mbsSequenceNumber : Option UInt32 := none
  deriving DecidableEq

namespace DownlinkInfo

/-- The PDU type of downlink information. -/
def pduType : UInt32 := 0

/-- The flag of the sending time. -/
def timeBit : BitField := BitField.flag 3

/-- The flag of the sequence number. -/
def sequenceBit : BitField := BitField.flag 2

/-- The flag of the multicast sequence number. -/
def mbsSequenceBit : BitField := BitField.flag 1

/-- The spare bit. -/
def spareBit : BitField := BitField.flag 0

/-- The flag of the paging policy. -/
def ppiBit : BitField := BitField.flag 7

/-- The reflective QoS indicator. -/
def rqiBit : BitField := BitField.flag 6

/-- The first octet. -/
def octet₀ (i : DownlinkInfo) : UInt32 :=
  spareBit.putFlag
    (mbsSequenceBit.putFlag
      (sequenceBit.putFlag (timeBit.putFlag (pduTypeBits.put 0 pduType) i.sendingTime.isSome)
        i.sequenceNumber.isSome)
      i.mbsSequenceNumber.isSome)
    i.spare

/-- The second octet. -/
def octet₁ (i : DownlinkInfo) : UInt32 :=
  qfiBits.put (rqiBit.putFlag (ppiBit.putFlag 0 i.ppi.isSome) i.rqi) i.qfi.toUInt32

/-- Number of octets on the wire. -/
def length (i : DownlinkInfo) : Nat :=
  2 + presentSize 1 i.ppi + presentSize 8 i.sendingTime + presentSize 3 i.sequenceNumber
    + presentSize 4 i.mbsSequenceNumber

/-- The information on the wire. -/
def toBytes (i : DownlinkInfo) : Bytes :=
  [i.octet₀.toUInt8, i.octet₁.toUInt8] ++ presentBytes (fun v => [v]) i.ppi
    ++ presentBytes Bytes.be64 i.sendingTime ++ presentBytes Bytes.be24 i.sequenceNumber
    ++ presentBytes Bytes.be32 i.mbsSequenceNumber

/-- Number of octets that the flags in the first two call for. -/
def lengthFor (b₀ b₁ : UInt32) : Nat :=
  2 + (if ppiBit.isSet b₁ then 1 else 0) + (if timeBit.isSet b₀ then 8 else 0)
    + (if sequenceBit.isSet b₀ then 3 else 0) + (if mbsSequenceBit.isSet b₀ then 4 else 0)

/-- The information whose first two octets are given and whose other
fields are at the front of a byte string. -/
def fields? (b₀ b₁ : UInt32) (bs : Bytes) : Option (DownlinkInfo × Bytes) := do
  let (ppi, bs) ← Bytes.optional? (ppiBit.isSet b₁) Bytes.u8? bs
  let (sendingTime, bs) ← Bytes.optional? (timeBit.isSet b₀) Bytes.u64? bs
  let (sequenceNumber, bs) ← Bytes.optional? (sequenceBit.isSet b₀) Bytes.u24? bs
  let (mbsSequenceNumber, bs) ← Bytes.optional? (mbsSequenceBit.isSet b₀) Bytes.u32? bs
  return ({ qfi := (qfiBits.get b₁).toUInt8
            rqi := rqiBit.isSet b₁
            spare := spareBit.isSet b₀
            ppi, sendingTime, sequenceNumber, mbsSequenceNumber }, bs)

end DownlinkInfo

/-! ## Uplink -/

/-- The three times that uplink information carries together. -/
structure UplinkTimes where
  /-- When the downlink packet was sent. -/
  downlinkSent : UInt64 := 0
  /-- When the downlink packet was received. -/
  downlinkReceived : UInt64 := 0
  /-- When the uplink packet was sent. -/
  uplinkSent : UInt64 := 0
  deriving DecidableEq

/-- The times on the wire. -/
def UplinkTimes.toBytes (t : UplinkTimes) : Bytes :=
  Bytes.be64 t.downlinkSent ++ Bytes.be64 t.downlinkReceived ++ Bytes.be64 t.uplinkSent

/-- The times off the front of a byte string. -/
def UplinkTimes.read? (bs : Bytes) : Option (UplinkTimes × Bytes) := do
  let (downlinkSent, bs) ← bs.u64?
  let (downlinkReceived, bs) ← bs.u64?
  let (uplinkSent, bs) ← bs.u64?
  return ({ downlinkSent, downlinkReceived, uplinkSent }, bs)

/-- **Uplink information.** -/
structure UplinkInfo where
  /-- QoS flow identifier, of six bits. -/
  qfi : UInt8 := 0
  /-- The times, if they were taken. -/
  times : Option UplinkTimes := none
  /-- Delay of the downlink. -/
  downlinkDelay : Option UInt32 := none
  /-- Delay of the uplink. -/
  uplinkDelay : Option UInt32 := none
  /-- Sequence number in the flow, of 24 bits. -/
  sequenceNumber : Option UInt32 := none
  /-- Delay between the network nodes. -/
  nodeDelay : Option UInt32 := none
  /-- Flags of further elements. -/
  newFlags : Option UInt8 := none
  deriving DecidableEq

namespace UplinkInfo

/-- The PDU type of uplink information. -/
def pduType : UInt32 := 1

/-- The flag of the times. -/
def timeBit : BitField := BitField.flag 3

/-- The flag of the delay of the downlink. -/
def downlinkDelayBit : BitField := BitField.flag 2

/-- The flag of the delay of the uplink. -/
def uplinkDelayBit : BitField := BitField.flag 1

/-- The flag of the sequence number. -/
def sequenceBit : BitField := BitField.flag 0

/-- The flag of the delay between the nodes. -/
def nodeDelayBit : BitField := BitField.flag 7

/-- The flag of the further flags. -/
def newFlagsBit : BitField := BitField.flag 6

/-- The first octet. -/
def octet₀ (i : UplinkInfo) : UInt32 :=
  sequenceBit.putFlag
    (uplinkDelayBit.putFlag
      (downlinkDelayBit.putFlag (timeBit.putFlag (pduTypeBits.put 0 pduType) i.times.isSome)
        i.downlinkDelay.isSome)
      i.uplinkDelay.isSome)
    i.sequenceNumber.isSome

/-- The second octet. -/
def octet₁ (i : UplinkInfo) : UInt32 :=
  qfiBits.put
    (newFlagsBit.putFlag (nodeDelayBit.putFlag 0 i.nodeDelay.isSome) i.newFlags.isSome)
    i.qfi.toUInt32

/-- Number of octets on the wire. -/
def length (i : UplinkInfo) : Nat :=
  2 + presentSize 24 i.times + presentSize 4 i.downlinkDelay + presentSize 4 i.uplinkDelay
    + presentSize 3 i.sequenceNumber + presentSize 4 i.nodeDelay + presentSize 1 i.newFlags

/-- The information on the wire. -/
def toBytes (i : UplinkInfo) : Bytes :=
  [i.octet₀.toUInt8, i.octet₁.toUInt8] ++ presentBytes UplinkTimes.toBytes i.times
    ++ presentBytes Bytes.be32 i.downlinkDelay ++ presentBytes Bytes.be32 i.uplinkDelay
    ++ presentBytes Bytes.be24 i.sequenceNumber ++ presentBytes Bytes.be32 i.nodeDelay
    ++ presentBytes (fun v => [v]) i.newFlags

/-- Number of octets that the flags in the first two call for. -/
def lengthFor (b₀ b₁ : UInt32) : Nat :=
  2 + (if timeBit.isSet b₀ then 24 else 0) + (if downlinkDelayBit.isSet b₀ then 4 else 0)
    + (if uplinkDelayBit.isSet b₀ then 4 else 0) + (if sequenceBit.isSet b₀ then 3 else 0)
    + (if nodeDelayBit.isSet b₁ then 4 else 0) + (if newFlagsBit.isSet b₁ then 1 else 0)

/-- The information whose first two octets are given and whose other
fields are at the front of a byte string. -/
def fields? (b₀ b₁ : UInt32) (bs : Bytes) : Option (UplinkInfo × Bytes) := do
  let (times, bs) ← Bytes.optional? (timeBit.isSet b₀) UplinkTimes.read? bs
  let (downlinkDelay, bs) ← Bytes.optional? (downlinkDelayBit.isSet b₀) Bytes.u32? bs
  let (uplinkDelay, bs) ← Bytes.optional? (uplinkDelayBit.isSet b₀) Bytes.u32? bs
  let (sequenceNumber, bs) ← Bytes.optional? (sequenceBit.isSet b₀) Bytes.u24? bs
  let (nodeDelay, bs) ← Bytes.optional? (nodeDelayBit.isSet b₁) Bytes.u32? bs
  let (newFlags, bs) ← Bytes.optional? (newFlagsBit.isSet b₁) Bytes.u8? bs
  return ({ qfi := (qfiBits.get b₁).toUInt8
            times, downlinkDelay, uplinkDelay, sequenceNumber, nodeDelay, newFlags }, bs)

end UplinkInfo

/-! ## Either direction -/

/-- **PDU session information** of either direction. -/
inductive SessionInfo where
  | downlink (info : DownlinkInfo)
  | uplink (info : UplinkInfo)
  deriving DecidableEq

namespace SessionInfo

/-- Number of octets on the wire. -/
def length : SessionInfo → Nat
  | downlink i => i.length
  | uplink i => i.length

/-- The information on the wire. -/
def toBytes : SessionInfo → Bytes
  | downlink i => i.toBytes
  | uplink i => i.toBytes

end SessionInfo

end PacketCodec
