import PacketCodec.Address
import PacketCodec.Bits
import PacketCodec.Error
import PacketCodec.Ip

/-!
# IPv6 headers

The fixed header of forty octets. Its first word packs the version, the
traffic class and the flow label. The payload length counts what follows
the header; zero stands for a payload too large for the field, whose
length is then that of the captured bytes.
-/

namespace PacketCodec

open Violation (ifMissing ifOver ifBad)

/-- **The fixed header of an IPv6 packet.** -/
structure Ipv6Header where
  /-- The version nibble. -/
  version : IpVersion
  trafficClass : UInt8
  /-- The flow label, of twenty bits. -/
  flowLabel : UInt32
  /-- Declared length of the payload. -/
  payloadLen : UInt16
  /-- Type of the payload. -/
  nextHeader : IpProtocol
  hopLimit : UInt8
  /-- Source address. -/
  src : Ipv6Addr
  /-- Destination address. -/
  dst : Ipv6Addr
  deriving DecidableEq

namespace Ipv6Header

def protocol : String := "IPv6"

/-- Length of the header. -/
def size : Nat := 40

/-- The version in the first word. -/
def versionBits : BitField := { shift := 28, width := 4 }

/-- The traffic class in the first word. -/
def trafficClassBits : BitField := { shift := 20, width := 8 }

/-- The flow label in the first word. -/
def flowLabelBits : BitField := { shift := 0, width := 20 }

/-- The first word. -/
def firstWord (h : Ipv6Header) : UInt32 :=
  flowLabelBits.put
    (trafficClassBits.put (versionBits.put 0 h.version.toUInt32) h.trafficClass.toUInt32)
    h.flowLabel

/-- The header on the wire. -/
def toBytes (h : Ipv6Header) : Bytes :=
  Bytes.be32 h.firstWord ++ Bytes.be16 h.payloadLen ++ [h.nextHeader, h.hopLimit]
    ++ h.src.bytes ++ h.dst.bytes

/-- A header off the front of a byte string. -/
def read? (bs : Bytes) : Option (Ipv6Header × Bytes) := do
  let (word, bs) ← bs.u32?
  let (payloadLen, bs) ← bs.u16?
  let (nextHeader, bs) ← bs.u8?
  let (hopLimit, bs) ← bs.u8?
  let (src, bs) ← Octets.take? 16 bs
  let (dst, bs) ← Octets.take? 16 bs
  return ({ version := (versionBits.get word).toUInt8
            trafficClass := (trafficClassBits.get word).toUInt8
            flowLabel := flowLabelBits.get word
            payloadLen, nextHeader, hopLimit, src, dst }, bs)

/-- How many of the `available` octets after the header are its payload:
the declared number, or all of them when that is zero or too large. -/
def payloadExtent (h : Ipv6Header) (available : Nat) : Nat :=
  if h.payloadLen = 0 then available else min h.payloadLen.toNat available

end Ipv6Header

/-- **An IPv6 packet under construction**, its payload apart. -/
structure Ipv6Draft where
  /-- The version nibble. -/
  version : IpVersion := IpVersion.v6
  /-- Traffic class. Required. -/
  trafficClass : Option UInt8 := none
  /-- Flow label. Required. -/
  flowLabel : Option UInt32 := none
  /-- Length of the payload. Required unless the length is corrected. -/
  payloadLen : Option UInt16 := none
  /-- Type of the payload. Required. -/
  nextHeader : Option IpProtocol := none
  /-- Hop limit. Required. -/
  hopLimit : Option UInt8 := none
  /-- Source address. Required. -/
  src : Option Ipv6Addr := none
  /-- Destination address. Required. -/
  dst : Option Ipv6Addr := none
  /-- Set the payload length to that of the built payload. -/
  correctLength : Bool := false
  deriving DecidableEq

namespace Ipv6Draft

/-- What is wrong with the draft, its payload apart. -/
def violations (d : Ipv6Draft) : List Violation :=
  ifOver "version" d.version.toNat Ipv6Header.versionBits.max.toNat
    ++ ifMissing "traffic_class" d.trafficClass
    ++ ifMissing "flow_label" d.flowLabel
    ++ ifOver "flow_label" (d.flowLabel.getD 0).toNat Ipv6Header.flowLabelBits.max.toNat
    ++ (if d.correctLength then [] else ifMissing "payload_len" d.payloadLen)
    ++ ifMissing "next_header" d.nextHeader ++ ifMissing "hop_limit" d.hopLimit
    ++ ifMissing "src_addr" d.src ++ ifMissing "dst_addr" d.dst

/-- The header over a payload of `length` octets, unless its length is to
be corrected and does not fit. -/
def header (d : Ipv6Draft) (length : Nat) : Except BuildError Ipv6Header := do
  if d.correctLength then
    BuildError.check Ipv6Header.protocol (ifOver "payload_len" length (UInt16.size - 1))
  return { version := d.version
           trafficClass := d.trafficClass.getD 0
           flowLabel := d.flowLabel.getD 0
           payloadLen := if d.correctLength then UInt16.ofNat length else d.payloadLen.getD 0
           nextHeader := d.nextHeader.getD IpProtocol.noNext
           hopLimit := d.hopLimit.getD 0
           src := d.src.getD (Octets.zero 16)
           dst := d.dst.getD (Octets.zero 16) }

end Ipv6Draft

/-- The draft that has the fields of a header. -/
def Ipv6Header.toDraft (h : Ipv6Header) : Ipv6Draft where
  version := h.version
  trafficClass := h.trafficClass
  flowLabel := h.flowLabel
  payloadLen := h.payloadLen
  nextHeader := h.nextHeader
  hopLimit := h.hopLimit
  src := h.src
  dst := h.dst

end PacketCodec
