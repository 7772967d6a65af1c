import PacketCodec.Address
import PacketCodec.Number
import PacketCodec.Error

/-!
# Ethernet frames

An Ethernet II frame is a header of fourteen octets, a payload selected
by the EtherType, pad octets and, if it was captured with one, a frame
check sequence. The payload of a frame on the wire is padded to at least
46 octets.
-/

namespace PacketCodec

open Violation (ifMissing ifOver ifBad)

/-- The type of the payload of a frame. -/
abbrev EtherType := UInt16

namespace EtherType

/-- Address resolution. -/
def arp : EtherType := 0x0806

/-- IPv4. -/
def ipv4 : EtherType := 0x0800

/-- IPv6. -/
def ipv6 : EtherType := 0x86dd

/-- The named EtherTypes. -/
def space : NumberSpace where
  title := "EtherType"
  assigned := [(0x0806, "ARP"), (0x0800, "IPV4"), (0x86dd, "IPV6")]

/-- The text of an EtherType. -/
def label (t : EtherType) : String := space.label t.toNat

end EtherType

/-- **The header of a frame.** -/
structure EthernetHeader where
  /-- Destination address. -/
  dst : MacAddr
  /-- Source address. -/
  src : MacAddr
  /-- Type of the payload. -/
  etherType : EtherType
  deriving DecidableEq

namespace EthernetHeader

def protocol : String := "Ethernet"

/-- Length of the header. -/
def size : Nat := 14

/-- Length of the frame check sequence. -/
def fcsSize : Nat := 4

/-- Smallest payload of a frame on the wire, padding included. -/
def minPayload : Nat := 46

/-- The header on the wire. -/
def toBytes (h : EthernetHeader) : Bytes :=
  h.dst.bytes ++ h.src.bytes ++ Bytes.be16 h.etherType

/-- A header off the front of a byte string. -/
def read? (bs : Bytes) : Option (EthernetHeader × Bytes) := do
  let (dst, bs) ← Octets.take? 6 bs
  let (src, bs) ← Octets.take? 6 bs
  let (etherType, bs) ← bs.u16?
  return ({ dst, src, etherType }, bs)

end EthernetHeader

/-- **A frame under construction**, its payload apart. -/
structure EthernetDraft where
  /-- Destination address. Required. -/
  dst : Option MacAddr := none
  /-- Source address. Required. -/
  src : Option MacAddr := none
  /-- Type of the payload. Required. -/
  etherType : Option EtherType := none
  /-- The pad, unless `padding` replaces it. -/
  pad : Bytes := []
  /-- Pad with zeros up to the smallest payload. -/
  padding : Bool := false
  /-- The frame check sequence, unless `checked` replaces it. -/
  fcs : Option UInt32 := none
  /-- Compute the frame check sequence. -/
  checked : Bool := false
  deriving DecidableEq

/-- What is wrong with the draft. -/
def EthernetDraft.violations (d : EthernetDraft) : List Violation :=
  ifMissing "dst_addr" d.dst ++ ifMissing "src_addr" d.src ++ ifMissing "ether_type" d.etherType

/-- The header of a draft that has all its fields. -/
def EthernetDraft.header (d : EthernetDraft) : EthernetHeader where
  dst := d.dst.getD (Octets.zero 6)
  src := d.src.getD (Octets.zero 6)
  etherType := d.etherType.getD 0

end PacketCodec
