import PacketCodec.Ethernet

/-!
# Address resolution

An ARP message of the Ethernet/IPv4 kind: 28 octets, no payload. The
declared address lengths are kept as they are found; the layout is that of
six-octet hardware and four-octet protocol addresses whatever they say.
-/

namespace PacketCodec

open Violation (ifMissing ifOver ifBad)

/-- The kind of hardware addresses in a message. -/
abbrev Hardware := UInt16

namespace Hardware

/-- Ethernet. -/
def ethernet : Hardware := 1

/-- The named kinds of hardware. -/
def space : NumberSpace where
  title := "Hardware"
  assigned := [(1, "ETHERNET")]

/-- The text of a kind of hardware. -/
def label (t : Hardware) : String := space.label t.toNat

end Hardware

/-- What a message asks or answers. -/
abbrev Operation := UInt16

namespace Operation

/-- Who has this address? -/
def request : Operation := 1

/-- I have. -/
def reply : Operation := 2

/-- The named operations. -/
def space : NumberSpace where
  title := "Operation"
  assigned := [(1, "REQUEST"), (2, "REPLY")]

/-- The text of an operation. -/
def label (t : Operation) : String := space.label t.toNat

end Operation

/-- **An ARP message.** -/
structure ArpHeader where
  /-- Kind of hardware. -/
  hardwareType : Hardware
  /-- Kind of protocol address. -/
  protocolType : EtherType
  /-- Declared length of a hardware address. -/
  hardwareAddrLen : UInt8
  /-- Declared length of a protocol address. -/
  protocolAddrLen : UInt8
  /-- What the message asks or answers. -/
  operation : Operation
  /-- Hardware address of the sender. -/
  senderMac : MacAddr
  /-- Protocol address of the sender. -/
  senderIp : Ipv4Addr
  /-- Hardware address of the target. -/
  targetMac : MacAddr
  /-- Protocol address of the target. -/
  targetIp : Ipv4Addr
  deriving DecidableEq

namespace ArpHeader

def protocol : String := "ARP"

/-- Length of a message. -/
def size : Nat := 28

/-- The message on the wire. -/
def toBytes (h : ArpHeader) : Bytes :=
  Bytes.be16 h.hardwareType ++ Bytes.be16 h.protocolType
    ++ [h.hardwareAddrLen, h.protocolAddrLen] ++ Bytes.be16 h.operation
    ++ h.senderMac.bytes ++ h.senderIp.bytes ++ h.targetMac.bytes ++ h.targetIp.bytes

/-- A message off the front of a byte string. -/
def read? (bs : Bytes) : Option (ArpHeader × Bytes) := do
  let (hardwareType, bs) ← bs.u16?
  let (protocolType, bs) ← bs.u16?
  let (hardwareAddrLen, bs) ← bs.u8?
  let (protocolAddrLen, bs) ← bs.u8?
  let (operation, bs) ← bs.u16?
  let (senderMac, bs) ← Octets.take? 6 bs
  let (senderIp, bs) ← Octets.take? 4 bs
  let (targetMac, bs) ← Octets.take? 6 bs
  let (targetIp, bs) ← Octets.take? 4 bs
  return ({ hardwareType, protocolType, hardwareAddrLen, protocolAddrLen, operation,
            senderMac, senderIp, targetMac, targetIp }, bs)

end ArpHeader

/-- **An ARP message under construction.** -/
structure ArpDraft where
  /-- Kind of hardware. Required. -/
  hardwareType : Option Hardware := none
  /-- Kind of protocol address. Required. -/
  protocolType : Option EtherType := none
  /-- Length of a hardware address. Required unless lengths are
  corrected. -/
  hardwareAddrLen : Option UInt8 := none
  /-- Length of a protocol address. Required unless lengths are
  corrected. -/
  protocolAddrLen : Option UInt8 := none
  /-- What the message asks or answers. Required. -/
  operation : Option Operation := none
  /-- Hardware address of the sender. Required. -/
  senderMac : Option MacAddr := none
  /-- Protocol address of the sender. Required. -/
  senderIp : Option Ipv4Addr := none
  /-- Hardware address of the target. Required. -/
  targetMac : Option MacAddr := none
  /-- Protocol address of the target. Required. -/
  targetIp : Option Ipv4Addr := none
  /-- Set the address lengths to those of the layout. -/
  correctLength : Bool := false
  deriving DecidableEq

namespace ArpDraft

/-- What is wrong with the draft. -/
def violations (d : ArpDraft) : List Violation :=
  ifMissing "hardware_type" d.hardwareType ++ ifMissing "protocol_type" d.protocolType
    ++ (if d.correctLength then [] else
          ifMissing "hardware_addr_len" d.hardwareAddrLen
            ++ ifMissing "protocol_addr_len" d.protocolAddrLen)
    ++ ifMissing "operation" d.operation
    ++ ifMissing "sender_ether_addr" d.senderMac ++ ifMissing "sender_ipv4_addr" d.senderIp
    ++ ifMissing "target_ether_addr" d.targetMac ++ ifMissing "target_ipv4_addr" d.targetIp

/-- The message of a draft that has all its fields. -/
def header (d : ArpDraft) : ArpHeader where
  hardwareType := d.hardwareType.getD Hardware.ethernet
  protocolType := d.protocolType.getD EtherType.ipv4
  hardwareAddrLen := if d.correctLength then 6 else d.hardwareAddrLen.getD 0
  protocolAddrLen := if d.correctLength then 4 else d.protocolAddrLen.getD 0
  operation := d.operation.getD Operation.request
  senderMac := d.senderMac.getD (Octets.zero 6)
  senderIp := d.senderIp.getD (Octets.zero 4)
  targetMac := d.targetMac.getD (Octets.zero 6)
  targetIp := d.targetIp.getD (Octets.zero 4)

end ArpDraft

/-- The draft that has the fields of a message. -/
def ArpHeader.toDraft (h : ArpHeader) : ArpDraft where
  hardwareType := h.hardwareType
  protocolType := h.protocolType
  hardwareAddrLen := h.hardwareAddrLen
  protocolAddrLen := h.protocolAddrLen
  operation := h.operation
  senderMac := h.senderMac
  senderIp := h.senderIp
  targetMac := h.targetMac
  targetIp := h.targetIp

end PacketCodec
