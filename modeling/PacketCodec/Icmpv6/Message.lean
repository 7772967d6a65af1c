import PacketCodec.Checksum.Pseudo
import PacketCodec.Inner

/-!
# ICMPv6 messages

Four octets – type, code and a checksum – and a body that depends on the
type. The checksum covers the message and the IPv6 pseudo-header of the
addresses it travels between. Of the bodies, echo requests and replies
are here too: an identifier, a sequence number and data that is sent back
as it came.
-/

namespace PacketCodec

open Violation (ifMissing ifOver ifBad)

namespace Icmpv6Type

/-- Echo request. -/
def echoRequest : Icmpv6Type := 128

/-- Echo reply. -/
def echoReply : Icmpv6Type := 129

/-- Neighbor solicitation. -/
def neighborSolicitation : Icmpv6Type := 135

/-- Neighbor advertisement. -/
def neighborAdvertisement : Icmpv6Type := 136

/-- The named message types. -/
def space : NumberSpace where
  title := "Icmpv6MsgType"
  assigned := [(1, "DST_UNREACHABLE"), (2, "PKT_TOO_BIG"), (3, "TIME_EXCEED"),
    (4, "PARAM_PROBLEM"), (128, "ECHO_REQUEST"), (129, "ECHO_REPLY"),
    (133, "NDP_ROUTER_SOLICIT"), (134, "NDP_ROUTER_ADV"), (135, "NDP_NEIGHBOR_SOLICIT"),
    (136, "NDP_NEIGHBOR_ADV"), (137, "NDP_REDIRECT")]

/-- The text of a message type. -/
def label (t : Icmpv6Type) : String := space.label t.toNat

end Icmpv6Type

/-! ## The common header -/

/-- **The header that all messages share.** -/
structure Icmpv6Header where
  /-- Type of the message. -/
  icmpType : Icmpv6Type
  code : UInt8
  checksum : UInt16
  deriving DecidableEq

namespace Icmpv6Header

def protocol : String := "ICMPv6"

/-- Length of the header. -/
def size : Nat := 4

/-- The header on the wire. -/
def toBytes (h : Icmpv6Header) : Bytes :=
  [h.icmpType, h.code] ++ Bytes.be16 h.checksum

/-- A header off the front of a byte string. -/
def read? (bs : Bytes) : Option (Icmpv6Header × Bytes) := do
  let (icmpType, bs) ← bs.u8?
  let (code, bs) ← bs.u8?
  let (checksum, bs) ← bs.u16?
  return ({ icmpType, code, checksum }, bs)

/-- **Reads the common header** off a window: the header and what it
carries. -/
def read (w : Window) : Except DecodeError (Icmpv6Header × Inner) := do
  let (h, _) ← w.read protocol size read?
  return (h, .dispatch (.icmpv6Type h.icmpType) (w.after size))

/-- The checksum of a message in segments between two addresses. There is
none for a message too long for the pseudo-header. -/
def checksum? (src dst : Ipv6Addr) (segments : List Bytes) : Option UInt16 :=
  let length := segments.flatten.length
  (PseudoHeader.make? (.v6 src) (.v6 dst) IpProtocol.icmpv6 length).map
    fun ph => ph.checksum segments

/-- Whether the checksum in a message is right for its addresses. -/
def verifies (src dst : Ipv6Addr) (message : Bytes) : Bool :=
  checksum? src dst [message] == some 0

end Icmpv6Header

/-- **A message under construction**, its body apart. The addresses are
not part of a message; they are for its checksum. -/
structure Icmpv6Draft where
  /-- Type of the message. Required. -/
  icmpType : Option Icmpv6Type := none
  /-- Code. Required. -/
  code : Option UInt8 := none
  /-- Checksum. Required unless it is corrected. -/
  checksum : Option UInt16 := none
  /-- Source address. Required to correct the checksum. -/
  src : Option Ipv6Addr := none
  /-- Destination address. Required to correct the checksum. -/
  dst : Option Ipv6Addr := none
  /-- Compute the checksum. -/
  correctChecksum : Bool := false
  deriving DecidableEq

namespace Icmpv6Draft

/-- What is wrong with the draft, its body apart. -/
def violations (d : Icmpv6Draft) : List Violation :=
  ifMissing "icmp_type" d.icmpType ++ ifMissing "code" d.code
    ++ (if d.correctChecksum then ifMissing "src_addr" d.src ++ ifMissing "dst_addr" d.dst
        else ifMissing "checksum" d.checksum)

/-- The header with a given checksum. -/
def headerWith (d : Icmpv6Draft) (checksum : UInt16) : Icmpv6Header where
  icmpType := d.icmpType.getD 0
  code := d.code.getD 0
  checksum := checksum

/-- The header over a body, unless its checksum is to be computed and the
message is too long for one. -/
def header (d : Icmpv6Draft) (body : Bytes) : Except BuildError Icmpv6Header :=
  if d.correctChecksum then do
    BuildError.check Icmpv6Header.protocol
      (ifOver "length" (Icmpv6Header.size + body.length) (UInt32.size - 1))
    let src := d.src.getD (Octets.zero 16)
    let dst := d.dst.getD (Octets.zero 16)
    let sum := Icmpv6Header.checksum? src dst [(d.headerWith 0).toBytes, body]
    return d.headerWith (sum.getD 0)
  else .ok (d.headerWith (d.checksum.getD 0))

end Icmpv6Draft

/-- The draft that has the fields of a header. -/
def Icmpv6Header.toDraft (h : Icmpv6Header) : Icmpv6Draft where
  icmpType := h.icmpType
  code := h.code
  checksum := h.checksum

/-! ## Echo -/

/-- **The head of an echo body.** -/
structure EchoHeader where
  /-- Matches replies to requests. -/
  identifier : UInt16
  /-- Number of the request. -/
  sequenceNumber : UInt16
  deriving DecidableEq

namespace EchoHeader

def protocol : String := "ICMPv6 Echo"

/-- Length of the head. -/
def size : Nat := 4

/-- The head on the wire. -/
def toBytes (h : EchoHeader) : Bytes :=
  Bytes.be16 h.identifier ++ Bytes.be16 h.sequenceNumber

/-- A head off the front of a byte string. -/
def read? (bs : Bytes) : Option (EchoHeader × Bytes) := do
  let (identifier, bs) ← bs.u16?
  let (sequenceNumber, bs) ← bs.u16?
  return ({ identifier, sequenceNumber }, bs)

/-- **Reads the head of an echo body** off a window: the head and the
data, which is kept. -/
def read (w : Window) : Except DecodeError (EchoHeader × Inner) := do
  let (h, data) ← w.read protocol size read?
  return (h, .keep data)

end EchoHeader

/-- **The head of an echo body under construction.** -/
structure EchoDraft where
  /-- Matches replies to requests. Required. -/
  identifier : Option UInt16 := none
  /-- Number of the request. Required. -/
  sequenceNumber : Option UInt16 := none
  deriving DecidableEq

/-- What is wrong with the draft, its data apart. -/
def EchoDraft.violations (d : EchoDraft) : List Violation :=
  ifMissing "identifier" d.identifier ++ ifMissing "sequence_number" d.sequenceNumber

/-- The head of a draft that has all its fields. -/
def EchoDraft.header (d : EchoDraft) : EchoHeader where
  identifier := d.identifier.getD 0
  sequenceNumber := d.sequenceNumber.getD 0

/-- The draft that has the fields of a head. -/
def EchoHeader.toDraft (h : EchoHeader) : EchoDraft where
  identifier := h.identifier
  sequenceNumber := h.sequenceNumber

end PacketCodec
