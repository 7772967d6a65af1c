import PacketCodec.Address
import PacketCodec.Checksum.Internet

/-!
# Pseudo-headers

The checksum of an upper-layer packet also covers the addresses it
travels between, its protocol number and its length, laid out as a
pseudo-header that is summed but never sent. The layout depends on the
address family: `PseudoHeader.toBytes` is the string that is summed, and
`PseudoHeader.sum` adds up its three parts.
-/

namespace PacketCodec

/-- **A pseudo-header** of either address family. -/
inductive PseudoHeader where
  /-- Addresses, a zero octet, the protocol and a 16-bit length. -/
  | v4 (src dst : Ipv4Addr) (protocol : UInt8) (length : UInt16)
  /-- Addresses, a 32-bit length, three zero octets and the protocol. -/
  | v6 (src dst : Ipv6Addr) (protocol : UInt8) (length : UInt32)
  deriving DecidableEq

namespace PseudoHeader

/-- The pseudo-header of a packet of `length` octets between two
addresses. There is none when the families differ or when the length does
not fit into the length field of the family. -/
def make? (src dst : IpAddr) (protocol : UInt8) (length : Nat) : Option PseudoHeader :=
  match src, dst with
  | .v4 src, .v4 dst =>
    if length < UInt16.size then some (.v4 src dst protocol (UInt16.ofNat length)) else none
  | .v6 src, .v6 dst =>
    if length < UInt32.size then some (.v6 src dst protocol (UInt32.ofNat length)) else none
  | _, _ => none

/-- The octets after the two addresses: protocol and length, in the order
of the family. -/
def tail : PseudoHeader → Bytes
  | v4 _ _ protocol length => [0, protocol] ++ Bytes.be16 length
  | v6 _ _ protocol length => Bytes.be32 length ++ [0, 0, 0, protocol]

/-- The pseudo-header as a byte string. -/
def toBytes : PseudoHeader → Bytes
  | h@(v4 src dst _ _) => src.bytes ++ dst.bytes ++ h.tail
  | h@(v6 src dst _ _) => src.bytes ++ dst.bytes ++ h.tail

/-- The one's complement sum of the pseudo-header, not complemented. -/
def sum : PseudoHeader → UInt16
  | h@(v4 src dst _ _) =>
    Checksum.combine [Checksum.sum src.bytes, Checksum.sum dst.bytes, Checksum.sum h.tail]
  | h@(v6 src dst _ _) =>
    Checksum.combine [Checksum.sum src.bytes, Checksum.sum dst.bytes, Checksum.sum h.tail]

/-- **The checksum of a packet under its pseudo-header.** With a zero
checksum field in the packet it is the value to store; with the right
value stored it is zero. -/
def checksum (h : PseudoHeader) (segments : List Bytes) : UInt16 :=
  ~~~ Checksum.combine [h.sum, Checksum.sumSegments segments]

end PseudoHeader

end PacketCodec
