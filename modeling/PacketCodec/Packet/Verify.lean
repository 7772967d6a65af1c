import PacketCodec.Packet.Basic

/-!
# Checking packets

Whether the checksums that layers carry are right. Each check applies to
layers of one kind and answers nothing for others. The addresses that the
checksums of datagrams and messages cover belong to an outer layer and
are given.
-/

namespace PacketCodec

/-- The octets of a payload, none if there is none. -/
def payloadBytes (payload : Option Packet) : Bytes := (payload.map Packet.toBytes).getD []

/-- The frame check sequence that a frame should have. -/
def EthernetHeader.fcsFor (h : EthernetHeader) (payload : Option Packet) (pad : Bytes) : UInt32 :=
  Checksum.crc32Segments [h.toBytes, payloadBytes payload, pad]

namespace Packet

/-- The outermost layer, if it can carry a packet, and what it carries. -/
def carrier? : Packet → Option (Carrier × Option Packet)
  | leaf _ => none
  | bare c => some (c, none)
  | carry c p => some (c, some p)

/-- Whether a frame has a frame check sequence and it is right. -/
def frameVerifies? (p : Packet) : Option Bool :=
  match p.carrier? with
  | some (.ethernet h pad fcs, payload) => some (fcs == some (h.fcsFor payload pad))
  | _ => none

/-- Whether the checksum of a datagram is right for its addresses. -/
def datagramVerifies? (p : Packet) (src dst : IpAddr) (acceptZero : Bool) : Option Bool :=
  match p.carrier? with
  | some (.udp h trailer, _) =>
    let raw := p.toBytes
    some (h.verifies src dst acceptZero (raw.take (raw.length - trailer.length)))
  | _ => none

/-- Whether the checksum of an ICMPv6 message is right for its
addresses. -/
def messageVerifies? (p : Packet) (src dst : Ipv6Addr) : Option Bool :=
  match p.carrier? with
  | some (.icmpv6 _, _) => some (Icmpv6Header.verifies src dst p.toBytes)
  | _ => none

/-- Whether the checksum of an SCTP packet is right, by the given
algorithm or by that of the packet. -/
def sctpVerifies? (p : Packet) (algorithm : Option SctpChecksum) (acceptZero : Bool) :
    Option Bool :=
  match p with
  | leaf (.sctp h _ own) => some ((algorithm.getD own).verifies h.checksum acceptZero p.toBytes)
  | _ => none

end Packet

end PacketCodec
