import PacketCodec.Arp
import PacketCodec.Gtp.Message
import PacketCodec.Icmpv6.Message
import PacketCodec.Icmpv6.Neighbor
import PacketCodec.Ipv6.Fragment
import PacketCodec.Ipv6.Header
import PacketCodec.Ipv6.Routing
import PacketCodec.Sctp
import PacketCodec.Udp

/-!
# Packets

A packet is a chain of layers, each carrying the next. Most formats can
carry a packet – those are `Carrier`s – and some end the chain: those are
`Leaf`s, bytes that no decoder claims or that one rejects among them.

On the wire a layer is, in this order, its header, for options headers
the octets of the extent that could not be read, its payload, and its
trailer. `Packet.toBytes` writes a packet, and `Packet.length` counts its
octets without writing it.
-/

namespace PacketCodec

/-! ## Formats -/

/-- **The formats that bytes can be decoded as.** -/
inductive Format where
  | ethernet
  | arp
  | ipv6
  | hopByHop
  | destination
  | routing
  | fragment
  | icmpv6
  | echo
  | solicitation
  | advertisement
  | udp
  | sctp
  | gtp
  deriving DecidableEq

def Format.protocol : Format → String
  | ethernet => EthernetHeader.protocol
  | arp => ArpHeader.protocol
  | ipv6 => Ipv6Header.protocol
  | hopByHop => OptionsKind.hopByHop.protocol
  | destination => OptionsKind.destination.protocol
  | routing => RoutingHeader.protocol
  | fragment => FragmentHeader.protocol
  | icmpv6 => Icmpv6Header.protocol
  | echo => EchoHeader.protocol
  | solicitation => SolicitationHeader.protocol
  | advertisement => AdvertisementHeader.protocol
  | udp => UdpHeader.protocol
  | sctp => SctpHeader.protocol
  | gtp => GtpHeader.protocol

/-- The format of an options header. -/
def OptionsKind.format : OptionsKind → Format
  | hopByHop => .hopByHop
  | destination => .destination

/-- **The kind of a layer**: its format, or that it is bytes. -/
inductive Kind where
  /-- A layer of that format. -/
  | format (f : Format)
  /-- Bytes that no decoder claims. -/
  | unknown
  /-- Bytes that a decoder rejects. -/
  | malformed
  deriving DecidableEq

/-- What the kind is called. -/
def Kind.name : Kind → String
  | format f => f.protocol
  | unknown => "Unknown"
  | malformed => "Malformed"

/-! ## Layers that end a chain -/

/-- **A layer that carries no packet.** -/
inductive Leaf where
  /-- An ARP message. -/
  | arp (h : ArpHeader)
  /-- A neighbor solicitation and the octets behind its options. -/
  | solicitation (h : SolicitationHeader) (trailer : Bytes)
  /-- A neighbor advertisement and the octets behind its options. -/
  | advertisement (h : AdvertisementHeader) (trailer : Bytes)
  /-- An SCTP packet, the octets behind its chunks, and the algorithm of
  its checksum. -/
  | sctp (h : SctpHeader) (trailer : Bytes) (algorithm : SctpChecksum)
  /-- Bytes that no decoder claims. -/
  | unknown (data : Bytes)
  /-- Bytes that a decoder rejects, and why. -/
  | malformed (data : Bytes) (reason : DecodeError)
  deriving DecidableEq

namespace Leaf

/-- The kind of the layer. -/
def kind : Leaf → Kind
  | arp _ => .format .arp
  | solicitation _ _ => .format .solicitation
  | advertisement _ _ => .format .advertisement
  | sctp _ _ _ => .format .sctp
  | unknown _ => .unknown
  | malformed _ _ => .malformed

/-- The header on the wire, if the layer has one. -/
def header? : Leaf → Option Bytes
  | arp h => some h.toBytes
  | solicitation h _ => some h.toBytes
  | advertisement h _ => some h.toBytes
  | sctp h _ _ => some h.toBytes
  | unknown _ => none
  | malformed _ _ => none

/-- Length of the header, if the layer has one. -/
def headerLength? : Leaf → Option Nat
  | arp _ => some ArpHeader.size
  | solicitation h _ => some h.length
  | advertisement h _ => some h.length
  | sctp h _ _ => some h.length
  | unknown _ => none
  | malformed _ _ => none

/-- The octets behind the header. -/
def trailer : Leaf → Bytes
  | arp _ => []
  | solicitation _ t => t
  | advertisement _ t => t
  | sctp _ t _ => t
  | unknown data => data
  | malformed data _ => data

/-- The layer on the wire. -/
def toBytes (l : Leaf) : Bytes := l.header?.getD [] ++ l.trailer

/-- Length of the layer. -/
def length (l : Leaf) : Nat := l.headerLength?.getD 0 + l.trailer.length

end Leaf

/-! ## Layers that carry a packet -/

/-- **A layer that can carry a packet**, the packet apart. -/
inductive Carrier where
  /-- A frame, its pad and its frame check sequence. -/
  | ethernet (h : EthernetHeader) (pad : Bytes) (fcs : Option UInt32)
  /-- An IPv6 packet. -/
  | ipv6 (h : Ipv6Header)
  /-- An options header and the octets of its extent that could not be
  read. -/
  | options (kind : OptionsKind) (h : OptionsHeader) (unparsed : Bytes)
  /-- A routing header. -/
  | routing (h : RoutingHeader)
  /-- A fragment header. -/
  | fragment (h : FragmentHeader)
  /-- An ICMPv6 message. -/
  | icmpv6 (h : Icmpv6Header)
  /-- The body of an echo message. -/
  | echo (h : EchoHeader)
  /-- A datagram and the octets behind it. -/
  | udp (h : UdpHeader) (trailer : Bytes)
  /-- A GTP message and the octets behind it. -/
  | gtp (h : GtpHeader) (trailer : Bytes)
  deriving DecidableEq

namespace Carrier

/-- The format of the layer. -/
def format : Carrier → Format
  | ethernet _ _ _ => .ethernet
  | ipv6 _ => .ipv6
  | options kind _ _ => kind.format
  | routing _ => .routing
  | fragment _ => .fragment
  | icmpv6 _ => .icmpv6
  | echo _ => .echo
  | udp _ _ => .udp
  | gtp _ _ => .gtp

/-- The header on the wire. -/
def header : Carrier → Bytes
  | ethernet h _ _ => h.toBytes
  | ipv6 h => h.toBytes
  | options _ h _ => h.toBytes
  | routing h => h.toBytes
  | fragment h => h.toBytes
  | icmpv6 h => h.toBytes
  | echo h => h.toBytes
  | udp h _ => h.toBytes
  | gtp h _ => h.toBytes

/-- Length of the header. -/
def headerLength : Carrier → Nat
  | ethernet _ _ _ => EthernetHeader.size
  | ipv6 _ => Ipv6Header.size
  | options _ h _ => h.length
  | routing h => h.length
  | fragment _ => FragmentHeader.size
  | icmpv6 _ => Icmpv6Header.size
  | echo _ => EchoHeader.size
  | udp _ _ => UdpHeader.size
  | gtp h _ => h.length

/-- The octets between header and payload. -/
def unparsed : Carrier → Bytes
  | options _ _ unparsed => unparsed
  | _ => []

/-- The octets behind the payload. -/
def trailer : Carrier → Bytes
  | ethernet _ pad fcs => pad ++ (fcs.map Bytes.le32).getD []
  | udp _ trailer => trailer
  | gtp _ trailer => trailer
  | _ => []

/-- Number of octets behind the payload. -/
def trailerLength : Carrier → Nat
  | ethernet _ pad fcs => pad.length + (if fcs.isSome then EthernetHeader.fcsSize else 0)
  | udp _ trailer => trailer.length
  | gtp _ trailer => trailer.length
  | _ => 0

end Carrier

/-! ## Chains of layers -/

/-- **A packet.** -/
inductive Packet where
  /-- A layer that carries no packet. -/
  | leaf (l : Leaf)
  /-- A layer that could carry a packet but does not. -/
  | bare (c : Carrier)
  /-- A layer and the packet it carries. -/
  | carry (c : Carrier) (payload : Packet)
  deriving DecidableEq

namespace Packet

/-- Bytes that no decoder claims. -/
def unknown (data : Bytes) : Packet := leaf (.unknown data)

/-- Bytes that a decoder rejects. -/
def malformed (data : Bytes) (reason : DecodeError) : Packet := leaf (.malformed data reason)

/-- A layer over a payload, if there is one. -/
def ofCarrier (c : Carrier) : Option Packet → Packet
  | none => bare c
  | some p => carry c p

/-- The kind of the outermost layer. -/
def kind : Packet → Kind
  | leaf l => l.kind
  | bare c => .format c.format
  | carry c _ => .format c.format

/-- What the outermost layer is called. -/
def name (p : Packet) : String := p.kind.name

/-- The packet that the outermost layer carries. -/
def payload? : Packet → Option Packet
  | carry _ p => some p
  | _ => none

/-- The header of the outermost layer on the wire, if it has one. -/
def header? : Packet → Option Bytes
  | leaf l => l.header?
  | bare c => some c.header
  | carry c _ => some c.header

/-- Length of the header of the outermost layer, if it has one. -/
def headerLength? : Packet → Option Nat
  | leaf l => l.headerLength?
  | bare c => some c.headerLength
  | carry c _ => some c.headerLength

/-- The octets behind the payload of the outermost layer. -/
def trailer : Packet → Bytes
  | leaf l => l.trailer
  | bare c => c.trailer
  | carry c _ => c.trailer

/-- Number of octets behind the payload of the outermost layer. -/
def trailerLength : Packet → Nat
  | leaf l => l.trailer.length
  | bare c => c.trailerLength
  | carry c _ => c.trailerLength

/-- **The packet on the wire.** -/
def toBytes : Packet → Bytes
  | leaf l => l.toBytes
  | bare c => c.header ++ c.unparsed ++ c.trailer
  | carry c p => c.header ++ c.unparsed ++ (p.toBytes ++ c.trailer)

/-- **Number of octets of the packet.** -/
def length : Packet → Nat
  | leaf l => l.length
  | bare c => c.headerLength + c.unparsed.length + c.trailerLength
  | carry c p => c.headerLength + c.unparsed.length + p.length + c.trailerLength

/-- **The layers of the packet**, outermost first: each as the packet
that starts with it. -/
def layers : Packet → List Packet
  | leaf l => [leaf l]
  | bare c => [bare c]
  | carry c p => carry c p :: p.layers

/-! ## Finding layers -/

/-- The first layer that satisfies a test. -/
def find? (p : Packet) (test : Packet → Bool) : Option Packet := p.layers.find? test

/-- The first layer of a kind. -/
def first? (p : Packet) (k : Kind) : Option Packet := p.find? fun l => l.kind == k

/-- Whether there is a layer of a kind. -/
def contains (p : Packet) (k : Kind) : Bool := (p.first? k).isSome

/-- The layer that carries the first layer of a kind. -/
def outerOf? (p : Packet) (k : Kind) : Option Packet :=
  go none p.layers
where
  /-- The same among the layers from some one on, which `outer` carries. -/
  go (outer : Option Packet) : List Packet → Option Packet
    | [] => none
    | l :: rest => if l.kind == k then outer else go (some l) rest

/-! ## Comparing -/

/-- Whether the headers of two packets are the same on the wire, if both
have one. -/
def sameHeader? (p q : Packet) : Option Bool :=
  match p.header?, q.header? with
  | some h, some k => some (h == k)
  | _, _ => none

/-- Whether two packets are of the same kind and the same on the wire. -/
def same (p q : Packet) : Bool := p.kind == q.kind && p.toBytes == q.toBytes

end Packet

end PacketCodec
