import PacketCodec.Packet.Basic
import PacketCodec.Registry

/-!
# Decoders

The decoders that numbers select, a registry for each number space. What
a space holds depends on the space: its numbers have a width, and its
decoders read packets or elements of some kind. `DecoderSpace` names the
spaces, and `Decoders.registry` is the registry of a given one.
-/

namespace PacketCodec

/-! ## Decoders -/

/-- **What decodes a payload.** -/
inductive PacketDecoder where
  /-- The decoder of a format. -/
  | format (f : Format)
  /-- Keeps the bytes as they are. -/
  | unknown
  /-- A decoder from elsewhere, with the name that errors about its
  window carry. It is told how many more layers may be decoded below. -/
  | custom (name : String) (decode : (left : Nat) → Window → Except DecodeError Packet)

/-- **The decoders of every number space.** -/
structure Decoders where
  /-- Payloads of frames, by EtherType. -/
  etherTypes : Registry EtherType PacketDecoder
  /-- Payloads of IPv6 and its extension headers, by next header. -/
  ipProtocols : Registry IpProtocol PacketDecoder
  /-- Payloads of datagrams, by port. -/
  udpPorts : Registry UdpPort PacketDecoder
  /-- Bodies of ICMPv6 messages, by type. -/
  icmpv6Types : Registry Icmpv6Type PacketDecoder
  /-- Tunnelled IP packets, by version. -/
  ipVersions : Registry IpVersion PacketDecoder
  /-- Options of IPv6 options headers, by type. -/
  ipv6Options : Registry Ipv6OptionType (Window → Except DecodeError Ipv6Option)
  /-- Neighbor discovery options, by type. -/
  ndpOptions : Registry NdpOptionType (Window → Except DecodeError NdpOption)
  /-- GTP extension headers, by type. -/
  gtpExtensions : Registry GtpExtensionType (Window → Except DecodeError GtpExtension)

namespace Decoders

/-- No decoder for any number: all bytes are kept as they are, and all
elements are of an unknown type. -/
def none : Decoders where
  etherTypes := .empty "EtherType" .unknown
  ipProtocols := .empty "IpProtocol" .unknown
  udpPorts := .empty "UdpPort" .unknown
  icmpv6Types := .empty "Icmpv6MsgType" .unknown
  ipVersions := .empty "IpVersion" .unknown
  ipv6Options := .empty "Ipv6OptionType" Ipv6Option.decodeUnknown
  ndpOptions := .empty "NdpOptionType" NdpOption.decodeUnknown
  gtpExtensions := .empty "GtpExtensionType" GtpExtension.decodeUnknown

/-- The decoders of this library, each for the numbers assigned to its
format. -/
def standard : Decoders where
  etherTypes := none.etherTypes
    |>.register EtherType.arp (.format .arp)
    |>.register EtherType.ipv6 (.format .ipv6)
  ipProtocols := none.ipProtocols
    |>.register IpProtocol.hopByHop (.format .hopByHop)
    |>.register IpProtocol.routing (.format .routing)
    |>.register IpProtocol.fragment (.format .fragment)
    |>.register IpProtocol.destinationOptions (.format .destination)
    |>.register IpProtocol.ipv6 (.format .ipv6)
    |>.register IpProtocol.icmpv6 (.format .icmpv6)
    |>.register IpProtocol.udp (.format .udp)
    |>.register IpProtocol.sctp (.format .sctp)
  udpPorts := none.udpPorts
    |>.register UdpPort.gtpUser (.format .gtp)
  icmpv6Types := none.icmpv6Types
    |>.register Icmpv6Type.echoRequest (.format .echo)
    |>.register Icmpv6Type.echoReply (.format .echo)
    |>.register Icmpv6Type.neighborSolicitation (.format .solicitation)
    |>.register Icmpv6Type.neighborAdvertisement (.format .advertisement)
  ipVersions := none.ipVersions
    |>.register IpVersion.v6 (.format .ipv6)
  ipv6Options := none.ipv6Options
    |>.register Ipv6OptionType.pad1 Ipv6Option.decodePad1
    |>.register Ipv6OptionType.padN Ipv6Option.decodePadN
    |>.register Ipv6OptionType.routerAlert Ipv6Option.decodeRouterAlert
  ndpOptions := none.ndpOptions
    |>.register NdpOptionType.sourceLinkAddr NdpOption.decodeSourceLinkAddr
    |>.register NdpOptionType.targetLinkAddr NdpOption.decodeTargetLinkAddr
    |>.register NdpOptionType.prefixInfo NdpOption.decodePrefixInfo
    |>.register NdpOptionType.mtu NdpOption.decodeMtu
  gtpExtensions := none.gtpExtensions
    |>.register GtpExtensionType.udpPort GtpExtension.decodeUdpPort
    |>.register GtpExtensionType.pduNumber GtpExtension.decodePduNumber
    |>.register GtpExtensionType.longPduNumber GtpExtension.decodeLongPduNumber
    |>.register GtpExtensionType.longPduNumber₂ GtpExtension.decodeLongPduNumber
    |>.register GtpExtensionType.serviceClassIndicator GtpExtension.decodeServiceClassIndicator
    |>.register GtpExtensionType.pduSessionContainer GtpExtension.decodePduSessionContainer

/-- The decoder that a number selects. -/
def select (d : Decoders) : Selector → PacketDecoder
  | .etherType n => d.etherTypes.get n
  | .ipProtocol n => d.ipProtocols.get n
  | .udpPort n => d.udpPorts.get n
  | .icmpv6Type n => d.icmpv6Types.get n
  | .ipVersion n => d.ipVersions.get n

/-- Reads the IPv6 option at the front of a window by its type. -/
def ipv6Option (d : Decoders) (w : Window) : Except DecodeError Ipv6Option :=
  d.ipv6Options.get (w.bytes.headD 0) w

/-- Reads the neighbor discovery option at the front of a window by its
type. -/
def ndpOption (d : Decoders) (w : Window) : Except DecodeError NdpOption :=
  d.ndpOptions.get (w.bytes.headD 0) w

/-- Reads the GTP extension header of a given type at the front of a
window. -/
def gtpExtension (d : Decoders) (t : GtpExtensionType) (w : Window) :
    Except DecodeError GtpExtension :=
  d.gtpExtensions.get t w

end Decoders

/-! ## Decoders by space -/

/-- **The number spaces that select decoders.** -/
inductive DecoderSpace where
  | etherType
  | ipProtocol
  | udpPort
  | icmpv6Type
  | ipVersion
  | ipv6Option
  | ndpOption
  | gtpExtension
  deriving DecidableEq

namespace DecoderSpace

/-- The numbers of a space. -/
def Number : DecoderSpace → Type
  | etherType => EtherType
  | ipProtocol => IpProtocol
  | udpPort => UdpPort
  | icmpv6Type => Icmpv6Type
  | ipVersion => IpVersion
  | ipv6Option => Ipv6OptionType
  | ndpOption => NdpOptionType
  | gtpExtension => GtpExtensionType

/-- What the decoders of a space make. -/
def Value : DecoderSpace → Type
  | etherType | ipProtocol | udpPort | icmpv6Type | ipVersion => Packet
  | ipv6Option => Ipv6Option
  | ndpOption => NdpOption
  | gtpExtension => GtpExtension

/-- The decoders of a space. -/
def Decoder : DecoderSpace → Type
  | etherType | ipProtocol | udpPort | icmpv6Type | ipVersion => PacketDecoder
  | ipv6Option => Window → Except DecodeError Ipv6Option
  | ndpOption => Window → Except DecodeError NdpOption
  | gtpExtension => Window → Except DecodeError GtpExtension

instance : (s : DecoderSpace) → DecidableEq s.Number
  | etherType => inferInstanceAs (DecidableEq UInt16)
  | ipProtocol => inferInstanceAs (DecidableEq UInt8)
  | udpPort => inferInstanceAs (DecidableEq UInt16)
  | icmpv6Type => inferInstanceAs (DecidableEq UInt8)
  | ipVersion => inferInstanceAs (DecidableEq UInt8)
  | ipv6Option => inferInstanceAs (DecidableEq UInt8)
  | ndpOption => inferInstanceAs (DecidableEq UInt8)
  | gtpExtension => inferInstanceAs (DecidableEq UInt8)

/-- The number of a space with that value, as far as the space has room
for it. -/
def number : (s : DecoderSpace) → Nat → s.Number
  | etherType, n => UInt16.ofNat n
  | ipProtocol, n => UInt8.ofNat n
  | udpPort, n => UInt16.ofNat n
  | icmpv6Type, n => UInt8.ofNat n
  | ipVersion, n => UInt8.ofNat n
  | ipv6Option, n => UInt8.ofNat n
  | ndpOption, n => UInt8.ofNat n
  | gtpExtension, n => UInt8.ofNat n

/-- The text of a number. Ports have no names. -/
def label : (s : DecoderSpace) → s.Number → String
  | etherType, n => EtherType.label n
  | ipProtocol, n => IpProtocol.label n
  | udpPort, n => toString (UInt16.toNat n)
  | icmpv6Type, n => Icmpv6Type.label n
  | ipVersion, n => IpVersion.label n
  | ipv6Option, n => Ipv6OptionType.label n
  | ndpOption, n => NdpOptionType.label n
  | gtpExtension, n => GtpExtensionType.label n

/-- The decoder that takes any bytes, and any type of element. -/
def unknown : (s : DecoderSpace) → s.Decoder
  | etherType | ipProtocol | udpPort | icmpv6Type | ipVersion => PacketDecoder.unknown
  | ipv6Option => Ipv6Option.decodeUnknown
  | ndpOption => NdpOption.decodeUnknown
  | gtpExtension => GtpExtension.decodeUnknown

/-- The decoder of a format, for a space whose numbers select packets. -/
def ofFormat? (f : Format) : (s : DecoderSpace) → Option s.Decoder
  | etherType | ipProtocol | udpPort | icmpv6Type | ipVersion => some (PacketDecoder.format f)
  | ipv6Option | ndpOption | gtpExtension => none

/-- A number as what selects the decoder of a payload, for a space whose
numbers select packets. -/
def selector? : (s : DecoderSpace) → s.Number → Option Selector
  | etherType, n => some (.etherType n)
  | ipProtocol, n => some (.ipProtocol n)
  | udpPort, n => some (.udpPort n)
  | icmpv6Type, n => some (.icmpv6Type n)
  | ipVersion, n => some (.ipVersion n)
  | ipv6Option, _ | ndpOption, _ | gtpExtension, _ => none

end DecoderSpace

namespace Decoders

/-- **The registry of a space.** -/
def registry (d : Decoders) : (s : DecoderSpace) → Registry s.Number s.Decoder
  | .etherType => d.etherTypes
  | .ipProtocol => d.ipProtocols
  | .udpPort => d.udpPorts
  | .icmpv6Type => d.icmpv6Types
  | .ipVersion => d.ipVersions
  | .ipv6Option => d.ipv6Options
  | .ndpOption => d.ndpOptions
  | .gtpExtension => d.gtpExtensions

/-- The decoders with another registry for a space. -/
def setRegistry (d : Decoders) : (s : DecoderSpace) → Registry s.Number s.Decoder → Decoders
  | .etherType, r => { d with etherTypes := r }
  | .ipProtocol, r => { d with ipProtocols := r }
  | .udpPort, r => { d with udpPorts := r }
  | .icmpv6Type, r => { d with icmpv6Types := r }
  | .ipVersion, r => { d with ipVersions := r }
  | .ipv6Option, r => { d with ipv6Options := r }
  | .ndpOption, r => { d with ndpOptions := r }
  | .gtpExtension, r => { d with gtpExtensions := r }

end Decoders

end PacketCodec
