import PacketCodec.Ethernet
import PacketCodec.Ip
import PacketCodec.Window

/-!
# What a layer carries

A layer that carries a packet does not decode it: it says where the bytes
are and which number selects their decoder. Keeping the two apart is what
lets a layer be read without knowing how its payload will be.
-/

namespace PacketCodec

/-- The type of an ICMPv6 message. -/
abbrev Icmpv6Type := UInt8

/-- A UDP port. -/
abbrev UdpPort := UInt16

/-- **The number that selects the decoder of a payload**, with the space
it is from. -/
inductive Selector where
  /-- The EtherType of a frame. -/
  | etherType (n : EtherType)
  /-- The next header of an IPv6 header. -/
  | ipProtocol (n : IpProtocol)
  | udpPort (n : UdpPort)
  /-- The type of an ICMPv6 message. -/
  | icmpv6Type (n : Icmpv6Type)
  /-- The version nibble of a tunnelled IP packet. -/
  | ipVersion (n : IpVersion)
  deriving DecidableEq

/-- **What follows the header of a layer.** -/
inductive Inner where
  | nothing
  /-- Bytes that are kept without interpretation. -/
  | kept (data : Bytes)
  /-- A window for the decoder that a number selects. -/
  | dispatch (key : Selector) (w : Window)
  deriving DecidableEq

/-- Bytes to be kept, or nothing when there are none. -/
def Inner.keep (data : Bytes) : Inner :=
  if data.isEmpty then nothing else kept data

end PacketCodec
