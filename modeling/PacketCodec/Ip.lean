import PacketCodec.Number

/-!
# Numbers of the Internet protocols

The protocol numbers shared by both versions of IP – next headers, in the
terms of IPv6 – and the version nibble that every IP packet starts with.
-/

namespace PacketCodec

/-- The protocol of the payload of an IP packet. -/
abbrev IpProtocol := UInt8

namespace IpProtocol

/-- Hop-by-hop options. -/
def hopByHop : IpProtocol := 0

/-- UDP. -/
def udp : IpProtocol := 17

/-- IPv6, tunnelled. -/
def ipv6 : IpProtocol := 41

/-- An IPv6 routing header. -/
def routing : IpProtocol := 43

/-- An IPv6 fragment header. -/
def fragment : IpProtocol := 44

/-- ICMPv6. -/
def icmpv6 : IpProtocol := 58

/-- Nothing follows. -/
def noNext : IpProtocol := 59

/-- IPv6 destination options. -/
def destinationOptions : IpProtocol := 60

/-- SCTP. -/
def sctp : IpProtocol := 132

/-- The named protocols. -/
def space : NumberSpace where
  title := "IpProtocol"
  assigned := [(0, "HOPOPT"), (1, "ICMP"), (6, "TCP"), (17, "UDP"), (41, "IPV6"),
    (43, "IPV6_ROUTE"), (44, "IPV6_FRAG"), (58, "ICMPV6"), (59, "IPV6_NO_NXT"),
    (60, "IPV6_OPTS"), (132, "SCTP")]

/-- The text of a protocol. -/
def label (t : IpProtocol) : String := space.label t.toNat

end IpProtocol

/-- The version of an IP packet. -/
abbrev IpVersion := UInt8

namespace IpVersion

/-- Version 6. -/
def v6 : IpVersion := 6

/-- The named versions. -/
def space : NumberSpace where
  title := "IpVersion"
  assigned := [(4, "V4"), (6, "V6")]

/-- The text of a version. -/
def label (t : IpVersion) : String := space.label t.toNat

end IpVersion

end PacketCodec
