import PacketCodec.Bytes.Basic

/-!
# Addresses

Hardware addresses of six octets and the addresses of the two IP
families. A hardware address has a text, six pairs of hexadecimal digits
joined by colons: `MacAddr.text` writes it and `MacAddr.parse?` reads it.
-/

namespace PacketCodec

/-- A six-octet hardware address. -/
abbrev MacAddr := Octets 6

/-- An IPv4 address. -/
abbrev Ipv4Addr := Octets 4

/-- An IPv6 address. -/
abbrev Ipv6Addr := Octets 16

/-- **An IP address of either family.** -/
inductive IpAddr where
  | v4 (addr : Ipv4Addr)
  | v6 (addr : Ipv6Addr)
  deriving DecidableEq

namespace IpAddr

/-- Whether this is an IPv4 address. -/
def isV4 : IpAddr → Bool
  | v4 _ => true
  | v6 _ => false

/-- The IPv4 address of no host in particular. -/
def unspecified : IpAddr := v4 (Octets.zero 4)

end IpAddr

namespace MacAddr

/-- The address of every host on the link. -/
def broadcast : MacAddr := ⟨List.replicate 6 255, rfl⟩

/-- Whether this is the broadcast address. -/
def isBroadcast (a : MacAddr) : Bool := a == broadcast

/-- Whether the group bit, the lowest bit of the first octet, is set. -/
def isMulticast (a : MacAddr) : Bool := a.bytes.headD 0 &&& 1 != 0

/-- Whether the address is of a single host. -/
def isUnicast (a : MacAddr) : Bool := !(a.isBroadcast || a.isMulticast)

/-- The first six octets of `bs` as an address. -/
def ofFront? (bs : Bytes) : Option MacAddr := Octets.ofBytes? 6 (bs.take 6)

/-- The text of an address: a colon between the digits of two octets. -/
def text (a : MacAddr) : String :=
  ":".intercalate (a.bytes.map fun b => Bytes.hex [b])

/-- The octet that two characters denote: two digits, or a plus sign and
one digit. -/
def octet? (c d : Char) : Option UInt8 := do
  let low ← Bytes.digitValue? d
  if c = '+' then return UInt8.ofNat low
  let high ← Bytes.digitValue? c
  return UInt8.ofNat (high * 16 + low)

/-- The address a text denotes: exactly six groups of two characters with
colons between them, each group an octet. -/
def parse? (s : String) : Option MacAddr :=
  match s.toList with
  | [a, b, ':', c, d, ':', e, f, ':', g, h, ':', i, j, ':', k, l] => do
    let o₁ ← octet? a b
    let o₂ ← octet? c d
    let o₃ ← octet? e f
    let o₄ ← octet? g h
    let o₅ ← octet? i j
    let o₆ ← octet? k l
    return ⟨[o₁, o₂, o₃, o₄, o₅, o₆], rfl⟩
  | _ => none

end MacAddr

end PacketCodec
