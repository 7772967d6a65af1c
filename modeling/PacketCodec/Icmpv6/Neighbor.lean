import PacketCodec.Elements
import PacketCodec.Icmpv6.NdpOption

/-!
# Neighbor solicitations and advertisements

The bodies of the two messages that resolve addresses in IPv6: twenty
octets and a list of options. An advertisement has three flags where a
solicitation has reserved bits only. Octets behind the last option that
can be decoded are kept as a trailer.
-/

namespace PacketCodec

open Violation (ifMissing ifOver ifBad)

/-- Length of both bodies without their options. -/
def neighborFixedSize : Nat := 20

/-- The options in a region, whether the list was cut short, and the
octets behind the last of them. -/
def readNdpOptions (decode : Window → Except DecodeError NdpOption) (region : Window) :
    List NdpOption × Bool × Bytes :=
  let (options, cut) := region.elements decode NdpOption.length
  (options, cut, region.bytes.drop (totalSize NdpOption.length options))

/-- What is wrong with a list of options. -/
def ndpOptionViolations (options : List NdpOption) : List Violation :=
  options.flatMap fun o =>
    ifBad (o.length % 8 != 0) "option length" "not a multiple of 8 octets"
      ++ ifOver "option length" (o.length / 8) 255

/-! ## Solicitations -/

/-- **A neighbor solicitation.** -/
structure SolicitationHeader where
  /-- The reserved word. -/
  reserved : UInt32
  /-- The address whose link-layer address is asked for. -/
  target : Ipv6Addr
  options : List NdpOption
  /-- Whether the list was cut short by an option that cannot be
  decoded. -/
  truncated : Bool
  deriving DecidableEq

namespace SolicitationHeader

def protocol : String := "NDP Neighbor Solicitation"

/-- Length of the body up to the last option. -/
def length (h : SolicitationHeader) : Nat :=
  neighborFixedSize + totalSize NdpOption.length h.options

/-- The body on the wire, up to the last option. -/
def toBytes (h : SolicitationHeader) : Bytes :=
  Bytes.be32 h.reserved ++ h.target.bytes ++ h.options.flatMap NdpOption.toBytes

/-- The fixed fields off the front of a byte string. -/
def fixed? (bs : Bytes) : Option ((UInt32 × Ipv6Addr) × Bytes) := do
  let (reserved, bs) ← bs.u32?
  let (target, bs) ← Octets.take? 16 bs
  return ((reserved, target), bs)

/-- **Reads a solicitation** off a window: the body and the octets behind
its last option. -/
def read (decode : Window → Except DecodeError NdpOption) (w : Window) :
    Except DecodeError (SolicitationHeader × Bytes) := do
  let ((reserved, target), _) ← w.read protocol neighborFixedSize fixed?
  let (options, truncated, trailer) := readNdpOptions decode (w.after neighborFixedSize)
  return ({ reserved, target, options, truncated }, trailer)

end SolicitationHeader

/-- **A solicitation under construction.** -/
structure SolicitationDraft where
  /-- The reserved word. -/
  reserved : UInt32 := 0
  /-- The address whose link-layer address is asked for. Required. -/
  target : Option Ipv6Addr := none
  options : List NdpOption := []
  /-- Octets behind the options. -/
  trailer : Bytes := []
  deriving DecidableEq

/-- What is wrong with the draft. -/
def SolicitationDraft.violations (d : SolicitationDraft) : List Violation :=
  ifMissing "target_addr" d.target ++ ndpOptionViolations d.options

/-- The body of a draft that has all its fields. -/
def SolicitationDraft.header (d : SolicitationDraft) : SolicitationHeader where
  reserved := d.reserved
  target := d.target.getD (Octets.zero 16)
  options := d.options
  truncated := false

/-- The draft that has the fields of a solicitation. -/
def SolicitationHeader.toDraft (h : SolicitationHeader) (trailer : Bytes) : SolicitationDraft where
  reserved := h.reserved
  target := h.target
  options := h.options
  trailer := trailer

/-! ## Advertisements -/

/-- **A neighbor advertisement.** -/
structure AdvertisementHeader where
  /-- Whether the sender is a router. -/
  router : Bool
  /-- Whether it answers a solicitation. -/
  solicited : Bool
  /-- Whether it overrides what is known already. -/
  overrides : Bool
  /-- The 29 reserved bits. -/
  reserved : UInt32
  /-- The address whose link-layer address is told. -/
  target : Ipv6Addr
  options : List NdpOption
  /-- Whether the list was cut short by an option that cannot be
  decoded. -/
  truncated : Bool
  deriving DecidableEq

namespace AdvertisementHeader

def protocol : String := "NDP Neighbor Advertisement"

/-- The router flag in the first word. -/
def routerBit : BitField := BitField.flag 31

/-- The solicited flag in the first word. -/
def solicitedBit : BitField := BitField.flag 30

/-- The override flag in the first word. -/
def overrideBit : BitField := BitField.flag 29

/-- The reserved bits in the first word. -/
def reservedBits : BitField := { shift := 0, width := 29 }

/-- The first word. -/
def firstWord (h : AdvertisementHeader) : UInt32 :=
  reservedBits.put
    (overrideBit.putFlag (solicitedBit.putFlag (routerBit.putFlag 0 h.router) h.solicited)
      h.overrides)
    h.reserved

/-- Length of the body up to the last option. -/
def length (h : AdvertisementHeader) : Nat :=
  neighborFixedSize + totalSize NdpOption.length h.options

/-- The body on the wire, up to the last option. -/
def toBytes (h : AdvertisementHeader) : Bytes :=
  Bytes.be32 h.firstWord ++ h.target.bytes ++ h.options.flatMap NdpOption.toBytes

/-- **Reads an advertisement** off a window: the body and the octets
behind its last option. -/
def read (decode : Window → Except DecodeError NdpOption) (w : Window) :
    Except DecodeError (AdvertisementHeader × Bytes) := do
  let ((word, target), _) ← w.read protocol neighborFixedSize SolicitationHeader.fixed?
  let (options, truncated, trailer) := readNdpOptions decode (w.after neighborFixedSize)
  return ({ router := routerBit.isSet word
            solicited := solicitedBit.isSet word
            overrides := overrideBit.isSet word
            reserved := reservedBits.get word
            target, options, truncated }, trailer)

end AdvertisementHeader

/-- **An advertisement under construction.** -/
structure AdvertisementDraft where
  /-- Whether the sender is a router. -/
  router : Bool := false
  /-- Whether it answers a solicitation. -/
  solicited : Bool := false
  /-- Whether it overrides what is known already. -/
  overrides : Bool := false
  /-- The 29 reserved bits. -/
  reserved : UInt32 := 0
  /-- The address whose link-layer address is told. Required. -/
  target : Option Ipv6Addr := none
  options : List NdpOption := []
  /-- Octets behind the options. -/
  trailer : Bytes := []
  deriving DecidableEq

/-- What is wrong with the draft. -/
def AdvertisementDraft.violations (d : AdvertisementDraft) : List Violation :=
  ifMissing "target_addr" d.target
    ++ ifOver "reserved" d.reserved.toNat AdvertisementHeader.reservedBits.max.toNat
    ++ ndpOptionViolations d.options

/-- The body of a draft that has all its fields. -/
def AdvertisementDraft.header (d : AdvertisementDraft) : AdvertisementHeader where
  router := d.router
  solicited := d.solicited
  overrides := d.overrides
  reserved := d.reserved
  target := d.target.getD (Octets.zero 16)
  options := d.options
  truncated := false

/-- The draft that has the fields of an advertisement. -/
def AdvertisementHeader.toDraft (h : AdvertisementHeader) (trailer : Bytes) :
    AdvertisementDraft where
  router := h.router
  solicited := h.solicited
  overrides := h.overrides
  reserved := h.reserved
  target := h.target
  options := h.options
  trailer := trailer

end PacketCodec
