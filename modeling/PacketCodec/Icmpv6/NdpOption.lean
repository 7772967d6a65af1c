import PacketCodec.Address
import PacketCodec.Bits
import PacketCodec.Number
import PacketCodec.Window

/-!
# Neighbor discovery options

The options at the end of a neighbor discovery message: a type octet, a
length octet counting units of eight octets, and data. The length covers
the two octets in front, so it is never zero.
-/

namespace PacketCodec

/-- The type of a neighbor discovery option. -/
abbrev NdpOptionType := UInt8

namespace NdpOptionType

/-- Link-layer address of the source. -/
def sourceLinkAddr : NdpOptionType := 1

/-- Link-layer address of the target. -/
def targetLinkAddr : NdpOptionType := 2

/-- Prefix information. -/
def prefixInfo : NdpOptionType := 3

/-- MTU. -/
def mtu : NdpOptionType := 5

/-- The named option types. -/
def space : NumberSpace where
  title := "NdpOptionType"
  assigned := [(1, "SRC_LINK_ADDR"), (2, "DST_LINK_ADDR"), (3, "PREFIX_INFO"),
    (4, "REDIRECTED_HDR"), (5, "MTU")]

/-- The text of an option type. -/
def label (t : NdpOptionType) : String := space.label t.toNat

end NdpOptionType

/-- **A prefix that hosts may use**, with what they may use it for. -/
structure PrefixInfo where
  /-- Number of bits of the prefix that count. -/
  prefixLen : UInt8
  /-- Whether its addresses are on the link. -/
  onLink : Bool
  /-- Whether hosts may configure addresses from it. -/
  autonomous : Bool
  /-- The six reserved bits behind the flags. -/
  reserved1 : UInt8
  /-- Seconds for which it is valid. -/
  validLifetime : UInt32
  /-- Seconds for which its addresses are preferred. -/
  preferredLifetime : UInt32
  /-- The reserved word before the prefix. -/
  reserved2 : UInt32
  /-- The prefix. -/
  network : Ipv6Addr
  deriving DecidableEq

namespace PrefixInfo

/-- The on-link flag in its octet. -/
def onLinkBit : BitField := BitField.flag 7

/-- The autonomous flag in its octet. -/
def autonomousBit : BitField := BitField.flag 6

/-- The reserved bits in the octet of the flags. -/
def reservedBits : BitField := { shift := 0, width := 6 }

/-- The octet that packs the flags and the reserved bits. -/
def flags (i : PrefixInfo) : UInt32 :=
  reservedBits.put (autonomousBit.putFlag (onLinkBit.putFlag 0 i.onLink) i.autonomous)
    i.reserved1.toUInt32

/-- The information on the wire. -/
def toBytes (i : PrefixInfo) : Bytes :=
  [i.prefixLen, i.flags.toUInt8] ++ Bytes.be32 i.validLifetime ++ Bytes.be32 i.preferredLifetime
    ++ Bytes.be32 i.reserved2 ++ i.network.bytes

/-- The information off the front of a byte string. -/
def read? (bs : Bytes) : Option (PrefixInfo × Bytes) := do
  let (prefixLen, bs) ← bs.u8?
  let (flags, bs) ← bs.u8?
  let (validLifetime, bs) ← bs.u32?
  let (preferredLifetime, bs) ← bs.u32?
  let (reserved2, bs) ← bs.u32?
  let (network, bs) ← Octets.take? 16 bs
  let flags := flags.toUInt32
  return ({ prefixLen
            onLink := onLinkBit.isSet flags
            autonomous := autonomousBit.isSet flags
            reserved1 := (reservedBits.get flags).toUInt8
            validLifetime, preferredLifetime, reserved2, network }, bs)

end PrefixInfo

/-- **A neighbor discovery option.** -/
inductive NdpOption where
  /-- Link-layer address of the source, with any padding. -/
  | sourceLinkAddr (data : Bytes)
  /-- Link-layer address of the target, with any padding. -/
  | targetLinkAddr (data : Bytes)
  /-- Prefix information. -/
  | prefixInfo (info : PrefixInfo)
  /-- The MTU of the link, behind sixteen reserved bits. -/
  | mtu (reserved : UInt16) (value : UInt32)
  /-- An option of any other type. -/
  | unknown (optionType : NdpOptionType) (data : Bytes)
  deriving DecidableEq

namespace NdpOption

def protocol : String := "NDP option"

/-- Length of a prefix information option. -/
def prefixInfoSize : Nat := 32

/-- Length of an MTU option. -/
def mtuSize : Nat := 8

/-- The type octet. -/
def optionType : NdpOption → NdpOptionType
  | sourceLinkAddr _ => NdpOptionType.sourceLinkAddr
  | targetLinkAddr _ => NdpOptionType.targetLinkAddr
  | prefixInfo _ => NdpOptionType.prefixInfo
  | mtu _ _ => NdpOptionType.mtu
  | unknown t _ => t

/-- The link-layer address, when the option holds one that is at least as
long as a hardware address. -/
def macAddr? : NdpOption → Option MacAddr
  | sourceLinkAddr data => MacAddr.ofFront? data
  | targetLinkAddr data => MacAddr.ofFront? data
  | _ => none

/-- Number of octets on the wire. -/
def length : NdpOption → Nat
  | sourceLinkAddr data => 2 + data.length
  | targetLinkAddr data => 2 + data.length
  | prefixInfo _ => prefixInfoSize
  | mtu _ _ => mtuSize
  | unknown _ data => 2 + data.length

/-- What follows the type and the length. -/
def content : NdpOption → Bytes
  | sourceLinkAddr data => data
  | targetLinkAddr data => data
  | prefixInfo info => info.toBytes
  | mtu reserved value => Bytes.be16 reserved ++ Bytes.be32 value
  | unknown _ data => data

/-- The option on the wire. The length octet counts whole units. -/
def toBytes (o : NdpOption) : Bytes :=
  o.optionType :: UInt8.ofNat (o.length / 8) :: o.content

/-! ## Decoding -/

/-- Type, number of units and data of the option at the front of a
window. -/
def typeAndData (w : Window) : Except DecodeError (NdpOptionType × UInt8 × Bytes) :=
  match w.bytes with
  | t :: units :: rest =>
    if units = 0 then .error (w.invalid protocol 1 "option length" 0)
    else
      match Bytes.split? rest (units.toNat * 8 - 2) with
      | some (data, _) => .ok (t, units, data)
      | none => .error (w.inconsistent protocol 1 "option length" (units.toNat * 8))
  | _ => .error (w.tooShort protocol 2)

/-- Reads the link-layer address of the source. -/
def decodeSourceLinkAddr (w : Window) : Except DecodeError NdpOption := do
  let (_, _, data) ← typeAndData w
  return sourceLinkAddr data

/-- Reads the link-layer address of the target. -/
def decodeTargetLinkAddr (w : Window) : Except DecodeError NdpOption := do
  let (_, _, data) ← typeAndData w
  return targetLinkAddr data

/-- Reads prefix information, which has one length only. -/
def decodePrefixInfo (w : Window) : Except DecodeError NdpOption := do
  let (_, units, data) ← typeAndData w
  match PrefixInfo.read? data with
  | some (info, []) => return prefixInfo info
  | _ => throw (w.invalid protocol 1 "prefix information length" units.toNat)

/-- Reads an MTU, which has one length only. -/
def decodeMtu (w : Window) : Except DecodeError NdpOption := do
  let (_, units, data) ← typeAndData w
  let fields? := do
    let (reserved, bs) ← data.u16?
    let (value, bs) ← bs.u32?
    return (reserved, value, bs)
  match fields? with
  | some (reserved, value, []) => return mtu reserved value
  | _ => throw (w.invalid protocol 1 "MTU option length" units.toNat)

/-- Reads an option of any type. -/
def decodeUnknown (w : Window) : Except DecodeError NdpOption := do
  let (t, _, data) ← typeAndData w
  return unknown t data

end NdpOption

end PacketCodec
