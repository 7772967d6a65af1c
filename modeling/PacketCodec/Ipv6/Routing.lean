import PacketCodec.Ipv6.OptionsHeader

/-!
# Routing headers

The IPv6 extension header that lists places to visit. Its first four
octets are the next header, the length field, the routing type and the
number of segments left; the rest depends on the type. Type 0 is a
reserved word and a list of addresses, any other type is kept as bytes.
Unlike an options header, a routing header must lie in the window as a
whole.
-/

namespace PacketCodec

open Violation (ifMissing ifOver ifBad)

/-- The type of a routing header. -/
abbrev RoutingType := UInt8

namespace RoutingType

/-- The plain source route. -/
def type0 : RoutingType := 0

/-- The named routing types. -/
def space : NumberSpace where
  title := "Ipv6RoutingType"
  assigned := [(0, "TYPE0"), (2, "TYPE2"), (3, "RPL"), (4, "SRH")]

/-- The text of a routing type. -/
def label (t : RoutingType) : String := space.label t.toNat

end RoutingType

/-- **The part of a routing header that depends on its type.** -/
inductive RoutingData where
  /-- A source route: the reserved word and the addresses. -/
  | type0 (reserved : UInt32) (addresses : List Ipv6Addr)
  /-- Everything behind the segments left of any other type. -/
  | unknown (routingType : RoutingType) (data : Bytes)
  deriving DecidableEq

namespace RoutingData

/-- The routing type. -/
def routingType : RoutingData → RoutingType
  | type0 _ _ => RoutingType.type0
  | unknown t _ => t

/-- Number of octets on the wire. -/
def length : RoutingData → Nat
  | type0 _ addresses => 4 + 16 * addresses.length
  | unknown _ data => data.length

/-- The data on the wire. -/
def toBytes : RoutingData → Bytes
  | type0 reserved addresses => Bytes.be32 reserved ++ addresses.flatMap Octets.bytes
  | unknown _ data => data

/-- `n` addresses off the front of a byte string. -/
def addresses? : Nat → Bytes → Option (List Ipv6Addr × Bytes)
  | 0, bs => some ([], bs)
  | n + 1, bs => do
    let (a, bs) ← Octets.take? 16 bs
    let (more, bs) ← addresses? n bs
    return (a :: more, bs)

/-- A source route of `n` addresses off the front of a byte string. -/
def type0? (n : Nat) (bs : Bytes) : Option (RoutingData × Bytes) := do
  let (reserved, bs) ← bs.u32?
  let (addresses, bs) ← addresses? n bs
  return (type0 reserved addresses, bs)

end RoutingData

/-- **A routing header.** -/
structure RoutingHeader where
  /-- Type of the payload. -/
  nextHeader : IpProtocol
  /-- Length in units of eight octets, less one. -/
  hdrExtLen : UInt8
  /-- Number of segments left. -/
  segmentsLeft : UInt8
  /-- The part that depends on the type. -/
  data : RoutingData
  deriving DecidableEq

namespace RoutingHeader

def protocol : String := "IPv6 Routing"

/-- Length of the header. -/
def length (h : RoutingHeader) : Nat := 4 + h.data.length

/-- The header on the wire. -/
def toBytes (h : RoutingHeader) : Bytes :=
  [h.nextHeader, h.hdrExtLen, h.data.routingType, h.segmentsLeft] ++ h.data.toBytes

/-- The part that depends on the type, from the octets of the header
behind the first four. -/
def readData (w : Window) (hdrExtLen : UInt8) (t : RoutingType) (data : Bytes) :
    Except DecodeError RoutingData :=
  if t = RoutingType.type0 then
    if hdrExtLen % 2 = 1 then .error (w.invalid protocol 1 "hdr_ext_len" hdrExtLen.toNat)
    else
      match RoutingData.type0? (hdrExtLen.toNat / 2) data with
      | some (route, _) => .ok route
      | none => .error (w.tooShort protocol (extensionExtent hdrExtLen))
  else .ok (.unknown t data)

/-- **Reads a routing header** off a window: the header and what it
carries. -/
def read (w : Window) : Except DecodeError (RoutingHeader × Inner) :=
  match w.bytes with
  | nextHeader :: hdrExtLen :: t :: segmentsLeft :: rest =>
    let extent := extensionExtent hdrExtLen
    match Bytes.split? rest (extent - 4) with
    | none => .error (w.inconsistent protocol 0 "hdr_ext_len" extent)
    | some (front, _) => do
      let data ← readData w hdrExtLen t front
      return ({ nextHeader, hdrExtLen, segmentsLeft, data },
        .dispatch (.ipProtocol nextHeader) (w.after extent))
  | _ => .error (w.tooShort protocol 4)

end RoutingHeader

/-- **A routing header under construction**, its payload apart. -/
structure RoutingDraft where
  /-- Type of the payload. Required. -/
  nextHeader : Option IpProtocol := none
  /-- Length in units of eight octets, less one. Required unless the
  length is corrected. -/
  hdrExtLen : Option UInt8 := none
  /-- Number of segments left. Required. -/
  segmentsLeft : Option UInt8 := none
  /-- The part that depends on the type. Required. -/
  data : Option RoutingData := none
  /-- Set the length from the data. -/
  correctLength : Bool := false
  deriving DecidableEq

namespace RoutingDraft

/-- The data, or what stands in for data that is missing. -/
def dataOrNone (d : RoutingDraft) : RoutingData := d.data.getD (.unknown RoutingType.type0 [])

/-- Length of the header. -/
def length (d : RoutingDraft) : Nat := 4 + d.dataOrNone.length

/-- The units of eight octets that the header fills, less one. -/
def units (d : RoutingDraft) : Nat := d.length / 8 - 1

/-- What is wrong with the draft, its payload apart. -/
def violations (d : RoutingDraft) : List Violation :=
  ifMissing "next_header" d.nextHeader ++ ifMissing "segments_left" d.segmentsLeft
    ++ ifMissing "data" d.data
    ++ (if d.correctLength then
          ifBad (d.length % 8 != 0) "data" "length is not a multiple of 8 octets"
            ++ ifOver "hdr_ext_len" d.units 255
        else ifMissing "hdr_ext_len" d.hdrExtLen)

/-- The header of a draft that has all its fields. -/
def header (d : RoutingDraft) : RoutingHeader where
  nextHeader := d.nextHeader.getD IpProtocol.noNext
  hdrExtLen := if d.correctLength then UInt8.ofNat d.units else d.hdrExtLen.getD 0
  segmentsLeft := d.segmentsLeft.getD 0
  data := d.dataOrNone

end RoutingDraft

/-- The draft that has the fields of a header. -/
def RoutingHeader.toDraft (h : RoutingHeader) : RoutingDraft where
  nextHeader := h.nextHeader
  hdrExtLen := h.hdrExtLen
  segmentsLeft := h.segmentsLeft
  data := h.data

end PacketCodec
