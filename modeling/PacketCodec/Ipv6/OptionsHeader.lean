import PacketCodec.Elements
import PacketCodec.Inner
import PacketCodec.Ipv6.Option

/-!
# Hop-by-hop and destination options

The two extension headers that carry a list of options. Their length
field counts units of eight octets, the first one not included, so that
the *extent* of a header with length `n` is `(n + 1) * 8` octets.

The options are read until the extent is used up or one of them cannot be
decoded. In the latter case – and when the capture ends before the extent
does – the list is truncated, and the octets of the extent behind the
last option are kept as `unparsed`. The payload starts behind the extent.
-/

namespace PacketCodec

open Violation (ifMissing ifOver ifBad)

/-- The extent of an extension header with that length field. -/
def extensionExtent (hdrExtLen : UInt8) : Nat := (hdrExtLen.toNat + 1) * 8

/-- Which of the two options headers. -/
inductive OptionsKind where
  | hopByHop
  | destination
  deriving DecidableEq

def OptionsKind.protocol : OptionsKind → String
  | hopByHop => "IPv6 Hop-by-Hop Options"
  | destination => "IPv6 Destination Options"

/-- **An options header.** -/
structure OptionsHeader where
  /-- Type of the payload. -/
  nextHeader : IpProtocol
  /-- Declared length in units of eight octets, less one. -/
  hdrExtLen : UInt8
  options : List Ipv6Option
  /-- Whether the list was cut short by an option that cannot be decoded
  or by the end of the capture. -/
  truncated : Bool
  deriving DecidableEq

namespace OptionsHeader

/-- Length of the header: its two octets and the options. -/
def length (h : OptionsHeader) : Nat := 2 + totalSize Ipv6Option.length h.options

/-- The header on the wire, up to the last option. -/
def toBytes (h : OptionsHeader) : Bytes :=
  h.nextHeader :: h.hdrExtLen :: h.options.flatMap Ipv6Option.toBytes

/-- **Reads an options header** off a window: the header, the octets of
its extent behind the last option, and what it carries. -/
def read (kind : OptionsKind) (decode : Window → Except DecodeError Ipv6Option) (w : Window) :
    Except DecodeError (OptionsHeader × Bytes × Inner) :=
  match w.bytes with
  | nextHeader :: hdrExtLen :: rest =>
    let extent := extensionExtent hdrExtLen
    let region : Window := ⟨w.offset + 2, rest.take (extent - 2)⟩
    let (options, cut) := region.elements decode Ipv6Option.length
    let short := decide (w.length < extent)
    let unparsed := region.bytes.drop (totalSize Ipv6Option.length options)
    let inner := if short then .nothing else .dispatch (.ipProtocol nextHeader) (w.after extent)
    .ok ({ nextHeader, hdrExtLen, options, truncated := cut || short }, unparsed, inner)
  | _ => .error (w.tooShort kind.protocol 2)

end OptionsHeader

/-- **An options header under construction**, its payload apart. -/
structure OptionsDraft where
  /-- Type of the payload. Required. -/
  nextHeader : Option IpProtocol := none
  /-- Length in units of eight octets, less one. Required unless the
  length is corrected. -/
  hdrExtLen : Option UInt8 := none
  options : List Ipv6Option := []
  /-- Octets written behind the options, inside the extent. -/
  unparsed : Bytes := []
  /-- Pad the options to a multiple of eight octets and set the length. -/
  correctLength : Bool := false
  deriving DecidableEq

namespace OptionsDraft

/-- Number of octets of the extent before padding. -/
def content (d : OptionsDraft) : Nat :=
  2 + totalSize Ipv6Option.length d.options + d.unparsed.length

/-- The units of eight octets that the content fills, less one. -/
def units (d : OptionsDraft) : Nat := (d.content + 7) / 8 - 1

/-- What is wrong with the draft, its payload apart. -/
def violations (d : OptionsDraft) : List Violation :=
  ifMissing "next_header" d.nextHeader
    ++ d.options.flatMap (fun o => ifOver "option data length" o.dataLength 255)
    ++ (if d.correctLength then ifOver "hdr_ext_len" d.units 255
        else ifMissing "hdr_ext_len" d.hdrExtLen)

/-- The header of a draft that has all its fields. -/
def header (d : OptionsDraft) : OptionsHeader where
  nextHeader := d.nextHeader.getD IpProtocol.noNext
  hdrExtLen := if d.correctLength then UInt8.ofNat d.units else d.hdrExtLen.getD 0
  options :=
    if d.correctLength then
      d.options ++ (Ipv6Option.padding? ((8 - d.content % 8) % 8)).toList
    else d.options
  truncated := false

end OptionsDraft

/-- The draft that has the fields of a header. -/
def OptionsHeader.toDraft (h : OptionsHeader) (unparsed : Bytes) : OptionsDraft where
  nextHeader := h.nextHeader
  hdrExtLen := h.hdrExtLen
  options := h.options
  unparsed := unparsed

end PacketCodec
