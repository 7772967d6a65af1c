import PacketCodec.Bits
import PacketCodec.Inner

/-!
# Fragment headers

The IPv6 extension header of a fragment: eight octets, of which one word
packs the offset of the fragment, two reserved bits and the flag that
more fragments follow. Only the first fragment starts with a header of
its own, so the payload of any other is kept without interpretation.
-/

namespace PacketCodec

open Violation (ifMissing ifOver ifBad)

/-- **A fragment header.** -/
structure FragmentHeader where
  /-- Type of the payload. -/
  nextHeader : IpProtocol
  /-- The reserved octet. -/
  reserved : UInt8
  /-- Offset of the fragment, in units of eight octets, of thirteen
  bits. -/
  fragOffset : UInt16
  /-- The two reserved bits. -/
  res : UInt8
  /-- Whether more fragments follow. -/
  moreFrags : Bool
  /-- The number that all fragments of a packet share. -/
  identification : UInt32
  deriving DecidableEq

namespace FragmentHeader

def protocol : String := "IPv6 Fragment"

/-- Length of the header. -/
def size : Nat := 8

/-- The offset in the word of the header. -/
def fragOffsetBits : BitField := { shift := 3, width := 13 }

/-- The reserved bits in the word of the header. -/
def resBits : BitField := { shift := 1, width := 2 }

/-- The flag in the word of the header. -/
def moreFragsBit : BitField := BitField.flag 0

/-- The word that packs offset, reserved bits and flag. -/
def word (h : FragmentHeader) : UInt32 :=
  moreFragsBit.putFlag
    (resBits.put (fragOffsetBits.put 0 h.fragOffset.toUInt32) h.res.toUInt32) h.moreFrags

/-- The header on the wire. -/
def toBytes (h : FragmentHeader) : Bytes :=
  [h.nextHeader, h.reserved] ++ Bytes.be16 h.word.toUInt16 ++ Bytes.be32 h.identification

/-- A header off the front of a byte string. -/
def read? (bs : Bytes) : Option (FragmentHeader × Bytes) := do
  let (nextHeader, bs) ← bs.u8?
  let (reserved, bs) ← bs.u8?
  let (word, bs) ← bs.u16?
  let (identification, bs) ← bs.u32?
  let word := word.toUInt32
  return ({ nextHeader, reserved
            fragOffset := (fragOffsetBits.get word).toUInt16
            res := (resBits.get word).toUInt8
            moreFrags := moreFragsBit.isSet word
            identification }, bs)

/-- **Reads a fragment header** off a window: the header and what it
carries. -/
def read (w : Window) : Except DecodeError (FragmentHeader × Inner) := do
  let (h, rest) ← w.read protocol size read?
  let inner :=
    if h.fragOffset = 0 then .dispatch (.ipProtocol h.nextHeader) (w.after size)
    else .keep rest
  return (h, inner)

end FragmentHeader

/-- **A fragment header under construction**, its payload apart. -/
structure FragmentDraft where
  /-- Type of the payload. Required. -/
  nextHeader : Option IpProtocol := none
  /-- The reserved octet. -/
  reserved : UInt8 := 0
  /-- Offset of the fragment. Required. -/
  fragOffset : Option UInt16 := none
  /-- The two reserved bits. -/
  res : UInt8 := 0
  /-- Whether more fragments follow. Required. -/
  moreFrags : Option Bool := none
  /-- The number that all fragments of a packet share. Required. -/
  identification : Option UInt32 := none
  deriving DecidableEq

namespace FragmentDraft

/-- What is wrong with the draft, its payload apart. -/
def violations (d : FragmentDraft) : List Violation :=
  ifMissing "next_header" d.nextHeader
    ++ ifMissing "frag_offset" d.fragOffset
    ++ ifOver "frag_offset" (d.fragOffset.getD 0).toNat FragmentHeader.fragOffsetBits.max.toNat
    ++ ifOver "res" d.res.toNat FragmentHeader.resBits.max.toNat
    ++ ifMissing "more_frags" d.moreFrags ++ ifMissing "identification" d.identification

/-- The header of a draft that has all its fields. -/
def header (d : FragmentDraft) : FragmentHeader where
  nextHeader := d.nextHeader.getD IpProtocol.noNext
  reserved := d.reserved
  fragOffset := d.fragOffset.getD 0
  res := d.res
  moreFrags := d.moreFrags.getD false
  identification := d.identification.getD 0

end FragmentDraft

/-- The draft that has the fields of a header. -/
def FragmentHeader.toDraft (h : FragmentHeader) : FragmentDraft where
  nextHeader := h.nextHeader
  reserved := h.reserved
  fragOffset := h.fragOffset
  res := h.res
  moreFrags := h.moreFrags
  identification := h.identification

end PacketCodec
