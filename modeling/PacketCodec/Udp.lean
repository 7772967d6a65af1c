import PacketCodec.Checksum.Pseudo
import PacketCodec.Inner

/-!
# UDP

Eight octets: two ports, a length that covers header and payload, and a
checksum under the pseudo-header of the addresses. Octets of the window
behind the declared length are kept as a trailer. A length that cannot be
right – shorter than the header or longer than the window – is kept as it
is, and the datagram is taken to fill the window.
-/

namespace PacketCodec

open Violation (ifMissing ifOver ifBad)

/-- The port of GTP user data. -/
def UdpPort.gtpUser : UdpPort := 2152

/-- **The header of a datagram.** -/
structure UdpHeader where
  /-- Source port. -/
  srcPort : UdpPort
  /-- Destination port. -/
  dstPort : UdpPort
  /-- Declared length of the datagram. -/
  lengthField : UInt16
  checksum : UInt16
  deriving DecidableEq

namespace UdpHeader

def protocol : String := "UDP"

/-- Length of the header. -/
def size : Nat := 8

/-- The header on the wire. -/
def toBytes (h : UdpHeader) : Bytes :=
  Bytes.be16 h.srcPort ++ Bytes.be16 h.dstPort ++ Bytes.be16 h.lengthField
    ++ Bytes.be16 h.checksum

/-- A header off the front of a byte string. -/
def read? (bs : Bytes) : Option (UdpHeader × Bytes) := do
  let (srcPort, bs) ← bs.u16?
  let (dstPort, bs) ← bs.u16?
  let (lengthField, bs) ← bs.u16?
  let (checksum, bs) ← bs.u16?
  return ({ srcPort, dstPort, lengthField, checksum }, bs)

/-- The extent of the datagram in a window of `available` octets. -/
def extent (h : UdpHeader) (available : Nat) : Nat :=
  let declared := h.lengthField.toNat
  if size ≤ declared ∧ declared ≤ available then declared else available

/-- The port that selects the decoder of the payload: the destination,
unless only the source is `known`. -/
def selectingPort (h : UdpHeader) (known : UdpPort → Bool) : UdpPort :=
  if !known h.dstPort && known h.srcPort then h.srcPort else h.dstPort

/-- **Reads a datagram** off a window: the header, the trailer, and what
it carries. -/
def read (known : UdpPort → Bool) (w : Window) :
    Except DecodeError (UdpHeader × Bytes × Inner) := do
  let (h, rest) ← w.read protocol size read?
  let body := h.extent w.length - size
  return (h, rest.drop body,
    .dispatch (.udpPort (h.selectingPort known)) ⟨w.offset + size, rest.take body⟩)

/-- The checksum of a datagram in segments between two addresses. There
is none between addresses of different families, nor for a datagram too
long for the pseudo-header. -/
def checksum? (src dst : IpAddr) (length : Nat) (segments : List Bytes) : Option UInt16 :=
  (PseudoHeader.make? src dst IpProtocol.udp length).map fun ph => ph.checksum segments

/-- Whether the checksum in a datagram is right for its addresses. Zero
stands for a checksum that was not computed: whether it is right is up to
`acceptZero`. -/
def verifies (h : UdpHeader) (src dst : IpAddr) (acceptZero : Bool) (datagram : Bytes) : Bool :=
  if h.checksum = 0 then acceptZero
  else checksum? src dst datagram.length [datagram] == some 0

end UdpHeader

/-- **A datagram under construction**, its payload apart. The addresses
are not part of a datagram; they are for its checksum. -/
structure UdpDraft where
  /-- Source port. Required. -/
  srcPort : Option UdpPort := none
  /-- Destination port. Required. -/
  dstPort : Option UdpPort := none
  /-- Length of the datagram. Required unless it is corrected. -/
  lengthField : Option UInt16 := none
  /-- Checksum. Required unless it is corrected. -/
  checksum : Option UInt16 := none
  /-- Source address. Required to correct the checksum. -/
  src : Option IpAddr := none
  /-- Destination address. Required to correct the checksum. -/
  dst : Option IpAddr := none
  /-- Set the length to that of the built datagram. -/
  correctLength : Bool := false
  /-- Compute the checksum. -/
  correctChecksum : Bool := false
  deriving DecidableEq

namespace UdpDraft

/-- The source address, or what stands in for one that is missing. -/
def srcOrNone (d : UdpDraft) : IpAddr := d.src.getD IpAddr.unspecified

/-- The destination address, or what stands in for one that is
missing. -/
def dstOrNone (d : UdpDraft) : IpAddr := d.dst.getD IpAddr.unspecified

/-- What is wrong with the draft, its payload apart. -/
def violations (d : UdpDraft) : List Violation :=
  ifMissing "src_port" d.srcPort ++ ifMissing "dst_port" d.dstPort
    ++ (if d.correctLength then [] else ifMissing "length" d.lengthField)
    ++ (if d.correctChecksum then
          ifMissing "src_addr" d.src ++ ifMissing "dst_addr" d.dst
            ++ ifBad (d.srcOrNone.isV4 != d.dstOrNone.isV4) "dst_addr" "address families differ"
        else ifMissing "checksum" d.checksum)

/-- The header over a payload, unless its length is to be corrected and
does not fit. A checksum that comes out as zero is stored as its other
form, since zero is for no checksum. -/
def header (d : UdpDraft) (payload : Bytes) : Except BuildError UdpHeader := do
  let total := UdpHeader.size + payload.length
  if d.correctLength then
    BuildError.check UdpHeader.protocol (ifOver "length" total (UInt16.size - 1))
  let h : UdpHeader :=
    { srcPort := d.srcPort.getD 0
      dstPort := d.dstPort.getD 0
      lengthField := if d.correctLength then UInt16.ofNat total else d.lengthField.getD 0
      checksum := if d.correctChecksum then 0 else d.checksum.getD 0 }
  if d.correctChecksum then
    let sum := UdpHeader.checksum? d.srcOrNone d.dstOrNone total [h.toBytes, payload]
    let sum := sum.getD 0
    return { h with checksum := if sum = 0 then 0xffff else sum }
  return h

end UdpDraft

/-- The draft that has the fields of a header. -/
def UdpHeader.toDraft (h : UdpHeader) : UdpDraft where
  srcPort := h.srcPort
  dstPort := h.dstPort
  lengthField := h.lengthField
  checksum := h.checksum

end PacketCodec
