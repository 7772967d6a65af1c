import PacketCodec.Checksum.Adler
import PacketCodec.Checksum.Crc
import PacketCodec.Elements
import PacketCodec.Number
import PacketCodec.Settings

/-!
# SCTP

Twelve octets – two ports, a verification tag and a checksum – and a list
of chunks. A chunk is a type, flags, a length that covers itself without
its padding, a value, and padding that aligns the next chunk to four
octets; at the end of a capture some of the padding may be missing.
Octets behind the last chunk that can be decoded are kept as a trailer.

The checksum is CRC-32C, stored least significant octet first, or in
older packets Adler-32, stored most significant octet first. It covers
the packet with its own field cleared.
-/

namespace PacketCodec

open Violation (ifMissing ifOver ifBad)

/-! ## Chunks -/

/-- The type of a chunk. -/
abbrev SctpChunkType := UInt8

/-- The named chunk types. -/
def SctpChunkType.space : NumberSpace where
  title := "SctpChunkType"
  assigned := [(0, "DATA"), (1, "INIT"), (2, "INIT_ACK"), (3, "SACK"), (4, "HEARTBEAT"),
    (5, "HEARTBEAT_ACK"), (6, "ABORT"), (7, "SHUTDOWN"), (8, "SHUTDOWN_ACK"), (9, "ERROR"),
    (10, "COOKIE_ECHO"), (11, "COOKIE_ACK"), (14, "SHUTDOWN_COMPLETE")]

/-- The text of a chunk type. -/
def SctpChunkType.label (t : SctpChunkType) : String := space.label t.toNat

/-- **A chunk.** -/
structure SctpChunk where
  chunkType : SctpChunkType
  flags : UInt8
  /-- Declared length of the chunk without its padding. -/
  lengthField : UInt16
  value : Bytes
  /-- The octets that align the next chunk. -/
  padding : Bytes
  deriving DecidableEq

namespace SctpChunk

def protocol : String := "SCTP chunk"

/-- Length of a chunk without value and padding. -/
def headSize : Nat := 4

/-- Number of octets that align `n` octets to four. -/
def paddingFor (n : Nat) : Nat := (4 - n % 4) % 4

/-- A chunk with that value, its length and zero padding. A length that
does not fit into its field is cut to the largest that does. -/
def ofValue (chunkType : SctpChunkType) (flags : UInt8) (value : Bytes) : SctpChunk where
  chunkType := chunkType
  flags := flags
  lengthField := UInt16.ofNat (min (headSize + value.length) (UInt16.size - 1))
  value := value
  padding := Bytes.zeros (paddingFor value.length)

/-- Number of octets on the wire. -/
def length (c : SctpChunk) : Nat := headSize + c.value.length + c.padding.length

/-- The chunk on the wire. -/
def toBytes (c : SctpChunk) : Bytes :=
  c.chunkType :: c.flags :: Bytes.be16 c.lengthField ++ c.value ++ c.padding

/-- Reads the chunk at the front of a window. -/
def decode (w : Window) : Except DecodeError SctpChunk :=
  match w.bytes with
  | chunkType :: flags :: high :: low :: rest =>
    let declared := Bytes.beNat [high, low]
    if declared < headSize then .error (w.invalid protocol 2 "chunk length" declared)
    else
      match Bytes.split? rest (declared - headSize) with
      | none => .error (w.inconsistent protocol 2 "chunk length" declared)
      | some (value, behind) =>
        .ok { chunkType, flags, lengthField := UInt16.ofNat declared, value
              padding := behind.take (paddingFor declared) }
  | _ => .error (w.tooShort protocol headSize)

end SctpChunk

/-! ## Packets -/

/-- **The header of a packet with its chunks.** -/
structure SctpHeader where
  /-- Source port. -/
  srcPort : UInt16
  /-- Destination port. -/
  dstPort : UInt16
  verificationTag : UInt32
  /-- The checksum field, read in network order. -/
  checksum : UInt32
  chunks : List SctpChunk
  /-- Whether the list was cut short by a chunk that cannot be decoded. -/
  truncated : Bool
  deriving DecidableEq

namespace SctpHeader

def protocol : String := "SCTP"

/-- Length of the header without its chunks. -/
def size : Nat := 12

/-- Position of the checksum field. -/
def checksumAt : Nat := 8

/-- Length of the header with its chunks. -/
def length (h : SctpHeader) : Nat := size + totalSize SctpChunk.length h.chunks

/-- The header on the wire, with its chunks. -/
def toBytes (h : SctpHeader) : Bytes :=
  Bytes.be16 h.srcPort ++ Bytes.be16 h.dstPort ++ Bytes.be32 h.verificationTag
    ++ Bytes.be32 h.checksum ++ h.chunks.flatMap SctpChunk.toBytes

/-- The fixed fields off the front of a byte string. -/
def fixed? (bs : Bytes) : Option ((UInt16 × UInt16 × UInt32 × UInt32) × Bytes) := do
  let (srcPort, bs) ← bs.u16?
  let (dstPort, bs) ← bs.u16?
  let (verificationTag, bs) ← bs.u32?
  let (checksum, bs) ← bs.u32?
  return ((srcPort, dstPort, verificationTag, checksum), bs)

/-- **Reads a packet** off a window: the header with its chunks, and the
octets behind the last chunk. -/
def read (w : Window) : Except DecodeError (SctpHeader × Bytes) := do
  let ((srcPort, dstPort, verificationTag, checksum), rest) ← w.read protocol size fixed?
  let region : Window := ⟨w.offset + size, rest⟩
  let (chunks, truncated) := region.elements SctpChunk.decode SctpChunk.length
  return ({ srcPort, dstPort, verificationTag, checksum, chunks, truncated },
    rest.drop (totalSize SctpChunk.length chunks))

end SctpHeader

namespace SctpChecksum

/-- The octets of a packet with its checksum field cleared. A string too
short to have the field is left as it is. -/
def cleared (packet : Bytes) : Bytes :=
  if SctpHeader.checksumAt + 4 ≤ packet.length then
    packet.take SctpHeader.checksumAt ++ Bytes.zeros 4 ++ packet.drop (SctpHeader.checksumAt + 4)
  else packet

/-- What the checksum field of a packet has to hold. -/
def fieldFor (algorithm : SctpChecksum) (packet : Bytes) : UInt32 :=
  match algorithm with
  | crc32c => UInt32.ofNat (Bytes.beNat (Bytes.le32 (Checksum.crc32c (cleared packet))))
  | adler32 => Checksum.adler32 (cleared packet)

/-- Whether the checksum field of a packet holds what it has to. Zero is
right too if `acceptZero` says so. -/
def verifies (algorithm : SctpChecksum) (field : UInt32) (acceptZero : Bool) (packet : Bytes) :
    Bool :=
  if field = 0 ∧ acceptZero then true else algorithm.fieldFor packet == field

end SctpChecksum

/-- **A packet under construction.** -/
structure SctpDraft where
  /-- Source port. Required. -/
  srcPort : Option UInt16 := none
  /-- Destination port. Required. -/
  dstPort : Option UInt16 := none
  /-- Verification tag. Required. -/
  verificationTag : Option UInt32 := none
  /-- Checksum. Required unless it is corrected. -/
  checksum : Option UInt32 := none
  chunks : List SctpChunk := []
  /-- The algorithm of the checksum; the one of the settings if unset. -/
  algorithm : Option SctpChecksum := none
  /-- Compute the checksum. -/
  correctChecksum : Bool := false
  deriving DecidableEq

namespace SctpDraft

/-- What is wrong with the draft. -/
def violations (d : SctpDraft) : List Violation :=
  ifMissing "src_port" d.srcPort ++ ifMissing "dst_port" d.dstPort
    ++ ifMissing "verification_tag" d.verificationTag
    ++ (if d.correctChecksum then [] else ifMissing "checksum" d.checksum)
    ++ d.chunks.flatMap (fun c =>
        ifOver "chunk length" (SctpChunk.headSize + c.value.length) (UInt16.size - 1))

/-- The draft with one more chunk, behind the others. -/
def addChunk (d : SctpDraft) (c : SctpChunk) : SctpDraft := { d with chunks := d.chunks ++ [c] }

/-- The algorithm in effect: that of the draft, or else the one of the
settings. -/
def algorithmOrDefault (d : SctpDraft) (settings : Settings := {}) : SctpChecksum :=
  d.algorithm.getD settings.sctpChecksum

/-- The header with a given checksum. -/
def headerWith (d : SctpDraft) (checksum : UInt32) : SctpHeader where
  srcPort := d.srcPort.getD 0
  dstPort := d.dstPort.getD 0
  verificationTag := d.verificationTag.getD 0
  checksum := checksum
  chunks := d.chunks
  truncated := false

/-- The header of a draft that has all its fields. -/
def header (d : SctpDraft) (settings : Settings := {}) : SctpHeader :=
  if d.correctChecksum then
    d.headerWith ((d.algorithmOrDefault settings).fieldFor (d.headerWith 0).toBytes)
  else d.headerWith (d.checksum.getD 0)

end SctpDraft

/-- The draft that has the fields of a packet. -/
def SctpHeader.toDraft (h : SctpHeader) (algorithm : SctpChecksum) : SctpDraft where
  srcPort := h.srcPort
  dstPort := h.dstPort
  verificationTag := h.verificationTag
  checksum := h.checksum
  chunks := h.chunks
  algorithm := algorithm

end PacketCodec
