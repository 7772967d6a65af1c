import PacketCodec.Elements
import PacketCodec.Gtp.Extension
import PacketCodec.Inner

/-!
# GTP messages

Eight octets – flags, message type, length and tunnel – and, when any of
three flags is set, four more: a sequence number, a number of the packet
unit, and the type of the first extension header. A chain of extension
headers follows if the extension flag is set, then the payload. The
length counts everything behind the first eight octets; octets of the
window behind it are kept as a trailer.

The payload of a message that carries user data is an IP packet, told
apart by its version nibble. Any other payload is kept as it is, and so
is what follows a chain that was cut short.
-/

namespace PacketCodec

open Violation (ifMissing ifOver ifBad)

/-- The type of a message. -/
abbrev GtpMessageType := UInt8

namespace GtpMessageType

/-- User data. -/
def gPdu : GtpMessageType := 255

/-- The named message types. -/
def space : NumberSpace where
  title := "GtpV1MsgType"
  assigned := [(1, "ECHO_REQUEST"), (2, "ECHO_RESPONSE"), (26, "ERROR_INDICATION"),
    (31, "SUPPORTED_EXT_HEADERS_NOTIFICATION"), (254, "END_MARKER"), (255, "G_PDU")]

/-- The text of a message type. -/
def label (t : GtpMessageType) : String := space.label t.toNat

end GtpMessageType

/-- **The header of a message with its extension headers.** The sequence
number, the packet unit number and the first extension type are on the
wire when any of the flags `extFlag`, `seqFlag` and `npduFlag` is set. -/
structure GtpHeader where
  /-- The version, of three bits. -/
  version : UInt8
  /-- Whether this is the user variant of the protocol. -/
  protocolType : Bool
  /-- The reserved bit. -/
  reserved : Bool
  /-- Whether extension headers follow. -/
  extFlag : Bool
  /-- Whether the sequence number means something. -/
  seqFlag : Bool
  /-- Whether the packet unit number means something. -/
  npduFlag : Bool
  /-- Type of the message. -/
  messageType : GtpMessageType
  /-- Declared length behind the first eight octets. -/
  lengthField : UInt16
  /-- The tunnel. -/
  teid : UInt32
  sequenceNumber : UInt16
  /-- Number of the packet unit. -/
  npduNumber : UInt8
  /-- Type of the first extension header. -/
  nextExtType : GtpExtensionType
  /-- The extension headers. -/
  extensions : List GtpExtension
  /-- The type behind the last extension header. -/
  chainTail : GtpExtensionType
  /-- Whether the chain was cut short by an extension header that cannot
  be decoded. -/
  truncated : Bool
  deriving DecidableEq

namespace GtpHeader

def protocol : String := "GTPv1"

/-- Length of the part that every message has. -/
def size : Nat := 8

/-- Length of the part that the flags call for. -/
def optionalSize : Nat := 4

/-- The version in the octet of the flags. -/
def versionBits : BitField := { shift := 5, width := 3 }

/-- The protocol type in the octet of the flags. -/
def protocolTypeBit : BitField := BitField.flag 4

/-- The reserved bit in the octet of the flags. -/
def reservedBit : BitField := BitField.flag 3

/-- The extension flag. -/
def extBit : BitField := BitField.flag 2

/-- The sequence number flag. -/
def seqBit : BitField := BitField.flag 1

/-- The packet unit number flag. -/
def npduBit : BitField := BitField.flag 0

/-- Whether the optional part is there. -/
def hasOptional (h : GtpHeader) : Bool := h.extFlag || h.seqFlag || h.npduFlag

/-- The sequence number, if it means something. -/
def sequenceNumber? (h : GtpHeader) : Option UInt16 :=
  if h.seqFlag then some h.sequenceNumber else none

/-- The packet unit number, if it means something. -/
def npduNumber? (h : GtpHeader) : Option UInt8 :=
  if h.npduFlag then some h.npduNumber else none

/-- The octet that packs the version and the flags. -/
def flags (h : GtpHeader) : UInt32 :=
  npduBit.putFlag
    (seqBit.putFlag
      (extBit.putFlag
        (reservedBit.putFlag
          (protocolTypeBit.putFlag (versionBits.put 0 h.version.toUInt32) h.protocolType)
          h.reserved)
        h.extFlag)
      h.seqFlag)
    h.npduFlag

/-- Length of the header with its extension headers. -/
def length (h : GtpHeader) : Nat :=
  size + (if h.hasOptional then optionalSize else 0)
    + totalSize GtpExtension.length h.extensions

/-- The optional part on the wire, if it is there. -/
def optionalBytes (h : GtpHeader) : Bytes :=
  if h.hasOptional then Bytes.be16 h.sequenceNumber ++ [h.npduNumber, h.nextExtType] else []

/-- The header on the wire, with its extension headers. -/
def toBytes (h : GtpHeader) : Bytes :=
  [h.flags.toUInt8, h.messageType] ++ Bytes.be16 h.lengthField ++ Bytes.be32 h.teid
    ++ h.optionalBytes ++ chainBytes h.chainTail h.extensions

/-! ## Decoding -/

/-- The part that every message has, off the front of a byte string, with
nothing in the other fields. -/
def mandatory? (bs : Bytes) : Option (GtpHeader × Bytes) := do
  let (flags, bs) ← bs.u8?
  let (messageType, bs) ← bs.u8?
  let (lengthField, bs) ← bs.u16?
  let (teid, bs) ← bs.u32?
  let flags := flags.toUInt32
  return ({ version := (versionBits.get flags).toUInt8
            protocolType := protocolTypeBit.isSet flags
            reserved := reservedBit.isSet flags
            extFlag := extBit.isSet flags
            seqFlag := seqBit.isSet flags
            npduFlag := npduBit.isSet flags
            messageType, lengthField, teid
            sequenceNumber := 0
            npduNumber := 0
            nextExtType := GtpExtensionType.noMore
            extensions := []
            chainTail := GtpExtensionType.noMore
            truncated := false }, bs)

/-- The header with the optional part filled in off the front of a byte
string, if its flags call for one. -/
def optional? (h : GtpHeader) (bs : Bytes) : Option (GtpHeader × Bytes) :=
  if h.hasOptional then do
    let (sequenceNumber, bs) ← bs.u16?
    let (npduNumber, bs) ← bs.u8?
    let (nextExtType, bs) ← bs.u8?
    return ({ h with sequenceNumber, npduNumber, nextExtType }, bs)
  else some (h, bs)

/-- The header with the extension headers of a region filled in, if its
flags call for them. -/
def withChain (h : GtpHeader)
    (decode : GtpExtensionType → Window → Except DecodeError GtpExtension) (region : Window) :
    GtpHeader :=
  if h.extFlag then
    let chain := readChain decode h.nextExtType region
    { h with
      extensions := chain.extensions
      chainTail := chain.tail
      truncated := chain.truncated }
  else h

/-- What a message with that header carries. -/
def inner (h : GtpHeader) (payload : Window) : Inner :=
  match payload.bytes with
  | [] => .nothing
  | first :: _ =>
    if h.messageType = GtpMessageType.gPdu ∧ !h.truncated then
      .dispatch (.ipVersion (first >>> 4)) payload
    else .kept payload.bytes

/-- **Reads a message** off a window: the header with its extension
headers, the trailer, and what it carries. -/
def read (decode : GtpExtensionType → Window → Except DecodeError GtpExtension) (w : Window) :
    Except DecodeError (GtpHeader × Bytes × Inner) := do
  let (h, rest) ← w.read protocol size mandatory?
  match h.optional? rest with
  | none => throw (w.tooShort protocol (size + optionalSize))
  | some (h, rest) =>
    let front := size + (if h.hasOptional then optionalSize else 0)
    let body := min (size + h.lengthField.toNat) w.length - front
    let region : Window := ⟨w.offset + front, rest.take body⟩
    let h := h.withChain decode region
    let payload := region.after (totalSize GtpExtension.length h.extensions)
    return (h, rest.drop body, h.inner payload)

end GtpHeader

/-- **A message under construction**, its payload apart. -/
structure GtpDraft where
  version : UInt8 := 1
  /-- Whether this is the user variant of the protocol. -/
  protocolType : Bool := true
  /-- The reserved bit. -/
  reserved : Bool := false
  /-- Whether extension headers follow. By default they do if there are
  any. -/
  extFlag : Option Bool := none
  /-- Whether the sequence number means something. -/
  seqFlag : Bool := false
  /-- Whether the packet unit number means something. -/
  npduFlag : Bool := false
  /-- Type of the message. Required. -/
  messageType : Option GtpMessageType := none
  /-- Length behind the first eight octets. Required unless it is
  corrected. -/
  lengthField : Option UInt16 := none
  /-- The tunnel. Required. -/
  teid : Option UInt32 := none
  sequenceNumber : UInt16 := 0
  /-- Number of the packet unit. -/
  npduNumber : UInt8 := 0
  /-- Type of the first extension header, for a message that has none. -/
  nextExtType : Option GtpExtensionType := none
  /-- The extension headers. -/
  extensions : List GtpExtension := []
  /-- The type behind the last extension header. -/
  chainTail : GtpExtensionType := GtpExtensionType.noMore
  /-- Octets behind the message. -/
  trailer : Bytes := []
  /-- Set the length to that of the built message. -/
  correctLength : Bool := false
  deriving DecidableEq

namespace GtpDraft

/-- Whether the extension flag is set. -/
def extFlagOrDefault (d : GtpDraft) : Bool := d.extFlag.getD !d.extensions.isEmpty

/-- The draft with a sequence number that means something. -/
def withSequenceNumber (d : GtpDraft) (n : UInt16) : GtpDraft :=
  { d with sequenceNumber := n, seqFlag := true }

/-- The draft with a packet unit number that means something. -/
def withNpduNumber (d : GtpDraft) (n : UInt8) : GtpDraft :=
  { d with npduNumber := n, npduFlag := true }

/-- What is wrong with the draft, its payload apart. -/
def violations (d : GtpDraft) : List Violation :=
  ifOver "version" d.version.toNat GtpHeader.versionBits.max.toNat
    ++ ifMissing "message_type" d.messageType ++ ifMissing "teid" d.teid
    ++ (if d.correctLength then [] else ifMissing "length" d.lengthField)
    ++ ifBad (!d.extFlagOrDefault && !d.extensions.isEmpty) "ext_flag"
        "extension headers need the E flag"
    ++ d.extensions.flatMap (fun e =>
        ifBad (e.length % 4 != 0) "extension length" "not a multiple of 4 octets"
          ++ ifOver "extension length" (e.length / 4) 255)

/-- The header with a given length. -/
def headerWith (d : GtpDraft) (lengthField : UInt16) : GtpHeader where
  version := d.version
  protocolType := d.protocolType
  reserved := d.reserved
  extFlag := d.extFlagOrDefault
  seqFlag := d.seqFlag
  npduFlag := d.npduFlag
  messageType := d.messageType.getD GtpMessageType.gPdu
  lengthField := lengthField
  teid := d.teid.getD 0
  sequenceNumber := d.sequenceNumber
  npduNumber := d.npduNumber
  nextExtType :=
    (d.extensions.head?.map GtpExtension.extensionType).getD
      (d.nextExtType.getD GtpExtensionType.noMore)
  extensions := d.extensions
  chainTail := d.chainTail
  truncated := false

/-- The header over a payload of `length` octets, unless its length is to
be corrected and does not fit. -/
def header (d : GtpDraft) (length : Nat) : Except BuildError GtpHeader :=
  if d.correctLength then do
    let total := (d.headerWith 0).length - GtpHeader.size + length
    BuildError.check GtpHeader.protocol (ifOver "length" total (UInt16.size - 1))
    return d.headerWith (UInt16.ofNat total)
  else .ok (d.headerWith (d.lengthField.getD 0))

end GtpDraft

/-- The draft that has the fields of a message. -/
def GtpHeader.toDraft (h : GtpHeader) (trailer : Bytes) : GtpDraft where
  version := h.version
  protocolType := h.protocolType
  reserved := h.reserved
  extFlag := h.extFlag
  seqFlag := h.seqFlag
  npduFlag := h.npduFlag
  messageType := h.messageType
  lengthField := h.lengthField
  teid := h.teid
  sequenceNumber := h.sequenceNumber
  npduNumber := h.npduNumber
  nextExtType := h.nextExtType
  extensions := h.extensions
  chainTail := h.chainTail
  trailer := trailer

end PacketCodec
