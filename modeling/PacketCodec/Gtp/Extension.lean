import PacketCodec.Gtp.SessionInfo
import PacketCodec.Number
import PacketCodec.Window

/-!
# GTP extension headers

An extension header is a length octet counting units of four octets, a
content, and the type of the extension header behind it: the type of an
extension is told by what comes before it. So `GtpExtension.toBytes`
takes the type that follows, and reading a chain of them, `readChain`,
starts from the type of the first and ends with the type that says that
there are no more, or with one that cannot be decoded.
-/

namespace PacketCodec

/-- The type of an extension header. -/
abbrev GtpExtensionType := UInt8

namespace GtpExtensionType

/-- No more extension headers. -/
def noMore : GtpExtensionType := 0x00

/-- Long PDU number. -/
def longPduNumber : GtpExtensionType := 0x03

/-- Service class indicator. -/
def serviceClassIndicator : GtpExtensionType := 0x20

/-- UDP port. -/
def udpPort : GtpExtensionType := 0x40

/-- Long PDU number, by its second number. -/
def longPduNumber₂ : GtpExtensionType := 0x82

/-- PDU session container. -/
def pduSessionContainer : GtpExtensionType := 0x85

/-- PDU number. -/
def pduNumber : GtpExtensionType := 0xc0

/-- The named extension types. -/
def space : NumberSpace where
  title := "GtpExtensionType"
  assigned := [(0x00, "NO_MORE"), (0x03, "LONG_PDU_NUMBER"), (0x20, "SERVICE_CLASS_INDICATOR"),
    (0x40, "UDP_PORT"), (0x81, "RAN_CONTAINER"), (0x82, "LONG_PDU_NUMBER_2"),
    (0x83, "XW_RAN_CONTAINER"), (0x84, "NR_RAN_CONTAINER"), (0x85, "PDU_SESSION_CONTAINER"),
    (0xc0, "PDU_NUMBER")]

/-- The text of an extension type. -/
def label (t : GtpExtensionType) : String := space.label t.toNat

end GtpExtensionType

/-- **An extension header**, without the type of what follows it. -/
inductive GtpExtension where
  /-- UDP port of the message that triggered this one. -/
  | udpPort (value : UInt16)
  | pduNumber (value : UInt16)
  /-- Long PDU number: which of its two type numbers, the 24 bits that
  hold the number, and spare octets. -/
  | longPduNumber (extensionType : GtpExtensionType) (number : UInt32) (spare : Octets 3)
  /-- Service class indicator and a spare octet. -/
  | serviceClassIndicator (sci spare : UInt8)
  /-- PDU session container: the information and the octets up to the
  end of the last unit. -/
  | pduSessionContainer (info : SessionInfo) (padding : Bytes)
  /-- An extension header of any other type. -/
  | unknown (extensionType : GtpExtensionType) (content : Bytes)
  deriving DecidableEq

namespace GtpExtension

def protocol : String := "GTPv1 extension"

/-- What the content of a PDU session container is called. -/
def containerProtocol : String := "PDU session container"

/-- Number of units of four octets that a content of `n` octets needs,
with the length octet and the type behind it. -/
def unitsFor (n : Nat) : Nat := (n + 2 + 3) / 4

/-- A PDU session container with the zero padding that it needs. -/
def ofSessionInfo (info : SessionInfo) : GtpExtension :=
  pduSessionContainer info (Bytes.zeros (unitsFor info.length * 4 - 2 - info.length))

/-- The type that announces the extension header. -/
def extensionType : GtpExtension → GtpExtensionType
  | udpPort _ => GtpExtensionType.udpPort
  | pduNumber _ => GtpExtensionType.pduNumber
  | longPduNumber t _ _ => t
  | serviceClassIndicator _ _ => GtpExtensionType.serviceClassIndicator
  | pduSessionContainer _ _ => GtpExtensionType.pduSessionContainer
  | unknown t _ => t

/-- The extension header as announced by that type, for those that go by
several. -/
def withType (t : GtpExtensionType) : GtpExtension → GtpExtension
  | longPduNumber _ number spare => longPduNumber t number spare
  | unknown _ content => unknown t content
  | e => e

/-- Number of octets of the content. -/
def contentLength : GtpExtension → Nat
  | udpPort _ => 2
  | pduNumber _ => 2
  | longPduNumber _ _ _ => 6
  | serviceClassIndicator _ _ => 2
  | pduSessionContainer info padding => info.length + padding.length
  | unknown _ content => content.length

/-- Number of octets on the wire, with the length octet and the type of
what follows. -/
def length (e : GtpExtension) : Nat := e.contentLength + 2

/-- The content on the wire. -/
def content : GtpExtension → Bytes
  | udpPort value => Bytes.be16 value
  | pduNumber value => Bytes.be16 value
  | longPduNumber _ number spare => Bytes.be24 number ++ spare.bytes
  | serviceClassIndicator sci spare => [sci, spare]
  | pduSessionContainer info padding => info.toBytes ++ padding
  | unknown _ content => content

/-- The extension header on the wire, with the type of what follows. The
length octet counts whole units. -/
def toBytes (next : GtpExtensionType) (e : GtpExtension) : Bytes :=
  UInt8.ofNat (e.length / 4) :: e.content ++ [next]

/-! ## Decoding -/

/-- The content of an extension header that is always `units` units
long. -/
def fixedContent (w : Window) (units : Nat) : Except DecodeError Bytes :=
  match w.bytes with
  | [] => .error (w.tooShort protocol 1)
  | declared :: rest =>
    if declared.toNat ≠ units then
      .error (w.invalid protocol 0 "extension length" declared.toNat)
    else
      match Bytes.split? rest (units * 4 - 1) with
      | some (front, _) => .ok (front.take (units * 4 - 2))
      | none => .error (w.tooShort protocol (units * 4))

/-- Reads an extension header of one unit whose content is a word. -/
def decodeWord (make : UInt16 → GtpExtension) (w : Window) : Except DecodeError GtpExtension := do
  let content ← fixedContent w 1
  match content.u16? with
  | some (value, _) => return make value
  | none => throw (w.tooShort protocol 4)

/-- Reads a UDP port. -/
def decodeUdpPort : Window → Except DecodeError GtpExtension := decodeWord udpPort

/-- Reads a PDU number. -/
def decodePduNumber : Window → Except DecodeError GtpExtension := decodeWord pduNumber

/-- Reads a service class indicator. -/
def decodeServiceClassIndicator (w : Window) : Except DecodeError GtpExtension := do
  let content ← fixedContent w 1
  match content with
  | [sci, spare] => return serviceClassIndicator sci spare
  | _ => throw (w.tooShort protocol 4)

/-- Reads a long PDU number. -/
def decodeLongPduNumber (w : Window) : Except DecodeError GtpExtension := do
  let content ← fixedContent w 2
  let fields? := do
    let (number, bs) ← content.u24?
    let (spare, _) ← Octets.take? 3 bs
    return (number, spare)
  match fields? with
  | some (number, spare) => return longPduNumber GtpExtensionType.longPduNumber number spare
  | none => throw (w.tooShort protocol 8)

/-- The session information at the front of a window, and what is behind
it. Both the first two octets and all that their flags call for have to
be there. -/
def readSessionInfo (w : Window) : Except DecodeError (SessionInfo × Bytes) :=
  let content := w.after 1
  match content.bytes with
  | [] => .error (w.tooShort protocol 2)
  | first :: rest =>
    let type := pduTypeBits.get first.toUInt32
    if type ≠ DownlinkInfo.pduType ∧ type ≠ UplinkInfo.pduType then
      .error (w.invalid protocol 1 "PDU type" type.toNat)
    else
      match rest with
      | [] => .error (content.tooShort containerProtocol 2)
      | second :: rest =>
        let b₀ := first.toUInt32
        let b₁ := second.toUInt32
        if type = DownlinkInfo.pduType then
          match DownlinkInfo.fields? b₀ b₁ rest with
          | some (info, rest) => .ok (.downlink info, rest)
          | none => .error (content.tooShort containerProtocol (DownlinkInfo.lengthFor b₀ b₁))
        else
          match UplinkInfo.fields? b₀ b₁ rest with
          | some (info, rest) => .ok (.uplink info, rest)
          | none => .error (content.tooShort containerProtocol (UplinkInfo.lengthFor b₀ b₁))

/-- Reads a PDU session container. Its length octet has to be the one
that the information needs. -/
def decodePduSessionContainer (w : Window) : Except DecodeError GtpExtension :=
  match w.bytes with
  | [] => .error (w.tooShort protocol 2)
  | declared :: _ => do
    let (info, rest) ← readSessionInfo w
    let units := unitsFor info.length
    if declared.toNat ≠ units then
      throw (w.invalid protocol 0 "extension length" declared.toNat)
    match Bytes.split? rest (units * 4 - 2 - info.length) with
    | some (padding, _ :: _) => return pduSessionContainer info padding
    | _ => throw (w.inconsistent protocol 0 "extension length" (units * 4))

/-- Reads an extension header of any type. Its type is for the caller to
fill in. -/
def decodeUnknown (w : Window) : Except DecodeError GtpExtension :=
  match w.bytes with
  | [] => .error (w.tooShort protocol 1)
  | units :: rest =>
    if units = 0 then .error (w.invalid protocol 0 "extension length" 0)
    else
      match Bytes.split? rest (units.toNat * 4 - 2) with
      | some (content, _ :: _) => .ok (unknown GtpExtensionType.noMore content)
      | _ => .error (w.inconsistent protocol 0 "extension length" (units.toNat * 4))

end GtpExtension

/-! ## Chains -/

/-- **A chain of extension headers**, as far as it can be read. -/
structure GtpChain where
  /-- The extension headers. -/
  extensions : List GtpExtension
  /-- The type behind the last of them: that there are no more, or the
  type that cannot be decoded. -/
  tail : GtpExtensionType
  /-- Whether the chain was cut short by an extension header that cannot
  be decoded. -/
  truncated : Bool
  deriving DecidableEq

/-- The chain of a region whose bytes are still to be read and start at
`offset`. `next` is the type of the next extension header, which comes
after passing over `skip` octets of the last one. -/
def chainFrom (decode : GtpExtensionType → Window → Except DecodeError GtpExtension) :
    (next : GtpExtensionType) → (skip offset : Nat) → Bytes → GtpChain
  | next, _, _, [] => ⟨[], next, next != GtpExtensionType.noMore⟩
  | next, skip + 1, offset, _ :: rest => chainFrom decode next skip (offset + 1) rest
  | next, 0, offset, b :: rest =>
    if next = GtpExtensionType.noMore then ⟨[], next, false⟩
    else
      match decode next ⟨offset, b :: rest⟩ with
      | .error _ => ⟨[], next, true⟩
      | .ok e =>
        match (b :: rest)[e.length - 1]? with
        | none => ⟨[], next, true⟩
        | some following =>
          let more := chainFrom decode following (e.length - 1) (offset + 1) rest
          { more with extensions := e.withType next :: more.extensions }

/-- **The chain of extension headers in a region** that starts with the
type `first`. -/
def readChain (decode : GtpExtensionType → Window → Except DecodeError GtpExtension)
    (first : GtpExtensionType) (region : Window) : GtpChain :=
  chainFrom decode first 0 region.offset region.bytes

/-- A chain on the wire: each extension header with the type of the one
behind it, the last one with `tail`. -/
def chainBytes (tail : GtpExtensionType) : List GtpExtension → Bytes
  | [] => []
  | e :: rest =>
    e.toBytes ((rest.head?.map GtpExtension.extensionType).getD tail) ++ chainBytes tail rest

end PacketCodec
