import PacketCodec.Proofs.Admissible
import PacketCodec.Proofs.ChainReadback
import PacketCodec.Proofs.Length
import PacketCodec.Proofs.Origin

/-!
# GTP messages are read as they were written

A message is read back from what is written for it when its version fits,
its chain of extension headers is announced and ended as it is written, and
its length field says where it ends (`GtpHeader.Readable`). What is read is
the header as far as it is on the wire (`GtpHeader.onWire`): a message none
of whose flags calls for them has no sequence number, packet unit number
and extension type there.

A draft whose extension flag and extension type are left to it announces
its own chain, and one that corrects its length says where it ends. So a
message built from well-formed extension headers over bytes is decoded to
its parts (`Draft.decode_build_gtp`) – to all of them but one: where there
are no bytes, no payload is decoded
(`Draft.decode_build_gtp_without_payload`).
-/

namespace PacketCodec

namespace GtpHeader

/-! ## Headers -/

/-- The version and the flags are read back. -/
theorem get_flags {h : GtpHeader} (version : h.version.toNat < 8) :
    (versionBits.get h.flags.toUInt8.toUInt32).toUInt8 = h.version
      ∧ protocolTypeBit.isSet h.flags.toUInt8.toUInt32 = h.protocolType
      ∧ reservedBit.isSet h.flags.toUInt8.toUInt32 = h.reserved
      ∧ extBit.isSet h.flags.toUInt8.toUInt32 = h.extFlag
      ∧ seqBit.isSet h.flags.toUInt8.toUInt32 = h.seqFlag
      ∧ npduBit.isSet h.flags.toUInt8.toUInt32 = h.npduFlag := by
  have hfits : h.version &&& versionBits.max.toUInt8 = h.version :=
    BitField.and_toUInt8_max _ version
  simp (disch := decide) [flags, hfits]

/-- **What of a header is on the wire**: the fields of the optional part
are when it is. -/
def onWire (h : GtpHeader) : GtpHeader :=
  if h.hasOptional then h
  else { h with sequenceNumber := 0, npduNumber := 0, nextExtType := GtpExtensionType.noMore }

section OnWire

variable (h : GtpHeader)

theorem hasOptional_onWire : h.onWire.hasOptional = h.hasOptional := by
  rw [onWire]
  split <;> rfl

theorem extFlag_onWire : h.onWire.extFlag = h.extFlag := by
  rw [onWire]
  split <;> rfl

theorem messageType_onWire : h.onWire.messageType = h.messageType := by
  rw [onWire]
  split <;> rfl

theorem lengthField_onWire : h.onWire.lengthField = h.lengthField := by
  rw [onWire]
  split <;> rfl

theorem extensions_onWire : h.onWire.extensions = h.extensions := by
  rw [onWire]
  split <;> rfl

end OnWire

/-- The header with an empty chain. -/
def withoutChain (h : GtpHeader) : GtpHeader :=
  { h with extensions := [], chainTail := GtpExtensionType.noMore, truncated := false }

/-- The header as it is read off the mandatory part. -/
def mandatory (h : GtpHeader) : GtpHeader :=
  { h.withoutChain with
    sequenceNumber := 0, npduNumber := 0, nextExtType := GtpExtensionType.noMore }

theorem mandatory?_mandatoryBytes {h : GtpHeader} (version : h.version.toNat < 8) (rest : Bytes) :
    mandatory? (h.mandatoryBytes ++ rest) = some (h.mandatory, rest) := by
  obtain ⟨hversion, hprotocol, hreserved, hext, hseq, hnpdu⟩ := get_flags version
  simp only [mandatory?, mandatoryBytes, Bytes.bind_eq_some, Bytes.return_eq_some,
    Bytes.u8?_eq_some, Bytes.u16?_eq_some, Bytes.u32?_eq_some, List.append_assoc,
    List.cons_append, List.nil_append]
  refine ⟨_, _, rfl, _, _, rfl, _, _, rfl, _, _, rfl, ?_, rfl⟩
  rw [hversion, hprotocol, hreserved, hext, hseq, hnpdu]
  rfl

theorem optional?_optionalBytes (h : GtpHeader) (rest : Bytes) :
    h.mandatory.optional? (h.optionalBytes ++ rest) = some (h.onWire.withoutChain, rest) := by
  have hhas : h.mandatory.hasOptional = h.hasOptional := rfl
  rw [optional?, optionalBytes, onWire, hhas]
  cases h.hasOptional with
  | true =>
    simp only [if_true, Bytes.bind_eq_some, Bytes.return_eq_some, Bytes.u8?_eq_some,
      Bytes.u16?_eq_some, List.append_assoc, List.cons_append, List.nil_append]
    exact ⟨_, _, rfl, _, _, rfl, _, _, rfl, rfl, rfl⟩
  | false => rfl

/-! ## Messages -/

theorem length_eq_fixedLength_add (h : GtpHeader) :
    h.length = h.fixedLength + totalSize GtpExtension.length h.extensions := rfl

/-- **What is read of a written message** whose length field says where it
ends: the fixed part as far as it is on the wire, and the chain of the type
that it announces, which need not be the one that was written. -/
theorem read_toBytes_append
    {decode : GtpExtensionType → Window → Except DecodeError GtpExtension} {h : GtpHeader}
    (version : h.version.toNat < 8) {payload : Bytes}
    (length : size + h.lengthField.toNat = h.length + payload.length) (offset : Nat)
    (trailer : Bytes) :
    let region := chainBytes h.chainTail h.extensions ++ payload
    let header := h.onWire.withoutChain.withChain decode ⟨offset + h.fixedLength, region⟩
    let taken := totalSize GtpExtension.length header.extensions
    read decode ⟨offset, h.toBytes ++ (payload ++ trailer)⟩
      = .ok (header, trailer,
          header.inner ⟨offset + h.fixedLength + taken, region.drop taken⟩) := by
  intro region header taken
  have hfixed : h.onWire.withoutChain.fixedLength = h.fixedLength :=
    congrArg (fun has : Bool => size + if has then optionalSize else 0) h.hasOptional_onWire
  have hfield : h.onWire.withoutChain.lengthField = h.lengthField := h.lengthField_onWire
  have hregion : chainBytes h.chainTail h.extensions ++ (payload ++ trailer) = region ++ trailer :=
    (List.append_assoc ..).symm
  have hread : Window.read ⟨offset, h.toBytes ++ (payload ++ trailer)⟩ protocol size mandatory?
      = .ok (h.mandatory, h.optionalBytes ++ (region ++ trailer)) := by
    rw [Window.read_eq_ok, toBytes_eq, List.append_assoc, List.append_assoc, hregion]
    exact mandatory?_mandatoryBytes version _
  -- The length field leaves the chain and the payload for the region.
  have hbody : min (size + h.lengthField.toNat)
        (Window.length ⟨offset, h.toBytes ++ (payload ++ trailer)⟩) - h.fixedLength
      = region.length := by
    have hchain := length_chainBytes h.chainTail h.extensions
    have htotal := h.length_eq_fixedLength_add
    rw [Window.length, List.length_append, List.length_append, List.length_append,
      h.length_toBytes]
    omega
  rw [← hfield, ← hfixed] at hbody
  rw [read_of_fixed hread (h.optional?_optionalBytes _) hbody, hfixed, List.take_left,
    List.drop_left]
  rfl

/-- **A header that is read back** with the given decoders of extension
headers: the version fits, and the chain is announced by the flag and the
type in front of it and ends with the type that says so. -/
structure Readable (decode : GtpExtensionType → Window → Except DecodeError GtpExtension)
    (h : GtpHeader) : Prop where
  version : h.version.toNat < 8
  flagged : h.extFlag = false → h.extensions = []
  announced : h.nextExtType = (GtpChain.ended h.extensions).announced
  chainTail : h.chainTail = GtpExtensionType.noMore
  truncated : h.truncated = false
  readsBack : ∀ e ∈ h.extensions, e.ReadsBack decode

namespace Readable

variable {decode : GtpExtensionType → Window → Except DecodeError GtpExtension} {h : GtpHeader}

/-- The chain is read back. -/
theorem withChain_withoutChain (hr : h.Readable decode) (offset : Nat) (behind : Bytes) :
    h.onWire.withoutChain.withChain decode
      ⟨offset, chainBytes h.chainTail h.extensions ++ behind⟩ = h.onWire := by
  cases hext : h.extFlag with
  | true =>
    have honWire : h.onWire = h := if_pos (by rw [hasOptional, hext]; rfl)
    have hchain := readChain_chainBytes hr.readsBack offset behind
    rw [← hr.announced, ← hr.chainTail] at hchain
    rw [honWire, withChain, if_pos (show h.withoutChain.extFlag = true from hext),
      show h.withoutChain.nextExtType = h.nextExtType from rfl, hchain]
    show { h with
      extensions := h.extensions, chainTail := GtpExtensionType.noMore, truncated := false } = h
    rw [← hr.chainTail, ← hr.truncated]
  | false =>
    have hempty : h.withoutChain = h := by
      rw [withoutChain, ← hr.flagged hext, ← hr.chainTail, ← hr.truncated]
    have honWire : h.onWire.withoutChain = h.onWire := by
      rw [onWire]
      split
      · exact hempty
      · conv_rhs => rw [← hempty]
        rfl
    rw [honWire, withChain, h.extFlag_onWire, hext, if_neg Bool.false_ne_true]

/-- **A message is read back** when its length field says where it ends. -/
theorem read_toBytes (hr : h.Readable decode) {payload : Bytes}
    (length : size + h.lengthField.toNat = h.length + payload.length) (offset : Nat)
    (trailer : Bytes) :
    read decode ⟨offset, h.toBytes ++ (payload ++ trailer)⟩
      = .ok (h.onWire, trailer, h.onWire.inner ⟨offset + h.length, payload⟩) := by
  have hchain := length_chainBytes h.chainTail h.extensions
  rw [read_toBytes_append hr.version length, hr.withChain_withoutChain, h.extensions_onWire,
    List.drop_left' hchain, Nat.add_assoc, ← length_eq_fixedLength_add]

end Readable

/-- **A message that carries no user data** carries its payload as it is. -/
theorem inner_of_ne_gPdu {h : GtpHeader} (other : h.messageType ≠ GtpMessageType.gPdu)
    (payload : Window) : h.inner payload = Inner.keep payload.bytes := by
  rw [inner]
  cases payload.bytes with
  | nil => rfl
  | cons first rest => exact if_neg fun hdata => other hdata.1

end GtpHeader

/-- A message that fills a buffer is decoded over what it carries. -/
theorem Context.decode_gtp_of_read (ctx : Context) {buf trailer : Bytes} {h : GtpHeader}
    {inner : Inner}
    (hr : GtpHeader.read ctx.decoders.gtpExtension ⟨0, buf⟩ = .ok (h, trailer, inner)) :
    ctx.decode .gtp buf 0 buf.length
      = .ok (.ofCarrier (.gtp h trailer) (inner.payload ctx.payloads)) := by
  rw [decode, Window.cut_alone]
  show ctx.decodeWindow .gtp ⟨0, buf⟩ = _
  rw [decodeWindow, peel, hr, ← Peeled.assemble_carrier]
  rfl

/-- **Decoding what was written for a message** that carries no user data:
the header as far as it is on the wire, the payload as bytes if there are
any, and the trailer. -/
theorem Context.decode_gtp_of_readable (ctx : Context) {h : GtpHeader}
    (hr : h.Readable ctx.decoders.gtpExtension) (other : h.messageType ≠ GtpMessageType.gPdu)
    {payload : Bytes} (length : GtpHeader.size + h.lengthField.toNat = h.length + payload.length)
    (trailer : Bytes) :
    let buf := h.toBytes ++ (payload ++ trailer)
    ctx.decode .gtp buf 0 buf.length
      = .ok (.ofCarrier (.gtp h.onWire trailer)
          (if payload.isEmpty then none else some (.unknown payload))) := by
  intro buf
  have hother : h.onWire.messageType ≠ GtpMessageType.gPdu := by rwa [h.messageType_onWire]
  have hread := hr.read_toBytes length 0 trailer
  rw [GtpHeader.inner_of_ne_gPdu hother] at hread
  rw [ctx.decode_gtp_of_read hread, Inner.payload_keep]

/-! ## Drafts -/

namespace GtpDraft

/-- **A message made of parts**: its fields fit, it carries no user data,
its extension headers are well-formed, and what follows from them – the
extension flag, the types in the chain and the length – is left to the
draft. -/
structure OfParts (d : GtpDraft) : Prop where
  version : d.version.toNat ≤ 7
  messageType : ∃ t, d.messageType = some t ∧ t ≠ GtpMessageType.gPdu
  teid : ∃ n, d.teid = some n
  wellFormed : ∀ e ∈ d.extensions, e.WellFormed
  extFlag : d.extFlag = none
  nextExtType : d.nextExtType = none
  chainTail : d.chainTail = GtpExtensionType.noMore
  correctLength : d.correctLength = true

/-- Length of the message behind the first eight octets, over a payload of
`n` octets. -/
def lengthOver (d : GtpDraft) (n : Nat) : Nat :=
  (if !d.extensions.isEmpty || d.seqFlag || d.npduFlag then GtpHeader.optionalSize else 0)
    + totalSize GtpExtension.length d.extensions + n

/-- **A header with the parts of a draft.** The numbers are there with
their flags, and as far as they are on the wire, without. -/
structure SameParts (d : GtpDraft) (h : GtpHeader) : Prop where
  version : h.version = d.version
  protocolType : h.protocolType = d.protocolType
  reserved : h.reserved = d.reserved
  extFlag : h.extFlag = !d.extensions.isEmpty
  seqFlag : h.seqFlag = d.seqFlag
  npduFlag : h.npduFlag = d.npduFlag
  messageType : some h.messageType = d.messageType
  teid : some h.teid = d.teid
  sequenceNumber? : h.sequenceNumber? = if d.seqFlag then some d.sequenceNumber else none
  npduNumber? : h.npduNumber? = if d.npduFlag then some d.npduNumber else none
  numbers : h.hasOptional = true →
    h.sequenceNumber = d.sequenceNumber ∧ h.npduNumber = d.npduNumber
  extensions : h.extensions = d.extensions
  truncated : h.truncated = false

/-- The length that is stored when it is corrected, over a payload of `n`
octets. -/
def correctedLength (d : GtpDraft) (n : Nat) : Nat :=
  (d.headerWith 0).length - GtpHeader.size + n

theorem correctedLength_add_size (d : GtpDraft) (n : Nat) :
    GtpHeader.size + d.correctedLength n = (d.headerWith 0).length + n := by
  rw [correctedLength, GtpHeader.length]
  omega

/-- **A corrected length** is that of the message, if it fits. -/
theorem header_eq_ok_of_correctLength {d : GtpDraft} (correct : d.correctLength = true) {n : Nat}
    {h : GtpHeader} :
    d.header n = .ok h
      ↔ d.correctedLength n < UInt16.size
        ∧ d.headerWith (UInt16.ofNat (d.correctedLength n)) = h := by
  have hfits : d.correctedLength n ≤ UInt16.size - 1 ↔ d.correctedLength n < UInt16.size :=
    Nat.le_sub_one_iff_lt (by decide)
  rw [← hfits]
  simp only [header, correct, if_true, bind_eq_ok, return_eq_ok, BuildError.check_eq_ok,
    Violation.ifOver_eq_nil, exists_const]
  exact Iff.rfl

namespace OfParts

variable {d : GtpDraft}

theorem violations (hd : d.OfParts) : d.violations = [] := by
  obtain ⟨t, ht, -⟩ := hd.messageType
  obtain ⟨n, hn⟩ := hd.teid
  have hflag : (!d.extFlagOrDefault && !d.extensions.isEmpty) = false := by
    rw [extFlagOrDefault, hd.extFlag, Option.getD_none, Bool.not_not, Bool.and_not_self]
  rw [GtpDraft.violations, ht, hn, hd.correctLength, hflag]
  simp only [List.append_eq_nil_iff, Violation.ifOver_eq_nil, Violation.ifMissing_eq_nil,
    Violation.ifBad_eq_nil, List.flatMap_eq_nil_iff, bne_eq_false_iff_eq, if_true, and_true]
  exact ⟨⟨⟨hd.version, t, rfl⟩, n, rfl⟩, fun e he => (hd.wellFormed e he).sized⟩

/-- The chain that is built is announced and ended. -/
theorem readable_headerWith (hd : d.OfParts) (lengthField : UInt16) :
    (d.headerWith lengthField).Readable Decoders.standard.gtpExtension where
  version := Nat.lt_succ_of_le hd.version
  flagged h := by
    have hflag : (d.extFlagOrDefault) = false := h
    rw [extFlagOrDefault, hd.extFlag, Option.getD_none, Bool.not_eq_false'] at hflag
    exact List.isEmpty_iff.mp hflag
  announced := by
    show (d.extensions.head?.map GtpExtension.extensionType).getD
      (d.nextExtType.getD GtpExtensionType.noMore) = _
    rw [hd.nextExtType]
    rfl
  chainTail := hd.chainTail
  truncated := rfl
  readsBack e he := (hd.wellFormed e he).readsBack

theorem length_headerWith (hd : d.OfParts) (lengthField : UInt16) (n : Nat) :
    (d.headerWith lengthField).length + n = GtpHeader.size + d.lengthOver n := by
  have hoptional : (d.headerWith lengthField).hasOptional
      = (!d.extensions.isEmpty || d.seqFlag || d.npduFlag) := by
    rw [GtpHeader.hasOptional]
    show (d.extFlagOrDefault || d.seqFlag || d.npduFlag) = _
    rw [extFlagOrDefault, hd.extFlag, Option.getD_none]
  rw [GtpHeader.length, hoptional, lengthOver]
  show GtpHeader.size + _ + totalSize GtpExtension.length d.extensions + n = _
  omega

/-- For a message made of parts that is the length over its payload. -/
theorem header_eq_ok (hd : d.OfParts) {n : Nat} {h : GtpHeader} :
    d.header n = .ok h
      ↔ d.lengthOver n < UInt16.size ∧ d.headerWith (UInt16.ofNat (d.lengthOver n)) = h := by
  have htotal : d.correctedLength n = d.lengthOver n := by
    have hlength := hd.length_headerWith 0 n
    have hsize := d.correctedLength_add_size n
    omega
  rw [header_eq_ok_of_correctLength hd.correctLength, htotal]

theorem sameParts_headerWith (hd : d.OfParts) (lengthField : UInt16) :
    d.SameParts (d.headerWith lengthField) where
  version := rfl
  protocolType := rfl
  reserved := rfl
  extFlag := by
    show d.extFlagOrDefault = _
    rw [extFlagOrDefault, hd.extFlag, Option.getD_none]
  seqFlag := rfl
  npduFlag := rfl
  messageType := by
    obtain ⟨t, ht, -⟩ := hd.messageType
    rw [headerWith, ht, Option.getD_some]
  teid := by
    obtain ⟨n, hn⟩ := hd.teid
    rw [headerWith, hn, Option.getD_some]
  sequenceNumber? := rfl
  npduNumber? := rfl
  numbers _ := ⟨rfl, rfl⟩
  extensions := rfl
  truncated := rfl

/-- No part is lost on the wire: a number that is not there has no flag. -/
theorem sameParts_onWire (hd : d.OfParts) (lengthField : UInt16) :
    d.SameParts (d.headerWith lengthField).onWire := by
  have hsame := hd.sameParts_headerWith lengthField
  rw [GtpHeader.onWire]
  split
  · exact hsame
  · next hnone =>
    have hflags := hnone
    rw [Bool.not_eq_true, GtpHeader.hasOptional, Bool.or_eq_false_iff,
      Bool.or_eq_false_iff] at hflags
    obtain ⟨⟨-, hseq⟩, hnpdu⟩ := hflags
    have hseq : d.seqFlag = false := hseq
    have hnpdu : d.npduFlag = false := hnpdu
    exact { hsame with
      sequenceNumber? := by
        rw [GtpHeader.sequenceNumber?, if_neg (hsame.seqFlag.trans hseq ▸ Bool.false_ne_true),
          if_neg (hseq ▸ Bool.false_ne_true)]
      npduNumber? := by
        rw [GtpHeader.npduNumber?, if_neg (hsame.npduFlag.trans hnpdu ▸ Bool.false_ne_true),
          if_neg (hnpdu ▸ Bool.false_ne_true)]
      numbers := fun h => absurd h hnone }

end OfParts

end GtpDraft

namespace Draft

/-- A message made of parts, over bytes, is built with its length
corrected, if that fits. -/
theorem build_gtp_eq_ok {d : GtpDraft} (hd : d.OfParts) {data : Bytes} {p : Packet} :
    (ofCarrier (.gtp d) (some (unknown data))).build = .ok p
      ↔ d.lengthOver data.length < UInt16.size
        ∧ .ofCarrier (.gtp (d.headerWith (UInt16.ofNat (d.lengthOver data.length))) d.trailer)
            (some (.unknown data)) = p := by
  have hbuilt : (some (unknown data)).mapM build = .ok (some (Packet.unknown data)) := rfl
  have hlength : (Packet.unknown data).length = data.length := (Packet.length_toBytes _).symm
  have hcomplete : ∀ c, CarrierDraft.complete (some (.unknown data)) (.gtp d) = .ok c
      ↔ ∃ h, d.header data.length = .ok h ∧ .gtp h d.trailer = c := fun c => by
    rw [CarrierDraft.complete, map_eq_ok, Option.map_some, Option.getD_some, hlength]
  have hchecked : CarrierDraft.violations (.gtp d) = [] := hd.violations
  simp only [build_ofCarrier_eq_ok, hchecked, hbuilt, true_and, Except.ok.injEq,
    exists_and_left, exists_eq_left', hcomplete, hd.header_eq_ok, and_assoc]

/-- **A message made of parts is decoded to its parts.** Over any bytes it
is built if and only if its length fits the sixteen bits of the length
field. What is built is decoded, under any settings, to a header with the
same parts, the same trailer, and the bytes, kept as they are; or to no
payload where there are no bytes. -/
theorem decode_build_gtp {d : GtpDraft} (hd : d.OfParts) (data : Bytes) (settings : Settings) :
    ((ofCarrier (.gtp d) (some (unknown data))).build.isOk = true
        ↔ d.lengthOver data.length < UInt16.size)
      ∧ ∀ p, (ofCarrier (.gtp d) (some (unknown data))).build = .ok p →
          ∃ header, d.SameParts header
            ∧ Context.decode ⟨.standard, settings⟩ .gtp p.toBytes 0 p.toBytes.length
              = .ok (.ofCarrier (.gtp header d.trailer)
                  (if data.isEmpty then none else some (.unknown data))) := by
  constructor
  · constructor
    · intro hok
      obtain ⟨p, hp⟩ := exists_of_isOk hok
      exact ((build_gtp_eq_ok hd).mp hp).1
    · intro hfits
      rw [(build_gtp_eq_ok hd).mpr ⟨hfits, rfl⟩]
      rfl
  · intro p hp
    obtain ⟨hfits, rfl⟩ := (build_gtp_eq_ok hd).mp hp
    obtain ⟨t, ht, hother⟩ := hd.messageType
    let header := d.headerWith (UInt16.ofNat (d.lengthOver data.length))
    have hmessage : header.messageType ≠ GtpMessageType.gPdu := by
      show d.messageType.getD _ ≠ _
      rwa [ht]
    have hlength : GtpHeader.size + header.lengthField.toNat = header.length + data.length := by
      rw [hd.length_headerWith]
      show _ + (UInt16.ofNat (d.lengthOver data.length)).toNat = _
      rw [UInt16.toNat_ofNat_of_lt' hfits]
    have hbytes : (Packet.ofCarrier (.gtp header d.trailer) (some (.unknown data))).toBytes
        = header.toBytes ++ (data ++ d.trailer) :=
      Packet.toBytes_ofCarrier_of_unparsed rfl (some (.unknown data))
    refine ⟨header.onWire, hd.sameParts_onWire _, ?_⟩
    rw [hbytes]
    exact Context.decode_gtp_of_readable ⟨.standard, settings⟩ (hd.readable_headerWith _)
      hmessage hlength d.trailer

/-- An error indication with a UDP port, a PDU session container padded by
three octets, and two octets of payload. -/
theorem decode_build_gtp_error_indication :
    let d : GtpDraft :=
      { messageType := some 26, teid := some 0x01020304, seqFlag := true, sequenceNumber := 7,
        extensions := [.udpPort 2152, .pduSessionContainer
          (.downlink { qfi := 9, ppi := some 0x20, spare := false, rqi := true }) [0xff, 0, 0]],
        trailer := [0xcc], correctLength := true }
    d.OfParts ∧ ∃ p header, (ofCarrier (.gtp d) (some (unknown [0xaa, 0xbb]))).build = .ok p
      ∧ p.toBytes.length = 8 + 4 + 4 + 8 + 2 + 1
      ∧ Context.decode {} .gtp p.toBytes 0 p.toBytes.length
        = .ok (.ofCarrier (.gtp header [0xcc]) (some (.unknown [0xaa, 0xbb])))
      ∧ header.extensions = d.extensions ∧ header.sequenceNumber? = some 7 := by
  intro d
  have hd : d.OfParts := by
    refine ⟨by decide, ⟨26, rfl, by decide⟩, ⟨_, rfl⟩, ?_, rfl, rfl, rfl, rfl⟩
    simp only [d, List.forall_mem_cons, GtpExtension.WellFormed]
    refine ⟨trivial, ⟨⟨by decide, by simp⟩, rfl⟩, by simp⟩
  obtain ⟨hbuilds, hdecodes⟩ := decode_build_gtp hd [0xaa, 0xbb] {}
  obtain ⟨p, hp⟩ := exists_of_isOk (hbuilds.mpr (by decide))
  obtain ⟨header, hsame, hdecode⟩ := hdecodes p hp
  refine ⟨hd, p, header, hp, ?_, hdecode, hsame.extensions, hsame.sequenceNumber?⟩
  obtain ⟨-, rfl⟩ := (build_gtp_eq_ok hd).mp hp
  rfl

/-- **A message built over no bytes** is decoded to one that has no payload,
not to one over no bytes. -/
theorem decode_build_gtp_without_payload :
    let d : GtpDraft := { messageType := some 1, teid := some 1, correctLength := true }
    d.OfParts ∧ ∃ p q, (ofCarrier (.gtp d) (some (unknown []))).build = .ok p
      ∧ Context.decode {} .gtp p.toBytes 0 p.toBytes.length = .ok q
      ∧ p.payload? = some (.unknown []) ∧ q.payload? = none := by
  intro d
  have hd : d.OfParts :=
    ⟨by decide, ⟨1, rfl, by decide⟩, ⟨_, rfl⟩, by simp [d], rfl, rfl, rfl, rfl⟩
  have hbuild : (ofCarrier (.gtp d) (some (unknown []))).build
      = .ok (.carry (.gtp (d.headerWith 0) []) (.unknown [])) := rfl
  have hmessage : (d.headerWith 0).messageType ≠ GtpMessageType.gPdu := by decide
  have hlength : GtpHeader.size + (d.headerWith 0).lengthField.toNat
      = (d.headerWith 0).length + ([] : Bytes).length := rfl
  exact ⟨hd, _, _, hbuild, Context.decode_gtp_of_readable {} (hd.readable_headerWith 0) hmessage
    hlength [], rfl, rfl⟩

end Draft

end PacketCodec
