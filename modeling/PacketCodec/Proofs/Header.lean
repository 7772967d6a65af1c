import PacketCodec.Packet.Basic
import PacketCodec.Proofs.Bits
import PacketCodec.Proofs.Bytes

/-!
# Headers are written back as they were read

For each header of a fixed layout: the octets that its reader takes are
those that are written for the header it returns, `Bytes.Exact`. The
readers of whole octets and words give that by the lemmas of their fields.
Where several fields share a word, the fields cover it between them – the
reserved bits are among them – so the word is put back together whatever
it was.
-/

namespace PacketCodec

open Bytes (Exact)

/-! ## Whole octets and words -/

theorem EthernetHeader.length_toBytes (h : EthernetHeader) : h.toBytes.length = size := by
  simp [toBytes, Octets.length_eq, size]

theorem EthernetHeader.read?_exact : Exact EthernetHeader.read? EthernetHeader.toBytes := by
  intro bs h rest hr
  simp only [read?, Bytes.bind_eq_some, Bytes.return_eq_some, Octets.take?_eq_some,
    Bytes.u16?_eq_some] at hr
  obtain ⟨dst, _, rfl, src, _, rfl, etherType, _, rfl, rfl, rfl⟩ := hr
  simp [toBytes]

/-- A header that was written is read back. -/
theorem EthernetHeader.read?_toBytes (h : EthernetHeader) (rest : Bytes) :
    read? (h.toBytes ++ rest) = some (h, rest) := by
  simp only [read?, Bytes.bind_eq_some, Bytes.return_eq_some, Octets.take?_eq_some,
    Bytes.u16?_eq_some, toBytes, List.append_assoc]
  exact ⟨h.dst, _, rfl, h.src, _, rfl, h.etherType, rest, rfl, rfl, rfl⟩

theorem ArpHeader.read?_exact : Exact ArpHeader.read? ArpHeader.toBytes := by
  intro bs h rest hr
  simp only [read?, Bytes.bind_eq_some, Bytes.return_eq_some, Octets.take?_eq_some,
    Bytes.u16?_eq_some, Bytes.u8?_eq_some] at hr
  obtain ⟨hardwareType, _, rfl, protocolType, _, rfl, hardwareAddrLen, _, rfl,
    protocolAddrLen, _, rfl, operation, _, rfl, senderMac, _, rfl, senderIp, _, rfl,
    targetMac, _, rfl, targetIp, _, rfl, rfl, rfl⟩ := hr
  simp [toBytes]

theorem Icmpv6Header.length_toBytes (h : Icmpv6Header) : h.toBytes.length = size := by
  simp [toBytes, size]

theorem Icmpv6Header.read?_exact : Exact Icmpv6Header.read? Icmpv6Header.toBytes := by
  intro bs h rest hr
  simp only [read?, Bytes.bind_eq_some, Bytes.return_eq_some, Bytes.u16?_eq_some,
    Bytes.u8?_eq_some] at hr
  obtain ⟨icmpType, _, rfl, code, _, rfl, checksum, _, rfl, rfl, rfl⟩ := hr
  simp [toBytes]

theorem EchoHeader.read?_exact : Exact EchoHeader.read? EchoHeader.toBytes := by
  intro bs h rest hr
  simp only [read?, Bytes.bind_eq_some, Bytes.return_eq_some, Bytes.u16?_eq_some] at hr
  obtain ⟨identifier, _, rfl, sequenceNumber, _, rfl, rfl, rfl⟩ := hr
  simp [toBytes]

theorem UdpHeader.length_toBytes (h : UdpHeader) : h.toBytes.length = size := by
  simp [toBytes, size]

theorem UdpHeader.read?_exact : Exact UdpHeader.read? UdpHeader.toBytes := by
  intro bs h rest hr
  simp only [read?, Bytes.bind_eq_some, Bytes.return_eq_some, Bytes.u16?_eq_some] at hr
  obtain ⟨srcPort, _, rfl, dstPort, _, rfl, lengthField, _, rfl, checksum, _, rfl, rfl, rfl⟩ := hr
  simp [toBytes]

theorem SctpHeader.fixed?_exact :
    Exact SctpHeader.fixed? fun f =>
      Bytes.be16 f.1 ++ Bytes.be16 f.2.1 ++ Bytes.be32 f.2.2.1 ++ Bytes.be32 f.2.2.2 := by
  intro bs f rest hr
  simp only [fixed?, Bytes.bind_eq_some, Bytes.return_eq_some, Bytes.u16?_eq_some,
    Bytes.u32?_eq_some] at hr
  obtain ⟨srcPort, _, rfl, dstPort, _, rfl, tag, _, rfl, checksum, _, rfl, rfl, rfl⟩ := hr
  simp

theorem SolicitationHeader.fixed?_exact :
    Exact SolicitationHeader.fixed? fun f => Bytes.be32 f.1 ++ f.2.bytes := by
  intro bs f rest hr
  simp only [fixed?, Bytes.bind_eq_some, Bytes.return_eq_some, Octets.take?_eq_some,
    Bytes.u32?_eq_some] at hr
  obtain ⟨word, _, rfl, target, _, rfl, rfl, rfl⟩ := hr
  simp

/-! ## Shared words -/

/-- The first word of an IPv6 header is put back together from its
fields. -/
theorem Ipv6Header.firstWord_of_get {h : Ipv6Header} {word : UInt32}
    (version : h.version = (versionBits.get word).toUInt8)
    (trafficClass : h.trafficClass = (trafficClassBits.get word).toUInt8)
    (flowLabel : h.flowLabel = flowLabelBits.get word) : h.firstWord = word := by
  have cover : versionBits.mask ||| trafficClassBits.mask ||| flowLabelBits.mask = -1 := by
    decide
  rw [firstWord, version, trafficClass, flowLabel,
    BitField.toUInt32_toUInt8_get versionBits word (by decide),
    BitField.toUInt32_toUInt8_get trafficClassBits word (by decide),
    BitField.put_get, BitField.put_get, BitField.put_get, UInt32.zero_or,
    BitField.and_or_and, BitField.and_or_and, cover, UInt32.and_neg_one]

theorem Ipv6Header.length_toBytes (h : Ipv6Header) : h.toBytes.length = size := by
  simp [toBytes, Octets.length_eq, size]

theorem Ipv6Header.read?_exact : Exact Ipv6Header.read? Ipv6Header.toBytes := by
  intro bs h rest hr
  simp only [read?, Bytes.bind_eq_some, Bytes.return_eq_some, Octets.take?_eq_some,
    Bytes.u32?_eq_some, Bytes.u16?_eq_some, Bytes.u8?_eq_some] at hr
  obtain ⟨word, _, rfl, payloadLen, _, rfl, nextHeader, _, rfl, hopLimit, _, rfl, src, _, rfl,
    dst, _, rfl, rfl, rfl⟩ := hr
  rw [toBytes, firstWord_of_get rfl rfl rfl]
  simp

/-- A header that was written is read back, but for bits that its first
word had no room for. -/
theorem Ipv6Header.read?_toBytes (h : Ipv6Header) (rest : Bytes) :
    ∃ h' : Ipv6Header, read? (h.toBytes ++ rest) = some (h', rest)
      ∧ h'.payloadLen = h.payloadLen ∧ h'.nextHeader = h.nextHeader := by
  simp only [read?, Bytes.bind_eq_some, Bytes.return_eq_some, Octets.take?_eq_some,
    Bytes.u32?_eq_some, Bytes.u16?_eq_some, Bytes.u8?_eq_some, toBytes, List.append_assoc]
  exact ⟨_, ⟨h.firstWord, _, rfl, h.payloadLen, _, rfl, h.nextHeader, _, rfl, h.hopLimit, _,
    rfl, h.src, _, rfl, h.dst, rest, rfl, rfl, rfl⟩, rfl, rfl⟩

/-- The word of a fragment header is put back together from its fields. -/
theorem FragmentHeader.word_of_get {h : FragmentHeader} {v : UInt16}
    (fragOffset : h.fragOffset = (fragOffsetBits.get v.toUInt32).toUInt16)
    (res : h.res = (resBits.get v.toUInt32).toUInt8)
    (moreFrags : h.moreFrags = moreFragsBit.isSet v.toUInt32) : h.word.toUInt16 = v := by
  have cover : fragOffsetBits.mask ||| resBits.mask ||| moreFragsBit.mask = 0xffff := by decide
  rw [word, fragOffset, res, moreFrags,
    BitField.toUInt32_toUInt16_get fragOffsetBits _ (by decide),
    BitField.toUInt32_toUInt8_get resBits _ (by decide), BitField.putFlag_isSet _ _ _ rfl,
    BitField.put_get, BitField.put_get, UInt32.zero_or, BitField.and_or_and,
    BitField.and_or_and, cover, BitField.toUInt16_and_pair]

theorem FragmentHeader.length_toBytes (h : FragmentHeader) : h.toBytes.length = size := by
  simp [toBytes, size]

theorem FragmentHeader.read?_exact : Exact FragmentHeader.read? FragmentHeader.toBytes := by
  intro bs h rest hr
  simp only [read?, Bytes.bind_eq_some, Bytes.return_eq_some, Bytes.u32?_eq_some,
    Bytes.u16?_eq_some, Bytes.u8?_eq_some] at hr
  obtain ⟨nextHeader, _, rfl, reserved, _, rfl, v, _, rfl, identification, _, rfl, rfl, rfl⟩ := hr
  rw [toBytes, word_of_get rfl rfl rfl]
  simp

/-- The first word of an advertisement is put back together from its
fields. -/
theorem AdvertisementHeader.firstWord_of_get {h : AdvertisementHeader} {word : UInt32}
    (router : h.router = routerBit.isSet word)
    (solicited : h.solicited = solicitedBit.isSet word)
    (overrides : h.overrides = overrideBit.isSet word)
    (reserved : h.reserved = reservedBits.get word) : h.firstWord = word := by
  have cover :
      routerBit.mask ||| solicitedBit.mask ||| overrideBit.mask ||| reservedBits.mask = -1 := by
    decide
  rw [firstWord, router, solicited, overrides, reserved, BitField.putFlag_isSet _ _ _ rfl,
    BitField.putFlag_isSet _ _ _ rfl, BitField.putFlag_isSet _ _ _ rfl, BitField.put_get,
    UInt32.zero_or, BitField.and_or_and, BitField.and_or_and, BitField.and_or_and, cover,
    UInt32.and_neg_one]

/-- The octet of the flags of prefix information is put back together
from them. -/
theorem PrefixInfo.flags_of_get {i : PrefixInfo} {b : UInt8}
    (onLink : i.onLink = onLinkBit.isSet b.toUInt32)
    (autonomous : i.autonomous = autonomousBit.isSet b.toUInt32)
    (reserved1 : i.reserved1 = (reservedBits.get b.toUInt32).toUInt8) : i.flags.toUInt8 = b := by
  have cover : onLinkBit.mask ||| autonomousBit.mask ||| reservedBits.mask = 0xff := by decide
  rw [flags, onLink, autonomous, reserved1,
    BitField.toUInt32_toUInt8_get reservedBits _ (by decide), BitField.putFlag_isSet _ _ _ rfl,
    BitField.putFlag_isSet _ _ _ rfl, BitField.put_get, UInt32.zero_or, BitField.and_or_and,
    BitField.and_or_and, cover, BitField.toUInt8_and_octet]

theorem PrefixInfo.read?_exact : Exact PrefixInfo.read? PrefixInfo.toBytes := by
  intro bs i rest hr
  simp only [read?, Bytes.bind_eq_some, Bytes.return_eq_some, Octets.take?_eq_some,
    Bytes.u32?_eq_some, Bytes.u8?_eq_some] at hr
  obtain ⟨prefixLen, _, rfl, b, _, rfl, validLifetime, _, rfl, preferredLifetime, _, rfl,
    reserved2, _, rfl, network, _, rfl, rfl, rfl⟩ := hr
  rw [toBytes, flags_of_get rfl rfl rfl]
  simp

/-! ## GTP -/

/-- The octet of the flags of a GTP message is put back together from
them. -/
theorem GtpHeader.flags_of_get {h : GtpHeader} {b : UInt8}
    (version : h.version = (versionBits.get b.toUInt32).toUInt8)
    (protocolType : h.protocolType = protocolTypeBit.isSet b.toUInt32)
    (reserved : h.reserved = reservedBit.isSet b.toUInt32)
    (extFlag : h.extFlag = extBit.isSet b.toUInt32)
    (seqFlag : h.seqFlag = seqBit.isSet b.toUInt32)
    (npduFlag : h.npduFlag = npduBit.isSet b.toUInt32) : h.flags.toUInt8 = b := by
  have cover : versionBits.mask ||| protocolTypeBit.mask ||| reservedBit.mask ||| extBit.mask
      ||| seqBit.mask ||| npduBit.mask = 0xff := by
    decide
  rw [flags, version, protocolType, reserved, extFlag, seqFlag, npduFlag,
    BitField.toUInt32_toUInt8_get versionBits _ (by decide), BitField.put_get, UInt32.zero_or]
  repeat rw [BitField.putFlag_isSet _ _ _ rfl]
  repeat rw [BitField.and_or_and]
  rw [cover, BitField.toUInt8_and_octet]

/-- The part that every message has, on the wire. -/
def GtpHeader.mandatoryBytes (h : GtpHeader) : Bytes :=
  [h.flags.toUInt8, h.messageType] ++ Bytes.be16 h.lengthField ++ Bytes.be32 h.teid

theorem GtpHeader.mandatory?_exact : Exact GtpHeader.mandatory? GtpHeader.mandatoryBytes := by
  intro bs h rest hr
  simp only [mandatory?, Bytes.bind_eq_some, Bytes.return_eq_some, Bytes.u32?_eq_some,
    Bytes.u16?_eq_some, Bytes.u8?_eq_some] at hr
  obtain ⟨b, _, rfl, messageType, _, rfl, lengthField, _, rfl, teid, _, rfl, rfl, rfl⟩ := hr
  rw [mandatoryBytes, flags_of_get rfl rfl rfl rfl rfl rfl]
  simp

/-- No extension headers are read with the mandatory part. -/
theorem GtpHeader.extensions_of_mandatory? {bs rest : Bytes} {h : GtpHeader}
    (hr : mandatory? bs = some (h, rest)) : h.extensions = [] := by
  simp only [mandatory?, Bytes.bind_eq_some, Bytes.return_eq_some] at hr
  obtain ⟨_, _, _, _, _, _, _, _, _, _, _, _, rfl, rfl⟩ := hr
  rfl

/-- Reading the optional part fills in its three fields. -/
theorem GtpHeader.optional?_exact {h h' : GtpHeader} {bs rest : Bytes}
    (hr : h.optional? bs = some (h', rest)) :
    (∃ sequenceNumber npduNumber nextExtType,
        h' = { h with sequenceNumber, npduNumber, nextExtType })
      ∧ bs = h'.optionalBytes ++ rest := by
  unfold optional? at hr
  split at hr
  · next hopt =>
    simp only [Bytes.bind_eq_some, Bytes.return_eq_some, Bytes.u16?_eq_some,
      Bytes.u8?_eq_some] at hr
    obtain ⟨sequenceNumber, _, rfl, npduNumber, _, rfl, nextExtType, _, rfl, rfl, rfl⟩ := hr
    refine ⟨⟨sequenceNumber, npduNumber, nextExtType, rfl⟩, ?_⟩
    have hopt' : hasOptional { h with sequenceNumber, npduNumber, nextExtType } = true := hopt
    rw [optionalBytes, if_pos hopt']
    simp
  · next hopt =>
    cases hr
    refine ⟨⟨h.sequenceNumber, h.npduNumber, h.nextExtType, rfl⟩, ?_⟩
    rw [optionalBytes, if_neg hopt, List.nil_append]

/-- Length of the header without its extension headers. -/
def GtpHeader.fixedLength (h : GtpHeader) : Nat := size + if h.hasOptional then optionalSize else 0

/-- **What is read of a message** whose fixed part is: the length field says
how many octets behind that are for extension headers and payload. -/
theorem GtpHeader.read_of_fixed {w : Window} {m h : GtpHeader} {rest behind : Bytes}
    (hread : w.read protocol size mandatory? = .ok (m, rest))
    (hopt : m.optional? rest = some (h, behind)) {body : Nat}
    (hbody : min (size + h.lengthField.toNat) w.length - h.fixedLength = body)
    (decode : GtpExtensionType → Window → Except DecodeError GtpExtension) :
    read decode w =
      let region : Window := ⟨w.offset + h.fixedLength, behind.take body⟩
      let h := h.withChain decode region
      .ok (h, behind.drop body,
        h.inner (region.after (totalSize GtpExtension.length h.extensions))) := by
  subst hbody
  rw [read, hread]
  simp only [bind, Except.bind, hopt]
  rfl

/-- A message that ends before the part that its flags call for. -/
theorem GtpHeader.read_of_optional_none {w : Window} {m : GtpHeader} {rest : Bytes}
    (hread : w.read protocol size mandatory? = .ok (m, rest)) (hopt : m.optional? rest = none)
    (decode : GtpExtensionType → Window → Except DecodeError GtpExtension) :
    read decode w = .error (w.tooShort protocol (size + optionalSize)) := by
  rw [read, hread]
  simp only [bind, Except.bind, hopt]
  rfl

end PacketCodec
