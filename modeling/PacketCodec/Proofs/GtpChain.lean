import PacketCodec.Elements
import PacketCodec.Gtp.Extension
import PacketCodec.Proofs.Bits
import PacketCodec.Proofs.Bytes

/-!
# Chains of extension headers are written back as they were read

An extension header is announced by the type in front of it and ends with
the type of the next one. Its own octets therefore are exact for *some*
type that follows (`GtpExtension.ExactFor`), and in a chain that type is
the one by which the next extension header goes, or the tail.

The main statement is `readChain_exact`: the chain, written with its tail,
is at the front of the region, and it starts with the type that announced
it. The second half is what the induction needs: the chain behind an
extension header starts with the type that ends it.
-/

namespace PacketCodec

/-! ## Session information -/

section Present

variable {α : Type}

theorem length_presentBytes {write : α → Bytes} {n : Nat} (h : ∀ a, (write a).length = n)
    (o : Option α) : (presentBytes write o).length = presentSize n o := by
  cases o with
  | none => rfl
  | some a => exact h a

/-- A field that is there only sometimes is read exactly when its flag is
set. -/
theorem optional?_exact {present : Bool} {read : Bytes → Option (α × Bytes)}
    {write : α → Bytes} (exact : Bytes.Exact read write) {bs rest : Bytes} {o : Option α}
    (h : Bytes.optional? present read bs = some (o, rest)) :
    o.isSome = present ∧ bs = presentBytes write o ++ rest := by
  cases present with
  | true =>
    simp only [Bytes.optional?, if_true, Option.map_eq_some_iff, Prod.exists,
      Prod.mk.injEq] at h
    obtain ⟨a, _, hread, rfl, rfl⟩ := h
    exact ⟨rfl, exact hread⟩
  | false =>
    simp only [Bytes.optional?, Bool.false_eq_true, if_false, Option.some.injEq,
      Prod.mk.injEq] at h
    obtain ⟨rfl, rfl⟩ := h
    exact ⟨rfl, rfl⟩

theorem u8?_exact : Bytes.Exact Bytes.u8? fun v => [v] := Bytes.u8?_eq_some.mp

theorem u24?_exact : Bytes.Exact Bytes.u24? Bytes.be24 := fun h => (Bytes.u24?_eq_some.mp h).1

theorem u32?_exact : Bytes.Exact Bytes.u32? Bytes.be32 := Bytes.u32?_eq_some.mp

theorem u64?_exact : Bytes.Exact Bytes.u64? Bytes.be64 := Bytes.u64?_eq_some.mp

end Present

namespace DownlinkInfo

theorem length_toBytes (i : DownlinkInfo) : i.toBytes.length = i.length := by
  simp only [toBytes, length, List.length_append, List.length_cons, List.length_nil,
    length_presentBytes (fun v : UInt8 => List.length_singleton),
    length_presentBytes Bytes.length_be64, length_presentBytes Bytes.length_be24,
    length_presentBytes Bytes.length_be32]

/-- The first octet is put back together from its flags. -/
theorem octet₀_of_get {i : DownlinkInfo} {b : UInt8}
    (type : pduTypeBits.get b.toUInt32 = pduType)
    (sendingTime : i.sendingTime.isSome = timeBit.isSet b.toUInt32)
    (sequenceNumber : i.sequenceNumber.isSome = sequenceBit.isSet b.toUInt32)
    (mbsSequenceNumber : i.mbsSequenceNumber.isSome = mbsSequenceBit.isSet b.toUInt32)
    (spare : i.spare = spareBit.isSet b.toUInt32) : i.octet₀.toUInt8 = b := by
  have cover : pduTypeBits.mask ||| timeBit.mask ||| sequenceBit.mask ||| mbsSequenceBit.mask
      ||| spareBit.mask = 0xff := by
    decide
  rw [octet₀, ← type, sendingTime, sequenceNumber, mbsSequenceNumber, spare,
    BitField.put_get, UInt32.zero_or]
  repeat rw [BitField.putFlag_isSet _ _ _ rfl]
  repeat rw [BitField.and_or_and]
  rw [cover, BitField.toUInt8_and_octet]

/-- The second octet is put back together from its fields. -/
theorem octet₁_of_get {i : DownlinkInfo} {b : UInt8}
    (ppi : i.ppi.isSome = ppiBit.isSet b.toUInt32) (rqi : i.rqi = rqiBit.isSet b.toUInt32)
    (qfi : i.qfi = (qfiBits.get b.toUInt32).toUInt8) : i.octet₁.toUInt8 = b := by
  have cover : ppiBit.mask ||| rqiBit.mask ||| qfiBits.mask = 0xff := by decide
  rw [octet₁, ppi, rqi, qfi, BitField.toUInt32_toUInt8_get qfiBits _ (by decide),
    BitField.putFlag_isSet _ _ _ rfl, BitField.putFlag_isSet _ _ _ rfl, BitField.put_get,
    UInt32.zero_or, BitField.and_or_and, BitField.and_or_and, cover,
    BitField.toUInt8_and_octet]

theorem fields?_exact {first second : UInt8} {bs rest : Bytes} {i : DownlinkInfo}
    (type : pduTypeBits.get first.toUInt32 = pduType)
    (h : fields? first.toUInt32 second.toUInt32 bs = some (i, rest)) :
    first :: second :: bs = i.toBytes ++ rest := by
  simp only [fields?, Bytes.bind_eq_some, Bytes.return_eq_some] at h
  obtain ⟨ppi, _, h₁, sendingTime, _, h₂, sequenceNumber, _, h₃, mbs, _, h₄, rfl, rfl⟩ := h
  obtain ⟨p₁, rfl⟩ := optional?_exact u8?_exact h₁
  obtain ⟨p₂, rfl⟩ := optional?_exact u64?_exact h₂
  obtain ⟨p₃, rfl⟩ := optional?_exact u24?_exact h₃
  obtain ⟨p₄, rfl⟩ := optional?_exact u32?_exact h₄
  rw [toBytes, octet₀_of_get type p₂ p₃ p₄ rfl, octet₁_of_get p₁ rfl rfl]
  simp

end DownlinkInfo

theorem UplinkTimes.length_toBytes (t : UplinkTimes) : t.toBytes.length = 24 := by
  simp [toBytes]

theorem UplinkTimes.read?_exact : Bytes.Exact UplinkTimes.read? UplinkTimes.toBytes := by
  intro bs t rest hr
  simp only [read?, Bytes.bind_eq_some, Bytes.return_eq_some, Bytes.u64?_eq_some] at hr
  obtain ⟨sent, _, rfl, received, _, rfl, uplinkSent, _, rfl, rfl, rfl⟩ := hr
  simp [toBytes]

namespace UplinkInfo

theorem length_toBytes (i : UplinkInfo) : i.toBytes.length = i.length := by
  simp only [toBytes, length, List.length_append, List.length_cons, List.length_nil,
    length_presentBytes (fun v : UInt8 => List.length_singleton),
    length_presentBytes UplinkTimes.length_toBytes, length_presentBytes Bytes.length_be24,
    length_presentBytes Bytes.length_be32]

/-- The first octet is put back together from its flags. -/
theorem octet₀_of_get {i : UplinkInfo} {b : UInt8}
    (type : pduTypeBits.get b.toUInt32 = pduType)
    (times : i.times.isSome = timeBit.isSet b.toUInt32)
    (downlinkDelay : i.downlinkDelay.isSome = downlinkDelayBit.isSet b.toUInt32)
    (uplinkDelay : i.uplinkDelay.isSome = uplinkDelayBit.isSet b.toUInt32)
    (sequenceNumber : i.sequenceNumber.isSome = sequenceBit.isSet b.toUInt32) :
    i.octet₀.toUInt8 = b := by
  have cover : pduTypeBits.mask ||| timeBit.mask ||| downlinkDelayBit.mask
      ||| uplinkDelayBit.mask ||| sequenceBit.mask = 0xff := by
    decide
  rw [octet₀, ← type, times, downlinkDelay, uplinkDelay, sequenceNumber,
    BitField.put_get, UInt32.zero_or]
  repeat rw [BitField.putFlag_isSet _ _ _ rfl]
  repeat rw [BitField.and_or_and]
  rw [cover, BitField.toUInt8_and_octet]

/-- The second octet is put back together from its fields. -/
theorem octet₁_of_get {i : UplinkInfo} {b : UInt8}
    (nodeDelay : i.nodeDelay.isSome = nodeDelayBit.isSet b.toUInt32)
    (newFlags : i.newFlags.isSome = newFlagsBit.isSet b.toUInt32)
    (qfi : i.qfi = (qfiBits.get b.toUInt32).toUInt8) : i.octet₁.toUInt8 = b := by
  have cover : nodeDelayBit.mask ||| newFlagsBit.mask ||| qfiBits.mask = 0xff := by decide
  rw [octet₁, nodeDelay, newFlags, qfi, BitField.toUInt32_toUInt8_get qfiBits _ (by decide),
    BitField.putFlag_isSet _ _ _ rfl, BitField.putFlag_isSet _ _ _ rfl, BitField.put_get,
    UInt32.zero_or, BitField.and_or_and, BitField.and_or_and, cover,
    BitField.toUInt8_and_octet]

theorem fields?_exact {first second : UInt8} {bs rest : Bytes} {i : UplinkInfo}
    (type : pduTypeBits.get first.toUInt32 = pduType)
    (h : fields? first.toUInt32 second.toUInt32 bs = some (i, rest)) :
    first :: second :: bs = i.toBytes ++ rest := by
  simp only [fields?, Bytes.bind_eq_some, Bytes.return_eq_some] at h
  obtain ⟨times, _, h₁, downlinkDelay, _, h₂, uplinkDelay, _, h₃, sequenceNumber, _, h₄,
    nodeDelay, _, h₅, newFlags, _, h₆, rfl, rfl⟩ := h
  obtain ⟨p₁, rfl⟩ := optional?_exact UplinkTimes.read?_exact h₁
  obtain ⟨p₂, rfl⟩ := optional?_exact u32?_exact h₂
  obtain ⟨p₃, rfl⟩ := optional?_exact u32?_exact h₃
  obtain ⟨p₄, rfl⟩ := optional?_exact u24?_exact h₄
  obtain ⟨p₅, rfl⟩ := optional?_exact u32?_exact h₅
  obtain ⟨p₆, rfl⟩ := optional?_exact u8?_exact h₆
  rw [toBytes, octet₀_of_get type p₁ p₂ p₃ p₄, octet₁_of_get p₅ p₆ rfl]
  simp

end UplinkInfo

theorem SessionInfo.length_toBytes (i : SessionInfo) : i.toBytes.length = i.length := by
  cases i with
  | downlink i => exact i.length_toBytes
  | uplink i => exact i.length_toBytes

/-! ## Extension headers -/

namespace GtpExtension

theorem length_content (e : GtpExtension) : e.content.length = e.contentLength := by
  cases e <;> simp [content, contentLength, SessionInfo.length_toBytes, Octets.length_eq]

theorem length_toBytes (next : GtpExtensionType) (e : GtpExtension) :
    (e.toBytes next).length = e.length := by
  simp [toBytes, length, length_content]

theorem length_pos (e : GtpExtension) : 0 < e.length := by
  rw [length]
  omega

@[simp] theorem length_withType (t : GtpExtensionType) (e : GtpExtension) :
    (e.withType t).length = e.length := by
  cases e <;> rfl

@[simp] theorem toBytes_withType (t next : GtpExtensionType) (e : GtpExtension) :
    (e.withType t).toBytes next = e.toBytes next := by
  cases e <;> rfl

/-- **A decoder is exact for a type**: what it returns goes by that type,
and is written as the octets that it was read from with some type behind
it. -/
def ExactFor (t : GtpExtensionType) (decode : Window → Except DecodeError GtpExtension) : Prop :=
  ∀ {w : Window} {e : GtpExtension}, decode w = .ok e →
    (e.withType t).extensionType = t ∧ ∃ next behind, w.bytes = e.toBytes next ++ behind

/-- The octets of an extension header of so many units. -/
theorem exact_of_units {units : UInt8} {e : GtpExtension} (h : e.length = units.toNat * 4)
    (next : GtpExtensionType) (behind : Bytes) :
    units :: e.content ++ next :: behind = e.toBytes next ++ behind := by
  rw [toBytes, h, Nat.mul_div_cancel _ (by decide), UInt8.ofNat_toNat]
  simp

/-- The content of an extension header of a given number of units is all
of it but the length octet and the type behind. -/
theorem bytes_of_fixedContent {w : Window} {units : Nat} {data : Bytes} (hpos : 0 < units)
    (h : fixedContent w units = .ok data) :
    data.length = units * 4 - 2 ∧ ∃ declared next behind, declared.toNat = units
      ∧ w.bytes = declared :: data ++ next :: behind := by
  unfold fixedContent at h
  split at h
  · cases h
  · next declared rest hw =>
    split at h
    · cases h
    · next hdeclared =>
      split at h
      · next front behind hs =>
        obtain ⟨rfl, hlen⟩ := Bytes.split?_eq_some.mp hs
        cases h
        obtain ⟨next, hnext⟩ : ∃ next, front.drop (units * 4 - 2) = [next] := by
          rw [← List.length_eq_one_iff, List.length_drop]
          omega
        refine ⟨by rw [List.length_take]; omega, declared, next, behind,
          not_not.mp hdeclared, ?_⟩
        calc w.bytes
            = declared :: (front.take (units * 4 - 2) ++ front.drop (units * 4 - 2))
                ++ behind := by rw [hw, List.take_append_drop]; rfl
          _ = declared :: front.take (units * 4 - 2) ++ next :: behind := by
                rw [hnext]; simp
      · cases h

/-- A decoder of extension headers of a given number of units is exact
when it keeps their content. -/
theorem exact_of_fixedContent {w : Window} {units : Nat} {data : Bytes} {e : GtpExtension}
    (hpos : 0 < units) (h : fixedContent w units = .ok data) (hcontent : e.content = data) :
    ∃ next behind, w.bytes = e.toBytes next ++ behind := by
  obtain ⟨hlen, declared, next, behind, hdeclared, hw⟩ := bytes_of_fixedContent hpos h
  have hsize : e.length = declared.toNat * 4 := by
    rw [length, ← length_content, hcontent, hlen, hdeclared]
    omega
  refine ⟨next, behind, ?_⟩
  rw [hw, ← hcontent, exact_of_units hsize]

theorem of_decodeWord {make : UInt16 → GtpExtension} {w : Window} {e : GtpExtension}
    (h : decodeWord make w = .ok e) :
    ∃ value, fixedContent w 1 = .ok (Bytes.be16 value) ∧ e = make value := by
  simp only [decodeWord, bind_eq_ok] at h
  obtain ⟨data, hd, h⟩ := h
  split at h
  · next value rest hv =>
    cases h
    have hdata : data = Bytes.be16 value ++ rest := Bytes.u16?_eq_some.mp hv
    have hlen := (bytes_of_fixedContent (by decide) hd).1
    have hrest : rest = [] := by
      rw [hdata, List.length_append, Bytes.length_be16] at hlen
      exact List.eq_nil_of_length_eq_zero (by omega)
    rw [hrest, List.append_nil] at hdata
    exact ⟨value, hdata ▸ hd, rfl⟩
  · exact absurd h throw_ne_ok

theorem of_decodeServiceClassIndicator {w : Window} {e : GtpExtension}
    (h : decodeServiceClassIndicator w = .ok e) :
    ∃ sci spare, fixedContent w 1 = .ok [sci, spare] ∧ e = serviceClassIndicator sci spare := by
  simp only [decodeServiceClassIndicator, bind_eq_ok] at h
  obtain ⟨data, hd, h⟩ := h
  split at h
  · next sci spare =>
    cases h
    exact ⟨sci, spare, hd, rfl⟩
  · exact absurd h throw_ne_ok

theorem of_decodeLongPduNumber {w : Window} {e : GtpExtension}
    (h : decodeLongPduNumber w = .ok e) :
    ∃ (number : UInt32) (spare : Octets 3),
      fixedContent w 2 = .ok (Bytes.be24 number ++ spare.bytes) ∧ number.toNat < 2 ^ 24
        ∧ e = longPduNumber GtpExtensionType.longPduNumber number spare := by
  simp only [decodeLongPduNumber, bind_eq_ok] at h
  obtain ⟨data, hd, h⟩ := h
  split at h
  · next number spare hv =>
    cases h
    simp only [Bytes.bind_eq_some, Bytes.u24?_eq_some, Octets.take?_eq_some, Option.pure_def,
      Option.some.injEq, Prod.mk.injEq] at hv
    obtain ⟨number, _, ⟨rfl, hlt⟩, spare, rest, rfl, rfl, rfl⟩ := hv
    have hlen := (bytes_of_fixedContent (by decide) hd).1
    have hrest : rest = [] := by
      rw [List.length_append, List.length_append, Bytes.length_be24, spare.length_eq] at hlen
      exact List.eq_nil_of_length_eq_zero (by omega)
    rw [hrest, List.append_nil] at hd
    exact ⟨number, spare, hd, hlt, rfl⟩
  · exact absurd h throw_ne_ok

theorem decodeWord_exact {make : UInt16 → GtpExtension} {t : GtpExtensionType}
    (htype : ∀ v, ((make v).withType t).extensionType = t)
    (hcontent : ∀ v, (make v).content = Bytes.be16 v) : ExactFor t (decodeWord make) := by
  intro w e h
  obtain ⟨value, hd, rfl⟩ := of_decodeWord h
  exact ⟨htype value, exact_of_fixedContent (by decide) hd (hcontent value)⟩

theorem decodeUdpPort_exact : ExactFor GtpExtensionType.udpPort decodeUdpPort :=
  decodeWord_exact (fun _ => rfl) (fun _ => rfl)

theorem decodePduNumber_exact : ExactFor GtpExtensionType.pduNumber decodePduNumber :=
  decodeWord_exact (fun _ => rfl) (fun _ => rfl)

theorem decodeServiceClassIndicator_exact :
    ExactFor GtpExtensionType.serviceClassIndicator decodeServiceClassIndicator := by
  intro w e h
  obtain ⟨sci, spare, hd, rfl⟩ := of_decodeServiceClassIndicator h
  exact ⟨rfl, exact_of_fixedContent (by decide) hd rfl⟩

theorem decodeLongPduNumber_exact (t : GtpExtensionType) : ExactFor t decodeLongPduNumber := by
  intro w e h
  obtain ⟨number, spare, hd, -, rfl⟩ := of_decodeLongPduNumber h
  exact ⟨rfl, exact_of_fixedContent (by decide) hd rfl⟩

/-- **What session information is read from**: two octets, the first of which
says whether it is that of a downlink or of an uplink, and its fields. -/
theorem of_readSessionInfo {w : Window} {info : SessionInfo} {rest : Bytes}
    (h : readSessionInfo w = .ok (info, rest)) :
    ∃ first second tail, (w.after 1).bytes = first :: second :: tail
      ∧ ((∃ i, pduTypeBits.get first.toUInt32 = DownlinkInfo.pduType
          ∧ DownlinkInfo.fields? first.toUInt32 second.toUInt32 tail = some (i, rest)
          ∧ info = .downlink i)
        ∨ ∃ i, pduTypeBits.get first.toUInt32 = UplinkInfo.pduType
          ∧ UplinkInfo.fields? first.toUInt32 second.toUInt32 tail = some (i, rest)
          ∧ info = .uplink i) := by
  unfold readSessionInfo at h
  dsimp only at h
  split at h
  · cases h
  · next first _ hw =>
    split at h
    · cases h
    · next htype =>
      split at h
      · cases h
      · next second tail =>
        refine ⟨first, second, tail, hw, ?_⟩
        split at h
        · next hdown =>
          split at h
          · next i _ hf =>
            cases h
            exact .inl ⟨i, hdown, hf, rfl⟩
          · cases h
        · next hdown =>
          split at h
          · next i _ hf =>
            cases h
            exact .inr ⟨i, not_not.mp fun hup => htype ⟨hdown, hup⟩, hf, rfl⟩
          · cases h

/-- Session information is written as the octets behind the length octet
that it was read from. -/
theorem bytes_of_readSessionInfo {w : Window} {info : SessionInfo} {rest : Bytes}
    (h : readSessionInfo w = .ok (info, rest)) : (w.after 1).bytes = info.toBytes ++ rest := by
  obtain ⟨first, second, tail, hw, ⟨i, hdown, hf, rfl⟩ | ⟨i, hup, hf, rfl⟩⟩ :=
    of_readSessionInfo h
  · rw [hw, DownlinkInfo.fields?_exact hdown hf]
    rfl
  · rw [hw, UplinkInfo.fields?_exact hup hf]
    rfl

/-- The units of a content have room for it, the length octet and the
type behind. -/
theorem add_two_le_unitsFor (n : Nat) : n + 2 ≤ unitsFor n * 4 := by
  rw [unitsFor]
  omega

theorem of_decodePduSessionContainer {w : Window} {e : GtpExtension}
    (h : decodePduSessionContainer w = .ok e) :
    ∃ (units : UInt8) (info : SessionInfo) (padding : Bytes) (next : UInt8) (behind : Bytes),
      w.bytes = units :: (info.toBytes ++ (padding ++ next :: behind))
        ∧ readSessionInfo w = .ok (info, padding ++ next :: behind)
        ∧ units.toNat = unitsFor info.length
        ∧ padding.length = unitsFor info.length * 4 - 2 - info.length
        ∧ e = pduSessionContainer info padding := by
  unfold decodePduSessionContainer at h
  split at h
  · cases h
  · next units front hw =>
    simp only [bind_eq_ok] at h
    obtain ⟨⟨info, rest⟩, hinfo, h⟩ := h
    have hafter := bytes_of_readSessionInfo hinfo
    rw [Window.after, hw, List.drop_one, List.tail_cons] at hafter
    dsimp only at hafter h
    split at h
    · exact absurd h throw_ne_ok
    · next hunits =>
      split at h
      · next padding next behind hs =>
        cases h
        obtain ⟨rfl, hlen⟩ := Bytes.split?_eq_some.mp hs
        exact ⟨units, info, padding, next, behind, hafter ▸ hw, hinfo, not_not.mp hunits, hlen,
          rfl⟩
      · exact absurd h throw_ne_ok

theorem of_decodeUnknown {w : Window} {e : GtpExtension} (h : decodeUnknown w = .ok e) :
    ∃ (units : UInt8) (content : Bytes) (next : UInt8) (behind : Bytes),
      w.bytes = units :: (content ++ next :: behind) ∧ units.toNat ≠ 0
        ∧ content.length = units.toNat * 4 - 2
        ∧ e = unknown GtpExtensionType.noMore content := by
  unfold decodeUnknown at h
  split at h
  · cases h
  · next units rest hw =>
    split at h
    · cases h
    · next hunits =>
      split at h
      · next content next behind hs =>
        cases h
        obtain ⟨rfl, hlen⟩ := Bytes.split?_eq_some.mp hs
        exact ⟨units, content, next, behind, hw, fun h₀ => hunits (UInt8.toNat_inj.mp h₀), hlen,
          rfl⟩
      · cases h

/-- A container fills the units that its length octet tells. -/
theorem length_of_units {info : SessionInfo} {padding : Bytes}
    (h : padding.length = unitsFor info.length * 4 - 2 - info.length) :
    (pduSessionContainer info padding).length = unitsFor info.length * 4 := by
  have hroom := add_two_le_unitsFor info.length
  rw [length, contentLength, h]
  omega

theorem decodePduSessionContainer_exact :
    ExactFor GtpExtensionType.pduSessionContainer decodePduSessionContainer := by
  intro w e h
  obtain ⟨units, info, padding, next, behind, hw, -, hunits, hlen, rfl⟩ :=
    of_decodePduSessionContainer h
  have hsize := length_of_units hlen
  rw [← hunits] at hsize
  refine ⟨rfl, next, behind, ?_⟩
  rw [hw, ← exact_of_units hsize, content]
  simp

theorem decodeUnknown_exact (t : GtpExtensionType) : ExactFor t decodeUnknown := by
  intro w e h
  obtain ⟨units, content, next, behind, hw, hpos, hlen, rfl⟩ := of_decodeUnknown h
  have hsize : (unknown GtpExtensionType.noMore content).length = units.toNat * 4 := by
    rw [length, contentLength, hlen]
    omega
  refine ⟨rfl, next, behind, ?_⟩
  rw [hw, ← exact_of_units hsize]
  rfl

end GtpExtension

/-! ## Chains -/

theorem length_chainBytes (tail : GtpExtensionType) (es : List GtpExtension) :
    (chainBytes tail es).length = totalSize GtpExtension.length es := by
  induction es with
  | nil => rfl
  | cons e es ih =>
    rw [chainBytes, List.length_append, GtpExtension.length_toBytes, ih]
    rfl

/-- The type that announces a chain: that of its first extension header,
or its tail. -/
def GtpChain.announced (c : GtpChain) : GtpExtensionType :=
  (c.extensions.head?.map GtpExtension.extensionType).getD c.tail

/-- The octet at the end of an extension header is the type behind it. -/
theorem GtpExtension.getElem?_toBytes (e : GtpExtension) (next : GtpExtensionType)
    (behind : Bytes) : (e.toBytes next ++ behind)[e.length - 1]? = some next := by
  have hlen : (UInt8.ofNat (e.length / 4) :: e.content).length = e.length - 1 := by
    rw [List.length_cons, length_content, length]
    rfl
  rw [toBytes, List.append_assoc, List.getElem?_append_right (by rw [hlen]), hlen, Nat.sub_self]
  rfl

variable {decode : GtpExtensionType → Window → Except DecodeError GtpExtension}

theorem chainFrom_exact (h : ∀ t, GtpExtension.ExactFor t (decode t)) (next : GtpExtensionType)
    (skip offset : Nat) (bs : Bytes) :
    (chainFrom decode next skip offset bs).announced = next
      ∧ ∃ rest, bs.drop skip
        = chainBytes (chainFrom decode next skip offset bs).tail
            (chainFrom decode next skip offset bs).extensions ++ rest := by
  fun_induction chainFrom decode next skip offset bs with
  | case1 => exact ⟨rfl, [], by simp [chainBytes]⟩
  | case2 next skip offset b rest ih => exact ih
  | case3 offset b rest => exact ⟨rfl, b :: rest, rfl⟩
  | case4 next offset b rest hnext e he => exact ⟨rfl, b :: rest, rfl⟩
  | case5 next offset b rest hnext e he hnone => exact ⟨rfl, b :: rest, rfl⟩
  | case6 next offset b rest hnext e he following hfollowing more ih =>
    obtain ⟨htype, next', behind, hw⟩ := h next he
    have hw : b :: rest = e.toBytes next' ++ behind := hw
    obtain ⟨hannounced, last, hlast⟩ := ih
    -- The octet at the end of `e` is both the type behind it and the one it is followed by.
    have hsame : next' = following := by
      rw [hw, GtpExtension.getElem?_toBytes] at hfollowing
      exact Option.some.inj hfollowing
    have hdrop : rest.drop (e.length - 1) = behind := by
      have hrest : rest.drop (e.length - 1) = (b :: rest).drop (e.length - 1 + 1) := rfl
      rw [hrest, Nat.sub_add_cancel e.length_pos, hw,
        ← GtpExtension.length_toBytes next' e, List.drop_left]
    refine ⟨htype, last, ?_⟩
    show b :: rest = (e.withType next).toBytes more.announced
      ++ chainBytes more.tail more.extensions ++ last
    rw [GtpExtension.toBytes_withType, hannounced, List.append_assoc, ← hlast, hdrop, ← hsame, hw]

/-- **A chain of extension headers is written back as it was read**, in
front of what it leaves of its region, and starts with the type that
announced it. -/
theorem readChain_exact (h : ∀ t, GtpExtension.ExactFor t (decode t)) (first : GtpExtensionType)
    (region : Window) :
    (readChain decode first region).announced = first
      ∧ chainBytes (readChain decode first region).tail (readChain decode first region).extensions
          ++ region.bytes.drop
            (totalSize GtpExtension.length (readChain decode first region).extensions)
        = region.bytes := by
  obtain ⟨hannounced, rest, hrest⟩ := chainFrom_exact h first 0 region.offset region.bytes
  refine ⟨hannounced, ?_⟩
  have hrest : region.bytes
      = chainBytes (readChain decode first region).tail
          (readChain decode first region).extensions ++ rest := hrest
  generalize readChain decode first region = c at hrest ⊢
  rw [← length_chainBytes c.tail, hrest, List.drop_left]

end PacketCodec
