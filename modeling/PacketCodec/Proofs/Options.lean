import PacketCodec.Ipv6.Option
import PacketCodec.Proofs.Elements
import PacketCodec.Proofs.Header
import PacketCodec.Sctp

/-!
# Options and chunks are written back as they were read

An option is decoded by the decoder that its type octet selects. The
decoder of a known type does not keep that octet, so it is exact only for
the type that it is assigned to; the decoder of unknown types keeps the
octet and is exact for all of them. Chunks are all decoded alike.

The length octet of an option is written from the data. That it is the
octet that was read comes from the data having been taken by it.
-/

namespace PacketCodec

/-! ## IPv6 options -/

namespace Ipv6Option

theorem length_toBytes (o : Ipv6Option) : o.toBytes.length = o.length := by
  cases o <;> simp [toBytes, length] <;> omega

theorem length_pos (o : Ipv6Option) : 0 < o.length := by
  cases o <;> simp [length]

/-- The type and the data of an option, with the length octet that tells
the data. -/
theorem bytes_of_typeAndData {w : Window} {t : Ipv6OptionType} {data : Bytes}
    (h : typeAndData w = .ok (t, data)) :
    ∃ behind, w.bytes = t :: UInt8.ofNat data.length :: data ++ behind := by
  unfold typeAndData at h
  split at h
  · next n rest hw =>
    split at h
    · next behind hs =>
      obtain ⟨rfl, hlen⟩ := Bytes.split?_eq_some.mp hs
      cases h
      refine ⟨behind, ?_⟩
      rw [hw, hlen, UInt8.ofNat_toNat]
      rfl
    · cases h
  · cases h

theorem decodePad1_exact : ExactFor Ipv6OptionType.pad1 decodePad1 toBytes := by
  intro offset rest o h
  cases h
  exact ⟨rest, rfl⟩

theorem decodePadN_exact : ExactFor Ipv6OptionType.padN decodePadN toBytes := by
  intro offset rest o h
  simp only [decodePadN, bind_eq_ok, return_eq_ok] at h
  obtain ⟨⟨t, data⟩, hd, rfl⟩ := h
  obtain ⟨behind, hw⟩ := bytes_of_typeAndData hd
  -- The type octet is not kept: it is the one that the decoder is assigned to.
  obtain ⟨rfl, -⟩ := List.cons.inj hw
  exact ⟨behind, hw⟩

theorem decodeRouterAlert_exact :
    ExactFor Ipv6OptionType.routerAlert decodeRouterAlert toBytes := by
  intro offset rest o h
  simp only [decodeRouterAlert, bind_eq_ok] at h
  obtain ⟨⟨t, data⟩, hd, h⟩ := h
  obtain ⟨behind, hw⟩ := bytes_of_typeAndData hd
  obtain ⟨rfl, -⟩ := List.cons.inj hw
  dsimp only at h
  split at h
  · next high low =>
    cases h
    refine ⟨behind, ?_⟩
    rw [toBytes, Bytes.be16_ofNat_beNat]
    exact hw
  · exact absurd h throw_ne_ok

theorem decodeUnknown_exact (t : Ipv6OptionType) : ExactFor t decodeUnknown toBytes := by
  intro offset rest o h
  simp only [decodeUnknown, bind_eq_ok, return_eq_ok] at h
  obtain ⟨⟨t, data⟩, hd, rfl⟩ := h
  exact bytes_of_typeAndData hd

end Ipv6Option

/-! ## Neighbor discovery options -/

namespace NdpOption

theorem length_toBytes (o : NdpOption) : o.toBytes.length = o.length := by
  cases o <;> simp [toBytes, content, length, PrefixInfo.toBytes,
    Octets.length_eq, prefixInfoSize, mtuSize] <;> omega

theorem length_pos (o : NdpOption) : 0 < o.length := by
  cases o <;> simp [length, prefixInfoSize, mtuSize]

/-- The type, the units and the data of an option, and how many octets of
data so many units hold. -/
theorem bytes_of_typeAndData {w : Window} {t : NdpOptionType} {units : UInt8} {data : Bytes}
    (h : typeAndData w = .ok (t, units, data)) :
    data.length = units.toNat * 8 - 2 ∧ 0 < units.toNat
      ∧ ∃ behind, w.bytes = t :: units :: data ++ behind := by
  unfold typeAndData at h
  split at h
  · next n rest hw =>
    split at h
    · cases h
    · next hunits =>
      split at h
      · next behind hs =>
        obtain ⟨rfl, hlen⟩ := Bytes.split?_eq_some.mp hs
        cases h
        have hpos : units.toNat ≠ 0 := fun h₀ => hunits (UInt8.toNat_inj.mp h₀)
        exact ⟨hlen, Nat.pos_of_ne_zero hpos, behind, hw⟩
      · cases h
  · cases h

/-- An option with the type and the data that were read has the length
octet that was read. -/
theorem exact_of_content {w : Window} {t : NdpOptionType} {units : UInt8} {data : Bytes}
    (h : typeAndData w = .ok (t, units, data)) {o : NdpOption} (htype : o.optionType = t)
    (hcontent : o.content = data) : ∃ behind, w.bytes = o.toBytes ++ behind := by
  obtain ⟨hlen, hpos, behind, hw⟩ := bytes_of_typeAndData h
  have hsize : o.length = 2 + data.length := by
    rw [← length_toBytes, toBytes, hcontent, List.length_cons, List.length_cons]
    omega
  have hunits : UInt8.ofNat (o.length / 8) = units := by
    rw [hsize, hlen, show (2 + (units.toNat * 8 - 2)) / 8 = units.toNat by omega,
      UInt8.ofNat_toNat]
  refine ⟨behind, ?_⟩
  rw [hw, toBytes, htype, hunits, hcontent]

theorem decodeSourceLinkAddr_exact :
    ExactFor NdpOptionType.sourceLinkAddr decodeSourceLinkAddr toBytes := by
  intro offset rest o h
  simp only [decodeSourceLinkAddr, bind_eq_ok, return_eq_ok] at h
  obtain ⟨⟨t, units, data⟩, hd, rfl⟩ := h
  obtain ⟨-, -, behind, hw⟩ := bytes_of_typeAndData hd
  obtain ⟨rfl, -⟩ := List.cons.inj hw
  exact exact_of_content hd rfl rfl

theorem decodeTargetLinkAddr_exact :
    ExactFor NdpOptionType.targetLinkAddr decodeTargetLinkAddr toBytes := by
  intro offset rest o h
  simp only [decodeTargetLinkAddr, bind_eq_ok, return_eq_ok] at h
  obtain ⟨⟨t, units, data⟩, hd, rfl⟩ := h
  obtain ⟨-, -, behind, hw⟩ := bytes_of_typeAndData hd
  obtain ⟨rfl, -⟩ := List.cons.inj hw
  exact exact_of_content hd rfl rfl

theorem decodePrefixInfo_exact : ExactFor NdpOptionType.prefixInfo decodePrefixInfo toBytes := by
  intro offset rest o h
  simp only [decodePrefixInfo, bind_eq_ok] at h
  obtain ⟨⟨t, units, data⟩, hd, h⟩ := h
  obtain ⟨-, -, behind, hw⟩ := bytes_of_typeAndData hd
  obtain ⟨rfl, -⟩ := List.cons.inj hw
  dsimp only at h
  split at h
  · next info hr =>
    cases h
    have hdata := PrefixInfo.read?_exact hr
    rw [List.append_nil] at hdata
    exact exact_of_content hd rfl hdata.symm
  · exact absurd h throw_ne_ok

theorem decodeMtu_exact : ExactFor NdpOptionType.mtu decodeMtu toBytes := by
  intro offset rest o h
  simp only [decodeMtu, bind_eq_ok] at h
  obtain ⟨⟨t, units, data⟩, hd, h⟩ := h
  obtain ⟨-, -, behind, hw⟩ := bytes_of_typeAndData hd
  obtain ⟨rfl, -⟩ := List.cons.inj hw
  dsimp only at h
  split at h
  · next reserved value hr =>
    cases h
    simp only [Bytes.bind_eq_some, Bytes.u16?_eq_some, Bytes.u32?_eq_some, Option.pure_def,
      Option.some.injEq, Prod.mk.injEq] at hr
    obtain ⟨reserved, _, rfl, value, _, rfl, rfl, rfl, rfl⟩ := hr
    exact exact_of_content hd rfl (by rw [content, List.append_nil])
  · exact absurd h throw_ne_ok

theorem decodeUnknown_exact (t : NdpOptionType) : ExactFor t decodeUnknown toBytes := by
  intro offset rest o h
  simp only [decodeUnknown, bind_eq_ok, return_eq_ok] at h
  obtain ⟨⟨t, units, data⟩, hd, rfl⟩ := h
  exact exact_of_content hd rfl rfl

end NdpOption

/-! ## Chunks -/

namespace SctpChunk

theorem length_toBytes (c : SctpChunk) : c.toBytes.length = c.length := by
  simp [toBytes, length, headSize]
  omega

/-- The chunk without the octets that align the next one. -/
def withoutPadding (c : SctpChunk) : SctpChunk := { c with padding := [] }

/-- **The length field is right**: it tells how long the chunk is without
its padding. -/
def Declared (c : SctpChunk) : Prop := c.lengthField.toNat = headSize + c.value.length

theorem toBytes_withoutPadding_append (c : SctpChunk) :
    c.withoutPadding.toBytes ++ c.padding = c.toBytes := by
  simp only [toBytes, withoutPadding, List.append_nil]

/-- **What a chunk is decoded from**: its octets without the padding, with a
right length field, and then whatever octets, of which the padding is as
many as align the next chunk, or all of them if there are fewer. -/
theorem decode_eq_ok_iff {w : Window} {c : SctpChunk} :
    decode w = .ok c ↔ ∃ behind, w.bytes = c.withoutPadding.toBytes ++ behind ∧ c.Declared
      ∧ c.padding = behind.take (paddingFor c.lengthField.toNat) := by
  constructor
  · intro h
    unfold decode at h
    split at h
    · next chunkType flags high low rest hw =>
      dsimp only at h
      split at h
      · cases h
      · next hdeclared =>
        split at h
        · cases h
        · next value behind hs =>
          obtain ⟨rfl, hlen⟩ := Bytes.split?_eq_some.mp hs
          cases h
          refine ⟨behind, ?_, ?_, by rw [Bytes.toNat_ofNat_beNat]⟩
          · rw [hw]
            simp only [toBytes, withoutPadding, Bytes.be16_ofNat_beNat, List.cons_append,
              List.nil_append, List.append_assoc]
          · show UInt16.toNat _ = headSize + value.length
            rw [Bytes.toNat_ofNat_beNat]
            omega
    · cases h
  · rintro ⟨behind, hw, hdeclared, hpadding⟩
    obtain ⟨high, low, hword⟩ : ∃ high low, Bytes.be16 c.lengthField = [high, low] :=
      ⟨_, _, rfl⟩
    have hnat : Bytes.beNat [high, low] = c.lengthField.toNat := by
      rw [← hword]
      exact Bytes.beNat_be c.lengthField.toNat_lt
    have hbytes : w.bytes = c.chunkType :: c.flags :: high :: low :: (c.value ++ behind) := by
      rw [hw, toBytes, withoutPadding, hword]
      simp
    have hsplit : Bytes.split? (c.value ++ behind) (c.lengthField.toNat - headSize)
        = some (c.value, behind) := by
      rw [Bytes.split?_eq_some, hdeclared]
      exact ⟨rfl, (Nat.add_sub_cancel_left ..).symm⟩
    have hlong : ¬ c.lengthField.toNat < headSize := by
      rw [hdeclared]
      exact Nat.not_lt.mpr (Nat.le_add_right ..)
    rw [decode, hbytes]
    simp only [hnat, if_neg hlong, hsplit, UInt16.ofNat_toNat, ← hpadding]

theorem decode_exact : ExactElement decode length toBytes where
  length_write := length_toBytes
  size_pos c := by rw [length, headSize]; omega
  exact {offset b rest c} h := by
    obtain ⟨behind, hw, -, hpadding⟩ := decode_eq_ok_iff.mp h
    refine ⟨behind.drop (paddingFor c.lengthField.toNat), ?_⟩
    rw [← toBytes_withoutPadding_append, hpadding, List.append_assoc, List.take_append_drop]
    exact hw

end SctpChunk

end PacketCodec
