import PacketCodec.Proofs.Admissible
import PacketCodec.Proofs.Origin

/-!
# Packets that can come about

A packet comes about by being decoded or by being built, and either way
it can be written (`Packet.Obtainable.admissible`). For what is built that
is what drafts check. For what is decoded it is a property of the
decoders: a bit field that was read out of a word fits into it, an element
is as long as its length field told, and the first extension header of a
message goes by the type that the message announces. It holds of one layer
(`Context.admissible_peel`), hence of a payload by induction on the layers
that are still allowed.

The registries matter in one place only. An extension header of a message
goes by the type that its decoder gives it, and only a decoder that is
exact for the type it is assigned to gives it that one.
-/

namespace PacketCodec

namespace BitField

theorem toNat_get_le (f : BitField) (word : UInt32) : (f.get word).toNat ≤ f.max.toNat := by
  have hlt := f.toNat_get_lt word
  rw [toNat_max]
  omega

theorem toNat_toUInt8_get_le (f : BitField) (word : UInt32) :
    (f.get word).toUInt8.toNat ≤ f.max.toNat :=
  (Nat.mod_le _ _).trans (f.toNat_get_le word)

theorem toNat_toUInt16_get_le (f : BitField) (word : UInt32) :
    (f.get word).toUInt16.toNat ≤ f.max.toNat :=
  (Nat.mod_le _ _).trans (f.toNat_get_le word)

end BitField

/-! ## Elements that are decoded -/

/-- What every element of a decoder has, the elements of a region have. -/
theorem forall_mem_elementsFrom {α : Type} {P : α → Prop}
    {decode : Window → Except DecodeError α} (h : ∀ w e, decode w = .ok e → P e) (size : α → Nat)
    (skip offset : Nat) (bs : Bytes) : ∀ e ∈ (elementsFrom decode size skip offset bs).1, P e := by
  fun_induction elementsFrom decode size skip offset bs with
  | case1 => exact List.forall_mem_nil P
  | case2 skip offset b rest ih => exact ih
  | case3 offset b rest e he => exact List.forall_mem_nil P
  | case4 offset b rest e he more ih => exact List.forall_mem_cons.mpr ⟨h _ e he, ih⟩

/-- What every extension header of a decoder has, those of a chain have,
if it does not depend on the type that announces them. -/
theorem forall_mem_chainFrom {P : GtpExtension → Prop}
    {decode : GtpExtensionType → Window → Except DecodeError GtpExtension}
    (h : ∀ t w e, decode t w = .ok e → P (e.withType t)) (next : GtpExtensionType)
    (skip offset : Nat) (bs : Bytes) :
    ∀ e ∈ (chainFrom decode next skip offset bs).extensions, P e := by
  fun_induction chainFrom decode next skip offset bs with
  | case1 => exact List.forall_mem_nil P
  | case2 next skip offset b rest ih => exact ih
  | case3 | case4 | case5 => exact List.forall_mem_nil P
  | case6 next offset b rest hnext e he following hfollowing more ih =>
    exact List.forall_mem_cons.mpr ⟨h _ _ e he, ih⟩

theorem Ipv6Option.length_of_typeAndData {w : Window} {t : Ipv6OptionType} {data : Bytes}
    (h : typeAndData w = .ok (t, data)) : data.length ≤ 255 := by
  unfold typeAndData at h
  split at h
  · next n rest hw =>
    split at h
    · next behind hs =>
      obtain ⟨-, hlen⟩ := Bytes.split?_eq_some.mp hs
      cases h
      rw [hlen]
      exact Nat.le_of_lt_succ n.toNat_lt
    · cases h
  · cases h

theorem Ipv6Option.sized_of_decode {decode : Window → Except DecodeError Ipv6Option}
    (hmem : decode ∈ decoders) {w : Window} {o : Ipv6Option} (h : decode w = .ok o) :
    o.Sized := by
  simp only [decoders, List.mem_cons, List.not_mem_nil, or_false] at hmem
  rcases hmem with rfl | rfl | rfl | rfl
  · unfold decodePad1 at h
    split at h
    · cases h
      exact Nat.zero_le 255
    · cases h
  · simp only [decodePadN, bind_eq_ok, return_eq_ok] at h
    obtain ⟨⟨t, data⟩, hd, rfl⟩ := h
    rw [Sized, dataLength, length, Nat.add_sub_cancel_left]
    exact length_of_typeAndData hd
  · simp only [decodeRouterAlert, bind_eq_ok] at h
    obtain ⟨⟨t, data⟩, -, h⟩ := h
    dsimp only at h
    split at h
    · cases h
      exact (by decide : 2 ≤ 255)
    · exact absurd h throw_ne_ok
  · simp only [decodeUnknown, bind_eq_ok, return_eq_ok] at h
    obtain ⟨⟨t, data⟩, hd, rfl⟩ := h
    rw [Sized, dataLength, length, Nat.add_sub_cancel_left]
    exact length_of_typeAndData hd

/-- An option that fills no more units than its length octet can tell. -/
theorem NdpOption.sized_of_length {o : NdpOption} {n : Nat} (h : o.length = n * 8) (hn : n ≤ 255) :
    o.Sized := by
  constructor <;> omega

theorem NdpOption.sized_of_typeAndData {w : Window} {t : NdpOptionType} {units : UInt8}
    {data : Bytes} (h : typeAndData w = .ok (t, units, data)) {o : NdpOption}
    (ho : o.length = 2 + data.length) : o.Sized := by
  obtain ⟨hlen, hpos, -⟩ := bytes_of_typeAndData h
  exact sized_of_length (n := units.toNat) (by omega) (Nat.le_of_lt_succ units.toNat_lt)

theorem NdpOption.sized_of_decode {decode : Window → Except DecodeError NdpOption}
    (hmem : decode ∈ decoders) {w : Window} {o : NdpOption} (h : decode w = .ok o) :
    o.Sized := by
  simp only [decoders, List.mem_cons, List.not_mem_nil, or_false] at hmem
  rcases hmem with rfl | rfl | rfl | rfl | rfl
  case inl | inr.inl =>
    simp only [decodeSourceLinkAddr, decodeTargetLinkAddr, bind_eq_ok, return_eq_ok] at h
    obtain ⟨⟨t, units, data⟩, hd, rfl⟩ := h
    exact sized_of_typeAndData hd rfl
  case inr.inr.inl =>
    simp only [decodePrefixInfo, bind_eq_ok] at h
    obtain ⟨⟨t, units, data⟩, -, h⟩ := h
    dsimp only at h
    split at h
    · cases h
      exact sized_of_length (n := 4) rfl (by decide)
    · exact absurd h throw_ne_ok
  case inr.inr.inr.inl =>
    simp only [decodeMtu, bind_eq_ok] at h
    obtain ⟨⟨t, units, data⟩, -, h⟩ := h
    dsimp only at h
    split at h
    · cases h
      exact sized_of_length (n := 1) rfl (by decide)
    · exact absurd h throw_ne_ok
  case inr.inr.inr.inr =>
    simp only [decodeUnknown, bind_eq_ok, return_eq_ok] at h
    obtain ⟨⟨t, units, data⟩, hd, rfl⟩ := h
    exact sized_of_typeAndData hd rfl

theorem SctpChunk.Declared.sized {c : SctpChunk} (h : c.Declared) : c.Sized := by
  rw [Sized, ← h]
  exact Nat.le_of_lt_succ c.lengthField.toNat_lt

theorem SctpChunk.sized_of_decode {w : Window} {c : SctpChunk} (h : decode w = .ok c) :
    c.Sized := by
  obtain ⟨-, -, hdeclared, -⟩ := decode_eq_ok_iff.mp h
  exact hdeclared.sized

namespace GtpExtension

/-- An extension header that fills no more units than its length octet
can tell. -/
theorem sized_of_length {e : GtpExtension} {n : Nat} (h : e.length = n * 4) (hn : n ≤ 255) :
    e.Sized := by
  constructor <;> omega

theorem sized_withType {e : GtpExtension} (h : e.Sized) (t : GtpExtensionType) :
    (e.withType t).Sized := by
  rw [Sized, length_withType]
  exact h

theorem sized_of_decode {decode : Window → Except DecodeError GtpExtension}
    (hmem : decode ∈ decoders) {w : Window} {e : GtpExtension} (h : decode w = .ok e) :
    e.Sized := by
  simp only [decoders, List.mem_cons, List.not_mem_nil, or_false] at hmem
  rcases hmem with rfl | rfl | rfl | rfl | rfl | rfl
  case inl | inr.inl =>
    obtain ⟨value, -, rfl⟩ := of_decodeWord h
    exact sized_of_length (n := 1) rfl (by decide)
  case inr.inr.inl =>
    obtain ⟨number, spare, -, -, rfl⟩ := of_decodeLongPduNumber h
    exact sized_of_length (n := 2) rfl (by decide)
  case inr.inr.inr.inl =>
    obtain ⟨sci, spare, -, rfl⟩ := of_decodeServiceClassIndicator h
    exact sized_of_length (n := 1) rfl (by decide)
  case inr.inr.inr.inr.inl =>
    obtain ⟨units, info, padding, -, -, -, -, hunits, hlen, rfl⟩ := of_decodePduSessionContainer h
    exact sized_of_length (length_of_units hlen) (hunits ▸ Nat.le_of_lt_succ units.toNat_lt)
  case inr.inr.inr.inr.inr =>
    obtain ⟨units, content, -, -, -, hpos, hlen, rfl⟩ := of_decodeUnknown h
    refine sized_of_length (n := units.toNat) ?_ (Nat.le_of_lt_succ units.toNat_lt)
    rw [length, contentLength, hlen]
    omega

end GtpExtension

/-! ## Layers that are decoded -/

theorem Ipv6Header.admissible_of_read? {bs rest : Bytes} {h : Ipv6Header}
    (hr : read? bs = some (h, rest)) : (Carrier.ipv6 h).Admissible := by
  simp only [read?, Bytes.bind_eq_some, Bytes.return_eq_some] at hr
  obtain ⟨word, _, -, _, _, -, _, _, -, _, _, -, _, _, -, _, _, -, rfl, -⟩ := hr
  exact ⟨versionBits.toNat_toUInt8_get_le word, flowLabelBits.toNat_get_le word⟩

theorem FragmentHeader.admissible_of_read? {bs rest : Bytes} {h : FragmentHeader}
    (hr : read? bs = some (h, rest)) : (Carrier.fragment h).Admissible := by
  simp only [read?, Bytes.bind_eq_some, Bytes.return_eq_some] at hr
  obtain ⟨_, _, -, _, _, -, word, _, -, _, _, -, rfl, -⟩ := hr
  exact ⟨fragOffsetBits.toNat_toUInt16_get_le _, resBits.toNat_toUInt8_get_le _⟩

theorem OptionsHeader.sized_of_read {kind : OptionsKind}
    {decode : Window → Except DecodeError Ipv6Option}
    (sized : ∀ w o, decode w = .ok o → o.Sized) {w : Window} {h : OptionsHeader}
    {unparsed : Bytes} {inner : Inner} (hr : read kind decode w = .ok (h, unparsed, inner)) :
    ∀ o ∈ h.options, o.Sized := by
  unfold read at hr
  split at hr
  · cases hr
    exact forall_mem_elementsFrom sized _ _ _ _
  · cases hr

theorem GtpHeader.version_le_of_mandatory? {bs rest : Bytes} {h : GtpHeader}
    (hr : mandatory? bs = some (h, rest)) : h.version.toNat ≤ versionBits.max.toNat := by
  simp only [mandatory?, Bytes.bind_eq_some, Bytes.return_eq_some] at hr
  obtain ⟨flags, _, -, _, _, -, _, _, -, _, _, -, rfl, -⟩ := hr
  exact versionBits.toNat_toUInt8_get_le _

/-- A message without extension headers can be written with the chain of a
region, which starts with the type that the message announces. -/
theorem GtpHeader.admissible_withChain {h : GtpHeader}
    {decode : GtpExtensionType → Window → Except DecodeError GtpExtension}
    (exact : ∀ t, GtpExtension.ExactFor t (decode t))
    (sized : ∀ t w e, decode t w = .ok e → e.Sized)
    (version_le : h.version.toNat ≤ versionBits.max.toNat) (hnone : h.extensions = [])
    (region : Window) : (h.withChain decode region).Admissible := by
  rw [withChain]
  split
  · next hflag =>
    refine ⟨version_le, fun hunset => ?_, ?_, fun e he => ?_⟩
    · rw [hflag] at hunset
      cases hunset
    · exact forall_mem_chainFrom
        (fun t w e he => GtpExtension.sized_withType (sized t w e he) t) _ _ _ _
    · -- What the chain announces is the type it was read with.
      have hannounced := (readChain_exact exact h.nextExtType region).1
      have he : (readChain decode h.nextExtType region).extensions.head? = some e := he
      rw [GtpChain.announced, he] at hannounced
      exact hannounced
  · refine ⟨version_le, fun _ => hnone, ?_, ?_⟩
    · rw [hnone]
      exact List.forall_mem_nil _
    · rw [hnone]
      exact fun e he => absurd he (Option.not_mem_none e)

theorem GtpHeader.admissible_of_read
    {decode : GtpExtensionType → Window → Except DecodeError GtpExtension}
    (exact : ∀ t, GtpExtension.ExactFor t (decode t))
    (sized : ∀ t w e, decode t w = .ok e → e.Sized) {w : Window} {h : GtpHeader}
    {trailer : Bytes} {inner : Inner} (hr : read decode w = .ok (h, trailer, inner)) :
    h.Admissible := by
  simp only [read, bind_eq_ok, Window.read_eq_ok, Prod.exists] at hr
  obtain ⟨h₀, rest₀, hread, hr⟩ := hr
  split at hr
  · exact absurd hr throw_ne_ok
  · next h₁ rest₁ hopt =>
    simp only [return_eq_ok, Prod.mk.injEq] at hr
    obtain ⟨rfl, -, -⟩ := hr
    obtain ⟨⟨sequenceNumber, npduNumber, nextExtType, rfl⟩, -⟩ := optional?_exact hopt
    have hversion := version_le_of_mandatory? hread
    have hnone := extensions_of_mandatory? hread
    exact admissible_withChain (h := { h₀ with sequenceNumber, npduNumber, nextExtType }) exact
      sized hversion hnone _

/-- A layer that was read can be written. A frame always can. -/
def Peeled.Admissible : Peeled → Prop
  | leaf l => l.Admissible
  | carrier c _ => c.Admissible
  | frame _ _ _ => True

variable {ctx : Context}

/-- **A layer that is decoded can be written.** -/
theorem Context.admissible_peel (library : ctx.decoders.OfLibrary) (exact : ctx.decoders.Exact)
    {f : Format} {w : Window} {l : Peeled} (h : ctx.peel f w = .ok l) : l.Admissible := by
  have hoption : ∀ w o, ctx.decoders.ipv6Option w = .ok o → o.Sized := fun w o =>
    Ipv6Option.sized_of_decode (library.ipv6Options.get _)
  have hndp : ∀ w o, ctx.decoders.ndpOption w = .ok o → o.Sized := fun w o =>
    NdpOption.sized_of_decode (library.ndpOptions.get _)
  have hext : ∀ t w e, ctx.decoders.gtpExtension t w = .ok e → e.Sized := fun t w e =>
    GtpExtension.sized_of_decode (library.gtpExtensions.get t)
  cases f <;> simp only [peel, peel.options, bind_eq_ok, return_eq_ok, Prod.exists,
    Window.read_eq_ok] at h
  case ethernet =>
    obtain ⟨h, body, fcs, rfl, -⟩ := EthernetHeader.frame_of_readFrame h
    trivial
  case arp =>
    obtain ⟨h, rest, -, rfl⟩ := h
    trivial
  case ipv6 =>
    obtain ⟨h, rest, hr, rfl⟩ := h
    exact Ipv6Header.admissible_of_read? hr
  case hopByHop | destination =>
    obtain ⟨h, unparsed, inner, hr, rfl⟩ := h
    exact OptionsHeader.sized_of_read hoption hr
  case fragment =>
    obtain ⟨h, inner, hr, rfl⟩ := h
    simp only [FragmentHeader.read, bind_eq_ok, return_eq_ok, Window.read_eq_ok, Prod.exists,
      Prod.mk.injEq] at hr
    obtain ⟨h, rest, hread, rfl, -⟩ := hr
    exact FragmentHeader.admissible_of_read? hread
  case routing | icmpv6 | echo =>
    obtain ⟨h, inner, -, rfl⟩ := h
    trivial
  case solicitation =>
    obtain ⟨h, trailer, hr, rfl⟩ := h
    simp only [SolicitationHeader.read, bind_eq_ok, return_eq_ok, Prod.exists, Prod.mk.injEq] at hr
    obtain ⟨_, _, _, -, rfl, -⟩ := hr
    exact forall_mem_elementsFrom hndp _ _ _ _
  case advertisement =>
    obtain ⟨h, trailer, hr, rfl⟩ := h
    simp only [AdvertisementHeader.read, bind_eq_ok, return_eq_ok, Prod.exists,
      Prod.mk.injEq] at hr
    obtain ⟨_, _, _, -, rfl, -⟩ := hr
    exact ⟨AdvertisementHeader.reservedBits.toNat_get_le _,
      forall_mem_elementsFrom hndp _ _ _ _⟩
  case udp =>
    obtain ⟨h, trailer, inner, -, rfl⟩ := h
    trivial
  case sctp =>
    obtain ⟨h, trailer, hr, rfl⟩ := h
    simp only [SctpHeader.read, bind_eq_ok, return_eq_ok, Prod.exists, Prod.mk.injEq] at hr
    obtain ⟨_, _, _, _, _, -, rfl, -⟩ := hr
    exact forall_mem_elementsFrom (fun w c => SctpChunk.sized_of_decode) _ _ _ _
  case gtp =>
    obtain ⟨h, trailer, inner, hr, rfl⟩ := h
    exact GtpHeader.admissible_of_read exact.gtpExtension hext hr

/-! ## Packets that are decoded -/

/-- **A layer over its payload** can be written when both can. -/
theorem Peeled.admissible_assemble {payload : Selector → Window → Option Packet}
    (h : ∀ key w, ∀ p ∈ payload key w, p.Admissible) {l : Peeled} (hl : l.Admissible) :
    (l.assemble payload).Admissible := by
  cases l with
  | leaf l => exact hl
  | carrier c inner =>
    rw [assemble_carrier]
    refine Packet.admissible_ofCarrier hl fun p hp => ?_
    cases inner with
    | nothing => cases hp
    | kept data => cases hp; trivial
    | dispatch key w => exact h key w p hp
  | frame header body fcs =>
    rw [assemble, EthernetHeader.frame_eq_ofCarrier]
    split
    · exact Packet.admissible_ofCarrier trivial (h _ _)
    · exact ⟨trivial, trivial⟩

/-- **A payload that is decoded can be written.** -/
theorem Context.admissible_payload (library : ctx.decoders.OfLibrary) (exact : ctx.decoders.Exact)
    (left : Nat) (key : Selector) (w : Window) : ∀ p ∈ ctx.payload left key w, p.Admissible := by
  refine payload_induction (P := fun _ _ _ p _ => ∀ q ∈ p, q.Admissible) library.native
    (fun _ _ _ _ q hq => absurd hq (Option.not_mem_none q)) ?_ ?_ ?_ left key w
  · -- Bytes that are kept, and bytes that a decoder rejects: both are written as they are.
    rintro left key w _ ⟨⟩
    trivial
  · rintro left key w e _ ⟨⟩
    trivial
  · rintro left key w f l - hl ih _ ⟨⟩
    exact Peeled.admissible_assemble ih (admissible_peel library exact hl)

section Decoded

variable (library : ctx.decoders.OfLibrary) (exact : ctx.decoders.Exact)
include library exact

theorem Context.admissible_decodeWindow {f : Format} {w : Window} {p : Packet}
    (h : ctx.decodeWindow f w = .ok p) : p.Admissible := by
  rw [decodeWindow, map_eq_ok] at h
  obtain ⟨l, hl, rfl⟩ := h
  exact Peeled.admissible_assemble (admissible_payload library exact _)
    (admissible_peel library exact hl)

theorem Context.admissible_decodeFcs {buf : Bytes} {offset length : Nat} {p : Packet}
    (h : ctx.decodeFcs buf offset length = .ok p) : p.Admissible := by
  rw [decodeFcs, bind_eq_ok] at h
  obtain ⟨w, -, h⟩ := h
  rw [decodeFcsWindow, map_eq_ok] at h
  obtain ⟨l, hl, rfl⟩ := h
  obtain ⟨h, body, fcs, rfl, -⟩ := EthernetHeader.frame_of_readFrame hl
  exact Peeled.admissible_assemble (admissible_payload library exact _) trivial

theorem Context.admissible_decodeWith {d : PacketDecoder} (native : d.Native) {buf : Bytes}
    {offset length : Nat} {p : Packet} (h : ctx.decodeWith d buf offset length = .ok p) :
    p.Admissible := by
  cases d with
  | format f =>
    rw [decodeWith, decode, bind_eq_ok] at h
    obtain ⟨w, -, h⟩ := h
    exact admissible_decodeWindow library exact h
  | unknown =>
    cases h
    trivial
  | custom name decode => exact native.elim

theorem Context.admissible_decodePayload {key : Selector} {buf : Bytes} {offset length : Nat}
    {p : Packet} (h : ctx.decodePayload key buf offset length = some p) : p.Admissible := by
  rw [decodePayload] at h
  split at h
  · cases h
  · split at h
    · next w hw => exact admissible_payload library exact _ key w p h
    · dsimp only at h
      split at h
      · cases h
        trivial
      · split at h
        · next q hq =>
          cases h
          exact admissible_decodeWith library exact (library.native key) hq
        · cases h
          trivial

end Decoded

/-! ## Packets that can come about -/

/-- **A packet that can come about**, with given decoders: it is decoded,
as a packet of its own or as a payload, or it is built; or it is a layer of
such a packet with all that it carries. -/
inductive Packet.Obtainable (d : Decoders) : Packet → Prop
  | decoded {settings : Settings} {decoder : PacketDecoder} {buf : Bytes} {offset length : Nat}
      {p : Packet} (native : decoder.Native)
      (h : Context.decodeWith ⟨d, settings⟩ decoder buf offset length = .ok p) : Obtainable d p
  | frame {settings : Settings} {buf : Bytes} {offset length : Nat} {p : Packet}
      (h : Context.decodeFcs ⟨d, settings⟩ buf offset length = .ok p) : Obtainable d p
  | payload {settings : Settings} {key : Selector} {buf : Bytes} {offset length : Nat} {p : Packet}
      (h : Context.decodePayload ⟨d, settings⟩ key buf offset length = some p) : Obtainable d p
  | built {draft : Draft} {p : Packet} (h : draft.build = .ok p) : Obtainable d p
  | layer {p l : Packet} (h : Obtainable d p) (hl : l ∈ p.layers) : Obtainable d l

theorem Packet.Obtainable.of_decode {d : Decoders} {settings : Settings} {f : Format} {buf : Bytes}
    {offset length : Nat} {p : Packet}
    (h : Context.decode ⟨d, settings⟩ f buf offset length = .ok p) : p.Obtainable d := by
  have native : (PacketDecoder.format f).Native := trivial
  exact .decoded native h

/-- **A packet that can come about can be written.** -/
theorem Packet.Obtainable.admissible {d : Decoders} (library : d.OfLibrary) (exact : d.Exact)
    {p : Packet} (h : p.Obtainable d) : p.Admissible := by
  induction h with
  | decoded native h => exact Context.admissible_decodeWith library exact native h
  | frame h => exact Context.admissible_decodeFcs library exact h
  | payload h => exact Context.admissible_decodePayload library exact h
  | built h => exact Draft.admissible_build h
  | layer _ hl ih => exact ih.of_mem_layers hl

end PacketCodec
