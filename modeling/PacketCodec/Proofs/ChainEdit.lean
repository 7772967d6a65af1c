import PacketCodec.Proofs.Depth
import PacketCodec.Proofs.GtpReadback
import PacketCodec.Proofs.Obtainable

/-!
# Replacing the chain of a message

A draft made from a decoded message holds the flag that announces extension
headers and the type of the first one. When its extension headers are
replaced by others, the type of the first of those is written, and what is
built is decoded to the new ones. When they are replaced by none, the type
that it holds is written, and it still announces an extension header
(`Draft.decode_build_extensions`).

The new extension headers are ones that stand for themselves
(`GtpExtension.StandsForItself`). Those are the well-formed ones, because
what the decoders of extension headers return is well-formed
(`GtpExtension.wellFormed_of_decode`). That a message with extension headers
announces and ends its chain is a fact about messages that are decoded; it
holds of every layer of a packet, since each was read off some window
(`Context.exists_peel_of_mem_layers`).
-/

namespace PacketCodec

/-! ## What decoders return is well-formed -/

/-- An optional field that is read has what every field that is read has. -/
theorem Bytes.optional?_eq_some {α : Type} {read : Bytes → Option (α × Bytes)} {P : α → Prop}
    (h : ∀ {bs rest a}, read bs = some (a, rest) → P a) {present : Bool} {bs rest : Bytes}
    {o : Option α} (ho : optional? present read bs = some (o, rest)) : ∀ a ∈ o, P a := by
  cases present with
  | false =>
    cases ho
    exact fun a ha => absurd ha (Option.not_mem_none a)
  | true =>
    simp only [optional?, if_true, Option.map_eq_some_iff, Prod.exists, Prod.mk.injEq] at ho
    obtain ⟨a, _, hread, rfl, -⟩ := ho
    rintro _ ⟨⟩
    exact h hread

theorem qfi_lt (word : UInt32) : (qfiBits.get word).toUInt8.toNat < 64 :=
  Nat.lt_succ_of_le (qfiBits.toNat_toUInt8_get_le word)

theorem DownlinkInfo.encodable_of_fields? {b₀ b₁ : UInt32} {bs rest : Bytes} {i : DownlinkInfo}
    (h : fields? b₀ b₁ bs = some (i, rest)) : i.Encodable := by
  simp only [fields?, Bytes.bind_eq_some, Bytes.return_eq_some] at h
  obtain ⟨_, _, -, _, _, -, sequenceNumber, _, hsequence, _, _, -, rfl, -⟩ := h
  exact ⟨qfi_lt b₁, Bytes.optional?_eq_some (fun hn => (Bytes.u24?_eq_some.mp hn).2) hsequence⟩

theorem UplinkInfo.encodable_of_fields? {b₀ b₁ : UInt32} {bs rest : Bytes} {i : UplinkInfo}
    (h : fields? b₀ b₁ bs = some (i, rest)) : i.Encodable := by
  simp only [fields?, Bytes.bind_eq_some, Bytes.return_eq_some] at h
  obtain ⟨_, _, -, _, _, -, _, _, -, sequenceNumber, _, hsequence, _, _, -, _, _, -, rfl, -⟩ := h
  exact ⟨qfi_lt b₁, Bytes.optional?_eq_some (fun hn => (Bytes.u24?_eq_some.mp hn).2) hsequence⟩

namespace GtpExtension

theorem encodable_of_readSessionInfo {w : Window} {info : SessionInfo} {rest : Bytes}
    (h : readSessionInfo w = .ok (info, rest)) : info.Encodable := by
  obtain ⟨_, _, _, -, ⟨i, -, hf, rfl⟩ | ⟨i, -, hf, rfl⟩⟩ := of_readSessionInfo h
  · exact DownlinkInfo.encodable_of_fields? hf
  · exact UplinkInfo.encodable_of_fields? hf

/-- The content of an extension header of any type fills its units. -/
theorem wellFormed_of_decodeUnknown {w : Window} {e : GtpExtension} (h : decodeUnknown w = .ok e)
    {t : GtpExtensionType} (more : t ≠ GtpExtensionType.noMore)
    (free : Decoders.standard.gtpExtensions.contains t = false) : (e.withType t).WellFormed := by
  obtain ⟨units, content, -, -, -, hpos, hlen, rfl⟩ := of_decodeUnknown h
  have hlt := units.toNat_lt
  exact ⟨more, free, by omega, by omega⟩

end GtpExtension

/-- A number that a decoder is assigned to selects that decoder. -/
theorem Registry.mem_entries_of_contains {κ δ : Type} [BEq κ] [LawfulBEq κ] {r : Registry κ δ}
    {k : κ} (h : r.contains k = true) : (k, r.get k) ∈ r.entries := by
  obtain ⟨d, hd⟩ := Option.isSome_iff_exists.mp h
  obtain ⟨front, back, hentries, -⟩ := List.lookup_eq_some_iff.mp hd
  rw [get, hd, Option.getD_some, hentries]
  exact List.mem_append_right front List.mem_cons_self

/-- **What is decoded is well-formed**, filled in with the type that selects
the decoder. -/
theorem GtpExtension.wellFormed_of_decode {t : GtpExtensionType}
    (more : t ≠ GtpExtensionType.noMore) {w : Window} {e : GtpExtension}
    (h : Decoders.standard.gtpExtension t w = .ok e) : (e.withType t).WellFormed := by
  cases hc : Decoders.standard.gtpExtensions.contains t with
  | false =>
    rw [Decoders.gtpExtension, Registry.get_of_not_contains hc] at h
    exact wellFormed_of_decodeUnknown h more hc
  | true =>
    have hentries : Decoders.standard.gtpExtensions.entries
        = [(GtpExtensionType.pduSessionContainer, decodePduSessionContainer),
          (GtpExtensionType.serviceClassIndicator, decodeServiceClassIndicator),
          (GtpExtensionType.longPduNumber₂, decodeLongPduNumber),
          (GtpExtensionType.longPduNumber, decodeLongPduNumber),
          (GtpExtensionType.pduNumber, decodePduNumber),
          (GtpExtensionType.udpPort, decodeUdpPort)] := rfl
    have hmem := Registry.mem_entries_of_contains hc
    rw [Decoders.gtpExtension] at h
    generalize Decoders.standard.gtpExtensions.get t = decode at h hmem
    simp only [hentries, List.mem_cons, Prod.mk.injEq, List.not_mem_nil, or_false] at hmem
    rcases hmem with ⟨rfl, rfl⟩ | ⟨rfl, rfl⟩ | ⟨rfl, rfl⟩ | ⟨rfl, rfl⟩ | ⟨rfl, rfl⟩ | ⟨rfl, rfl⟩
    · -- The padding is what the units have room for behind the information.
      obtain ⟨_, info, padding, _, _, -, hinfo, -, hlen, rfl⟩ := of_decodePduSessionContainer h
      exact ⟨encodable_of_readSessionInfo hinfo, hlen⟩
    · obtain ⟨sci, spare, -, rfl⟩ := of_decodeServiceClassIndicator h
      trivial
    · obtain ⟨number, spare, -, hlt, rfl⟩ := of_decodeLongPduNumber h
      exact ⟨.inr rfl, hlt⟩
    · obtain ⟨number, spare, -, hlt, rfl⟩ := of_decodeLongPduNumber h
      exact ⟨.inl rfl, hlt⟩
    · obtain ⟨value, -, rfl⟩ := of_decodeWord h
      trivial
    · obtain ⟨value, -, rfl⟩ := of_decodeWord h
      trivial

/-- **An extension header that stands for itself**: decoded on its own,
from what is written for it in front of some other type, and filled in
with its type, it is what it was. -/
def GtpExtension.StandsForItself (e : GtpExtension) : Prop :=
  e.extensionType ≠ GtpExtensionType.noMore
    ∧ ∃ offset next,
      (Decoders.standard.gtpExtension e.extensionType ⟨offset, e.toBytes next⟩).map
        (withType e.extensionType) = .ok e

theorem GtpExtension.standsForItself_iff {e : GtpExtension} :
    e.StandsForItself ↔ e.WellFormed := by
  constructor
  · rintro ⟨more, offset, next, h⟩
    obtain ⟨e', hdecode, he⟩ := map_eq_ok.mp h
    rw [← he]
    exact wellFormed_of_decode more hdecode
  · intro h
    obtain ⟨e', hdecode, he⟩ := h.readsBack.decode 0 GtpExtensionType.noMore []
    rw [List.append_nil] at hdecode
    exact ⟨h.ne_noMore, 0, GtpExtensionType.noMore, map_eq_ok.mpr ⟨e', hdecode, he⟩⟩

/-! ## Chains that are decoded -/

section Chain

variable {decode : GtpExtensionType → Window → Except DecodeError GtpExtension}

/-- A chain that was not cut short ends with the type that says so. -/
theorem chainFrom_tail (next : GtpExtensionType) (skip offset : Nat) (bs : Bytes)
    (uncut : (chainFrom decode next skip offset bs).truncated = false) :
    (chainFrom decode next skip offset bs).tail = GtpExtensionType.noMore := by
  fun_induction chainFrom decode next skip offset bs with
  | case1 next skip offset => exact bne_eq_false_iff_eq.mp uncut
  | case2 next skip offset b rest ih => exact ih uncut
  | case3 => rfl
  | case4 | case5 => cases uncut
  | case6 next offset b rest hnext e he following hfollowing below ih => exact ih uncut

/-- **Where extension headers are announced and the chain is not cut short,
there are some.** -/
theorem readChain_extensions_ne_nil (exact : ∀ t, GtpExtension.ExactFor t (decode t))
    {first : GtpExtensionType} (hfirst : first ≠ GtpExtensionType.noMore) {region : Window}
    (uncut : (readChain decode first region).truncated = false) :
    (readChain decode first region).extensions ≠ [] := by
  intro hnil
  have hannounced := (readChain_exact exact first region).1
  rw [GtpChain.announced, hnil] at hannounced
  exact hfirst (hannounced.symm.trans (chainFrom_tail first 0 region.offset region.bytes uncut))

/-- Nothing is read where no extension header is announced. -/
theorem ne_noMore_of_readChain {first : GtpExtensionType} {region : Window}
    (h : (readChain decode first region).extensions ≠ []) : first ≠ GtpExtensionType.noMore := by
  rintro rfl
  exact h (by rw [readChain, chainFrom_noMore])

/-- **What a decoded message says about its chain**: with extension headers
the type of the first is announced, and when the chain was not cut short
its end is. -/
theorem GtpHeader.chain_of_read {w : Window} {h : GtpHeader} {trailer : Bytes} {inner : Inner}
    (hr : read decode w = .ok (h, trailer, inner)) (extensions : h.extensions ≠ [])
    (uncut : h.truncated = false) :
    h.nextExtType ≠ GtpExtensionType.noMore ∧ h.chainTail = GtpExtensionType.noMore := by
  simp only [read, bind_eq_ok, Window.read_eq_ok, Prod.exists] at hr
  obtain ⟨h₀, rest₀, hread, hr⟩ := hr
  split at hr
  · exact absurd hr throw_ne_ok
  · next h₁ rest₁ hopt =>
    simp only [return_eq_ok, Prod.mk.injEq] at hr
    obtain ⟨rfl, -, -⟩ := hr
    obtain ⟨⟨sequenceNumber, npduNumber, nextExtType, rfl⟩, -⟩ := optional?_exact hopt
    have hnone := extensions_of_mandatory? hread
    unfold withChain at extensions uncut ⊢
    split at extensions
    · next hflag =>
      rw [if_pos hflag] at uncut ⊢
      exact ⟨ne_noMore_of_readChain extensions, chainFrom_tail _ _ _ _ uncut⟩
    · exact absurd hnone extensions

end Chain

/-! ## Layers that are decoded -/

/-- **A layer of a decoded packet was read off some window**, frames apart,
whose pad depends on their payload. -/
theorem Peeled.exists_peel_of_mem_chain {ctx : Context}
    {payload : Selector → Window → Option Packet} {c : Carrier}
    (frameless : c.format ≠ .ethernet)
    (below : ∀ key w, .inr c ∈ Packet.chain (payload key w) →
      ∃ f v inner, ctx.peel f v = .ok (.carrier c inner))
    {f : Format} {w : Window} {l : Peeled} (hl : ctx.peel f w = .ok l)
    (hc : .inr c ∈ Packet.chain (some (l.assemble payload))) :
    ∃ f v inner, ctx.peel f v = .ok (.carrier c inner) := by
  have kept : ∀ data, .inr c ∉ Packet.chain (some (.unknown data)) := fun data h => by
    cases List.mem_singleton.mp h
  cases l with
  | leaf l => cases List.mem_singleton.mp hc
  | carrier c' inner =>
    rw [assemble_carrier, Packet.chain_ofCarrier] at hc
    rcases List.mem_cons.mp hc with hc | hc
    · cases hc
      exact ⟨f, w, inner, hl⟩
    · cases inner with
      | nothing => cases hc
      | kept data => exact absurd hc (kept data)
      | dispatch key v => exact below key v hc
  | frame header body fcs =>
    rw [assemble, EthernetHeader.frame_eq_ofCarrier] at hc
    split at hc
    · rw [Packet.chain_ofCarrier] at hc
      rcases List.mem_cons.mp hc with hc | hc
      · cases hc
        exact absurd rfl frameless
      · exact below _ _ hc
    · rcases List.mem_cons.mp hc with hc | hc
      · cases hc
        exact absurd rfl frameless
      · exact absurd hc (kept body.bytes)

theorem Context.exists_peel_of_mem_layers {ctx : Context} (library : ctx.decoders.OfLibrary)
    {f : Format} {buf : Bytes} {offset length : Nat} {p l : Packet}
    (h : ctx.decode f buf offset length = .ok p) (hl : l ∈ p.layers) {c : Carrier}
    (hc : l.own = .inr c) (frameless : c.format ≠ .ethernet) :
    ∃ g v inner, ctx.peel g v = .ok (.carrier c inner) := by
  have below (left : Nat) (key : Selector) (w : Window) :
      .inr c ∈ Packet.chain (ctx.payload left key w) →
        ∃ g v inner, ctx.peel g v = .ok (.carrier c inner) := by
    refine payload_induction
      (P := fun _ _ _ p _ => .inr c ∈ Packet.chain p →
        ∃ g v inner, ctx.peel g v = .ok (.carrier c inner)) library.native ?_ ?_ ?_ ?_ left key w
    · exact fun _ _ _ _ hmem => absurd hmem List.not_mem_nil
    · exact fun _ _ _ hmem => by cases List.mem_singleton.mp hmem
    · exact fun _ _ _ _ hmem => by cases List.mem_singleton.mp hmem
    · exact fun _ _ _ _ _ _ hpeel ih hmem =>
        Peeled.exists_peel_of_mem_chain frameless ih hpeel hmem
  rw [decode, bind_eq_ok] at h
  obtain ⟨w, -, h⟩ := h
  rw [decodeWindow, map_eq_ok] at h
  obtain ⟨l', hpeel, rfl⟩ := h
  exact Peeled.exists_peel_of_mem_chain frameless (below _) hpeel
    (List.mem_map.mpr ⟨l, hl, hc⟩)

/-! ## Messages that are edited -/

theorem GtpHeader.chain_of_mem_layers {ctx : Context} (library : ctx.decoders.OfLibrary)
    {f : Format} {buf : Bytes} {offset length : Nat} {p : Packet}
    (hp : ctx.decode f buf offset length = .ok p) {h : GtpHeader} {trailer : Bytes}
    {payload : Option Packet} (layer : .ofCarrier (.gtp h trailer) payload ∈ p.layers)
    (extensions : h.extensions ≠ []) (uncut : h.truncated = false) :
    h.nextExtType ≠ GtpExtensionType.noMore ∧ h.chainTail = GtpExtensionType.noMore := by
  have hown : (Packet.ofCarrier (.gtp h trailer) payload).own = .inr (.gtp h trailer) := by
    cases payload <;> rfl
  obtain ⟨g, v, inner, hpeel⟩ := ctx.exists_peel_of_mem_layers library hp layer hown
    Format.noConfusion
  obtain rfl : g = .gtp := (Kind.format.inj (Context.kind_of_peel hpeel)).symm
  obtain ⟨⟨h', trailer', inner'⟩, hread, hl⟩ := bind_eq_ok.mp hpeel
  cases hl
  exact chain_of_read hread extensions uncut

/-- **What is decoded of a message that is built with its length corrected**
is its header, with the chain that is read where its extension headers and
its payload are. -/
theorem Draft.decode_of_build_gtp {d : GtpDraft} (correct : d.correctLength = true)
    (version : d.version.toNat < 8) {payload : Option Draft} {q : Packet}
    (h : (ofCarrier (.gtp d) payload).build = .ok q) (ctx : Context) :
    ∃ n offset behind payload',
      let region := chainBytes d.chainTail d.extensions ++ behind
      let header := (d.headerWith n).onWire.withoutChain.withChain ctx.decoders.gtpExtension
        ⟨offset, region⟩
      ctx.decode .gtp q.toBytes 0 q.toBytes.length
        = .ok (.ofCarrier (.gtp header d.trailer) payload') := by
  obtain ⟨-, below, carrier, -, hcomplete, rfl⟩ := build_ofCarrier_eq_ok.mp h
  obtain ⟨header, hheader, rfl⟩ := map_eq_ok.mp hcomplete
  obtain ⟨hfits, rfl⟩ := (GtpDraft.header_eq_ok_of_correctLength correct).mp hheader
  rw [← Packet.length_payloadBytes] at hfits ⊢
  set n := UInt16.ofNat (d.correctedLength (payloadBytes below).length) with hn
  have hlength : GtpHeader.size + (d.headerWith n).lengthField.toNat
      = (d.headerWith n).length + (payloadBytes below).length := by
    show GtpHeader.size + n.toNat = _
    rw [hn, UInt16.toNat_ofNat_of_lt' hfits, d.correctedLength_add_size]
    rfl
  have hbytes : (Packet.ofCarrier (.gtp (d.headerWith n) d.trailer) below).toBytes
      = (d.headerWith n).toBytes ++ (payloadBytes below ++ d.trailer) :=
    Packet.toBytes_ofCarrier_of_unparsed rfl below
  rw [hbytes]
  exact ⟨n, _, _, _, ctx.decode_gtp_of_read
    (GtpHeader.read_toBytes_append (h := d.headerWith n) version hlength 0 d.trailer)⟩

/-- **A draft that is given the type of an extension header**, with the flag
set: its own extension headers are announced in place of it, but where there
are none it still announces one. -/
structure GtpDraft.Announcing (d : GtpDraft) : Prop where
  version : d.version.toNat < 8
  extFlag : d.extFlag = some true
  nextExtType : ∃ t, d.nextExtType = some t ∧ t ≠ GtpExtensionType.noMore
  chainTail : d.chainTail = GtpExtensionType.noMore

namespace GtpDraft.Announcing

variable {d : GtpDraft}

theorem extFlag_headerWith (hd : d.Announcing) (lengthField : UInt16) :
    (d.headerWith lengthField).extFlag = true := by
  show d.extFlagOrDefault = true
  rw [extFlagOrDefault, hd.extFlag, Option.getD_some]

theorem readable_headerWith (hd : d.Announcing) (extensions : d.extensions ≠ [])
    (wellFormed : ∀ e ∈ d.extensions, e.WellFormed) (lengthField : UInt16) :
    (d.headerWith lengthField).Readable Decoders.standard.gtpExtension where
  version := hd.version
  flagged unflagged :=
    absurd ((hd.extFlag_headerWith lengthField).symm.trans unflagged) Bool.noConfusion
  announced := by
    obtain ⟨e, es, hes⟩ := List.exists_cons_of_ne_nil extensions
    rw [headerWith, hes]
    rfl
  chainTail := hd.chainTail
  truncated := rfl
  readsBack e he := (wellFormed e he).readsBack

/-- Where there are none, something is read as an extension header or the
chain is cut short. -/
theorem extensions_withChain_ne_nil (hd : d.Announcing) (extensions : d.extensions = [])
    {decode : GtpExtensionType → Window → Except DecodeError GtpExtension}
    (exact : ∀ t, GtpExtension.ExactFor t (decode t)) {lengthField : UInt16} {region : Window}
    (uncut : ((d.headerWith lengthField).onWire.withoutChain.withChain decode region).truncated
      = false) :
    ((d.headerWith lengthField).onWire.withoutChain.withChain decode region).extensions ≠ [] := by
  have hflag := hd.extFlag_headerWith lengthField
  have honWire : (d.headerWith lengthField).onWire = d.headerWith lengthField :=
    if_pos (by rw [GtpHeader.hasOptional, hflag]; rfl)
  have hnext : (d.headerWith lengthField).nextExtType ≠ GtpExtensionType.noMore := by
    obtain ⟨t, ht, hmore⟩ := hd.nextExtType
    rwa [headerWith, extensions, ht]
  have hchain : (d.headerWith lengthField).withoutChain.extFlag = true := hflag
  rw [honWire, GtpHeader.withChain, if_pos hchain] at uncut ⊢
  exact readChain_extensions_ne_nil exact hnext uncut

end GtpDraft.Announcing

/-- **Whether the chain of an edited message is read back**: if and only if
there is one. -/
theorem Draft.decode_of_build_announcing {d : GtpDraft} (hd : d.Announcing)
    (correct : d.correctLength = true) (wellFormed : ∀ e ∈ d.extensions, e.WellFormed)
    {payload : Option Draft} {q : Packet} (h : (ofCarrier (.gtp d) payload).build = .ok q)
    (settings : Settings) :
    ∃ header payload',
      Context.decode ⟨.standard, settings⟩ .gtp q.toBytes 0 q.toBytes.length
          = .ok (.ofCarrier (.gtp header d.trailer) payload')
        ∧ (header.truncated = false ∧ header.extensions = d.extensions ↔ d.extensions ≠ []) := by
  obtain ⟨n, offset, behind, payload', hdecode⟩ :=
    decode_of_build_gtp correct hd.version h ⟨.standard, settings⟩
  refine ⟨_, payload', hdecode, fun heffect hnil => ?_, fun hne => ?_⟩
  · exact hd.extensions_withChain_ne_nil hnil Decoders.standard_exact.gtpExtension heffect.1
      (heffect.2.trans hnil)
  · have hchain := (hd.readable_headerWith hne wellFormed n).withChain_withoutChain offset behind
    rw [show (d.headerWith n).chainTail = d.chainTail from rfl,
      show (d.headerWith n).extensions = d.extensions from rfl] at hchain
    rw [hchain, GtpHeader.extensions_onWire, GtpHeader.onWire]
    refine ⟨?_, rfl⟩
    split <;> rfl

/-- **Replacing the extension headers of a decoded message.** The message is
any layer of a packet, it has extension headers, and its chain was not cut
short; those that take their place stand for themselves. If the edited
message is built with its length corrected, it is decoded, under whatever
settings, to one with exactly the new extension headers and a chain that is
not cut short – if there are some. Without any, the type of the first of the
old ones is still announced, and that is not what is decoded. -/
theorem Draft.decode_build_extensions {settings settings' : Settings} {f : Format} {buf : Bytes}
    {offset length : Nat} {p : Packet}
    (hp : Context.decode ⟨.standard, settings⟩ f buf offset length = .ok p) {h : GtpHeader}
    {trailer : Bytes} {payload : Option Packet}
    (layer : .ofCarrier (.gtp h trailer) payload ∈ p.layers) (extensions : h.extensions ≠ [])
    (uncut : h.truncated = false) {es : List GtpExtension} (hes : ∀ e ∈ es, e.StandsForItself)
    {q : Packet}
    (hq : (ofCarrier (.gtp { h.toDraft trailer with extensions := es, correctLength := true })
      (payload.map Packet.toDraft)).build = .ok q) :
    ∃ h' payload',
      Context.decode ⟨.standard, settings'⟩ .gtp q.toBytes 0 q.toBytes.length
          = .ok (.ofCarrier (.gtp h' trailer) payload')
        ∧ (h'.truncated = false ∧ h'.extensions = es ↔ es ≠ []) := by
  obtain ⟨hnext, htail⟩ := GtpHeader.chain_of_mem_layers Decoders.standard_ofLibrary hp layer
    extensions uncut
  have hadmissible : h.Admissible := by
    have hl := ((Packet.Obtainable.of_decode hp).admissible Decoders.standard_ofLibrary
      Decoders.standard_exact).of_mem_layers layer
    cases payload with
    | none => exact hl
    | some p => exact hl.1
  have hflag : h.extFlag = true := by
    cases hext : h.extFlag with
    | true => rfl
    | false => exact absurd (hadmissible.flagged hext) extensions
  have hannouncing : GtpDraft.Announcing
      { h.toDraft trailer with extensions := es, correctLength := true } :=
    { version := Nat.lt_succ_of_le hadmissible.version_le
      extFlag := congrArg some hflag
      nextExtType := ⟨h.nextExtType, rfl, hnext⟩
      chainTail := htail }
  exact decode_of_build_announcing hannouncing rfl
    (fun e he => GtpExtension.standsForItself_iff.mp (hes e he)) hq settings'

/-- An echo request with a UDP port over four octets. Another extension
header takes the place of the port; without any, a port is still announced,
and the four octets are read as one. -/
theorem Draft.decode_build_extensions_echo :
    let h : GtpHeader :=
      { version := 1, protocolType := true, reserved := false, extFlag := true, seqFlag := false,
        npduFlag := false, messageType := 1, lengthField := 12, teid := 1, sequenceNumber := 0,
        npduNumber := 0, nextExtType := 0x40, extensions := [.udpPort 0x1234], chainTail := 0,
        truncated := false }
    let buf : Bytes :=
      [0x34, 1, 0, 12, 0, 0, 0, 1, 0, 0, 0, 0x40, 1, 0x12, 0x34, 0, 1, 0xaa, 0xbb, 0]
    let data : Packet := .unknown [1, 0xaa, 0xbb, 0]
    let edited (es : List GtpExtension) : Draft := ofCarrier
      (.gtp { h.toDraft [] with extensions := es, correctLength := true }) (some data.toDraft)
    let read (q : Packet) := Context.decode {} .gtp q.toBytes 0 q.toBytes.length
    let emptied : Packet := .carry (.gtp { h with lengthField := 8, extensions := [] } []) data
    let misread : Packet :=
      .bare (.gtp { h with lengthField := 8, extensions := [.udpPort 0xaabb] } [])
    Context.decode {} .gtp buf 0 20 = .ok (.carry (.gtp h []) data)
      ∧ (∃ q h' below, (edited [.serviceClassIndicator 7 0]).build = .ok q
        ∧ read q = .ok (.ofCarrier (.gtp h' []) below)
        ∧ h'.truncated = false ∧ h'.extensions = [.serviceClassIndicator 7 0])
      ∧ (edited []).build = .ok emptied ∧ read emptied = .ok misread
      ∧ ∃ h' below, read emptied = .ok (.ofCarrier (.gtp h' []) below)
        ∧ ¬(h'.truncated = false ∧ h'.extensions = []) := by
  intro h buf data edited read emptied misread
  have hp : Context.decode {} .gtp buf 0 20 = .ok (.ofCarrier (.gtp h []) (some data)) := by
    decide +kernel
  have hlayer : .ofCarrier (.gtp h []) (some data) ∈ (Packet.carry (.gtp h []) data).layers :=
    List.mem_cons_self
  have hstands : (GtpExtension.serviceClassIndicator 7 0).StandsForItself :=
    GtpExtension.standsForItself_iff.mpr trivial
  have hemptied : (edited []).build = .ok emptied := rfl
  have hmisread : read emptied = .ok misread := by decide +kernel
  obtain ⟨q, hq⟩ := exists_of_isOk
    (show (edited [.serviceClassIndicator 7 0]).build.isOk = true by decide +kernel)
  have hreplaced := @decode_build_extensions {} {} .gtp buf 0 20 _ hp h [] (some data) hlayer
    (List.cons_ne_nil _ _) rfl [.serviceClassIndicator 7 0]
    (List.forall_mem_singleton.mpr hstands) q hq
  have hremoved := @decode_build_extensions {} {} .gtp buf 0 20 _ hp h [] (some data) hlayer
    (List.cons_ne_nil _ _) rfl [] (List.forall_mem_nil _) emptied hemptied
  obtain ⟨h₁, below₁, hread₁, heffect₁⟩ := hreplaced
  obtain ⟨h₂, below₂, hread₂, heffect₂⟩ := hremoved
  exact ⟨hp, ⟨q, h₁, below₁, hq, hread₁, heffect₁.mpr (List.cons_ne_nil _ _)⟩, hemptied, hmisread,
    h₂, below₂, hread₂, fun heffect => heffect₂.mp heffect rfl⟩

end PacketCodec
