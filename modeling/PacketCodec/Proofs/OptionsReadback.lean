import PacketCodec.Proofs.LengthField
import PacketCodec.Proofs.OptionLists
import PacketCodec.Proofs.Padding

/-!
# Options headers are read as they were written

The length field of an options header says where its payload starts, and
the options are read up to there. So an options header is read back,
whatever follows it, when its options are canonical and fill its extent
(`OptionsHeader.read_toBytes`): less than that would be filled with octets
of the payload, and an option that reaches further would be cut.

A draft that corrects its length fills the extent by a padding option and
counts the units afterwards, so that what it is built to is decoded to the
same options, the padding among them (`Draft.decode_build_options`). Where
the payload has no octets, none is decoded
(`Draft.decode_build_options_without_payload`).
-/

namespace PacketCodec

/-! ## Options headers that are read back -/

/-- The padding that completes a unit is canonical. -/
theorem Ipv6Option.canonical_padding? {n : Nat} (h : n < 8) : ∀ o ∈ padding? n, o.Canonical := by
  intro o ho
  refine ⟨sized_padding? h o ho, ?_⟩
  match n with
  | 0 => cases ho
  | 1 | n + 2 =>
    cases ho
    trivial

/-- **An options header is read back** when its options are canonical and
fill its extent, whatever follows. -/
theorem OptionsHeader.read_toBytes (kind : OptionsKind) {h : OptionsHeader}
    (hcanonical : ∀ o ∈ h.options, o.Canonical) (huncut : h.truncated = false)
    (hextent : h.length = extensionExtent h.hdrExtLen) (offset : Nat) (behind : Bytes) :
    read kind Decoders.standard.ipv6Option ⟨offset, h.toBytes ++ behind⟩
      = .ok (h, [], .dispatch (.ipProtocol h.nextHeader) ⟨offset + h.length, behind⟩) := by
  have hregion : (h.options.flatMap Ipv6Option.toBytes).length
      = extensionExtent h.hdrExtLen - 2 := by
    rw [length_flatMap_eq_totalSize Ipv6Option.length_toBytes, ← hextent, length]
    omega
  have hoptions := Window.elements_of_readsBack Decoders.standard_exact.ipv6Option
    (fun o ho => (hcanonical o ho).readsBack) (offset + 2)
  have hlong : ¬(⟨offset, h.toBytes ++ behind⟩ : Window).length < extensionExtent h.hdrExtLen := by
    rw [Window.length, List.length_append, h.length_toBytes, hextent]
    exact Nat.not_lt.mpr (Nat.le_add_right _ _)
  have hafter : (⟨offset, h.toBytes ++ behind⟩ : Window).after (extensionExtent h.hdrExtLen)
      = ⟨offset + h.length, behind⟩ := by
    rw [Window.after, ← hextent, List.drop_left' h.length_toBytes]
  have hnone : (h.options.flatMap Ipv6Option.toBytes).drop
      (totalSize Ipv6Option.length h.options) = [] := by
    rw [← length_flatMap_eq_totalSize Ipv6Option.length_toBytes, List.drop_length]
  generalize hw : (⟨offset, h.toBytes ++ behind⟩ : Window) = w at hlong hafter ⊢
  have hoffset : w.offset = offset := by rw [← hw]
  have hbytes : w.bytes
      = h.nextHeader :: h.hdrExtLen :: (h.options.flatMap Ipv6Option.toBytes ++ behind) := by
    rw [← hw]
    rfl
  rw [read, hbytes]
  dsimp only
  rw [List.take_left' hregion, hoffset, hoptions, decide_eq_false hlong, hafter, hnone,
    if_neg Bool.false_ne_true, Bool.or_false, ← huncut]

/-- **Decoding what was written for an options header** whose options fill
its extent, over a payload that is kept as bytes: the header, nothing that
could not be read, and the payload if there are any bytes. -/
theorem Context.decode_options_of_unknown {settings : Settings} (kind : OptionsKind)
    {h : OptionsHeader} (hcanonical : ∀ o ∈ h.options, o.Canonical) (huncut : h.truncated = false)
    (hextent : h.length = extensionExtent h.hdrExtLen)
    (hnext : Decoders.standard.select (.ipProtocol h.nextHeader) = .unknown) (data : Bytes) :
    let buf := h.toBytes ++ data
    decode ⟨.standard, settings⟩ kind.format buf 0 buf.length
      = .ok (.ofCarrier (.options kind h [])
          (if data.isEmpty then none else some (.unknown data))) := by
  intro buf
  let ctx : Context := ⟨.standard, settings⟩
  have hread := h.read_toBytes kind hcanonical huncut hextent 0 data
  have hpeel : ctx.peel kind.format ⟨0, buf⟩
      = .ok (.carrier (.options kind h []) (.dispatch (.ipProtocol h.nextHeader)
          ⟨0 + h.length, data⟩)) := by
    cases kind with
    | hopByHop | destination =>
      simp only [OptionsKind.format, peel, peel.options, bind_eq_ok, return_eq_ok]
      exact ⟨_, hread, rfl⟩
  have hpayload := ctx.payload_of_unknown hnext settings.maxDepth ⟨0 + h.length, data⟩
  rw [decode, Window.cut_alone]
  show ctx.decodeWindow kind.format ⟨0, buf⟩ = _
  rw [decodeWindow, hpeel]
  show Except.ok (Packet.ofCarrier _ (ctx.payload settings.maxDepth _ _)) = _
  rw [hpayload]

/-! ## Options headers that are built -/

/-- **A draft of an options header over bytes**: no decoder is assigned to
the type of its payload, its options are canonical, and its length is
corrected. -/
structure OptionsDraft.OverBytes (d : OptionsDraft) : Prop where
  nextHeader : ∃ n, d.nextHeader = some n ∧ Decoders.standard.ipProtocols.contains n = false
  canonical : ∀ o ∈ d.options, o.Canonical
  unparsed : d.unparsed = []
  correctLength : d.correctLength = true

namespace OptionsDraft.OverBytes

variable {d : OptionsDraft} (hd : d.OverBytes)

include hd

/-- The draft has all it needs, and corrects its length. -/
theorem correctsLength (kind : OptionsKind) :
    (CarrierDraft.options kind d).CorrectsLength := by
  obtain ⟨n, hn, -⟩ := hd.nextHeader
  exact ⟨hd.correctLength, Option.isSome_iff_exists.mpr ⟨n, hn⟩, fun o ho => (hd.canonical o ho).1⟩

/-- There is room for its length if its options take up no more than 2046
octets. -/
theorem hasRoom_iff {kind : OptionsKind} {n : Nat} :
    (CarrierDraft.options kind d).HasRoom n ↔ totalSize Ipv6Option.length d.options ≤ 2046 := by
  rw [CarrierDraft.HasRoom, hd.unparsed, List.length_nil]
  omega

theorem onto_eq {kind : OptionsKind} {below : Option Packet} :
    CarrierDraft.onto below (.options kind d) = .options kind d.header [] :=
  congrArg (Carrier.options kind d.header) hd.unparsed

/-- Then the header fills the extent that its length field tells. -/
theorem length_header (fits : totalSize Ipv6Option.length d.options ≤ 2046) :
    d.header.length = extensionExtent d.header.hdrExtLen := by
  have hcounts : d.header.length + d.unparsed.length = (d.header.hdrExtLen.toNat + 1) * 8 :=
    @CarrierDraft.countsRight_onto _ (hd.correctsLength .hopByHop) none (hd.hasRoom_iff.mpr fits)
  rwa [hd.unparsed, List.length_nil, Nat.add_zero] at hcounts

theorem nextHeader_header : some d.header.nextHeader = d.nextHeader := by
  obtain ⟨n, hn, -⟩ := hd.nextHeader
  show some (d.nextHeader.getD IpProtocol.noNext) = _
  rw [hn, Option.getD_some]

theorem options_header :
    d.header.options
      = d.options ++ (Ipv6Option.padding? ((8 - d.content % 8) % 8)).toList :=
  if_pos hd.correctLength

theorem canonical_header : ∀ o ∈ d.header.options, o.Canonical := by
  rw [hd.options_header]
  refine List.forall_mem_append.mpr ⟨hd.canonical, fun o ho => ?_⟩
  exact Ipv6Option.canonical_padding? (Nat.mod_lt _ (by decide)) o (Option.mem_toList.mp ho)

theorem select_header :
    Decoders.standard.select (.ipProtocol d.header.nextHeader) = .unknown := by
  obtain ⟨n, hn, hfree⟩ := hd.nextHeader
  show Decoders.standard.ipProtocols.get (d.nextHeader.getD IpProtocol.noNext) = _
  rw [hn, Option.getD_some]
  exact Registry.get_of_not_contains hfree

end OptionsDraft.OverBytes

/-- An options header over bytes is built over any payload that is built, if
there is room for its options. -/
theorem Draft.build_options_eq_ok {kind : OptionsKind} {d : OptionsDraft} (hd : d.OverBytes)
    {payload : Option Draft} {below : Option Packet} (built : payload.mapM build = .ok below)
    {p : Packet} :
    (ofCarrier (.options kind d) payload).build = .ok p
      ↔ totalSize Ipv6Option.length d.options ≤ 2046
        ∧ .ofCarrier (.options kind d.header []) below = p := by
  rw [build_ofCarrier_onto built, CarrierDraft.checks_eq_nil_iff (hd.correctsLength kind),
    hd.hasRoom_iff, hd.onto_eq]

/-- **Options are decoded as they were built.** An options header over any
payload, so long as no decoder is assigned to the type of the payload, is
built if and only if its options take up no more than 2046 octets. Then the
header consists of the units that its length field counts, and its options
are the given ones and less than a unit of padding. What is decoded, under
any settings, is the same header over the octets of the payload; or without
a payload where there are none. -/
theorem Draft.decode_build_options (kind : OptionsKind) {d : OptionsDraft} (hd : d.OverBytes)
    {payload : Option Draft} {below : Option Packet} (built : payload.mapM build = .ok below)
    (settings : Settings) :
    let data := payloadBytes below
    ((ofCarrier (.options kind d) payload).build.isOk = true
        ↔ totalSize Ipv6Option.length d.options ≤ 2046)
      ∧ ∀ p, (ofCarrier (.options kind d) payload).build = .ok p →
          ∃ header : OptionsHeader, p = .ofCarrier (.options kind header []) below
            ∧ header.toBytes.length = (header.hdrExtLen.toNat + 1) * 8
            ∧ some header.nextHeader = d.nextHeader
            ∧ (∃ n < 8, header.options = d.options ++ (Ipv6Option.padding? n).toList)
            ∧ header.truncated = false
            ∧ Context.decode ⟨.standard, settings⟩ kind.format p.toBytes 0 p.toBytes.length
              = .ok (.ofCarrier (.options kind header [])
                  (if data.isEmpty then none else some (.unknown data))) := by
  intro data
  constructor
  · constructor
    · intro hok
      obtain ⟨p, hp⟩ := exists_of_isOk hok
      exact ((build_options_eq_ok hd built).mp hp).1
    · intro fits
      rw [(build_options_eq_ok hd built).mpr ⟨fits, rfl⟩]
      rfl
  · intro p hp
    obtain ⟨fits, rfl⟩ := (build_options_eq_ok hd built).mp hp
    have hextent := hd.length_header fits
    have hbytes : (Packet.ofCarrier (.options kind d.header []) below).toBytes
        = d.header.toBytes ++ data :=
      Packet.toBytes_ofCarrier_of_trailer rfl rfl below
    refine ⟨d.header, rfl, d.header.length_toBytes.trans hextent, hd.nextHeader_header,
      ⟨_, Nat.mod_lt _ (by decide), hd.options_header⟩, rfl, ?_⟩
    rw [hbytes]
    exact Context.decode_options_of_unknown kind hd.canonical_header rfl hextent hd.select_header
      data

/-- A router alert and an unknown option of five octets, padded by three
octets, over two octets of payload. -/
theorem Draft.decode_build_options_router_alert :
    let d : OptionsDraft :=
      { nextHeader := some 253, options := [.routerAlert 0, .unknown 0xc2 [1, 2, 3, 4, 5]],
        correctLength := true }
    d.OverBytes ∧ ∃ p header,
      (ofCarrier (.options .hopByHop d) (some (unknown [0xaa, 0xbb]))).build = .ok p
        ∧ p.toBytes.length = 2 + 4 + 7 + 3 + 2
        ∧ Context.decode {} .hopByHop p.toBytes 0 p.toBytes.length
          = .ok (.carry (.options .hopByHop header []) (.unknown [0xaa, 0xbb]))
        ∧ header.options
          = [.routerAlert 0, .unknown 0xc2 [1, 2, 3, 4, 5], .padN [0]] := by
  intro d
  have hd : d.OverBytes := ⟨⟨253, rfl, by decide⟩, by decide, rfl, rfl⟩
  have hbelow : (some (unknown [0xaa, 0xbb])).mapM build
      = .ok (some (Packet.unknown [0xaa, 0xbb])) := rfl
  obtain ⟨hbuilds, hdecodes⟩ := decode_build_options .hopByHop hd hbelow {}
  obtain ⟨p, hp⟩ := exists_of_isOk (hbuilds.mpr (by decide))
  obtain ⟨header, hheader, -, -, -, -, hdecode⟩ := hdecodes p hp
  obtain ⟨-, hbuilt⟩ := (build_options_eq_ok hd hbelow).mp hp
  obtain rfl : d.header = header := by
    rw [← hbuilt] at hheader
    cases hheader
    rfl
  subst hheader
  exact ⟨hd, _, _, hp, by decide +kernel, hdecode, by decide +kernel⟩

/-- **An options header built over no bytes** is decoded to one that has no
payload, not to one over no bytes. -/
theorem Draft.decode_build_options_without_payload :
    let d : OptionsDraft :=
      { nextHeader := some 253, options := [.routerAlert 0], correctLength := true }
    d.OverBytes ∧ ∃ p q, (ofCarrier (.options .hopByHop d) (some (unknown []))).build = .ok p
      ∧ Context.decode {} .hopByHop p.toBytes 0 p.toBytes.length = .ok q
      ∧ p.payload? = some (.unknown []) ∧ q.payload? = none := by
  intro d
  have hd : d.OverBytes := ⟨⟨253, rfl, by decide⟩, by decide, rfl, rfl⟩
  have hbuild : (ofCarrier (.options .hopByHop d) (some (unknown []))).build
      = .ok (.carry (.options .hopByHop d.header []) (.unknown [])) :=
    (build_options_eq_ok hd rfl).mpr ⟨by decide, rfl⟩
  exact ⟨hd, _, _, hbuild, Context.decode_options_of_unknown .hopByHop hd.canonical_header rfl
    (hd.length_header (by decide)) hd.select_header [], rfl, rfl⟩

end PacketCodec
