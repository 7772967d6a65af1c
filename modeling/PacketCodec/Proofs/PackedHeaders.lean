import PacketCodec.Proofs.Attribution
import PacketCodec.Proofs.Obtainable
import PacketCodec.Proofs.Padding

/-!
# Headers that pack their fields

Three formats have words that several fields share: IPv6 headers, fragment
headers and neighbor advertisements. Some of these fields have fewer bits
than the value they are set to. A draft is refused for every value that has
too many, and its error lists them all.

When all values fit, none of them is lost and none disturbs another: the
packet is read back as it was built. In the other direction, fields and
reserved bits between them are the whole word, so that what is read is
written back, and the fields that are read fit
(`Context.decode_build_packed`). Both directions follow from one fact for
each format: a header is read from the octets that it is written as, if its
values fit, and from no others (`Ipv6Header.read?_eq_some_iff` and its
kin).
-/

namespace PacketCodec

open Violation (ifOver)

/-! ## Fields and headers -/

/-- **A value that shares a word with others**, and the number of bits
there are for it. -/
structure PackedField where
  /-- What the field is called. -/
  name : String
  /-- Number of bits. -/
  width : Nat
  /-- The value that was set. -/
  value : Nat

namespace PackedField

/-- The value has no more bits than there are for it. -/
def Fits (f : PackedField) : Prop := f.value < 2 ^ f.width

instance (f : PackedField) : Decidable f.Fits := inferInstanceAs (Decidable (_ < _))

/-- What is wrong with a value: nothing, if it fits. -/
def violations (f : PackedField) : List Violation :=
  if f.Fits then [] else [.outOfRange f.name f.value (2 ^ f.width - 1)]

theorem violations_eq_nil {f : PackedField} : f.violations = [] ↔ f.Fits := by
  rw [violations]
  split <;> simp_all

end PackedField

/-- **The fields of a header that packs some of them into words**, without
options. -/
inductive PackedHeader where
  /-- An IPv6 header. -/
  | ipv6 (h : Ipv6Header)
  /-- A fragment header. -/
  | fragment (h : FragmentHeader)
  /-- A neighbor advertisement. -/
  | advertisement (router solicited overrides : Bool) (reserved : UInt32) (target : Ipv6Addr)
  deriving DecidableEq

namespace PackedHeader

/-- The format of the header. -/
def format : PackedHeader → Format
  | ipv6 _ => .ipv6
  | fragment _ => .fragment
  | advertisement _ _ _ _ _ => .advertisement

/-- Number of octets of the header. -/
def size : PackedHeader → Nat
  | ipv6 _ => 40
  | fragment _ => 8
  | advertisement _ _ _ _ _ => 20

/-- **The values that may be too large** for their bits. -/
def fields : PackedHeader → List PackedField
  | ipv6 h => [⟨"version", 4, h.version.toNat⟩, ⟨"flow_label", 20, h.flowLabel.toNat⟩]
  | fragment h => [⟨"frag_offset", 13, h.fragOffset.toNat⟩, ⟨"res", 2, h.res.toNat⟩]
  | advertisement _ _ _ reserved _ => [⟨"reserved", 29, reserved.toNat⟩]

/-- All values fit. -/
def Fits (h : PackedHeader) : Prop := ∀ f ∈ h.fields, f.Fits

instance (h : PackedHeader) : Decidable h.Fits := inferInstanceAs (Decidable (∀ f ∈ h.fields, _))

/-- What is wrong with the values, in order. -/
def tooLarge (h : PackedHeader) : List Violation := h.fields.flatMap PackedField.violations

/-- The packet with this header and nothing behind it. -/
def packet : PackedHeader → Packet
  | ipv6 h => .bare (.ipv6 h)
  | fragment h => .bare (.fragment h)
  | advertisement router solicited overrides reserved target =>
    .leaf (.advertisement
      { router, solicited, overrides, reserved, target, options := [], truncated := false } [])

theorem tooLarge_eq_nil {h : PackedHeader} : h.tooLarge = [] ↔ h.Fits := by
  simp only [tooLarge, List.flatMap_eq_nil_iff, PackedField.violations_eq_nil, Fits]

end PackedHeader

/-- The packed fields of a layer, if it has some. -/
def Carrier.packed? : Carrier → Option PackedHeader
  | ipv6 h => some (.ipv6 h)
  | fragment h => some (.fragment h)
  | _ => none

/-- **The packed fields of the outermost layer**, if it is of one of the
three formats. -/
def Packet.packed? : Packet → Option PackedHeader
  | leaf (.advertisement h _) =>
    some (.advertisement h.router h.solicited h.overrides h.reserved h.target)
  | leaf _ => none
  | bare c => c.packed?
  | carry c _ => c.packed?

/-! ## Building -/

theorem BitField.lt_two_pow_iff (f : BitField) {v : Nat} :
    v < 2 ^ f.width ↔ v ≤ f.max.toNat := by
  rw [toNat_max, Nat.le_sub_one_iff_lt (Nat.two_pow_pos _)]

/-- A draft checks a value against the largest that its bits can hold. -/
theorem BitField.ifOver_max (f : BitField) (name : String) (value : Nat) :
    ifOver name value f.max.toNat = (⟨name, f.width, value⟩ : PackedField).violations := by
  have hpos : 0 < 2 ^ f.width := Nat.two_pow_pos _
  rw [toNat_max, ifOver, PackedField.violations]
  by_cases hfits : (⟨name, f.width, value⟩ : PackedField).Fits
  · have hle : value ≤ 2 ^ f.width - 1 := Nat.le_sub_one_of_lt hfits
    rw [if_pos hfits, if_neg (Nat.not_lt.mpr hle)]
  · have hlt : 2 ^ f.width - 1 < value := Nat.sub_one_lt_of_le hpos (Nat.not_lt.mp hfits)
    rw [if_neg hfits, if_pos hlt]

namespace PackedHeader

/-- **A draft is refused for the values that do not fit**, and for nothing
else. -/
theorem violations_toDraft (h : PackedHeader) : h.packet.toDraft.violations = h.tooLarge := by
  -- All required fields are set, so that only the checks of values are left.
  cases h with
  | ipv6 h =>
    have hversion : ifOver "version" h.version.toNat Ipv6Header.versionBits.max.toNat
        = (⟨"version", 4, h.version.toNat⟩ : PackedField).violations := BitField.ifOver_max _ _ _
    have hlabel : ifOver "flow_label" h.flowLabel.toNat Ipv6Header.flowLabelBits.max.toNat
        = (⟨"flow_label", 20, h.flowLabel.toNat⟩ : PackedField).violations :=
      BitField.ifOver_max _ _ _
    simp [packet, Packet.toDraft, Carrier.toDraft, Ipv6Header.toDraft, Draft.violations,
      CarrierDraft.violations, Ipv6Draft.violations, hversion, hlabel, tooLarge, fields]
  | fragment h =>
    have hoffset :
        ifOver "frag_offset" h.fragOffset.toNat FragmentHeader.fragOffsetBits.max.toNat
          = (⟨"frag_offset", 13, h.fragOffset.toNat⟩ : PackedField).violations :=
      BitField.ifOver_max _ _ _
    have hres : ifOver "res" h.res.toNat FragmentHeader.resBits.max.toNat
        = (⟨"res", 2, h.res.toNat⟩ : PackedField).violations := BitField.ifOver_max _ _ _
    simp [packet, Packet.toDraft, Carrier.toDraft, FragmentHeader.toDraft, Draft.violations,
      CarrierDraft.violations, FragmentDraft.violations, hoffset, hres, tooLarge, fields]
  | advertisement router solicited overrides reserved target =>
    have hreserved :
        ifOver "reserved" reserved.toNat AdvertisementHeader.reservedBits.max.toNat
          = (⟨"reserved", 29, reserved.toNat⟩ : PackedField).violations :=
      BitField.ifOver_max _ _ _
    simp [packet, Packet.toDraft, Leaf.toDraft, AdvertisementHeader.toDraft, Draft.violations,
      LeafDraft.violations, AdvertisementDraft.violations, ndpOptionViolations, hreserved,
      tooLarge, fields]

theorem build_toDraft (h : PackedHeader) :
    h.packet.toDraft.build
      = if h.Fits then .ok h.packet else .error ⟨h.format.protocol, h.tooLarge⟩ := by
  split
  · next hfits =>
    have hchecked : h.packet.toDraft.violations = [] :=
      h.violations_toDraft.trans (tooLarge_eq_nil.mpr hfits)
    refine Draft.build_eq_ok.mpr ?_
    cases h with
    | ipv6 h => exact ⟨Draft.sound_bare.mpr ⟨hchecked, rfl⟩, rfl⟩
    | fragment h => exact ⟨Draft.sound_bare.mpr ⟨hchecked, rfl⟩, rfl⟩
    | advertisement => exact ⟨Draft.sound_leaf.mpr hchecked, rfl⟩
  · next hover =>
    rw [← h.violations_toDraft, Draft.build_of_violations]
    · cases h <;> rfl
    · rw [h.violations_toDraft]
      exact mt tooLarge_eq_nil.mp hover

end PackedHeader

/-! ## Reading words -/

theorem Ipv6Header.read?_eq_some_iff {bs rest : Bytes} {h : Ipv6Header} :
    read? bs = some (h, rest) ↔ (Carrier.ipv6 h).Admissible ∧ bs = h.toBytes ++ rest :=
  ⟨fun hr => ⟨admissible_of_read? hr, read?_exact hr⟩,
    fun ⟨fits, hbs⟩ => hbs ▸ read?_toBytes_of_admissible fits rest⟩

/-- The fields of the word are read back. -/
theorem FragmentHeader.get_word {h : FragmentHeader} (fits : (Carrier.fragment h).Admissible) :
    (fragOffsetBits.get h.word.toUInt16.toUInt32).toUInt16 = h.fragOffset
      ∧ (resBits.get h.word.toUInt16.toUInt32).toUInt8 = h.res
      ∧ moreFragsBit.isSet h.word.toUInt16.toUInt32 = h.moreFrags := by
  have hoffset : h.fragOffset &&& fragOffsetBits.max.toUInt16 = h.fragOffset :=
    BitField.and_toUInt16_max _ (Nat.lt_succ_of_le fits.1)
  have hres : h.res &&& resBits.max.toUInt8 = h.res :=
    BitField.and_toUInt8_max _ (Nat.lt_succ_of_le fits.2)
  simp (disch := decide) [word, hoffset, hres]

theorem FragmentHeader.read?_eq_some_iff {bs rest : Bytes} {h : FragmentHeader} :
    read? bs = some (h, rest) ↔ (Carrier.fragment h).Admissible ∧ bs = h.toBytes ++ rest := by
  refine ⟨fun hr => ⟨admissible_of_read? hr, read?_exact hr⟩, ?_⟩
  rintro ⟨fits, rfl⟩
  obtain ⟨hoffset, hres, hmore⟩ := get_word fits
  simp only [read?, Bytes.bind_eq_some, Bytes.return_eq_some, Bytes.u32?_eq_some,
    Bytes.u16?_eq_some, Bytes.u8?_eq_some, toBytes, List.append_assoc, List.cons_append,
    List.nil_append]
  refine ⟨_, _, rfl, _, _, rfl, h.word.toUInt16, _, rfl, _, _, rfl, ?_, rfl⟩
  rw [hoffset, hres, hmore]

/-- The fields of the first word are read back. -/
theorem AdvertisementHeader.get_firstWord {h : AdvertisementHeader}
    (fits : h.reserved.toNat ≤ reservedBits.max.toNat) :
    routerBit.isSet h.firstWord = h.router ∧ solicitedBit.isSet h.firstWord = h.solicited
      ∧ overrideBit.isSet h.firstWord = h.overrides
      ∧ reservedBits.get h.firstWord = h.reserved := by
  have hreserved : h.reserved &&& reservedBits.max = h.reserved :=
    BitField.and_max _ (Nat.lt_succ_of_le fits)
  simp (disch := decide) [firstWord, hreserved]

/-- **What an advertisement is read from**: its first word and its target,
as it is written with them, and then its options. -/
theorem AdvertisementHeader.read_eq_ok_iff {decode : Window → Except DecodeError NdpOption}
    {w : Window} {h : AdvertisementHeader} {trailer : Bytes} :
    read decode w = .ok (h, trailer)
      ↔ h.reserved.toNat ≤ reservedBits.max.toNat
        ∧ ∃ behind, w.bytes = Bytes.be32 h.firstWord ++ h.target.bytes ++ behind
          ∧ readNdpOptions decode ⟨w.offset + neighborFixedSize, behind⟩
            = (h.options, h.truncated, trailer) := by
  have hafter : ∀ {word : UInt32} {target : Ipv6Addr} {behind : Bytes},
      w.bytes = Bytes.be32 word ++ target.bytes ++ behind →
        w.after neighborFixedSize = ⟨w.offset + neighborFixedSize, behind⟩ := fun {_ target _} hw =>
    congrArg (Window.mk _) (Window.bytes_after hw (by simp [target.length_eq, neighborFixedSize]))
  simp only [read, bind_eq_ok, return_eq_ok, Window.read_eq_ok, Prod.exists, Prod.mk.injEq]
  constructor
  · rintro ⟨word, target, behind, hread, rfl, rfl⟩
    have hw := SolicitationHeader.fixed?_exact hread
    refine ⟨reservedBits.toNat_get_le word, behind, ?_, ?_⟩
    · rw [hw, firstWord_of_get rfl rfl rfl rfl]
    · rw [← hafter hw]
  · rintro ⟨fits, behind, hw, hoptions⟩
    obtain ⟨hrouter, hsolicited, hoverrides, hreserved⟩ := get_firstWord fits
    have hread : SolicitationHeader.fixed? w.bytes = some ((h.firstWord, h.target), behind) := by
      simp only [hw, SolicitationHeader.fixed?, Bytes.bind_eq_some, Bytes.return_eq_some,
        Octets.take?_eq_some, Bytes.u32?_eq_some, List.append_assoc]
      exact ⟨_, _, rfl, _, _, rfl, rfl, rfl⟩
    refine ⟨h.firstWord, h.target, behind, hread, ?_, ?_⟩
    · rw [hafter hw, hoptions, hrouter, hsolicited, hoverrides, hreserved]
    · rw [hafter hw, hoptions]

namespace PackedHeader

/-- Values that fit are those of a packet that can be written. -/
theorem fits_iff_admissible {h : PackedHeader} : h.Fits ↔ h.packet.Admissible := by
  cases h with
  | ipv6 h =>
    exact List.forall_mem_cons.trans (and_congr Ipv6Header.versionBits.lt_two_pow_iff
      (List.forall_mem_singleton.trans Ipv6Header.flowLabelBits.lt_two_pow_iff))
  | fragment h =>
    exact List.forall_mem_cons.trans (and_congr FragmentHeader.fragOffsetBits.lt_two_pow_iff
      (List.forall_mem_singleton.trans FragmentHeader.resBits.lt_two_pow_iff))
  | advertisement router solicited overrides reserved target =>
    exact List.forall_mem_singleton.trans (AdvertisementHeader.reservedBits.lt_two_pow_iff.trans
      (and_iff_left (List.forall_mem_nil _)).symm)

theorem length_toBytes (h : PackedHeader) : h.packet.toBytes.length = h.size := by
  rw [Packet.length_toBytes]
  cases h <;> rfl

theorem toBytes_ipv6 (h : Ipv6Header) : (ipv6 h).packet.toBytes = h.toBytes := by
  simp [packet, Packet.toBytes, Carrier.header, Carrier.unparsed, Carrier.trailer]

theorem toBytes_fragment (h : FragmentHeader) : (fragment h).packet.toBytes = h.toBytes := by
  simp [packet, Packet.toBytes, Carrier.header, Carrier.unparsed, Carrier.trailer]

/-- An advertisement starts with its first word and its target. -/
theorem toBytes_advertisement (h : AdvertisementHeader) :
    (advertisement h.router h.solicited h.overrides h.reserved h.target).packet.toBytes
      = Bytes.be32 h.firstWord ++ h.target.bytes := by
  simp [packet, Packet.toBytes, Leaf.toBytes, Leaf.header?, Leaf.trailer,
    AdvertisementHeader.toBytes, AdvertisementHeader.firstWord]

/-- The header of a packet starts with its packed fields. -/
theorem header?_of_packed? {p : Packet} {h : PackedHeader} (hp : p.packed? = some h) :
    ∃ behind, p.header? = some (h.packet.toBytes ++ behind) := by
  have hcarrier : ∀ {c : Carrier}, c.packed? = some h →
      ∃ behind, some c.header = some (h.packet.toBytes ++ behind) := fun {c} hc => by
    cases c with
    | ipv6 header =>
      cases hc
      exact ⟨[], by rw [toBytes_ipv6, List.append_nil, Carrier.header]⟩
    | fragment header =>
      cases hc
      exact ⟨[], by rw [toBytes_fragment, List.append_nil, Carrier.header]⟩
    | _ => cases hc
  cases p with
  | leaf l =>
    cases l with
    | advertisement header trailer =>
      cases hp
      exact ⟨header.options.flatMap NdpOption.toBytes, by rw [toBytes_advertisement]; rfl⟩
    | _ => cases hp
  | bare c => exact hcarrier hp
  | carry c p => exact hcarrier hp

end PackedHeader

/-! ## Packets -/

namespace Context

variable (ctx : Context)

theorem payloads_of_empty (key : Selector) (offset : Nat) :
    ctx.payloads key ⟨offset, []⟩ = none := by
  rw [payloads]
  cases ctx.settings.maxDepth <;> rfl

/-- **Fields that fit are read back.** -/
theorem decodeWindow_packed {h : PackedHeader} (fits : h.Fits) (offset : Nat) :
    ctx.decodeWindow h.format ⟨offset, h.packet.toBytes⟩ = .ok h.packet := by
  rw [PackedHeader.fits_iff_admissible] at fits
  rw [decodeWindow, map_eq_ok]
  cases h with
  | ipv6 h =>
    have hpeel := ctx.peel_ipv6_of_admissible fits offset []
    rw [List.append_nil, List.take_nil, ← PackedHeader.toBytes_ipv6] at hpeel
    refine ⟨_, hpeel, ?_⟩
    rw [Peeled.assemble, ctx.payloads_of_empty]
    rfl
  | fragment h =>
    have hread : FragmentHeader.read? h.toBytes = some (h, []) :=
      FragmentHeader.read?_eq_some_iff.mpr ⟨fits, (List.append_nil _).symm⟩
    have hafter : (⟨offset, h.toBytes⟩ : Window).after FragmentHeader.size
        = ⟨offset + FragmentHeader.size, []⟩ :=
      congrArg (Window.mk _) (List.drop_of_length_le h.length_toBytes.le)
    rw [PackedHeader.toBytes_fragment]
    simp only [PackedHeader.format, peel, FragmentHeader.read, bind_eq_ok, return_eq_ok,
      Window.read_eq_ok, Prod.exists, Prod.mk.injEq]
    refine ⟨_, ⟨h, _, ⟨h, [], hread, rfl, rfl⟩, rfl⟩, ?_⟩
    rw [hafter]
    -- Of the first fragment the payload is decoded and of others it is kept; here it is empty.
    split
    · rw [Peeled.assemble, ctx.payloads_of_empty]
      rfl
    · rfl
  | advertisement router solicited overrides reserved target =>
    let h : AdvertisementHeader :=
      { router, solicited, overrides, reserved, target, options := [], truncated := false }
    have hread : AdvertisementHeader.read ctx.decoders.ndpOption
        ⟨offset, Bytes.be32 h.firstWord ++ h.target.bytes⟩ = .ok (h, []) :=
      AdvertisementHeader.read_eq_ok_iff.mpr ⟨fits.1, [], (List.append_nil _).symm, rfl⟩
    rw [PackedHeader.toBytes_advertisement h]
    simp only [PackedHeader.format, peel, bind_eq_ok, return_eq_ok, Prod.exists]
    exact ⟨_, ⟨h, [], hread, rfl⟩, rfl⟩

/-- **What is decoded has fields that fit**, and starts with them on the
wire. -/
theorem packed?_of_decodeWindow {f : Format} (hf : f ∈ [Format.ipv6, .fragment, .advertisement])
    {w : Window} {p : Packet} (h : ctx.decodeWindow f w = .ok p) :
    ∃ h : PackedHeader, h.format = f ∧ p.packed? = some h ∧ h.Fits
      ∧ ∃ behind, w.bytes = h.packet.toBytes ++ behind := by
  simp only [List.mem_cons, List.not_mem_nil, or_false] at hf
  rw [decodeWindow, map_eq_ok] at h
  obtain ⟨l, hl, rfl⟩ := h
  have hcarrier : ∀ (c : Carrier) (inner : Inner),
      ((Peeled.carrier c inner).assemble ctx.payloads).packed? = c.packed? := fun c inner => by
    rw [Peeled.assemble_carrier]
    cases inner.payload ctx.payloads <;> rfl
  rcases hf with rfl | rfl | rfl
  · simp only [peel, bind_eq_ok, return_eq_ok, Window.read_eq_ok, Prod.exists] at hl
    obtain ⟨h, rest, hread, rfl⟩ := hl
    obtain ⟨fits, hw⟩ := Ipv6Header.read?_eq_some_iff.mp hread
    exact ⟨.ipv6 h, rfl, hcarrier _ _, PackedHeader.fits_iff_admissible.mpr fits, rest,
      by rw [PackedHeader.toBytes_ipv6, hw]⟩
  · simp only [peel, FragmentHeader.read, bind_eq_ok, return_eq_ok, Window.read_eq_ok,
      Prod.exists, Prod.mk.injEq] at hl
    obtain ⟨h, inner, ⟨_, rest, hread, rfl, -⟩, rfl⟩ := hl
    obtain ⟨fits, hw⟩ := FragmentHeader.read?_eq_some_iff.mp hread
    exact ⟨.fragment _, rfl, hcarrier _ _, PackedHeader.fits_iff_admissible.mpr fits, rest,
      by rw [PackedHeader.toBytes_fragment, hw]⟩
  · simp only [peel, bind_eq_ok, return_eq_ok, Prod.exists] at hl
    obtain ⟨h, trailer, hread, rfl⟩ := hl
    obtain ⟨fits, behind, hw, -⟩ := AdvertisementHeader.read_eq_ok_iff.mp hread
    exact ⟨.advertisement h.router h.solicited h.overrides h.reserved h.target, rfl, rfl,
      PackedHeader.fits_iff_admissible.mpr ⟨fits, List.forall_mem_nil _⟩, behind,
      by rw [PackedHeader.toBytes_advertisement, hw]⟩

/-- **Headers that pack their fields keep every field.** A draft with all
fields of such a header set is built if and only if all values fit, and
otherwise its error reports those that do not. What is built is read back.
And whatever octets are decoded, the packed fields of the packet fit, and
they are written as the octets they were read from. -/
theorem decode_build_packed :
    (∀ h : PackedHeader,
        h.packet.toDraft.build
            = (if h.Fits then .ok h.packet else .error ⟨h.format.protocol, h.tooLarge⟩)
          ∧ h.packet.toBytes.length = h.size
          ∧ (h.Fits → ctx.decode h.format h.packet.toBytes 0 h.size = .ok h.packet))
      ∧ ∀ f ∈ [Format.ipv6, .fragment, .advertisement], ∀ buf offset length p,
        ctx.decode f buf offset length = .ok p →
          ∃ h : PackedHeader, h.format = f ∧ p.packed? = some h ∧ h.Fits ∧ h.size ≤ length
            ∧ h.packet.toBytes = (buf.clamp offset length).take h.size
            ∧ p.header?.map (·.take h.size) = some ((buf.clamp offset length).take h.size) := by
  refine ⟨fun h => ⟨h.build_toDraft, h.length_toBytes, fun fits => ?_⟩,
    fun f hf buf offset length p hp => ?_⟩
  · rw [decode, ← h.length_toBytes, Window.cut_alone]
    exact ctx.decodeWindow_packed fits 0
  · rw [decode, bind_eq_ok] at hp
    obtain ⟨w, hcut, hp⟩ := hp
    obtain ⟨hinside, rfl⟩ := Window.cut_eq_ok.mp hcut
    obtain ⟨h, hformat, hpacked, fits, behind, hw⟩ := ctx.packed?_of_decodeWindow hf hp
    obtain ⟨options, hheader⟩ := PackedHeader.header?_of_packed? hpacked
    have hw : buf.clamp offset length = h.packet.toBytes ++ behind := hw
    have hfixed : (buf.clamp offset length).take h.size = h.packet.toBytes := by
      rw [hw, ← h.length_toBytes, List.take_left]
    have hsize : h.size ≤ length := by
      rw [← Window.length_clamp hinside, hw, List.length_append, h.length_toBytes]
      exact Nat.le_add_right _ _
    refine ⟨h, hformat, hpacked, fits, hsize, hfixed.symm, ?_⟩
    rw [hheader, hfixed, Option.map_some, ← h.length_toBytes, List.take_left]

/-- A fragment header with every bit of its word set. With one bit more, in
both the offset and the reserved bits, it is refused for the two. -/
theorem decode_build_packed_fragment :
    let header : UInt16 → UInt8 → PackedHeader := fun fragOffset res =>
      .fragment ⟨IpProtocol.noNext, 0xff, fragOffset, res, true, 0xdeadbeef⟩
    let h := header 8191 3
    let buf : Bytes := [59, 0xff, 0xff, 0xff, 0xde, 0xad, 0xbe, 0xef]
    h.packet.toDraft.build = .ok h.packet
      ∧ (header 8192 4).packet.toDraft.build
        = .error ⟨"IPv6 Fragment", [.outOfRange "frag_offset" 8192 8191, .outOfRange "res" 4 3]⟩
      ∧ h.packet.toBytes = buf
      ∧ decode {} .fragment buf 0 8 = .ok h.packet
      ∧ ∃ h' : PackedHeader, h'.format = .fragment ∧ h.packet.packed? = some h' ∧ h'.Fits
        ∧ h'.size ≤ 8 ∧ h'.packet.toBytes = (buf.clamp 0 8).take h'.size
        ∧ h.packet.header?.map (·.take h'.size) = some ((buf.clamp 0 8).take h'.size) := by
  intro header h buf
  have hdecode : decode {} .fragment buf 0 8 = .ok h.packet :=
    ((decode_build_packed {}).1 h).2.2 (by decide)
  refine ⟨((decode_build_packed {}).1 h).1.trans (if_pos (by decide)),
    ((decode_build_packed {}).1 (header 8192 4)).1.trans (if_neg (by decide)), rfl, hdecode, ?_⟩
  exact (decode_build_packed {}).2 .fragment (by decide) buf 0 8 h.packet hdecode

end Context

end PacketCodec
