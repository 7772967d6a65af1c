import PacketCodec.Proofs.ElementLists
import PacketCodec.Proofs.Obtainable

/-!
# How option lists split their regions

The options of an IPv6 options header and those of a neighbor discovery
message are read one after the other, each with the decoder that its type
octet selects. `Window.Splits` says what that comes to: the options are
the octets at the front of the region, all of the region unless the list
is cut short, and where it is cut short no option can be decoded.

An option that was decoded is **canonical** (`Ipv6Option.Canonical`,
`NdpOption.Canonical`): its length octet tells its length, and it is not
of a type that selects a decoder for another kind of option. Canonical
options are also those that are read back whatever follows them, so that a
decoder of options is characterised by what is written
(`Ipv6Option.decode_eq_ok_iff`, `NdpOption.decode_eq_ok_iff`), and a list
of canonical options is what its octets are split into.

The condition on the type cannot be left out. An option that is kept as
one of an unknown type, but has the type of a router alert, is written
like a router alert and read back as one.
-/

namespace PacketCodec

/-! ## Lists of elements -/

/-- **A list of elements splits its region.** The element at the front of a
window is read by the decoder that its first octet selects. -/
structure Window.Splits {α : Type} (select : UInt8 → Window → Except DecodeError α)
    (size : α → Nat) (write : α → Bytes) (Canonical : α → Prop) (region : Window)
    (found : List α × Bool) : Prop where
  /-- One behind the other, the elements are the octets at the front of the
  region, as many as their sizes add up to. -/
  written : found.1.flatMap write = region.bytes.take (totalSize size found.1)
  /-- There are that many in the region. -/
  inside : totalSize size found.1 ≤ region.length
  /-- The list is not cut short exactly if that is all of the region. -/
  uncut_iff : found.2 = false ↔ totalSize size found.1 = region.length
  /-- If it is, the decoder that the next octet selects fails on what is
  left. -/
  undecodable : found.2 = true → ∃ t rest err,
    (region.after (totalSize size found.1)).bytes = t :: rest
      ∧ select t (region.after (totalSize size found.1)) = .error err
  /-- The elements are canonical. -/
  canonical : ∀ e ∈ found.1, Canonical e
  /-- If the region holds canonical elements one behind the other, it is
  these, and the list is not cut short. -/
  complete : ∀ es : List α, (∀ e ∈ es, Canonical e) → region.bytes = es.flatMap write →
    found = (es, false)

/-- Elements that are decoded exactly from the octets of canonical ones
split their region. -/
theorem Window.splits_elements {α : Type} {select : UInt8 → Window → Except DecodeError α}
    {decode : Window → Except DecodeError α} {size : α → Nat} {write : α → Bytes}
    {Canonical : α → Prop} (h : ExactElement decode size write)
    (selected : ∀ w, decode w = select (w.bytes.headD 0) w)
    (decode_eq_ok_iff : ∀ {w e}, decode w = .ok e
      ↔ Canonical e ∧ ∃ behind, w.bytes = write e ++ behind) (region : Window) :
    region.Splits select size write Canonical (region.elements decode size) := by
  have hbytes := Window.flatMap_elements h region
  have hcanonical : ∀ e ∈ (region.elements decode size).1, Canonical e :=
    forall_mem_elementsFrom (fun w e he => (decode_eq_ok_iff.mp he).1) size _ _ _
  obtain ⟨hcut, hfails⟩ :=
    Window.elements_left h.size_pos (Prod.mk.eta (p := region.elements decode size)).symm
  have hlength := length_flatMap_eq_totalSize h.length_write (region.elements decode size).1
  have hinside : totalSize size (region.elements decode size).1 ≤ region.length := by
    rw [length, ← congrArg List.length hbytes, List.length_append, hlength]
    exact Nat.le_add_right _ _
  refine ⟨?_, hinside, ?_, ?_, hcanonical, ?_⟩
  · conv_rhs => rw [← hbytes]
    exact (List.take_left' hlength).symm
  · -- Nothing is left exactly if the elements reach the end of the region.
    rw [← Bool.not_eq_true, hcut, not_ne_iff, after, List.drop_eq_nil_iff]
    exact ⟨fun hle => hinside.antisymm hle, fun heq => heq.ge⟩
  · intro htrue
    obtain ⟨t, rest, hleft⟩ := List.exists_cons_of_ne_nil (hcut.mp htrue)
    obtain ⟨err, herr⟩ := hfails (hcut.mp htrue)
    rw [selected, hleft] at herr
    exact ⟨t, rest, err, hleft, herr⟩
  · intro es hes hregion
    have hread : ∀ e ∈ es, ReadsBack decode write e := fun e he offset behind =>
      decode_eq_ok_iff.mpr ⟨hes e he, behind, rfl⟩
    rw [show region = ⟨region.offset, es.flatMap write⟩ from hregion ▸ rfl]
    exact Window.elements_of_readsBack h hread region.offset

/-! ## IPv6 options -/

namespace Ipv6Option

/-- The types that have a decoder of their own. -/
def knownTypes : List Ipv6OptionType :=
  [Ipv6OptionType.pad1, Ipv6OptionType.padN, Ipv6OptionType.routerAlert]

/-- An option that is kept as one of an unknown type is of no known one. -/
def Unambiguous : Ipv6Option → Prop
  | unknown t _ => t ∉ knownTypes
  | _ => True

/-- **An option that its octets tell**: the length octet has room for the
length of the data, and the type octet is for no other kind of option. -/
def Canonical (o : Ipv6Option) : Prop := o.Sized ∧ o.Unambiguous

instance : DecidablePred Canonical
  | pad1 | padN _ | routerAlert _ => inferInstanceAs (Decidable (_ ≤ _ ∧ True))
  | unknown t _ => inferInstanceAs (Decidable (_ ≤ _ ∧ t ∉ knownTypes))

theorem typeAndData_eq_ok_iff {w : Window} {t : Ipv6OptionType} {data : Bytes} :
    typeAndData w = .ok (t, data) ↔ data.length ≤ 255
      ∧ ∃ behind, w.bytes = t :: UInt8.ofNat data.length :: data ++ behind := by
  refine ⟨fun h => ⟨length_of_typeAndData h, bytes_of_typeAndData h⟩, ?_⟩
  rintro ⟨hlength, behind, hw⟩
  have hoctet : (UInt8.ofNat data.length).toNat = data.length :=
    UInt8.toNat_ofNat_of_lt' (Nat.lt_succ_of_le hlength)
  have hsplit : Bytes.split? (data ++ behind) data.length = some (data, behind) :=
    Bytes.split?_eq_some.mpr ⟨rfl, rfl⟩
  rw [typeAndData, hw]
  dsimp only [List.cons_append]
  rw [hoctet, hsplit]

/-- An option of another type is read as an unknown one. -/
theorem get_of_not_mem_knownTypes {t : Ipv6OptionType} (h : t ∉ knownTypes) :
    Decoders.standard.ipv6Options.get t = decodeUnknown := by
  refine Registry.get_of_not_contains ?_
  simp only [knownTypes, List.mem_cons, List.not_mem_nil, or_false, not_or,
    ← beq_eq_false_iff_ne] at h
  obtain ⟨hpad1, hpadN, halert⟩ := h
  show (List.lookup t [(Ipv6OptionType.routerAlert, decodeRouterAlert),
    (Ipv6OptionType.padN, decodePadN), (Ipv6OptionType.pad1, decodePad1)]).isSome = false
  simp only [List.lookup_cons, List.lookup_nil, hpad1, hpadN, halert, Option.isSome_none]

/-- **Canonical options are read back**, whatever follows. -/
theorem Canonical.readsBack {o : Ipv6Option} (h : o.Canonical) :
    ReadsBack Decoders.standard.ipv6Option toBytes o := by
  intro offset behind
  obtain ⟨hlength, hkind⟩ := h
  rw [Sized, dataLength] at hlength
  rw [Decoders.ipv6Option]
  cases o with
  | pad1 => rfl
  | padN data =>
    rw [length, Nat.add_sub_cancel_left] at hlength
    have hread : typeAndData ⟨offset, (padN data).toBytes ++ behind⟩
        = .ok (Ipv6OptionType.padN, data) := typeAndData_eq_ok_iff.mpr ⟨hlength, behind, rfl⟩
    show decodePadN _ = _
    rw [decodePadN, hread]
    rfl
  | routerAlert value =>
    have hread : typeAndData ⟨offset, (routerAlert value).toBytes ++ behind⟩
        = .ok (Ipv6OptionType.routerAlert, Bytes.be16 value) :=
      typeAndData_eq_ok_iff.mpr ⟨hlength, behind, rfl⟩
    have hvalue : UInt16.ofNat (Bytes.beNat (Bytes.be16 value)) = value := by
      rw [Bytes.be16, Bytes.beNat_be value.toNat_lt, UInt16.ofNat_toNat]
    show decodeRouterAlert _ = _
    rw [decodeRouterAlert, hread]
    exact congrArg (fun v => Except.ok (routerAlert v)) hvalue
  | unknown t data =>
    rw [length, Nat.add_sub_cancel_left] at hlength
    have hread : typeAndData ⟨offset, (unknown t data).toBytes ++ behind⟩ = .ok (t, data) :=
      typeAndData_eq_ok_iff.mpr ⟨hlength, behind, rfl⟩
    show Decoders.standard.ipv6Options.get t _ = _
    rw [get_of_not_mem_knownTypes hkind, decodeUnknown, hread]
    rfl

theorem unambiguous_of_decode {offset : Nat} {t : Ipv6OptionType} {rest : Bytes} {o : Ipv6Option}
    (h : Decoders.standard.ipv6Option ⟨offset, t :: rest⟩ = .ok o) : o.Unambiguous := by
  by_cases ht : t ∈ knownTypes
  · simp only [knownTypes, List.mem_cons, List.not_mem_nil, or_false] at ht
    rcases ht with rfl | rfl | rfl
    · cases h
      trivial
    · change decodePadN _ = _ at h
      simp only [decodePadN, bind_eq_ok, return_eq_ok] at h
      obtain ⟨-, -, rfl⟩ := h
      trivial
    · change decodeRouterAlert _ = _ at h
      simp only [decodeRouterAlert, bind_eq_ok] at h
      obtain ⟨_, -, h⟩ := h
      split at h
      · cases h
        trivial
      · exact absurd h throw_ne_ok
  · rw [Decoders.ipv6Option, List.headD_cons, get_of_not_mem_knownTypes ht, decodeUnknown] at h
    simp only [bind_eq_ok, return_eq_ok] at h
    obtain ⟨⟨t', data⟩, hd, rfl⟩ := h
    obtain ⟨behind, hw⟩ := bytes_of_typeAndData hd
    obtain ⟨rfl, -⟩ := List.cons.inj hw
    exact ht

/-- **What an option is decoded from**: the octets of a canonical one, and
then whatever follows. -/
theorem decode_eq_ok_iff {w : Window} {o : Ipv6Option} :
    Decoders.standard.ipv6Option w = .ok o
      ↔ o.Canonical ∧ ∃ behind, w.bytes = o.toBytes ++ behind := by
  constructor
  · obtain ⟨offset, bytes⟩ := w
    intro h
    cases bytes with
    | nil => cases h
    | cons t rest =>
      exact ⟨⟨sized_of_decode (Decoders.standard_ofLibrary.ipv6Options.get _) h,
        unambiguous_of_decode h⟩, Decoders.standard_exact.ipv6Option.exact h⟩
  · rintro ⟨h, behind, hw⟩
    have hread := h.readsBack w.offset behind
    rwa [← hw] at hread

end Ipv6Option

/-! ## Neighbor discovery options -/

namespace PrefixInfo

/-- **A prefix is read back** when its reserved bits fit. -/
theorem read?_toBytes {i : PrefixInfo} (h : i.reserved1.toNat < 2 ^ reservedBits.width)
    (rest : Bytes) : read? (i.toBytes ++ rest) = some (i, rest) := by
  have hfits : i.reserved1 &&& reservedBits.max.toUInt8 = i.reserved1 :=
    BitField.and_toUInt8_max _ h
  have honLink : onLinkBit.isSet i.flags.toUInt8.toUInt32 = i.onLink := by
    simp (disch := decide) [flags]
  have hautonomous : autonomousBit.isSet i.flags.toUInt8.toUInt32 = i.autonomous := by
    simp (disch := decide) [flags]
  have hreserved : (reservedBits.get i.flags.toUInt8.toUInt32).toUInt8 = i.reserved1 := by
    simp (disch := decide) [flags, hfits]
  simp only [read?, Bytes.bind_eq_some, Bytes.return_eq_some, Octets.take?_eq_some,
    Bytes.u32?_eq_some, Bytes.u8?_eq_some, toBytes, List.cons_append, List.nil_append,
    List.append_assoc]
  refine ⟨_, _, rfl, _, _, rfl, _, _, rfl, _, _, rfl, _, _, rfl, _, _, rfl, ?_, rfl⟩
  rw [honLink, hautonomous, hreserved]

theorem reserved1_lt_of_read? {bs rest : Bytes} {i : PrefixInfo} (h : read? bs = some (i, rest)) :
    i.reserved1.toNat < 2 ^ reservedBits.width := by
  simp only [read?, Bytes.bind_eq_some, Bytes.return_eq_some] at h
  obtain ⟨_, _, -, flags, _, -, _, _, -, _, _, -, _, _, -, _, _, -, rfl, -⟩ := h
  exact Nat.lt_of_le_of_lt (reservedBits.toNat_toUInt8_get_le flags.toUInt32) (by decide)

end PrefixInfo

namespace NdpOption

/-- The types that have a decoder of their own. -/
def knownTypes : List NdpOptionType :=
  [NdpOptionType.sourceLinkAddr, NdpOptionType.targetLinkAddr, NdpOptionType.prefixInfo,
    NdpOptionType.mtu]

/-- The reserved bits of a prefix fit, and an option that is kept as one of
an unknown type is of no known one. -/
def Unambiguous : NdpOption → Prop
  | prefixInfo i => i.reserved1.toNat < 2 ^ PrefixInfo.reservedBits.width
  | unknown t _ => t ∉ knownTypes
  | _ => True

/-- **An option that its octets tell**: it is made of whole units, as many
as the length octet has room for, and nothing else is written like it. -/
def Canonical (o : NdpOption) : Prop := o.Sized ∧ o.Unambiguous

theorem length_content (o : NdpOption) : 2 + o.content.length = o.length := by
  rw [← length_toBytes, toBytes, List.length_cons, List.length_cons]
  omega

/-- An option that is made of whole units has the type and the content
that it is written with. -/
theorem typeAndData_toBytes {o : NdpOption} (h : o.Sized) (offset : Nat) (behind : Bytes) :
    typeAndData ⟨offset, o.toBytes ++ behind⟩
      = .ok (o.optionType, UInt8.ofNat (o.length / 8), o.content) := by
  obtain ⟨hwhole, hle⟩ := h
  have hcontent := o.length_content
  have hunits : (UInt8.ofNat (o.length / 8)).toNat = o.length / 8 :=
    UInt8.toNat_ofNat_of_lt' (Nat.lt_succ_of_le hle)
  have hne : UInt8.ofNat (o.length / 8) ≠ 0 := by
    intro hzero
    rw [hzero] at hunits
    have : (0 : UInt8).toNat = 0 := rfl
    omega
  have hlength : (UInt8.ofNat (o.length / 8)).toNat * 8 - 2 = o.content.length := by
    omega
  have hsplit : Bytes.split? (o.content ++ behind) o.content.length = some (o.content, behind) :=
    Bytes.split?_eq_some.mpr ⟨rfl, rfl⟩
  rw [typeAndData, toBytes]
  dsimp only [List.cons_append]
  rw [if_neg hne, hlength, hsplit]

/-- An option of another type is read as an unknown one. -/
theorem get_of_not_mem_knownTypes {t : NdpOptionType} (h : t ∉ knownTypes) :
    Decoders.standard.ndpOptions.get t = decodeUnknown := by
  refine Registry.get_of_not_contains ?_
  simp only [knownTypes, List.mem_cons, List.not_mem_nil, or_false, not_or,
    ← beq_eq_false_iff_ne] at h
  obtain ⟨hsource, htarget, hprefix, hmtu⟩ := h
  show (List.lookup t [(NdpOptionType.mtu, decodeMtu),
    (NdpOptionType.prefixInfo, decodePrefixInfo),
    (NdpOptionType.targetLinkAddr, decodeTargetLinkAddr),
    (NdpOptionType.sourceLinkAddr, decodeSourceLinkAddr)]).isSome = false
  simp only [List.lookup_cons, List.lookup_nil, hsource, htarget, hprefix, hmtu, Option.isSome_none]

/-- **Canonical options are read back**, whatever follows. -/
theorem Canonical.readsBack {o : NdpOption} (h : o.Canonical) :
    ReadsBack Decoders.standard.ndpOption toBytes o := by
  intro offset behind
  have hread := typeAndData_toBytes h.1 offset behind
  show Decoders.standard.ndpOptions.get o.optionType _ = _
  cases o with
  | sourceLinkAddr data =>
    show decodeSourceLinkAddr _ = _
    rw [decodeSourceLinkAddr, hread]
    rfl
  | targetLinkAddr data =>
    show decodeTargetLinkAddr _ = _
    rw [decodeTargetLinkAddr, hread]
    rfl
  | prefixInfo info =>
    have hinfo := PrefixInfo.read?_toBytes h.2 []
    rw [List.append_nil] at hinfo
    show decodePrefixInfo _ = _
    rw [decodePrefixInfo, bind_eq_ok]
    refine ⟨_, hread, ?_⟩
    dsimp only [content]
    rw [hinfo]
    rfl
  | mtu reserved value =>
    have hreserved : Bytes.u16? (Bytes.be16 reserved ++ Bytes.be32 value)
        = some (reserved, Bytes.be32 value) := Bytes.u16?_eq_some.mpr rfl
    have hvalue : Bytes.u32? (Bytes.be32 value) = some (value, []) :=
      Bytes.u32?_eq_some.mpr (List.append_nil _).symm
    show decodeMtu _ = _
    rw [decodeMtu, bind_eq_ok]
    refine ⟨_, hread, ?_⟩
    dsimp only [content]
    rw [hreserved, Option.bind_eq_bind, Option.bind_some, hvalue]
    rfl
  | unknown t data =>
    rw [optionType, get_of_not_mem_knownTypes h.2, decodeUnknown, hread]
    rfl

theorem unambiguous_of_decode {offset : Nat} {t : NdpOptionType} {rest : Bytes} {o : NdpOption}
    (h : Decoders.standard.ndpOption ⟨offset, t :: rest⟩ = .ok o) : o.Unambiguous := by
  by_cases ht : t ∈ knownTypes
  · simp only [knownTypes, List.mem_cons, List.not_mem_nil, or_false] at ht
    rcases ht with rfl | rfl | rfl | rfl
    · change decodeSourceLinkAddr _ = _ at h
      simp only [decodeSourceLinkAddr, bind_eq_ok, return_eq_ok] at h
      obtain ⟨-, -, rfl⟩ := h
      trivial
    · change decodeTargetLinkAddr _ = _ at h
      simp only [decodeTargetLinkAddr, bind_eq_ok, return_eq_ok] at h
      obtain ⟨-, -, rfl⟩ := h
      trivial
    · change decodePrefixInfo _ = _ at h
      simp only [decodePrefixInfo, bind_eq_ok] at h
      obtain ⟨_, -, h⟩ := h
      split at h
      · next info hread =>
        cases h
        exact PrefixInfo.reserved1_lt_of_read? hread
      · exact absurd h throw_ne_ok
    · change decodeMtu _ = _ at h
      simp only [decodeMtu, bind_eq_ok] at h
      obtain ⟨_, -, h⟩ := h
      split at h
      · cases h
        trivial
      · exact absurd h throw_ne_ok
  · rw [Decoders.ndpOption, List.headD_cons, get_of_not_mem_knownTypes ht, decodeUnknown] at h
    simp only [bind_eq_ok, return_eq_ok] at h
    obtain ⟨⟨t', units, data⟩, hd, rfl⟩ := h
    obtain ⟨-, -, behind, hw⟩ := bytes_of_typeAndData hd
    obtain ⟨rfl, -⟩ := List.cons.inj hw
    exact ht

/-- **What an option is decoded from**: the octets of a canonical one, and
then whatever follows. -/
theorem decode_eq_ok_iff {w : Window} {o : NdpOption} :
    Decoders.standard.ndpOption w = .ok o
      ↔ o.Canonical ∧ ∃ behind, w.bytes = o.toBytes ++ behind := by
  constructor
  · obtain ⟨offset, bytes⟩ := w
    intro h
    cases bytes with
    | nil => cases h
    | cons t rest =>
      exact ⟨⟨sized_of_decode (Decoders.standard_ofLibrary.ndpOptions.get _) h,
        unambiguous_of_decode h⟩, Decoders.standard_exact.ndpOption.exact h⟩
  · rintro ⟨h, behind, hw⟩
    have hread := h.readsBack w.offset behind
    rwa [← hw] at hread

end NdpOption

/-! ## Lists of options -/

/-- **Lists of options are split exactly.** Whatever octets a region holds,
reading the options of either kind by position, step by step, comes to an
end without a step out of bounds, and what it comes to splits the
region. -/
theorem splits_options_standard (region : Window) :
    let d := Decoders.standard
    let options := region.elements d.ipv6Option Ipv6Option.length
    let ndpOptions := region.elements d.ndpOption NdpOption.length
    (region.elementSteps (fun w => d.ipv6Option w) Ipv6Option.length 0 = some options
      ∧ region.Splits d.ipv6Options.get Ipv6Option.length Ipv6Option.toBytes
          Ipv6Option.Canonical options)
    ∧ region.elementSteps (fun w => d.ndpOption w) NdpOption.length 0 = some ndpOptions
      ∧ region.Splits d.ndpOptions.get NdpOption.length NdpOption.toBytes
          NdpOption.Canonical ndpOptions :=
  ⟨⟨Window.elementSteps_zero (fun _ => rfl) Ipv6Option.length_pos region,
      Window.splits_elements Decoders.standard_exact.ipv6Option (fun _ => rfl)
        Ipv6Option.decode_eq_ok_iff region⟩,
    Window.elementSteps_zero (fun _ => rfl) NdpOption.length_pos region,
    Window.splits_elements Decoders.standard_exact.ndpOption (fun _ => rfl)
      NdpOption.decode_eq_ok_iff region⟩

/-- A router alert, a pad, and then a router alert of three octets. -/
example : (⟨0, [5, 2, 0, 1, 0, 5, 3, 0, 0, 0]⟩ : Window).elements Decoders.standard.ipv6Option
    Ipv6Option.length = ([.routerAlert 1, .pad1], true) := by
  decide +kernel

end PacketCodec
