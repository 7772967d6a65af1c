import PacketCodec.Draft
import PacketCodec.Proofs.Bytes

/-!
# Packets that can be written

A draft refuses what the wire has no room for: values that are too large
for their bit fields, and options, chunks and extension headers whose
length their length field cannot tell. A layer without such a value is
*admissible*, `Leaf.Admissible` and `Carrier.Admissible`. Nothing is
wrong with the draft of an admissible layer.

What is built is admissible, since its draft has been checked
(`Draft.admissible_build`), and completing a layer adds nothing to it that
would be refused: a corrected length fits its field, and the padding of an
options header is an option of less than eight octets.
-/

namespace PacketCodec

open Violation (ifMissing ifOver ifBad)

/-! ## Violations -/

namespace Violation

@[simp] theorem ifMissing_some {α : Type} (field : String) (a : α) :
    ifMissing field (some a) = [] :=
  rfl

@[simp] theorem ifMissing_eq_nil {α : Type} {field : String} {a : Option α} :
    ifMissing field a = [] ↔ ∃ b, a = some b := by
  cases a <;> simp [ifMissing]

@[simp] theorem ifOver_eq_nil {field : String} {value max : Nat} :
    ifOver field value max = [] ↔ value ≤ max := by
  rw [ifOver]
  split <;> simp <;> omega

@[simp] theorem ifBad_eq_nil {bad : Bool} {field reason : String} :
    ifBad bad field reason = [] ↔ bad = false := by
  cases bad <;> simp [ifBad]

end Violation

theorem BuildError.check_eq_ok {protocol : String} {violations : List Violation} {u : Unit} :
    check protocol violations = .ok u ↔ violations = [] := by
  cases violations <;> simp [check]

/-! ## Values that fit -/

/-- The length octet of the option can tell how long its data is. -/
def Ipv6Option.Sized (o : Ipv6Option) : Prop := o.dataLength ≤ 255

/-- The option is made of whole units, and its length octet can tell how
many. -/
def NdpOption.Sized (o : NdpOption) : Prop := o.length % 8 = 0 ∧ o.length / 8 ≤ 255

/-- The extension header is made of whole units, and its length octet can
tell how many. -/
def GtpExtension.Sized (e : GtpExtension) : Prop := e.length % 4 = 0 ∧ e.length / 4 ≤ 255

/-- The length field of a chunk can tell how long the chunk is without its
padding. -/
def SctpChunk.Sized (c : SctpChunk) : Prop := headSize + c.value.length ≤ UInt16.size - 1

/-- **A message that can be written**: the version fits, extension headers
are announced by the flag and by the type that goes before them, and each
has a length that can be told. -/
structure GtpHeader.Admissible (h : GtpHeader) : Prop where
  version_le : h.version.toNat ≤ versionBits.max.toNat
  flagged : h.extFlag = false → h.extensions = []
  sized : ∀ e ∈ h.extensions, e.Sized
  announced : ∀ e ∈ h.extensions.head?, e.extensionType = h.nextExtType

/-- **A layer that can be written.** -/
def Leaf.Admissible : Leaf → Prop
  | solicitation h _ => ∀ o ∈ h.options, o.Sized
  | advertisement h _ =>
    h.reserved.toNat ≤ AdvertisementHeader.reservedBits.max.toNat ∧ ∀ o ∈ h.options, o.Sized
  | sctp h _ _ => ∀ c ∈ h.chunks, c.Sized
  | _ => True

/-- **A layer that can be written.** -/
def Carrier.Admissible : Carrier → Prop
  | ipv6 h =>
    h.version.toNat ≤ Ipv6Header.versionBits.max.toNat
      ∧ h.flowLabel.toNat ≤ Ipv6Header.flowLabelBits.max.toNat
  | options _ h _ => ∀ o ∈ h.options, o.Sized
  | fragment h =>
    h.fragOffset.toNat ≤ FragmentHeader.fragOffsetBits.max.toNat
      ∧ h.res.toNat ≤ FragmentHeader.resBits.max.toNat
  | gtp h _ => h.Admissible
  | _ => True

/-- **A packet that can be written**: each of its layers can. -/
def Packet.Admissible : Packet → Prop
  | leaf l => l.Admissible
  | bare c => c.Admissible
  | carry c p => c.Admissible ∧ p.Admissible

theorem Packet.admissible_ofCarrier {c : Carrier} {p : Option Packet} (hc : c.Admissible)
    (hp : ∀ q ∈ p, q.Admissible) : (ofCarrier c p).Admissible := by
  cases p with
  | none => exact hc
  | some q => exact ⟨hc, hp q rfl⟩

/-- The layers of a packet that can be written are such packets. -/
theorem Packet.Admissible.of_mem_layers {p l : Packet} (h : p.Admissible) (hl : l ∈ p.layers) :
    l.Admissible := by
  induction p with
  | leaf l' => exact List.mem_singleton.mp hl ▸ h
  | bare c => exact List.mem_singleton.mp hl ▸ h
  | carry c p ih =>
    rcases List.mem_cons.mp hl with rfl | hl
    · exact h
    · exact ih h.2 hl

/-! ## What drafts check -/

theorem ndpOptionViolations_eq_nil {options : List NdpOption} :
    ndpOptionViolations options = [] ↔ ∀ o ∈ options, o.Sized := by
  simp [ndpOptionViolations, NdpOption.Sized]

/-- **Nothing is wrong with the draft of a layer** exactly when the layer
can be written. -/
theorem Leaf.violations_toDraft_eq_nil (l : Leaf) :
    l.toDraft.violations = [] ↔ l.Admissible := by
  cases l with
  | arp h => exact iff_of_true rfl trivial
  | solicitation h trailer => exact ndpOptionViolations_eq_nil
  | advertisement h trailer =>
    simp [toDraft, LeafDraft.violations, AdvertisementDraft.violations, AdvertisementHeader.toDraft,
      Admissible, ndpOptionViolations_eq_nil]
  | sctp h trailer algorithm =>
    simp [toDraft, LeafDraft.violations, SctpDraft.violations, SctpHeader.toDraft, Admissible,
      SctpChunk.Sized]
  | unknown data => exact iff_of_true rfl trivial
  | malformed data reason => exact iff_of_true rfl trivial

/-- What is checked of a message, its required fields apart. -/
theorem GtpDraft.checked_of_violations {d : GtpDraft} (hd : d.violations = []) :
    d.version.toNat ≤ GtpHeader.versionBits.max.toNat
      ∧ (d.extFlagOrDefault = false → d.extensions = []) ∧ ∀ e ∈ d.extensions, e.Sized := by
  simp only [violations, List.append_eq_nil_iff, Violation.ifOver_eq_nil, Violation.ifBad_eq_nil,
    List.flatMap_eq_nil_iff, Bool.and_eq_false_iff, Bool.not_eq_false', bne_eq_false_iff_eq] at hd
  obtain ⟨⟨⟨⟨⟨hversion, -⟩, -⟩, -⟩, hflagged⟩, hsized⟩ := hd
  refine ⟨hversion, fun hflag => ?_, hsized⟩
  rcases hflagged with hflagged | hempty
  · rw [hflag] at hflagged
    cases hflagged
  · exact List.isEmpty_iff.mp hempty

theorem GtpHeader.Admissible.violations_toDraft {h : GtpHeader} (valid : h.Admissible)
    (trailer : Bytes) : (h.toDraft trailer).violations = [] := by
  have hflagged : (!h.extFlag && !h.extensions.isEmpty) = false := by
    cases hflag : h.extFlag with
    | false => rw [valid.flagged hflag]; rfl
    | true => rfl
  simp [GtpDraft.violations, toDraft, GtpDraft.extFlagOrDefault, valid.version_le, hflagged]
  exact valid.sized

/-- **Nothing is wrong with the draft of a layer** that can be written. -/
theorem Carrier.violations_toDraft {c : Carrier} (h : c.Admissible) :
    c.toDraft.violations = [] := by
  cases c with
  | ipv6 header =>
    simpa [toDraft, CarrierDraft.violations, Ipv6Draft.violations, Ipv6Header.toDraft,
      Admissible] using h
  | options kind header unparsed =>
    simpa [toDraft, CarrierDraft.violations, OptionsDraft.violations, OptionsHeader.toDraft,
      Admissible, Ipv6Option.Sized] using h
  | fragment header =>
    simpa [toDraft, CarrierDraft.violations, FragmentDraft.violations, FragmentHeader.toDraft,
      Admissible] using h
  | gtp header trailer => exact h.violations_toDraft trailer
  | _ => rfl

/-! ## What is built -/

theorem Ipv6Draft.admissible_header {d : Ipv6Draft} {length : Nat} {h : Ipv6Header}
    (hd : d.violations = []) (hh : d.header length = .ok h) : (Carrier.ipv6 h).Admissible := by
  simp only [violations, List.append_eq_nil_iff, Violation.ifOver_eq_nil] at hd
  obtain ⟨⟨⟨⟨⟨⟨⟨⟨hversion, -⟩, -⟩, hlabel⟩, -⟩, -⟩, -⟩, -⟩, -⟩ := hd
  -- Whether the length is corrected or not, the other fields are those of the draft.
  have hfields : h.version = d.version ∧ h.flowLabel = d.flowLabel.getD 0 := by
    rw [header] at hh
    split at hh
    · simp only [bind_eq_ok, return_eq_ok] at hh
      obtain ⟨-, -, rfl⟩ := hh
      exact ⟨rfl, rfl⟩
    · cases hh
      exact ⟨rfl, rfl⟩
  exact ⟨hfields.1 ▸ hversion, hfields.2 ▸ hlabel⟩

/-- The padding that completes a unit is an option of a length that can
be told. -/
theorem Ipv6Option.sized_padding? {n : Nat} (h : n < 8) : ∀ o ∈ padding? n, o.Sized := by
  intro o ho
  cases n with
  | zero => cases ho
  | succ n =>
    cases n with
    | zero =>
      cases ho
      exact Nat.zero_le 255
    | succ n =>
      cases ho
      simp only [Sized, dataLength, length, Bytes.zeros, List.length_replicate]
      omega

theorem OptionsDraft.admissible_header {d : OptionsDraft} (hd : d.violations = []) :
    ∀ o ∈ d.header.options, o.Sized := by
  have hoptions : ∀ o ∈ d.options, o.Sized := by
    simp only [violations, List.append_eq_nil_iff, List.flatMap_eq_nil_iff,
      Violation.ifOver_eq_nil] at hd
    exact hd.1.2
  intro o ho
  simp only [header] at ho
  split at ho
  · rcases List.mem_append.mp ho with ho | ho
    · exact hoptions o ho
    · exact Ipv6Option.sized_padding? (Nat.mod_lt _ (by decide)) o (Option.mem_toList.mp ho)
  · exact hoptions o ho

theorem FragmentDraft.admissible_header {d : FragmentDraft} (hd : d.violations = []) :
    (Carrier.fragment d.header).Admissible := by
  simp only [violations, List.append_eq_nil_iff, Violation.ifOver_eq_nil] at hd
  exact ⟨hd.1.1.1.2, hd.1.1.2⟩

theorem GtpDraft.admissible_headerWith {d : GtpDraft} (hd : d.violations = [])
    (lengthField : UInt16) : (d.headerWith lengthField).Admissible := by
  obtain ⟨hversion, hflagged, hsized⟩ := checked_of_violations hd
  refine ⟨hversion, hflagged, hsized, fun e he => ?_⟩
  have he : d.extensions.head? = some e := he
  simp only [headerWith, he, Option.map_some, Option.getD_some]

theorem LeafDraft.admissible_complete {d : LeafDraft} (hd : d.violations = []) :
    d.complete.Admissible := by
  cases d with
  | arp d => trivial
  | solicitation d =>
    simp only [violations, SolicitationDraft.violations, List.append_eq_nil_iff] at hd
    exact ndpOptionViolations_eq_nil.mp hd.2
  | advertisement d =>
    simp only [violations, AdvertisementDraft.violations, List.append_eq_nil_iff,
      Violation.ifOver_eq_nil] at hd
    exact ⟨hd.1.2, ndpOptionViolations_eq_nil.mp hd.2⟩
  | sctp d =>
    simp only [violations, SctpDraft.violations, List.append_eq_nil_iff, List.flatMap_eq_nil_iff,
      Violation.ifOver_eq_nil] at hd
    have hchunks : d.header.chunks = d.chunks := by
      rw [SctpDraft.header]
      split <;> rfl
    show ∀ c ∈ d.header.chunks, c.Sized
    rw [hchunks]
    exact hd.2
  | unknown data => trivial

/-- **A layer is completed to one that can be written.** -/
theorem CarrierDraft.admissible_complete {d : CarrierDraft} {payload : Option Packet} {c : Carrier}
    (hd : d.violations = []) (hc : d.complete payload = .ok c) : c.Admissible := by
  cases d <;> simp only [complete, Except.ok.injEq, map_eq_ok] at hc
  case ipv6 d =>
    obtain ⟨h, hh, rfl⟩ := hc
    exact Ipv6Draft.admissible_header hd hh
  case options kind d =>
    subst hc
    exact OptionsDraft.admissible_header hd
  case fragment d =>
    subst hc
    exact FragmentDraft.admissible_header hd
  case gtp d =>
    obtain ⟨h, hh, rfl⟩ := hc
    rw [GtpDraft.header] at hh
    split at hh
    · simp only [bind_eq_ok, return_eq_ok] at hh
      obtain ⟨-, -, rfl⟩ := hh
      exact GtpDraft.admissible_headerWith hd _
    · cases hh
      exact GtpDraft.admissible_headerWith hd _
  case icmpv6 d | udp d =>
    obtain ⟨h, -, rfl⟩ := hc
    trivial
  case ethernet d | routing d | echo d =>
    subst hc
    trivial

/-- **A layer over a payload is built** when nothing is wrong with it, its
payload is built, and the layer is completed over that. -/
theorem Draft.build_ofCarrier_eq_ok {c : CarrierDraft} {payload : Option Draft} {p : Packet} :
    (ofCarrier c payload).build = .ok p
      ↔ c.violations = [] ∧ ∃ below carrier, payload.mapM build = .ok below
          ∧ c.complete below = .ok carrier ∧ .ofCarrier carrier below = p := by
  cases payload with
  | none =>
    rw [ofCarrier, build]
    simp only [bind_eq_ok, return_eq_ok, BuildError.check_eq_ok, Option.mapM_none, exists_const,
      exists_and_left, exists_eq_left']
    exact Iff.rfl
  | some d =>
    rw [ofCarrier, build]
    simp only [bind_eq_ok, BuildError.check_eq_ok, exists_const, Option.mapM_some]
    refine and_congr_right fun _ => ?_
    cases d.build with
    | error e =>
      constructor
      · exact fun h => absurd h throw_ne_ok
      · rintro ⟨below, carrier, hbelow, -⟩
        cases hbelow
    | ok q =>
      simp only [bind_eq_ok, return_eq_ok]
      constructor
      · rintro ⟨carrier, hcarrier, hp⟩
        exact ⟨some q, carrier, rfl, hcarrier, hp⟩
      · rintro ⟨below, carrier, hbelow, hcarrier, hp⟩
        cases hbelow
        exact ⟨carrier, hcarrier, hp⟩

/-- **What is built can be written.** -/
theorem Draft.admissible_build {d : Draft} {p : Packet} (h : d.build = .ok p) : p.Admissible := by
  -- Each layer passes its own check before it is completed over its payload.
  induction d generalizing p with
  | leaf l =>
    simp only [build, bind_eq_ok, return_eq_ok, BuildError.check_eq_ok] at h
    obtain ⟨-, hl, rfl⟩ := h
    exact LeafDraft.admissible_complete hl
  | bare c =>
    simp only [build, bind_eq_ok, return_eq_ok, BuildError.check_eq_ok] at h
    obtain ⟨-, hd, c', hc, rfl⟩ := h
    exact CarrierDraft.admissible_complete hd hc
  | carry c d ih =>
    simp only [build, bind_eq_ok, BuildError.check_eq_ok] at h
    obtain ⟨-, hd, h⟩ := h
    split at h
    · exact absurd h throw_ne_ok
    · next q hq =>
      simp only [bind_eq_ok, return_eq_ok] at h
      obtain ⟨c', hc, rfl⟩ := h
      exact ⟨CarrierDraft.admissible_complete hd hc, ih hq⟩

end PacketCodec
