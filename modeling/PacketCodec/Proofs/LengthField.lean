import PacketCodec.Proofs.Acceptance
import PacketCodec.Proofs.Completion

/-!
# Corrected lengths

A length that is corrected is cut to the width of its field when the layer
is written down. That it is never cut in fact is due to a check made
before: by the layer itself where its own options or data are counted, and
late where the payload is. This module says what the two come to. A layer
that corrects its length, and is right otherwise
(`CarrierDraft.CorrectsLength`), is built over a payload if and only if
there is room for its length (`CarrierDraft.HasRoom`), and what is built
counts right (`Carrier.CountsRight`).

The bounds are those of the fields. Sixteen bits count octets: of the
payload in an IPv6 packet, of the whole datagram, and of what follows the
first eight octets of a message up to its trailer. Eight bits count units
of eight octets, less the first one, which is how 2048 octets of an options
header or a routing header come to be allowed. An options header is filled
up to whole units, a routing header has to consist of them.
-/

namespace PacketCodec

/-! ## What is counted -/

/-- **A layer that corrects its length** and no checksum, has everything
that is required, and nothing that does not fit into its field. -/
def CarrierDraft.CorrectsLength : CarrierDraft → Prop
  | ipv6 d =>
    d.correctLength ∧ d.version.toNat < 2 ^ 4 ∧ d.trafficClass.isSome ∧ d.nextHeader.isSome
      ∧ (∃ label ∈ d.flowLabel, label.toNat < 2 ^ 20) ∧ d.hopLimit.isSome ∧ d.src.isSome
      ∧ d.dst.isSome
  | options _ d => d.correctLength ∧ d.nextHeader.isSome ∧ ∀ o ∈ d.options, o.dataLength ≤ 255
  | routing d => d.correctLength ∧ d.nextHeader.isSome ∧ d.segmentsLeft.isSome ∧ d.data.isSome
  | udp d =>
    d.correctLength ∧ d.correctChecksum = false ∧ d.srcPort.isSome ∧ d.dstPort.isSome
      ∧ d.checksum.isSome
  | gtp d =>
    d.correctLength ∧ d.version.toNat < 2 ^ 3 ∧ d.messageType.isSome ∧ d.teid.isSome
      ∧ (d.extFlagOrDefault ∨ d.extensions = []) ∧ ∀ e ∈ d.extensions, e.Sized
  | _ => False

/-- **There is room for the length** over a payload of `length` octets. -/
def CarrierDraft.HasRoom (length : Nat) : CarrierDraft → Prop
  | ipv6 _ => length ≤ 65535
  | options _ d => 2 + totalSize Ipv6Option.length d.options + d.unparsed.length ≤ 2048
  | routing d => 8 ∣ 4 + d.dataOrNone.length ∧ 4 + d.dataOrNone.length ≤ 2048
  | udp _ => 8 + length ≤ 65535
  | gtp d =>
    (if d.extFlagOrDefault || d.seqFlag || d.npduFlag then 4 else 0)
      + totalSize GtpExtension.length d.extensions + length ≤ 65535
  | _ => True

/-- **The length field of the layer is right** over a payload of `length`
octets. -/
def Carrier.CountsRight (length : Nat) : Carrier → Prop
  | ipv6 h => h.payloadLen.toNat = length
  | options _ h unparsed => h.length + unparsed.length = (h.hdrExtLen.toNat + 1) * 8
  | routing h => h.length = (h.hdrExtLen.toNat + 1) * 8
  | udp h _ => h.lengthField.toNat = 8 + length
  | gtp h _ =>
    h.lengthField.toNat = (if h.extFlag || h.seqFlag || h.npduFlag then 4 else 0)
      + totalSize GtpExtension.length h.extensions + length
  | _ => True

/-! ## Options headers -/

theorem totalSize_append {α : Type} (size : α → Nat) (as bs : List α) :
    totalSize size (as ++ bs) = totalSize size as + totalSize size bs := by
  induction as with
  | nil => exact (Nat.zero_add _).symm
  | cons a as ih =>
    show size a + totalSize size (as ++ bs) = size a + totalSize size as + totalSize size bs
    rw [ih, Nat.add_assoc]

theorem Ipv6Option.totalSize_padding? (n : Nat) :
    totalSize length (padding? n).toList = n := by
  match n with
  | 0 => rfl
  | 1 => rfl
  | n + 2 =>
    show 2 + (Bytes.zeros n).length + 0 = n + 2
    rw [Bytes.zeros, List.length_replicate]
    omega

namespace OptionsDraft

variable {d : OptionsDraft}

/-- An options header whose length is corrected is filled up to whole
units. -/
theorem length_header (correct : d.correctLength = true) :
    d.header.length + d.unparsed.length = (d.units + 1) * 8 := by
  have hoptions : d.header.options
      = d.options ++ (Ipv6Option.padding? ((8 - d.content % 8) % 8)).toList := if_pos correct
  rw [OptionsHeader.length, hoptions, totalSize_append, Ipv6Option.totalSize_padding?, units]
  have hcontent : d.content = 2 + totalSize Ipv6Option.length d.options + d.unparsed.length := rfl
  omega

theorem units_le_iff (d : OptionsDraft) : d.units ≤ 255 ↔ d.content ≤ 2048 := by
  rw [units]
  omega

end OptionsDraft

/-! ## Routing headers -/

namespace RoutingDraft

variable {d : RoutingDraft}

theorem units_le_iff (d : RoutingDraft) :
    d.length % 8 = 0 ∧ d.units ≤ 255
      ↔ 8 ∣ 4 + d.dataOrNone.length ∧ 4 + d.dataOrNone.length ≤ 2048 := by
  rw [units, length]
  omega

/-- A routing header of whole units has the length that is set. -/
theorem length_header (whole : 8 ∣ 4 + d.dataOrNone.length) :
    d.header.length = (d.units + 1) * 8 := by
  show 4 + d.dataOrNone.length = _
  rw [units, length]
  omega

end RoutingDraft

/-! ## Messages -/

theorem GtpDraft.correctedLength_eq (d : GtpDraft) (n : Nat) :
    d.correctedLength n
      = (if d.extFlagOrDefault || d.seqFlag || d.npduFlag then 4 else 0)
        + totalSize GtpExtension.length d.extensions + n := by
  have hsize := d.correctedLength_add_size n
  have hlength : (d.headerWith 0).length
      = GtpHeader.size + (if d.extFlagOrDefault || d.seqFlag || d.npduFlag then 4 else 0)
        + totalSize GtpExtension.length d.extensions := rfl
  omega

/-! ## Layers -/

namespace CarrierDraft

/-- **The checks are for room**: of a layer that corrects its length they
find nothing if and only if there is room for it. -/
theorem checks_eq_nil_iff {c : CarrierDraft} (hc : c.CorrectsLength) (length : Nat) :
    c.violations = [] ∧ c.lateViolations length = [] ↔ c.HasRoom length := by
  cases c with
  | ipv6 d =>
    obtain ⟨correct, hversion, hclass, hnext, ⟨label, hlabel, hlt⟩, hhop, hsrc, hdst⟩ := hc
    have hchecked : d.violations = [] := by
      simp only [Ipv6Draft.violations, correct, if_true, List.append_eq_nil_iff,
        Violation.ifOver_eq_nil, Violation.ifMissing_eq_nil, ← Option.isSome_iff_exists,
        Option.mem_def.mp hlabel, Option.getD_some, Option.isSome_some, hclass, hnext, hhop, hsrc,
        hdst, and_true]
      exact ⟨Nat.le_pred_of_lt hversion, Nat.le_pred_of_lt hlt⟩
    rw [violations, lateViolations, if_pos correct, Violation.ifOver_eq_nil, and_iff_right hchecked,
      HasRoom]
  | options kind d =>
    obtain ⟨correct, hnext, hoptions⟩ := hc
    refine (and_iff_left rfl).trans ?_
    simp only [violations, OptionsDraft.violations, correct, if_true, List.append_eq_nil_iff,
      Violation.ifOver_eq_nil, Violation.ifMissing_eq_nil, ← Option.isSome_iff_exists,
      List.flatMap_eq_nil_iff, hnext, true_and, and_iff_right hoptions]
    exact d.units_le_iff
  | routing d =>
    obtain ⟨correct, hnext, hleft, hdata⟩ := hc
    refine (and_iff_left rfl).trans ?_
    simp only [violations, RoutingDraft.violations, correct, if_true, List.append_eq_nil_iff,
      Violation.ifOver_eq_nil, Violation.ifMissing_eq_nil, Violation.ifBad_eq_nil,
      ← Option.isSome_iff_exists, bne_eq_false_iff_eq, hnext, hleft, hdata, true_and]
    exact d.units_le_iff
  | udp d =>
    obtain ⟨correct, hstored, hsrc, hdst, hchecksum⟩ := hc
    have hchecked : d.violations = [] := by
      simp only [UdpDraft.violations, correct, hstored, if_true, Bool.false_eq_true, if_false,
        List.append_eq_nil_iff, Violation.ifMissing_eq_nil, ← Option.isSome_iff_exists, hsrc,
        hdst, hchecksum, and_true]
    rw [violations, lateViolations, if_pos correct, Violation.ifOver_eq_nil, and_iff_right hchecked,
      HasRoom, UdpHeader.size]
  | gtp d =>
    obtain ⟨correct, hversion, htype, hteid, hflag, hsized⟩ := hc
    have hchecked : d.violations = [] := by
      simp only [GtpDraft.violations, correct, if_true, List.append_eq_nil_iff,
        Violation.ifOver_eq_nil, Violation.ifMissing_eq_nil, Violation.ifBad_eq_nil,
        ← Option.isSome_iff_exists, List.flatMap_eq_nil_iff, bne_eq_false_iff_eq, htype, hteid,
        and_true]
      refine ⟨⟨Nat.le_pred_of_lt hversion, ?_⟩, hsized⟩
      rcases hflag with hflag | hempty
      · rw [hflag, Bool.not_true, Bool.false_and]
      · rw [hempty, List.isEmpty_nil, Bool.not_true, Bool.and_false]
    rw [violations, lateViolations, if_pos correct, Violation.ifOver_eq_nil, and_iff_right hchecked,
      HasRoom, d.correctedLength_eq]
  | _ => exact hc.elim

/-- **With room for it, a length is not cut.** -/
theorem countsRight_onto {c : CarrierDraft} (hc : c.CorrectsLength) {payload : Option Packet}
    (room : c.HasRoom ((payload.map Packet.length).getD 0)) :
    (c.onto payload).CountsRight ((payload.map Packet.length).getD 0) := by
  cases c with
  | ipv6 d =>
    have hfield : (d.headerOver ((payload.map Packet.length).getD 0)).payloadLen
        = UInt16.ofNat ((payload.map Packet.length).getD 0) := if_pos hc.1
    show UInt16.toNat _ = _
    rw [hfield]
    exact UInt16.toNat_ofNat_of_lt (Nat.lt_of_le_pred (by decide) room)
  | options kind d =>
    have hunits : d.units ≤ 255 := d.units_le_iff.mpr room
    have hfield : d.header.hdrExtLen = UInt8.ofNat d.units := if_pos hc.1
    show d.header.length + d.unparsed.length = (d.header.hdrExtLen.toNat + 1) * 8
    rw [OptionsDraft.length_header hc.1, hfield,
      UInt8.toNat_ofNat_of_lt' (Nat.lt_of_le_pred (by decide) hunits)]
  | routing d =>
    have hunits : d.units ≤ 255 := (d.units_le_iff.mpr room).2
    have hfield : d.header.hdrExtLen = UInt8.ofNat d.units := if_pos hc.1
    show d.header.length = (d.header.hdrExtLen.toNat + 1) * 8
    rw [RoutingDraft.length_header room.1, hfield,
      UInt8.toNat_ofNat_of_lt' (Nat.lt_of_le_pred (by decide) hunits)]
  | udp d =>
    obtain ⟨correct, hstored, -⟩ := hc
    have hheader : d.headerOver (payloadBytes payload) = d.unsummed (payloadBytes payload).length :=
      if_neg (by rw [hstored]; exact Bool.false_ne_true)
    have hfield : (d.unsummed (payloadBytes payload).length).lengthField
        = UInt16.ofNat (8 + (payload.map Packet.length).getD 0) := by
      rw [Packet.length_payloadBytes]
      exact if_pos correct
    show (d.headerOver (payloadBytes payload)).lengthField.toNat = _
    rw [hheader, hfield]
    exact UInt16.toNat_ofNat_of_lt (Nat.lt_of_le_pred (by decide) room)
  | gtp d =>
    have hfield : (d.headerOver ((payload.map Packet.length).getD 0)).lengthField
        = UInt16.ofNat (d.correctedLength ((payload.map Packet.length).getD 0)) := if_pos hc.1
    show UInt16.toNat _ = (if d.extFlagOrDefault || d.seqFlag || d.npduFlag then 4 else 0)
      + totalSize GtpExtension.length d.extensions + (payload.map Packet.length).getD 0
    rw [HasRoom, ← d.correctedLength_eq] at room
    rw [hfield, ← d.correctedLength_eq]
    exact UInt16.toNat_ofNat_of_lt (Nat.lt_of_le_pred (by decide) room)
  | _ => exact hc.elim

end CarrierDraft

/-- **A corrected length is exact, or the layer is not built.** A layer that
corrects its length is built over any payload that is built if and only if
there is room for the length in its field, and the length field of what is
built is right. -/
theorem Draft.build_countsRight {c : CarrierDraft} (hc : c.CorrectsLength) {payload : Option Draft}
    {below : Option Packet} (hbelow : payload.mapM build = .ok below) :
    let n := (below.map Packet.length).getD 0
    ((ofCarrier c payload).build.isOk = true ↔ c.HasRoom n)
      ∧ ∀ p, (ofCarrier c payload).build = .ok p →
        ∃ carrier, p = .ofCarrier carrier below ∧ carrier.format = c.format
          ∧ carrier.CountsRight n := by
  intro n
  have hroom := CarrierDraft.checks_eq_nil_iff hc n
  constructor
  · rw [← hroom]
    constructor
    · intro h
      obtain ⟨p, hp⟩ := exists_of_isOk h
      exact ((build_ofCarrier_onto hbelow).mp hp).1
    · intro h
      rw [(build_ofCarrier_onto hbelow).mpr ⟨h, rfl⟩]
      rfl
  · intro p hp
    obtain ⟨hchecks, rfl⟩ := (build_ofCarrier_onto hbelow).mp hp
    exact ⟨_, rfl, c.format_onto below, CarrierDraft.countsRight_onto hc (hroom.mp hchecks)⟩

/-- **At the limits**: a message with a sequence number is built over as
many octets as its length has room for, a trailer not counted, and not over
one more; and so is a datagram. An options header has room for 2048 octets
of its own, a routing header for as many in whole units. -/
theorem Draft.build_countsRight_limits :
    let message : GtpDraft :=
      { messageType := some 255, teid := some 1, seqFlag := true, trailer := [1, 2],
        correctLength := true }
    let datagram : UdpDraft :=
      { srcPort := some 5000, dstPort := some 5001, checksum := some 0, correctLength := true }
    let options : Nat → OptionsDraft := fun n =>
      { nextHeader := some IpProtocol.noNext, options := [.routerAlert 0],
        unparsed := Bytes.zeros n, correctLength := true }
    let routing : Nat → RoutingDraft := fun n =>
      { nextHeader := some IpProtocol.noNext, segmentsLeft := some 0,
        data := some (.unknown 4 (Bytes.zeros n)), correctLength := true }
    let built : CarrierDraft → Nat → Prop := fun c n => ∃ carrier,
      (ofCarrier c (some (unknown (Bytes.zeros n)))).build
        = .ok (.ofCarrier carrier (some (.unknown (Bytes.zeros n)))) ∧ carrier.CountsRight n
    (built (.gtp message) 65531 ∧ ¬built (.gtp message) 65532)
      ∧ (built (.udp datagram) 65527 ∧ ¬built (.udp datagram) 65528)
      ∧ (built (.options .hopByHop (options 2042)) 0 ∧ ¬built (.options .hopByHop (options 2043)) 0)
      ∧ built (.routing (routing 2044)) 0 ∧ ¬built (.routing (routing 2040)) 0
      ∧ ¬built (.routing (routing 2052)) 0 := by
  intro message datagram options routing built
  have hlength : ∀ n, (((some (Packet.unknown (Bytes.zeros n))).map Packet.length).getD 0) = n :=
    fun n => (Nat.zero_add _).trans List.length_replicate
  -- What the theorem says of each of them, the payload being any number of octets.
  have hbuilt : ∀ c n, c.CorrectsLength → (built c n ↔ c.HasRoom n) := by
    intro c n hc
    obtain ⟨hroom, hcounts⟩ := build_countsRight hc
      (show (some (unknown (Bytes.zeros n))).mapM build
        = .ok (some (Packet.unknown (Bytes.zeros n))) from rfl)
    rw [hlength] at hroom hcounts
    rw [← hroom]
    constructor
    · rintro ⟨carrier, hcarrier, -⟩
      rw [hcarrier]
      rfl
    · intro h
      obtain ⟨p, hp⟩ := exists_of_isOk h
      obtain ⟨carrier, rfl, -, hcarrier⟩ := hcounts p hp
      exact ⟨carrier, hp, hcarrier⟩
  have hzeros : ∀ n, (Bytes.zeros n).length = n := fun n => List.length_replicate
  have hmessage : ∀ n, built (.gtp message) n ↔ 4 + n ≤ 65535 := fun n =>
    hbuilt _ n ⟨rfl, by decide, rfl, rfl, .inr rfl, by simp [message]⟩
  have hdatagram : ∀ n, built (.udp datagram) n ↔ 8 + n ≤ 65535 := fun n =>
    hbuilt _ n ⟨rfl, rfl, rfl, rfl, rfl⟩
  have hoptions : ∀ n, built (.options .hopByHop (options n)) 0 ↔ 6 + n ≤ 2048 := fun n => by
    refine (hbuilt (.options .hopByHop (options n)) 0
      ⟨rfl, rfl, List.forall_mem_singleton.mpr (by decide)⟩).trans ?_
    show 2 + 4 + (Bytes.zeros n).length ≤ 2048 ↔ _
    rw [hzeros]
  have hrouting : ∀ n, built (.routing (routing n)) 0 ↔ 8 ∣ 4 + n ∧ 4 + n ≤ 2048 := fun n => by
    refine (hbuilt (.routing (routing n)) 0 ⟨rfl, rfl, rfl, rfl⟩).trans ?_
    show 8 ∣ 4 + (Bytes.zeros n).length ∧ 4 + (Bytes.zeros n).length ≤ 2048 ↔ _
    rw [hzeros]
  rw [hmessage, hmessage, hdatagram, hdatagram, hoptions, hoptions, hrouting, hrouting, hrouting]
  decide

end PacketCodec
