import PacketCodec.Proofs.Copy
import PacketCodec.Proofs.LengthField

/-!
# Corrections made twice

A packet that was built with corrections can be turned into a draft, and
the same corrections can be asked for again (`Draft.correctedAs`). They
find everything as they would leave it: the padding of an options header
is one of its options now, and completes its last unit; a pad is computed
from the payload, not from the pad that is there; a checksum is computed
with a zero in its place. So what is built is the packet that was there
(`Draft.build_correctedAs`), whichever corrections had been asked for, and
in however many of the outer layers they are asked for again.

Where they are not asked for again, the packet is built from its fields as
they are, and comes out the same because it is its own copy
(`Draft.copy_packet`): lists that were built are complete, and nothing is
behind a datagram or an SCTP packet that was built.
-/

namespace PacketCodec

open Violation (ifOver)

/-! ## Asking for corrections -/

/-- The draft with the corrections that another draft for a layer of the
same kind asks for. -/
def LeafDraft.correctedAs : LeafDraft → LeafDraft → LeafDraft
  | arp d, arp e => .arp { d with correctLength := e.correctLength }
  | sctp d, sctp e => .sctp { d with correctChecksum := e.correctChecksum }
  | l, _ => l

/-- The draft with the corrections that another draft for a layer of the
same kind asks for, and the addresses that it has for them. -/
def CarrierDraft.correctedAs : CarrierDraft → CarrierDraft → CarrierDraft
  | ethernet d, ethernet e => .ethernet { d with padding := e.padding, checked := e.checked }
  | ipv6 d, ipv6 e => .ipv6 { d with correctLength := e.correctLength }
  | options kind d, options _ e => .options kind { d with correctLength := e.correctLength }
  | routing d, routing e => .routing { d with correctLength := e.correctLength }
  | icmpv6 d, icmpv6 e =>
    .icmpv6 { d with src := e.src, dst := e.dst, correctChecksum := e.correctChecksum }
  | udp d, udp e =>
    .udp { d with
      src := e.src
      dst := e.dst
      correctLength := e.correctLength
      correctChecksum := e.correctChecksum }
  | gtp d, gtp e => .gtp { d with correctLength := e.correctLength }
  | c, _ => c

/-- **The draft with the corrections of another** of the same shape, in as
many of its outer layers. -/
def Draft.correctedAs : Draft → Draft → (layers : Nat) → Draft
  | leaf l, leaf m, _ + 1 => leaf (l.correctedAs m)
  | bare c, bare e, _ + 1 => bare (c.correctedAs e)
  | carry c p, carry e q, n + 1 => carry (c.correctedAs e) (p.correctedAs q n)
  | d, _, _ => d

/-! ## What is built is its own copy -/

theorem LeafDraft.copy_complete (l : LeafDraft) : l.complete.copy = l.complete := by
  cases l with
  | sctp d =>
    have hheader : { d.header with truncated := false } = d.header := by
      rw [SctpDraft.header]
      split <;> rfl
    exact congrArg (fun h => Leaf.sctp h [] d.algorithmOrDefault) hheader
  | _ => rfl

theorem CarrierDraft.copy_onto (c : CarrierDraft) (payload : Option Packet) :
    (c.onto payload).copy = c.onto payload := by
  cases c <;> rfl

theorem Draft.copy_packet (d : Draft) : d.packet.copy = d.packet := by
  induction d with
  | leaf l => exact congrArg Packet.leaf l.copy_complete
  | bare c => exact congrArg Packet.bare (c.copy_onto none)
  | carry c p ih => rw [packet, Packet.copy, c.copy_onto, ih]

/-- A packet that was built is built from its fields. -/
theorem Draft.build_toDraft_packet {d : Draft} (sound : d.Sound) :
    d.packet.toDraft.build = .ok d.packet := by
  have hp : d.build = .ok d.packet := build_eq_ok.mpr ⟨sound, rfl⟩
  rw [(admissible_build hp).build_toDraft, d.copy_packet]

/-! ## Layers -/

theorem LeafDraft.correctedAs_complete {l : LeafDraft} (hl : l.violations = []) :
    (l.complete.toDraft.correctedAs l).violations = []
      ∧ (l.complete.toDraft.correctedAs l).complete = l.complete := by
  have hplain := (l.complete.violations_toDraft_eq_nil).mpr (admissible_complete hl)
  cases l with
  | arp d =>
    have hlengths : ArpDraft.violations { d.header.toDraft with correctLength := d.correctLength }
          = []
        ∧ ArpDraft.header { d.header.toDraft with correctLength := d.correctLength }
          = d.header := by
      simp only [ArpDraft.violations, ArpDraft.header, ArpHeader.toDraft]
      cases d.correctLength <;> exact ⟨rfl, rfl⟩
    exact ⟨hlengths.1, congrArg Leaf.arp hlengths.2⟩
  | sctp d =>
    have hchecked : SctpDraft.violations
          { d.header.toDraft d.algorithmOrDefault with correctChecksum := d.correctChecksum }
        = [] := by
      cases d.correctChecksum <;> exact hplain
    have hheader : SctpDraft.header
          { d.header.toDraft d.algorithmOrDefault with correctChecksum := d.correctChecksum }
        = d.header := by
      simp only [SctpDraft.header, SctpHeader.toDraft]
      cases d.correctChecksum <;> rfl
    exact ⟨hchecked, congrArg (fun h => Leaf.sctp h [] d.algorithmOrDefault) hheader⟩
  | _ => exact ⟨hplain, rfl⟩

/-- An options header that is filled up has nothing to add to it. -/
theorem OptionsDraft.header_correctedAs {d : OptionsDraft} (correct : d.correctLength = true) :
    let again : OptionsDraft := { d.header.toDraft d.unparsed with correctLength := true }
    again.units = d.units ∧ again.header = d.header := by
  intro again
  have hcontent : again.content = (d.units + 1) * 8 := length_header correct
  have hunits : again.units = d.units := by
    rw [units, hcontent]
    omega
  have hpadding : (8 - again.content % 8) % 8 = 0 := by
    rw [hcontent]
    omega
  have hoptions : again.header.options = d.header.options := by
    rw [header]
    simp only [hpadding]
    exact List.append_nil _
  have hlength : again.header.hdrExtLen = d.header.hdrExtLen := by
    show UInt8.ofNat again.units = _
    rw [hunits]
    exact (if_pos correct).symm
  refine ⟨hunits, ?_⟩
  calc again.header
      = { d.header with
          hdrExtLen := again.header.hdrExtLen
          options := again.header.options } := rfl
    _ = d.header := by rw [hlength, hoptions]

theorem OptionsDraft.correctedAs_header {d : OptionsDraft} (hd : d.violations = [])
    (plain : (d.header.toDraft d.unparsed).violations = []) :
    let again : OptionsDraft :=
      { d.header.toDraft d.unparsed with correctLength := d.correctLength }
    again.violations = [] ∧ again.header = d.header := by
  intro again
  cases hcorrect : d.correctLength with
  | false =>
    simp only [again, hcorrect]
    exact ⟨plain, rfl⟩
  | true =>
    obtain ⟨hunits, hheader⟩ := header_correctedAs hcorrect
    have hlength := (List.append_eq_nil_iff.mp hd).2
    rw [if_pos hcorrect, ← hunits] at hlength
    simp only [again, hcorrect]
    exact ⟨List.append_eq_nil_iff.mpr ⟨(List.append_eq_nil_iff.mp plain).1, hlength⟩, hheader⟩

theorem RoutingDraft.correctedAs_header {d : RoutingDraft} (hd : d.violations = []) :
    let again : RoutingDraft := { d.header.toDraft with correctLength := d.correctLength }
    again.violations = [] ∧ again.header = d.header := by
  intro again
  have hlength := (List.append_eq_nil_iff.mp hd).2
  have hchecked : again.violations = [] := by
    cases hcorrect : d.correctLength with
    | false =>
      simp only [again, hcorrect]
      rfl
    | true =>
      rw [if_pos hcorrect] at hlength
      simp only [again, hcorrect]
      exact hlength
  refine ⟨hchecked, ?_⟩
  simp only [again, header, RoutingHeader.toDraft]
  cases d.correctLength <;> rfl

theorem Ipv6Draft.correctedAs_headerOver {d : Ipv6Draft} {n : Nat}
    (plain : (d.headerOver n).toDraft.violations = []) :
    let again : Ipv6Draft := { (d.headerOver n).toDraft with correctLength := d.correctLength }
    again.violations = [] ∧ again.headerOver n = d.headerOver n := by
  intro again
  have hchecked : again.violations = [] := by
    simp only [again]
    cases d.correctLength <;> exact plain
  refine ⟨hchecked, ?_⟩
  simp only [again, headerOver, Ipv6Header.toDraft]
  cases d.correctLength <;> rfl

theorem Icmpv6Draft.correctedAs_headerOver {d : Icmpv6Draft} (hd : d.violations = [])
    (body : Bytes) :
    let again : Icmpv6Draft :=
      { (d.headerOver body).toDraft with
        src := d.src, dst := d.dst, correctChecksum := d.correctChecksum }
    again.violations = [] ∧ again.headerOver body = d.headerOver body := by
  intro again
  have haddresses := (List.append_eq_nil_iff.mp hd).2
  have hchecked : again.violations = [] := by
    cases hcorrect : d.correctChecksum with
    | false =>
      simp only [again, hcorrect]
      rfl
    | true =>
      rw [if_pos hcorrect] at haddresses
      simp only [again, hcorrect]
      exact haddresses
  refine ⟨hchecked, ?_⟩
  simp only [again, headerOver, Icmpv6Header.toDraft]
  cases d.correctChecksum <;> rfl

theorem UdpDraft.correctedAs_headerOver {d : UdpDraft} (hd : d.violations = [])
    (payload : Bytes) :
    let again : UdpDraft :=
      { (d.headerOver payload).toDraft with
        src := d.src
        dst := d.dst
        correctLength := d.correctLength
        correctChecksum := d.correctChecksum }
    again.violations = [] ∧ again.headerOver payload = d.headerOver payload := by
  intro again
  have haddresses := (List.append_eq_nil_iff.mp hd).2
  have hchecked : again.violations = [] := by
    cases hcorrect : d.correctChecksum with
    | false =>
      simp only [again, hcorrect]
      cases d.correctLength <;> rfl
    | true =>
      rw [if_pos hcorrect] at haddresses
      simp only [again, hcorrect]
      cases d.correctLength <;> exact haddresses
  refine ⟨hchecked, ?_⟩
  simp only [again, headerOver, unsummed, UdpHeader.toDraft]
  cases d.correctLength <;> cases d.correctChecksum <;> rfl

/-- A message has the same header with every length, so the same length is
computed for it. -/
theorem GtpDraft.correctedAs_headerOver {d : GtpDraft} (hd : d.violations = []) {n : Nat}
    (plain : ((d.headerOver n).toDraft d.trailer).violations = []) :
    let again : GtpDraft :=
      { (d.headerOver n).toDraft d.trailer with correctLength := d.correctLength }
    again.violations = [] ∧ again.correctedLength n = d.correctedLength n
      ∧ again.headerOver n = d.headerOver n := by
  intro again
  have hchecked : again.violations = [] := by
    simp only [again]
    cases d.correctLength <;> exact plain
  have hheader : ∀ v, again.headerWith v = d.headerWith v := fun v =>
    congrArg (fun h => { h with lengthField := v })
      ((admissible_headerWith hd _).headerWith_toDraft d.trailer)
  have hlength : again.correctedLength n = d.correctedLength n := by
    rw [correctedLength, hheader, correctedLength]
  refine ⟨hchecked, hlength, ?_⟩
  rw [headerOver, hheader, hlength]
  show d.headerWith (if d.correctLength then _ else if d.correctLength then _ else _)
    = d.headerWith (if d.correctLength then _ else _)
  cases d.correctLength <;> rfl

/-- **A layer with the corrections it was built with** passes both its
checks over the payload it was built over, and comes out the same. -/
theorem CarrierDraft.correctedAs_onto {c : CarrierDraft} (payload : Option Packet)
    (hc : c.violations = [])
    (hlate : c.lateViolations ((payload.map Packet.length).getD 0) = []) :
    let again := (c.onto payload).toDraft.correctedAs c
    again.violations = [] ∧ again.lateViolations ((payload.map Packet.length).getD 0) = []
      ∧ again.onto payload = c.onto payload := by
  -- Without corrections nothing is wrong, and a correction only asks for more where it says so.
  have hplain := Carrier.violations_toDraft
    (admissible_complete hc (complete_eq_ok.mpr ⟨hlate, rfl⟩))
  cases c with
  | ethernet d =>
    refine ⟨rfl, rfl, ?_⟩
    simp only [onto, completeFrame, Carrier.toDraft, correctedAs]
    cases d.padding <;> cases d.checked <;> rfl
  | ipv6 d =>
    obtain ⟨hchecked, hheader⟩ := Ipv6Draft.correctedAs_headerOver hplain
    exact ⟨hchecked, hlate, congrArg Carrier.ipv6 hheader⟩
  | options kind d =>
    obtain ⟨hchecked, hheader⟩ := OptionsDraft.correctedAs_header hc hplain
    exact ⟨hchecked, rfl, congrArg (fun h => Carrier.options kind h d.unparsed) hheader⟩
  | routing d =>
    obtain ⟨hchecked, hheader⟩ := RoutingDraft.correctedAs_header hc
    exact ⟨hchecked, rfl, congrArg Carrier.routing hheader⟩
  | icmpv6 d =>
    obtain ⟨hchecked, hheader⟩ := Icmpv6Draft.correctedAs_headerOver hc (payloadBytes payload)
    exact ⟨hchecked, hlate, congrArg Carrier.icmpv6 hheader⟩
  | udp d =>
    obtain ⟨hchecked, hheader⟩ := UdpDraft.correctedAs_headerOver hc (payloadBytes payload)
    exact ⟨hchecked, hlate, congrArg (fun h => Carrier.udp h []) hheader⟩
  | gtp d =>
    obtain ⟨hchecked, hlength, hheader⟩ := GtpDraft.correctedAs_headerOver hc hplain
    have hfound := congrArg
      (fun n => if d.correctLength then ifOver "length" n 65535 else []) hlength
    exact ⟨hchecked, hfound.trans hlate, congrArg (fun h => Carrier.gtp h d.trailer) hheader⟩
  | _ => exact ⟨hplain, rfl, rfl⟩

/-! ## Drafts -/

namespace Draft

/-- A packet is built from its fields and the corrections it was built
with. -/
theorem sound_correctedAs {d : Draft} (sound : d.Sound) (n : Nat) :
    (d.packet.toDraft.correctedAs d n).Sound
      ∧ (d.packet.toDraft.correctedAs d n).packet = d.packet := by
  -- Induction on the layers; the corrections end with the layers they are asked for in.
  induction d generalizing n with
  | leaf l =>
    cases n with
    | zero => exact build_eq_ok.mp (build_toDraft_packet sound)
    | succ n =>
      obtain ⟨hl, hcomplete⟩ := LeafDraft.correctedAs_complete (sound_leaf.mp sound)
      exact ⟨sound_leaf.mpr hl, congrArg Packet.leaf hcomplete⟩
  | bare c =>
    cases n with
    | zero => exact build_eq_ok.mp (build_toDraft_packet sound)
    | succ n =>
      obtain ⟨hc, hlate⟩ := sound_bare.mp sound
      obtain ⟨hc, hlate, honto⟩ := CarrierDraft.correctedAs_onto none hc hlate
      exact ⟨sound_bare.mpr ⟨hc, hlate⟩, congrArg Packet.bare honto⟩
  | carry c p ih =>
    cases n with
    | zero => exact build_eq_ok.mp (build_toDraft_packet sound)
    | succ n =>
      obtain ⟨⟨hc, hlate⟩, hp⟩ := sound_carry.mp sound
      obtain ⟨hpsound, hpacket⟩ := ih hp n
      obtain ⟨hc, hlate, honto⟩ := CarrierDraft.correctedAs_onto (some p.packet) hc hlate
      have hlength : (p.packet.toDraft.correctedAs p n).packet.length = p.packet.length :=
        congrArg Packet.length hpacket
      refine ⟨sound_carry.mpr ⟨⟨hc, hlength ▸ hlate⟩, hpsound⟩, ?_⟩
      show Packet.carry (CarrierDraft.onto (some (packet _)) _) (packet _) = _
      rw [hpacket, honto, packet]

/-- **Corrections are idempotent.** A packet that was built is built again,
octet by octet, from its own fields and the corrections it was built with –
lengths, checksums, the pad and the check sequence of a frame – in as many
of its outer layers as they are asked for again, whatever it carries. -/
theorem build_correctedAs {d : Draft} {p : Packet} (h : d.build = .ok p) (layers : Nat) :
    (p.toDraft.correctedAs d layers).build = .ok p := by
  obtain ⟨sound, rfl⟩ := build_eq_ok.mp h
  exact build_eq_ok.mpr (sound_correctedAs sound layers)

/-- **A frame with everything corrected**: the options header in it is
padded to a unit, the message in that has a checksum, and the frame has a
pad and a check sequence. Built again with the corrections of the frame
alone, of the two outer layers, and of all of them, it is the same. -/
theorem build_correctedAs_frame :
    let address : Ipv6Addr := ⟨Bytes.zeros 15 ++ [1], rfl⟩
    let frame : EthernetDraft :=
      { dst := some ⟨Bytes.zeros 6, rfl⟩, src := some ⟨Bytes.zeros 6, rfl⟩,
        etherType := some 0x88b5, padding := true, checked := true }
    let options : OptionsDraft :=
      { nextHeader := some IpProtocol.icmpv6, options := [.routerAlert 0], correctLength := true }
    let message : Icmpv6Draft :=
      { icmpType := some 200, code := some 0, src := some address, dst := some address,
        correctChecksum := true }
    let d : Draft :=
      .carry (.ethernet frame) (.carry (.options .hopByHop options) (.bare (.icmpv6 message)))
    ∃ p, d.build = .ok p ∧ p.layers.map Packet.length = [64, 12, 4]
      ∧ (p.toDraft.correctedAs d 1).build = .ok p
      ∧ (p.toDraft.correctedAs d 2).build = .ok p
      ∧ (p.toDraft.correctedAs d 3).build = .ok p := by
  intro address frame options message d
  have hoptions : options.violations = [] := by decide
  have sound : d.Sound := sound_carry.mpr
    ⟨⟨rfl, rfl⟩, sound_carry.mpr ⟨⟨hoptions, rfl⟩, sound_bare.mpr ⟨rfl, rfl⟩⟩⟩
  have hp : d.build = .ok d.packet := build_eq_ok.mpr ⟨sound, rfl⟩
  exact ⟨d.packet, hp, rfl, build_correctedAs hp 1, build_correctedAs hp 2, build_correctedAs hp 3⟩

end Draft

end PacketCodec
