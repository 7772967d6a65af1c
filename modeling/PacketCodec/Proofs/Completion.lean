import PacketCodec.Proofs.Correction
import PacketCodec.Proofs.GtpReadback

/-!
# What drafts are built to

Completing a layer does two things, and they can be told apart: a length
that is to be corrected is checked against its field, and the layer is
written down over its payload. What is written down does not depend on the
check (`CarrierDraft.complete_eq`). So there is a packet of every draft,
`Draft.packet`, whether or not anything is wrong with it, and building is
checking: `Draft.build_eq_ok` says that a draft is built if and only if
each of its layers passes both its checks, and that it is built to its
packet.

The check of a length comes after everything else has been checked, since
it needs the payload. What it finds is `Draft.lateViolations`, beside the
`Draft.violations` that are found up front.

The settings only fill in what a draft leaves open, so building under any
settings is building another draft (`Draft.build_resolve`), and what holds
of all drafts under the default settings holds under any.
-/

namespace PacketCodec

open Violation (ifMissing ifOver ifBad)

/-! ## Headers over payloads -/

theorem outcome_map_map {ε α β γ : Type} (x : Except ε α) (f : α → β) (g : β → γ) :
    (x.map f).map g = x.map fun a => g (f a) := by
  cases x <;> rfl

/-- The header over a payload of `length` octets, a corrected length being
cut to its field. -/
def Ipv6Draft.headerOver (d : Ipv6Draft) (length : Nat) : Ipv6Header where
  version := d.version
  trafficClass := d.trafficClass.getD 0
  flowLabel := d.flowLabel.getD 0
  payloadLen := if d.correctLength then UInt16.ofNat length else d.payloadLen.getD 0
  nextHeader := d.nextHeader.getD IpProtocol.noNext
  hopLimit := d.hopLimit.getD 0
  src := d.src.getD (Octets.zero 16)
  dst := d.dst.getD (Octets.zero 16)

theorem Ipv6Draft.header_eq (d : Ipv6Draft) (length : Nat) :
    d.header length
      = (BuildError.check Ipv6Header.protocol
          (if d.correctLength then ifOver "payload_len" length 65535 else [])).map
          fun _ => d.headerOver length := by
  rw [header, headerOver]
  cases d.correctLength with
  | false => rfl
  | true => exact bind_pure_comp (fun _ => _) _

/-- The header over a body, a checksum that cannot be computed counting as
zero. -/
def Icmpv6Draft.headerOver (d : Icmpv6Draft) (body : Bytes) : Icmpv6Header :=
  if d.correctChecksum then
    d.headerWith ((Icmpv6Header.checksum? (d.src.getD (Octets.zero 16))
      (d.dst.getD (Octets.zero 16)) [(d.headerWith 0).toBytes, body]).getD 0)
  else d.headerWith (d.checksum.getD 0)

theorem Icmpv6Draft.header_eq (d : Icmpv6Draft) (body : Bytes) :
    d.header body
      = (BuildError.check Icmpv6Header.protocol
          (if d.correctChecksum then
            ifOver "length" (Icmpv6Header.size + body.length) (2 ^ 32 - 1) else [])).map
          fun _ => d.headerOver body := by
  rw [header, headerOver]
  cases d.correctChecksum with
  | false => rfl
  | true => exact bind_pure_comp (fun _ => _) _

/-- The header over a payload of `length` octets before a checksum is
computed for it. -/
def UdpDraft.unsummed (d : UdpDraft) (length : Nat) : UdpHeader where
  srcPort := d.srcPort.getD 0
  dstPort := d.dstPort.getD 0
  lengthField :=
    if d.correctLength then UInt16.ofNat (UdpHeader.size + length) else d.lengthField.getD 0
  checksum := if d.correctChecksum then 0 else d.checksum.getD 0

/-- The header over a payload, a corrected length being cut to its
field. -/
def UdpDraft.headerOver (d : UdpDraft) (payload : Bytes) : UdpHeader :=
  if d.correctChecksum then
    (d.unsummed payload.length).corrected d.srcOrNone d.dstOrNone payload
  else d.unsummed payload.length

theorem UdpDraft.header_eq (d : UdpDraft) (payload : Bytes) :
    d.header payload
      = (BuildError.check UdpHeader.protocol
          (if d.correctLength then
            ifOver "length" (UdpHeader.size + payload.length) 65535 else [])).map
          fun _ => d.headerOver payload := by
  rw [header, headerOver, unsummed]
  cases d.correctLength <;> cases d.correctChecksum
  · rfl
  · rfl
  · exact bind_pure_comp (fun _ => _) _
  · exact bind_pure_comp (fun _ => _) _

/-- The header over a payload of `length` octets, a corrected length being
cut to its field. -/
def GtpDraft.headerOver (d : GtpDraft) (length : Nat) : GtpHeader :=
  d.headerWith
    (if d.correctLength then UInt16.ofNat (d.correctedLength length) else d.lengthField.getD 0)

theorem GtpDraft.header_eq (d : GtpDraft) (length : Nat) :
    d.header length
      = (BuildError.check GtpHeader.protocol
          (if d.correctLength then ifOver "length" (d.correctedLength length) 65535 else [])).map
          fun _ => d.headerOver length := by
  rw [header, headerOver]
  cases d.correctLength with
  | false => rfl
  | true => exact bind_pure_comp (fun _ => _) _

/-! ## Layers over payloads -/

namespace CarrierDraft

/-- **What the late check finds** in a layer over a payload of `length`
octets: that a length to be corrected does not fit into its field, or that
a message is too long for a checksum. -/
def lateViolations (length : Nat) : CarrierDraft → List Violation
  | ipv6 d => if d.correctLength then ifOver "payload_len" length 65535 else []
  | icmpv6 d =>
    if d.correctChecksum then ifOver "length" (Icmpv6Header.size + length) (2 ^ 32 - 1) else []
  | udp d => if d.correctLength then ifOver "length" (UdpHeader.size + length) 65535 else []
  | gtp d => if d.correctLength then ifOver "length" (d.correctedLength length) 65535 else []
  | _ => []

/-- **The layer of a draft over its payload**, whether or not anything is
wrong with it. -/
def onto (payload : Option Packet) : CarrierDraft → Carrier
  | ethernet d => completeFrame d payload
  | ipv6 d => .ipv6 (d.headerOver ((payload.map Packet.length).getD 0))
  | options kind d => .options kind d.header d.unparsed
  | routing d => .routing d.header
  | fragment d => .fragment d.header
  | icmpv6 d => .icmpv6 (d.headerOver (payloadBytes payload))
  | echo d => .echo d.header
  | udp d => .udp (d.headerOver (payloadBytes payload)) []
  | gtp d => .gtp (d.headerOver ((payload.map Packet.length).getD 0)) d.trailer

theorem format_onto (c : CarrierDraft) (payload : Option Packet) :
    (c.onto payload).format = c.format := by
  cases c <;> rfl

/-- **Completing a layer is checking it late**: the layer that comes out is
the same whatever the check says. -/
theorem complete_eq (c : CarrierDraft) (payload : Option Packet) :
    c.complete payload
      = (BuildError.check c.format.protocol
          (c.lateViolations ((payload.map Packet.length).getD 0))).map fun _ => c.onto payload := by
  cases c with
  | ipv6 d =>
    rw [complete, d.header_eq, outcome_map_map]
    rfl
  | icmpv6 d =>
    rw [complete, d.header_eq, Packet.length_payloadBytes, outcome_map_map]
    rfl
  | udp d =>
    rw [complete, d.header_eq, Packet.length_payloadBytes, outcome_map_map]
    rfl
  | gtp d =>
    rw [complete, d.header_eq, outcome_map_map]
    rfl
  | _ => rfl

theorem complete_eq_ok {c : CarrierDraft} {payload : Option Packet} {carrier : Carrier} :
    c.complete payload = .ok carrier
      ↔ c.lateViolations ((payload.map Packet.length).getD 0) = [] ∧ c.onto payload = carrier := by
  rw [complete_eq, map_eq_ok]
  simp only [BuildError.check_eq_ok, exists_and_left, exists_const]

end CarrierDraft

/-! ## Settings -/

/-- The draft with the algorithm that is in effect for it. -/
def SctpDraft.resolve (settings : Settings) (d : SctpDraft) : SctpDraft :=
  { d with algorithm := some (d.algorithmOrDefault settings) }

/-- The layer with what the settings are to say filled in. -/
def LeafDraft.resolve (settings : Settings) : LeafDraft → LeafDraft
  | sctp d => sctp (d.resolve settings)
  | l => l

/-- **The draft with what the settings are to say** filled in. -/
def Draft.resolve (settings : Settings) : Draft → Draft
  | leaf l => leaf (l.resolve settings)
  | bare c => bare c
  | carry c p => carry c (p.resolve settings)

theorem LeafDraft.violations_resolve (settings : Settings) (l : LeafDraft) :
    (l.resolve settings).violations = l.violations := by
  cases l <;> rfl

theorem LeafDraft.complete_resolve (settings other : Settings) (l : LeafDraft) :
    (l.resolve settings).complete other = l.complete settings := by
  cases l <;> rfl

/-- **The settings fill in what a draft leaves open**, and do nothing else:
a draft in which it is filled in is built alike under all of them. -/
theorem Draft.build_resolve (settings other : Settings) (d : Draft) :
    (d.resolve settings).build other = d.build settings := by
  induction d with
  | leaf l =>
    have hkind : (l.resolve settings).kind = l.kind := by cases l <;> rfl
    rw [resolve, build, build, hkind, l.violations_resolve, l.complete_resolve]
  | bare c => rfl
  | carry c p ih => rw [resolve, build, build, ih]

theorem Packet.resolve_toDraft (settings : Settings) (p : Packet) :
    p.toDraft.resolve settings = p.toDraft := by
  induction p with
  | leaf l => cases l <;> rfl
  | bare c => rfl
  | carry c p ih => rw [toDraft, Draft.resolve, ih]

/-- **The draft of a packet leaves nothing to the settings.** -/
theorem Packet.build_toDraft_settings (settings : Settings) (p : Packet) :
    p.toDraft.build settings = p.toDraft.build := by
  rw [← Draft.build_resolve settings {}, resolve_toDraft]

/-! ## Drafts -/

namespace Draft

/-- **The packet of a draft**, whether or not anything is wrong with
it. -/
def packet : Draft → Packet
  | leaf l => .leaf l.complete
  | bare c => .bare (c.onto none)
  | carry c p => .carry (c.onto (some p.packet)) p.packet

/-- **The layers of the draft**, outermost first: each as the draft that
starts with it. -/
def layers : Draft → List Draft
  | leaf l => [leaf l]
  | bare c => [bare c]
  | carry c p => carry c p :: p.layers

/-- What the outermost layer is called. -/
def name (d : Draft) : String := d.kind.name

/-- What is wrong with the outermost layer, its payload apart. -/
def violations : Draft → List Violation
  | leaf l => l.violations
  | bare c => c.violations
  | carry c _ => c.violations

/-- What the late check finds in the outermost layer. -/
def lateViolations : Draft → List Violation
  | leaf _ => []
  | bare c => c.lateViolations 0
  | carry c p => c.lateViolations p.packet.length

/-- A draft that neither check finds anything in, in any of its layers. -/
def Sound (d : Draft) : Prop := ∀ l ∈ d.layers, l.violations = [] ∧ l.lateViolations = []

theorem sound_leaf {l : LeafDraft} : (leaf l).Sound ↔ l.violations = [] :=
  List.forall_mem_singleton.trans (and_iff_left rfl)

theorem sound_bare {c : CarrierDraft} :
    (bare c).Sound ↔ c.violations = [] ∧ c.lateViolations 0 = [] :=
  List.forall_mem_singleton

theorem sound_carry {c : CarrierDraft} {p : Draft} :
    (carry c p).Sound
      ↔ (c.violations = [] ∧ c.lateViolations p.packet.length = []) ∧ p.Sound :=
  List.forall_mem_cons

/-- **Building is checking**: a draft is built if and only if neither check
finds anything in any of its layers, and what is built is its packet. -/
theorem build_eq_ok {d : Draft} {p : Packet} : d.build = .ok p ↔ d.Sound ∧ d.packet = p := by
  induction d generalizing p with
  | leaf l =>
    rw [build, sound_leaf]
    simp only [bind_eq_ok, return_eq_ok, BuildError.check_eq_ok, exists_const]
    exact Iff.rfl
  | bare c =>
    rw [build, sound_bare]
    simp only [bind_eq_ok, return_eq_ok, BuildError.check_eq_ok, exists_const,
      CarrierDraft.complete_eq_ok, and_assoc, exists_and_left, exists_eq_left']
    exact Iff.rfl
  | carry c d ih =>
    rw [build, sound_carry]
    simp only [bind_eq_ok, BuildError.check_eq_ok, exists_const]
    cases hd : d.build with
    | error e =>
      have hunsound : ¬d.Sound := fun hsound => by
        have hok := ih.mpr ⟨hsound, rfl⟩
        rw [hd] at hok
        cases hok
      exact iff_of_false (fun h => absurd h.2 throw_ne_ok) fun h => hunsound h.1.2
    | ok q =>
      obtain ⟨hsound, rfl⟩ := ih.mp hd
      simp only [bind_eq_ok, return_eq_ok, CarrierDraft.complete_eq_ok, and_assoc,
        exists_and_left, exists_eq_left']
      exact and_congr_right fun _ => and_congr_right fun _ => (and_iff_right hsound).symm

/-- **A layer is built over a built payload** if and only if neither check
finds anything in it. -/
theorem build_ofCarrier_onto {c : CarrierDraft} {payload : Option Draft} {below : Option Packet}
    (hbelow : payload.mapM build = .ok below) {p : Packet} :
    (ofCarrier c payload).build = .ok p
      ↔ (c.violations = [] ∧ c.lateViolations ((below.map Packet.length).getD 0) = [])
        ∧ .ofCarrier (c.onto below) below = p := by
  rw [build_ofCarrier_eq_ok, hbelow]
  simp only [CarrierDraft.complete_eq_ok, Except.ok.injEq, exists_and_left, exists_eq_left',
    and_assoc]

end Draft

end PacketCodec
