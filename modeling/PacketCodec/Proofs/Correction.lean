import PacketCodec.Proofs.Admissible
import PacketCodec.Proofs.InternetSum
import PacketCodec.Proofs.Length
import PacketCodec.Proofs.Verdict

/-!
# Corrected checksums

A datagram built with its checksum corrected carries the checksum that is
computed over the header with a zero in its place. With that value stored
the sum comes to all ones, whichever of the two forms of zero it is stored
in, and the datagram verifies.

This is so as long as there is a pseudo-header to compute it under. Of a
datagram too long for the length field of its address family there is
none: it is built all the same, and does not verify
(`Draft.datagramVerifies_build_corrected`). A length that is corrected
never gets that far, for it has to fit into the sixteen bits of the
header.
-/

namespace PacketCodec

open Checksum

/-! ## Headers -/

namespace UdpHeader

theorem wordSum_toBytes (h : UdpHeader) (payload : Bytes) :
    wordSum (h.toBytes ++ payload)
      = h.srcPort.toNat + h.dstPort.toNat + h.lengthField.toNat + wordSum payload
        + h.checksum.toNat := by
  simp only [toBytes, List.append_assoc, wordSum_be16]
  omega

/-- The header with the checksum over its payload put into it. A sum that
cannot be computed counts as zero, and zero is stored in its other form. -/
def corrected (h : UdpHeader) (src dst : IpAddr) (payload : Bytes) : UdpHeader :=
  let sum := (checksum? src dst (size + payload.length) [h.toBytes, payload]).getD 0
  { h with checksum := if sum = 0 then 0xffff else sum }

theorem checksum_corrected_ne_zero (h : UdpHeader) (src dst : IpAddr) (payload : Bytes) :
    (h.corrected src dst payload).checksum ≠ 0 := by
  show (if _ = 0 then 0xffff else _) ≠ (0 : UInt16)
  split
  · decide
  · assumption

/-- The checksum that is put in is the only word that changes. -/
theorem wordSum_corrected {h : UdpHeader} (unset : h.checksum = 0) (src dst : IpAddr)
    (payload : Bytes) :
    wordSum ((h.corrected src dst payload).toBytes ++ payload)
      = wordSum [h.toBytes, payload].flatten + (h.corrected src dst payload).checksum.toNat := by
  rw [List.flatten_cons, List.flatten_cons, List.flatten_nil, List.append_nil, wordSum_toBytes,
    wordSum_toBytes, unset]
  rfl

/-- **A header with its checksum put in verifies** when there is a
pseudo-header for the datagram. -/
theorem verifies_corrected_iff {h : UdpHeader} (unset : h.checksum = 0) (src dst : IpAddr)
    (payload : Bytes) :
    (h.corrected src dst payload).verifies src dst false
        ((h.corrected src dst payload).toBytes ++ payload) = true
      ↔ (PseudoHeader.make? src dst IpProtocol.udp (size + payload.length)).isSome := by
  have hstored := wordSum_corrected unset src dst payload
  rw [verifies_iff (h.checksum_corrected_ne_zero src dst payload), List.length_append,
    length_toBytes, Option.isSome_iff_exists]
  refine exists_congr fun ph => and_iff_left_of_imp fun hph => ?_
  have hchecksum : (h.corrected src dst payload).checksum
      = if ph.checksum [h.toBytes, payload] = 0 then 0xffff
        else ph.checksum [h.toBytes, payload] := by
    rw [corrected, checksum?, hph]
    rfl
  rw [hchecksum] at hstored
  split at hstored
  · exact PseudoHeader.checksum_eq_zero_of_ones ‹_› hstored
  · exact PseudoHeader.checksum_eq_zero_of_stored hstored

end UdpHeader

/-! ## Drafts -/

namespace UdpDraft

/-- To have its checksum corrected, a datagram needs two addresses of one
family. -/
theorem addresses_of_violations {d : UdpDraft} (correct : d.correctChecksum = true)
    (hd : d.violations = []) :
    ∃ src dst, d.src = some src ∧ d.dst = some dst ∧ src.isV4 = dst.isV4 := by
  simp only [violations, correct, if_true, List.append_eq_nil_iff, Violation.ifMissing_eq_nil,
    Violation.ifBad_eq_nil, bne_eq_false_iff_eq] at hd
  obtain ⟨-, ⟨⟨src, hsrc⟩, dst, hdst⟩, hfamily⟩ := hd
  rw [srcOrNone, dstOrNone, hsrc, hdst] at hfamily
  exact ⟨src, dst, hsrc, hdst, hfamily⟩

/-- A corrected checksum is put into the header last, and a corrected
length only when it fits. -/
theorem header_corrected {d : UdpDraft} (correct : d.correctChecksum = true) {payload : Bytes}
    {h : UdpHeader} (hh : d.header payload = .ok h) :
    (∃ unset : UdpHeader, unset.checksum = 0
        ∧ h = unset.corrected d.srcOrNone d.dstOrNone payload)
      ∧ (d.correctLength = true → UdpHeader.size + payload.length < UInt16.size) := by
  simp only [header, correct, if_true] at hh
  split at hh
  · rw [bind_eq_ok] at hh
    obtain ⟨_, hlength, hh⟩ := hh
    rw [BuildError.check_eq_ok, Violation.ifOver_eq_nil] at hlength
    rw [return_eq_ok] at hh
    exact ⟨⟨⟨_, _, _, 0⟩, rfl, hh.symm⟩, fun _ => Nat.lt_of_le_pred (by decide) hlength⟩
  · rw [return_eq_ok] at hh
    exact ⟨⟨⟨_, _, _, 0⟩, rfl, hh.symm⟩, fun h => absurd h ‹_›⟩

end UdpDraft

namespace Packet

theorem length_ofCarrier_udp (h : UdpHeader) (p : Option Packet) :
    (ofCarrier (.udp h []) p).length = UdpHeader.size + (payloadBytes p).length := by
  rw [← length_toBytes, toBytes_ofCarrier, List.length_append, List.length_append,
    List.length_append, Carrier.header, h.length_toBytes]
  rfl

theorem datagramVerifies?_ofCarrier (h : UdpHeader) (p : Option Packet) (src dst : IpAddr)
    (acceptZero : Bool) :
    (ofCarrier (.udp h []) p).datagramVerifies? src dst acceptZero
      = some (h.verifies src dst acceptZero (h.toBytes ++ payloadBytes p)) := by
  have hbytes : (ofCarrier (.udp h []) p).toBytes = h.toBytes ++ payloadBytes p :=
    toBytes_ofCarrier_of_trailer rfl rfl p
  simp only [datagramVerifies?, carrier?_ofCarrier, List.length_nil, Nat.sub_zero,
    List.take_length, hbytes]

end Packet

/-- **A datagram built with its checksum corrected** has a checksum, and
between the addresses it was built for it verifies if and only if it is not
too long for the length field of their family. A corrected length makes
sure of that. -/
theorem Draft.datagramVerifies_build_corrected {d : UdpDraft} (correct : d.correctChecksum = true)
    {payload : Option Draft} {p : Packet} (h : (ofCarrier (.udp d) payload).build = .ok p) :
    ∃ src dst header below, d.src = some src ∧ d.dst = some dst
      ∧ payload.mapM build = .ok below
      ∧ p.carrier? = some (.udp header [], below)
      ∧ header.checksum ≠ 0
      ∧ p.datagramVerifies? src dst false
          = some (decide (p.length < if src.isV4 then UInt16.size else UInt32.size))
      ∧ (d.correctLength = true → p.datagramVerifies? src dst false = some true) := by
  obtain ⟨hd, below, carrier, hbelow, hcarrier, rfl⟩ := build_ofCarrier_eq_ok.mp h
  obtain ⟨src, dst, hsrc, hdst, hfamily⟩ := UdpDraft.addresses_of_violations correct hd
  rw [CarrierDraft.complete, map_eq_ok] at hcarrier
  obtain ⟨header, hheader, rfl⟩ := hcarrier
  obtain ⟨⟨unset, hunset, rfl⟩, hshort⟩ := UdpDraft.header_corrected correct hheader
  rw [UdpDraft.srcOrNone, UdpDraft.dstOrNone, hsrc, hdst, Option.getD_some, Option.getD_some]
  have hiff := UdpHeader.verifies_corrected_iff hunset src dst (payloadBytes below)
  rw [PseudoHeader.isSome_make?_iff, and_iff_right hfamily] at hiff
  refine ⟨src, dst, _, below, rfl, rfl, hbelow, Packet.carrier?_ofCarrier _ _,
    unset.checksum_corrected_ne_zero src dst _, ?_, fun hcorrect => ?_⟩
  · rw [Packet.datagramVerifies?_ofCarrier, Packet.length_ofCarrier_udp, Option.some.injEq,
      Bool.eq_iff_iff, decide_eq_true_iff]
    exact hiff
  · have hsize := hshort hcorrect
    rw [Packet.datagramVerifies?_ofCarrier, Option.some.injEq, hiff]
    split
    · exact hsize
    · exact hsize.trans (by decide)

/-- **A datagram of 65536 octets over IPv4** is built, its length being set
to something else, and does not verify. With an octet less it does. -/
theorem Draft.datagramVerifies_build_too_long :
    let src : IpAddr := .v4 ⟨[192, 0, 2, 1], rfl⟩
    let dst : IpAddr := .v4 ⟨[192, 0, 2, 2], rfl⟩
    let d : UdpDraft :=
      { srcPort := some 5000, dstPort := some 5001, lengthField := some 8, src := some src,
        dst := some dst, correctChecksum := true }
    let verdict : Nat → Bool → Prop := fun n valid =>
      ∃ p, (ofCarrier (.udp d) (some (unknown (Bytes.zeros n)))).build = .ok p
        ∧ p.length = 8 + n ∧ p.datagramVerifies? src dst false = some valid
    verdict 65527 true ∧ verdict 65528 false := by
  intro src dst d verdict
  have hverdict : ∀ n, verdict n (decide (8 + n < UInt16.size)) := fun n => by
    obtain ⟨header, hheader⟩ : ∃ h, d.header (Bytes.zeros n) = .ok h := ⟨_, rfl⟩
    have hcomplete : CarrierDraft.complete (some (.unknown (Bytes.zeros n))) (.udp d)
        = .ok (.udp header []) :=
      congrArg (Except.map fun h => Carrier.udp h []) hheader
    have hbuild : (ofCarrier (.udp d) (some (unknown (Bytes.zeros n)))).build
        = .ok (.ofCarrier (.udp header []) (some (.unknown (Bytes.zeros n)))) :=
      build_ofCarrier_eq_ok.mpr ⟨rfl, _, _, rfl, hcomplete, rfl⟩
    have hlength : (Packet.ofCarrier (.udp header []) (some (.unknown (Bytes.zeros n)))).length
        = 8 + n := by
      rw [Packet.length_ofCarrier_udp]
      exact congrArg (8 + ·) List.length_replicate
    obtain ⟨_, _, _, _, hsrc, hdst, -, -, -, hvalid, -⟩ :=
      datagramVerifies_build_corrected rfl hbuild
    cases hsrc
    cases hdst
    refine ⟨_, hbuild, hlength, ?_⟩
    rw [hvalid, hlength]
    rfl
  exact ⟨hverdict 65527, hverdict 65528⟩

end PacketCodec
