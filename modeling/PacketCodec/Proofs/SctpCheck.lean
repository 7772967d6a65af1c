import PacketCodec.Proofs.Acceptance
import PacketCodec.Proofs.Adler
import PacketCodec.Proofs.Admissible
import PacketCodec.Proofs.Layer
import PacketCodec.Proofs.Length

/-!
# SCTP checksums on the wire

The checksum of an SCTP packet is in the four octets from the eighth on,
in an order that depends on the algorithm (`SctpChecksum.stored`), and is
over the packet with those octets cleared. Neither builder nor verifier
looks at them in that order: both compare a word with the field read in
network order. That this comes to the same is `SctpChecksum.be32_fieldFor`.

Which octets are covered does not depend on what the checksum is
(`SctpHeader.cleared_toBytes_eq`), so that what a builder computes over a zero
is what a verifier computes over the result. And as any list of chunks is
written as the octets that it was read from, the verdict on a decoded
packet is about its window (`Context.sctpVerifies_decode`).
-/

namespace PacketCodec

open Checksum

/-! ## The field -/

/-- **What is stored as the checksum of the covered octets**: CRC-32C
least significant octet first; of Adler-32, whose two sums are reduced
behind every octet, the second sum and then the first, both most
significant octet first. -/
def SctpChecksum.stored : SctpChecksum → Bytes → Bytes
  | crc32c, covered => Bytes.le32 (Checksum.crc32c covered)
  | adler32, covered =>
    let s := covered.foldl adlerNext (1, 0)
    Bytes.be 4 (s.2 * 65536 + s.1)

theorem SctpChecksum.be32_fieldFor (algorithm : SctpChecksum) (packet : Bytes) :
    Bytes.be32 (algorithm.fieldFor packet) = algorithm.stored (cleared packet) := by
  cases algorithm with
  | crc32c => exact Bytes.be32_ofNat_beNat (Bytes.length_le32 _)
  | adler32 => exact congrArg (Bytes.be 4) (toNat_adler32 _)

theorem SctpChecksum.verifies_iff (algorithm : SctpChecksum) (field : UInt32) (packet : Bytes) :
    algorithm.verifies field false packet = true
      ↔ Bytes.be32 field = algorithm.stored (cleared packet) := by
  rw [verifies, if_neg (fun h => Bool.false_ne_true h.2), beq_iff_eq, ← be32_fieldFor,
    Bytes.be32_injective.eq_iff]
  exact eq_comm

namespace SctpHeader

/-- The octets in front of the checksum. -/
def front (h : SctpHeader) : Bytes :=
  Bytes.be16 h.srcPort ++ Bytes.be16 h.dstPort ++ Bytes.be32 h.verificationTag

theorem length_front (h : SctpHeader) : h.front.length = 8 := by
  simp only [front, List.length_append, Bytes.length_be16, Bytes.length_be32]

theorem toBytes_append (h : SctpHeader) (trailer : Bytes) :
    h.toBytes ++ trailer
      = h.front ++ (Bytes.be32 h.checksum ++ (h.chunks.flatMap SctpChunk.toBytes ++ trailer)) := by
  simp only [toBytes, front, List.append_assoc]

theorem take_drop_toBytes (h : SctpHeader) (trailer : Bytes) :
    ((h.toBytes ++ trailer).drop 8).take 4 = Bytes.be32 h.checksum := by
  rw [toBytes_append, List.drop_left' h.length_front]
  exact List.take_left' (Bytes.length_be32 _)

theorem size_le_length (h : SctpHeader) (trailer : Bytes) :
    size ≤ (h.toBytes ++ trailer).length := by
  rw [List.length_append, h.length_toBytes, length, Nat.add_assoc]
  exact Nat.le_add_right _ _

/-- The checksum counts as zeros in what it covers. -/
theorem cleared_toBytes (h : SctpHeader) (trailer : Bytes) :
    SctpChecksum.cleared (h.toBytes ++ trailer)
      = (h.toBytes ++ trailer).take 8 ++ Bytes.zeros 4 ++ (h.toBytes ++ trailer).drop 12 :=
  if_pos (h.size_le_length trailer)

/-- **What the checksum covers** does not depend on the checksum. -/
theorem cleared_toBytes_eq (h : SctpHeader) (trailer : Bytes) :
    SctpChecksum.cleared (h.toBytes ++ trailer)
      = h.front ++ Bytes.zeros 4 ++ (h.chunks.flatMap SctpChunk.toBytes ++ trailer) := by
  have hfront : (h.front ++ Bytes.be32 h.checksum).length = 12 := by
    rw [List.length_append, h.length_front, Bytes.length_be32]
  rw [cleared_toBytes, toBytes_append, List.take_left' h.length_front, ← List.append_assoc h.front,
    List.drop_left' hfront]

end SctpHeader

/-- **The verdict on an SCTP packet is about its octets.** -/
theorem Packet.sctpVerifies?_eq_some_true_iff {h : SctpHeader} {trailer packet : Bytes}
    (hpacket : h.toBytes ++ trailer = packet) (own : SctpChecksum)
    (algorithm : Option SctpChecksum) :
    ∃ valid, (leaf (.sctp h trailer own)).sctpVerifies? algorithm false = some valid
      ∧ (valid = true ↔ (packet.drop 8).take 4
          = (algorithm.getD own).stored (packet.take 8 ++ Bytes.zeros 4 ++ packet.drop 12)) := by
  refine ⟨_, rfl, ?_⟩
  rw [SctpChecksum.verifies_iff, ← hpacket, h.take_drop_toBytes, ← h.cleared_toBytes]
  exact Iff.rfl

/-! ## Drafts -/

/-- **A corrected checksum** is that of the packet it is put into. -/
theorem SctpDraft.verifies_header {d : SctpDraft} (correct : d.correctChecksum = true)
    (settings : Settings) :
    (d.algorithmOrDefault settings).verifies (d.header settings).checksum false
      (d.header settings).toBytes = true := by
  have hcleared : ∀ v, SctpChecksum.cleared (d.headerWith v).toBytes
      = SctpChecksum.cleared (d.headerWith 0).toBytes := fun v => by
    rw [← List.append_nil (d.headerWith v).toBytes, ← List.append_nil (d.headerWith 0).toBytes,
      SctpHeader.cleared_toBytes_eq, SctpHeader.cleared_toBytes_eq]
    rfl
  rw [SctpChecksum.verifies_iff, header, if_pos correct, hcleared, ← SctpChecksum.be32_fieldFor]
  rfl

theorem Draft.build_sctp_eq_ok {d : SctpDraft} {settings : Settings} {p : Packet} :
    (leaf (.sctp d)).build settings = .ok p
      ↔ d.violations = []
        ∧ .leaf (.sctp (d.header settings) [] (d.algorithmOrDefault settings)) = p := by
  rw [build]
  simp only [bind_eq_ok, return_eq_ok, BuildError.check_eq_ok, exists_const]
  exact Iff.rfl

/-! ## Decoding -/

theorem Context.decode_sctp_eq_ok_iff {ctx : Context} {buf : Bytes} {offset length : Nat}
    {p : Packet} :
    ctx.decode .sctp buf offset length = .ok p
      ↔ offset + length ≤ buf.length ∧ ∃ header trailer,
        SctpHeader.read ⟨offset, buf.clamp offset length⟩ = .ok (header, trailer)
          ∧ p = .leaf (.sctp header trailer ctx.settings.sctpChecksum) := by
  simp only [decode, decodeWindow, peel, bind_eq_ok, map_eq_ok, return_eq_ok, Window.cut_eq_ok,
    Prod.exists]
  constructor
  · rintro ⟨_, ⟨hle, rfl⟩, _, ⟨header, trailer, hread, rfl⟩, rfl⟩
    exact ⟨hle, header, trailer, hread, rfl⟩
  · rintro ⟨hle, header, trailer, hread, rfl⟩
    exact ⟨_, ⟨hle, rfl⟩, _, ⟨header, trailer, hread, rfl⟩, rfl⟩

/-- What an SCTP packet is decoded to keeps the octets of its window. -/
theorem Context.sctp_of_decode {ctx : Context} {buf : Bytes} {offset length : Nat} {p : Packet}
    (h : ctx.decode .sctp buf offset length = .ok p) :
    ∃ header trailer, p = .leaf (.sctp header trailer ctx.settings.sctpChecksum)
      ∧ header.toBytes ++ trailer = buf.clamp offset length := by
  obtain ⟨-, header, trailer, hread, rfl⟩ := decode_sctp_eq_ok_iff.mp h
  exact ⟨header, trailer, rfl, SctpHeader.bytes_of_read hread⟩

/-- A window with room for the fixed fields is decoded, whatever they and
the octets behind them are. -/
theorem Context.exists_decode_sctp (ctx : Context) {buf : Bytes} {offset length : Nat}
    (hle : offset + length ≤ buf.length) (h : 12 ≤ length) :
    ∃ p, ctx.decode .sctp buf offset length = .ok p := by
  refine exists_of_isOk ?_
  rw [decode, Window.isOk_cut_bind]
  refine ⟨hle, ?_⟩
  rw [decodeWindow, isOk_map, isOk_peel]
  exact h.trans (Window.length_clamp hle).ge

/-- **SCTP checksums agree on the wire.** A packet decoded from whatever
window is accepted verifies with an algorithm if and only if the octets 8
to 12 of the window are the checksum of the window with those octets
cleared, stored as the algorithm has it. A packet built with its checksum
corrected verifies, is accepted, and verifies again when it is decoded
under settings with the same algorithm: the one that the draft names, or
else the one of the settings that it is built under. -/
theorem Context.sctpVerifies_decode (ctx : Context) :
    (∀ buf offset length p, ctx.decode .sctp buf offset length = .ok p →
        let window := buf.clamp offset length
        ∀ algorithm, ∃ valid, p.sctpVerifies? (some algorithm) false = some valid
          ∧ (valid = true ↔ (window.drop 8).take 4
              = algorithm.stored (window.take 8 ++ Bytes.zeros 4 ++ window.drop 12)))
      ∧ ∀ (d : SctpDraft) (settings : Settings) p, d.correctChecksum = true →
        (Draft.leaf (.sctp d)).build settings = .ok p →
        p.sctpVerifies? none false = some true
          ∧ (ctx.settings.sctpChecksum = d.algorithm.getD settings.sctpChecksum →
            ∃ q, ctx.decode .sctp p.toBytes 0 p.toBytes.length = .ok q
              ∧ q.sctpVerifies? none false = some true) := by
  constructor
  · intro buf offset length p h window algorithm
    obtain ⟨header, trailer, rfl, hbytes⟩ := sctp_of_decode h
    exact Packet.sctpVerifies?_eq_some_true_iff hbytes _ (some algorithm)
  · intro d settings p correct h
    obtain ⟨-, rfl⟩ := Draft.build_sctp_eq_ok.mp h
    have hheader := SctpDraft.verifies_header correct settings
    generalize d.header settings = built at hheader ⊢
    have hvalid : (Packet.leaf (.sctp built [] (d.algorithmOrDefault settings))).sctpVerifies?
        none false = some true := by
      rw [← List.append_nil built.toBytes] at hheader
      exact congrArg some hheader
    refine ⟨hvalid, fun hsame => ?_⟩
    obtain ⟨q, hq⟩ := ctx.exists_decode_sctp (Nat.zero_add _).le (built.size_le_length [])
    refine ⟨q, hq, ?_⟩
    obtain ⟨header, trailer, rfl, hbytes⟩ := sctp_of_decode hq
    rw [Bytes.clamp, List.drop_zero, List.take_length] at hbytes
    -- Both verdicts are about the same octets.
    obtain ⟨verdict, hverdict, hiff⟩ :=
      Packet.sctpVerifies?_eq_some_true_iff rfl (d.algorithmOrDefault settings) none
    obtain ⟨valid, hdecoded, hiff'⟩ :=
      Packet.sctpVerifies?_eq_some_true_iff hbytes ctx.settings.sctpChecksum none
    cases hvalid.symm.trans hverdict
    rw [hdecoded, Option.some.injEq, hiff', hsame]
    exact hiff.mp rfl

/-- **A packet checked with Adler-32**, since its draft names no algorithm
and the settings do: built with a padded chunk, it verifies, and so does
what is decoded from it, but not as one checked with CRC-32C. -/
theorem Context.sctpVerifies_decode_adler32 :
    let d : SctpDraft :=
      { srcPort := some 2905, dstPort := some 2905, verificationTag := some 1,
        chunks := [.ofValue 0 3 [1, 2, 3]], correctChecksum := true }
    let settings : Settings := { sctpChecksum := .adler32 }
    let ctx : Context := { settings }
    ∃ p, (Draft.leaf (.sctp d)).build settings = .ok p
      ∧ p.sctpVerifies? none false = some true
      ∧ ∃ q, ctx.decode .sctp p.toBytes 0 p.toBytes.length = .ok q
        ∧ q.sctpVerifies? none false = some true
        ∧ q.sctpVerifies? (some .crc32c) false = some false := by
  intro d settings ctx
  obtain ⟨p, hp⟩ : ∃ p, (Draft.leaf (.sctp d)).build settings = .ok p := ⟨_, rfl⟩
  obtain ⟨hvalid, hdecoded⟩ := (sctpVerifies_decode ctx).2 d settings p rfl hp
  obtain ⟨q, hq, hverifies⟩ := hdecoded rfl
  refine ⟨p, hp, hvalid, q, hq, hverifies, ?_⟩
  obtain ⟨valid, hverdict, hiff⟩ := (sctpVerifies_decode ctx).1 _ _ _ q hq .crc32c
  rw [hverdict, Option.some.injEq, ← Bool.not_eq_true, hiff]
  cases hp
  decide +kernel

end PacketCodec
