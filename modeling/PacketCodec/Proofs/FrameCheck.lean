import PacketCodec.Proofs.Acceptance
import PacketCodec.Proofs.Admissible
import PacketCodec.Proofs.Crc
import PacketCodec.Proofs.Frame
import PacketCodec.Proofs.Length

/-!
# Frame check sequences

A frame is checked over its header, the octets its payload is written as,
and its pad. Those are all of its octets but the last four
(`Packet.toBytes_of_checked_frame`), so the verdict is about the octets of
the frame and not about how they were decoded: it compares the CRC-32 of
what is in front of the last four octets with those four, and it can be
read off the CRC-32 of the whole frame, which is the residue exactly when
they agree.

As a frame keeps every octet of its window, the same is said of the window
that it was decoded from. A frame built with its check sequence computed
verifies, and so does what is decoded from it
(`Context.frameVerifies_decodeFcs`).
-/

namespace PacketCodec

open Checksum

/-- **The check sequence of a frame** is over header, payload and pad. -/
theorem EthernetHeader.fcsFor_eq (h : EthernetHeader) (payload : Option Packet) (pad : Bytes) :
    h.fcsFor payload pad = crc32 (h.toBytes ++ payloadBytes payload ++ pad) := by
  rw [fcsFor, crc32Segments_eq]
  simp only [List.flatten_cons, List.flatten_nil, List.append_nil, List.append_assoc]

namespace Packet

variable {p : Packet} {h : EthernetHeader} {pad : Bytes} {fcs : UInt32} {payload : Option Packet}

/-- The octets that the check sequence of a frame is over are in front of
it. -/
theorem toBytes_of_checked_frame (hp : p.carrier? = some (.ethernet h pad (some fcs), payload)) :
    p.toBytes = h.toBytes ++ payloadBytes payload ++ pad ++ Bytes.le32 fcs := by
  rw [toBytes_of_carrier? hp]
  simp only [Carrier.header, Carrier.unparsed, Carrier.trailer, Option.map_some, Option.getD_some,
    List.append_nil, List.append_assoc]

theorem frameVerifies?_of_carrier? (hp : p.carrier? = some (.ethernet h pad (some fcs), payload)) :
    p.frameVerifies?
      = some (decide (crc32 (h.toBytes ++ payloadBytes payload ++ pad) = fcs)) := by
  simp only [frameVerifies?, hp, h.fcsFor_eq]
  rw [Option.some.injEq, Bool.eq_iff_iff, beq_iff_eq, decide_eq_true_iff, Option.some.injEq]
  exact eq_comm

/-- **The verdict on a frame is about its octets**: the last four of them
against the CRC-32 of the others, or the CRC-32 of all of them against the
residue. -/
theorem frameVerifies?_eq_some_true_iff
    (hp : p.carrier? = some (.ethernet h pad (some fcs), payload)) :
    ∃ valid, p.frameVerifies? = some valid
      ∧ (valid = true ↔ (crc32 (p.toBytes.take (p.toBytes.length - 4))).toNat
          = Bytes.leNat (p.toBytes.drop (p.toBytes.length - 4)))
      ∧ (valid = true ↔ crc32 p.toBytes = residue ieeePolynomial) := by
  have hlength : p.toBytes.length - 4
      = (h.toBytes ++ payloadBytes payload ++ pad).length := by
    rw [toBytes_of_checked_frame hp, List.length_append, Bytes.length_le32, Nat.add_sub_cancel]
  refine ⟨_, frameVerifies?_of_carrier? hp, ?_, ?_⟩
  · rw [hlength, toBytes_of_checked_frame hp, List.take_left, List.drop_left, Bytes.leNat_le32,
      decide_eq_true_iff, UInt32.toNat_inj]
  · rw [toBytes_of_checked_frame hp, decide_eq_true_iff]
    exact (crc_append_eq_residue_iff (by decide) _ _).symm

end Packet

/-- What a frame with a check sequence is decoded to keeps the octets of
its window. -/
theorem Context.carrier_of_decodeFcs {ctx : Context} {buf : Bytes} {offset length : Nat}
    {p : Packet} (h : ctx.decodeFcs buf offset length = .ok p) :
    ∃ header pad fcs payload, p.carrier? = some (.ethernet header pad (some fcs), payload)
      ∧ p.toBytes = buf.clamp offset length := by
  rw [decodeFcs, bind_eq_ok] at h
  obtain ⟨w, hw, h⟩ := h
  obtain ⟨-, rfl⟩ := Window.cut_eq_ok.mp hw
  rw [decodeFcsWindow, map_eq_ok] at h
  obtain ⟨l, hl, rfl⟩ := h
  obtain ⟨header, body, fcs, rfl, hfcs, hwire⟩ := EthernetHeader.frame_of_readFrame hl
  obtain ⟨fcs, rfl⟩ := Option.isSome_iff_exists.mp hfcs
  obtain ⟨pad, payload, hcarrier, -⟩ := header.tiles_frame (some fcs) body.bytes
    (ctx.payloads (.etherType header.etherType) body)
  refine ⟨header, pad, fcs, payload, hcarrier, ?_⟩
  rw [Peeled.assemble, EthernetHeader.toBytes_frame]
  exact hwire

/-- A whole buffer with room for a header and a check sequence is decoded
as a frame. -/
theorem Context.exists_decodeFcs (ctx : Context) {buf : Bytes} (h : 18 ≤ buf.length) :
    ∃ p, ctx.decodeFcs buf 0 buf.length = .ok p := by
  refine exists_of_isOk ?_
  rw [decodeFcs, Window.cut_alone]
  show (ctx.decodeFcsWindow ⟨0, buf⟩).isOk = true
  rw [decodeFcsWindow, isOk_map, EthernetHeader.isOk_readFrame]
  exact h

theorem CarrierDraft.completeFrame_of_checked {d : EthernetDraft} (checked : d.checked = true)
    (payload : Option Packet) :
    ∃ pad, completeFrame d payload
      = .ethernet d.header pad (some (d.header.fcsFor payload pad)) := by
  simp only [completeFrame, checked, if_true]
  exact ⟨_, rfl⟩

/-- **A frame built with its check sequence computed** has the right one. -/
theorem Draft.frameVerifies?_build {d : EthernetDraft} (checked : d.checked = true)
    {payload : Option Draft} {p : Packet} (h : (ofCarrier (.ethernet d) payload).build = .ok p) :
    p.frameVerifies? = some true
      ∧ ∃ header pad fcs below, p.carrier? = some (.ethernet header pad (some fcs), below) := by
  obtain ⟨-, below, carrier, -, hcarrier, rfl⟩ := build_ofCarrier_eq_ok.mp h
  cases hcarrier
  obtain ⟨pad, hframe⟩ := CarrierDraft.completeFrame_of_checked checked below
  have hcarrier := Packet.carrier?_ofCarrier (CarrierDraft.completeFrame d below) below
  rw [hframe] at hcarrier ⊢
  refine ⟨?_, _, _, _, _, hcarrier⟩
  rw [Packet.frameVerifies?_of_carrier? hcarrier, ← EthernetHeader.fcsFor_eq]
  exact congrArg some (decide_eq_true rfl)

/-- **The verdict on a frame check sequence.** With any decoders and
settings, a frame verifies if and only if the last four octets of the
window it was decoded from, least significant first, are the CRC-32 of the
octets in front of them, and if and only if the CRC-32 of the octets it is
written as is the residue `0x2144df1c`. Every frame that is built with its
check sequence computed, over whatever payload and pad, verifies, is
accepted as a frame with a check sequence, and verifies again when it is
decoded. -/
theorem Context.frameVerifies_decodeFcs (ctx : Context) :
    (∀ buf offset length p, ctx.decodeFcs buf offset length = .ok p →
        let window := buf.clamp offset length
        ∃ valid, p.frameVerifies? = some valid
          ∧ (valid = true ↔ (crc32 (window.take (window.length - 4))).toNat
              = Bytes.leNat (window.drop (window.length - 4)))
          ∧ (valid = true ↔ crc32 p.toBytes = 0x2144df1c))
      ∧ ∀ (d : EthernetDraft) payload p, d.checked = true →
        (Draft.ofCarrier (.ethernet d) payload).build = .ok p →
          p.frameVerifies? = some true
            ∧ ∃ q, ctx.decodeFcs p.toBytes 0 p.toBytes.length = .ok q
              ∧ q.frameVerifies? = some true := by
  constructor
  · intro buf offset length p h window
    obtain ⟨header, pad, fcs, payload, hp, hbytes⟩ := carrier_of_decodeFcs h
    rw [show window = p.toBytes from hbytes.symm, ← residue_ieee]
    exact Packet.frameVerifies?_eq_some_true_iff hp
  · intro d payload p checked h
    obtain ⟨hvalid, header, pad, fcs, below, hp⟩ := Draft.frameVerifies?_build checked h
    obtain ⟨_, hp', -, hresidue⟩ := Packet.frameVerifies?_eq_some_true_iff hp
    cases hvalid.symm.trans hp'
    have hlength : 18 ≤ p.toBytes.length := by
      rw [Packet.toBytes_of_checked_frame hp, List.length_append, Bytes.length_le32,
        List.length_append, List.length_append, header.length_toBytes, EthernetHeader.size]
      omega
    obtain ⟨q, hq⟩ := ctx.exists_decodeFcs hlength
    refine ⟨hvalid, q, hq, ?_⟩
    obtain ⟨_, _, _, _, hcarrier, hbytes⟩ := carrier_of_decodeFcs hq
    obtain ⟨valid, hverdict, -, hiff⟩ := Packet.frameVerifies?_eq_some_true_iff hcarrier
    rw [hverdict, Option.some.injEq, hiff, hbytes, Bytes.clamp, List.drop_zero, List.take_length]
    exact hresidue.mp rfl

/-- **A frame over three octets and a pad**: it verifies, so does what is
decoded from it, and what is decoded with an octet of its pad changed does
not. -/
theorem Context.frameVerifies_altered :
    let d : EthernetDraft :=
      { dst := some ⟨[2, 0, 0, 0, 0, 1], rfl⟩, src := some ⟨[2, 0, 0, 0, 0, 2], rfl⟩,
        etherType := some 0x88b5, pad := [0, 0], checked := true }
    ∃ p, (Draft.ofCarrier (.ethernet d) (some (.unknown [1, 2, 3]))).build = .ok p
      ∧ p.frameVerifies? = some true
      ∧ (∃ q, decodeFcs {} p.toBytes 0 p.toBytes.length = .ok q ∧ q.frameVerifies? = some true)
      ∧ ∃ q, decodeFcs {} (p.toBytes.set 18 7) 0 23 = .ok q ∧ q.frameVerifies? = some false := by
  intro d
  obtain ⟨p, hp⟩ : ∃ p, (Draft.ofCarrier (.ethernet d) (some (.unknown [1, 2, 3]))).build = .ok p :=
    ⟨_, rfl⟩
  have haltered : (decodeFcs {} (p.toBytes.set 18 7) 0 23).isOk = true
      ∧ crc32 (Bytes.clamp (p.toBytes.set 18 7) 0 23) ≠ 0x2144df1c := by
    cases hp
    decide +kernel
  obtain ⟨hvalid, hdecoded⟩ := (frameVerifies_decodeFcs {}).2 d _ p rfl hp
  obtain ⟨q, hq⟩ := exists_of_isOk haltered.1
  obtain ⟨valid, hverdict, -, hresidue⟩ := (frameVerifies_decodeFcs {}).1 _ _ _ q hq
  obtain ⟨-, -, -, -, -, hbytes⟩ := carrier_of_decodeFcs hq
  refine ⟨p, hp, hvalid, hdecoded, q, hq, ?_⟩
  rw [hverdict, Option.some.injEq, ← Bool.not_eq_true, hresidue, hbytes]
  exact haltered.2

end PacketCodec
