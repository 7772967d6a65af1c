import PacketCodec.Proofs.Extent
import PacketCodec.Proofs.Reencode

/-!
# What the verdict on a checksum is about

The checksum of a datagram is checked over the octets that its layers are
written as, not over those that were captured. The two are the same unless
an IPv6 packet tunnelled in the datagram leaves octets of its window
behind: then the verdict is about a shorter datagram, and a checksum that
was right on the wire may be found wrong
(`Context.datagramVerifies_decode_iff`).

What is behind the datagram itself is no part of either. It is the
trailer, which a datagram keeps.
-/

namespace PacketCodec

/-- The octets of a packet without those behind the payload of its
outermost layer. -/
def Packet.withoutTrailer (p : Packet) : Bytes :=
  p.toBytes.take (p.toBytes.length - p.trailer.length)

theorem Packet.withoutTrailer_ofCarrier (c : Carrier) (p : Option Packet) :
    (ofCarrier c p).withoutTrailer = c.header ++ c.unparsed ++ payloadBytes p := by
  have htrailer : (ofCarrier c p).trailer = c.trailer := by cases p <;> rfl
  rw [withoutTrailer, htrailer, toBytes_ofCarrier, ← List.append_assoc, List.length_append,
    Nat.add_sub_cancel, List.take_left]

namespace UdpHeader

/-- A checksum other than zero is right when there is a pseudo-header and
the checksum under it comes out as zero. -/
theorem verifies_iff {h : UdpHeader} (checksum : h.checksum ≠ 0) (src dst : IpAddr)
    (acceptZero : Bool) (datagram : Bytes) :
    h.verifies src dst acceptZero datagram = true
      ↔ ∃ ph, PseudoHeader.make? src dst IpProtocol.udp datagram.length = some ph
          ∧ ph.checksum [datagram] = 0 := by
  rw [verifies, if_neg checksum, beq_iff_eq, checksum?, Option.map_eq_some_iff]

end UdpHeader

/-- **A datagram is kept without its trailer** as the front of its window,
as far as its length goes, exactly when the layers below use up their
windows. -/
theorem Context.withoutTrailer_decodeWindow_eq_iff {ctx : Context}
    (lossless : ctx.decoders.Lossless) {w : Window} {p : Packet}
    (h : ctx.decodeWindow .udp w = .ok p) :
    ∃ header trailer payload, p.carrier? = some (.udp header trailer, payload)
      ∧ header.extent w.length ≤ w.length
      ∧ (p.withoutTrailer = w.bytes.take (header.extent w.length)
          ↔ ∀ o ∈ ctx.originsBelow .udp w, o.Fills) := by
  rw [decodeWindow, map_eq_ok] at h
  obtain ⟨l, hl, rfl⟩ := h
  rw [originsBelow_of_peel hl]
  simp only [peel, UdpHeader.read, bind_eq_ok, return_eq_ok, Window.read_eq_ok, Prod.exists,
    Prod.mk.injEq] at hl
  obtain ⟨header, trailer, inner, ⟨h, rest, hread, rfl, rfl, rfl⟩, rfl⟩ := hl
  have hbytes := UdpHeader.read?_exact hread
  have hlength : w.length = UdpHeader.size + rest.length := by
    rw [Window.length, hbytes, List.length_append, h.length_toBytes]
  obtain ⟨hsize, hle⟩ := h.extent_mem (show UdpHeader.size ≤ w.length by omega)
  have haccounts := payload_accounts ctx lossless ctx.settings.maxDepth
    (.udpPort (h.selectingPort ctx.decoders.udpPorts.contains))
    ⟨w.offset + UdpHeader.size, rest.take (h.extent w.length - UdpHeader.size)⟩ trivial
  -- The datagram is the header and what is handed to the payload.
  have hdatagram : w.bytes.take (h.extent w.length)
      = h.toBytes ++ rest.take (h.extent w.length - UdpHeader.size) := by
    conv_lhs => rw [hbytes, ← Nat.add_sub_cancel' hsize, ← h.length_toBytes]
    exact List.take_length_add_append _
  refine ⟨h, _, _, Packet.carrier?_ofCarrier _ _, hle, ?_⟩
  rw [Peeled.assemble_carrier, Packet.withoutTrailer_ofCarrier, hdatagram]
  simp only [Carrier.header, Carrier.unparsed, List.append_nil, List.append_cancel_left_eq]
  exact haccounts.toBytes_eq_iff

/-- **The verdict on the checksum of a datagram** is about the octets that
its layers are written as. They are the datagram as it was captured exactly
when every IPv6 packet below uses up its window, and then the verdict is
whether the checksum of the captured octets under the pseudo-header of the
addresses is zero. -/
theorem Context.datagramVerifies_decode_iff {settings : Settings} {buf : Bytes}
    {offset length : Nat} {p : Packet}
    (h : decode ⟨.standard, settings⟩ .udp buf offset length = .ok p) :
    ∃ header trailer payload, p.carrier? = some (.udp header trailer, payload)
      ∧ let n :=
          if 8 ≤ header.lengthField.toNat ∧ header.lengthField.toNat ≤ length then
            header.lengthField.toNat
          else length
        let datagram := (buf.clamp offset length).take n
        let below := originsBelow ⟨.standard, settings⟩ .udp ⟨offset, buf.clamp offset length⟩
        below.map Origin.layer = p.layers.tail
          ∧ (p.withoutTrailer = datagram ↔ ∀ o ∈ below, o.Fills)
          ∧ (header.checksum ≠ 0 → ∀ src dst acceptZero,
              (p.datagramVerifies? src dst acceptZero = some true
                ↔ ∃ ph, PseudoHeader.make? src dst IpProtocol.udp p.withoutTrailer.length = some ph
                    ∧ ph.checksum [p.withoutTrailer] = 0)
              ∧ ((∀ o ∈ below, o.Fills) →
                  (p.datagramVerifies? src dst acceptZero = some true
                    ↔ ∃ ph, PseudoHeader.make? src dst IpProtocol.udp n = some ph
                        ∧ ph.checksum [datagram] = 0))) := by
  rw [decode, bind_eq_ok] at h
  obtain ⟨w, hw, h⟩ := h
  obtain ⟨hle, rfl⟩ := Window.cut_eq_ok.mp hw
  have hlayers := map_layer_originsBelow Decoders.standard_ofLibrary.native h
  obtain ⟨header, trailer, payload, hp, hextent, hiff⟩ :=
    withoutTrailer_decodeWindow_eq_iff Decoders.standard_lossless h
  have hlength : Window.length ⟨offset, buf.clamp offset length⟩ = length := Window.length_clamp hle
  rw [hlength] at hextent hiff
  refine ⟨header, trailer, payload, hp, hlayers, hiff, fun hsum src dst acceptZero => ?_⟩
  have htrailer : p.trailer = trailer := by
    cases p with
    | leaf l => cases hp
    | bare c => cases hp; rfl
    | carry c q => cases hp; rfl
  have hverdict : p.datagramVerifies? src dst acceptZero
      = some (header.verifies src dst acceptZero p.withoutTrailer) := by
    rw [Packet.datagramVerifies?, hp, Packet.withoutTrailer, htrailer]
  rw [hverdict, Option.some.injEq, UdpHeader.verifies_iff hsum]
  refine ⟨Iff.rfl, fun hfills => ?_⟩
  have hdatagram : (List.take (header.extent length) (buf.clamp offset length)).length
      = header.extent length := by
    rw [List.length_take, Window.length_clamp hle, Nat.min_eq_left hextent]
  rw [hiff.mpr hfills, hdatagram]
  exact Iff.rfl

/-- **A tunnelled packet that leaves an octet behind** spoils the verdict
on the datagram around it: the checksum of the 58 captured octets is
right, but only 57 of them are checked. -/
theorem Context.datagramVerifies_decode_short_tunnel :
    let src : Ipv6Addr := ⟨[0x20, 0x01, 0x0d, 0xb8] ++ Bytes.zeros 11 ++ [1], rfl⟩
    let dst : Ipv6Addr := ⟨[0x20, 0x01, 0x0d, 0xb8] ++ Bytes.zeros 11 ++ [2], rfl⟩
    let inner : Ipv6Header := ⟨6, 0, 0, 1, IpProtocol.noNext, 64, src, dst⟩
    let gtp : Bytes := [0x30, 0xff, 0, 42, 0, 0, 0, 1] ++ inner.toBytes ++ [0xaa, 0xbb]
    let buf : Bytes := [0x0f, 0xa0, 0x08, 0x68, 0, 58, 0xb9, 0x60] ++ gtp
    ∃ p, decode ⟨.standard, {}⟩ .udp buf 0 58 = .ok p
      ∧ (∃ ph, PseudoHeader.make? (.v6 src) (.v6 dst) IpProtocol.udp 58 = some ph
          ∧ ph.checksum [buf] = 0)
      ∧ p.withoutTrailer ≠ buf
      ∧ p.datagramVerifies? (.v6 src) (.v6 dst) true = some false := by
  intro src dst inner gtp buf
  have hsum : ∃ ph, PseudoHeader.make? (.v6 src) (.v6 dst) IpProtocol.udp 58 = some ph
      ∧ ph.checksum [buf] = 0 := ⟨.v6 src dst IpProtocol.udp 58, by decide +kernel⟩
  have hfalse : (decode ⟨.standard, {}⟩ .udp buf 0 58).toOption.map
      (·.datagramVerifies? (.v6 src) (.v6 dst) true) = some (some false) := by decide +kernel
  cases hp : decode ⟨.standard, {}⟩ .udp buf 0 58 with
  | error e => rw [hp] at hfalse; cases hfalse
  | ok p =>
    rw [hp] at hfalse
    have hverdict : p.datagramVerifies? (.v6 src) (.v6 dst) true = some false :=
      Option.some.inj hfalse
    obtain ⟨header, trailer, payload, hcarrier, -, -, hiff⟩ := datagramVerifies_decode_iff hp
    -- A checksum of zero would have been accepted.
    have hchecksum : header.checksum ≠ 0 := by
      intro hzero
      simp [Packet.datagramVerifies?, hcarrier, UdpHeader.verifies, hzero] at hverdict
    refine ⟨p, rfl, hsum, fun heq => ?_, hverdict⟩
    -- Were all 58 octets kept, the verdict would be about them.
    have hright := (hiff hchecksum (.v6 src) (.v6 dst) true).1.mpr (heq ▸ hsum)
    rw [hverdict] at hright
    cases hright

end PacketCodec
