import PacketCodec.Proofs.Origin

/-!
# Decoded packets are written as they were read

With the decoders of this library, a packet of any format from IP upwards
is written as the whole window it was decoded from, provided that the IPv6
packets below its outermost layer use up their windows. An IPv6 packet
itself is written as the front of its window, as far as its payload length
goes. When an IPv6 packet below leaves octets behind, they are not
written: the condition is necessary too.
-/

namespace PacketCodec

/-- The front of the window of an IPv6 packet: its header and as many
octets as are its payload. -/
theorem Ipv6Header.take_size_add {h : Ipv6Header} {bs rest : Bytes} (hbs : bs = h.toBytes ++ rest)
    (n : Nat) : bs.take (size + n) = h.toBytes ++ rest.take n := by
  rw [hbs, ← h.length_toBytes, List.take_length_add_append]

/-- How many octets are the payload, said with the declared length. -/
theorem Ipv6Header.payloadExtent_eq (h : Ipv6Header) (available : Nat) :
    h.payloadExtent available
      = if h.payloadLen = 0 ∨ available < h.payloadLen.toNat then available
        else h.payloadLen.toNat := by
  unfold payloadExtent
  by_cases h₀ : h.payloadLen = 0
  · rw [if_pos h₀, if_pos (.inl h₀)]
  · by_cases hlt : available < h.payloadLen.toNat
    · rw [if_neg h₀, if_pos (.inr hlt), Nat.min_eq_right hlt.le]
    · rw [if_neg h₀, if_neg (by simp [h₀, hlt]), Nat.min_eq_left (not_lt.mp hlt)]

namespace Context

variable {ctx : Context}

theorem originsBelow_of_peel {f : Format} {w : Window} {l : Peeled} (hl : ctx.peel f w = .ok l) :
    ctx.originsBelow f w = l.origins ctx.payloads (ctx.origins ctx.settings.maxDepth) := by
  rw [originsBelow, hl]

/-- A packet that is not an IPv6 packet is written as its window exactly
when the layers below use up theirs. -/
theorem toBytes_decodeWindow_eq_iff (lossless : ctx.decoders.Lossless) {f : Format} {w : Window}
    {p : Packet} (hf : f ≠ .ethernet ∧ f ≠ .arp) (hip : f ≠ .ipv6)
    (h : ctx.decodeWindow f w = .ok p) :
    p.toBytes = w.bytes ↔ ∀ o ∈ ctx.originsBelow f w, o.Fills := by
  rw [decodeWindow, map_eq_ok] at h
  obtain ⟨l, hl, rfl⟩ := h
  have haccounts := assemble_accounts ctx lossless.toExact
    (payload_accounts ctx lossless ctx.settings.maxDepth) hf hl
  have hfills : Origin.Fills ⟨w.bytes, l.assemble ctx.payloads⟩ := by
    refine Origin.fills_of_kind fun hk => hip ?_
    rw [Peeled.kind_assemble, kind_of_peel hl] at hk
    exact Kind.format.inj hk
  rw [originsBelow_of_peel hl]
  exact haccounts.toBytes_eq_iff.trans (List.forall_mem_cons.trans (and_iff_right hfills))

/-- An IPv6 packet is written as the front of its window exactly when the
layers below use up their windows. -/
theorem toBytes_decodeWindow_ipv6_eq_iff (lossless : ctx.decoders.Lossless) {w : Window}
    {p : Packet} (h : ctx.decodeWindow .ipv6 w = .ok p) :
    ∃ header payload, p.carrier? = some (.ipv6 header, payload)
      ∧ (p.toBytes = w.bytes.take
            (Ipv6Header.size + header.payloadExtent (w.length - Ipv6Header.size))
          ↔ ∀ o ∈ ctx.originsBelow .ipv6 w, o.Fills) := by
  rw [decodeWindow, map_eq_ok] at h
  obtain ⟨l, hl, rfl⟩ := h
  rw [originsBelow_of_peel hl]
  simp only [peel, bind_eq_ok, return_eq_ok, Window.read_eq_ok, Prod.exists] at hl
  obtain ⟨header, rest, hread, rfl⟩ := hl
  have hbs := Ipv6Header.read?_exact hread
  have hrest : w.length - Ipv6Header.size = rest.length := by
    rw [Window.length, hbs, List.length_append, header.length_toBytes, Nat.add_sub_cancel_left]
  have haccounts := payload_accounts ctx lossless ctx.settings.maxDepth
    (.ipProtocol header.nextHeader)
    ⟨w.offset + Ipv6Header.size, rest.take (header.payloadExtent rest.length)⟩ trivial
  refine ⟨header, _, Packet.carrier?_ofCarrier _ _, ?_⟩
  rw [hrest, Ipv6Header.take_size_add hbs, Peeled.assemble_carrier, Packet.toBytes_ofCarrier]
  simp only [Carrier.header, Carrier.unparsed, Carrier.trailer, List.append_nil,
    List.append_cancel_left_eq]
  exact haccounts.toBytes_eq_iff

end Context

/-- **A packet is written as the window that it was decoded from** – an
IPv6 packet as the front of it – exactly when every IPv6 packet below its
outermost layer uses up its own window. The origins that say so are the
layers below the outermost one. -/
theorem Context.toBytes_decode_eq_iff {settings : Settings} {f : Format} {buf : Bytes}
    {offset length : Nat} {p : Packet} (hf : f ≠ .ethernet ∧ f ≠ .arp)
    (h : decode ⟨.standard, settings⟩ f buf offset length = .ok p) :
    let below := originsBelow ⟨.standard, settings⟩ f ⟨offset, buf.clamp offset length⟩
    below.map Origin.layer = p.layers.tail
      ∧ (f ≠ .ipv6 →
          (p.toBytes = buf.clamp offset length ↔ ∀ o ∈ below, o.Fills))
      ∧ (f = .ipv6 → ∃ header payload,
          p.carrier? = some (.ipv6 header, payload)
            ∧ (p.toBytes = (buf.clamp offset length).take
                (Ipv6Header.size
                  + if header.payloadLen = 0
                        ∨ length - Ipv6Header.size < header.payloadLen.toNat then
                      length - Ipv6Header.size
                    else header.payloadLen.toNat)
              ↔ ∀ o ∈ below, o.Fills)) := by
  intro below
  rw [decode, bind_eq_ok] at h
  obtain ⟨w, hw, h⟩ := h
  obtain ⟨hle, rfl⟩ := Window.cut_eq_ok.mp hw
  refine ⟨map_layer_originsBelow Decoders.standard_ofLibrary.native h, fun hip => ?_, ?_⟩
  · exact toBytes_decodeWindow_eq_iff Decoders.standard_lossless hf hip h
  · rintro rfl
    obtain ⟨header, payload, hp, hiff⟩ :=
      toBytes_decodeWindow_ipv6_eq_iff Decoders.standard_lossless h
    refine ⟨header, payload, hp, ?_⟩
    rw [Window.length, Window.length_clamp hle, Ipv6Header.payloadExtent_eq] at hiff
    exact hiff

/-- A hop-by-hop header with padding over an IPv6 packet of three octets,
in the middle of a buffer. -/
theorem Context.toBytes_decode_tunnelled :
    let header : Bytes := [0x60, 0, 0, 0, 0, 3, 59, 64] ++ List.replicate 32 7
    let buf : Bytes := [9] ++ [41, 0, 1, 4, 0, 0, 0, 0] ++ header ++ [1, 2, 3] ++ [8, 8]
    ∃ p, decode ⟨.standard, {}⟩ .hopByHop buf 1 51 = .ok p
      ∧ (∀ o ∈ originsBelow ⟨.standard, {}⟩ .hopByHop ⟨1, buf.clamp 1 51⟩, o.Fills)
      ∧ p.toBytes = buf.clamp 1 51 := by
  intro header buf
  have hok : (decode ⟨.standard, {}⟩ .hopByHop buf 1 51).isOk = true := by decide +kernel
  have hfills : ∀ o ∈ originsBelow ⟨.standard, {}⟩ .hopByHop ⟨1, buf.clamp 1 51⟩, o.Fills := by
    decide +kernel
  obtain ⟨p, hp⟩ := exists_of_isOk hok
  obtain ⟨-, hiff, -⟩ := toBytes_decode_eq_iff ⟨by decide, by decide⟩ hp
  exact ⟨p, hp, hfills, (hiff (by decide)).mpr hfills⟩

end PacketCodec
