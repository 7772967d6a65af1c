import PacketCodec.Proofs.Origin

/-!
# Frames keep every octet

A frame is written as the window that it was decoded from whatever
decodes its payload: header, payload, pad and frame check sequence tile
the window (`Context.tiles_of_decode_frame`). Octets that the payload does
not account for are the pad; a payload that is not written as the front of
the body is not used.

How much of the body the payload accounts for is another matter. A frame
over an IPv6 packet that declares its payload in full has no pad exactly
when no tunnelled packet inside leaves octets behind
(`Context.decode_ipv6_frame_iff`). The header of a datagram or of a GTP
message that declares less than its window holds keeps the rest as a
trailer; that of an IPv6 packet does not.
-/

namespace PacketCodec

/-! ## Tiles of a frame -/

theorem Packet.toBytes_of_carrier? {p : Packet} {c : Carrier} {payload : Option Packet}
    (h : p.carrier? = some (c, payload)) :
    p.toBytes = c.header ++ c.unparsed ++ (payloadBytes payload ++ c.trailer) := by
  cases p with
  | leaf l => cases h
  | bare c => cases h; rfl
  | carry c p => cases h; rfl

/-- **Payload and pad tile the body** of a frame, whatever the payload
was decoded to. -/
theorem EthernetHeader.tiles_frame (h : EthernetHeader) (fcs : Option UInt32) (body : Bytes)
    (p : Option Packet) :
    ∃ pad payload, (h.frame fcs body p).carrier? = some (.ethernet h pad fcs, payload)
      ∧ payloadBytes payload ++ pad = body := by
  rw [frame_eq_ofCarrier]
  split
  · next hall =>
    refine ⟨_, _, Packet.carrier?_ofCarrier _ _, ?_⟩
    cases p with
    | none => rfl
    | some p =>
      obtain ⟨pad, hbody⟩ := List.isPrefixOf_iff_prefix.mp hall
      show p.toBytes ++ body.drop p.toBytes.length = body
      rw [← hbody, List.drop_left]
  · exact ⟨[], _, rfl, List.append_nil body⟩

theorem EthernetHeader.toBytes_frame (h : EthernetHeader) (fcs : Option UInt32) (body : Bytes)
    (p : Option Packet) :
    (h.frame fcs body p).toBytes = h.toBytes ++ body ++ (fcs.map Bytes.le32).getD [] := by
  obtain ⟨pad, payload, hcarrier, hbody⟩ := h.tiles_frame fcs body p
  rw [Packet.toBytes_of_carrier? hcarrier, ← hbody]
  simp [Carrier.header, Carrier.unparsed, Carrier.trailer]

/-- **A frame loses nothing.** For any decoders and settings, and with or
without a frame check sequence: the header, the octets of the payload, the
pad and the frame check sequence of a decoded frame are the window in this
order, and the frame is written as the window. -/
theorem Context.tiles_of_decode_frame (ctx : Context) {withFcs : Bool} {buf : Bytes}
    {offset length : Nat} {p : Packet}
    (h : (if withFcs then ctx.decodeFcs buf offset length
      else ctx.decode .ethernet buf offset length) = .ok p) :
    ∃ header pad fcs payload,
      p.carrier? = some (.ethernet header pad fcs, payload)
        ∧ fcs.isSome = withFcs
        ∧ header.toBytes.length = 14
        ∧ ((fcs.map Bytes.le32).getD []).length = (if withFcs then 4 else 0)
        ∧ header.toBytes ++ payloadBytes payload ++ pad ++ (fcs.map Bytes.le32).getD []
            = buf.clamp offset length
        ∧ (buf.clamp offset length).length = length
        ∧ p.toBytes = buf.clamp offset length := by
  have hdecode : Window.cut EthernetHeader.protocol buf offset length
      >>= (fun w => (EthernetHeader.readFrame withFcs w).map (Peeled.assemble ctx.payloads))
        = .ok p := by
    cases withFcs <;> exact h
  obtain ⟨w, hw, hdecode⟩ := bind_eq_ok.mp hdecode
  obtain ⟨hle, rfl⟩ := Window.cut_eq_ok.mp hw
  obtain ⟨l, hl, rfl⟩ := map_eq_ok.mp hdecode
  obtain ⟨header, body, fcs, rfl, hfcs, hwire⟩ := EthernetHeader.frame_of_readFrame hl
  obtain ⟨pad, payload, hcarrier, hbody⟩ :=
    header.tiles_frame fcs body.bytes (ctx.payloads (.etherType header.etherType) body)
  refine ⟨header, pad, fcs, payload, hcarrier, hfcs, header.length_toBytes, ?_, ?_,
    Window.length_clamp hle, ?_⟩
  · subst hfcs
    cases fcs <;> simp
  · rw [List.append_assoc header.toBytes, hbody]
    exact hwire
  · rw [Peeled.assemble, EthernetHeader.toBytes_frame]
    exact hwire

/-- A decoder from elsewhere whose packets have nothing to do with the
octets it is given. -/
theorem Context.tiles_of_decode_foreign_frame :
    let foreign := PacketDecoder.custom "Foreign" fun _ _ => .ok (.unknown [0xde, 0xad])
    let ctx : Context := { decoders := { Decoders.none with etherTypes := .empty "" foreign } }
    let buf : Bytes := [9] ++ List.replicate 14 2 ++ [1, 2, 3] ++ [4, 5, 6, 7] ++ [8]
    ∃ p, ctx.decodeFcs buf 1 21 = .ok p ∧ p.toBytes = buf.clamp 1 21 := by
  intro foreign ctx buf
  have hok : (ctx.decodeFcs buf 1 21).isOk = true := by decide +kernel
  obtain ⟨p, hp⟩ := exists_of_isOk hok
  obtain ⟨-, -, -, -, -, -, -, -, -, -, htoBytes⟩ :=
    @tiles_of_decode_frame ctx true buf 1 21 p hp
  exact ⟨p, hp, htoBytes⟩

/-! ## IPv6 in a frame -/

/-- **A payload is used without a pad** exactly when it is written as the
body. -/
theorem EthernetHeader.frame_without_pad_iff {h : EthernetHeader} {fcs : Option UInt32}
    {body : Bytes} {p : Packet} (hp : p.kind ≠ .unknown) :
    (∃ q, (h.frame fcs body (some p)).carrier? = some (.ethernet h [] fcs, some q)
        ∧ q.kind = p.kind)
      ↔ p.toBytes = body := by
  rw [frame_eq_ofCarrier]
  constructor
  · rintro ⟨q, hq, hkind⟩
    split at hq
    · next hall =>
      obtain ⟨pad, hbody⟩ := List.isPrefixOf_iff_prefix.mp hall
      rw [Packet.carrier?_ofCarrier] at hq
      obtain ⟨hpad, -⟩ : body.drop p.toBytes.length = [] ∧ p = q := by
        simpa [payloadBytes] using hq
      rw [← hbody, List.drop_left] at hpad
      rw [← hbody, hpad, List.append_nil]
    · cases hq
      exact absurd hkind.symm hp
  · rintro rfl
    have hall : (some p).all (fun q => q.toBytes.isPrefixOf p.toBytes) = true :=
      List.isPrefixOf_iff_prefix.mpr List.prefix_rfl
    refine ⟨p, ?_, rfl⟩
    rw [if_pos hall, Packet.carrier?_ofCarrier, show payloadBytes (some p) = p.toBytes from rfl,
      List.drop_length]

/-- A frame that was written is read back. -/
theorem EthernetHeader.readFrame_toBytes (h : EthernetHeader) (offset : Nat) (body : Bytes) :
    readFrame false ⟨offset, h.toBytes ++ body⟩
      = .ok (.frame h ⟨offset + size, body⟩ none) := by
  have hlen : ¬ Window.length ⟨offset, h.toBytes ++ body⟩ < size + 0 := by
    rw [Window.length, List.length_append, h.length_toBytes]
    omega
  have hread : Window.read ⟨offset, h.toBytes ++ body⟩ protocol size read? = .ok (h, body) :=
    Window.read_eq_ok.mpr (h.read?_toBytes body)
  simp only [readFrame, Bool.false_eq_true, if_false, if_neg hlen, hread, bind, Except.bind, pure,
    Except.pure]
  rw [Nat.sub_zero, List.take_length]

theorem Ipv6Header.toBytes_append_ne_nil (h : Ipv6Header) (rest : Bytes) :
    h.toBytes ++ rest ≠ [] := by
  intro hnil
  have hsize := congrArg List.length hnil
  rw [List.length_append, h.length_toBytes, size, List.length_nil] at hsize
  omega

/-- An IPv6 packet that declares its payload in full is read back, and
leaves nothing behind. -/
theorem Context.peel_ipv6_toBytes (ctx : Context) {ip : Ipv6Header} {body : Bytes}
    (hlen : ip.payloadLen.toNat = body.length) (offset : Nat) :
    ∃ ip' : Ipv6Header, ctx.peel .ipv6 ⟨offset, ip.toBytes ++ body⟩
      = .ok (.carrier (.ipv6 ip')
          (.dispatch (.ipProtocol ip.nextHeader) ⟨offset + Ipv6Header.size, body⟩)) := by
  obtain ⟨ip', hread, hpayload, hnext⟩ := ip.read?_toBytes body
  have hextent : ip'.payloadExtent body.length = body.length := by
    rw [Ipv6Header.payloadExtent, hpayload, hlen, Nat.min_self, ite_self]
  refine ⟨ip', ?_⟩
  have hread : Window.read ⟨offset, ip.toBytes ++ body⟩ Ipv6Header.protocol Ipv6Header.size
      Ipv6Header.read? = .ok (ip', body) := Window.read_eq_ok.mpr hread
  simp only [peel, hread, bind, Except.bind, pure, Except.pure]
  rw [hextent, hnext, List.take_length]

/-- The same as a payload, with what it was decoded from. -/
theorem Context.payload_ipv6_accounts (ctx : Context) (lossless : ctx.decoders.Lossless)
    {key : Selector} (hkey : ctx.decoders.select key = .format .ipv6) {ip : Ipv6Header}
    {body : Bytes} (hlen : ip.payloadLen.toNat = body.length) (left offset : Nat) :
    ∃ q, ctx.payload (left + 1) key ⟨offset, ip.toBytes ++ body⟩ = some q
      ∧ q.kind = .format .ipv6
      ∧ Accounts (ip.toBytes ++ body) (some q)
          (ctx.origins (left + 1) key ⟨offset, ip.toBytes ++ body⟩) := by
  have hne := ip.toBytes_append_ne_nil body
  obtain ⟨ip', hpeel⟩ := ctx.peel_ipv6_toBytes hlen offset
  refine ⟨_, ctx.payload_of_peel hne hkey hpeel left, ?_, ?_⟩
  · rw [Peeled.kind_assemble]
    rfl
  · rw [ctx.origins_of_peel hne hkey hpeel left]
    exact ctx.assemble_accounts lossless.toExact (ctx.payload_accounts lossless left)
      ⟨Format.noConfusion, Format.noConfusion⟩ hpeel

/-- A frame that was written is decoded over its body. -/
theorem Context.decode_toBytes (ctx : Context) (h : EthernetHeader) (body : Bytes) :
    ctx.decode .ethernet (h.toBytes ++ body) 0 (h.toBytes ++ body).length
      = .ok (h.frame none body
          (ctx.payloads (.etherType h.etherType) ⟨EthernetHeader.size, body⟩)) := by
  have hread := h.readFrame_toBytes 0 body
  rw [Nat.zero_add] at hread
  rw [decode, Window.cut_alone, bind_eq_ok]
  refine ⟨_, rfl, ?_⟩
  rw [decodeWindow, map_eq_ok]
  exact ⟨_, hread, rfl⟩

/-- **IPv6 packets in frames.** A frame over an IPv6 packet that declares
its payload in full is decoded to one that is written as the same octets,
whatever the payload. It has the packet as its payload, and no pad,
exactly when the IPv6 packets inside use up their windows: otherwise the
octets that one of them leaves behind become the pad of the frame, or its
payload is kept without interpretation. -/
theorem Context.decode_ipv6_frame_iff {h : EthernetHeader} {ip : Ipv6Header} {body : Bytes}
    (htype : h.etherType = EtherType.ipv6) (hlen : ip.payloadLen.toNat = body.length) :
    let packet := ip.toBytes ++ body
    let frame := h.toBytes ++ packet
    let key := Selector.etherType EtherType.ipv6
    let inside := origins {} ({} : Settings).maxDepth key ⟨EthernetHeader.size, packet⟩
    ∃ p q, decode {} .ethernet frame 0 frame.length = .ok p ∧ p.toBytes = frame
      ∧ payloads {} key ⟨EthernetHeader.size, packet⟩ = some q
      ∧ inside.map Origin.layer = q.layers
      ∧ ((∃ r, p.carrier? = some (.ethernet h [] none, some r) ∧ r.kind = .format .ipv6)
        ↔ ∀ o ∈ inside, o.Fills) := by
  intro packet frame key inside
  obtain ⟨q, hq, hkind, haccounts⟩ := payload_ipv6_accounts {} Decoders.standard_lossless
    (show Decoders.standard.select key = .format .ipv6 from rfl) hlen 31 EthernetHeader.size
  have hdecode := decode_toBytes {} h packet
  have hlayers := map_layer_origins {} Decoders.standard_ofLibrary.native 32 key
    ⟨EthernetHeader.size, packet⟩
  have hpayload : payloads {} key ⟨EthernetHeader.size, packet⟩ = some q := hq
  rw [htype, hpayload] at hdecode
  rw [hq] at hlayers
  refine ⟨_, q, hdecode, ?_, hpayload, hlayers, ?_⟩
  · rw [EthernetHeader.toBytes_frame]
    exact List.append_nil frame
  · rw [← hkind]
    exact (EthernetHeader.frame_without_pad_iff (hkind ▸ Kind.noConfusion)).trans
      haccounts.toBytes_eq_iff

/-- **A tunnelled packet that leaves an octet behind** is at odds with the
frame being used without a pad: of the two octets behind its header it
declares one. -/
theorem Context.decode_ipv6_frame_short_tunnel :
    let address : Ipv6Addr := Octets.zero 16
    let h : EthernetHeader := ⟨Octets.zero 6, Octets.zero 6, EtherType.ipv6⟩
    let ip : Ipv6Header := ⟨6, 0, 0, 42, IpProtocol.ipv6, 64, address, address⟩
    let inner : Ipv6Header := ⟨6, 0, 0, 1, IpProtocol.noNext, 64, address, address⟩
    let body := inner.toBytes ++ [0xaa, 0xbb]
    let frame := h.toBytes ++ (ip.toBytes ++ body)
    h.etherType = EtherType.ipv6 ∧ ip.payloadLen.toNat = body.length
      ∧ ∃ p, decode {} .ethernet frame 0 frame.length = .ok p ∧ p.toBytes = frame
        ∧ ¬ ∃ r, p.carrier? = some (.ethernet h [] none, some r) ∧ r.kind = .format .ipv6 := by
  intro address h ip inner body frame
  have hlen : ip.payloadLen.toNat = body.length := by decide
  obtain ⟨p, -, hp, hbytes, -, -, hiff⟩ := @decode_ipv6_frame_iff h ip body rfl hlen
  refine ⟨rfl, hlen, p, hp, hbytes, fun hr => ?_⟩
  exact absurd (hiff.mp hr) (by decide +kernel)

end PacketCodec
