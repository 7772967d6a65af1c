import PacketCodec.Proofs.Admissible
import PacketCodec.Proofs.ChainReadback
import PacketCodec.Proofs.Frame
import PacketCodec.Proofs.Length

/-!
# Padded frames over IPv6

Where the IPv6 packet in a frame ends is what its payload length says, so
the pad behind it is found again, if the payload length is not zero. Zero
stands for all that follows the header: a frame over an IPv6 packet without
a payload is padded by six octets, and these are decoded as the payload of
the packet (`Draft.decode_build_padded_ipv6`).
-/

namespace PacketCodec

/-! ## IPv6 packets that are read back -/

/-- The fields of the first word are read back. -/
theorem Ipv6Header.get_firstWord {h : Ipv6Header} (fits : (Carrier.ipv6 h).Admissible) :
    (versionBits.get h.firstWord).toUInt8 = h.version
      ∧ (trafficClassBits.get h.firstWord).toUInt8 = h.trafficClass
      ∧ flowLabelBits.get h.firstWord = h.flowLabel := by
  have hversion : h.version &&& versionBits.max.toUInt8 = h.version :=
    BitField.and_toUInt8_max _ (Nat.lt_succ_of_le fits.1)
  have hclass : h.trafficClass &&& trafficClassBits.max.toUInt8 = h.trafficClass :=
    BitField.and_toUInt8_max _ h.trafficClass.toNat_lt
  have hlabel : h.flowLabel &&& flowLabelBits.max = h.flowLabel :=
    BitField.and_max _ (Nat.lt_succ_of_le fits.2)
  simp (disch := decide) [firstWord, hversion, hclass, hlabel]

/-- **A header that can be written is read back.** -/
theorem Ipv6Header.read?_toBytes_of_admissible {h : Ipv6Header}
    (fits : (Carrier.ipv6 h).Admissible) (rest : Bytes) :
    read? (h.toBytes ++ rest) = some (h, rest) := by
  obtain ⟨hversion, hclass, hlabel⟩ := get_firstWord fits
  simp only [read?, Bytes.bind_eq_some, Bytes.return_eq_some, Octets.take?_eq_some,
    Bytes.u32?_eq_some, Bytes.u16?_eq_some, Bytes.u8?_eq_some, toBytes, List.append_assoc]
  refine ⟨h.firstWord, _, rfl, h.payloadLen, _, rfl, h.nextHeader, _, rfl, h.hopLimit, _, rfl,
    h.src, _, rfl, h.dst, rest, rfl, ?_, rfl⟩
  rw [hversion, hclass, hlabel]

/-- An IPv6 packet is read off whatever follows its header: it carries as
much of that as its payload length says. -/
theorem Context.peel_ipv6_of_admissible (ctx : Context) {ip : Ipv6Header}
    (fits : (Carrier.ipv6 ip).Admissible) (offset : Nat) (rest : Bytes) :
    ctx.peel .ipv6 ⟨offset, ip.toBytes ++ rest⟩
      = .ok (.carrier (.ipv6 ip) (.dispatch (.ipProtocol ip.nextHeader)
          ⟨offset + Ipv6Header.size, rest.take (ip.payloadExtent rest.length)⟩)) := by
  have hread : Window.read ⟨offset, ip.toBytes ++ rest⟩ Ipv6Header.protocol Ipv6Header.size
      Ipv6Header.read? = .ok (ip, rest) :=
    Window.read_eq_ok.mpr (Ipv6Header.read?_toBytes_of_admissible fits rest)
  simp only [peel, hread, bind, Except.bind, pure, Except.pure]

/-- Bytes whose decoder keeps them as they are, at any depth. -/
theorem Context.payload_of_unknown (ctx : Context) {key : Selector}
    (hkey : ctx.decoders.select key = .unknown) (left : Nat) (w : Window) :
    ctx.payload left key w = if w.bytes.isEmpty then none else some (.unknown w.bytes) := by
  cases left with
  | zero => rw [payload]
  | succ left =>
    rw [payload, hkey]
    rfl

theorem payloadBytes_unknown (data : Bytes) :
    payloadBytes (if data.isEmpty then none else some (.unknown data)) = data := by
  cases data <;> rfl

/-- **A payload that is written as the front of the body** leaves the rest as
the pad. -/
theorem EthernetHeader.frame_of_append (h : EthernetHeader) (fcs : Option UInt32) {p : Packet}
    {body pad : Bytes} (hbody : p.toBytes ++ pad = body) :
    h.frame fcs body (some p) = .carry (.ethernet h pad fcs) p := by
  have hprefix : p.toBytes.isPrefixOf body = true :=
    List.isPrefixOf_iff_prefix.mpr ⟨pad, hbody⟩
  have hpad : body.drop p.toBytes.length = pad := by rw [← hbody, List.drop_left]
  simp only [frame, hprefix, if_true, hpad]

theorem Packet.toBytes_ofCarrier_ipv6 (ip : Ipv6Header) (p : Option Packet) :
    (ofCarrier (.ipv6 ip) p).toBytes = ip.toBytes ++ payloadBytes p :=
  toBytes_ofCarrier_of_trailer rfl rfl p

section Frame

variable (ctx : Context) {h : EthernetHeader} {ip : Ipv6Header}

/-- **A frame over an IPv6 packet whose payload is kept as bytes** is decoded
to one over the packet, with as many of the octets behind its header as its
payload length says. -/
theorem Context.decode_ipv6_frame_of_unknown (depth : 0 < ctx.settings.maxDepth)
    (hkey : ctx.decoders.select (.etherType h.etherType) = .format .ipv6)
    (hnext : ctx.decoders.select (.ipProtocol ip.nextHeader) = .unknown)
    (fits : (Carrier.ipv6 ip).Admissible) {data pad : Bytes}
    (hextent : ip.payloadExtent (data ++ pad).length = data.length) :
    let frame := h.toBytes ++ (ip.toBytes ++ (data ++ pad))
    ctx.decode .ethernet frame 0 frame.length
      = .ok (.carry (.ethernet h pad none)
          (.ofCarrier (.ipv6 ip) (if data.isEmpty then none else some (.unknown data)))) := by
  intro frame
  obtain ⟨left, hleft⟩ := Nat.exists_eq_add_one.mpr depth
  have hpayload := ctx.payload_of_peel (ip.toBytes_append_ne_nil (data ++ pad)) hkey
    (ctx.peel_ipv6_of_admissible fits EthernetHeader.size (data ++ pad)) left
  -- With a single layer allowed, what the packet carries is below the largest depth. There
  -- too it is kept as bytes.
  rw [Peeled.assemble, ctx.payload_of_unknown hnext, hextent, List.take_left] at hpayload
  have hbody : (Packet.ofCarrier (.ipv6 ip)
      (if data.isEmpty then none else some (.unknown data))).toBytes ++ pad
        = ip.toBytes ++ (data ++ pad) := by
    rw [Packet.toBytes_ofCarrier_ipv6, payloadBytes_unknown, List.append_assoc]
  rw [ctx.decode_toBytes, payloads, hleft, hpayload, h.frame_of_append none hbody]

/-- **Where the pad of a frame over IPv6 is found**: behind the payload, if
the packet declares one, and nowhere else. -/
theorem Context.decode_padded_ipv6 (depth : 0 < ctx.settings.maxDepth)
    (hkey : ctx.decoders.select (.etherType h.etherType) = .format .ipv6)
    (hnext : ctx.decoders.select (.ipProtocol ip.nextHeader) = .unknown)
    (fits : (Carrier.ipv6 ip).Admissible) {data : Bytes}
    (declared : ip.payloadLen.toNat = data.length) (pad : Bytes) :
    let frame := h.toBytes ++ (ip.toBytes ++ (data ++ pad))
    ctx.decode .ethernet frame 0 frame.length
      = .ok (if data.isEmpty
          then .carry (.ethernet h [] none)
            (.ofCarrier (.ipv6 ip) (if pad.isEmpty then none else some (.unknown pad)))
          else .carry (.ethernet h pad none) (.carry (.ipv6 ip) (.unknown data))) := by
  intro frame
  cases data with
  | nil =>
    have hzero : ip.payloadLen = 0 := UInt16.toNat_inj.mp declared
    have hextent : ip.payloadExtent (pad ++ []).length = pad.length := by
      rw [Ipv6Header.payloadExtent, if_pos hzero, List.append_nil]
    have hdecode := ctx.decode_ipv6_frame_of_unknown depth hkey hnext fits hextent
    rwa [List.append_nil] at hdecode
  | cons first rest =>
    have hne : ip.payloadLen ≠ 0 := by
      intro hzero
      rw [hzero] at declared
      cases declared
    have hextent : ip.payloadExtent (first :: rest ++ pad).length = (first :: rest).length := by
      rw [Ipv6Header.payloadExtent, if_neg hne, declared, List.length_append,
        Nat.min_eq_left (Nat.le_add_right _ _)]
    exact ctx.decode_ipv6_frame_of_unknown depth hkey hnext fits hextent

end Frame

/-! ## Padded frames that are built -/

/-- **A draft of a padded frame over IPv6**, without a check sequence. -/
structure EthernetDraft.PadsIpv6 (d : EthernetDraft) : Prop where
  violations : d.violations = []
  etherType : d.etherType = some EtherType.ipv6
  padding : d.padding = true
  checked : d.checked = false
  fcs : d.fcs = none

/-- **A draft of an IPv6 packet over bytes**: no decoder is assigned to the
type of its payload, and its payload length is corrected. -/
structure Ipv6Draft.OverBytes (d : Ipv6Draft) : Prop where
  violations : d.violations = []
  nextHeader : ∃ n, d.nextHeader = some n ∧ Decoders.standard.ipProtocols.contains n = false
  correctLength : d.correctLength = true

/-- The packet is built over as many octets as its payload length can
tell. -/
theorem Ipv6Draft.OverBytes.exists_header {d : Ipv6Draft} (hd : d.OverBytes) {length : Nat}
    (fits : length ≤ 65535) :
    ∃ ip, d.header length = .ok ip ∧ ip.payloadLen.toNat = length
      ∧ Decoders.standard.select (.ipProtocol ip.nextHeader) = .unknown := by
  obtain ⟨n, hn, hfree⟩ := hd.nextHeader
  have hcheck : BuildError.check Ipv6Header.protocol
      (Violation.ifOver "payload_len" length (UInt16.size - 1)) = .ok () :=
    BuildError.check_eq_ok.mpr (Violation.ifOver_eq_nil.mpr fits)
  simp only [header, hd.correctLength, if_true, hcheck, bind, Except.bind, pure, Except.pure,
    Except.ok.injEq, exists_eq_left', hn, Option.getD_some]
  exact ⟨UInt16.toNat_ofNat_of_lt' (Nat.lt_succ_of_le fits), Registry.get_of_not_contains hfree⟩

/-- A frame of that draft is padded with zeros, if its payload is shorter
than the smallest. -/
theorem EthernetDraft.PadsIpv6.completeFrame {d : EthernetDraft} (hd : d.PadsIpv6) (p : Packet) :
    CarrierDraft.completeFrame d (some p)
      = .ethernet d.header (Bytes.zeros (EthernetHeader.minPayload - p.toBytes.length)) none := by
  simp only [CarrierDraft.completeFrame, hd.padding, hd.checked, hd.fcs, if_true,
    Bool.false_eq_true, if_false, Option.map_some, Option.getD_some, Packet.length_toBytes]

/-- The frame is built over a packet that declares its payload. -/
theorem Draft.build_padded_ipv6 {e : EthernetDraft} (he : e.PadsIpv6) {d : Ipv6Draft}
    (hd : d.OverBytes) {payload : Option Draft} {below : Option Packet}
    (built : payload.mapM build = .ok below) {ip : Ipv6Header}
    (hip : d.header (payloadBytes below).length = .ok ip) :
    let pad := Bytes.zeros
      (EthernetHeader.minPayload - (Ipv6Header.size + (payloadBytes below).length))
    let frame := Packet.carry (.ethernet e.header pad none) (.ofCarrier (.ipv6 ip) below)
    (ofCarrier (.ethernet e) (some (ofCarrier (.ipv6 d) payload))).build = .ok frame
      ∧ frame.toBytes = e.header.toBytes ++ (ip.toBytes ++ (payloadBytes below ++ pad)) := by
  intro pad frame
  have hpacket : (ofCarrier (.ipv6 d) payload).build = .ok (.ofCarrier (.ipv6 ip) below) := by
    refine build_ofCarrier_eq_ok.mpr ⟨hd.violations, below, _, built, ?_, rfl⟩
    rw [CarrierDraft.complete, ← Packet.length_payloadBytes, hip]
    rfl
  have hcarrier : CarrierDraft.completeFrame e (some (.ofCarrier (.ipv6 ip) below))
      = .ethernet e.header pad none := by
    rw [he.completeFrame, Packet.toBytes_ofCarrier_ipv6, List.length_append, ip.length_toBytes]
  constructor
  · refine build_ofCarrier_eq_ok.mpr ⟨he.violations, some (.ofCarrier (.ipv6 ip) below), _, ?_,
      rfl, ?_⟩
    · rw [Option.mapM_some, hpacket]
      rfl
    · rw [hcarrier]
      rfl
  · rw [Packet.toBytes, Packet.toBytes_ofCarrier_ipv6]
    show e.header.toBytes ++ [] ++ (ip.toBytes ++ payloadBytes below ++ (pad ++ [])) = _
    rw [List.append_nil, List.append_nil, List.append_assoc ip.toBytes]

/-- **The pad of a frame over IPv6 is found again**, if the packet has a
payload. The payload may be built from anything, so long as no decoder is
assigned to its type and its length fits: what is decoded is the packet over
its octets, and the pad of the frame. Without a payload the packet declares
none, and the six octets of the pad are decoded as its payload. -/
theorem Draft.decode_build_padded_ipv6 {settings : Settings} (depth : 0 < settings.maxDepth)
    {e : EthernetDraft} (he : e.PadsIpv6) {d : Ipv6Draft} (hd : d.OverBytes)
    {payload : Option Draft} {below : Option Packet} (built : payload.mapM build = .ok below)
    (fits : (payloadBytes below).length ≤ 65535) :
    let data := payloadBytes below
    let pad := Bytes.zeros (EthernetHeader.minPayload - (Ipv6Header.size + data.length))
    ∃ ip, d.header data.length = .ok ip ∧
      let frame := Packet.carry (.ethernet e.header pad none) (.ofCarrier (.ipv6 ip) below)
      (ofCarrier (.ethernet e) (some (ofCarrier (.ipv6 d) payload))).build = .ok frame
        ∧ Context.decode ⟨.standard, settings⟩ .ethernet frame.toBytes 0 frame.toBytes.length
          = .ok (if data.isEmpty
              then .carry (.ethernet e.header [] none) (.carry (.ipv6 ip) (.unknown pad))
              else .carry (.ethernet e.header pad none) (.carry (.ipv6 ip) (.unknown data))) := by
  intro data pad
  obtain ⟨ip, hip, hlength, hnext⟩ := hd.exists_header fits
  have hkey : Decoders.standard.select (.etherType e.header.etherType) = .format .ipv6 := by
    rw [EthernetDraft.header, he.etherType]
    rfl
  obtain ⟨hbuild, hbytes⟩ := build_padded_ipv6 he hd built hip
  refine ⟨ip, hip, hbuild, ?_⟩
  have hdecode := Context.decode_padded_ipv6 ⟨.standard, settings⟩ depth hkey hnext
    (Ipv6Draft.admissible_header hd.violations hip) hlength pad
  rw [hbytes, hdecode]
  split
  · next hempty =>
    have hpad : pad = Bytes.zeros 6 := by
      show Bytes.zeros (46 - (40 + (payloadBytes below).length)) = _
      rw [List.isEmpty_iff.mp hempty]
      rfl
    rw [hpad]
    rfl
  · rfl

/-- A frame over two octets in an IPv6 packet, padded by four. -/
theorem Draft.decode_build_padded_ipv6_two_octets :
    let e : EthernetDraft :=
      { dst := some ⟨[2, 0, 0, 0, 0, 1], rfl⟩, src := some ⟨[2, 0, 0, 0, 0, 2], rfl⟩,
        etherType := some EtherType.ipv6, padding := true }
    let d : Ipv6Draft :=
      { trafficClass := some 0, flowLabel := some 0, nextHeader := some IpProtocol.noNext,
        hopLimit := some 64, src := some (Octets.zero 16), dst := some (Octets.zero 16),
        correctLength := true }
    let data : Packet := .unknown [0xaa, 0xbb]
    e.PadsIpv6 ∧ d.OverBytes ∧ ∃ ip, d.header 2 = .ok ip ∧
      let frame := Packet.carry (.ethernet e.header (Bytes.zeros 4) none) (.carry (.ipv6 ip) data)
      (ofCarrier (.ethernet e) (some (ofCarrier (.ipv6 d) (some data.toDraft)))).build = .ok frame
        ∧ Context.decode {} .ethernet frame.toBytes 0 frame.toBytes.length = .ok frame := by
  intro e d data
  have he : e.PadsIpv6 := ⟨rfl, rfl, rfl, rfl, rfl⟩
  have hd : d.OverBytes := ⟨rfl, ⟨_, rfl, rfl⟩, rfl⟩
  exact ⟨he, hd, @decode_build_padded_ipv6 {} (by decide) e he d hd (some data.toDraft) (some data)
    rfl (by decide)⟩

/-- **A pad that is decoded as a payload**: that of a frame over an IPv6
packet without one. -/
theorem Draft.decode_build_padded_ipv6_without_payload :
    let e : EthernetDraft :=
      { dst := some ⟨[2, 0, 0, 0, 0, 1], rfl⟩, src := some ⟨[2, 0, 0, 0, 0, 2], rfl⟩,
        etherType := some EtherType.ipv6, padding := true }
    let d : Ipv6Draft :=
      { trafficClass := some 0, flowLabel := some 0, nextHeader := some IpProtocol.noNext,
        hopLimit := some 64, src := some (Octets.zero 16), dst := some (Octets.zero 16),
        correctLength := true }
    let ip : Ipv6Header :=
      ⟨IpVersion.v6, 0, 0, 0, IpProtocol.noNext, 64, Octets.zero 16, Octets.zero 16⟩
    let frame := Packet.carry (.ethernet e.header (Bytes.zeros 6) none) (.bare (.ipv6 ip))
    let decoded :=
      Packet.carry (.ethernet e.header [] none) (.carry (.ipv6 ip) (.unknown (Bytes.zeros 6)))
    e.PadsIpv6 ∧ d.OverBytes
      ∧ (ofCarrier (.ethernet e) (some (ofCarrier (.ipv6 d) none))).build = .ok frame
      ∧ Context.decode {} .ethernet frame.toBytes 0 frame.toBytes.length = .ok decoded
      ∧ decoded ≠ frame := by
  intro e d ip frame decoded
  exact ⟨⟨rfl, rfl, rfl, rfl, rfl⟩, ⟨rfl, ⟨_, rfl, rfl⟩, rfl⟩, rfl, by decide +kernel,
    by decide +kernel⟩

end PacketCodec
