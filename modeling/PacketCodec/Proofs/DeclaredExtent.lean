import PacketCodec.Proofs.Extent
import PacketCodec.Proofs.Locality
import PacketCodec.Proofs.Origin

/-!
# Octets past the extent of a layer

Three headers say where their layer ends: that of a datagram, that of a
GTP message, and that of an IPv6 packet whose payload length is not zero
(`Format.declaredExtent?`). Octets of the window past that place are no
part of the layer. Those of a datagram and of a message are its trailer,
and those of an IPv6 packet are nowhere in it; neither the header, nor the
elements in it, nor any layer below depends on them
(`Context.decode_of_declaredExtent`).

The extent has to be inside the window. A window that ends before it is
read as far as it goes, so there the octets behind it matter, if only to
say how many of them there are.
-/

namespace PacketCodec

/-! ## Extents -/

/-- **Where a layer of a format ends**, as its header at the front of a
window says, counted from there. Most formats do not say, and some values
do not either: the length of a datagram that has no room for its header,
and an IPv6 payload length of zero. The extent of a message covers its
optional part, however short the message is said to be. -/
def Format.declaredExtent? (f : Format) (bs : Bytes) : Option Nat :=
  match f with
  | .udp => do
    let (h, _) ← UdpHeader.read? bs
    if UdpHeader.size ≤ h.lengthField.toNat then some h.lengthField.toNat else none
  | .ipv6 => do
    let (h, _) ← Ipv6Header.read? bs
    if h.payloadLen = 0 then none else some (Ipv6Header.size + h.payloadLen.toNat)
  | .gtp => do
    let (h, _) ← GtpHeader.mandatory? bs
    some (max (GtpHeader.size + h.lengthField.toNat)
      (GtpHeader.size + if h.hasOptional then GtpHeader.optionalSize else 0))
  | _ => none

/-- The layer with another trailer, if it is one that has a trailer of its
own. -/
def Carrier.withTrailer (trailer : Bytes) : Carrier → Carrier
  | udp h _ => udp h trailer
  | gtp h _ => gtp h trailer
  | c => c

namespace Format

theorem declaredExtent?_udp {bs : Bytes} {n : Nat} :
    udp.declaredExtent? bs = some n
      ↔ ∃ h body, UdpHeader.read? bs = some (h, body) ∧ UdpHeader.size ≤ n
        ∧ h.lengthField.toNat = n := by
  simp only [declaredExtent?, Bytes.bind_eq_some, Option.ite_none_right_eq_some,
    Option.some.injEq]
  refine exists₂_congr fun h body => and_congr_right fun _ => ?_
  constructor
  · rintro ⟨hsize, rfl⟩
    exact ⟨hsize, rfl⟩
  · rintro ⟨hsize, rfl⟩
    exact ⟨hsize, rfl⟩

theorem declaredExtent?_ipv6 {bs : Bytes} {n : Nat} :
    ipv6.declaredExtent? bs = some n
      ↔ ∃ h body, Ipv6Header.read? bs = some (h, body) ∧ h.payloadLen ≠ 0
        ∧ Ipv6Header.size + h.payloadLen.toNat = n := by
  simp only [declaredExtent?, Bytes.bind_eq_some, Option.ite_none_left_eq_some,
    Option.some.injEq, ne_eq]

theorem declaredExtent?_gtp {bs : Bytes} {n : Nat} :
    gtp.declaredExtent? bs = some n
      ↔ ∃ h body, GtpHeader.mandatory? bs = some (h, body)
        ∧ max (GtpHeader.size + h.lengthField.toNat)
          (GtpHeader.size + if h.hasOptional then GtpHeader.optionalSize else 0) = n := by
  simp only [declaredExtent?, Bytes.bind_eq_some, Option.some.injEq]

/-- The header at the front of a window says so whatever is past the
extent. -/
theorem declaredExtent?_of_append {f : Format} {front rest : Bytes}
    (h : f.declaredExtent? (front ++ rest) = some front.length) :
    f.declaredExtent? front = some front.length := by
  cases f with
  | udp =>
    obtain ⟨header, behind, hread, hsize, hextent⟩ := declaredExtent?_udp.mp h
    exact declaredExtent?_udp.mpr
      ⟨header, _, UdpHeader.takes.of_append hsize hread, hsize, hextent⟩
  | ipv6 =>
    obtain ⟨header, behind, hread, hne, hextent⟩ := declaredExtent?_ipv6.mp h
    have hsize : Ipv6Header.size ≤ front.length := hextent ▸ Nat.le_add_right _ _
    exact declaredExtent?_ipv6.mpr
      ⟨header, _, Ipv6Header.takes.of_append hsize hread, hne, hextent⟩
  | gtp =>
    obtain ⟨header, behind, hread, hextent⟩ := declaredExtent?_gtp.mp h
    have hsize : GtpHeader.size ≤ front.length := by omega
    exact declaredExtent?_gtp.mpr ⟨header, _, GtpHeader.takes.of_append hsize hread, hextent⟩
  | _ => cases h

end Format

/-! ## One layer -/

/-- **A datagram is read alike whatever follows it**, and that is its
trailer. -/
theorem UdpHeader.read_append {front : Bytes}
    (extent : Format.udp.declaredExtent? front = some front.length) (known : UdpPort → Bool)
    (offset : Nat) :
    ∃ h inner, ∀ rest, read known ⟨offset, front ++ rest⟩ = .ok (h, rest, inner) := by
  obtain ⟨h, body, hread, hsize, hextent⟩ := Format.declaredExtent?_udp.mp extent
  refine ⟨h, .dispatch (.udpPort (h.selectingPort known)) ⟨offset + size, body⟩, fun rest => ?_⟩
  have hlong : Window.read ⟨offset, front ++ rest⟩ protocol size read? = .ok (h, body ++ rest) :=
    Window.read_eq_ok.mpr (takes.steady hread rest)
  have hwhole : h.extent (Window.length ⟨offset, front ++ rest⟩) - size = body.length := by
    have hle : front.length ≤ Window.length ⟨offset, front ++ rest⟩ := by
      rw [Window.length, List.length_append]
      exact Nat.le_add_right _ _
    have hbody := takes.length hread
    rw [UdpHeader.extent, if_pos (by omega)]
    omega
  rw [read, hlong]
  simp only [bind, Except.bind, pure, Except.pure]
  rw [hwhole, List.take_left, List.drop_left]

/-- **A message is read alike whatever follows it**, and that is its
trailer. -/
theorem GtpHeader.read_append {front : Bytes}
    (extent : Format.gtp.declaredExtent? front = some front.length)
    (decode : GtpExtensionType → Window → Except DecodeError GtpExtension) (offset : Nat) :
    ∃ h inner, ∀ rest, read decode ⟨offset, front ++ rest⟩ = .ok (h, rest, inner) := by
  obtain ⟨m, behind, hread, hextent⟩ := Format.declaredExtent?_gtp.mp extent
  have hfront := takes.length hread
  obtain ⟨h, hopt⟩ := m.optional?_takes.some_of_le behind (by omega)
  have htail := m.optional?_takes.length hopt
  obtain ⟨⟨sequenceNumber, npduNumber, nextExtType, rfl⟩, -⟩ := optional?_exact hopt
  let region : Window :=
    ⟨offset + m.fixedLength, behind.drop (if m.hasOptional then optionalSize else 0)⟩
  let h := withChain { m with sequenceNumber, npduNumber, nextExtType } decode region
  refine ⟨h, h.inner (region.after (totalSize GtpExtension.length h.extensions)),
    fun rest => ?_⟩
  have hlong : Window.read ⟨offset, front ++ rest⟩ protocol size mandatory?
      = .ok (m, behind ++ rest) := Window.read_eq_ok.mpr (takes.steady hread rest)
  -- The length field leaves what is in front of `rest`.
  have hbody : min (size + m.lengthField.toNat) (Window.length ⟨offset, front ++ rest⟩)
        - m.fixedLength
      = (behind.drop (if m.hasOptional then optionalSize else 0)).length := by
    rw [Window.length, List.length_append, fixedLength]
    omega
  rw [read_of_fixed hlong (m.optional?_takes.steady hopt rest) hbody, List.take_left,
    List.drop_left]
  rfl

/-- **An IPv6 packet is read alike whatever follows it.** -/
theorem Context.peel_ipv6_append (ctx : Context) {front : Bytes}
    (extent : Format.ipv6.declaredExtent? front = some front.length) (offset : Nat) :
    ∃ h inner, ∀ rest, ctx.peel .ipv6 ⟨offset, front ++ rest⟩ = .ok (.carrier (.ipv6 h) inner) := by
  obtain ⟨h, body, hread, hne, hextent⟩ := Format.declaredExtent?_ipv6.mp extent
  have hbody := Ipv6Header.takes.length hread
  refine ⟨h, .dispatch (.ipProtocol h.nextHeader) ⟨offset + Ipv6Header.size, body⟩,
    fun rest => ?_⟩
  have hlong : Window.read ⟨offset, front ++ rest⟩ Ipv6Header.protocol Ipv6Header.size
      Ipv6Header.read? = .ok (h, body ++ rest) :=
    Window.read_eq_ok.mpr (Ipv6Header.takes.steady hread rest)
  have hpayload : h.payloadExtent (body ++ rest).length = body.length := by
    rw [Ipv6Header.payloadExtent, if_neg hne, List.length_append]
    omega
  simp only [peel, hlong, bind, Except.bind, pure, Except.pure]
  rw [hpayload, List.take_left]

namespace Context

variable {ctx : Context}

/-- **One layer is read alike whatever follows its extent**, which is its
trailer if it has one. -/
theorem peel_append (ctx : Context) {f : Format} {front : Bytes}
    (extent : f.declaredExtent? front = some front.length) (offset : Nat) :
    ∃ (c : Carrier) (inner : Inner), c.format = f
      ∧ (∀ rest, (c.withTrailer rest).trailer = if f = .ipv6 then [] else rest)
      ∧ ∀ rest, ctx.peel f ⟨offset, front ++ rest⟩
          = .ok (.carrier (c.withTrailer rest) inner) := by
  cases f with
  | udp =>
    obtain ⟨h, inner, hread⟩ :=
      UdpHeader.read_append extent ctx.decoders.udpPorts.contains offset
    refine ⟨.udp h [], inner, rfl, fun rest => rfl, fun rest => ?_⟩
    simp only [peel, hread, bind, Except.bind]
    rfl
  | ipv6 =>
    obtain ⟨h, inner, hread⟩ := ctx.peel_ipv6_append extent offset
    exact ⟨.ipv6 h, inner, rfl, fun rest => rfl, hread⟩
  | gtp =>
    obtain ⟨h, inner, hread⟩ := GtpHeader.read_append extent ctx.decoders.gtpExtension offset
    refine ⟨.gtp h [], inner, rfl, fun rest => rfl, fun rest => ?_⟩
    simp only [peel, hread, bind, Except.bind]
    rfl
  | _ => cases extent

/-- A window over a layer of a declared extent, at any place of a buffer:
the layer and its payload are those of the extent alone, the offsets of
errors apart. -/
theorem decodeWindow_append (library : ctx.decoders.OfLibrary) {f : Format} {front : Bytes}
    (extent : f.declaredExtent? front = some front.length) :
    ∃ (c : Carrier) (payload : Option Packet), c.format = f
      ∧ (∀ rest, (c.withTrailer rest).trailer = if f = .ipv6 then [] else rest)
      ∧ ∀ offset rest, ctx.decodeWindow f ⟨offset, front ++ rest⟩
          = .ok (.ofCarrier (c.withTrailer rest) (payload.map (Packet.shift offset))) := by
  obtain ⟨c, inner, hformat, htrailer, hpeel⟩ := ctx.peel_append extent 0
  refine ⟨c, inner.payload ctx.payloads, hformat, htrailer, fun offset rest => ?_⟩
  have hzero : ctx.decodeWindow f ⟨0, front ++ rest⟩
      = .ok (.ofCarrier (c.withTrailer rest) (inner.payload ctx.payloads)) := by
    rw [decodeWindow, hpeel, ← Peeled.assemble_carrier]
    rfl
  have hshift := decodeWindow_shift library f offset ⟨0, front ++ rest⟩
  rw [hzero, Outcome.shift_ok, Packet.shift_ofCarrier, Window.shift, Nat.zero_add] at hshift
  exact hshift

/-- **Octets past the extent of a layer influence nothing but its
trailer.** Take registries put together from the decoders of this library,
any settings, and two windows that have their first `n` octets in common,
`n` being the extent that the header at their front declares, which is no
more than they have. Both are decoded, to the same header over the same
payload, with the rest of each window for its trailer; an IPv6 packet has
none. The errors that malformed layers keep are at the same places of the
payload. -/
theorem decode_of_declaredExtent (library : ctx.decoders.OfLibrary) {f : Format}
    {buf buf' : Bytes} {offset offset' length length' n : Nat}
    (inside : offset + length ≤ buf.length) (inside' : offset' + length' ≤ buf'.length)
    (extent : f.declaredExtent? (buf.clamp offset length) = some n) (hn : n ≤ length)
    (same : (buf.clamp offset length).take n = (buf'.clamp offset' length').take n) :
    ∃ (c : Carrier) (payload : Option Packet), c.format = f
      ∧ (∀ rest, (c.withTrailer rest).trailer = if f = .ipv6 then [] else rest)
      ∧ ctx.decode f buf offset length
        = .ok (.ofCarrier (c.withTrailer ((buf.clamp offset length).drop n))
            (payload.map (Packet.shift offset)))
      ∧ ctx.decode f buf' offset' length'
        = .ok (.ofCarrier (c.withTrailer ((buf'.clamp offset' length').drop n))
            (payload.map (Packet.shift offset'))) := by
  have hlength := Window.length_clamp inside
  have hcut : Window.cut f.protocol buf offset length = .ok ⟨offset, buf.clamp offset length⟩ :=
    Window.cut_eq_ok.mpr ⟨inside, rfl⟩
  have hcut' : Window.cut f.protocol buf' offset' length'
      = .ok ⟨offset', buf'.clamp offset' length'⟩ := Window.cut_eq_ok.mpr ⟨inside', rfl⟩
  rw [decode, decode, hcut, hcut']
  generalize buf.clamp offset length = bs at *
  generalize buf'.clamp offset' length' = bs' at *
  have hfront : (bs.take n).length = n := by
    rw [List.length_take]
    omega
  have hextent : f.declaredExtent? (bs.take n) = some (bs.take n).length := by
    have hwhole : f.declaredExtent? (bs.take n ++ bs.drop n) = some (bs.take n).length := by
      rw [List.take_append_drop, hfront, extent]
    exact Format.declaredExtent?_of_append hwhole
  obtain ⟨c, payload, hformat, htrailer, hdecode⟩ := decodeWindow_append library hextent
  refine ⟨c, payload, hformat, htrailer, ?_, ?_⟩
  · have h := hdecode offset (bs.drop n)
    rwa [List.take_append_drop] at h
  · have h := hdecode offset' (bs'.drop n)
    rwa [same, List.take_append_drop] at h

/-- A message over an IPv6 packet that is too short, once behind an octet of
its buffer and once at the start of it: what follows the message is its
trailer, and the error that its payload keeps is an octet further on in the
first buffer. -/
theorem decode_of_declaredExtent_gtp :
    let message : Bytes :=
      [0x34, 255, 0, 9, 0, 0, 0, 1] ++ [0, 0, 0, 0x40] ++ [1, 0x12, 0x34, 0] ++ [0x60]
    let buf := [9] ++ message ++ [1, 2, 3]
    let buf' := message ++ [7]
    Decoders.standard.OfLibrary ∧ 1 + 20 ≤ buf.length ∧ 0 + 18 ≤ buf'.length
      ∧ Format.gtp.declaredExtent? (buf.clamp 1 20) = some 17
      ∧ (buf.clamp 1 20).take 17 = (buf'.clamp 0 18).take 17
      ∧ ∃ (c : Carrier) (payload : Option Packet), c.format = .gtp
        ∧ decode {} .gtp buf 1 20
          = .ok (.ofCarrier (c.withTrailer [1, 2, 3]) (payload.map (Packet.shift 1)))
        ∧ decode {} .gtp buf' 0 18
          = .ok (.ofCarrier (c.withTrailer [7]) (payload.map (Packet.shift 0))) := by
  intro message buf buf'
  have inside : 1 + 20 ≤ buf.length := by decide
  have inside' : 0 + 18 ≤ buf'.length := by decide
  have extent : Format.gtp.declaredExtent? (buf.clamp 1 20) = some 17 := by decide
  have same : (buf.clamp 1 20).take 17 = (buf'.clamp 0 18).take 17 := by decide
  obtain ⟨c, payload, hformat, -, hdecode, hdecode'⟩ := @decode_of_declaredExtent {}
    Decoders.standard_ofLibrary .gtp buf buf' 1 0 20 18 17 inside inside' extent (by decide) same
  exact ⟨Decoders.standard_ofLibrary, inside, inside', extent, same, c, payload, hformat,
    hdecode, hdecode'⟩

end Context

end PacketCodec
