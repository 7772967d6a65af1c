import PacketCodec.Proofs.Acceptance
import PacketCodec.Proofs.Admissible
import PacketCodec.Proofs.Frame
import PacketCodec.Proofs.InternetSum
import PacketCodec.Proofs.Verdict

/-!
# Corrupted messages

An octet of a string is the high or the low half of one word, so changing
it changes the sum of the words by at most 255 times 256, which is less
than the 65535 by which sums have to differ for their checksums to agree
(`PseudoHeader.checksum_set_ne_zero`). Wherever the octet is, in the
checksum itself too, a message that verifies does not verify any more.

That is about octets. It is also about messages because an ICMPv6 message
is decoded to the octets it was read from whatever its type is: each of the
bodies that a type can select is written back as it was read, or is kept
(`Context.toBytes_decodeWindow_icmpv6`). Changing the type sends the body
to another decoder, and makes no difference to the verdict.
-/

namespace PacketCodec

/-! ## Sums -/

namespace Checksum

/-- What an octet counts for, by its position. -/
def octetWeight (i : Nat) : Nat := if i % 2 = 0 then 256 else 1

theorem octetWeight_zero : octetWeight 0 = 256 := rfl

theorem octetWeight_one : octetWeight 1 = 1 := rfl

theorem octetWeight_add_two (i : Nat) : octetWeight (i + 2) = octetWeight i := by
  rw [octetWeight, octetWeight, Nat.add_mod_right]

/-- **Changing an octet** changes the sum of the words by its weight times
the change. -/
theorem wordSum_set (bs : Bytes) (b : UInt8) {i : Nat} (h : i < bs.length) :
    wordSum (bs.set i b) + octetWeight i * bs[i].toNat
      = wordSum bs + octetWeight i * b.toNat := by
  fun_induction wordSum bs generalizing i with
  | case1 => exact absurd h (Nat.not_lt_zero i)
  | case2 a =>
    obtain rfl : i = 0 := by simpa using h
    simp only [List.set_cons_zero, wordSum, List.getElem_cons_zero, octetWeight_zero]
    omega
  | case3 a a' rest ih =>
    obtain _ | _ | i := i
    · simp only [List.set_cons_zero, wordSum, List.getElem_cons_zero, octetWeight_zero]
      omega
    · simp only [Nat.zero_add, List.set_cons_succ, List.set_cons_zero, wordSum,
        List.getElem_cons_succ, List.getElem_cons_zero, octetWeight_one]
      omega
    · have hrest := ih (i := i) (by simpa using h)
      simp only [List.set_cons_succ, wordSum, List.getElem_cons_succ, octetWeight_add_two]
      omega

/-- Sums that come to all ones differ by a multiple of 65535. -/
theorem folded_eq_ones_iff {n : Nat} : folded n = 65535 ↔ n ≠ 0 ∧ n % 65535 = 0 := by
  unfold folded
  split <;> omega

end Checksum

open Checksum

/-- **One changed octet** does not leave a checksum of zero. -/
theorem PseudoHeader.checksum_set_ne_zero {ph : PseudoHeader} {bs : Bytes}
    (zero : ph.checksum [bs] = 0) {i : Nat} (hi : i < bs.length) {b : UInt8} (hb : b ≠ bs[i]) :
    ph.checksum [bs.set i b] ≠ 0 := by
  have hne : b.toNat ≠ bs[i].toNat := fun h => hb (UInt8.toNat_inj.mp h)
  have hlt := b.toNat_lt
  have hlt' := bs[i].toNat_lt
  have hset := wordSum_set bs b hi
  rw [checksum_eq_zero_iff, List.flatten_cons, List.flatten_nil, List.append_nil,
    folded_eq_ones_iff] at zero
  rw [Ne, checksum_eq_zero_iff, List.flatten_cons, List.flatten_nil, List.append_nil,
    folded_eq_ones_iff]
  rw [octetWeight] at hset
  split at hset <;> omega

namespace Icmpv6Header

theorem verifies_iff (src dst : Ipv6Addr) (message : Bytes) :
    verifies src dst message = true
      ↔ ∃ ph, PseudoHeader.make? (.v6 src) (.v6 dst) IpProtocol.icmpv6 message.length = some ph
          ∧ ph.checksum [message] = 0 := by
  rw [verifies, beq_iff_eq, checksum?, Option.map_eq_some_iff, List.flatten_cons,
    List.flatten_nil, List.append_nil]

/-- **A message with one octet changed** does not verify if it did. -/
theorem verifies_set {src dst : Ipv6Addr} {message : Bytes} (h : verifies src dst message = true)
    {i : Nat} (hi : i < message.length) {b : UInt8} (hb : b ≠ message[i]) :
    verifies src dst (message.set i b) = false := by
  obtain ⟨ph, hph, hzero⟩ := (verifies_iff src dst message).mp h
  rw [← Bool.not_eq_true, verifies_iff, List.length_set]
  rintro ⟨ph', hph', hzero'⟩
  cases hph.symm.trans hph'
  exact PseudoHeader.checksum_set_ne_zero hzero hi hb hzero'

theorem wordSum_toBytes (h : Icmpv6Header) (body : Bytes) :
    wordSum (h.toBytes ++ body)
      = h.icmpType.toNat * 256 + h.code.toNat + h.checksum.toNat + wordSum body := by
  rw [toBytes, List.append_assoc, List.cons_append, List.cons_append, List.nil_append, wordSum,
    wordSum_be16]
  omega

end Icmpv6Header

/-! ## Messages keep their octets -/

/-- A layer is written as its window when what it carries is. -/
theorem Peeled.toBytes_assemble {payload : Selector → Window → Option Packet} {l : Peeled}
    (h : ∀ c key w, l = .carrier c (.dispatch key w) → payloadBytes (payload key w) = w.bytes) :
    (l.assemble payload).toBytes = l.wire := by
  cases l with
  | leaf l => rfl
  | carrier c inner =>
    have hinner : payloadBytes (inner.payload payload) = inner.bytes := by
      cases inner with
      | nothing => rfl
      | kept data => rfl
      | dispatch key w => exact h c key w rfl
    rw [assemble_carrier, Packet.toBytes_ofCarrier, hinner, wire]
  | frame header body fcs => exact header.toBytes_frame fcs body.bytes _

/-- **A decoder that keeps octets**: whatever decodes the payloads, its
packets are written as the windows they are read from. -/
def PacketDecoder.Keeps (ctx : Context) (d : PacketDecoder) : Prop :=
  ∀ payload left w p, d.run ctx payload left w = .ok p → p.toBytes = w.bytes

theorem PacketDecoder.keeps_unknown (ctx : Context) : unknown.Keeps ctx := by
  rintro payload left w p ⟨⟩
  rfl

/-- A format that hands nothing on keeps octets. -/
theorem PacketDecoder.keeps_format {ctx : Context} (exact : ctx.decoders.Exact) {f : Format}
    (arp : f ≠ .arp) (ipv6 : f ≠ .ipv6)
    (ends : ∀ c key v w, ctx.peel f w ≠ .ok (.carrier c (.dispatch key v))) :
    (format f).Keeps ctx := by
  intro payload left w p h
  rw [run, map_eq_ok] at h
  obtain ⟨l, hl, rfl⟩ := h
  rw [Peeled.toBytes_assemble fun c key v hc => absurd (hc ▸ hl) (ends c key v w)]
  exact Context.peel_wire exact arp ipv6 hl

theorem Context.payloadBytes_of_keeps {ctx : Context} {key : Selector}
    (h : (ctx.decoders.select key).Keeps ctx) (left : Nat) (w : Window) :
    payloadBytes (ctx.payload left key w) = w.bytes := by
  have hempty : w.bytes.isEmpty = true → payloadBytes none = w.bytes :=
    fun h => (List.isEmpty_iff.mp h).symm
  cases left with
  | zero =>
    rw [payload]
    split
    · exact hempty ‹_›
    · rfl
  | succ left =>
    rw [payload]
    split
    · exact hempty ‹_›
    · split
      · exact h _ _ _ _ ‹_›
      · rfl

/-- **The bodies of ICMPv6 messages keep their octets**, whatever the type
is. -/
theorem Context.keeps_icmpv6Type (settings : Settings) (t : Icmpv6Type) :
    (Decoders.standard.select (.icmpv6Type t)).Keeps ⟨.standard, settings⟩ := by
  have hleaf : ∀ f, f = .solicitation ∨ f = .advertisement →
      (PacketDecoder.format f).Keeps ⟨.standard, settings⟩ := by
    rintro f (rfl | rfl)
    all_goals
      refine PacketDecoder.keeps_format Decoders.standard_exact (by decide) (by decide) fun c key v w h => ?_
      simp only [peel, bind_eq_ok, return_eq_ok] at h
      obtain ⟨_, -, h⟩ := h
      cases h
  have hecho : (PacketDecoder.format .echo).Keeps ⟨.standard, settings⟩ := by
    refine PacketDecoder.keeps_format Decoders.standard_exact (by decide) (by decide) fun c key v w h => ?_
    simp only [peel, bind_eq_ok, return_eq_ok, Prod.exists, Peeled.carrier.injEq] at h
    obtain ⟨header, inner, hread, -, rfl⟩ := h
    exact EchoHeader.read_ne_dispatch hread
  have hall : Decoders.standard.icmpv6Types.All fun _ d => d.Keeps ⟨.standard, settings⟩ :=
    .register (.register (.register (.register (.empty fun _ => PacketDecoder.keeps_unknown _)
      hecho) hecho) (hleaf _ (.inl rfl))) (hleaf _ (.inr rfl))
  exact hall.get t

/-- **An ICMPv6 message keeps its octets.** -/
theorem Context.toBytes_decodeWindow_icmpv6 {settings : Settings} {w : Window} {p : Packet}
    (h : decodeWindow ⟨.standard, settings⟩ .icmpv6 w = .ok p) :
    p.toBytes = w.bytes ∧ ∃ header payload, p.carrier? = some (.icmpv6 header, payload) := by
  rw [decodeWindow, map_eq_ok] at h
  obtain ⟨l, hl, rfl⟩ := h
  have hwire := peel_wire Decoders.standard_exact (by decide) (by decide) hl
  simp only [peel, Icmpv6Header.read, bind_eq_ok, return_eq_ok, Prod.exists] at hl
  obtain ⟨header, inner, ⟨_, _, _, hinner⟩, rfl⟩ := hl
  cases hinner
  refine ⟨?_, header, _, by rw [Peeled.assemble_carrier, Packet.carrier?_ofCarrier]⟩
  rw [Peeled.toBytes_assemble, hwire]
  rintro c key v hc
  cases hc
  exact payloadBytes_of_keeps (keeps_icmpv6Type settings header.icmpType) _ _

/-- **A string with room for a header** is decoded as a message, and the
verdict on it is about the string. -/
theorem Context.messageVerifies?_decode (settings : Settings) {buf : Bytes} (h : 4 ≤ buf.length) :
    ∃ p, decode ⟨.standard, settings⟩ .icmpv6 buf 0 buf.length = .ok p
      ∧ ∀ src dst, p.messageVerifies? src dst = some (Icmpv6Header.verifies src dst buf) := by
  have hok : (decode ⟨.standard, settings⟩ .icmpv6 buf 0 buf.length).isOk = true := by
    rw [decode, Window.cut_alone]
    show (decodeWindow ⟨.standard, settings⟩ .icmpv6 ⟨0, buf⟩).isOk = true
    rw [decodeWindow, isOk_map, isOk_peel]
    exact h
  obtain ⟨p, hp⟩ := exists_of_isOk hok
  refine ⟨p, hp, fun src dst => ?_⟩
  rw [decode, Window.cut_alone] at hp
  obtain ⟨hbytes, header, payload, hcarrier⟩ := toBytes_decodeWindow_icmpv6 hp
  rw [Packet.messageVerifies?, hcarrier]
  exact congrArg (fun bs => some (Icmpv6Header.verifies src dst bs)) hbytes

/-! ## Drafts -/

/-- To have its checksum corrected, a message needs two addresses. -/
theorem Icmpv6Draft.addresses_of_violations {d : Icmpv6Draft} (correct : d.correctChecksum = true)
    (hd : d.violations = []) : ∃ src dst, d.src = some src ∧ d.dst = some dst := by
  simp only [violations, correct, if_true, List.append_eq_nil_iff,
    Violation.ifMissing_eq_nil] at hd
  obtain ⟨-, ⟨src, hsrc⟩, dst, hdst⟩ := hd
  exact ⟨src, dst, hsrc, hdst⟩

/-- **A corrected checksum** is that of the message it is put into. A
message that is too long for one has no header. -/
theorem Icmpv6Draft.verifies_header {d : Icmpv6Draft} (correct : d.correctChecksum = true)
    {src dst : Ipv6Addr} (hsrc : d.src = some src) (hdst : d.dst = some dst) {body : Bytes}
    {h : Icmpv6Header} (hh : d.header body = .ok h) :
    Icmpv6Header.verifies src dst (h.toBytes ++ body) = true := by
  simp only [header, correct, if_true, bind_eq_ok, BuildError.check_eq_ok,
    Violation.ifOver_eq_nil, return_eq_ok, hsrc, hdst, Option.getD_some] at hh
  obtain ⟨-, hlength, rfl⟩ := hh
  -- The length check leaves room for the length field of the pseudo-header.
  have hfits : Icmpv6Header.size + body.length < UInt32.size :=
    Nat.lt_of_le_pred (by decide) hlength
  have hmake : (PseudoHeader.make? (.v6 src) (.v6 dst) IpProtocol.icmpv6
      (Icmpv6Header.size + body.length)).isSome :=
    (PseudoHeader.isSome_make?_iff _ _).mpr ⟨rfl, hfits⟩
  obtain ⟨ph, hph⟩ := Option.isSome_iff_exists.mp hmake
  have hflatten : [(d.headerWith 0).toBytes, body].flatten = (d.headerWith 0).toBytes ++ body := by
    rw [List.flatten_cons, List.flatten_cons, List.flatten_nil, List.append_nil]
  have hsum : Icmpv6Header.checksum? src dst [(d.headerWith 0).toBytes, body]
      = some (ph.checksum [(d.headerWith 0).toBytes, body]) := by
    rw [Icmpv6Header.checksum?, hflatten, List.length_append, (d.headerWith 0).length_toBytes, hph]
    rfl
  -- The checksum that is put in is the only word that changes.
  have hstored : ∀ sum : UInt16, wordSum ((d.headerWith sum).toBytes ++ body)
      = wordSum [(d.headerWith 0).toBytes, body].flatten + sum.toNat := fun sum => by
    rw [hflatten, Icmpv6Header.wordSum_toBytes, Icmpv6Header.wordSum_toBytes]
    simp only [headerWith, UInt16.toNat_zero]
    omega
  rw [hsum, Option.getD_some, Icmpv6Header.verifies_iff, List.length_append,
    Icmpv6Header.length_toBytes]
  exact ⟨ph, hph, PseudoHeader.checksum_eq_zero_of_stored (hstored _)⟩

/-- **Corrected messages and corrupted ones.** A message built with its
checksum corrected, over any body, verifies between the addresses it was
built for, and so does what it is decoded to. With any one of its octets
changed, in the type, the code, the checksum or the body, it is still
decoded, and does not verify. -/
theorem Draft.messageVerifies_build_corrected {d : Icmpv6Draft}
    (correct : d.correctChecksum = true) {payload : Option Draft} {p : Packet}
    (h : (ofCarrier (.icmpv6 d) payload).build = .ok p) (settings : Settings) :
    ∃ src dst, d.src = some src ∧ d.dst = some dst
      ∧ p.messageVerifies? src dst = some true
      ∧ (∃ q, Context.decode ⟨.standard, settings⟩ .icmpv6 p.toBytes 0 p.toBytes.length = .ok q
          ∧ q.messageVerifies? src dst = some true)
      ∧ ∀ i (hi : i < p.toBytes.length) b, b ≠ p.toBytes[i] →
          ∃ q, Context.decode ⟨.standard, settings⟩ .icmpv6 (p.toBytes.set i b) 0 p.toBytes.length
              = .ok q
            ∧ q.messageVerifies? src dst = some false := by
  obtain ⟨hd, below, carrier, -, hcarrier, rfl⟩ := build_ofCarrier_eq_ok.mp h
  obtain ⟨src, dst, hsrc, hdst⟩ := Icmpv6Draft.addresses_of_violations correct hd
  rw [CarrierDraft.complete, map_eq_ok] at hcarrier
  obtain ⟨header, hheader, rfl⟩ := hcarrier
  have hbytes : (Packet.ofCarrier (.icmpv6 header) below).toBytes
      = header.toBytes ++ payloadBytes below :=
    Packet.toBytes_ofCarrier_of_trailer rfl rfl below
  have hvalid := Icmpv6Draft.verifies_header correct hsrc hdst hheader
  rw [← hbytes] at hvalid
  have hsize : 4 ≤ (Packet.ofCarrier (.icmpv6 header) below).toBytes.length := by
    rw [hbytes, List.length_append, header.length_toBytes]
    exact Nat.le_add_right _ _
  refine ⟨src, dst, hsrc, hdst, ?_, ?_, fun i hi b hb => ?_⟩
  · rw [Packet.messageVerifies?, Packet.carrier?_ofCarrier]
    exact congrArg some hvalid
  · obtain ⟨q, hq, hverdict⟩ := Context.messageVerifies?_decode settings hsize
    exact ⟨q, hq, by rw [hverdict, hvalid]⟩
  · rw [← List.length_set (i := i) (a := b)] at hsize
    obtain ⟨q, hq, hverdict⟩ := Context.messageVerifies?_decode settings hsize
    rw [List.length_set] at hq
    exact ⟨q, hq, by rw [hverdict, Icmpv6Header.verifies_set hvalid hi hb]⟩

/-- **An echo request with an odd body**: with its type changed to that of
a neighbor solicitation, for which it is too short, it is still decoded and
does not verify. -/
theorem Draft.messageVerifies_build_echo :
    let src : Ipv6Addr := ⟨[0x20, 0x01, 0x0d, 0xb8] ++ Bytes.zeros 11 ++ [1], rfl⟩
    let dst : Ipv6Addr := ⟨[0x20, 0x01, 0x0d, 0xb8] ++ Bytes.zeros 11 ++ [2], rfl⟩
    let d : Icmpv6Draft :=
      { icmpType := some Icmpv6Type.echoRequest, code := some 0, src := some src, dst := some dst,
        correctChecksum := true }
    let echo : EchoDraft := { identifier := some 1, sequenceNumber := some 2 }
    ∃ p, (ofCarrier (.icmpv6 d)
          (some (ofCarrier (.echo echo) (some (.unknown [1, 2, 3]))))).build = .ok p
      ∧ p.messageVerifies? src dst = some true
      ∧ p.toBytes[0]? = some Icmpv6Type.echoRequest
      ∧ ∃ q, Context.decode {} .icmpv6 (p.toBytes.set 0 Icmpv6Type.neighborSolicitation) 0
            p.toBytes.length = .ok q
          ∧ q.messageVerifies? src dst = some false := by
  intro src dst d echo
  obtain ⟨p, hp⟩ : ∃ p, (ofCarrier (.icmpv6 d)
      (some (ofCarrier (.echo echo) (some (.unknown [1, 2, 3]))))).build = .ok p := ⟨_, rfl⟩
  have hfirst : p.toBytes[0]? = some Icmpv6Type.echoRequest := by
    cases hp
    rfl
  obtain ⟨hlength, hoctet⟩ := List.getElem?_eq_some_iff.mp hfirst
  obtain ⟨_, _, hsrc, hdst, hvalid, -, haltered⟩ := messageVerifies_build_corrected rfl hp {}
  cases hsrc
  cases hdst
  exact ⟨p, hp, hvalid, hfirst, haltered 0 hlength _ (by rw [hoctet]; decide)⟩

end PacketCodec
