import PacketCodec.Proofs.LayerSteps
import PacketCodec.Proofs.Shift

/-!
# Decoding is local

Decoding the octets at a place in a buffer gives the same packet whatever is
around them: the octets in front only add to the offsets of errors, the
octets behind do nothing (`Context.decodeWithSteps_local`). This is said of
the decoders that are handed the whole buffer and pass it on uncut, so
nothing but the places that they compute keeps them off the octets around
their own.

The proof has two halves. Decoding by position comes to what is made of the
window alone (`Context.payloadSteps_follows`). And what is made of a window
does not depend on its position, which only enters the errors: one layer is
read alike, `Context.peel_shift`, and the layers below it are by induction,
`Context.payload_shift`.

The registries may be put together from the decoders of this library in any
way. A decoder from elsewhere is a function of its window, position
included, and may do as it likes with that.
-/

namespace PacketCodec

/-! ## Shifted packets -/

/-- The layer with the offset of the error that it keeps, if it keeps one,
`k` octets further on. -/
def Leaf.shift (k : Nat) : Leaf → Leaf
  | malformed data reason => malformed data (reason.shift k)
  | l => l

/-- **The packet with the offsets of the errors that it keeps** `k` octets
further on. Nothing else in it is a position. -/
def Packet.shift (k : Nat) : Packet → Packet
  | leaf l => leaf (l.shift k)
  | bare c => bare c
  | carry c p => carry c (p.shift k)

/-- The layer with what it carries `k` octets further on. -/
def Peeled.shift (k : Nat) : Peeled → Peeled
  | leaf l => leaf (l.shift k)
  | carrier c inner => carrier c (inner.shift k)
  | frame h body fcs => frame h (body.shift k) fcs

@[simp] theorem Leaf.toBytes_shift (k : Nat) (l : Leaf) : (l.shift k).toBytes = l.toBytes := by
  cases l <;> rfl

/-- The octets of a packet do not depend on where it was found. -/
@[simp] theorem Packet.toBytes_shift (k : Nat) (p : Packet) :
    (p.shift k).toBytes = p.toBytes := by
  induction p with
  | leaf l => exact l.toBytes_shift k
  | bare c => rfl
  | carry c p ih => rw [shift, toBytes, toBytes, ih]

theorem Packet.shift_ofCarrier (k : Nat) (c : Carrier) (p : Option Packet) :
    (ofCarrier c p).shift k = ofCarrier c (p.map (shift k)) := by
  cases p <;> rfl

/-! ## One layer -/

theorem EthernetHeader.readFrame_shift (withFcs : Bool) :
    Commutes Peeled.shift (readFrame withFcs) := by
  intro k w
  by_cases hlen : w.length < size + if withFcs then fcsSize else 0
  · have hshift : (w.shift k).length < size + if withFcs then fcsSize else 0 := hlen
    simp only [readFrame, if_pos hshift, if_pos hlen, Window.tooShort_shift, Outcome.shift_error]
  · have hshift : ¬ (w.shift k).length < size + if withFcs then fcsSize else 0 := hlen
    simp only [readFrame, if_neg hshift, if_neg hlen]
    refine Outcome.shift_bind (w.read_shift k _ _ _) ?_
    rintro ⟨h, rest⟩
    simp [Peeled.shift]

theorem Peeled.assemble_shift {payload : Selector → Window → Option Packet} {k : Nat}
    (h : ∀ key w, payload key (w.shift k) = (payload key w).map (Packet.shift k)) (l : Peeled) :
    (l.shift k).assemble payload = (l.assemble payload).shift k := by
  cases l with
  | leaf l => rfl
  | carrier c inner =>
    cases inner with
    | nothing => rfl
    | kept data => rfl
    | dispatch key w =>
      show Packet.ofCarrier c (payload key (w.shift k)) = _
      rw [h, ← Packet.shift_ofCarrier]
      rfl
  | frame header body fcs =>
    show header.frame fcs body.bytes (payload (.etherType header.etherType) (body.shift k)) = _
    rw [h, assemble]
    cases payload (.etherType header.etherType) body with
    | none => rfl
    | some p =>
      simp only [Option.map_some, EthernetHeader.frame, Packet.toBytes_shift]
      split <;> rfl

namespace Context

variable {ctx : Context}

/-- **One layer is read alike** wherever its window is. -/
theorem peel_shift (h : ctx.decoders.OfLibrary) (f : Format) :
    Commutes Peeled.shift (ctx.peel f) := by
  have hipv6 : Positionless ctx.decoders.ipv6Option := fun k w =>
    Ipv6Option.decode_shift (h.ipv6Options.get (w.bytes.headD 0)) k w
  have hndp : Positionless ctx.decoders.ndpOption := fun k w =>
    NdpOption.decode_shift (h.ndpOptions.get (w.bytes.headD 0)) k w
  have hgtp (t : GtpExtensionType) : Positionless (ctx.decoders.gtpExtension t) := fun k w =>
    GtpExtension.decode_shift (h.gtpExtensions.get t) k w
  intro k w
  cases f with
  | ethernet => exact EthernetHeader.readFrame_shift false k w
  | arp => exact Outcome.shift_bind (w.read_shift k _ _ _) fun _ => rfl
  | ipv6 =>
    refine Outcome.shift_bind (w.read_shift k _ _ _) ?_
    rintro ⟨header, rest⟩
    simp [Peeled.shift]
  | hopByHop => exact Outcome.shift_bind (OptionsHeader.read_shift _ hipv6 k w) fun _ => rfl
  | destination => exact Outcome.shift_bind (OptionsHeader.read_shift _ hipv6 k w) fun _ => rfl
  | routing => exact Outcome.shift_bind (RoutingHeader.read_shift k w) fun _ => rfl
  | fragment => exact Outcome.shift_bind (FragmentHeader.read_shift k w) fun _ => rfl
  | icmpv6 => exact Outcome.shift_bind (Icmpv6Header.read_shift k w) fun _ => rfl
  | echo => exact Outcome.shift_bind (EchoHeader.read_shift k w) fun _ => rfl
  | solicitation =>
    exact Outcome.shift_bind (SolicitationHeader.read_shift hndp k w) fun _ => rfl
  | advertisement =>
    exact Outcome.shift_bind (AdvertisementHeader.read_shift hndp k w) fun _ => rfl
  | udp => exact Outcome.shift_bind (UdpHeader.read_shift _ k w) fun _ => rfl
  | sctp => exact Outcome.shift_bind (SctpHeader.read_shift k w) fun _ => rfl
  | gtp => exact Outcome.shift_bind (GtpHeader.read_shift hgtp k w) fun _ => rfl

/-! ## Layers below -/

/-- **A payload is decoded alike** wherever its window is. The induction is
over the layers that are still allowed. -/
theorem payload_shift (h : ctx.decoders.OfLibrary) (k left : Nat) (key : Selector) (w : Window) :
    ctx.payload left key (w.shift k) = (ctx.payload left key w).map (Packet.shift k) := by
  induction left generalizing key w with
  | zero =>
    unfold payload
    rw [Window.bytes_shift]
    split <;> rfl
  | succ left ih =>
    unfold payload
    rw [Window.bytes_shift]
    split
    · rfl
    · -- Only a decoder from elsewhere could tell the two windows apart.
      have hnative := h.native key
      cases hd : ctx.decoders.select key with
      | unknown => rfl
      | custom name decode =>
        rw [hd] at hnative
        exact hnative.elim
      | format f =>
        simp only [PacketDecoder.run]
        rw [peel_shift h f k w, Outcome.shift_map (Peeled.assemble_shift ih)]
        cases (ctx.peel f w).map (Peeled.assemble (ctx.payload left)) with
        | ok p => rfl
        | error e => rfl

theorem decodeWindow_shift (h : ctx.decoders.OfLibrary) (f : Format) :
    Commutes Packet.shift (ctx.decodeWindow f) := by
  intro k w
  unfold decodeWindow
  rw [peel_shift h f k w]
  exact Outcome.shift_map (Peeled.assemble_shift (payload_shift h k _)) _

theorem decodeFcsWindow_shift (h : ctx.decoders.OfLibrary) :
    Commutes Packet.shift ctx.decodeFcsWindow := by
  intro k w
  unfold decodeFcsWindow
  rw [EthernetHeader.readFrame_shift true k w]
  exact Outcome.shift_map (Peeled.assemble_shift (payload_shift h k _)) _

end Context

/-! ## Windows of a buffer -/

theorem Bytes.clamp_middle (front w back : Bytes) :
    (front ++ w ++ back).clamp front.length w.length = w := by
  rw [clamp, List.append_assoc, List.drop_left, List.take_left]

/-- A window inside a buffer is the string alone, further on. -/
theorem Window.cut_middle (protocol : String) (front w back : Bytes) :
    cut protocol (front ++ w ++ back) front.length w.length
      = .ok (shift front.length ⟨0, w⟩) := by
  rw [cut_eq_ok, Bytes.clamp_middle]
  refine ⟨by simp only [List.length_append]; omega, ?_⟩
  rw [shift, Nat.zero_add]

/-- What is decoded in the middle of a buffer. -/
theorem Context.decodeWith_middle {ctx : Context} (h : ctx.decoders.OfLibrary) {d : PacketDecoder}
    (hd : d.Native) (front w back : Bytes) :
    ctx.decodeWith d (front ++ w ++ back) front.length w.length
      = Outcome.shift front.length (Packet.shift front.length) (ctx.decodeWith d w 0 w.length) := by
  cases d with
  | format f =>
    rw [decodeWith, decodeWith, decode, decode, Window.cut_middle, Window.cut_alone]
    exact decodeWindow_shift h f front.length ⟨0, w⟩
  | unknown =>
    rw [decodeWith, decodeWith, Bytes.clamp_middle, Bytes.clamp, List.drop_zero, List.take_length]
    rfl
  | custom name decode => exact hd.elim

theorem Context.decodeFcs_middle {ctx : Context} (h : ctx.decoders.OfLibrary)
    (front w back : Bytes) :
    ctx.decodeFcs (front ++ w ++ back) front.length w.length
      = Outcome.shift front.length (Packet.shift front.length) (ctx.decodeFcs w 0 w.length) := by
  rw [decodeFcs, decodeFcs, Window.cut_middle, Window.cut_alone]
  exact decodeFcsWindow_shift h front.length ⟨0, w⟩

/-! ## Places in a buffer -/

/-- **A payload is decoded alike** at a place in a string and at the same
place of that string in the middle of a buffer. -/
theorem Context.payloadSteps_middle {ctx : Context} (h : ctx.decoders.OfLibrary) (left : Nat)
    (key : Selector) (front w back : Bytes) {offset length : Nat}
    (hfits : offset + length ≤ w.length) :
    ctx.payloadSteps left key (front ++ w ++ back) (front.length + offset) length
      = (ctx.payloadSteps left key w offset length).map
          (Option.map (Packet.shift front.length)) := by
  have hregion : (front ++ w ++ back).region (front.length + offset) length
      = (w.region offset length).shift front.length := by
    rw [Bytes.region, ← Bytes.clamp_clamp _ _ hfits, Bytes.clamp_middle, Window.shift,
      Nat.add_comm]
  have hfits' : front.length + offset + length ≤ (front ++ w ++ back).length := by
    simp only [List.length_append]
    omega
  rw [payloadSteps_follows ctx left key _ _ _ hfits', payloadSteps_follows ctx left key _ _ _ hfits,
    hregion, payload_shift h]
  rfl

/-- **Decoding is local.** With registries put together from the decoders
of this library and any settings, decoding by position finds the same at
`w` between `front` and `back` as it finds at `w` alone, but for the offsets
of errors, which are `front.length` more: of the error that is returned, and
of those that malformed layers keep. With a frame check sequence the same
holds of a frame. -/
theorem Context.decodeWithSteps_local {ctx : Context} (h : ctx.decoders.OfLibrary)
    {d : PacketDecoder} (hd : d.Native) (front w back : Bytes) :
    (∃ outcome,
      (ctx.decodeWithSteps d w 0 w.length).run = some outcome
        ∧ ctx.decodeWith d w 0 w.length = outcome
        ∧ (ctx.decodeWithSteps d (front ++ w ++ back) front.length w.length).run
            = some (Outcome.shift front.length (Packet.shift front.length) outcome)
        ∧ ctx.decodeWith d (front ++ w ++ back) front.length w.length
            = Outcome.shift front.length (Packet.shift front.length) outcome)
      ∧ ∃ outcome,
        (ctx.decodeFcsSteps w 0 w.length).run = some outcome
          ∧ ctx.decodeFcs w 0 w.length = outcome
          ∧ (ctx.decodeFcsSteps (front ++ w ++ back) front.length w.length).run
              = some (Outcome.shift front.length (Packet.shift front.length) outcome)
          ∧ ctx.decodeFcs (front ++ w ++ back) front.length w.length
              = Outcome.shift front.length (Packet.shift front.length) outcome := by
  have hwith := decodeWith_middle h hd front w back
  have hfcs := decodeFcs_middle h front w back
  refine ⟨⟨_, ?_, rfl, ?_, hwith⟩, ⟨_, ?_, rfl, ?_, hfcs⟩⟩
  · rw [decodeWithSteps_eq, Steps.run_liftM]
  · rw [decodeWithSteps_eq, Steps.run_liftM, hwith]
  · rw [decodeFcsSteps_eq, Steps.run_liftM]
  · rw [decodeFcsSteps_eq, Steps.run_liftM, hfcs]

/-- An IPv6 packet over a datagram that is too short, which is assigned to
another number as well: the error that its layer keeps is three octets
further on. -/
theorem Context.decodeWithSteps_local_malformed :
    let decoders : Decoders :=
      { Decoders.standard with
        ipProtocols := Decoders.standard.ipProtocols.register 99 (.format .udp) }
    let ctx : Context := { decoders }
    let w : Bytes := [0x60, 0, 0, 0, 0, 4, 99, 64] ++ List.replicate 32 7 ++ [1, 2, 3, 4]
    decoders.OfLibrary ∧ (PacketDecoder.format .ipv6).Native
      ∧ ∃ outcome, outcome.isOk
        ∧ (ctx.decodeWithSteps (.format .ipv6) w 0 44).run = some outcome
        ∧ ctx.decodeWith (.format .ipv6) w 0 44 = outcome
        ∧ (ctx.decodeWithSteps (.format .ipv6) ([1, 2, 3] ++ w ++ [9]) 3 44).run
          = some (Outcome.shift 3 (Packet.shift 3) outcome) := by
  intro decoders ctx w
  have hlibrary : decoders.OfLibrary :=
    { Decoders.standard_ofLibrary with
      ipProtocols := .register Decoders.standard_ofLibrary.ipProtocols trivial }
  obtain ⟨⟨outcome, hrun, hdecode, hfurther, -⟩, -⟩ :=
    @decodeWithSteps_local ctx hlibrary (.format .ipv6) trivial [1, 2, 3] w [9]
  refine ⟨hlibrary, trivial, outcome, ?_, hrun, hdecode, hfurther⟩
  rw [← hdecode]
  decide +kernel

end PacketCodec
