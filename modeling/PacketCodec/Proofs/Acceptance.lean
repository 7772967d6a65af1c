import PacketCodec.Proofs.LayerSteps

/-!
# When decoding succeeds

A decoder fails when its own fixed structure is not there, and for nothing
else: what a layer contains, however it is decoded, never makes it fail.
`Format.Fits` says for each format what has to be there. It is about the
length of the window but for two formats, a routing header, whose length
field and type are looked at, and a GTP message, whose flags call for an
optional part.

One layer is read exactly when the format fits (`Context.isOk_peel`). The
chain below it is decoded by a function that does not fail, so the same
holds of a whole packet (`Context.decode_isOk_iff`), with any decoders in
the registries.
-/

namespace PacketCodec

/-! ## Outcomes -/

section Outcome

variable {ε α β : Type}

theorem isOk_ok (a : α) : (Except.ok a : Except ε α).isOk = true := rfl

theorem isOk_error (e : ε) : (Except.error e : Except ε α).isOk = false := rfl

theorem isOk_map (x : Except ε α) (f : α → β) : (x.map f).isOk = x.isOk := by
  cases x <;> rfl

/-- Going on with something that succeeds. -/
theorem isOk_bind {x : Except ε α} {f : α → Except ε β} (h : ∀ a, (f a).isOk = true) :
    (x >>= f).isOk = x.isOk := by
  cases x with
  | error e => rfl
  | ok a => exact h a

end Outcome

/-- A header of a fixed layout is read off a window that is long enough. -/
theorem Window.isOk_read {α : Type} {n : Nat} {front? : Bytes → Option (α × Bytes)}
    (takes : Bytes.Takes n front?) (w : Window) (protocol : String) (need : Nat) :
    (w.read protocol need front?).isOk ↔ n ≤ w.length := by
  rw [length, ← takes.isSome_iff w.bytes, read]
  cases front? w.bytes <;> simp [isOk_ok, isOk_error]

/-! ## Fixed structures -/

/-- **The fixed structure of a format**: what a byte string needs to have
to be decoded as it. -/
def Format.Fits (f : Format) (bs : Bytes) : Prop :=
  match f with
  | ethernet => 14 ≤ bs.length
  | arp => 28 ≤ bs.length
  | ipv6 => 40 ≤ bs.length
  | hopByHop => 2 ≤ bs.length
  | destination => 2 ≤ bs.length
  | routing =>
    4 ≤ bs.length ∧ ((bs.getD 1 0).toNat + 1) * 8 ≤ bs.length
      ∧ (bs.getD 2 0 = 0 → (bs.getD 1 0).toNat % 2 = 0)
  | fragment => 8 ≤ bs.length
  | icmpv6 => 4 ≤ bs.length
  | echo => 4 ≤ bs.length
  | solicitation => 20 ≤ bs.length
  | advertisement => 20 ≤ bs.length
  | udp => 8 ≤ bs.length
  | sctp => 12 ≤ bs.length
  | gtp => 8 ≤ bs.length ∧ ((bs.getD 0 0).toNat % 8 ≠ 0 → 12 ≤ bs.length)

instance : (f : Format) → (bs : Bytes) → Decidable (f.Fits bs)
  | .ethernet, bs | .arp, bs | .ipv6, bs | .hopByHop, bs | .destination, bs | .fragment, bs
  | .icmpv6, bs | .echo, bs | .solicitation, bs | .advertisement, bs | .udp, bs | .sctp, bs =>
    inferInstanceAs (Decidable (_ ≤ bs.length))
  | .routing, bs =>
    inferInstanceAs (Decidable (4 ≤ bs.length ∧ ((bs.getD 1 0).toNat + 1) * 8 ≤ bs.length
      ∧ (bs.getD 2 0 = 0 → (bs.getD 1 0).toNat % 2 = 0)))
  | .gtp, bs =>
    inferInstanceAs (Decidable (8 ≤ bs.length ∧ ((bs.getD 0 0).toNat % 8 ≠ 0 → 12 ≤ bs.length)))

/-- An odd length leaves half an address at the end of a source route. -/
example : Format.routing.Fits ([59, 1, 2, 0] ++ Bytes.zeros 12)
    ∧ ¬ Format.routing.Fits ([59, 1, 0, 0] ++ Bytes.zeros 12) := by decide

/-! ## One layer -/

theorem EthernetHeader.isOk_readFrame (withFcs : Bool) (w : Window) :
    (readFrame withFcs w).isOk ↔ size + (if withFcs then fcsSize else 0) ≤ w.length := by
  rw [readFrame]
  by_cases h : w.length < size + if withFcs then fcsSize else 0
  · simp only [if_pos h, isOk_error, Bool.false_eq_true, false_iff]
    omega
  · rw [if_neg h, isOk_bind (fun _ => rfl), Window.isOk_read takes]
    omega

theorem OptionsHeader.isOk_read (kind : OptionsKind)
    (decode : Window → Except DecodeError Ipv6Option) (w : Window) :
    (read kind decode w).isOk ↔ 2 ≤ w.length := by
  rw [read, Window.length]
  split
  · next hw => simp [hw, isOk_ok]
  · next hw =>
    simp only [isOk_error, Bool.false_eq_true, false_iff]
    exact Nat.not_le_of_lt (Bytes.length_lt_two hw)

theorem RoutingHeader.isOk_readData (w : Window) (hdrExtLen : UInt8) (t : RoutingType)
    {front : Bytes} (hfront : front.length = extensionExtent hdrExtLen - 4) :
    (readData w hdrExtLen t front).isOk ↔ (t = 0 → hdrExtLen.toNat % 2 = 0) := by
  have hodd : hdrExtLen % 2 = 1 ↔ hdrExtLen.toNat % 2 = 1 := by
    rw [← UInt8.toNat_inj, UInt8.toNat_mod]
    rfl
  unfold readData
  split
  · next ht =>
    split
    · next h =>
      rw [hodd] at h
      simp only [isOk_error, Bool.false_eq_true, false_iff]
      intro h'
      have := h' ht
      omega
    · next h =>
      rw [hodd] at h
      obtain ⟨route, hroute⟩ := exists_route hdrExtLen hfront
      rw [hroute]
      simp only [isOk_ok, true_iff]
      intro _
      omega
  · next ht =>
    simp only [isOk_ok, true_iff]
    intro h
    exact absurd h ht

theorem RoutingHeader.isOk_read (w : Window) :
    (read w).isOk ↔ Format.routing.Fits w.bytes := by
  rw [read, Format.Fits]
  split
  · next nextHeader hdrExtLen t segmentsLeft rest hw =>
    rw [hw]
    have hextent : extensionExtent hdrExtLen = (hdrExtLen.toNat + 1) * 8 := rfl
    simp only [List.length_cons, List.getD_cons_succ, List.getD_cons_zero]
    split
    · next hs =>
      have hlt : ¬ extensionExtent hdrExtLen - 4 ≤ rest.length := by
        rw [← (Bytes.split?_takes _).isSome_iff, hs]
        decide
      simp only [isOk_error, Bool.false_eq_true, false_iff]
      omega
    · next front behind hs =>
      have hle : extensionExtent hdrExtLen - 4 ≤ rest.length := by
        rw [← (Bytes.split?_takes _).isSome_iff, hs]
        rfl
      rw [isOk_bind (fun _ => rfl), isOk_readData w hdrExtLen t (Bytes.split?_eq_some.mp hs).2]
      constructor
      · intro h
        exact ⟨by omega, by omega, h⟩
      · rintro ⟨-, -, h⟩
        exact h
  · next hw =>
    simp only [isOk_error, Bool.false_eq_true, false_iff]
    rintro ⟨h, -⟩
    exact Nat.not_le_of_lt (Bytes.length_lt_four hw) h

/-- A message has an optional part when one of the low three bits of its
first octet is set. -/
theorem GtpHeader.hasOptional_of_mandatory? {bs rest : Bytes} {h : GtpHeader}
    (hr : mandatory? bs = some (h, rest)) :
    h.hasOptional = true ↔ (bs.getD 0 0).toNat % 8 ≠ 0 := by
  simp only [mandatory?, Bytes.bind_eq_some, Bytes.return_eq_some, Bytes.u8?_eq_some] at hr
  obtain ⟨b, _, rfl, _, _, _, _, _, _, _, _, _, rfl, -⟩ := hr
  have hset (f : BitField) :
      f.isSet b.toUInt32 = true ↔ b.toNat / 2 ^ f.shift % 2 ^ f.width ≠ 0 := by
    rw [BitField.isSet, bne_iff_ne, ne_eq, ← UInt32.toNat_inj, BitField.toNat_get,
      UInt8.toNat_toUInt32]
    rfl
  simp only [hasOptional, Bool.or_eq_true, hset, List.getD_cons_zero]
  show (b.toNat / 2 ^ 2 % 2 ^ 1 ≠ 0 ∨ b.toNat / 2 ^ 1 % 2 ^ 1 ≠ 0) ∨ b.toNat / 2 ^ 0 % 2 ^ 1 ≠ 0
    ↔ b.toNat % 8 ≠ 0
  omega

theorem GtpHeader.isOk_read (decode : GtpExtensionType → Window → Except DecodeError GtpExtension)
    (w : Window) : (read decode w).isOk ↔ Format.gtp.Fits w.bytes := by
  rw [Format.Fits]
  by_cases hsize : size ≤ w.bytes.length
  · obtain ⟨h, hr⟩ := takes.some_of_le w.bytes hsize
    have hw : w.read protocol size mandatory? = .ok (h, w.bytes.drop size) :=
      Window.read_eq_ok.mpr hr
    rw [read, hw, ← hasOptional_of_mandatory? hr]
    -- The optional part is there when no flag calls for it or four more octets are left.
    have hopt := (optional?_takes h).isSome_iff (w.bytes.drop size)
    rw [List.length_drop] at hopt
    have h8 : size = 8 := rfl
    simp only [bind, Except.bind]
    split
    · next hnone =>
      rw [hnone] at hopt
      refine (iff_false_left Bool.false_ne_true).mpr ?_
      cases hhas : h.hasOptional <;> simp [hhas, optionalSize] at hopt ⊢
      omega
    · next hsome =>
      rw [hsome] at hopt
      refine (iff_true_left rfl).mpr ?_
      cases hhas : h.hasOptional <;> simp [hhas, optionalSize] at hopt ⊢ <;> omega
  · have hw : w.read protocol size mandatory? = .error (w.tooShort protocol size) := by
      rw [Window.read, takes.none_of_lt w.bytes (Nat.lt_of_not_le hsize)]
    rw [read, hw]
    simp only [bind, Except.bind, Except.isOk, Except.toBool, Bool.false_eq_true, false_iff]
    rintro ⟨h, -⟩
    exact hsize h

variable {ctx : Context}

/-- **A layer is read exactly off the windows that its format fits.** -/
theorem Context.isOk_peel (f : Format) (w : Window) : (ctx.peel f w).isOk ↔ f.Fits w.bytes := by
  cases f <;> simp only [peel, peel.options]
  case ethernet => exact EthernetHeader.isOk_readFrame false w
  case arp =>
    rw [isOk_bind (fun _ => rfl)]
    exact Window.isOk_read ArpHeader.takes w _ _
  case ipv6 =>
    rw [isOk_bind (fun _ => rfl)]
    exact Window.isOk_read Ipv6Header.takes w _ _
  case hopByHop | destination =>
    rw [isOk_bind (fun _ => rfl)]
    exact OptionsHeader.isOk_read _ _ w
  case routing =>
    rw [isOk_bind (fun _ => rfl)]
    exact RoutingHeader.isOk_read w
  case fragment =>
    rw [isOk_bind (fun _ => rfl), FragmentHeader.read, isOk_bind (fun _ => rfl)]
    exact Window.isOk_read FragmentHeader.takes w _ _
  case icmpv6 =>
    rw [isOk_bind (fun _ => rfl), Icmpv6Header.read, isOk_bind (fun _ => rfl)]
    exact Window.isOk_read Icmpv6Header.takes w _ _
  case echo =>
    rw [isOk_bind (fun _ => rfl), EchoHeader.read, isOk_bind (fun _ => rfl)]
    exact Window.isOk_read EchoHeader.takes w _ _
  case solicitation =>
    rw [isOk_bind (fun _ => rfl), SolicitationHeader.read, isOk_bind (fun _ => rfl)]
    exact Window.isOk_read SolicitationHeader.takes w _ _
  case advertisement =>
    rw [isOk_bind (fun _ => rfl), AdvertisementHeader.read, isOk_bind (fun _ => rfl)]
    exact Window.isOk_read SolicitationHeader.takes w _ _
  case udp =>
    rw [isOk_bind (fun _ => rfl), UdpHeader.read, isOk_bind (fun _ => rfl)]
    exact Window.isOk_read UdpHeader.takes w _ _
  case sctp =>
    rw [isOk_bind (fun _ => rfl), SctpHeader.read, isOk_bind (fun _ => rfl)]
    exact Window.isOk_read SctpHeader.takes w _ _
  case gtp =>
    rw [isOk_bind (fun _ => rfl)]
    exact GtpHeader.isOk_read _ w

/-! ## Windows of a buffer -/

theorem Window.isOk_cut_bind {α : Type} {protocol : String} {buf : Bytes} {offset length : Nat}
    {f : Window → Except DecodeError α} :
    (cut protocol buf offset length >>= f).isOk
      ↔ offset + length ≤ buf.length ∧ (f ⟨offset, buf.clamp offset length⟩).isOk := by
  rw [cut, cut?]
  by_cases h : offset + length ≤ buf.length
  · rw [if_pos h, and_iff_right h]
    exact Iff.rfl
  · rw [if_neg h]
    exact iff_of_false Bool.false_ne_true fun hw => h hw.1

/-- **A decoder fails exactly when its own fixed structure is bad.** With
any decoders in the registries, a window is decoded as a format when it
lies inside the buffer and the format fits it, and as a frame with a frame
check sequence when it also has room for one. On the way no step is out of
bounds: decoding step by step, where a step that is not possible leaves
nothing, comes to the same. -/
theorem Context.decode_isOk_iff (ctx : Context) (f : Format) (buf : Bytes) (offset length : Nat) :
    ((ctx.decode f buf offset length).isOk
        ↔ offset + length ≤ buf.length ∧ f.Fits (buf.clamp offset length))
      ∧ ((ctx.decodeFcs buf offset length).isOk ↔ offset + length ≤ buf.length ∧ 18 ≤ length)
      ∧ (ctx.decodeSteps f buf offset length).run = some (ctx.decode f buf offset length)
      ∧ (ctx.decodeFcsSteps buf offset length).run = some (ctx.decodeFcs buf offset length) := by
  refine ⟨?_, ?_, ?_, ?_⟩
  · rw [decode, Window.isOk_cut_bind, decodeWindow, isOk_map, isOk_peel]
  · rw [decodeFcs, Window.isOk_cut_bind, decodeFcsWindow, isOk_map,
      EthernetHeader.isOk_readFrame]
    refine and_congr_right fun h => ?_
    rw [Window.length, Window.length_clamp h]
    exact Iff.rfl
  · rw [decodeSteps_eq, Steps.run_liftM]
  · rw [decodeFcsSteps_eq, Steps.run_liftM]

end PacketCodec
