import PacketCodec.Decode
import PacketCodec.Proofs.Extent
import PacketCodec.Proofs.GtpChain
import PacketCodec.Proofs.Header
import PacketCodec.Proofs.Registry

/-!
# Readers that raise true errors

An error speaks about the window that was read: how many octets it has,
where the offending ones are, and what they are. It is *true of* the
window (`DecodeError.TrueOf`) when less is there than it says is needed or
declared, and when it points into the window, at octets that its dump
shows.

`Outcome.Truthful` says of the outcome of a reader that an error is true
and that a value has some property. The two are one statement because of
readers in sequence (`Outcome.Truthful.bind`): what the second may say of
the window rests on what the first has found there. That two octets are
there puts the length field that is complained about into the window; that
a content has two octets makes the complaint that it is too short for a
word impossible.

Part of a reader may read a stretch of the window only. Its errors are
true of the window as well, since what it points to is there too
(`DecodeError.TrueOf.of_within`). A layer is read with what it carries
next to it: a stretch of the window, for another decoder
(`Peeled.Inside`).
-/

namespace PacketCodec

/-! ## What an error says -/

/-- **What a fault says of its two numbers**: that less is there than is
needed or declared. A value that is not allowed says nothing of the
kind. -/
def Fault.Holds : Fault → Prop
  | tooShort need got => got < need
  | invalidField _ _ => True
  | inconsistentLength _ declared available => available < declared

instance : (f : Fault) → Decidable f.Holds
  | .tooShort need got => inferInstanceAs (Decidable (got < need))
  | .invalidField _ _ => inferInstanceAs (Decidable True)
  | .inconsistentLength _ declared available => inferInstanceAs (Decidable (available < declared))

/-- **An error is true of a window**: its fault holds, and it points into
the window, at octets that its dump shows. -/
structure DecodeError.TrueOf (w : Window) (e : DecodeError) : Prop where
  /-- Less is there than it asks for. -/
  holds : e.fault.Holds
  /-- It points into the window or right behind it, and what it shows is
  found there. -/
  shown : ∃ k ≤ w.length, e.offset = w.offset + k ∧
    ∃ n ≤ dumpLimit, e.dump = Bytes.hex ((w.bytes.drop k).take n)

namespace Window

variable {w : Window} {protocol field : String} {start : Nat}

theorem tooShort_trueOf {need : Nat} (h : w.length < need) :
    (w.tooShort protocol need).TrueOf w where
  holds := h
  shown := ⟨0, Nat.zero_le _, rfl, DecodeError.dumpLimit, Nat.le_refl _, rfl⟩

theorem invalid_trueOf {value : Nat} (h : start ≤ w.length) :
    (w.invalid protocol start field value).TrueOf w where
  holds := trivial
  shown := ⟨start, h, rfl, DecodeError.dumpLimit, Nat.le_refl _, rfl⟩

theorem inconsistent_trueOf {declared : Nat} (h : w.length - start < declared) :
    (w.inconsistent protocol start field declared).TrueOf w where
  holds := h
  shown := by
    refine ⟨0, Nat.zero_le _, rfl, min DecodeError.dumpLimit (w.length - start),
      Nat.min_le_left _ _, ?_⟩
    rw [List.drop_zero, ← List.take_take]
    rfl

/-- **A window is a stretch of another one.** -/
def Within (v w : Window) : Prop :=
  ∃ k ≤ w.length, v.offset = w.offset + k ∧ ∃ n, v.bytes = (w.bytes.drop k).take n

theorem within_take (h : start ≤ w.length) (n : Nat) :
    Within ⟨w.offset + start, (w.bytes.drop start).take n⟩ w :=
  ⟨start, h, rfl, n, rfl⟩

theorem within_after (h : start ≤ w.length) : (w.after start).Within w :=
  ⟨start, h, rfl, (w.bytes.drop start).length, List.take_length.symm⟩

/-- A stretch of a stretch: where it starts, and how far it reaches. -/
theorem Within.exists_take {v w : Window} (h : v.Within w) {k : Nat} (hk : k ≤ v.length)
    (n : Nat) :
    ∃ l ≤ w.length, v.offset + k = w.offset + l ∧
      ∃ m ≤ n, (v.bytes.drop k).take n = (w.bytes.drop l).take m := by
  obtain ⟨l, hl, hstart, m, hbytes⟩ := h
  have hlen : v.length = min m (w.length - l) := by
    rw [length, hbytes, List.length_take, List.length_drop, length]
  refine ⟨l + k, by omega, by omega, min n (m - k), Nat.min_le_left _ _, ?_⟩
  rw [hbytes, List.drop_take, List.take_take, List.drop_drop]

theorem Within.trans {u v w : Window} (huv : u.Within v) (hvw : v.Within w) : u.Within w := by
  obtain ⟨k, hk, hoffset, n, hbytes⟩ := huv
  obtain ⟨l, hl, hstart, m, -, htake⟩ := hvw.exists_take hk n
  exact ⟨l, hl, hoffset.trans hstart, m, hbytes.trans htake⟩

end Window

/-- What is true of a stretch of a window is true of the window. -/
theorem DecodeError.TrueOf.of_within {e : DecodeError} {v w : Window} (h : e.TrueOf v)
    (hv : v.Within w) : e.TrueOf w := by
  obtain ⟨k, hk, hoffset, n, hn, hdump⟩ := h.shown
  obtain ⟨l, hl, hstart, m, hm, htake⟩ := hv.exists_take hk n
  exact ⟨h.holds, l, hl, hoffset.trans hstart, m, Nat.le_trans hm hn,
    hdump.trans (congrArg Bytes.hex htake)⟩

/-! ## What a reader returns -/

/-- **The outcome of a reader of a window**: a value that satisfies `P`,
or an error that is true of the window. -/
def Outcome.Truthful {α : Type} (w : Window) (P : α → Prop) : Except DecodeError α → Prop
  | .ok a => P a
  | .error e => e.TrueOf w

namespace Outcome.Truthful

variable {α β : Type} {w : Window} {P : α → Prop} {Q : β → Prop} {x : Except DecodeError α}

theorem bind {next : α → Except DecodeError β} (hx : Truthful w P x)
    (hnext : ∀ a, P a → Truthful w Q (next a)) : Truthful w Q (x >>= next) := by
  cases x with
  | error e => exact hx
  | ok a => exact hnext a hx

/-- What else is known of a value that is returned. -/
theorem of_ok {P' : α → Prop} (hx : Truthful w P x) (h : ∀ a, x = .ok a → P' a) :
    Truthful w P' x := by
  cases x with
  | error e => exact hx
  | ok a => exact h a rfl

theorem map {f : α → β} (hx : Truthful w P x) (hf : ∀ a, P a → Q (f a)) :
    Truthful w Q (x.map f) := by
  cases x with
  | error e => exact hx
  | ok a => exact hf a hx

end Outcome.Truthful

open Outcome (Truthful)

/-- A reader of a fixed layout asks for as many octets as it takes. -/
theorem Window.read_truthful {α : Type} {n : Nat} {front? : Bytes → Option (α × Bytes)}
    (takes : Bytes.Takes n front?) (w : Window) (protocol : String) :
    Truthful w (fun r => n ≤ w.length ∧ r.2 = w.bytes.drop n) (w.read protocol n front?) := by
  unfold read
  split
  · next r hr => exact takes.eq_drop hr
  · next hr => exact tooShort_trueOf (takes.length_lt hr)

/-- A reader whose errors are true of the windows that it is given. -/
abbrev Candid {α : Type} (read : Window → Except DecodeError α) : Prop :=
  ∀ w, Truthful w (fun _ => True) (read w)

/-! ## Options -/

theorem Ipv6Option.typeAndData_truthful (w : Window) :
    Truthful w (fun _ => 2 ≤ w.length) (typeAndData w) := by
  unfold typeAndData
  split
  · next t n rest hw =>
    have hlen : w.length = rest.length + 2 := by rw [Window.length, hw]; rfl
    split
    · exact Nat.le.intro (Nat.add_comm 2 _ ▸ hlen.symm)
    · next hs =>
      have hlt := (Bytes.split?_takes _).length_lt hs
      exact Window.inconsistent_trueOf (by omega)
  · next hw => exact Window.tooShort_trueOf (Bytes.length_lt_two hw)

theorem Ipv6Option.decode_truthful {decode : Window → Except DecodeError Ipv6Option}
    (h : decode ∈ decoders) : Candid decode := by
  simp only [decoders, List.mem_cons, List.not_mem_nil, or_false] at h
  obtain rfl | rfl | rfl | rfl := h <;> intro w
  · unfold decodePad1
    split
    · trivial
    · next hw => exact Window.tooShort_trueOf (by rw [Window.length, hw]; exact Nat.one_pos)
  · exact (typeAndData_truthful w).bind fun _ _ => trivial
  · refine (typeAndData_truthful w).bind ?_
    rintro ⟨t, data⟩ hlen
    dsimp only
    split
    · trivial
    · exact Window.invalid_trueOf (by omega)
  · exact (typeAndData_truthful w).bind fun _ _ => trivial

theorem NdpOption.typeAndData_truthful (w : Window) :
    Truthful w (fun _ => 2 ≤ w.length) (typeAndData w) := by
  unfold typeAndData
  split
  · next t units rest hw =>
    have hlen : w.length = rest.length + 2 := by rw [Window.length, hw]; rfl
    split
    · exact Window.invalid_trueOf (by omega)
    · next hunits =>
      have hpos : units.toNat ≠ 0 := fun h0 => hunits (UInt8.toNat_inj.mp h0)
      split
      · exact Nat.le.intro (Nat.add_comm 2 _ ▸ hlen.symm)
      · next hs =>
        have hlt := (Bytes.split?_takes _).length_lt hs
        exact Window.inconsistent_trueOf (by omega)
  · next hw => exact Window.tooShort_trueOf (Bytes.length_lt_two hw)

theorem NdpOption.decode_truthful {decode : Window → Except DecodeError NdpOption}
    (h : decode ∈ decoders) : Candid decode := by
  simp only [decoders, List.mem_cons, List.not_mem_nil, or_false] at h
  obtain rfl | rfl | rfl | rfl | rfl := h <;> intro w
  · exact (typeAndData_truthful w).bind fun _ _ => trivial
  · exact (typeAndData_truthful w).bind fun _ _ => trivial
  · refine (typeAndData_truthful w).bind ?_
    rintro ⟨t, units, data⟩ hlen
    dsimp only
    split
    · trivial
    · exact Window.invalid_trueOf (by omega)
  · refine (typeAndData_truthful w).bind ?_
    rintro ⟨t, units, data⟩ hlen
    dsimp only
    split
    · trivial
    · exact Window.invalid_trueOf (by omega)
  · exact (typeAndData_truthful w).bind fun _ _ => trivial

/-! ## GTP extension headers -/

namespace GtpExtension

theorem fixedContent_truthful {units : Nat} (hunits : 0 < units) (w : Window) :
    Truthful w (fun content => content.length = units * 4 - 2) (fixedContent w units) := by
  unfold fixedContent
  split
  · next hw => exact Window.tooShort_trueOf (by rw [Window.length, hw]; exact Nat.one_pos)
  · next declared rest hw =>
    have hlen : w.length = rest.length + 1 := by rw [Window.length, hw]; rfl
    split
    · exact Window.invalid_trueOf (Nat.zero_le _)
    · split
      · next front behind hs =>
        have hfront := (Bytes.split?_eq_some.mp hs).2
        show (front.take _).length = _
        rw [List.length_take]
        omega
      · next hs =>
        have hlt := (Bytes.split?_takes _).length_lt hs
        exact Window.tooShort_trueOf (by omega)

/-- A content of two octets is a word. -/
theorem decodeWord_truthful (make : UInt16 → GtpExtension) : Candid (decodeWord make) := by
  intro w
  refine (fixedContent_truthful Nat.one_pos w).bind fun content hlen => ?_
  obtain ⟨value, hvalue⟩ := Bytes.u16?_takes.some_of_le content (by omega)
  rw [hvalue]
  trivial

theorem decodeServiceClassIndicator_truthful : Candid decodeServiceClassIndicator := by
  intro w
  refine (fixedContent_truthful Nat.one_pos w).bind fun content hlen => ?_
  match content, hlen with
  | [_, _], _ => trivial

theorem decodeLongPduNumber_truthful : Candid decodeLongPduNumber := by
  intro w
  refine (fixedContent_truthful Nat.two_pos w).bind fun content hlen => ?_
  obtain ⟨number, hnumber⟩ := Bytes.u24?_takes.some_of_le content (by omega)
  obtain ⟨spare, hspare⟩ := (Octets.take?_takes 3).some_of_le (content.drop 3)
    (by rw [List.length_drop]; omega)
  simp only [hnumber, Option.bind_eq_bind, Option.bind_some, hspare]
  trivial

theorem readSessionInfo_truthful : Candid readSessionInfo := by
  intro w
  have hlen : (w.after 1).bytes.length = w.length - 1 := List.length_drop
  unfold readSessionInfo
  dsimp only
  split
  · next hw =>
    rw [hw, List.length_nil] at hlen
    exact Window.tooShort_trueOf (by omega)
  · next first rest hw =>
    rw [hw, List.length_cons] at hlen
    have hbehind : (w.after 1).Within w := Window.within_after (by omega)
    have hcontent : (w.after 1).length = rest.length + 1 := by rw [Window.length, hw]; rfl
    split
    · exact Window.invalid_trueOf (by omega)
    · split
      · refine (Window.tooShort_trueOf ?_).of_within hbehind
        rw [hcontent]
        exact Nat.one_lt_two
      · next second rest =>
        rw [List.length_cons] at hcontent
        split
        · split
          · trivial
          · next hf =>
            have hlt := (DownlinkInfo.fields?_takes _ _).length_lt hf
            exact (Window.tooShort_trueOf (by omega)).of_within hbehind
        · split
          · trivial
          · next hf =>
            have hlt := (UplinkInfo.fields?_takes _ _).length_lt hf
            exact (Window.tooShort_trueOf (by omega)).of_within hbehind

theorem decodePduSessionContainer_truthful : Candid decodePduSessionContainer := by
  intro w
  unfold decodePduSessionContainer
  split
  · next hw => exact Window.tooShort_trueOf (by rw [Window.length, hw]; exact Nat.two_pos)
  · next declared front hw =>
    have hlen : w.length = front.length + 1 := by rw [Window.length, hw]; rfl
    refine ((readSessionInfo_truthful w).of_ok fun a ha => ha).bind ?_
    rintro ⟨info, rest⟩ hinfo
    -- The window is the length octet, the information, and what is behind that.
    have hafter := congrArg List.length (bytes_of_readSessionInfo hinfo)
    rw [Window.after, hw, List.drop_one, List.tail_cons, List.length_append,
      SessionInfo.length_toBytes] at hafter
    have hroom := add_two_le_unitsFor info.length
    dsimp only at hafter ⊢
    split
    · exact Window.invalid_trueOf (Nat.zero_le _)
    · split
      · trivial
      · next hs =>
        have hle := Bytes.length_le_of_split? hs
        exact Window.inconsistent_trueOf (by omega)

theorem decodeUnknown_truthful : Candid decodeUnknown := by
  intro w
  unfold decodeUnknown
  split
  · next hw => exact Window.tooShort_trueOf (by rw [Window.length, hw]; exact Nat.one_pos)
  · next units rest hw =>
    have hlen : w.length = rest.length + 1 := by rw [Window.length, hw]; rfl
    split
    · exact Window.invalid_trueOf (Nat.zero_le _)
    · next hunits =>
      have hpos : units.toNat ≠ 0 := fun h0 => hunits (UInt8.toNat_inj.mp h0)
      split
      · trivial
      · next hs =>
        have hle := Bytes.length_le_of_split? hs
        exact Window.inconsistent_trueOf (by omega)

theorem decode_truthful {decode : Window → Except DecodeError GtpExtension}
    (h : decode ∈ decoders) : Candid decode := by
  simp only [decoders, List.mem_cons, List.not_mem_nil, or_false] at h
  obtain rfl | rfl | rfl | rfl | rfl | rfl := h
  · exact decodeWord_truthful udpPort
  · exact decodeWord_truthful pduNumber
  · exact decodeLongPduNumber_truthful
  · exact decodeServiceClassIndicator_truthful
  · exact decodePduSessionContainer_truthful
  · exact decodeUnknown_truthful

end GtpExtension

/-! ## One layer -/

/-- What is carried is decoded from a stretch of the window, if at all. -/
def Inner.Inside (w : Window) : Inner → Prop
  | dispatch _ v => v.Within w
  | _ => True

theorem Inner.inside_keep (w : Window) (data : Bytes) : (keep data).Inside w := by
  cases data <;> trivial

/-- The error that the layer keeps, if it keeps one. -/
def Leaf.reason? : Leaf → Option DecodeError
  | malformed _ reason => some reason
  | _ => none

/-- **A layer read off a window refers to nothing outside it**: what it
carries is a stretch of the window, and an error that it keeps is true of
the window. -/
def Peeled.Inside (w : Window) : Peeled → Prop
  | leaf l => ∀ e ∈ l.reason?, e.TrueOf w
  | carrier _ inner => inner.Inside w
  | frame _ body _ => body.Within w

theorem EthernetHeader.readFrame_truthful (withFcs : Bool) (w : Window) :
    Truthful w (Peeled.Inside w) (readFrame withFcs w) := by
  unfold readFrame
  by_cases hlen : w.length < size + if withFcs then fcsSize else 0
  · rw [if_pos hlen]
    exact Window.tooShort_trueOf hlen
  · rw [if_neg hlen]
    refine (w.read_truthful takes protocol).bind ?_
    rintro ⟨h, rest⟩ ⟨hsize, rfl⟩
    exact Window.within_take hsize _

theorem OptionsHeader.read_truthful (kind : OptionsKind)
    (decode : Window → Except DecodeError Ipv6Option) (w : Window) :
    Truthful w (fun r => r.2.2.Inside w) (read kind decode w) := by
  unfold read
  split
  · next nextHeader hdrExtLen rest hw =>
    show Inner.Inside w (if _ then _ else _)
    split
    · trivial
    · next hshort => exact Window.within_after (by simpa using hshort)
  · next hw => exact Window.tooShort_trueOf (Bytes.length_lt_two hw)

theorem RoutingHeader.readData_truthful {w : Window} (hw : 1 ≤ w.length) (hdrExtLen : UInt8)
    (t : RoutingType) {front : Bytes} (hfront : front.length = extensionExtent hdrExtLen - 4) :
    Truthful w (fun _ => True) (readData w hdrExtLen t front) := by
  unfold readData
  split
  · split
    · exact Window.invalid_trueOf hw
    · obtain ⟨route, hroute⟩ := exists_route hdrExtLen hfront
      rw [hroute]
      trivial
  · trivial

theorem RoutingHeader.read_truthful (w : Window) :
    Truthful w (fun r => r.2.Inside w) (read w) := by
  unfold read
  split
  · next nextHeader hdrExtLen t segmentsLeft rest hw =>
    have hlen : w.length = rest.length + 4 := by rw [Window.length, hw]; rfl
    dsimp only
    split
    · next hs =>
      have hlt := (Bytes.split?_takes _).length_lt hs
      exact Window.inconsistent_trueOf (by omega)
    · next front behind hs =>
      obtain ⟨rfl, hfront⟩ := Bytes.split?_eq_some.mp hs
      refine (readData_truthful (by omega) hdrExtLen t hfront).bind fun data _ => ?_
      refine Window.within_after ?_
      rw [List.length_append] at hlen
      omega
  · next hw => exact Window.tooShort_trueOf (Bytes.length_lt_four hw)

theorem FragmentHeader.read_truthful (w : Window) :
    Truthful w (fun r => r.2.Inside w) (read w) := by
  refine (w.read_truthful takes protocol).bind ?_
  rintro ⟨h, rest⟩ ⟨hsize, -⟩
  show Inner.Inside w (if _ then _ else _)
  split
  · exact Window.within_after hsize
  · exact Inner.inside_keep w rest

theorem Icmpv6Header.read_truthful (w : Window) :
    Truthful w (fun r => r.2.Inside w) (read w) := by
  refine (w.read_truthful takes protocol).bind ?_
  rintro ⟨h, rest⟩ ⟨hsize, -⟩
  exact Window.within_after hsize

theorem EchoHeader.read_truthful (w : Window) :
    Truthful w (fun r => r.2.Inside w) (read w) := by
  refine (w.read_truthful takes protocol).bind ?_
  rintro ⟨h, data⟩ -
  exact Inner.inside_keep w data

theorem SolicitationHeader.read_truthful (decode : Window → Except DecodeError NdpOption) :
    Candid (read decode) := fun w =>
  (w.read_truthful takes protocol).bind fun _ _ => trivial

theorem AdvertisementHeader.read_truthful (decode : Window → Except DecodeError NdpOption) :
    Candid (read decode) := fun w =>
  (w.read_truthful SolicitationHeader.takes protocol).bind fun _ _ => trivial

theorem UdpHeader.read_truthful (known : UdpPort → Bool) (w : Window) :
    Truthful w (fun r => r.2.2.Inside w) (read known w) := by
  refine (w.read_truthful takes protocol).bind ?_
  rintro ⟨h, rest⟩ ⟨hsize, rfl⟩
  exact Window.within_take hsize _

theorem SctpHeader.read_truthful : Candid read := fun w =>
  (w.read_truthful takes protocol).bind fun _ _ => trivial

/-- A payload that is decoded has an octet, so it starts inside its
region. -/
theorem GtpHeader.inside_inner (h : GtpHeader) {region w : Window} (hregion : region.Within w)
    (n : Nat) : (h.inner (region.after n)).Inside w := by
  unfold inner
  split
  · trivial
  · next first _ hbytes =>
    split
    · have hn : n < region.bytes.length := by
        refine Nat.lt_of_not_le fun hle => ?_
        rw [Window.after, List.drop_eq_nil_of_le hle] at hbytes
        cases hbytes
      exact (Window.within_after (Nat.le_of_lt hn)).trans hregion
    · trivial

theorem GtpHeader.read_truthful
    (decode : GtpExtensionType → Window → Except DecodeError GtpExtension) (w : Window) :
    Truthful w (fun r => r.2.2.Inside w) (read decode w) := by
  refine (w.read_truthful takes protocol).bind ?_
  rintro ⟨h, rest⟩ ⟨hsize, rfl⟩
  have hrest : (w.bytes.drop size).length = w.length - size := List.length_drop
  have h8 : size = 8 := rfl
  have h4 : optionalSize = 4 := rfl
  have htakes := h.optional?_takes
  dsimp only
  split
  · next hnone =>
    have hlt := htakes.length_lt hnone
    refine Window.tooShort_trueOf ?_
    split at hlt <;> omega
  · next h' rest' hsome =>
    obtain ⟨hle, rfl⟩ := htakes.eq_drop hsome
    obtain ⟨⟨sequenceNumber, npduNumber, nextExtType, rfl⟩, -⟩ := optional?_exact hsome
    rw [List.drop_drop]
    refine inside_inner _ (Window.within_take ?_ _) _
    show size + (if h.hasOptional then optionalSize else 0) ≤ w.length
    omega

theorem Leaf.inside_of_reason? {w : Window} {l : Leaf} (h : l.reason? = none) :
    (Peeled.leaf l).Inside w := by
  intro e he
  rw [h] at he
  cases he

/-- **One layer is read off a window truthfully**, with any decoders in
the registries: an error of an element only ends the list that it is
in. -/
theorem Context.peel_truthful (ctx : Context) (f : Format) (w : Window) :
    Truthful w (Peeled.Inside w) (ctx.peel f w) := by
  cases f with
  | ethernet => exact EthernetHeader.readFrame_truthful false w
  | arp =>
    exact (w.read_truthful ArpHeader.takes _).bind fun _ _ => Leaf.inside_of_reason? rfl
  | ipv6 =>
    refine (w.read_truthful Ipv6Header.takes _).bind ?_
    rintro ⟨h, rest⟩ ⟨hsize, rfl⟩
    exact Window.within_take hsize _
  | hopByHop => exact (OptionsHeader.read_truthful _ _ w).bind fun _ h => h
  | destination => exact (OptionsHeader.read_truthful _ _ w).bind fun _ h => h
  | routing => exact (RoutingHeader.read_truthful w).bind fun _ h => h
  | fragment => exact (FragmentHeader.read_truthful w).bind fun _ h => h
  | icmpv6 => exact (Icmpv6Header.read_truthful w).bind fun _ h => h
  | echo => exact (EchoHeader.read_truthful w).bind fun _ h => h
  | solicitation =>
    exact (SolicitationHeader.read_truthful _ w).bind fun _ _ => Leaf.inside_of_reason? rfl
  | advertisement =>
    exact (AdvertisementHeader.read_truthful _ w).bind fun _ _ => Leaf.inside_of_reason? rfl
  | udp => exact (UdpHeader.read_truthful _ w).bind fun _ h => h
  | sctp => exact (SctpHeader.read_truthful w).bind fun _ _ => Leaf.inside_of_reason? rfl
  | gtp => exact (GtpHeader.read_truthful _ w).bind fun _ h => h

end PacketCodec
