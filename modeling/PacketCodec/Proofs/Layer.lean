import PacketCodec.Decode
import PacketCodec.Packet.Verify
import PacketCodec.Proofs.GtpChain
import PacketCodec.Proofs.Options
import PacketCodec.Proofs.Registry

/-!
# Layers account for their windows

A layer read off a window leaves some octets of it to its payload. Its
header, these octets and its trailer are the whole window, in this order,
for every format but two (`Context.peel_wire`): an ARP message has a fixed
size, and the header of an IPv6 packet says how much of the window is its
payload.

This holds for any decoders of elements that are exact, `Decoders.Exact`,
which those of the library are (`Decoders.standard_exact`).
-/

namespace PacketCodec

/-- The octets that a layer leaves to what it carries. -/
def Inner.bytes : Inner → Bytes
  | nothing => []
  | kept data => data
  | dispatch _ w => w.bytes

/-- **The octets of a layer**, with those it leaves to its payload in
their place. -/
def Peeled.wire : Peeled → Bytes
  | leaf l => l.toBytes
  | carrier c inner => c.header ++ c.unparsed ++ (inner.bytes ++ c.trailer)
  | frame h body fcs => h.toBytes ++ body.bytes ++ (fcs.map Bytes.le32).getD []

theorem Inner.bytes_keep (data : Bytes) : (Inner.keep data).bytes = data := by
  cases data <;> rfl

/-- What is behind a header of `n` octets. -/
theorem Window.bytes_after {w : Window} {front rest : Bytes} {n : Nat}
    (h : w.bytes = front ++ rest) (hn : front.length = n) : (w.after n).bytes = rest := by
  rw [after, h, ← hn]
  exact List.drop_left

/-! ## Extension headers of IPv6 -/

namespace RoutingData

theorem addresses?_exact {n : Nat} {bs rest : Bytes} {addresses : List Ipv6Addr}
    (h : addresses? n bs = some (addresses, rest)) :
    bs = addresses.flatMap Octets.bytes ++ rest
      ∧ (addresses.flatMap Octets.bytes).length = 16 * n := by
  induction n generalizing bs addresses with
  | zero =>
    cases h
    exact ⟨rfl, rfl⟩
  | succ n ih =>
    simp only [addresses?, Bytes.bind_eq_some, Bytes.return_eq_some, Octets.take?_eq_some] at h
    obtain ⟨a, _, rfl, more, _, hmore, rfl, rfl⟩ := h
    obtain ⟨rfl, hlen⟩ := ih hmore
    refine ⟨by rw [List.flatMap_cons, List.append_assoc], ?_⟩
    rw [List.flatMap_cons, List.length_append, a.length_eq, hlen]
    omega

theorem type0?_exact {n : Nat} {bs rest : Bytes} {d : RoutingData}
    (h : type0? n bs = some (d, rest)) :
    d.routingType = RoutingType.type0 ∧ bs = d.toBytes ++ rest
      ∧ d.toBytes.length = 4 + 16 * n := by
  simp only [type0?, Bytes.bind_eq_some, Bytes.return_eq_some, Bytes.u32?_eq_some] at h
  obtain ⟨reserved, _, rfl, addresses, _, haddresses, rfl, rfl⟩ := h
  obtain ⟨rfl, hlen⟩ := addresses?_exact haddresses
  refine ⟨rfl, by rw [toBytes, List.append_assoc], ?_⟩
  rw [toBytes, List.length_append, hlen, Bytes.length_be32]

end RoutingData

namespace RoutingHeader

/-- An even length field has room for half as many addresses, and no
octet more. -/
theorem readData_exact {w : Window} {hdrExtLen : UInt8} {t : RoutingType} {front : Bytes}
    {d : RoutingData} (hfront : front.length = extensionExtent hdrExtLen - 4)
    (h : readData w hdrExtLen t front = .ok d) : d.routingType = t ∧ d.toBytes = front := by
  unfold readData at h
  split at h
  · next ht =>
    split at h
    · cases h
    · next hodd =>
      split at h
      · next route rest hr =>
        cases h
        obtain ⟨htype, rfl, hlen⟩ := RoutingData.type0?_exact hr
        have heven : hdrExtLen.toNat % 2 = 0 := by
          have hne : (hdrExtLen % 2).toNat ≠ 1 := fun h₁ => hodd (UInt8.toNat_inj.mp h₁)
          rw [UInt8.toNat_mod, show (2 : UInt8).toNat = 2 from rfl] at hne
          omega
        have hrest : rest = [] := by
          rw [List.length_append, hlen, extensionExtent] at hfront
          exact List.eq_nil_of_length_eq_zero (by omega)
        exact ⟨htype.trans ht.symm, by rw [hrest, List.append_nil]⟩
      · cases h
  · cases h
    exact ⟨rfl, rfl⟩

theorem bytes_of_read {w : Window} {h : RoutingHeader} {inner : Inner}
    (hr : read w = .ok (h, inner)) : h.toBytes ++ inner.bytes = w.bytes := by
  unfold read at hr
  split at hr
  · next nextHeader hdrExtLen t segmentsLeft rest hw =>
    dsimp only at hr
    split at hr
    · cases hr
    · next front behind hs =>
      obtain ⟨rfl, hlen⟩ := Bytes.split?_eq_some.mp hs
      simp only [bind_eq_ok, return_eq_ok, Prod.mk.injEq] at hr
      obtain ⟨d, hd, rfl, rfl⟩ := hr
      obtain ⟨rfl, rfl⟩ := readData_exact hlen hd
      have hextent : (nextHeader :: hdrExtLen :: d.routingType :: segmentsLeft :: d.toBytes).length
          = extensionExtent hdrExtLen := by
        simp only [List.length_cons, hlen, extensionExtent]
        omega
      rw [Inner.bytes, Window.bytes_after hw hextent, hw, toBytes]
      rfl
  · cases hr

end RoutingHeader

theorem FragmentHeader.bytes_of_read {w : Window} {h : FragmentHeader} {inner : Inner}
    (hr : read w = .ok (h, inner)) : h.toBytes ++ inner.bytes = w.bytes := by
  simp only [read, bind_eq_ok, return_eq_ok, Window.read_eq_ok, Prod.exists, Prod.mk.injEq] at hr
  obtain ⟨h, rest, hread, rfl, rfl⟩ := hr
  have hw := read?_exact hread
  rw [hw]
  split
  · rw [Inner.bytes, Window.bytes_after hw h.length_toBytes]
  · rw [Inner.bytes_keep]

theorem OptionsHeader.bytes_of_read {kind : OptionsKind}
    {decode : Window → Except DecodeError Ipv6Option}
    (exact : ExactElement decode Ipv6Option.length Ipv6Option.toBytes) {w : Window}
    {h : OptionsHeader} {unparsed : Bytes} {inner : Inner}
    (hr : read kind decode w = .ok (h, unparsed, inner)) :
    h.toBytes ++ unparsed ++ inner.bytes = w.bytes := by
  unfold read at hr
  split at hr
  · next nextHeader hdrExtLen rest hw =>
    dsimp only at hr
    obtain ⟨rfl, rfl, rfl⟩ : _ ∧ _ ∧ _ := by simpa only [Except.ok.injEq, Prod.mk.injEq] using hr
    have hregion := Window.flatMap_elements exact
      ⟨w.offset + 2, rest.take (extensionExtent hdrExtLen - 2)⟩
    -- Behind the extent is the payload; a window that ends before it does has none.
    have hinner : (if decide (w.length < extensionExtent hdrExtLen) = true then Inner.nothing
        else .dispatch (.ipProtocol nextHeader) (w.after (extensionExtent hdrExtLen))).bytes
          = rest.drop (extensionExtent hdrExtLen - 2) := by
      have hextent : extensionExtent hdrExtLen - 2 + 2 = extensionExtent hdrExtLen := by
        rw [extensionExtent]
        omega
      have hlen : w.length = rest.length + 2 := by rw [Window.length, hw]; rfl
      split
      · next hshort =>
        rw [decide_eq_true_eq] at hshort
        rw [Inner.bytes, List.drop_eq_nil_of_le (by omega)]
      · rw [Inner.bytes, Window.after, hw, ← hextent]
        rfl
    rw [hinner, hw, toBytes]
    simp only [List.cons_append]
    dsimp only at hregion
    rw [hregion, List.take_append_drop]
  · cases hr

/-! ## ICMPv6 -/

theorem Icmpv6Header.bytes_of_read {w : Window} {h : Icmpv6Header} {inner : Inner}
    (hr : read w = .ok (h, inner)) : h.toBytes ++ inner.bytes = w.bytes := by
  simp only [read, bind_eq_ok, return_eq_ok, Window.read_eq_ok, Prod.exists, Prod.mk.injEq] at hr
  obtain ⟨h, rest, hread, rfl, rfl⟩ := hr
  have hw := read?_exact hread
  rw [Inner.bytes, Window.bytes_after hw h.length_toBytes, hw]

theorem EchoHeader.bytes_of_read {w : Window} {h : EchoHeader} {inner : Inner}
    (hr : read w = .ok (h, inner)) : h.toBytes ++ inner.bytes = w.bytes := by
  simp only [read, bind_eq_ok, return_eq_ok, Window.read_eq_ok, Prod.exists, Prod.mk.injEq] at hr
  obtain ⟨h, rest, hread, rfl, rfl⟩ := hr
  rw [Inner.bytes_keep, read?_exact hread]

/-- The options of a neighbor discovery message and the octets behind
them are what is behind its fixed fields. -/
theorem bytes_of_readNdpOptions {decode : Window → Except DecodeError NdpOption}
    (exact : ExactElement decode NdpOption.length NdpOption.toBytes) (region : Window) :
    (readNdpOptions decode region).1.flatMap NdpOption.toBytes
      ++ (readNdpOptions decode region).2.2 = region.bytes :=
  Window.flatMap_elements exact region

theorem SolicitationHeader.bytes_of_read {decode : Window → Except DecodeError NdpOption}
    (exact : ExactElement decode NdpOption.length NdpOption.toBytes) {w : Window}
    {h : SolicitationHeader} {trailer : Bytes} (hr : read decode w = .ok (h, trailer)) :
    h.toBytes ++ trailer = w.bytes := by
  simp only [read, bind_eq_ok, return_eq_ok, Window.read_eq_ok, Prod.exists, Prod.mk.injEq] at hr
  obtain ⟨word, target, rest, hread, rfl, rfl⟩ := hr
  have hw := fixed?_exact hread
  have hoptions := bytes_of_readNdpOptions exact (w.after neighborFixedSize)
  rw [Window.bytes_after hw (by simp [target.length_eq, neighborFixedSize])] at hoptions
  rw [hw, ← hoptions, toBytes]
  simp only [List.append_assoc]

theorem AdvertisementHeader.bytes_of_read {decode : Window → Except DecodeError NdpOption}
    (exact : ExactElement decode NdpOption.length NdpOption.toBytes) {w : Window}
    {h : AdvertisementHeader} {trailer : Bytes} (hr : read decode w = .ok (h, trailer)) :
    h.toBytes ++ trailer = w.bytes := by
  simp only [read, bind_eq_ok, return_eq_ok, Window.read_eq_ok, Prod.exists, Prod.mk.injEq] at hr
  obtain ⟨word, target, rest, hread, rfl, rfl⟩ := hr
  have hw := SolicitationHeader.fixed?_exact hread
  have hoptions := bytes_of_readNdpOptions exact (w.after neighborFixedSize)
  rw [Window.bytes_after hw (by simp [target.length_eq, neighborFixedSize])] at hoptions
  rw [hw, ← hoptions, toBytes, firstWord_of_get rfl rfl rfl rfl]
  simp only [List.append_assoc]

/-! ## Transport -/

theorem UdpHeader.bytes_of_read {known : UdpPort → Bool} {w : Window} {h : UdpHeader}
    {trailer : Bytes} {inner : Inner} (hr : read known w = .ok (h, trailer, inner)) :
    h.toBytes ++ (inner.bytes ++ trailer) = w.bytes := by
  simp only [read, bind_eq_ok, return_eq_ok, Window.read_eq_ok, Prod.exists, Prod.mk.injEq] at hr
  obtain ⟨h, rest, hread, rfl, rfl, rfl⟩ := hr
  rw [read?_exact hread, Inner.bytes, List.take_append_drop]

theorem SctpHeader.bytes_of_read {w : Window} {h : SctpHeader} {trailer : Bytes}
    (hr : read w = .ok (h, trailer)) : h.toBytes ++ trailer = w.bytes := by
  simp only [read, bind_eq_ok, return_eq_ok, Window.read_eq_ok, Prod.exists, Prod.mk.injEq] at hr
  obtain ⟨srcPort, dstPort, tag, checksum, rest, hread, rfl, rfl⟩ := hr
  have hchunks := Window.flatMap_elements SctpChunk.decode_exact ⟨w.offset + size, rest⟩
  dsimp only at hchunks
  rw [fixed?_exact hread, toBytes, List.append_assoc, hchunks]

/-! ## GTP -/

namespace GtpHeader

theorem toBytes_eq (h : GtpHeader) :
    h.toBytes = h.mandatoryBytes ++ h.optionalBytes ++ chainBytes h.chainTail h.extensions :=
  rfl

theorem bytes_inner (h : GtpHeader) (payload : Window) :
    (h.inner payload).bytes = payload.bytes := by
  unfold inner
  split
  · next hw => exact hw.symm
  · split <;> rfl

/-- Reading the chain fills in its three fields, and leaves of the region
what is behind it. -/
theorem withChain_exact {h : GtpHeader}
    {decode : GtpExtensionType → Window → Except DecodeError GtpExtension}
    (exact : ∀ t, GtpExtension.ExactFor t (decode t)) (region : Window)
    (hnone : h.extensions = []) :
    (h.withChain decode region).mandatoryBytes = h.mandatoryBytes
      ∧ (h.withChain decode region).optionalBytes = h.optionalBytes
      ∧ chainBytes (h.withChain decode region).chainTail (h.withChain decode region).extensions
          ++ (region.after
              (totalSize GtpExtension.length (h.withChain decode region).extensions)).bytes
        = region.bytes := by
  unfold withChain
  split
  · exact ⟨rfl, rfl, (readChain_exact exact h.nextExtType region).2⟩
  · refine ⟨rfl, rfl, ?_⟩
    rw [hnone]
    rfl

theorem bytes_of_read {decode : GtpExtensionType → Window → Except DecodeError GtpExtension}
    (exact : ∀ t, GtpExtension.ExactFor t (decode t)) {w : Window} {h : GtpHeader}
    {trailer : Bytes} {inner : Inner} (hr : read decode w = .ok (h, trailer, inner)) :
    h.toBytes ++ (inner.bytes ++ trailer) = w.bytes := by
  simp only [read, bind_eq_ok, Window.read_eq_ok, Prod.exists] at hr
  obtain ⟨h₀, rest₀, hread, hr⟩ := hr
  split at hr
  · exact absurd hr throw_ne_ok
  · next h₁ rest₁ hopt =>
    simp only [return_eq_ok, Prod.mk.injEq] at hr
    obtain ⟨rfl, rfl, rfl⟩ := hr
    obtain ⟨⟨sequenceNumber, npduNumber, nextExtType, rfl⟩, hrest⟩ := optional?_exact hopt
    set h₁ : GtpHeader := { h₀ with sequenceNumber, npduNumber, nextExtType }
    have hnone : h₀.extensions = [] := extensions_of_mandatory? hread
    obtain ⟨hmandatory, hoptional, hchain⟩ := withChain_exact exact
      ⟨w.offset + (size + if h₁.hasOptional = true then optionalSize else 0),
        rest₁.take (min (size + h₁.lengthField.toNat) w.length
          - (size + if h₁.hasOptional = true then optionalSize else 0))⟩ (h := h₁) hnone
    have hfields : h₁.mandatoryBytes = h₀.mandatoryBytes := rfl
    rw [bytes_inner, toBytes_eq, hmandatory, hoptional, hfields, mandatory?_exact hread, hrest]
    simp only [List.append_assoc, List.append_cancel_left_eq]
    rw [← List.append_assoc, hchain, List.take_append_drop]

end GtpHeader

/-! ## The decoders of the library -/

/-- **The decoders of elements are exact**: an option or extension header
is written as the octets that it was read from. -/
structure Decoders.Exact (d : Decoders) : Prop where
  /-- IPv6 options are. -/
  ipv6Option : ExactElement d.ipv6Option Ipv6Option.length Ipv6Option.toBytes
  /-- Neighbor discovery options are. -/
  ndpOption : ExactElement d.ndpOption NdpOption.length NdpOption.toBytes
  /-- GTP extension headers are. -/
  gtpExtension : ∀ t, GtpExtension.ExactFor t (d.gtpExtension t)

/-- Elements that a registry decodes by their first octet are written back
as they were read when every decoder is exact for what it is assigned
to. -/
theorem ExactElement.of_all {α : Type} {r : Registry UInt8 (Window → Except DecodeError α)}
    {size : α → Nat} {write : α → Bytes} (all : r.All fun t decode => ExactFor t decode write)
    (length_write : ∀ e, (write e).length = size e) (size_pos : ∀ e, 0 < size e) :
    ExactElement (fun w => r.get (w.bytes.headD 0) w) size write where
  exact {_ b _ _} h := all.get b h
  length_write := length_write
  size_pos := size_pos

theorem Decoders.standard_exact : Decoders.standard.Exact where
  ipv6Option := by
    have unknown : none.ipv6Options.All fun t decode => ExactFor t decode Ipv6Option.toBytes :=
      .empty Ipv6Option.decodeUnknown_exact
    exact .of_all
      (unknown.register Ipv6Option.decodePad1_exact
        |>.register Ipv6Option.decodePadN_exact
        |>.register Ipv6Option.decodeRouterAlert_exact)
      Ipv6Option.length_toBytes Ipv6Option.length_pos
  ndpOption := by
    have unknown : none.ndpOptions.All fun t decode => ExactFor t decode NdpOption.toBytes :=
      .empty NdpOption.decodeUnknown_exact
    exact .of_all
      (unknown.register NdpOption.decodeSourceLinkAddr_exact
        |>.register NdpOption.decodeTargetLinkAddr_exact
        |>.register NdpOption.decodePrefixInfo_exact
        |>.register NdpOption.decodeMtu_exact)
      NdpOption.length_toBytes NdpOption.length_pos
  gtpExtension := by
    have unknown : none.gtpExtensions.All GtpExtension.ExactFor :=
      .empty GtpExtension.decodeUnknown_exact
    exact (unknown.register GtpExtension.decodeUdpPort_exact
      |>.register GtpExtension.decodePduNumber_exact
      |>.register (GtpExtension.decodeLongPduNumber_exact _)
      |>.register (GtpExtension.decodeLongPduNumber_exact _)
      |>.register GtpExtension.decodeServiceClassIndicator_exact
      |>.register GtpExtension.decodePduSessionContainer_exact).get

/-- A number that selects what IP packets and the layers in them carry:
any but the EtherType of a frame. -/
def Selector.Internet : Selector → Prop
  | etherType _ => False
  | _ => True

/-- A decoder of what IP packets and the layers in them carry: it keeps
the bytes, or decodes a format from IP upwards. -/
def PacketDecoder.Internet : PacketDecoder → Prop
  | format f => f ≠ .ethernet ∧ f ≠ .arp
  | unknown => True
  | custom _ _ => False

/-- **Above IP there is no frame**: the numbers that select what IP
packets carry have decoders of formats from IP upwards. -/
def Decoders.Internet (d : Decoders) : Prop :=
  ∀ key : Selector, key.Internet → (d.select key).Internet

theorem Decoders.standard_internet : Decoders.standard.Internet := by
  have ip : standard.ipProtocols.All fun _ => PacketDecoder.Internet := by
    unfold standard
    repeat refine .register ?_ ⟨by decide, by decide⟩
    exact .empty fun _ => trivial
  have udp : standard.udpPorts.All fun _ => PacketDecoder.Internet :=
    .register (.empty fun _ => trivial) ⟨by decide, by decide⟩
  have icmpv6 : standard.icmpv6Types.All fun _ => PacketDecoder.Internet := by
    unfold standard
    repeat refine .register ?_ ⟨by decide, by decide⟩
    exact .empty fun _ => trivial
  have version : standard.ipVersions.All fun _ => PacketDecoder.Internet :=
    .register (.empty fun _ => trivial) ⟨by decide, by decide⟩
  intro key hkey
  cases key with
  | etherType n => exact hkey.elim
  | ipProtocol n => exact ip.get n
  | udpPort n => exact udp.get n
  | icmpv6Type n => exact icmpv6.get n
  | ipVersion n => exact version.get n

/-- **Decoders that lose nothing** but what IPv6 packets leave behind:
elements are exact, and above IP there are formats of this library
only. -/
structure Decoders.Lossless (d : Decoders) : Prop extends d.Exact where
  /-- No decoder is from elsewhere. -/
  native : ∀ key, (d.select key).Native
  /-- There is no frame above IP. -/
  internet : d.Internet

theorem Decoders.standard_lossless : Decoders.standard.Lossless where
  toExact := standard_exact
  native := standard_ofLibrary.native
  internet := standard_internet

/-! ## One layer -/

/-- What a frame is read from: its header, its body, and its frame check
sequence, if it is to have one. -/
theorem EthernetHeader.frame_of_readFrame {withFcs : Bool} {w : Window} {l : Peeled}
    (h : readFrame withFcs w = .ok l) :
    ∃ h body fcs, l = .frame h body fcs ∧ fcs.isSome = withFcs ∧ l.wire = w.bytes := by
  by_cases hlen : w.length < size + if withFcs then fcsSize else 0
  · simp only [readFrame, if_pos hlen, reduceCtorEq] at h
  · simp only [readFrame, if_neg hlen, bind_eq_ok, return_eq_ok, Window.read_eq_ok,
      Prod.exists] at h
    obtain ⟨h, rest, hread, rfl⟩ := h
    refine ⟨h, _, _, rfl, by cases withFcs <;> rfl, ?_⟩
    have hw := read?_exact hread
    rw [Peeled.wire, hw, List.append_assoc]
    congr 1
    cases withFcs with
    | false => simp
    | true =>
      have hrest : w.length = size + rest.length := by
        rw [Window.length, hw, List.length_append, h.length_toBytes]
      have htail : (rest.drop (rest.length - fcsSize)).length = 4 := by
        rw [if_pos rfl, fcsSize] at hlen
        rw [List.length_drop, fcsSize]
        omega
      simp only [if_true, Option.map_some, Option.getD_some]
      rw [Bytes.le32_ofNat_leNat htail, List.take_append_drop]

variable {ctx : Context}

/-- The kind of a layer. -/
def Peeled.kind : Peeled → Kind
  | leaf l => l.kind
  | carrier c _ => .format c.format
  | frame _ _ _ => .format .ethernet

/-- **What is read as a format is a layer of that format.** -/
theorem Context.kind_of_peel {f : Format} {w : Window} {l : Peeled} (h : ctx.peel f w = .ok l) :
    l.kind = .format f := by
  cases f <;> simp only [peel, peel.options, bind_eq_ok, return_eq_ok, Prod.exists] at h
  case ethernet =>
    obtain ⟨h, body, fcs, rfl, -⟩ := EthernetHeader.frame_of_readFrame h
    rfl
  case ipv6 | arp =>
    obtain ⟨h, rest, -, rfl⟩ := h
    rfl
  case hopByHop | destination | udp | gtp =>
    obtain ⟨h, trailer, inner, -, rfl⟩ := h
    rfl
  case routing | fragment | icmpv6 | echo =>
    obtain ⟨h, inner, -, rfl⟩ := h
    rfl
  case solicitation | advertisement | sctp =>
    obtain ⟨h, trailer, -, rfl⟩ := h
    rfl

attribute [local simp] Peeled.wire Carrier.header Carrier.unparsed Carrier.trailer in
/-- **A layer accounts for its window.** Its header, what it leaves to its
payload, and its trailer are the octets of the window, unless the format
is one that may leave some of it alone. -/
theorem Context.peel_wire (exact : ctx.decoders.Exact) {f : Format} {w : Window} {l : Peeled}
    (arp : f ≠ .arp) (ipv6 : f ≠ .ipv6) (h : ctx.peel f w = .ok l) : l.wire = w.bytes := by
  cases f <;> simp only [peel, peel.options, bind_eq_ok, return_eq_ok, Prod.exists] at h
  case ethernet =>
    obtain ⟨h, body, fcs, rfl, -, hwire⟩ := EthernetHeader.frame_of_readFrame h
    exact hwire
  case arp => exact absurd rfl arp
  case ipv6 => exact absurd rfl ipv6
  case hopByHop =>
    obtain ⟨h, unparsed, inner, hr, rfl⟩ := h
    rw [← OptionsHeader.bytes_of_read exact.ipv6Option hr]
    simp
  case destination =>
    obtain ⟨h, unparsed, inner, hr, rfl⟩ := h
    rw [← OptionsHeader.bytes_of_read exact.ipv6Option hr]
    simp
  case routing =>
    obtain ⟨h, inner, hr, rfl⟩ := h
    rw [← RoutingHeader.bytes_of_read hr]
    simp
  case fragment =>
    obtain ⟨h, inner, hr, rfl⟩ := h
    rw [← FragmentHeader.bytes_of_read hr]
    simp
  case icmpv6 =>
    obtain ⟨h, inner, hr, rfl⟩ := h
    rw [← Icmpv6Header.bytes_of_read hr]
    simp
  case echo =>
    obtain ⟨h, inner, hr, rfl⟩ := h
    rw [← EchoHeader.bytes_of_read hr]
    simp
  case solicitation =>
    obtain ⟨h, trailer, hr, rfl⟩ := h
    rw [← SolicitationHeader.bytes_of_read exact.ndpOption hr]
    rfl
  case advertisement =>
    obtain ⟨h, trailer, hr, rfl⟩ := h
    rw [← AdvertisementHeader.bytes_of_read exact.ndpOption hr]
    rfl
  case udp =>
    obtain ⟨h, trailer, inner, hr, rfl⟩ := h
    rw [← UdpHeader.bytes_of_read hr]
    simp
  case sctp =>
    obtain ⟨h, trailer, hr, rfl⟩ := h
    rw [← SctpHeader.bytes_of_read hr]
    rfl
  case gtp =>
    obtain ⟨h, trailer, inner, hr, rfl⟩ := h
    rw [← GtpHeader.bytes_of_read exact.gtpExtension hr]
    simp

/-! ## What selects a payload -/

theorem RoutingHeader.internet_of_read {w v : Window} {h : RoutingHeader} {key : Selector}
    (hr : read w = .ok (h, .dispatch key v)) : key.Internet := by
  unfold read at hr
  split at hr
  · dsimp only at hr
    split at hr
    · cases hr
    · simp only [bind_eq_ok, return_eq_ok, Prod.mk.injEq, Inner.dispatch.injEq] at hr
      obtain ⟨d, -, -, rfl, -⟩ := hr
      trivial
  · cases hr

theorem Inner.keep_ne_dispatch {data : Bytes} {key : Selector} {v : Window} :
    Inner.keep data ≠ .dispatch key v := by
  cases data with
  | nil => exact Inner.noConfusion
  | cons b data => exact Inner.noConfusion

theorem FragmentHeader.internet_of_read {w v : Window} {h : FragmentHeader} {key : Selector}
    (hr : read w = .ok (h, .dispatch key v)) : key.Internet := by
  simp only [read, bind_eq_ok, return_eq_ok, Prod.exists, Prod.mk.injEq] at hr
  obtain ⟨h, rest, -, rfl, hinner⟩ := hr
  split at hinner
  · cases hinner
    trivial
  · exact absurd hinner Inner.keep_ne_dispatch

theorem OptionsHeader.internet_of_read {kind : OptionsKind}
    {decode : Window → Except DecodeError Ipv6Option} {w v : Window} {h : OptionsHeader}
    {unparsed : Bytes} {key : Selector}
    (hr : read kind decode w = .ok (h, unparsed, .dispatch key v)) : key.Internet := by
  unfold read at hr
  split at hr
  · simp only [Except.ok.injEq, Prod.mk.injEq] at hr
    obtain ⟨-, -, hinner⟩ := hr
    split at hinner
    · cases hinner
    · cases hinner
      trivial
  · cases hr

theorem Icmpv6Header.internet_of_read {w v : Window} {h : Icmpv6Header} {key : Selector}
    (hr : read w = .ok (h, .dispatch key v)) : key.Internet := by
  simp only [read, bind_eq_ok, return_eq_ok, Prod.exists, Prod.mk.injEq,
    Inner.dispatch.injEq] at hr
  obtain ⟨h, rest, -, -, rfl, -⟩ := hr
  trivial

theorem EchoHeader.read_ne_dispatch {w v : Window} {h : EchoHeader} {key : Selector} :
    read w ≠ .ok (h, .dispatch key v) := by
  simp only [ne_eq, read, bind_eq_ok, return_eq_ok, Prod.exists, Prod.mk.injEq, not_exists,
    not_and]
  intro h rest _ _
  exact Inner.keep_ne_dispatch

theorem UdpHeader.internet_of_read {known : UdpPort → Bool} {w v : Window} {h : UdpHeader}
    {trailer : Bytes} {key : Selector} (hr : read known w = .ok (h, trailer, .dispatch key v)) :
    key.Internet := by
  simp only [read, bind_eq_ok, return_eq_ok, Prod.exists, Prod.mk.injEq,
    Inner.dispatch.injEq] at hr
  obtain ⟨h, rest, -, -, -, rfl, -⟩ := hr
  trivial

theorem GtpHeader.internet_of_inner {h : GtpHeader} {payload v : Window} {key : Selector}
    (hi : h.inner payload = .dispatch key v) : key.Internet := by
  unfold inner at hi
  split at hi
  · cases hi
  · split at hi
    · cases hi
      trivial
    · cases hi

theorem GtpHeader.internet_of_read
    {decode : GtpExtensionType → Window → Except DecodeError GtpExtension} {w v : Window}
    {h : GtpHeader} {trailer : Bytes} {key : Selector}
    (hr : read decode w = .ok (h, trailer, .dispatch key v)) : key.Internet := by
  simp only [read, bind_eq_ok, Prod.exists] at hr
  obtain ⟨h₀, rest₀, -, hr⟩ := hr
  split at hr
  · exact absurd hr throw_ne_ok
  · simp only [return_eq_ok, Prod.mk.injEq] at hr
    obtain ⟨-, -, hinner⟩ := hr
    exact internet_of_inner hinner

/-- **A layer that is not a frame** does not select what it carries by an
EtherType. -/
theorem Context.internet_of_peel {f : Format} {w v : Window} {c : Carrier} {key : Selector}
    (h : ctx.peel f w = .ok (.carrier c (.dispatch key v))) : key.Internet := by
  cases f <;> simp only [peel, peel.options, bind_eq_ok, return_eq_ok, Prod.exists,
    Peeled.carrier.injEq, reduceCtorEq, and_false, exists_false] at h
  case ethernet =>
    obtain ⟨h, body, fcs, hframe, -⟩ := EthernetHeader.frame_of_readFrame h
    cases hframe
  case ipv6 =>
    obtain ⟨h, rest, -, -, hinner⟩ := h
    cases hinner
    trivial
  case hopByHop | destination =>
    obtain ⟨h, unparsed, inner, hr, -, rfl⟩ := h
    exact OptionsHeader.internet_of_read hr
  case routing =>
    obtain ⟨h, inner, hr, -, rfl⟩ := h
    exact RoutingHeader.internet_of_read hr
  case fragment =>
    obtain ⟨h, inner, hr, -, rfl⟩ := h
    exact FragmentHeader.internet_of_read hr
  case icmpv6 =>
    obtain ⟨h, inner, hr, -, rfl⟩ := h
    exact Icmpv6Header.internet_of_read hr
  case echo =>
    obtain ⟨h, inner, hr, -, rfl⟩ := h
    exact absurd hr EchoHeader.read_ne_dispatch
  case udp =>
    obtain ⟨h, trailer, inner, hr, -, rfl⟩ := h
    exact UdpHeader.internet_of_read hr
  case gtp =>
    obtain ⟨h, trailer, inner, hr, -, rfl⟩ := h
    exact GtpHeader.internet_of_read hr

end PacketCodec
