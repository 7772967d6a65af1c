import PacketCodec.Proofs.Length
import PacketCodec.Proofs.Obtainable

/-!
# Copies of packets

The draft of a packet builds a *copy* of it. What a copy looks like is
said without drafts, by `Packet.copy`: bytes that a decoder rejects become
bytes that none claims, lists are no longer marked as cut short, and the
octets behind a datagram or behind the chunks of an SCTP packet are
forgotten, since the drafts of these two have no field for them. All else
is kept – the options and the octets behind them, the length fields
whether they are right or not, the reserved bits, the words of a message
that no flag calls for.

A packet that can be written has its copy built
(`Packet.Admissible.build_toDraft`). A copy is written as its packet is,
but for what is forgotten (`Packet.toBytes_copy`). So a packet that can
come about and has nothing to forget is copied octet by octet
(`Packet.Obtainable.build_toDraft_lossless`), and a datagram or an SCTP
packet with octets behind it is copied without them
(`Context.build_toDraft_decode`).
-/

namespace PacketCodec

/-! ## Copies -/

/-- The kind of the copy of a layer. -/
def Kind.copy : Kind → Kind
  | malformed => unknown
  | k => k

/-- **The copy of a layer.** -/
def Leaf.copy : Leaf → Leaf
  | arp h => .arp h
  | solicitation h trailer => .solicitation { h with truncated := false } trailer
  | advertisement h trailer => .advertisement { h with truncated := false } trailer
  | sctp h _ algorithm => .sctp { h with truncated := false } [] algorithm
  | unknown data => .unknown data
  | malformed data _ => .unknown data

/-- **The copy of a layer.** -/
def Carrier.copy : Carrier → Carrier
  | options kind h unparsed => .options kind { h with truncated := false } unparsed
  | udp h _ => .udp h []
  | gtp h trailer => .gtp { h with truncated := false } trailer
  | c => c

/-- **The copy of a packet**, layer by layer. -/
def Packet.copy : Packet → Packet
  | leaf l => .leaf l.copy
  | bare c => .bare c.copy
  | carry c p => .carry c.copy p.copy

/-- The octets of the outermost layer that its copy does not have. -/
def Packet.forgotten (p : Packet) : Bytes :=
  if p.kind = .format .udp ∨ p.kind = .format .sctp then p.trailer else []

/-! ## Copies are what drafts build -/

theorem Leaf.complete_toDraft (l : Leaf) : l.toDraft.complete = l.copy := by
  cases l <;> rfl

/-- The draft of a message has the type of the first extension header that
the message announces. -/
theorem GtpHeader.Admissible.headerWith_toDraft {h : GtpHeader} (valid : h.Admissible)
    (trailer : Bytes) :
    (h.toDraft trailer).headerWith h.lengthField = { h with truncated := false } := by
  have hannounced :
      (h.extensions.head?.map GtpExtension.extensionType).getD h.nextExtType = h.nextExtType := by
    cases he : h.extensions.head? with
    | none => rfl
    | some e => exact valid.announced e he
  simp only [toDraft, GtpDraft.headerWith, GtpDraft.extFlagOrDefault, Option.getD_some, hannounced]

/-- **The draft of a layer is completed to its copy**, whatever the
payload, since it asks for no correction. -/
theorem Carrier.complete_toDraft {c : Carrier} (h : c.Admissible) (payload : Option Packet) :
    c.toDraft.complete payload = .ok c.copy := by
  cases c with
  | gtp header trailer =>
    have hheader := h.headerWith_toDraft trailer
    show Except.ok (gtp ((header.toDraft trailer).headerWith header.lengthField) trailer) = _
    rw [hheader]
    rfl
  | _ => rfl

/-- **The draft of a packet that can be written builds its copy.** -/
theorem Packet.Admissible.build_toDraft {p : Packet} (h : p.Admissible) :
    p.toDraft.build = .ok p.copy := by
  induction p with
  | leaf l =>
    rw [Packet.toDraft, Draft.build, (l.violations_toDraft_eq_nil).mpr h, l.complete_toDraft]
    rfl
  | bare c =>
    rw [Packet.toDraft, Draft.build, Carrier.violations_toDraft h, Carrier.complete_toDraft h]
    rfl
  | carry c p ih =>
    rw [Packet.toDraft, Draft.build, Carrier.violations_toDraft h.1, ih h.2]
    simp only [Carrier.complete_toDraft h.1]
    rfl

/-! ## What copies keep -/

theorem Leaf.kind_copy (l : Leaf) : l.copy.kind = l.kind.copy := by
  cases l <;> rfl

theorem Carrier.format_copy (c : Carrier) : c.copy.format = c.format := by
  cases c <;> rfl

/-- **A copy has the layers of its packet.** -/
theorem Packet.kinds_copy (p : Packet) :
    p.copy.layers.map kind = (p.layers.map kind).map Kind.copy := by
  induction p with
  | leaf l => exact congrArg (fun k => [k]) l.kind_copy
  | bare c => exact congrArg (fun f => [Kind.format f]) c.format_copy
  | carry c p ih =>
    rw [copy, layers, layers, List.map_cons, List.map_cons, List.map_cons, ih]
    exact congrArg (fun f => Kind.format f :: _) c.format_copy

theorem Leaf.toBytes_copy (l : Leaf) : l.copy.toBytes ++ (Packet.leaf l).forgotten = l.toBytes := by
  cases l <;> simp [copy, toBytes, header?, trailer, Packet.forgotten, Packet.kind, Leaf.kind,
    Packet.trailer, SolicitationHeader.toBytes, AdvertisementHeader.toBytes,
    AdvertisementHeader.firstWord, SctpHeader.toBytes]

theorem Carrier.header_copy (c : Carrier) : c.copy.header = c.header := by
  cases c <;> rfl

theorem Carrier.unparsed_copy (c : Carrier) : c.copy.unparsed = c.unparsed := by
  cases c <;> rfl

theorem Carrier.format_ne_sctp (c : Carrier) : c.format ≠ .sctp := by
  intro h
  cases c with
  | options kind header unparsed => cases kind <;> cases h
  | _ => cases h

/-- Of the layers that carry packets, datagrams are what forgets
something. -/
theorem Packet.forgotten_ofCarrier (c : Carrier) (p : Option Packet) :
    (ofCarrier c p).forgotten = if c.format = .udp then c.trailer else [] := by
  cases p <;> simp [forgotten, ofCarrier, kind, trailer, c.format_ne_sctp]

theorem Carrier.trailer_copy (c : Carrier) (p : Option Packet) :
    c.copy.trailer ++ (Packet.ofCarrier c p).forgotten = c.trailer := by
  rw [Packet.forgotten_ofCarrier]
  cases c with
  | options kind h unparsed => cases kind <;> rfl
  | udp h trailer => rfl
  | _ => exact List.append_nil _

/-- **A copy is written as its packet is**, but for what the outermost
layer forgets, when no other layer forgets anything. -/
theorem Packet.toBytes_copy {p : Packet} (h : ∀ l ∈ p.layers.tail, l.forgotten = []) :
    p.copy.toBytes ++ p.forgotten = p.toBytes := by
  induction p with
  | leaf l => exact l.toBytes_copy
  | bare c =>
    rw [copy, toBytes, toBytes, c.header_copy, c.unparsed_copy, List.append_assoc]
    exact congrArg _ (c.trailer_copy none)
  | carry c p ih =>
    have hp : ∀ l ∈ p.layers, l.forgotten = [] := h
    rw [p.layers_eq_cons, List.forall_mem_cons] at hp
    -- The outermost layer of the payload is below, and so forgets nothing either.
    have hpayload : p.copy.toBytes = p.toBytes := by
      rw [← ih hp.2, hp.1, List.append_nil]
    have htrailer : c.copy.trailer ++ (carry c p).forgotten = c.trailer := c.trailer_copy (some p)
    simp only [copy, toBytes, c.header_copy, c.unparsed_copy, hpayload, List.append_assoc,
      htrailer]

/-- The condition under which the layers of a list forget nothing. -/
theorem Packet.forgotten_eq_nil {l : Packet} :
    l.forgotten = [] ↔ (l.kind = .format .udp ∨ l.kind = .format .sctp → l.trailer = []) := by
  rw [forgotten]
  split
  · next h => simp [h]
  · next h => simp [h]

/-- **Copying is lossless** for a packet that can come about when no
datagram and no SCTP packet in it has octets behind it: the draft builds a
packet with the same octets and the same layers, except that bytes that a
decoder rejects are just bytes. -/
theorem Packet.Obtainable.build_toDraft_lossless {p : Packet} (h : p.Obtainable .standard)
    (complete : ∀ l ∈ p.layers,
      l.kind = .format .udp ∨ l.kind = .format .sctp → l.trailer = []) :
    ∃ q, p.toDraft.build = .ok q ∧ q.toBytes = p.toBytes ∧ q.length = p.length
      ∧ q.layers.map kind = (p.layers.map kind).map Kind.copy := by
  have hforgotten : ∀ l ∈ p.layers, l.forgotten = [] := fun l hl =>
    forgotten_eq_nil.mpr (complete l hl)
  rw [p.layers_eq_cons, List.forall_mem_cons] at hforgotten
  have hbytes : p.copy.toBytes = p.toBytes := by
    rw [← toBytes_copy hforgotten.2, hforgotten.1, List.append_nil]
  refine ⟨p.copy, (h.admissible Decoders.standard_ofLibrary Decoders.standard_exact).build_toDraft,
    hbytes, ?_, p.kinds_copy⟩
  rw [← length_toBytes, hbytes, length_toBytes]

/-- A message with an extension header, in which the body of a tunnelled
packet is too short for its format, and octets behind it. -/
theorem Packet.Obtainable.build_toDraft_lossless_tunnelled :
    let inner : Ipv6Header :=
      ⟨6, 0, 0, 3, IpProtocol.icmpv6, 64, ⟨Bytes.zeros 16, rfl⟩, ⟨Bytes.zeros 16, rfl⟩⟩
    let buf : Bytes := [0x34, 0xff, 0, 51, 0, 0, 0, 1, 0, 9, 7, 0x40, 1, 0x12, 0x34, 0]
      ++ inner.toBytes ++ [128, 0, 0] ++ [0xaa]
    ∃ p q, Context.decode ⟨.standard, {}⟩ .gtp buf 0 60 = .ok p
      ∧ p.layers.map kind = [.format .gtp, .format .ipv6, .malformed]
      ∧ p.toDraft.build = .ok q ∧ q.toBytes = p.toBytes
      ∧ q.layers.map kind = [.format .gtp, .format .ipv6, .unknown] := by
  intro inner buf
  have hlayers : ((Context.decode ⟨.standard, {}⟩ .gtp buf 0 60).toOption.map
      fun p => (p.layers.map kind, p.layers.map forgotten))
        = some ([.format .gtp, .format .ipv6, .malformed], [[], [], []]) := by decide +kernel
  cases hp : Context.decode ⟨.standard, {}⟩ .gtp buf 0 60 with
  | error e => rw [hp] at hlayers; cases hlayers
  | ok p =>
    rw [hp] at hlayers
    obtain ⟨hkinds, hforgotten⟩ := Prod.mk.inj (Option.some.inj hlayers)
    have hcomplete : ∀ l ∈ p.layers, l.forgotten = [] := by
      intro l hl
      have hmem := List.mem_map_of_mem (f := forgotten) hl
      rw [hforgotten] at hmem
      simpa using hmem
    obtain ⟨q, hq, hbytes, -, hcopy⟩ := Obtainable.build_toDraft_lossless (.of_decode hp)
      fun l hl => forgotten_eq_nil.mp (hcomplete l hl)
    refine ⟨p, q, rfl, hkinds, hq, hbytes, ?_⟩
    rw [hcopy, hkinds]
    rfl

/-- **A datagram and an SCTP packet are copied without the octets behind
them**, whatever they carry, as long as nothing below has such octets. The
copy is the same on the wire only if there are none. Packets of all other
formats are copied octet by octet. -/
theorem Context.build_toDraft_decode {settings : Settings} {f : Format} {buf : Bytes}
    {offset length : Nat} {p : Packet}
    (h : decode ⟨.standard, settings⟩ f buf offset length = .ok p)
    (below : ∀ l ∈ p.layers.tail,
      l.kind = .format .udp ∨ l.kind = .format .sctp → l.trailer = []) :
    ∃ q, p.toDraft.build = .ok q
      ∧ (f = .udp ∨ f = .sctp →
          q.toBytes ++ p.trailer = p.toBytes ∧ (q.toBytes = p.toBytes ↔ p.trailer = []))
      ∧ (f ≠ .udp → f ≠ .sctp → q.toBytes = p.toBytes) := by
  have hkind : p.kind = .format f := by
    rw [decode, bind_eq_ok] at h
    obtain ⟨w, -, h⟩ := h
    rw [decodeWindow, map_eq_ok] at h
    obtain ⟨l, hl, rfl⟩ := h
    rw [Peeled.kind_assemble, kind_of_peel hl]
  have hobtainable : p.Obtainable .standard := .of_decode h
  have hbytes : p.copy.toBytes ++ p.forgotten = p.toBytes :=
    Packet.toBytes_copy fun l hl => Packet.forgotten_eq_nil.mpr (below l hl)
  refine ⟨p.copy, (hobtainable.admissible Decoders.standard_ofLibrary
    Decoders.standard_exact).build_toDraft, fun hf => ?_, fun hudp hsctp => ?_⟩
  · have hforgotten : p.forgotten = p.trailer := by
      rw [Packet.forgotten, hkind]
      rcases hf with rfl | rfl <;> rfl
    rw [hforgotten] at hbytes
    exact ⟨hbytes, by rw [← hbytes, List.self_eq_append_right]⟩
  · have hforgotten : p.forgotten = [] := by
      rw [Packet.forgotten, hkind, if_neg (by simp [hudp, hsctp])]
    rw [← hbytes, hforgotten, List.append_nil]

/-- A datagram with two octets behind it and an SCTP packet with a chunk
that cannot be decoded are copied without these. -/
theorem Context.build_toDraft_decode_trailer :
    let datagram : Bytes := [0x13, 0x88, 0x13, 0x89, 0, 9, 0, 0, 1, 2, 3]
    let sctp : Bytes :=
      [0x0b, 0x59, 0x0b, 0x59, 0, 0, 0, 1, 0, 0, 0, 0, 0, 0, 0, 7, 1, 2, 3, 0, 9, 0, 0]
    (∃ p q, decode ⟨.standard, {}⟩ .udp datagram 0 11 = .ok p ∧ p.trailer = [2, 3]
      ∧ p.toDraft.build = .ok q ∧ q.toBytes ++ [2, 3] = p.toBytes ∧ q.toBytes ≠ p.toBytes)
    ∧ ∃ p q, decode ⟨.standard, {}⟩ .sctp sctp 0 23 = .ok p ∧ p.trailer = [9, 0, 0]
      ∧ p.toDraft.build = .ok q ∧ q.toBytes ++ [9, 0, 0] = p.toBytes ∧ q.toBytes ≠ p.toBytes := by
  intro datagram sctp
  constructor
  · have hp : decode ⟨.standard, {}⟩ .udp datagram 0 11
        = .ok (.carry (.udp ⟨5000, 5001, 9, 0⟩ [2, 3]) (.unknown [1])) := by decide +kernel
    obtain ⟨q, hq, hbytes, -⟩ := build_toDraft_decode hp (by decide)
    obtain ⟨happend, hiff⟩ := hbytes (.inl rfl)
    exact ⟨_, q, hp, rfl, hq, happend, fun heq => absurd (hiff.mp heq) (by decide)⟩
  · have hp : decode ⟨.standard, {}⟩ .sctp sctp 0 23
        = .ok (.leaf (.sctp ⟨2905, 2905, 1, 0, [⟨0, 0, 7, [1, 2, 3], [0]⟩], true⟩ [9, 0, 0]
            .crc32c)) := by decide +kernel
    obtain ⟨q, hq, hbytes, -⟩ := build_toDraft_decode hp (by decide)
    obtain ⟨happend, hiff⟩ := hbytes (.inr rfl)
    exact ⟨_, q, hp, rfl, hq, happend, fun heq => absurd (hiff.mp heq) (by decide)⟩

end PacketCodec
