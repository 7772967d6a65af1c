import PacketCodec.Decoders

/-!
# Decoding

A window is decoded in two steps. `Context.peel` reads one layer off it
and says what the layer carries; it does not look at the payload. Then
`Peeled.assemble` puts the layer over its payload, which some function
from selecting numbers and windows to packets decodes. That function is
`Context.payload`: it looks up the decoder that the number selects, and
it never fails. Bytes that the decoder rejects become a malformed layer,
bytes below the largest depth an unknown one.

A frame is the one layer that depends on its payload: octets of its body
that the decoded payload does not account for are its pad, and a payload
that would not be written as the octets it was read from is not used.
-/

namespace PacketCodec

/-- **The decoders and settings of a decoding.** -/
structure Context where
  decoders : Decoders := .standard
  settings : Settings := {}

/-! ## One layer -/

/-- **A layer read off a window.** -/
inductive Peeled where
  /-- A layer that carries no packet. -/
  | leaf (l : Leaf)
  /-- A layer and what it carries. -/
  | carrier (c : Carrier) (inner : Inner)
  /-- A frame: its header, its body, and its frame check sequence. -/
  | frame (h : EthernetHeader) (body : Window) (fcs : Option UInt32)
  deriving DecidableEq

/-- Reads a frame off a window: the header, the body, and, if the window
ends with one, the frame check sequence. -/
def EthernetHeader.readFrame (withFcs : Bool) (w : Window) : Except DecodeError Peeled :=
  let tail := if withFcs then fcsSize else 0
  if w.length < size + tail then .error (w.tooShort protocol (size + tail))
  else do
    let (h, rest) ← w.read protocol size read?
    let bodyLength := rest.length - tail
    let fcs := if withFcs then some (UInt32.ofNat (Bytes.leNat (rest.drop bodyLength))) else none
    return .frame h ⟨w.offset + size, rest.take bodyLength⟩ fcs

namespace Context

/-- **Reads one layer of a format off a window.** -/
def peel (ctx : Context) (f : Format) (w : Window) : Except DecodeError Peeled :=
  match f with
  | .ethernet => EthernetHeader.readFrame false w
  | .arp => do
    let (h, _) ← w.read ArpHeader.protocol ArpHeader.size ArpHeader.read?
    return .leaf (.arp h)
  | .ipv6 => do
    let (h, rest) ← w.read Ipv6Header.protocol Ipv6Header.size Ipv6Header.read?
    let payload := rest.take (h.payloadExtent rest.length)
    return .carrier (.ipv6 h)
      (.dispatch (.ipProtocol h.nextHeader) ⟨w.offset + Ipv6Header.size, payload⟩)
  | .hopByHop => options .hopByHop
  | .destination => options .destination
  | .routing => do
    let (h, inner) ← RoutingHeader.read w
    return .carrier (.routing h) inner
  | .fragment => do
    let (h, inner) ← FragmentHeader.read w
    return .carrier (.fragment h) inner
  | .icmpv6 => do
    let (h, inner) ← Icmpv6Header.read w
    return .carrier (.icmpv6 h) inner
  | .echo => do
    let (h, inner) ← EchoHeader.read w
    return .carrier (.echo h) inner
  | .solicitation => do
    let (h, trailer) ← SolicitationHeader.read ctx.decoders.ndpOption w
    return .leaf (.solicitation h trailer)
  | .advertisement => do
    let (h, trailer) ← AdvertisementHeader.read ctx.decoders.ndpOption w
    return .leaf (.advertisement h trailer)
  | .udp => do
    let (h, trailer, inner) ← UdpHeader.read ctx.decoders.udpPorts.contains w
    return .carrier (.udp h trailer) inner
  | .sctp => do
    let (h, trailer) ← SctpHeader.read w
    return .leaf (.sctp h trailer ctx.settings.sctpChecksum)
  | .gtp => do
    let (h, trailer, inner) ← GtpHeader.read ctx.decoders.gtpExtension w
    return .carrier (.gtp h trailer) inner
where
  /-- An options header of either kind. -/
  options (kind : OptionsKind) : Except DecodeError Peeled := do
    let (h, unparsed, inner) ← OptionsHeader.read kind ctx.decoders.ipv6Option w
    return .carrier (.options kind h unparsed) inner

end Context

/-! ## A layer over its payload -/

/-- A frame over its decoded payload. What the payload does not account
for is the pad; a payload that is not written as the octets at the front
of the body is replaced by those octets. -/
def EthernetHeader.frame (h : EthernetHeader) (fcs : Option UInt32) (body : Bytes) :
    Option Packet → Packet
  | none => .bare (.ethernet h body fcs)
  | some p =>
    let raw := p.toBytes
    if raw.isPrefixOf body then .carry (.ethernet h (body.drop raw.length) fcs) p
    else .carry (.ethernet h [] fcs) (.unknown body)

/-- **A layer over its payload**, which `payload` decodes. -/
def Peeled.assemble (payload : Selector → Window → Option Packet) : Peeled → Packet
  | leaf l => .leaf l
  | carrier c .nothing => .bare c
  | carrier c (.kept data) => .carry c (.unknown data)
  | carrier c (.dispatch key w) => .ofCarrier c (payload key w)
  | frame h body fcs => h.frame fcs body.bytes (payload (.etherType h.etherType) body)

/-- Decodes a window, with `payload` for the payload and `left` layers
allowed below it. -/
def PacketDecoder.run (ctx : Context) (payload : Selector → Window → Option Packet) (left : Nat)
    (w : Window) : PacketDecoder → Except DecodeError Packet
  | format f => (ctx.peel f w).map (Peeled.assemble payload)
  | unknown => .ok (.unknown w.bytes)
  | custom _ decode => decode left w

namespace Context

/-- **Decodes a payload** by the number that selects its decoder, with
`left` layers allowed. Empty windows hold no payload. -/
def payload (ctx : Context) : (left : Nat) → Selector → Window → Option Packet
  | 0, _, w => if w.bytes.isEmpty then none else some (.unknown w.bytes)
  | left + 1, key, w =>
    if w.bytes.isEmpty then none
    else
      match (ctx.decoders.select key).run ctx (ctx.payload left) left w with
      | .ok p => some p
      | .error e => some (.malformed w.bytes e)

/-- Decodes payloads with all the layers that the settings allow. -/
def payloads (ctx : Context) : Selector → Window → Option Packet :=
  ctx.payload ctx.settings.maxDepth

/-- **Decodes a window** as a packet of the given format. -/
def decodeWindow (ctx : Context) (f : Format) (w : Window) : Except DecodeError Packet :=
  (ctx.peel f w).map (Peeled.assemble ctx.payloads)

/-- Decodes a window as a frame that ends with a frame check sequence. -/
def decodeFcsWindow (ctx : Context) (w : Window) : Except DecodeError Packet :=
  (EthernetHeader.readFrame true w).map (Peeled.assemble ctx.payloads)

/-! ## Windows of a buffer -/

/-- **Decodes the `length` bytes of `buf` from `offset` on** as a packet
of the given format. -/
def decode (ctx : Context) (f : Format) (buf : Bytes) (offset length : Nat) :
    Except DecodeError Packet :=
  Window.cut f.protocol buf offset length >>= ctx.decodeWindow f

/-- The same for a frame that ends with a frame check sequence. -/
def decodeFcs (ctx : Context) (buf : Bytes) (offset length : Nat) : Except DecodeError Packet :=
  Window.cut EthernetHeader.protocol buf offset length >>= ctx.decodeFcsWindow

/-- The same with any decoder. Bytes that are kept as they are never
fail: a window that reaches past the end of the buffer is cut there. -/
def decodeWith (ctx : Context) (d : PacketDecoder) (buf : Bytes) (offset length : Nat) :
    Except DecodeError Packet :=
  match d with
  | .format f => ctx.decode f buf offset length
  | .unknown => .ok (.unknown (buf.clamp offset length))
  | .custom name run =>
    Window.cut name buf offset length >>= run ctx.settings.maxDepth

/-- **Decodes with the decoder that a number of a space selects.** -/
def decodeNumber (ctx : Context) (buf : Bytes) (offset length : Nat) :
    (s : DecoderSpace) → s.Number → Except DecodeError s.Value
  | .etherType, n => ctx.decodeWith (ctx.decoders.etherTypes.get n) buf offset length
  | .ipProtocol, n => ctx.decodeWith (ctx.decoders.ipProtocols.get n) buf offset length
  | .udpPort, n => ctx.decodeWith (ctx.decoders.udpPorts.get n) buf offset length
  | .icmpv6Type, n => ctx.decodeWith (ctx.decoders.icmpv6Types.get n) buf offset length
  | .ipVersion, n => ctx.decodeWith (ctx.decoders.ipVersions.get n) buf offset length
  | .ipv6Option, n =>
    Window.cut Ipv6Option.protocol buf offset length >>= ctx.decoders.ipv6Options.get n
  | .ndpOption, n =>
    Window.cut NdpOption.protocol buf offset length >>= ctx.decoders.ndpOptions.get n
  | .gtpExtension, n =>
    Window.cut GtpExtension.protocol buf offset length >>= ctx.decoders.gtpExtensions.get n

/-- Decodes a payload at a place in a buffer. A window that reaches past
the end of the buffer is malformed, with the bytes there are. -/
def decodePayload (ctx : Context) (key : Selector) (buf : Bytes) (offset length : Nat) :
    Option Packet :=
  if length = 0 then none
  else
    match Window.cut? buf offset length with
    | some w => ctx.payloads key w
    | none =>
      let data := buf.clamp offset length
      if ctx.settings.maxDepth = 0 then some (.unknown data)
      else
        match ctx.decodeWith (ctx.decoders.select key) buf offset length with
        | .ok p => some p
        | .error e => some (.malformed data e)

end Context

end PacketCodec
