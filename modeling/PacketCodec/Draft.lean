import PacketCodec.Packet.Verify

/-!
# Drafts

A draft is a packet under construction. Its layers have the shape of a
packet's, with fields that may be unset and requests to correct lengths
and checksums. `Draft.build` makes the packet or says what is wrong.

A draft is built from the outside in and completed from the inside out.
What is wrong with a layer's own fields is found before its payload is
looked at, all of it together; then the payload is built; then the layer
is completed over it, which can still fail when a corrected length does
not fit its field. The error of a payload becomes that of the layers
around it.

`Packet.toDraft` is the draft that has the fields of a packet.
-/

namespace PacketCodec

/-! ## Layers that end a chain -/

/-- **A layer under construction that carries no packet.** -/
inductive LeafDraft where
  /-- An ARP message. -/
  | arp (d : ArpDraft)
  /-- A neighbor solicitation. -/
  | solicitation (d : SolicitationDraft)
  /-- A neighbor advertisement. -/
  | advertisement (d : AdvertisementDraft)
  /-- An SCTP packet. -/
  | sctp (d : SctpDraft)
  /-- Bytes, which are required. -/
  | unknown (data : Option Bytes)
  deriving DecidableEq

namespace LeafDraft

/-- The kind of layer that the draft is for. -/
def kind : LeafDraft → Kind
  | arp _ => .format .arp
  | solicitation _ => .format .solicitation
  | advertisement _ => .format .advertisement
  | sctp _ => .format .sctp
  | unknown _ => .unknown

/-- What is wrong with the draft. -/
def violations : LeafDraft → List Violation
  | arp d => d.violations
  | solicitation d => d.violations
  | advertisement d => d.violations
  | sctp d => d.violations
  | unknown data => Violation.ifMissing "data" data

/-- The layer of a draft that nothing is wrong with. -/
def complete (l : LeafDraft) (settings : Settings := {}) : Leaf :=
  match l with
  | arp d => .arp d.header
  | solicitation d => .solicitation d.header d.trailer
  | advertisement d => .advertisement d.header d.trailer
  | sctp d => .sctp (d.header settings) [] (d.algorithmOrDefault settings)
  | unknown data => .unknown (data.getD [])

end LeafDraft

/-! ## Layers that carry a packet -/

/-- **A layer under construction that can carry a packet**, the packet
apart. -/
inductive CarrierDraft where
  /-- A frame. -/
  | ethernet (d : EthernetDraft)
  /-- An IPv6 packet. -/
  | ipv6 (d : Ipv6Draft)
  /-- An options header. -/
  | options (kind : OptionsKind) (d : OptionsDraft)
  /-- A routing header. -/
  | routing (d : RoutingDraft)
  /-- A fragment header. -/
  | fragment (d : FragmentDraft)
  /-- An ICMPv6 message. -/
  | icmpv6 (d : Icmpv6Draft)
  /-- The body of an echo message. -/
  | echo (d : EchoDraft)
  /-- A datagram. -/
  | udp (d : UdpDraft)
  /-- A GTP message. -/
  | gtp (d : GtpDraft)
  deriving DecidableEq

namespace CarrierDraft

/-- The format of the layer that the draft is for. -/
def format : CarrierDraft → Format
  | ethernet _ => .ethernet
  | ipv6 _ => .ipv6
  | options kind _ => kind.format
  | routing _ => .routing
  | fragment _ => .fragment
  | icmpv6 _ => .icmpv6
  | echo _ => .echo
  | udp _ => .udp
  | gtp _ => .gtp

/-- What is wrong with the draft, its payload apart. -/
def violations : CarrierDraft → List Violation
  | ethernet d => d.violations
  | ipv6 d => d.violations
  | options _ d => d.violations
  | routing d => d.violations
  | fragment d => d.violations
  | icmpv6 d => d.violations
  | echo d => d.violations
  | udp d => d.violations
  | gtp d => d.violations

/-- The frame of a draft over its payload. -/
def completeFrame (d : EthernetDraft) (payload : Option Packet) : Carrier :=
  let length := (payload.map Packet.length).getD 0
  let pad := if d.padding then Bytes.zeros (EthernetHeader.minPayload - length) else d.pad
  let fcs := if d.checked then some (d.header.fcsFor payload pad) else d.fcs
  .ethernet d.header pad fcs

/-- The layer of a draft that nothing is wrong with, over its payload,
unless a length to be corrected does not fit. -/
def complete (payload : Option Packet) : CarrierDraft → Except BuildError Carrier
  | ethernet d => .ok (completeFrame d payload)
  | ipv6 d => (d.header ((payload.map Packet.length).getD 0)).map .ipv6
  | options kind d => .ok (.options kind d.header d.unparsed)
  | routing d => .ok (.routing d.header)
  | fragment d => .ok (.fragment d.header)
  | icmpv6 d => (d.header (payloadBytes payload)).map .icmpv6
  | echo d => .ok (.echo d.header)
  | udp d => (d.header (payloadBytes payload)).map fun h => .udp h []
  | gtp d => (d.header ((payload.map Packet.length).getD 0)).map fun h => .gtp h d.trailer

end CarrierDraft

/-! ## Chains of layers -/

/-- **A packet under construction.** -/
inductive Draft where
  /-- A layer that carries no packet. -/
  | leaf (l : LeafDraft)
  /-- A layer that could carry a packet but does not. -/
  | bare (c : CarrierDraft)
  /-- A layer and the packet it carries. -/
  | carry (c : CarrierDraft) (payload : Draft)
  deriving DecidableEq

namespace Draft

/-- Bytes. -/
def unknown (data : Bytes) : Draft := leaf (.unknown (some data))

/-- The draft of a kind of layer with nothing set. Bytes that a decoder
rejects have none. -/
def empty? : Kind → Option Draft
  | .format .ethernet => some (bare (.ethernet {}))
  | .format .arp => some (leaf (.arp {}))
  | .format .ipv6 => some (bare (.ipv6 {}))
  | .format .hopByHop => some (bare (.options .hopByHop {}))
  | .format .destination => some (bare (.options .destination {}))
  | .format .routing => some (bare (.routing {}))
  | .format .fragment => some (bare (.fragment {}))
  | .format .icmpv6 => some (bare (.icmpv6 {}))
  | .format .echo => some (bare (.echo {}))
  | .format .solicitation => some (leaf (.solicitation {}))
  | .format .advertisement => some (leaf (.advertisement {}))
  | .format .udp => some (bare (.udp {}))
  | .format .sctp => some (leaf (.sctp {}))
  | .format .gtp => some (bare (.gtp {}))
  | .unknown => some (leaf (.unknown none))
  | .malformed => none

/-- A layer over a payload, if there is one. -/
def ofCarrier (c : CarrierDraft) : Option Draft → Draft
  | none => bare c
  | some p => carry c p

/-- The kind of the outermost layer. -/
def kind : Draft → Kind
  | leaf l => l.kind
  | bare c => .format c.format
  | carry c _ => .format c.format

/-- The draft of what the outermost layer carries. -/
def payload? : Draft → Option Draft
  | carry _ p => some p
  | _ => none

/-- The draft with another payload, if its outermost layer can carry
one. -/
def withPayload (payload : Option Draft) : Draft → Draft
  | leaf l => leaf l
  | bare c => ofCarrier c payload
  | carry c _ => ofCarrier c payload

/-- What the layers are called, outermost first. -/
def names : Draft → List String
  | leaf l => [l.kind.name]
  | bare c => [c.format.protocol]
  | carry c p => c.format.protocol :: p.names

/-- **Builds the packet**, or says what is wrong. -/
def build (d : Draft) (settings : Settings := {}) : Except BuildError Packet :=
  match d with
  | leaf l => do
    BuildError.check l.kind.name l.violations
    return .leaf (l.complete settings)
  | bare c => do
    BuildError.check c.format.protocol c.violations
    return .bare (← c.complete none)
  | carry c p => do
    BuildError.check c.format.protocol c.violations
    match p.build settings with
    | .error e => throw ⟨c.format.protocol, [.payload e.protocol e.violations]⟩
    | .ok payload => return .carry (← c.complete (some payload)) payload

end Draft

/-! ## From packets -/

/-- The draft that has the fields of a layer. Bytes that a decoder
rejects have no fields: they become bytes. -/
def Leaf.toDraft : Leaf → LeafDraft
  | arp h => .arp h.toDraft
  | solicitation h trailer => .solicitation (h.toDraft trailer)
  | advertisement h trailer => .advertisement (h.toDraft trailer)
  | sctp h _ algorithm => .sctp (h.toDraft algorithm)
  | unknown data => .unknown data
  | malformed data _ => .unknown data

/-- The draft that has the fields of a layer. -/
def Carrier.toDraft : Carrier → CarrierDraft
  | ethernet h pad fcs =>
    .ethernet { dst := h.dst, src := h.src, etherType := h.etherType, pad, fcs }
  | ipv6 h => .ipv6 h.toDraft
  | options kind h unparsed => .options kind (h.toDraft unparsed)
  | routing h => .routing h.toDraft
  | fragment h => .fragment h.toDraft
  | icmpv6 h => .icmpv6 h.toDraft
  | echo h => .echo h.toDraft
  | udp h _ => .udp h.toDraft
  | gtp h trailer => .gtp (h.toDraft trailer)

/-- **The draft that has the fields of a packet.** -/
def Packet.toDraft : Packet → Draft
  | leaf l => .leaf l.toDraft
  | bare c => .bare c.toDraft
  | carry c p => .carry c.toDraft p.toDraft

end PacketCodec
