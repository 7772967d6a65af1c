import PacketCodec.Packet.Verify
import PacketCodec.Proofs.GtpChain
import PacketCodec.Proofs.Options

/-!
# Lengths are counted right

A packet tells its length without being written. The count is right for
every packet: the lengths of headers are (`Leaf.length_header?` for the
layers that end a chain, `Carrier.length_header` for the others), so are
those of trailers, and lists of elements are as long as the sum of what
their elements take up. What a layer announces adds up from what its parts
do (`Packet.lengths_of_layers`).
-/

namespace PacketCodec

/-! ## Headers -/

theorem ArpHeader.length_toBytes (h : ArpHeader) : h.toBytes.length = size := by
  simp [toBytes, size, Octets.length_eq]

theorem EchoHeader.length_toBytes (h : EchoHeader) : h.toBytes.length = size := by
  simp [toBytes, size]

theorem OptionsHeader.length_toBytes (h : OptionsHeader) : h.toBytes.length = h.length := by
  rw [toBytes, List.length_cons, List.length_cons,
    length_flatMap_eq_totalSize Ipv6Option.length_toBytes, length]
  omega

theorem RoutingData.length_toBytes (d : RoutingData) : d.toBytes.length = d.length := by
  cases d with
  | type0 reserved addresses =>
    have haddresses : (addresses.flatMap Octets.bytes).length = 16 * addresses.length := by
      induction addresses with
      | nil => rfl
      | cons a more ih =>
        rw [List.flatMap_cons, List.length_append, a.length_eq, ih, List.length_cons]
        omega
    rw [toBytes, List.length_append, Bytes.length_be32, haddresses, length]
  | unknown t data => rfl

theorem RoutingHeader.length_toBytes (h : RoutingHeader) : h.toBytes.length = h.length := by
  rw [toBytes, List.length_append, RoutingData.length_toBytes, length]
  rfl

theorem GtpHeader.length_toBytes (h : GtpHeader) : h.toBytes.length = h.length := by
  have hoptional : h.optionalBytes.length = if h.hasOptional then optionalSize else 0 := by
    rw [optionalBytes]
    split <;> rfl
  simp only [toBytes, List.length_append, length_chainBytes, hoptional, length]
  rfl

theorem SolicitationHeader.length_toBytes (h : SolicitationHeader) :
    h.toBytes.length = h.length := by
  rw [toBytes, List.length_append, List.length_append, Bytes.length_be32, h.target.length_eq,
    length_flatMap_eq_totalSize NdpOption.length_toBytes, length, neighborFixedSize]

theorem AdvertisementHeader.length_toBytes (h : AdvertisementHeader) :
    h.toBytes.length = h.length := by
  rw [toBytes, List.length_append, List.length_append, Bytes.length_be32, h.target.length_eq,
    length_flatMap_eq_totalSize NdpOption.length_toBytes, length, neighborFixedSize]

theorem SctpHeader.length_toBytes (h : SctpHeader) : h.toBytes.length = h.length := by
  simp only [toBytes, List.length_append, Bytes.length_be16, Bytes.length_be32,
    length_flatMap_eq_totalSize SctpChunk.length_toBytes, length, size]

/-! ## Layers -/

theorem Leaf.length_header? (l : Leaf) : l.headerLength? = l.header?.map List.length := by
  cases l with
  | arp h => exact congrArg some h.length_toBytes.symm
  | solicitation h trailer => exact congrArg some h.length_toBytes.symm
  | advertisement h trailer => exact congrArg some h.length_toBytes.symm
  | sctp h trailer algorithm => exact congrArg some h.length_toBytes.symm
  | unknown data => rfl
  | malformed data reason => rfl

theorem Leaf.length_toBytes (l : Leaf) : l.toBytes.length = l.length := by
  rw [toBytes, List.length_append, length, length_header?]
  cases l.header? <;> rfl

namespace Carrier

theorem length_header (c : Carrier) : c.header.length = c.headerLength := by
  cases c with
  | ethernet h pad fcs => exact h.length_toBytes
  | ipv6 h => exact h.length_toBytes
  | options kind h unparsed => exact h.length_toBytes
  | routing h => exact h.length_toBytes
  | fragment h => exact h.length_toBytes
  | icmpv6 h => exact h.length_toBytes
  | echo h => exact h.length_toBytes
  | udp h trailer => exact h.length_toBytes
  | gtp h trailer => exact h.length_toBytes

theorem length_trailer (c : Carrier) : c.trailer.length = c.trailerLength := by
  cases c with
  | ethernet h pad fcs => cases fcs <;> simp [trailer, trailerLength, EthernetHeader.fcsSize]
  | udp h trailer => rfl
  | gtp h trailer => rfl
  | _ => rfl

end Carrier

namespace Packet

/-- **A packet is as long as it says.** -/
theorem length_toBytes (p : Packet) : p.toBytes.length = p.length := by
  induction p with
  | leaf l => exact l.length_toBytes
  | bare c =>
    rw [toBytes, List.length_append, List.length_append, c.length_header, c.length_trailer, length]
  | carry c p ih =>
    rw [toBytes, List.length_append, List.length_append, List.length_append, c.length_header,
      c.length_trailer, ih, length]
    omega

theorem length_payloadBytes (p : Option Packet) :
    (payloadBytes p).length = (p.map length).getD 0 := by
  cases p with
  | none => rfl
  | some p => exact p.length_toBytes

/-- The octets between header and payload of the outermost layer. -/
def unparsed : Packet → Bytes
  | leaf _ => []
  | bare c => c.unparsed
  | carry c _ => c.unparsed

theorem length_header? (p : Packet) : p.headerLength? = p.header?.map List.length := by
  cases p with
  | leaf l => exact l.length_header?
  | bare c => exact congrArg some c.length_header.symm
  | carry c p => exact congrArg some c.length_header.symm

theorem length_trailer (p : Packet) : p.trailer.length = p.trailerLength := by
  cases p with
  | leaf l => rfl
  | bare c => exact c.length_trailer
  | carry c p => exact c.length_trailer

/-- A packet is as long as its parts. -/
theorem length_eq_parts (p : Packet) :
    p.length = p.headerLength?.getD 0 + p.unparsed.length + (p.payload?.map length).getD 0
      + p.trailerLength := by
  cases p <;> rfl

/-- **What a layer announces is true**, for every layer of every packet:
its header is as long as it says, and so is the layer, which is its header,
the octets behind it, its payload and its trailer. -/
theorem lengths_of_layers (p : Packet) :
    ∀ l ∈ p.layers,
      l.headerLength? = l.header?.map List.length
        ∧ l.toBytes.length = l.length
        ∧ l.trailer.length = l.trailerLength
        ∧ l.length = l.headerLength?.getD 0 + l.unparsed.length
            + (l.payload?.map length).getD 0 + l.trailerLength :=
  fun l _ => ⟨l.length_header?, l.length_toBytes, l.length_trailer, l.length_eq_parts⟩

/-- A datagram whose payload is an options header that was cut short: six
octets of header, two that could not be read, and two of payload. -/
theorem lengths_of_layers_cut_short :
    let options : Packet := .carry
      (.options .destination ⟨253, 0, [.routerAlert 0], true⟩ [0x3e, 9]) (.unknown [0xaa, 0xbb])
    let datagram : Packet := .carry (.udp ⟨5000, 5001, 18, 0⟩ [0xcc]) options
    options ∈ datagram.layers
      ∧ options.headerLength? = options.header?.map List.length
      ∧ options.toBytes.length = 6 + 2 + 2 + 0 := by
  intro options datagram
  have hmem : options ∈ datagram.layers := List.mem_cons_of_mem _ List.mem_cons_self
  obtain ⟨hheader, hbytes, -, hparts⟩ := lengths_of_layers datagram options hmem
  refine ⟨hmem, hheader, ?_⟩
  rw [hbytes, hparts]
  rfl

end Packet

end PacketCodec
