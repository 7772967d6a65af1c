import PacketCodec.Checksum.Adler
import PacketCodec.Checksum.Crc
import PacketCodec.Checksum.Pseudo
import PacketCodec.Bits
import PacketCodec.Reader
import PacketCodec.Derived
import PacketCodec.Registry
import PacketCodec.Ethernet
import PacketCodec.Arp
import PacketCodec.Ipv6.Header
import PacketCodec.Ipv6.Option
import PacketCodec.Elements
import PacketCodec.Inner
import PacketCodec.Ipv6.OptionsHeader
import PacketCodec.Ipv6.Routing
import PacketCodec.Ipv6.Fragment
import PacketCodec.Icmpv6.Message
import PacketCodec.Icmpv6.NdpOption
import PacketCodec.Icmpv6.Neighbor
import PacketCodec.Udp
import PacketCodec.Sctp
import PacketCodec.Gtp.Extension
import PacketCodec.Gtp.Message
import PacketCodec.Packet.Basic
import PacketCodec.Packet.Verify
import PacketCodec.Decoders
import PacketCodec.Decode
import PacketCodec.Draft
import PacketCodec.Proofs.Acceptance
import PacketCodec.Proofs.Admissible
import PacketCodec.Proofs.Attribution
import PacketCodec.Proofs.BitValues
import PacketCodec.Proofs.Bits
import PacketCodec.Proofs.Bytes
import PacketCodec.Proofs.ChainEdit
import PacketCodec.Proofs.ChainReadback
import PacketCodec.Proofs.Completion
import PacketCodec.Proofs.Copy
import PacketCodec.Proofs.Correction
import PacketCodec.Proofs.Corruption
import PacketCodec.Proofs.Crc
import PacketCodec.Proofs.DeclaredExtent
import PacketCodec.Proofs.Depth
import PacketCodec.Proofs.Elements
import PacketCodec.Proofs.Frame
import PacketCodec.Proofs.FrameCheck
import PacketCodec.Proofs.GtpReadback
import PacketCodec.Proofs.InternetSum
import PacketCodec.Proofs.LengthField
import PacketCodec.Proofs.Locality
import PacketCodec.Proofs.Narrowing
import PacketCodec.Proofs.Obtainable
import PacketCodec.Proofs.Padding
import PacketCodec.Proofs.Recorrection
import PacketCodec.Proofs.Reencode
import PacketCodec.Proofs.SctpCheck
import PacketCodec.Proofs.ShortCapture
import PacketCodec.Proofs.Verdict
import PacketCodec.Proofs.ElementLists
import PacketCodec.Proofs.ChunkList
import PacketCodec.Proofs.ChainSplit
import PacketCodec.Proofs.SessionContainer
import PacketCodec.Proofs.OptionLists
import PacketCodec.Proofs.OptionsReadback
import PacketCodec.Proofs.BuildReport
import PacketCodec.Proofs.PackedHeaders
import PacketCodec.Proofs.SumOverflow
import PacketCodec.Proofs.StoredChecksum
import PacketCodec.Proofs.AddressText
import PacketCodec.Proofs.ErrorTruth
import PacketCodec.Proofs.Packing
import PacketCodec.Proofs.Adler
import PacketCodec.Proofs.ReaderView
