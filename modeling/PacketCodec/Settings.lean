/-!
# Settings

What is settled for a whole process, and consulted where a packet leaves
it open: how deep payloads are decoded, and which algorithm the checksum
of an SCTP packet is computed with. The octets of a packet do not tell
the algorithm, and a draft need not.
-/

namespace PacketCodec

/-- The algorithm of the checksum of an SCTP packet. -/
inductive SctpChecksum where
  | crc32c
  | adler32
  deriving DecidableEq

/-- **What decoding and building may be told.** -/
structure Settings where
  /-- How many layers may be decoded below the outermost one. -/
  maxDepth : Nat := 32
  /-- The algorithm of SCTP checksums, where a draft does not name one. -/
  sctpChecksum : SctpChecksum := .crc32c
  deriving DecidableEq

end PacketCodec
