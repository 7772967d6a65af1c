import PacketCodec.Bytes.Basic

/-!
# Cyclic redundancy checks

The two reflected 32-bit checks that frames and packets carry: the IEEE
one of the Ethernet frame check sequence and the Castagnoli one of SCTP.
They differ in the polynomial only. A check starts from all ones, takes
in one octet at a time, lowest bit first, and is complemented at the end.
-/

namespace PacketCodec.Checksum

/-- The IEEE 802.3 polynomial, lowest coefficient in the highest bit. -/
def ieeePolynomial : UInt32 := 0xedb88320

/-- The Castagnoli polynomial, lowest coefficient in the highest bit. -/
def castagnoliPolynomial : UInt32 := 0x82f63b78

/-- One bit out of the remainder. -/
def crcShift (poly r : UInt32) : UInt32 :=
  if r &&& 1 = 1 then (r >>> 1) ^^^ poly else r >>> 1

/-- `n` bits out of the remainder. -/
def crcShifts (poly : UInt32) : Nat → UInt32 → UInt32
  | 0, r => r
  | n + 1, r => crcShifts poly n (crcShift poly r)

/-- The remainder after one more octet. -/
def crcByte (poly r : UInt32) (b : UInt8) : UInt32 :=
  crcShifts poly 8 (r ^^^ b.toUInt32)

/-- The remainder after a byte string, starting from `r`. -/
def crcUpdate (poly r : UInt32) (bs : Bytes) : UInt32 :=
  bs.foldl (crcByte poly) r

/-- The check of a byte string for a polynomial. -/
def crc (poly : UInt32) (bs : Bytes) : UInt32 :=
  crcUpdate poly 0xffffffff bs ^^^ 0xffffffff

/-- **CRC-32** of IEEE 802.3. -/
def crc32 (bs : Bytes) : UInt32 := crc ieeePolynomial bs

/-- CRC-32 of the concatenation of segments, taken in one after the
other. -/
def crc32Segments (segments : List Bytes) : UInt32 :=
  segments.foldl (crcUpdate ieeePolynomial) 0xffffffff ^^^ 0xffffffff

/-- **CRC-32C**, with the Castagnoli polynomial. -/
def crc32c (bs : Bytes) : UInt32 := crc castagnoliPolynomial bs

end PacketCodec.Checksum
