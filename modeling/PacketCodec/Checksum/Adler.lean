import PacketCodec.Bytes.Basic

/-!
# Adler-32

Two sums over the octets of a string: `a` is one more than their sum and
`b` is the sum of the values `a` takes, both modulo the largest prime
below 2¹⁶. Reducing after every octet is the definition; the check
reduces only after every 5552 octets, the longest run in which neither
32-bit sum can overflow.
-/

namespace PacketCodec.Checksum

/-- The modulus of both sums. -/
def adlerModulus : UInt32 := 65521

/-- Number of octets taken in between two reductions. -/
def adlerRun : Nat := 5552

/-- The two sums after a byte string, reduced at the end and whenever a
run is complete; `room` is the number of octets the current run still has
room for. -/
def adlerSums : (room : Nat) → (a b : UInt32) → Bytes → UInt32 × UInt32
  | _, a, b, [] => (a % adlerModulus, b % adlerModulus)
  | 0, a, b, x :: rest =>
    let a := a % adlerModulus + x.toUInt32
    adlerSums (adlerRun - 1) a (b % adlerModulus + a) rest
  | room + 1, a, b, x :: rest =>
    let a := a + x.toUInt32
    adlerSums room a (b + a) rest

/-- **Adler-32** of a byte string. -/
def adler32 (bs : Bytes) : UInt32 :=
  let (a, b) := adlerSums adlerRun 1 0 bs
  (b <<< 16) ||| a

end PacketCodec.Checksum
