import PacketCodec.Bytes.Basic

/-!
# The Internet checksum

The one's complement sum of 16-bit words, without the final complement. A
32-bit accumulator collects the words and is folded back into 16 bits
after every block of sixteen, so that it never overflows whatever the
length.

`sum` sums one string. `sumSegments` sums the concatenation of several
without joining them: an odd octet at the end of a segment is carried
over and paired with the first octet of the next. An odd octet at the
very end is the high half of a word in both.
-/

namespace PacketCodec.Checksum

/-- The word of two octets, as an addend of the accumulator. -/
def addend (high low : UInt8) : UInt32 :=
  UInt32.ofNat (high.toNat * 256 + low.toNat)

/-- An accumulator folded into 16 bits: the carries out of the low half
are added back to it, twice. -/
def fold (acc : UInt32) : UInt16 :=
  let once := (acc >>> 16) + (acc &&& 0xffff)
  (once >>> 16).toUInt16 + once.toUInt16

/-- Number of words summed between two folds. -/
def blockWords : Nat := 16

/-- Adds the words of a string to `acc`, folding whenever a block is
complete; `room` is the number of words the current block still has room
for. The result comes with the odd octet at the end, if there is one. -/
def addWords : (room : Nat) → (acc : UInt32) → Bytes → UInt32 × Option UInt8
  | _, acc, [] => (acc, none)
  | _, acc, [b] => (acc, some b)
  | 0, acc, a :: b :: rest => addWords (blockWords - 1) ((fold acc).toUInt32 + addend a b) rest
  | room + 1, acc, a :: b :: rest => addWords room (acc + addend a b) rest

/-- The accumulator with an odd last octet added as the high half of a
word. -/
def addTail (acc : UInt32) : Option UInt8 → UInt32
  | none => acc
  | some b => acc + addend b 0

/-- **The one's complement sum of a byte string**, not complemented. -/
def sum (bs : Bytes) : UInt16 :=
  let (acc, tail) := addWords blockWords 0 bs
  fold (addTail acc tail)

/-- Adds one segment to `acc`, pairing its first octet with the odd octet
that the segments before it left over. -/
def addSegment (acc : UInt32) (carried : Option UInt8) (bs : Bytes) : UInt32 × Option UInt8 :=
  match carried, bs with
  | carried, [] => (acc, carried)
  | some a, [b] => (acc + addend a b, none)
  | some a, b :: rest => whole (acc + addend a b) rest
  | none, bs => whole acc bs
where
  /-- The words of `bs` added and folded. -/
  whole (acc : UInt32) (bs : Bytes) : UInt32 × Option UInt8 :=
    let (acc, tail) := addWords blockWords acc bs
    ((fold acc).toUInt32, tail)

/-- **The one's complement sum of the concatenation of segments**, not
complemented. -/
def sumSegments (segments : List Bytes) : UInt16 :=
  let (acc, tail) := segments.foldl (fun s seg => addSegment s.1 s.2 seg) (0, none)
  fold (addTail acc tail)

/-- The one's complement sum of sums. -/
def combine (sums : List UInt16) : UInt16 :=
  fold (sums.foldl (fun acc s => acc + s.toUInt32) 0)

end PacketCodec.Checksum
