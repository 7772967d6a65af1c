import PacketCodec.Address

/-!
# Fields at a position

Reading a field of a buffer at a given position, with the bounds checked:
`Bytes.field` is the stretch of bytes or the `OutOfBounds` that tells
what was asked for. Every typed reader is `field` followed by an
interpretation of the bytes, so all of them fail in the same way.
-/

namespace PacketCodec

/-- The order of the octets of a word. -/
inductive ByteOrder where
  /-- Most significant octet first. -/
  | big
  /-- Least significant octet first. -/
  | little
  deriving DecidableEq

/-- The value of a byte string in that order. -/
def ByteOrder.value : ByteOrder → Bytes → Nat
  | big, bs => bs.beNat
  | little, bs => bs.leNat

/-- **A read past the end of a buffer.** -/
structure OutOfBounds where
  /-- Where the read started. -/
  offset : Nat
  /-- How many bytes it needed. -/
  need : Nat
  /-- Length of the buffer. -/
  len : Nat
  deriving DecidableEq

/-- The text of an out-of-bounds read. -/
def OutOfBounds.message (e : OutOfBounds) : String :=
  "offset " ++ toString e.offset ++ " need " ++ toString e.need ++ " len " ++ toString e.len

namespace Bytes

/-- The `need` bytes of `bs` from `offset` on. -/
def field (bs : Bytes) (offset need : Nat) : Except OutOfBounds Bytes :=
  if offset + need ≤ bs.length then .ok (bs.clamp offset need)
  else .error ⟨offset, need, bs.length⟩

/-- The octet at `offset`. -/
def u8At (bs : Bytes) (offset : Nat) : Except OutOfBounds UInt8 :=
  (bs.field offset 1).map fun d => UInt8.ofNat d.beNat

/-- The 16-bit word at `offset`. -/
def u16At (order : ByteOrder) (bs : Bytes) (offset : Nat) : Except OutOfBounds UInt16 :=
  (bs.field offset 2).map fun d => UInt16.ofNat (order.value d)

/-- The 24-bit word at `offset`. -/
def u24At (order : ByteOrder) (bs : Bytes) (offset : Nat) : Except OutOfBounds UInt32 :=
  (bs.field offset 3).map fun d => UInt32.ofNat (order.value d)

/-- The 32-bit word at `offset`. -/
def u32At (order : ByteOrder) (bs : Bytes) (offset : Nat) : Except OutOfBounds UInt32 :=
  (bs.field offset 4).map fun d => UInt32.ofNat (order.value d)

/-- The 64-bit word at `offset`. -/
def u64At (order : ByteOrder) (bs : Bytes) (offset : Nat) : Except OutOfBounds UInt64 :=
  (bs.field offset 8).map fun d => UInt64.ofNat (order.value d)

/-- The word of `n` octets at `offset`, for `n` from 1 to 8. -/
def uintAt (order : ByteOrder) (bs : Bytes) (offset n : Nat) : Except OutOfBounds UInt64 :=
  if n = 0 ∨ 8 < n then .error ⟨offset, n, bs.length⟩
  else (bs.field offset n).map fun d => UInt64.ofNat (order.value d)

/-- The `n` octets at `offset`, such as an address. -/
def octetsAt (n : Nat) (bs : Bytes) (offset : Nat) : Except OutOfBounds (Octets n) := do
  match Octets.ofBytes? n (← bs.field offset n) with
  | some o => .ok o
  | none => .error ⟨offset, n, bs.length⟩

end Bytes

end PacketCodec
