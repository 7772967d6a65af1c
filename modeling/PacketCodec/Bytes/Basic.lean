/-!
# Byte strings

What travels on a wire is a byte string: a list of octets, first octet
first. This module holds what every format needs of one – words in
network order, taking a fixed number of octets off the front, and the
hexadecimal text of a string.

Words are written and read by one pair of functions for every width,
`Bytes.be` and `Bytes.beNat`: a word of `w` octets is its value in base
256, most significant digit first. Reading off the front never looks
further than it takes: `Bytes.split?` succeeds exactly when that many
octets are there, and the readers `u8?`, `u16?`, … are it followed by an
interpretation of the octets taken.
-/

namespace PacketCodec

/-- A byte string, first octet first. -/
abbrev Bytes := List UInt8

namespace Bytes

/-! ## Words -/

/-- The value of a byte string read as a number in base 256, most
significant octet first. -/
def beNat (bs : Bytes) : Nat :=
  bs.foldl (fun n b => n * 256 + b.toNat) 0

/-- The value of a byte string read least significant octet first. -/
def leNat (bs : Bytes) : Nat :=
  beNat bs.reverse

/-- The low `w` octets of `n`, most significant first. -/
def be : Nat → Nat → Bytes
  | 0, _ => []
  | w + 1, n => UInt8.ofNat (n / Nat.pow 256 w) :: be w n

/-- The low `w` octets of `n`, least significant first. -/
def le (w n : Nat) : Bytes :=
  (be w n).reverse

/-- A 16-bit word in network order. -/
def be16 (v : UInt16) : Bytes := be 2 v.toNat

/-- The low 24 bits of a word in network order. -/
def be24 (v : UInt32) : Bytes := be 3 v.toNat

/-- A 32-bit word in network order. -/
def be32 (v : UInt32) : Bytes := be 4 v.toNat

/-- A 64-bit word in network order. -/
def be64 (v : UInt64) : Bytes := be 8 v.toNat

/-- A 32-bit word, least significant octet first. -/
def le32 (v : UInt32) : Bytes := le 4 v.toNat

/-! ## Reading off the front -/

/-- Exactly `n` octets off the front and what follows them, or nothing
when fewer are left. -/
def split? (bs : Bytes) (n : Nat) : Option (Bytes × Bytes) :=
  let front := bs.take n
  if front.length = n then some (front, bs.drop n) else none

/-- An octet off the front. -/
def u8? : Bytes → Option (UInt8 × Bytes)
  | [] => none
  | b :: rest => some (b, rest)

/-- The value of the word in the first `w` octets. -/
def uint? (bs : Bytes) (w : Nat) : Option (Nat × Bytes) :=
  (bs.split? w).map fun p => (p.1.beNat, p.2)

/-- A 16-bit word in network order off the front. -/
def u16? (bs : Bytes) : Option (UInt16 × Bytes) :=
  (bs.uint? 2).map fun p => (UInt16.ofNat p.1, p.2)

/-- A 24-bit word in network order off the front. -/
def u24? (bs : Bytes) : Option (UInt32 × Bytes) :=
  (bs.uint? 3).map fun p => (UInt32.ofNat p.1, p.2)

/-- A 32-bit word in network order off the front. -/
def u32? (bs : Bytes) : Option (UInt32 × Bytes) :=
  (bs.uint? 4).map fun p => (UInt32.ofNat p.1, p.2)

/-- A 64-bit word in network order off the front. -/
def u64? (bs : Bytes) : Option (UInt64 × Bytes) :=
  (bs.uint? 8).map fun p => (UInt64.ofNat p.1, p.2)

/-- A field that is there only when `present` says so: nothing is taken
off the front when it is not. -/
def optional? {α : Type} (present : Bool) (read : Bytes → Option (α × Bytes)) (bs : Bytes) :
    Option (Option α × Bytes) :=
  if present then (read bs).map fun p => (some p.1, p.2) else some (none, bs)

/-! ## Parts of a buffer -/

/-- The octets of `bs` from `offset` on, at most `length` of them. A
window that reaches past the end is cut there. -/
def clamp (bs : Bytes) (offset length : Nat) : Bytes :=
  (bs.drop offset).take length

/-- `bs` with the octets from `offset` on replaced by `patch`, as far as
they reach. -/
def overwrite (bs : Bytes) (offset : Nat) (patch : Bytes) : Bytes :=
  bs.take offset ++ patch.take (bs.length - offset) ++ bs.drop (offset + patch.length)

/-- `n` zero octets. -/
def zeros (n : Nat) : Bytes := List.replicate n 0

/-! ## Text -/

/-- The two lowercase hexadecimal digits of an octet. -/
def hexDigits (b : UInt8) : List Char :=
  [Nat.digitChar (b.toNat / 16), Nat.digitChar (b.toNat % 16)]

/-- The lowercase hexadecimal text of a byte string, two digits an
octet. -/
def hex (bs : Bytes) : String :=
  String.ofList (bs.flatMap hexDigits)

/-- The value of a hexadecimal digit of either case. -/
def digitValue? (c : Char) : Option Nat :=
  if '0' ≤ c ∧ c ≤ '9' then some (c.toNat - '0'.toNat)
  else if 'a' ≤ c ∧ c ≤ 'f' then some (c.toNat - 'a'.toNat + 10)
  else if 'A' ≤ c ∧ c ≤ 'F' then some (c.toNat - 'A'.toNat + 10)
  else none

/-- The octets that a row of hexadecimal digits denotes, behind those
already read, the last one first. -/
def ofHexDigits? (read : Bytes) : List Char → Option Bytes
  | [] => some read.reverse
  | [_] => none
  | c :: d :: rest => do
    let high ← digitValue? c
    let low ← digitValue? d
    ofHexDigits? (UInt8.ofNat (high * 16 + low) :: read) rest

/-- The byte string that a hexadecimal text denotes, two digits an
octet. -/
def ofHex? (s : String) : Option Bytes := ofHexDigits? [] s.toList

end Bytes

/-! ## Strings of a fixed size -/

/-- **A byte string of exactly `n` octets**, such as a hardware address
or the spare octets of a header. -/
structure Octets (n : Nat) where
  /-- The octets, first one first. -/
  bytes : Bytes
  /-- There are `n` of them. -/
  length_eq : bytes.length = n
  deriving DecidableEq

namespace Octets

/-- `n` zero octets. -/
def zero (n : Nat) : Octets n := ⟨Bytes.zeros n, List.length_replicate⟩

instance (n : Nat) : Inhabited (Octets n) := ⟨zero n⟩

/-- The byte string as a fixed-size one, when it has that size. -/
def ofBytes? (n : Nat) (bs : Bytes) : Option (Octets n) :=
  if h : bs.length = n then some ⟨bs, h⟩ else none

/-- `n` octets off the front and what follows them. -/
def take? (n : Nat) (bs : Bytes) : Option (Octets n × Bytes) :=
  let front := bs.take n
  if h : front.length = n then some (⟨front, h⟩, bs.drop n) else none

end Octets

end PacketCodec
