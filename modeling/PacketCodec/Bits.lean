/-!
# Bit fields

Several small fields often share one octet or one word. A `BitField`
names the bits of a word that hold one of them; `get` reads the field out
of a word, `put` ORs a value into a word under construction. A format
that lists fields covering its whole word, reserved bits included, can
write back exactly the word it read.
-/

namespace PacketCodec

/-- Whether `width` bits from position `shift` up are a part of a 32-bit
word: at least one bit, and none above the highest. -/
def BitField.inWord (shift width : Nat) : Bool :=
  0 < width && shift + width ≤ 32

/-- **A field of a 32-bit word**: `width` bits, the lowest of them
`shift` places above the least significant bit. -/
structure BitField where
  /-- Position of the lowest bit. -/
  shift : Nat
  /-- Number of bits. -/
  width : Nat
  /-- The field is not empty and lies inside the word. -/
  valid : BitField.inWord shift width = true := by exact Eq.refl true
  deriving DecidableEq

namespace BitField

/-- The field with that position and width, if there is one. -/
def ofShiftWidth? (shift width : Nat) : Option BitField :=
  if h : inWord shift width = true then some ⟨shift, width, h⟩ else none

/-- The one-bit field at position `bit`. -/
def flag (bit : Nat) (h : inWord bit 1 = true := by exact Eq.refl true) : BitField :=
  ⟨bit, 1, h⟩

theorem inWord_iff {shift width : Nat} :
    inWord shift width = true ↔ 0 < width ∧ shift + width ≤ 32 := by
  simp [inWord]

theorem width_pos (f : BitField) : 0 < f.width := (inWord_iff.1 f.valid).1

theorem shift_add_width_le (f : BitField) : f.shift + f.width ≤ 32 :=
  (inWord_iff.1 f.valid).2

/-- The largest value the field can hold. -/
def max (f : BitField) : UInt32 := UInt32.ofNat (Nat.pow 2 f.width - 1)

/-- The bits of the word that belong to the field. -/
def mask (f : BitField) : UInt32 := f.max <<< UInt32.ofNat f.shift

/-- Whether `value` can be held by the field. -/
def fits (f : BitField) (value : UInt32) : Bool := value ≤ f.max

/-- The value of the field in `word`. -/
def get (f : BitField) (word : UInt32) : UInt32 :=
  (word >>> UInt32.ofNat f.shift) &&& f.max

/-- Whether the field of `word` is other than zero. -/
def isSet (f : BitField) (word : UInt32) : Bool := f.get word != 0

/-- `acc` with the bits of `value` ORed into the field. Bits of `value`
that the field has no room for are dropped. -/
def put (f : BitField) (acc value : UInt32) : UInt32 :=
  acc ||| ((value &&& f.max) <<< UInt32.ofNat f.shift)

/-- `acc` with a flag ORed into the field. -/
def putFlag (f : BitField) (acc : UInt32) (value : Bool) : UInt32 :=
  f.put acc value.toUInt32

end BitField

end PacketCodec
