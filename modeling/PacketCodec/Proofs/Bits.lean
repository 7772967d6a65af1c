import Mathlib.Data.Nat.Bitwise
import PacketCodec.Bits

/-!
# Fields of a word, taken apart and put back

The bits of a word that belong to a field are those under its mask, and
putting a field back that was read from a word ORs exactly these bits in
(`BitField.put_get`). A format whose fields cover the word between them
therefore writes back the word it read, whatever the reserved bits hold:
the parts are joined with `BitField.and_or_and` until the mask is the
whole word.

Fields are often kept in something narrower than a word – an octet, a
flag. As long as it is wide enough for the field nothing is lost on the
way (`BitField.toUInt32_toUInt8_get` and its kin).

The other way round, a field is read out of a word under construction as
it was put in (`BitField.get_put`, `BitField.isSet_putFlag`), and fields
that share no bits with it make no difference (`BitField.Apart`). Whether
two fields share bits is decided from their positions, so that `simp`, with
`decide` for the side conditions, reads any field out of a word that is put
together from several.
-/

namespace PacketCodec.BitField

theorem toNat_max (f : BitField) : f.max.toNat = 2 ^ f.width - 1 := by
  have hw := f.shift_add_width_le
  have hp : 2 ^ f.width ≤ 2 ^ 32 := Nat.pow_le_pow_right (by decide) (by omega)
  have h₁ : 1 ≤ 2 ^ f.width := Nat.one_le_two_pow
  rw [max, Nat.pow_eq, UInt32.toNat_ofNat', Nat.mod_eq_of_lt (by omega)]

theorem toNat_and_max (f : BitField) (v : UInt32) :
    (v &&& f.max).toNat = v.toNat % 2 ^ f.width := by
  rw [UInt32.toNat_and, toNat_max, Nat.and_two_pow_sub_one_eq_mod]

/-- The position of a field is small enough to shift by. -/
theorem toNat_shift (f : BitField) : (UInt32.ofNat f.shift).toNat % 32 = f.shift := by
  have hw := f.shift_add_width_le
  have hp := f.width_pos
  rw [UInt32.toNat_ofNat']
  omega

theorem toNat_get (f : BitField) (word : UInt32) :
    (f.get word).toNat = word.toNat / 2 ^ f.shift % 2 ^ f.width := by
  rw [get, toNat_and_max, UInt32.toNat_shiftRight, toNat_shift, Nat.shiftRight_eq_div_pow]

theorem toNat_get_lt (f : BitField) (word : UInt32) : (f.get word).toNat < 2 ^ f.width := by
  rw [toNat_get]
  exact Nat.mod_lt _ (Nat.two_pow_pos _)

/-- **The bits of a value put into a field** are those of the value, moved
up, as far as the field has room. -/
theorem testBit_place (f : BitField) (v : UInt32) (i : Nat) :
    ((v &&& f.max) <<< UInt32.ofNat f.shift).toNat.testBit i
      = (decide (f.shift ≤ i ∧ i < f.shift + f.width) && v.toNat.testBit (i - f.shift)) := by
  have hw := f.shift_add_width_le
  rw [UInt32.toNat_shiftLeft, toNat_shift, toNat_and_max, Nat.testBit_mod_two_pow,
    Nat.testBit_shiftLeft, Nat.testBit_mod_two_pow]
  by_cases h₁ : f.shift ≤ i <;> by_cases h₂ : i < f.shift + f.width
  · simp [h₁, h₂, show i < 32 by omega, show i - f.shift < f.width by omega]
  · simp [h₁, h₂, show ¬ i - f.shift < f.width by omega]
  · simp [h₁]
  · simp [h₁]

/-- **The bits of the mask of a field** are those from its lowest to its
highest. -/
theorem testBit_mask (f : BitField) (i : Nat) :
    f.mask.toNat.testBit i = decide (f.shift ≤ i ∧ i < f.shift + f.width) := by
  have h := testBit_place f f.max i
  rw [UInt32.and_self] at h
  rw [mask, h, toNat_max, Nat.testBit_two_pow_sub_one]
  by_cases hi : f.shift ≤ i ∧ i < f.shift + f.width
  · simp [hi, show i - f.shift < f.width by omega]
  · simp [hi]

/-- **Putting back what was read** ORs in the bits of the word that belong
to the field. -/
theorem put_get (f : BitField) (acc word : UInt32) :
    f.put acc (f.get word) = acc ||| (word &&& f.mask) := by
  rw [put]
  congr 1
  apply UInt32.toNat_inj.mp
  apply Nat.eq_of_testBit_eq
  intro i
  rw [testBit_place, toNat_get, UInt32.toNat_and, Nat.testBit_and, testBit_mask,
    Nat.testBit_mod_two_pow, Nat.testBit_div_two_pow]
  by_cases hi : f.shift ≤ i ∧ i < f.shift + f.width
  · simp [hi, show i - f.shift < f.width by omega, show i - f.shift + f.shift = i by omega]
  · simp [hi]

/-! ## Fields kept in something narrower -/

/-- An octet is wide enough for a field of up to eight bits. -/
theorem toUInt32_toUInt8_get (f : BitField) (word : UInt32) (h : f.width ≤ 8) :
    (f.get word).toUInt8.toUInt32 = f.get word := by
  have hlt := f.toNat_get_lt word
  have hp : 2 ^ f.width ≤ 2 ^ 8 := Nat.pow_le_pow_right (by decide) h
  apply UInt32.toNat_inj.mp
  rw [UInt8.toNat_toUInt32, UInt32.toNat_toUInt8, Nat.mod_eq_of_lt (by omega)]

/-- Two octets are wide enough for a field of up to sixteen bits. -/
theorem toUInt32_toUInt16_get (f : BitField) (word : UInt32) (h : f.width ≤ 16) :
    (f.get word).toUInt16.toUInt32 = f.get word := by
  have hlt := f.toNat_get_lt word
  have hp : 2 ^ f.width ≤ 2 ^ 16 := Nat.pow_le_pow_right (by decide) h
  apply UInt32.toNat_inj.mp
  rw [UInt16.toNat_toUInt32, UInt32.toNat_toUInt16, Nat.mod_eq_of_lt (by omega)]

/-- A flag is wide enough for a field of one bit. -/
theorem toUInt32_isSet (f : BitField) (word : UInt32) (h : f.width = 1) :
    (f.isSet word).toUInt32 = f.get word := by
  have hlt := f.toNat_get_lt word
  rw [h] at hlt
  obtain h₀ | h₁ : (f.get word).toNat = 0 ∨ (f.get word).toNat = 1 := by omega
  · rw [isSet, show f.get word = 0 from UInt32.toNat_inj.mp h₀]
    rfl
  · rw [isSet, show f.get word = 1 from UInt32.toNat_inj.mp h₁]
    rfl

/-- `put_get` for a field of one bit that is kept as a flag. -/
theorem putFlag_isSet (f : BitField) (acc word : UInt32) (h : f.width = 1) :
    f.putFlag acc (f.isSet word) = acc ||| (word &&& f.mask) := by
  rw [putFlag, toUInt32_isSet f word h, put_get]

/-! ## Words put back together -/

/-- The parts of a word under two masks are the part under both. -/
theorem and_or_and (word a b : UInt32) :
    (word &&& a) ||| (word &&& b) = word &&& (a ||| b) := by
  apply UInt32.toNat_inj.mp
  rw [UInt32.toNat_or, UInt32.toNat_and, UInt32.toNat_and, UInt32.toNat_and, UInt32.toNat_or,
    Nat.and_or_distrib_left]

/-- An octet is the part of its word under the lowest eight bits. -/
theorem toUInt8_and_octet (b : UInt8) : (b.toUInt32 &&& 0xff).toUInt8 = b := by
  apply UInt8.toNat_inj.mp
  rw [UInt32.toNat_toUInt8, UInt32.toNat_and, UInt8.toNat_toUInt32,
    show (0xff : UInt32).toNat = 2 ^ 8 - 1 from rfl, Nat.and_two_pow_sub_one_eq_mod, Nat.mod_mod,
    Nat.mod_eq_of_lt b.toNat_lt]

/-- Two octets are the part of their word under the lowest sixteen bits. -/
theorem toUInt16_and_pair (v : UInt16) : (v.toUInt32 &&& 0xffff).toUInt16 = v := by
  apply UInt16.toNat_inj.mp
  rw [UInt32.toNat_toUInt16, UInt32.toNat_and, UInt16.toNat_toUInt32,
    show (0xffff : UInt32).toNat = 2 ^ 16 - 1 from rfl, Nat.and_two_pow_sub_one_eq_mod,
    Nat.mod_mod, Nat.mod_eq_of_lt v.toNat_lt]

/-! ## Words under construction -/

/-- **Two fields share no bits.** -/
def Apart (f g : BitField) : Prop :=
  f.shift + f.width ≤ g.shift ∨ g.shift + g.width ≤ f.shift

instance (f g : BitField) : Decidable (f.Apart g) := inferInstanceAs (Decidable (_ ∨ _))

theorem testBit_get (f : BitField) (word : UInt32) (i : Nat) :
    (f.get word).toNat.testBit i = (decide (i < f.width) && word.toNat.testBit (i + f.shift)) := by
  rw [toNat_get, Nat.testBit_mod_two_pow, Nat.testBit_div_two_pow]

/-- **What was put into a field** is read from it, with what was there
before. -/
@[simp] theorem get_put (f : BitField) (acc value : UInt32) :
    f.get (f.put acc value) = f.get acc ||| (value &&& f.max) := by
  apply UInt32.toNat_inj.mp
  apply Nat.eq_of_testBit_eq
  intro i
  rw [testBit_get, put, UInt32.toNat_or, UInt32.toNat_or, Nat.testBit_or, Nat.testBit_or,
    testBit_get, testBit_place, toNat_and_max, Nat.testBit_mod_two_pow]
  by_cases hi : i < f.width
  · simp [hi, show i + f.shift < f.shift + f.width by omega]
  · simp [hi]

/-- What was put into another field makes no difference. -/
@[simp] theorem get_put_of_apart {f g : BitField} (h : f.Apart g) (acc value : UInt32) :
    f.get (g.put acc value) = f.get acc := by
  apply UInt32.toNat_inj.mp
  apply Nat.eq_of_testBit_eq
  intro i
  rw [testBit_get, testBit_get, put, UInt32.toNat_or, Nat.testBit_or, testBit_place]
  by_cases hi : i < f.width
  · have hout : ¬ (g.shift ≤ i + f.shift ∧ i + f.shift < g.shift + g.width) := by
      rw [Apart] at h
      omega
    simp [hout]
  · simp [hi]

@[simp] theorem get_zero (f : BitField) : f.get 0 = 0 := by
  apply UInt32.toNat_inj.mp
  rw [toNat_get, UInt32.toNat_zero, Nat.zero_div, Nat.zero_mod]

@[simp] theorem isSet_zero (f : BitField) : f.isSet 0 = false := by
  rw [isSet, get_zero]
  rfl

@[simp] theorem isSet_put_of_apart {f g : BitField} (h : f.Apart g) (acc value : UInt32) :
    f.isSet (g.put acc value) = f.isSet acc := by
  rw [isSet, get_put_of_apart h, isSet]

@[simp] theorem get_putFlag_of_apart {f g : BitField} (h : f.Apart g) (acc : UInt32)
    (value : Bool) :
    f.get (g.putFlag acc value) = f.get acc :=
  get_put_of_apart h _ _

@[simp] theorem isSet_putFlag_of_apart {f g : BitField} (h : f.Apart g) (acc : UInt32)
    (value : Bool) :
    f.isSet (g.putFlag acc value) = f.isSet acc :=
  isSet_put_of_apart h _ _

@[simp] theorem isSet_putFlag (f : BitField) (acc : UInt32) (value : Bool) :
    f.isSet (f.putFlag acc value) = (f.isSet acc || value) := by
  rw [isSet, putFlag, get_put, isSet]
  cases value with
  | false => rw [show false.toUInt32 = 0 from rfl, UInt32.zero_and, UInt32.or_zero, Bool.or_false]
  | true =>
    rw [Bool.or_true, bne_iff_ne]
    intro hzero
    -- The lowest bit of the field is set.
    have hbit : (f.get acc ||| (true.toUInt32 &&& f.max)).toNat.testBit 0 = true := by
      rw [UInt32.toNat_or, Nat.testBit_or, toNat_and_max, Nat.testBit_mod_two_pow]
      simp [f.width_pos, show true.toUInt32 = 1 from rfl]
    rw [hzero, UInt32.toNat_zero, Nat.zero_testBit] at hbit
    cases hbit

/-- So many low bits of a word are enough for the fields in them. -/
theorem get_mod {m : UInt32} {n : Nat} (hm : m.toNat = 2 ^ n) (f : BitField) (word : UInt32)
    (h : f.shift + f.width ≤ n) : f.get (word % m) = f.get word := by
  apply UInt32.toNat_inj.mp
  apply Nat.eq_of_testBit_eq
  intro i
  rw [testBit_get, testBit_get, UInt32.toNat_mod, hm, Nat.testBit_mod_two_pow]
  by_cases hi : i < f.width
  · simp [show i + f.shift < n by omega]
  · simp [hi]

/-- An octet is wide enough for the fields in its bits. -/
@[simp] theorem get_mod_256 (f : BitField) (word : UInt32) (h : f.shift + f.width ≤ 8) :
    f.get (word % 256) = f.get word :=
  get_mod (n := 8) rfl f word h

@[simp] theorem isSet_mod_256 (f : BitField) (word : UInt32) (h : f.shift + f.width ≤ 8) :
    f.isSet (word % 256) = f.isSet word := by
  rw [isSet, get_mod_256 f word h, isSet]

/-- Two octets are wide enough for the fields in their bits. -/
@[simp] theorem get_mod_65536 (f : BitField) (word : UInt32) (h : f.shift + f.width ≤ 16) :
    f.get (word % 65536) = f.get word :=
  get_mod (n := 16) rfl f word h

@[simp] theorem isSet_mod_65536 (f : BitField) (word : UInt32) (h : f.shift + f.width ≤ 16) :
    f.isSet (word % 65536) = f.isSet word := by
  rw [isSet, get_mod_65536 f word h, isSet]

/-- A value that a field has room for is read back from it. -/
theorem and_max (f : BitField) {v : UInt32} (h : v.toNat < 2 ^ f.width) : v &&& f.max = v := by
  apply UInt32.toNat_inj.mp
  rw [toNat_and_max, Nat.mod_eq_of_lt h]

/-- A value that a field has room for is read back from it into an
octet. -/
theorem and_toUInt8_max (f : BitField) {v : UInt8} (h : v.toNat < 2 ^ f.width) :
    v &&& f.max.toUInt8 = v := by
  have hword : (v.toUInt32 &&& f.max).toUInt8 = v := by
    rw [f.and_max (v.toNat_toUInt32.symm ▸ h), UInt8.toUInt8_toUInt32]
  rwa [UInt32.toUInt8_and, UInt8.toUInt8_toUInt32] at hword

/-- A value that a field has room for is read back from it into two
octets. -/
theorem and_toUInt16_max (f : BitField) {v : UInt16} (h : v.toNat < 2 ^ f.width) :
    v &&& f.max.toUInt16 = v := by
  have hword : (v.toUInt32 &&& f.max).toUInt16 = v := by
    rw [f.and_max (v.toNat_toUInt32.symm ▸ h), UInt16.toUInt16_toUInt32]
  rwa [UInt32.toUInt16_and, UInt16.toUInt16_toUInt32] at hword

end PacketCodec.BitField
