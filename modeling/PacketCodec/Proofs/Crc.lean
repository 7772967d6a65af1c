import PacketCodec.Checksum.Crc
import PacketCodec.Proofs.Bytes

/-!
# The residue of a cyclic redundancy check

Moving bits out of the remainder is linear over exclusive or
(`crcShifts_xor`), and zero bits at the low end are moved out unchanged
(`crcShifts_of_dvd`). Taking in up to four octets one after the other is
therefore the same as taking in the word that they are, least significant
octet first, at once (`crcUpdate_eq_crcShifts`).

A check stored that way behind the string that it is of turns the
remainder into all ones, from which 32 more moves lead to a constant, the
*residue* of the polynomial. As no move loses anything when the polynomial
has its highest bit, nothing but the right check leads there
(`crc_append_eq_residue_iff`): a string with its check behind it can be
verified without taking the two apart.
-/

namespace PacketCodec

namespace Checksum

variable {poly : UInt32}

/-! ## Moving bits out -/

theorem crcShift_eq (poly r : UInt32) :
    crcShift poly r = (r >>> 1) ^^^ (if r.toNat % 2 = 1 then poly else 0) := by
  have hlow : r &&& 1 = 1 ↔ r.toNat % 2 = 1 := by
    rw [← UInt32.toNat_inj, UInt32.toNat_and]
    exact Eq.congr_left (Nat.and_one_is_mod r.toNat)
  rw [crcShift]
  simp only [hlow]
  split
  · rfl
  · rw [UInt32.xor_zero]

/-- **Moving a bit out is linear.** -/
theorem crcShift_xor (poly a b : UInt32) :
    crcShift poly (a ^^^ b) = crcShift poly a ^^^ crcShift poly b := by
  have hlow : (a ^^^ b).toNat % 2 = 1 ↔ ¬ (a.toNat % 2 = 1 ↔ b.toNat % 2 = 1) := by
    rw [UInt32.toNat_xor, Nat.xor_mod_two_eq_one]
  have hhigh : (a ^^^ b) >>> 1 = (a >>> 1) ^^^ (b >>> 1) := by
    apply UInt32.toNat_inj.mp
    simp only [UInt32.toNat_xor, UInt32.toNat_shiftRight, Nat.shiftRight_xor_distrib]
  have hpoly : (if (a ^^^ b).toNat % 2 = 1 then poly else 0)
      = (if a.toNat % 2 = 1 then poly else 0) ^^^ (if b.toNat % 2 = 1 then poly else 0) := by
    simp only [hlow]
    by_cases ha : a.toNat % 2 = 1 <;> by_cases hb : b.toNat % 2 = 1 <;> simp [ha, hb]
  rw [crcShift_eq, crcShift_eq, crcShift_eq, hhigh, hpoly]
  ac_rfl

theorem crcShifts_xor (poly : UInt32) (n : Nat) (a b : UInt32) :
    crcShifts poly n (a ^^^ b) = crcShifts poly n a ^^^ crcShifts poly n b := by
  induction n generalizing a b with
  | zero => rfl
  | succ n ih => rw [crcShifts, crcShift_xor, ih]; rfl

theorem crcShifts_add (poly : UInt32) (m n : Nat) (r : UInt32) :
    crcShifts poly (m + n) r = crcShifts poly n (crcShifts poly m r) := by
  induction m generalizing r with
  | zero => rw [Nat.zero_add]; rfl
  | succ m ih => rw [Nat.succ_add, crcShifts, ih]; rfl

theorem crcShift_of_even (poly : UInt32) {n : Nat} (h : n * 2 < UInt32.size) :
    crcShift poly (UInt32.ofNat (n * 2)) = UInt32.ofNat n := by
  have hn : (UInt32.ofNat (n * 2)).toNat = n * 2 := UInt32.toNat_ofNat_of_lt' h
  rw [crcShift_eq, hn, if_neg (by omega), UInt32.xor_zero]
  apply UInt32.toNat_inj.mp
  rw [UInt32.toNat_shiftRight, hn, UInt32.toNat_ofNat_of_lt' (by omega)]
  exact Nat.mul_div_cancel n two_pos

/-- **Zero bits are moved out unchanged.** -/
theorem crcShifts_of_dvd (poly : UInt32) {n k : Nat} (h : k * 2 ^ n < UInt32.size) :
    crcShifts poly n (UInt32.ofNat (k * 2 ^ n)) = UInt32.ofNat k := by
  induction n with
  | zero => rw [pow_zero, Nat.mul_one]; rfl
  | succ n ih =>
    rw [pow_succ, ← Nat.mul_assoc] at h ⊢
    have hhalf : k * 2 ^ n < UInt32.size := lt_of_le_of_lt (Nat.le_mul_of_pos_right _ two_pos) h
    rw [crcShifts, crcShift_of_even poly h, ih hhalf]

/-- **No move loses anything** when the polynomial has its highest bit: it
shows where a bit was moved out. -/
theorem crcShift_injective (high : 2 ^ 31 ≤ poly.toNat) : Function.Injective (crcShift poly) := by
  -- Moves are linear, so that only the kernel is to be looked at.
  suffices hkernel : ∀ r, crcShift poly r = 0 → r = 0 by
    intro a b hab
    rw [← UInt32.xor_eq_zero_iff] at hab ⊢
    exact hkernel _ (by rw [crcShift_xor, hab])
  intro r hr
  rw [crcShift_eq, UInt32.xor_eq_zero_iff, ← UInt32.toNat_inj, UInt32.toNat_shiftRight] at hr
  have hhalf : r.toNat >>> (UInt32.toNat 1 % 32) = r.toNat / 2 := rfl
  rw [hhalf] at hr
  have hlt := r.toNat_lt
  apply UInt32.toNat_inj.mp
  split at hr
  · omega
  · rw [UInt32.toNat_zero] at hr ⊢
    omega

theorem crcShifts_injective (high : 2 ^ 31 ≤ poly.toNat) (n : Nat) :
    Function.Injective (crcShifts poly n) := by
  induction n with
  | zero => exact Function.injective_id
  | succ n ih => exact ih.comp (crcShift_injective high)

/-! ## Taking octets in -/

/-- The first octet of a word and the octets behind it share no bits. -/
theorem ofNat_leNat_cons {b : UInt8} {bs : Bytes} (h : Bytes.leNat bs * 2 ^ 8 < UInt32.size) :
    UInt32.ofNat (Bytes.leNat (b :: bs))
      = b.toUInt32 ^^^ UInt32.ofNat (Bytes.leNat bs * 2 ^ 8) := by
  have hb : b.toNat < 2 ^ 8 := b.toNat_lt
  have hboth : Bytes.leNat (b :: bs) < UInt32.size := by
    rw [Bytes.leNat_cons]
    change _ < 4294967296 at h ⊢
    omega
  apply UInt32.toNat_inj.mp
  rw [UInt32.toNat_ofNat_of_lt' hboth, UInt32.toNat_xor, UInt8.toNat_toUInt32,
    UInt32.toNat_ofNat_of_lt' h, Bytes.leNat_cons, Nat.add_comm, Nat.mul_comm _ (2 ^ 8)]
  apply Nat.eq_of_testBit_eq
  intro i
  rw [Nat.testBit_two_pow_mul_add (i := 8) _ hb, Nat.testBit_xor, Nat.testBit_two_pow_mul]
  by_cases hi : i < 8
  · simp [hi, not_le.mpr hi]
  · have hbit : b.toNat < 2 ^ i :=
      hb.trans_le (Nat.pow_le_pow_right two_pos (not_lt.mp hi))
    simp [hi, not_lt.mp hi, Nat.testBit_lt_two_pow hbit]

/-- **Up to four octets are taken in as one word**, least significant octet
first. -/
theorem crcUpdate_eq_crcShifts (poly r : UInt32) {bs : Bytes} (h : bs.length ≤ 4) :
    crcUpdate poly r bs
      = crcShifts poly (8 * bs.length) (r ^^^ UInt32.ofNat (Bytes.leNat bs)) := by
  induction bs generalizing r with
  | nil => exact (UInt32.xor_zero).symm
  | cons b bs ih =>
    rw [List.length_cons] at h
    have hlt : Bytes.leNat bs * 2 ^ 8 < UInt32.size := by
      have hbs := Bytes.leNat_lt bs
      have hpow : 256 ^ bs.length ≤ 256 ^ 3 := Nat.pow_le_pow_right (by decide) (by omega)
      show _ < 4294967296
      omega
    show crcUpdate poly (crcByte poly r b) bs = _
    rw [ih _ (by omega), crcByte, ← crcShifts_of_dvd poly hlt, ← crcShifts_xor, ← crcShifts_add,
      UInt32.xor_assoc, ← ofNat_leNat_cons hlt, List.length_cons, Nat.mul_succ, Nat.add_comm 8]

theorem crcUpdate_append (poly r : UInt32) (front back : Bytes) :
    crcUpdate poly r (front ++ back) = crcUpdate poly (crcUpdate poly r front) back :=
  List.foldl_append

/-- **The check of segments** is that of their concatenation. -/
theorem crc32Segments_eq (segments : List Bytes) :
    crc32Segments segments = crc32 segments.flatten := by
  rw [crc32Segments, crc32, crc, crcUpdate, List.foldl_flatten]
  rfl

/-! ## The residue -/

/-- **The residue of a polynomial**: the check of every string that ends
with its own check. -/
def residue (poly : UInt32) : UInt32 := crcShifts poly 32 0xffffffff ^^^ 0xffffffff

theorem residue_ieee : residue ieeePolynomial = 0x2144df1c := by decide +kernel

/-- **A check behind a string is right** if and only if the check of both is
the residue. -/
theorem crc_append_eq_residue_iff (high : 2 ^ 31 ≤ poly.toNat) (bs : Bytes) (v : UInt32) :
    crc poly (bs ++ Bytes.le32 v) = residue poly ↔ crc poly bs = v := by
  have hlength := Bytes.length_le32 v
  have hboth : crc poly (bs ++ Bytes.le32 v)
      = crcShifts poly 32 (crcUpdate poly 0xffffffff bs ^^^ v) ^^^ 0xffffffff := by
    rw [crc, crcUpdate_append, crcUpdate_eq_crcShifts _ _ hlength.le, hlength, Bytes.leNat_le32,
      UInt32.ofNat_toNat]
  rw [hboth, residue, UInt32.xor_left_inj, (crcShifts_injective high 32).eq_iff, crc]
  -- Both sides say that remainder, check and all ones cancel out.
  rw [← UInt32.xor_eq_zero_iff, ← @UInt32.xor_eq_zero_iff _ v]
  refine iff_of_eq (congrArg (· = 0) ?_)
  ac_rfl

end Checksum

end PacketCodec
