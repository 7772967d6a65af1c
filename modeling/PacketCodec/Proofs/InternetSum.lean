import PacketCodec.Checksum.Pseudo
import PacketCodec.Proofs.Bytes

/-!
# One's complement sums

A one's complement sum is the ordinary sum of the 16-bit words of a byte
string, `wordSum`, with the carries out of sixteen bits added back,
`folded`. When the carries are added back does not matter
(`folded_folded_add`), so an accumulator may put it off for as long as it
has room. How much room there is left, and what the sum comes to, are the
two halves of the invariant that carries the proofs: words are summed
sixteen at a time from an accumulator of at most seventeen bits, which
leaves most of its 32 bits unused.

The sum of a string (`toNat_sum`), of its segments
(`toNat_sumSegments`) and of sums (`toNat_combine`) are all `folded` of the
`wordSum` of the octets concerned. A checksum under a pseudo-header is the
complement of that (`PseudoHeader.toNat_checksum`), and adding the
complement of a sum to it makes all ones (`folded_add_complement`): this is
why a stored checksum verifies.
-/

namespace PacketCodec.Checksum

/-! ## Carries -/

/-- **A sum with its carries added back** until it fits into sixteen bits.
It is 0 only for 0. -/
def folded (n : Nat) : Nat := if n = 0 then 0 else (n - 1) % 65535 + 1

theorem folded_le (n : Nat) : folded n ≤ 65535 := by
  unfold folded
  split <;> omega

theorem folded_mod (n : Nat) : folded n % 65535 = n % 65535 := by
  unfold folded
  split <;> omega

theorem folded_eq_zero_iff {n : Nat} : folded n = 0 ↔ n = 0 := by
  unfold folded
  split <;> omega

/-- It is the only number of sixteen bits that is congruent modulo 65535
and is 0 only for 0. -/
theorem folded_eq {m n : Nat} (le : m ≤ 65535) (congruent : m % 65535 = n % 65535)
    (zero : m = 0 ↔ n = 0) : folded n = m := by
  unfold folded
  split <;> omega

/-- Carries may be added back before the rest is summed, or after. -/
theorem folded_folded_add (m n : Nat) : folded (folded m + n) = folded (m + n) := by
  have hmod := folded_mod m
  have hsum := folded_mod (m + n)
  have hzero : folded (m + n) = 0 ↔ folded m + n = 0 := by
    rw [folded_eq_zero_iff, Nat.add_eq_zero_iff, Nat.add_eq_zero_iff, folded_eq_zero_iff]
  exact folded_eq (folded_le _) (by omega) hzero

theorem folded_add_folded (m n : Nat) : folded (m + folded n) = folded (m + n) := by
  rw [Nat.add_comm m, folded_folded_add, Nat.add_comm]

/-- **A sum and its complement** make all ones. -/
theorem folded_add_complement (n : Nat) : folded (n + (65535 - folded n)) = 65535 := by
  have hle := folded_le n
  have hmod := folded_mod n
  have hzero : n = 0 → folded n = 0 := folded_eq_zero_iff.mpr
  exact folded_eq (Nat.le_refl _) (by omega) (by omega)

/-- All ones are neutral in a sum that comes to all ones. -/
theorem folded_add_ones {n : Nat} (h : folded n = 65535) : folded (n + 65535) = 65535 := by
  rw [← folded_folded_add, h]
  rfl

/-! ## Words -/

/-- **The sum of the words of a byte string**, in network order and
without carries. An odd octet at the end is the high half of a word. -/
def wordSum : Bytes → Nat
  | [] => 0
  | [b] => b.toNat * 256
  | a :: b :: rest => a.toNat * 256 + b.toNat + wordSum rest

theorem toNat_addend (high low : UInt8) :
    (addend high low).toNat = high.toNat * 256 + low.toNat := by
  have hhigh := high.toNat_lt
  have hlow := low.toNat_lt
  rw [addend, UInt32.toNat_ofNat', Nat.mod_eq_of_lt (by omega)]

theorem toNat_addend_le (high low : UInt8) : (addend high low).toNat ≤ 65535 := by
  have hhigh := high.toNat_lt
  have hlow := low.toNat_lt
  rw [toNat_addend]
  omega

theorem wordSum_cons_cons (high low : UInt8) (rest : Bytes) :
    wordSum (high :: low :: rest) = (addend high low).toNat + wordSum rest := by
  rw [wordSum, toNat_addend]

theorem wordSum_append {front : Bytes} (even : front.length % 2 = 0) (back : Bytes) :
    wordSum (front ++ back) = wordSum front + wordSum back := by
  fun_induction wordSum front with
  | case1 => rw [List.nil_append, Nat.zero_add]
  | case2 b => simp at even
  | case3 a b rest ih =>
    rw [List.length_cons, List.length_cons] at even
    rw [List.cons_append, List.cons_append, wordSum, ih (by omega), ← Nat.add_assoc]

theorem wordSum_be16 (v : UInt16) (rest : Bytes) :
    wordSum (Bytes.be16 v ++ rest) = v.toNat + wordSum rest := by
  have hv := v.toNat_lt
  have hoctets : Bytes.be16 v = [UInt8.ofNat (v.toNat / 256), UInt8.ofNat v.toNat] := by
    simp [Bytes.be16, Bytes.be]
  rw [hoctets, List.cons_append, List.cons_append, List.nil_append, wordSum, UInt8.toNat_ofNat',
    UInt8.toNat_ofNat']
  omega

/-! ## Accumulators -/

theorem toNat_shiftRight_16 (acc : UInt32) : (acc >>> 16).toNat = acc.toNat / 65536 := by
  rw [UInt32.toNat_shiftRight]
  exact Nat.shiftRight_eq_div_pow _ 16

theorem toNat_and_low (acc : UInt32) : (acc &&& 0xffff).toNat = acc.toNat % 65536 := by
  rw [UInt32.toNat_and]
  exact Nat.and_two_pow_sub_one_eq_mod _ 16

/-- The first addition of a fold does not wrap around. -/
theorem toNat_carries_add (acc : UInt32) :
    ((acc >>> 16) + (acc &&& 0xffff)).toNat = acc.toNat / 65536 + acc.toNat % 65536 := by
  have hacc := acc.toNat_lt
  rw [UInt32.toNat_add, toNat_shiftRight_16, toNat_and_low]
  omega

/-- **Folding an accumulator** adds its carries back, however many there
are. -/
theorem toNat_fold (acc : UInt32) : (fold acc).toNat = folded acc.toNat := by
  have hacc := acc.toNat_lt
  obtain ⟨once, honce⟩ : ∃ n, n = acc.toNat / 65536 + acc.toNat % 65536 := ⟨_, rfl⟩
  have hsum : ((acc >>> 16) + (acc &&& 0xffff)).toNat = once := by
    rw [toNat_carries_add, honce]
  -- At most one carry is left after the first addition, and none after the second.
  have htwice : (once / 65536 % 2 ^ 16 + once % 2 ^ 16) % 2 ^ 16 = once / 65536 + once % 65536 := by
    omega
  rw [fold, UInt16.toNat_add, UInt32.toNat_toUInt16, UInt32.toNat_toUInt16, toNat_shiftRight_16,
    hsum, htwice]
  exact (folded_eq (by omega) (by omega) (by omega)).symm

/-- A word is added to an accumulator that has room for it. -/
theorem toNat_add_addend {acc : UInt32} (h : acc.toNat ≤ 18 * 65535) (high low : UInt8) :
    (acc + addend high low).toNat = acc.toNat + (addend high low).toNat := by
  have hword := toNat_addend_le high low
  rw [UInt32.toNat_add]
  omega

/-- **What a partial sum comes to** when `rest` follows, whose first octet
is paired with the one that was left over. -/
def outlook (s : UInt32 × Option UInt8) (rest : Bytes) : Nat :=
  folded (s.1.toNat + wordSum (s.2.toList ++ rest))

/-- **Adding words** leaves room in the accumulator and keeps what the sum
comes to, as long as it starts with room for the words of a block. -/
theorem addWords_spec {room : Nat} {acc : UInt32} (bs : Bytes)
    (h : acc.toNat + room * 65535 ≤ 18 * 65535) :
    (addWords room acc bs).1.toNat ≤ 18 * 65535
      ∧ ∀ rest, outlook (addWords room acc bs) rest
          = folded (acc.toNat + wordSum (bs ++ rest)) := by
  fun_induction addWords room acc bs with
  | case1 room acc => exact ⟨Nat.le_of_add_right_le h, fun rest => rfl⟩
  | case2 room acc b => exact ⟨Nat.le_of_add_right_le h, fun rest => rfl⟩
  | case3 acc a b bs ih =>
    -- The block is full: the accumulator is folded before the next word is added.
    have hfolded := folded_le acc.toNat
    have hword := toNat_addend_le a b
    have hfold : (fold acc).toUInt32.toNat = folded acc.toNat := by
      rw [UInt16.toNat_toUInt32, toNat_fold]
    have hsum := toNat_add_addend (show (fold acc).toUInt32.toNat ≤ _ by omega) a b
    rw [hfold] at hsum
    obtain ⟨hle, houtlook⟩ := ih (by rw [hsum, blockWords]; omega)
    refine ⟨hle, fun rest => ?_⟩
    rw [houtlook, hsum, Nat.add_assoc, folded_folded_add, List.cons_append, List.cons_append,
      wordSum_cons_cons]
  | case4 room acc a b bs ih =>
    have hword := toNat_addend_le a b
    have hsum := toNat_add_addend (Nat.le_of_add_right_le h) a b
    obtain ⟨hle, houtlook⟩ := ih (by rw [hsum]; omega)
    refine ⟨hle, fun rest => ?_⟩
    rw [houtlook, hsum, Nat.add_assoc, List.cons_append, List.cons_append, wordSum_cons_cons]

/-! ## Sums of strings and of segments -/

/-- The odd octet at the end is added as a word of its own. -/
theorem toNat_addTail {acc : UInt32} (h : acc.toNat ≤ 18 * 65535) (tail : Option UInt8) :
    (addTail acc tail).toNat = acc.toNat + wordSum tail.toList := by
  cases tail with
  | none => rfl
  | some b =>
    rw [addTail, toNat_add_addend h, toNat_addend, UInt8.toNat_zero, Nat.add_zero,
      Option.toList_some, wordSum]

/-- What a partial sum comes to is what it is folded to when nothing
follows. -/
theorem toNat_fold_addTail {s : UInt32 × Option UInt8} (h : s.1.toNat ≤ 18 * 65535) :
    (fold (addTail s.1 s.2)).toNat = outlook s [] := by
  rw [toNat_fold, toNat_addTail h, outlook, List.append_nil]

/-- **The sum of a string** is the sum of its words, with the carries
added back. -/
theorem toNat_sum (bs : Bytes) : (sum bs).toNat = folded (wordSum bs) := by
  obtain ⟨hle, houtlook⟩ := @addWords_spec blockWords 0 bs (by decide)
  have hsum : (sum bs).toNat = outlook (addWords blockWords 0 bs) [] := toNat_fold_addTail hle
  rw [hsum, houtlook, List.append_nil]
  exact congrArg folded (Nat.zero_add _)

/-- **A partial sum has room for a segment.** An octet is left over only
behind words that were folded. -/
def HasRoom (s : UInt32 × Option UInt8) : Prop :=
  s.1.toNat ≤ 2 * 65535 ∧ (s.2.isSome → s.1.toNat ≤ 65535)

/-- The words of a segment, folded, leave room and keep what the sum comes
to. -/
theorem whole_spec {acc : UInt32} (h : acc.toNat ≤ 2 * 65535) (bs : Bytes) :
    HasRoom (addSegment.whole acc bs)
      ∧ ∀ rest, outlook (addSegment.whole acc bs) rest
          = folded (acc.toNat + wordSum (bs ++ rest)) := by
  obtain ⟨hle, houtlook⟩ := @addWords_spec blockWords acc bs (by rw [blockWords]; omega)
  have hfolded := folded_le (addWords blockWords acc bs).1.toNat
  have hfold : (addSegment.whole acc bs).1.toNat = folded (addWords blockWords acc bs).1.toNat := by
    rw [← toNat_fold]
    exact UInt16.toNat_toUInt32 _
  refine ⟨⟨by omega, fun _ => by omega⟩, fun rest => ?_⟩
  rw [← houtlook, outlook, hfold, folded_folded_add]
  rfl

/-- **Adding a segment** leaves room for another one, and what the sum
comes to is as if the segment stood in front of what follows it. -/
theorem addSegment_spec {s : UInt32 × Option UInt8} (h : HasRoom s) (bs : Bytes) :
    HasRoom (addSegment s.1 s.2 bs)
      ∧ ∀ rest, outlook (addSegment s.1 s.2 bs) rest = outlook s (bs ++ rest) := by
  obtain ⟨acc, left⟩ := s
  obtain ⟨hle, hcarried⟩ := h
  cases left with
  | none =>
    cases bs with
    | nil => exact ⟨⟨hle, hcarried⟩, fun rest => rfl⟩
    | cons b bs =>
      have hwhole : addSegment acc none (b :: bs) = addSegment.whole acc (b :: bs) := by
        cases bs <;> rfl
      rw [hwhole]
      exact whole_spec hle (b :: bs)
  | some a =>
    have hacc : acc.toNat ≤ 65535 := hcarried rfl
    cases bs with
    | nil => exact ⟨⟨hle, hcarried⟩, fun rest => rfl⟩
    | cons b bs =>
      -- The octet left over is the high half of a word with the first one of the segment.
      have hword := toNat_addend_le a b
      have hsum := toNat_add_addend (show acc.toNat ≤ _ by omega) a b
      have hpair : ∀ rest, outlook (acc, some a) (b :: bs ++ rest)
          = folded ((acc + addend a b).toNat + wordSum (bs ++ rest)) := fun rest => by
        rw [hsum, Nat.add_assoc, ← wordSum_cons_cons]
        rfl
      have hroom : (acc + addend a b).toNat ≤ 2 * 65535 := by omega
      cases bs with
      | nil => exact ⟨⟨hroom, fun h => by cases h⟩, fun rest => (hpair rest).symm⟩
      | cons c bs =>
        obtain ⟨hwhole, houtlook⟩ := whole_spec hroom (c :: bs)
        exact ⟨hwhole, fun rest => (houtlook rest).trans (hpair rest).symm⟩

/-- The same for segments one after the other. -/
theorem foldl_addSegment_spec {s : UInt32 × Option UInt8} (h : HasRoom s)
    (segments : List Bytes) :
    HasRoom (segments.foldl (fun s seg => addSegment s.1 s.2 seg) s)
      ∧ outlook (segments.foldl (fun s seg => addSegment s.1 s.2 seg) s) []
          = outlook s segments.flatten := by
  induction segments generalizing s with
  | nil => exact ⟨h, rfl⟩
  | cons seg segments ih =>
    obtain ⟨hroom, houtlook⟩ := addSegment_spec h seg
    obtain ⟨hend, hsum⟩ := ih hroom
    exact ⟨hend, by rw [List.foldl_cons, hsum, houtlook, List.flatten_cons]⟩

/-- **The sum of segments** is that of the string they make up. -/
theorem toNat_sumSegments (segments : List Bytes) :
    (sumSegments segments).toNat = folded (wordSum segments.flatten) := by
  have hroom : HasRoom (0, none) := ⟨by decide, fun h => by cases h⟩
  obtain ⟨⟨hle, -⟩, hsum⟩ := foldl_addSegment_spec hroom segments
  have hfold : (sumSegments segments).toNat = outlook
      (segments.foldl (fun s seg => addSegment s.1 s.2 seg) (0, none)) [] :=
    toNat_fold_addTail (by omega)
  rw [hfold, hsum]
  exact congrArg folded (Nat.zero_add _)

/-- Sums are added up as they are when the accumulator has room for all of
them. -/
theorem toNat_foldl_add {sums : List UInt16} {acc : UInt32}
    (h : acc.toNat + sums.length * 65535 < 2 ^ 32) :
    (sums.foldl (fun acc s => acc + s.toUInt32) acc).toNat
      = acc.toNat + (sums.map UInt16.toNat).sum := by
  induction sums generalizing acc with
  | nil => rfl
  | cons s sums ih =>
    rw [List.length_cons] at h
    have hs := s.toNat_lt
    have hsum : (acc + s.toUInt32).toNat = acc.toNat + s.toNat := by
      rw [UInt32.toNat_add, UInt16.toNat_toUInt32]
      omega
    rw [List.foldl_cons, ih (by omega), hsum, List.map_cons, List.sum_cons, Nat.add_assoc]

/-- **The sum of sums**, of as many as an accumulator has room for. -/
theorem toNat_combine {sums : List UInt16} (h : sums.length ≤ 65535) :
    (combine sums).toNat = folded (sums.map UInt16.toNat).sum := by
  rw [combine, toNat_fold, toNat_foldl_add (by rw [UInt32.toNat_zero]; omega)]
  exact congrArg folded (Nat.zero_add _)

end PacketCodec.Checksum

/-! ## Pseudo-headers -/

namespace PacketCodec.PseudoHeader

open Checksum

/-- The sum of a pseudo-header is that of the string it stands for. -/
theorem toNat_sum (h : PseudoHeader) : h.sum.toNat = folded (wordSum h.toBytes) := by
  have hparts : ∀ src dst tail : Bytes, src.length % 2 = 0 → dst.length % 2 = 0 →
      (combine [Checksum.sum src, Checksum.sum dst, Checksum.sum tail]).toNat
        = folded (wordSum (src ++ dst ++ tail)) := by
    intro src dst tail hsrc hdst
    rw [toNat_combine (by simp)]
    simp only [List.map_cons, List.map_nil, List.sum_cons, List.sum_nil, Nat.add_zero,
      Checksum.toNat_sum]
    rw [folded_folded_add, ← Nat.add_assoc, folded_add_folded,
      Nat.add_right_comm, folded_add_folded, Nat.add_right_comm,
      List.append_assoc, wordSum_append hsrc, wordSum_append hdst, Nat.add_assoc]
  cases h with
  | v4 src dst protocol length =>
    exact hparts _ _ _ (by rw [src.length_eq]) (by rw [dst.length_eq])
  | v6 src dst protocol length =>
    exact hparts _ _ _ (by rw [src.length_eq]) (by rw [dst.length_eq])

/-- **A checksum is the complement** of the sum of the pseudo-header and
the packet. -/
theorem toNat_checksum (h : PseudoHeader) (segments : List Bytes) :
    (h.checksum segments).toNat
      = 65535 - folded (wordSum h.toBytes + wordSum segments.flatten) := by
  have hsum : (combine [h.sum, sumSegments segments]).toNat
      = folded (wordSum h.toBytes + wordSum segments.flatten) := by
    rw [toNat_combine (by simp)]
    simp only [List.map_cons, List.map_nil, List.sum_cons, List.sum_nil, Nat.add_zero, toNat_sum,
      toNat_sumSegments]
    rw [folded_folded_add, folded_add_folded]
  rw [checksum, UInt16.toNat_not, hsum]
  rfl

/-- It is zero when the sum is all ones. -/
theorem checksum_eq_zero_iff (h : PseudoHeader) (segments : List Bytes) :
    h.checksum segments = 0 ↔ folded (wordSum h.toBytes + wordSum segments.flatten) = 65535 := by
  have hle := folded_le (wordSum h.toBytes + wordSum segments.flatten)
  rw [← UInt16.toNat_inj, toNat_checksum]
  show 65535 - _ = 0 ↔ _
  omega

/-- **A checksum in its place verifies.** A string that has the checksum of
the segments among its words, and is otherwise as they are, has the
checksum zero. -/
theorem checksum_eq_zero_of_stored {h : PseudoHeader} {segments : List Bytes} {bs : Bytes}
    (stored : wordSum bs = wordSum segments.flatten + (h.checksum segments).toNat) :
    h.checksum [bs] = 0 := by
  rw [checksum_eq_zero_iff, List.flatten_cons, List.flatten_nil, List.append_nil, stored,
    toNat_checksum, ← Nat.add_assoc]
  exact folded_add_complement _

/-- A checksum that is zero may also be stored as all ones. -/
theorem checksum_eq_zero_of_ones {h : PseudoHeader} {segments : List Bytes} {bs : Bytes}
    (zero : h.checksum segments = 0) (stored : wordSum bs = wordSum segments.flatten + 65535) :
    h.checksum [bs] = 0 := by
  rw [checksum_eq_zero_iff] at zero ⊢
  rw [List.flatten_cons, List.flatten_nil, List.append_nil, stored, ← Nat.add_assoc]
  exact folded_add_ones zero

/-- **There is a pseudo-header** between addresses of one family for every
length that fits into the length field of the family. -/
theorem isSome_make?_iff {src dst : IpAddr} (protocol : UInt8) (length : Nat) :
    (make? src dst protocol length).isSome
      ↔ src.isV4 = dst.isV4 ∧ length < if src.isV4 then UInt16.size else UInt32.size := by
  cases src <;> cases dst <;> simp [make?, IpAddr.isV4, apply_ite Option.isSome]

end PacketCodec.PseudoHeader
