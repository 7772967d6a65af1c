import PacketCodec.Proofs.InternetSum

/-!
# Sums do not overflow

The additions of a one's complement sum are in 32 bits, those of a fold in
16, and both kinds wrap around. Here each of them is *checked*: an addition
that would wrap has no result, and then nothing has that it is a part of.
The order is that of a sum over a buffer. A string is summed in chunks of
32 octets, with a fold behind each of them. Of a single string the last
chunk is only folded when it is complete, of a segment in any case, and of
a segment that does nothing but complete a word there is none to fold.

A checked sum always has a result, and it is the sum (`sum?_eq_some`,
`sumSegments?_eq_some`): the carries out of sixteen bits that a chunk can
leave in the accumulator are far from filling its upper half, and a fold
takes them out. A fold by itself does not overflow from any accumulator
(`fold?_eq_some`).
-/

namespace PacketCodec.Checksum

/-! ## Checked additions -/

/-- Addition in 32 bits, which has no result when it overflows. -/
def add32? (a b : UInt32) : Option UInt32 :=
  if BitVec.uaddOverflow a.toBitVec b.toBitVec then none else some (a + b)

/-- Addition in 16 bits, which has no result when it overflows. -/
def add16? (a b : UInt16) : Option UInt16 :=
  if BitVec.uaddOverflow a.toBitVec b.toBitVec then none else some (a + b)

theorem add32?_of_lt {a b : UInt32} (h : a.toNat + b.toNat < UInt32.size) :
    add32? a b = some (a + b) := by
  have hfits : BitVec.uaddOverflow a.toBitVec b.toBitVec = false :=
    decide_eq_false (Nat.not_le.mpr h)
  rw [add32?, if_neg (Bool.eq_false_iff.mp hfits)]

theorem add16?_of_lt {a b : UInt16} (h : a.toNat + b.toNat < UInt16.size) :
    add16? a b = some (a + b) := by
  have hfits : BitVec.uaddOverflow a.toBitVec b.toBitVec = false :=
    decide_eq_false (Nat.not_le.mpr h)
  rw [add16?, if_neg (Bool.eq_false_iff.mp hfits)]

/-- An addition that does not overflow is exact. -/
theorem add32?_spec {a b : UInt32} (h : a.toNat + b.toNat < UInt32.size) :
    ∃ c, add32? a b = some c ∧ c.toNat = a.toNat + b.toNat := by
  refine ⟨a + b, add32?_of_lt h, ?_⟩
  rw [UInt32.toNat_add]
  exact Nat.mod_eq_of_lt h

theorem eq_add_of_add32? {a b c : UInt32} (h : add32? a b = some c) : c = a + b := by
  unfold add32? at h
  split at h
  · cases h
  · exact (Option.some.inj h).symm

/-- **The result of a checked addition** is the sum. -/
theorem toNat_of_add32? {a b c : UInt32} (h : add32? a b = some c) :
    c.toNat = a.toNat + b.toNat := by
  by_cases hfits : a.toNat + b.toNat < UInt32.size
  · obtain ⟨d, hd, hsum⟩ := add32?_spec hfits
    rw [hd] at h
    exact Option.some.inj h ▸ hsum
  · have hnone : add32? a b = none := if_pos (decide_eq_true (Nat.le_of_not_lt hfits))
    rw [hnone] at h
    cases h

/-! ## Checked sums -/

/-- An accumulator folded into 16 bits. -/
def fold? (acc : UInt32) : Option UInt16 := do
  let once ← add32? (acc >>> 16) (acc &&& 0xffff)
  add16? (once >>> 16).toUInt16 once.toUInt16

/-- Number of octets in a chunk. -/
def chunkSize : Nat := 2 * blockWords

/-- Adds the words of a chunk. The result comes with the odd octet at the
end, if there is one. -/
def addChunk? (acc : UInt32) : Bytes → Option (UInt32 × Option UInt8)
  | [] => some (acc, none)
  | [b] => some (acc, some b)
  | a :: b :: rest => do addChunk? (← add32? acc (addend a b)) rest

/-- Adds an odd last octet as the high half of a word. -/
def addTail? (acc : UInt32) : Option UInt8 → Option UInt32
  | none => some acc
  | some b => add32? acc (addend b 0)

/-- The sum of a string behind what was summed up to `acc`. -/
def sumFrom? (acc : UInt32) (bs : Bytes) : Option UInt16 :=
  if bs.length < chunkSize then do
    let (acc, odd) ← addChunk? acc bs
    fold? (← addTail? acc odd)
  else do
    let (acc, _) ← addChunk? acc (bs.take chunkSize)
    sumFrom? (← fold? acc).toUInt32 (bs.drop chunkSize)
termination_by bs.length
decreasing_by
  rw [List.length_drop]
  simp only [chunkSize, blockWords] at *
  omega

/-- **The sum of a byte string**, with every addition checked. -/
def sum? (bs : Bytes) : Option UInt16 := sumFrom? 0 bs

/-- Adds the chunks of a segment and folds behind each of them. -/
def addChunks? (acc : UInt32) (bs : Bytes) : Option (UInt32 × Option UInt8) := do
  let (acc, odd) ← addChunk? acc (bs.take chunkSize)
  let folded ← fold? acc
  if bs.length ≤ chunkSize then some (folded.toUInt32, odd)
  else addChunks? folded.toUInt32 (bs.drop chunkSize)
termination_by bs.length
decreasing_by
  rw [List.length_drop]
  simp only [chunkSize, blockWords] at *
  omega

/-- Adds one segment, pairing its first octet with the odd octet that the
segments before it left over. -/
def addSegment? (acc : UInt32) (carried : Option UInt8) (bs : Bytes) :
    Option (UInt32 × Option UInt8) :=
  match carried, bs with
  | carried, [] => some (acc, carried)
  | some a, [b] => do return (← add32? acc (addend a b), none)
  | some a, b :: rest => do addChunks? (← add32? acc (addend a b)) rest
  | none, bs => addChunks? acc bs

/-- **The sum of the concatenation of segments**, with every addition
checked. -/
def sumSegments? (segments : List Bytes) : Option UInt16 := do
  let (acc, tail) ← segments.foldlM (fun s seg => addSegment? s.1 s.2 seg) (0, none)
  fold? (← addTail? acc tail)

/-! ## Folds -/

/-- **A fold does not overflow**: after its first addition at most one
carry is left, and then the low half is nearly zero. -/
theorem fold?_eq_some (acc : UInt32) : fold? acc = some (fold acc) := by
  have hacc := acc.toNat_lt
  obtain ⟨once, honce⟩ : ∃ once, once = (acc >>> 16) + (acc &&& 0xffff) := ⟨_, rfl⟩
  have hsum : once.toNat = acc.toNat / 65536 + acc.toNat % 65536 := by
    rw [honce, toNat_carries_add]
  have hfits : (acc >>> 16).toNat + (acc &&& 0xffff).toNat < UInt32.size := by
    rw [toNat_shiftRight_16, toNat_and_low, UInt32.size]
    omega
  have hlow : once.toNat / 65536 + once.toNat % 65536 < 65536 := by omega
  rw [fold?, add32?_of_lt hfits, ← honce, fold, ← honce]
  refine add16?_of_lt ?_
  rw [UInt32.toNat_toUInt16, UInt32.toNat_toUInt16, toNat_shiftRight_16, UInt16.size]
  omega

/-! ## Chunks -/

/-- **Adding the words of a chunk** does not overflow from an accumulator
that has room for a word for each octet. -/
theorem addChunk?_spec {acc : UInt32} {bs : Bytes}
    (h : acc.toNat + bs.length * 65535 < UInt32.size) :
    ∃ s, addChunk? acc bs = some s ∧ s.1.toNat ≤ acc.toNat + bs.length * 65535
      ∧ (bs.length % 2 = 0 → s.2 = none)
      ∧ ∀ rest, s.1.toNat + wordSum (s.2.toList ++ rest) = acc.toNat + wordSum (bs ++ rest) := by
  fun_induction addChunk? acc bs with
  | case1 acc => exact ⟨_, rfl, by simp, fun _ => rfl, fun rest => rfl⟩
  | case2 acc b => exact ⟨_, rfl, by simp, fun h => by simp at h, fun rest => rfl⟩
  | case3 acc a b bs ih =>
    simp only [List.length_cons] at h ⊢
    have hword := toNat_addend_le a b
    obtain ⟨next, hnext, hsum⟩ := add32?_spec (show acc.toNat + (addend a b).toNat < _ by omega)
    obtain ⟨s, hs, hle, heven, hrest⟩ := ih next (by omega)
    refine ⟨s, ?_, by omega, fun h => heven (by omega), fun rest => ?_⟩
    · rw [hnext]
      exact hs
    · rw [hrest, hsum, List.cons_append, List.cons_append, wordSum_cons_cons, Nat.add_assoc]

/-- The odd octet at the end is added and the accumulator folded. -/
theorem fold?_addTail?_spec {s : UInt32 × Option UInt8} (h : s.1.toNat + 65535 < UInt32.size) :
    ∃ sum, (addTail? s.1 s.2 >>= fold?) = some sum ∧ sum.toNat = outlook s [] := by
  obtain ⟨acc, hacc, hsum⟩ : ∃ acc, addTail? s.1 s.2 = some acc
      ∧ acc.toNat = s.1.toNat + wordSum s.2.toList := by
    obtain ⟨acc, odd⟩ := s
    cases odd with
    | none => exact ⟨acc, rfl, rfl⟩
    | some b =>
      obtain ⟨next, hnext, hsum⟩ :=
        add32?_spec (Nat.lt_of_le_of_lt (Nat.add_le_add_left (toNat_addend_le b 0) _) h)
      refine ⟨next, hnext, ?_⟩
      rw [hsum, toNat_addend, Option.toList_some, wordSum, UInt8.toNat_zero, Nat.add_zero]
  refine ⟨fold acc, ?_, ?_⟩
  · rw [hacc]
    exact fold?_eq_some acc
  · rw [toNat_fold, hsum, outlook, List.append_nil]

/-- An accumulator with at most one word more than a folded one has room
for a chunk and the odd octet behind it. -/
theorem chunk_fits {acc : UInt32} {bs : Bytes} (hacc : acc.toNat ≤ 2 * 65535)
    (hbs : bs.length ≤ chunkSize) : acc.toNat + bs.length * 65535 + 65535 < UInt32.size := by
  rw [chunkSize, blockWords] at hbs
  rw [UInt32.size]
  omega

theorem toNat_toUInt32_fold (acc : UInt32) : (fold acc).toUInt32.toNat = folded acc.toNat := by
  rw [UInt16.toNat_toUInt32, toNat_fold]

/-- **A whole chunk leaves no octet over**, and once folded in it counts as
if it stood in front of what follows it. -/
theorem addChunk?_whole {acc : UInt32} {bs : Bytes} (hacc : acc.toNat ≤ 2 * 65535)
    (hbs : chunkSize ≤ bs.length) :
    ∃ next, addChunk? acc (bs.take chunkSize) = some (next, none)
      ∧ (fold next).toUInt32.toNat ≤ 65535
      ∧ ∀ rest, folded ((fold next).toUInt32.toNat + wordSum (bs.drop chunkSize ++ rest))
          = folded (acc.toNat + wordSum (bs ++ rest)) := by
  have hlength : (bs.take chunkSize).length = chunkSize := List.length_take_of_le hbs
  have hfits := chunk_fits hacc (Nat.le_of_eq hlength)
  obtain ⟨⟨next, odd⟩, hs, -, heven, hrest⟩ :=
    addChunk?_spec (Nat.lt_of_le_of_lt (Nat.le_add_right _ _) hfits)
  obtain rfl : odd = none := heven (by rw [hlength]; rfl)
  have hnext := toNat_toUInt32_fold next
  refine ⟨next, hs, hnext ▸ folded_le _, fun rest => ?_⟩
  have htotal : next.toNat + wordSum (bs.drop chunkSize ++ rest)
      = acc.toNat + wordSum (bs ++ rest) := by
    have h := hrest (bs.drop chunkSize ++ rest)
    rwa [← List.append_assoc (bs.take chunkSize), List.take_append_drop] at h
  rw [hnext, folded_folded_add, htotal]

/-! ## Strings -/

/-- **Summing a string** does not overflow from a folded accumulator. -/
theorem sumFrom?_spec {acc : UInt32} {bs : Bytes} (h : acc.toNat ≤ 65535) :
    ∃ s, sumFrom? acc bs = some s ∧ s.toNat = folded (acc.toNat + wordSum bs) := by
  fun_induction sumFrom? acc bs with
  | case1 acc bs hlast =>
    have hfits := chunk_fits (show acc.toNat ≤ 2 * 65535 by omega) (Nat.le_of_lt hlast)
    obtain ⟨s, hs, hle, -, hrest⟩ :=
      addChunk?_spec (Nat.lt_of_le_of_lt (Nat.le_add_right _ _) hfits)
    obtain ⟨sum, hsum, houtlook⟩ := fold?_addTail?_spec (s := s) (by omega)
    refine ⟨sum, ?_, ?_⟩
    · rw [hs]
      exact hsum
    · rw [houtlook, outlook, hrest, List.append_nil]
  | case2 acc bs hmore ih =>
    obtain ⟨next, hs, hle, hrest⟩ :=
      addChunk?_whole (show acc.toNat ≤ 2 * 65535 by omega) (Nat.not_lt.mp hmore)
    obtain ⟨sum, hsum, hfolded⟩ := ih (fold next) hle
    refine ⟨sum, ?_, ?_⟩
    · rw [hs]
      show (fold? next >>= fun folded => sumFrom? folded.toUInt32 (bs.drop chunkSize)) = _
      rw [fold?_eq_some]
      exact hsum
    · have htotal := hrest []
      rw [List.append_nil, List.append_nil] at htotal
      rw [hfolded, htotal]

/-- **A string is summed without overflow.** -/
theorem sum?_eq_some (bs : Bytes) : sum? bs = some (sum bs) := by
  obtain ⟨s, hs, hsum⟩ := @sumFrom?_spec 0 bs (Nat.zero_le _)
  have heq : s = sum bs := by
    rw [← UInt16.toNat_inj, hsum, toNat_sum]
    exact congrArg folded (Nat.zero_add _)
  rw [sum?, hs, heq]

/-! ## Segments -/

/-- **Adding the chunks of a segment** does not overflow, and leaves room
for another segment. -/
theorem addChunks?_spec {acc : UInt32} {bs : Bytes} (h : acc.toNat ≤ 2 * 65535) :
    ∃ s, addChunks? acc bs = some s ∧ HasRoom s
      ∧ ∀ rest, outlook s rest = folded (acc.toNat + wordSum (bs ++ rest)) := by
  fun_induction addChunks? acc bs with
  | case1 acc bs ih =>
    by_cases hlast : bs.length ≤ chunkSize
    · have hfits := chunk_fits h hlast
      obtain ⟨⟨next, odd⟩, hs, -, -, hrest⟩ :=
        addChunk?_spec (Nat.lt_of_le_of_lt (Nat.le_add_right _ _) hfits)
      have hnext := toNat_toUInt32_fold next
      have hle : (fold next).toUInt32.toNat ≤ 65535 := hnext ▸ folded_le _
      refine ⟨((fold next).toUInt32, odd), ?_, ⟨by dsimp only; omega, fun _ => hle⟩, fun rest => ?_⟩
      · simp only [List.take_of_length_le hlast, hs, fold?_eq_some, Option.bind_eq_bind,
          Option.bind_some, if_pos hlast]
      · rw [outlook, hnext, folded_folded_add, hrest]
    · obtain ⟨next, hs, hle, hrest⟩ := addChunk?_whole h (Nat.le_of_not_le hlast)
      obtain ⟨s, hmore, hroom, houtlook⟩ := ih (fold next) hlast (by omega)
      refine ⟨s, ?_, hroom, fun rest => (houtlook rest).trans (hrest rest)⟩
      simp only [hs, fold?_eq_some, Option.bind_eq_bind, Option.bind_some, if_neg hlast]
      exact hmore

/-- **Adding a segment** does not overflow, and what the sum comes to is as
if the segment stood in front of what follows it. -/
theorem addSegment?_spec {s : UInt32 × Option UInt8} (h : HasRoom s) (bs : Bytes) :
    ∃ s', addSegment? s.1 s.2 bs = some s' ∧ HasRoom s'
      ∧ ∀ rest, outlook s' rest = outlook s (bs ++ rest) := by
  obtain ⟨acc, left⟩ := s
  obtain ⟨hle, hcarried⟩ := h
  cases left with
  | none =>
    cases bs with
    | nil => exact ⟨_, rfl, ⟨hle, hcarried⟩, fun rest => rfl⟩
    | cons b bs =>
      have hwhole : addSegment? acc none (b :: bs) = addChunks? acc (b :: bs) := by
        cases bs <;> rfl
      rw [hwhole]
      exact addChunks?_spec hle
  | some a =>
    have hacc : acc.toNat ≤ 65535 := hcarried rfl
    cases bs with
    | nil => exact ⟨_, rfl, ⟨hle, hcarried⟩, fun rest => rfl⟩
    | cons b bs =>
      -- The octet left over is the high half of a word with the first one of the segment.
      have hword := toNat_addend_le a b
      obtain ⟨next, hnext, hsum⟩ :=
        add32?_spec (show acc.toNat + (addend a b).toNat < UInt32.size by rw [UInt32.size]; omega)
      have hpair : ∀ rest, outlook (acc, some a) (b :: bs ++ rest)
          = folded (next.toNat + wordSum (bs ++ rest)) := fun rest => by
        rw [hsum, Nat.add_assoc, ← wordSum_cons_cons]
        rfl
      have hroom : next.toNat ≤ 2 * 65535 := by omega
      cases bs with
      | nil =>
        refine ⟨(next, none), ?_, ⟨hroom, fun h => by cases h⟩, fun rest => (hpair rest).symm⟩
        show (add32? acc (addend a b) >>= fun next => some (next, none)) = _
        rw [hnext]
        rfl
      | cons c bs =>
        obtain ⟨s, hs, hend, houtlook⟩ := @addChunks?_spec next (c :: bs) hroom
        refine ⟨s, ?_, hend, fun rest => (houtlook rest).trans (hpair rest).symm⟩
        show (add32? acc (addend a b) >>= fun next => addChunks? next (c :: bs)) = _
        rw [hnext]
        exact hs

/-- The same for segments one after the other. -/
theorem foldlM_addSegment?_spec {s : UInt32 × Option UInt8} (h : HasRoom s)
    (segments : List Bytes) :
    ∃ s', segments.foldlM (fun s seg => addSegment? s.1 s.2 seg) s = some s' ∧ HasRoom s'
      ∧ outlook s' [] = outlook s segments.flatten := by
  induction segments generalizing s with
  | nil => exact ⟨s, rfl, h, rfl⟩
  | cons seg segments ih =>
    obtain ⟨next, hnext, hroom, houtlook⟩ := addSegment?_spec h seg
    obtain ⟨s', hs', hend, hsum⟩ := ih hroom
    refine ⟨s', ?_, hend, by rw [hsum, houtlook, List.flatten_cons]⟩
    rw [List.foldlM_cons, hnext]
    exact hs'

/-- **Segments are summed without overflow.** -/
theorem sumSegments?_eq_some (segments : List Bytes) :
    sumSegments? segments = some (sumSegments segments) := by
  have hroom : HasRoom (0, none) := ⟨by decide, fun h => by cases h⟩
  obtain ⟨s, hs, ⟨hle, -⟩, houtlook⟩ := foldlM_addSegment?_spec hroom segments
  obtain ⟨sum, hsum, hfolded⟩ := fold?_addTail?_spec (s := s) (by rw [UInt32.size]; omega)
  have heq : sum = sumSegments segments := by
    rw [← UInt16.toNat_inj, hfolded, houtlook, toNat_sumSegments]
    exact congrArg folded (Nat.zero_add _)
  rw [sumSegments?, hs, ← heq]
  exact hsum

/-! ## What a sum is -/

/-- A zero octet behind an odd string completes its last word. -/
theorem wordSum_append_zeros (bs : Bytes) :
    wordSum (bs ++ Bytes.zeros (bs.length % 2)) = wordSum bs := by
  fun_induction wordSum bs with
  | case1 => rfl
  | case2 b =>
    show b.toNat * 256 + UInt8.toNat 0 + wordSum [] = b.toNat * 256
    rw [UInt8.toNat_zero, Nat.add_zero, wordSum, Nat.add_zero]
  | case3 a b rest ih =>
    rw [List.length_cons, List.length_cons, Nat.add_assoc, Nat.add_mod_right, List.cons_append,
      List.cons_append, wordSum, ih]

/-- **The sum of segments is that of the string they make up, and both are
the one's complement sum of its words**: with an odd octet at the end
completed by a zero, they are 0 for words that are all zero, and otherwise
the number from 1 to 65535 that is congruent to the sum of the words. No
addition on the way overflows, neither in the sum of the segments nor in
that of the string, and none in a fold from any accumulator. -/
theorem sumSegments_eq_sum_flatten (segments : List Bytes) :
    let bs := segments.flatten
    let total := wordSum (bs ++ Bytes.zeros (bs.length % 2))
    sumSegments segments = sum bs
      ∧ (sum bs).toNat = (if total = 0 then 0 else (total - 1) % 65535 + 1)
      ∧ sumSegments? segments = some (sumSegments segments)
      ∧ sum? bs = some (sum bs)
      ∧ ∀ acc, fold? acc = some (fold acc) := by
  intro bs total
  have hsum : (sum bs).toNat = folded total := by
    rw [toNat_sum]
    exact congrArg folded (wordSum_append_zeros bs).symm
  have hsegments : sumSegments segments = sum bs := by
    rw [← UInt16.toNat_inj, toNat_sumSegments, toNat_sum]
  exact ⟨hsegments, hsum, sumSegments?_eq_some segments, sum?_eq_some bs, fold?_eq_some⟩

end PacketCodec.Checksum
