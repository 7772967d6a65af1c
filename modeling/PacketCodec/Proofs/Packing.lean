import PacketCodec.Ipv6.Header
import PacketCodec.Proofs.Bits

/-!
# Words made of several fields

A word is put together by ORing one field after the other into it. The
order does not matter, whatever the fields are: an OR can be moved past
another one. What is read out of the word again depends on the fields. A
field that shares bits with another one reads some of the other's value,
so that the masks have to be disjoint, two by two; then every field has the
low bits of the value put into it, for as many as it has room for
(`BitField.get_putAll`).

The other way round, a word that is taken apart and put together again
keeps the bits under the masks and loses the rest (`BitField.putAll_get`).
That needs no condition, since fields that share bits agree on them when
they are read from one word. A format whose fields cover the word writes
back the word it read, and in whatever order it likes.
-/

namespace PacketCodec.BitField

/-- **Values put into a word**, one field after the other. -/
def putAll (acc : UInt32) (puts : List (BitField × UInt32)) : UInt32 :=
  puts.foldl (fun acc p => p.1.put acc p.2) acc

/-- The bits of a word that belong to one of the fields. -/
def cover (fields : List BitField) : UInt32 :=
  fields.foldr (fun f bits => f.mask ||| bits) 0

variable {f g : BitField} {puts puts' : List (BitField × UInt32)}

theorem putAll_cons (acc : UInt32) (p : BitField × UInt32) (puts : List (BitField × UInt32)) :
    putAll acc (p :: puts) = putAll (p.1.put acc p.2) puts := rfl

theorem cover_cons (f : BitField) (fields : List BitField) :
    cover (f :: fields) = f.mask ||| cover fields := rfl

/-- A bit is covered by fields when one of them has it. -/
theorem testBit_cover (fields : List BitField) (i : Nat) :
    (cover fields).toNat.testBit i = fields.any fun f => f.mask.toNat.testBit i := by
  induction fields with
  | nil => exact Nat.zero_testBit i
  | cons f fields ih =>
    rw [cover_cons, UInt32.toNat_or, Nat.testBit_or, ih, List.any_cons]

/-! ## The order of the fields -/

/-- Two values can be put into their fields in either order. -/
theorem put_put_comm (f g : BitField) (acc v w : UInt32) :
    g.put (f.put acc v) w = f.put (g.put acc w) v := by
  unfold put
  rw [UInt32.or_assoc, UInt32.or_assoc, UInt32.or_comm (_ <<< UInt32.ofNat f.shift)]

/-- **The order in which values are put into a word** makes no difference. -/
theorem putAll_perm (h : puts.Perm puts') (acc : UInt32) : putAll acc puts = putAll acc puts' :=
  h.foldl_eq' (fun p _ q _ acc => put_put_comm p.1 q.1 acc p.2 q.2) acc

/-! ## Fields without shared bits -/

theorem Apart.symm (h : f.Apart g) : g.Apart f := Or.symm h

/-- **Two fields share no bits** exactly when their masks have none in
common. -/
theorem apart_iff_mask_and_mask : f.Apart g ↔ f.mask &&& g.mask = 0 := by
  have hf := f.width_pos
  have hg := g.width_pos
  have hbits : ∀ i, (f.mask &&& g.mask).toNat.testBit i
      = (decide (f.shift ≤ i ∧ i < f.shift + f.width)
        && decide (g.shift ≤ i ∧ i < g.shift + g.width)) := fun i => by
    rw [UInt32.toNat_and, Nat.testBit_and, testBit_mask, testBit_mask]
  constructor
  · intro h
    apply UInt32.toNat_inj.mp
    apply Nat.eq_of_testBit_eq
    intro i
    rw [hbits, UInt32.toNat_zero, Nat.zero_testBit, ← Bool.decide_and, decide_eq_false_iff_not]
    unfold Apart at h
    omega
  · intro h
    -- Where neither field ends before the other one starts, both have the bit
    -- that the later one starts with.
    have hshared := hbits (Max.max f.shift g.shift)
    rw [h, UInt32.toNat_zero, Nat.zero_testBit, ← Bool.decide_and, eq_comm,
      decide_eq_false_iff_not] at hshared
    unfold Apart
    omega

/-- Values put into other fields make no difference. -/
theorem get_putAll_of_apart (h : ∀ p ∈ puts, f.Apart p.1) (acc : UInt32) :
    f.get (putAll acc puts) = f.get acc := by
  induction puts generalizing acc with
  | nil => rfl
  | cons p puts ih =>
    obtain ⟨hp, hputs⟩ := List.forall_mem_cons.mp h
    rw [putAll_cons, ih hputs, get_put_of_apart hp]

/-- **A field reads the value that was put into it**, as far as there is
room, when it was empty and no two fields share bits. -/
theorem get_putAll (apart : puts.Pairwise fun p q => p.1.Apart q.1) {acc : UInt32}
    (empty : ∀ p ∈ puts, p.1.get acc = 0) :
    ∀ p ∈ puts, p.1.get (putAll acc puts) = p.2 &&& p.1.max := by
  induction puts generalizing acc with
  | nil => exact List.forall_mem_nil _
  | cons q puts ih =>
    obtain ⟨hq, hputs⟩ := List.pairwise_cons.mp apart
    obtain ⟨hempty, hrest⟩ := List.forall_mem_cons.mp empty
    -- The fields behind the first one are still empty once it has its value.
    refine List.forall_mem_cons.mpr ⟨?_, ih hputs fun p hp => ?_⟩
    · rw [putAll_cons, get_putAll_of_apart hq, get_put, hempty, UInt32.zero_or]
    · rw [get_put_of_apart (hq p hp).symm, hrest p hp]

/-! ## Bits without a field -/

theorem testBit_put_of_mask {i : Nat} (h : f.mask.toNat.testBit i = false) (acc v : UInt32) :
    (f.put acc v).toNat.testBit i = acc.toNat.testBit i := by
  rw [testBit_mask] at h
  rw [put, UInt32.toNat_or, Nat.testBit_or, testBit_place, h, Bool.false_and, Bool.or_false]

/-- **A bit that belongs to no field** stays as it is. -/
theorem testBit_putAll_of_mask {i : Nat} (h : ∀ p ∈ puts, p.1.mask.toNat.testBit i = false)
    (acc : UInt32) : (putAll acc puts).toNat.testBit i = acc.toNat.testBit i := by
  induction puts generalizing acc with
  | nil => rfl
  | cons p puts ih =>
    obtain ⟨hp, hputs⟩ := List.forall_mem_cons.mp h
    rw [putAll_cons, ih hputs, testBit_put_of_mask hp]

/-! ## Words taken apart -/

/-- **Putting back what was read** ORs in the bits of the word that belong
to one of the fields. -/
theorem putAll_get (fields : List BitField) (acc word : UInt32) :
    putAll acc (fields.map fun f => (f, f.get word)) = acc ||| (word &&& cover fields) := by
  induction fields generalizing acc with
  | nil => rw [List.map_nil, cover, List.foldr_nil, UInt32.and_zero, UInt32.or_zero]; rfl
  | cons f fields ih =>
    rw [List.map_cons, putAll_cons, ih, put_get, UInt32.or_assoc, and_or_and, cover_cons]

/-- **Fields without shared bits are packed and unpacked.** When the masks
are disjoint, values put into an empty word make the same word in every
order, each field of it is its value modulo the number of values it can
hold, and a bit that belongs to no field is zero. A word that is taken
apart into the fields and put together again has kept the bits that they
cover, which are those of their masks, and no others. -/
theorem unpack_pack (puts : List (BitField × UInt32))
    (disjoint : (puts.map Prod.fst).Pairwise fun f g => f.mask &&& g.mask = 0) :
    let fields := puts.map Prod.fst
    (∀ puts', puts'.Perm puts → putAll 0 puts' = putAll 0 puts)
      ∧ (∀ p ∈ puts, (p.1.get (putAll 0 puts)).toNat = p.2.toNat % 2 ^ p.1.width)
      ∧ (∀ i, (∀ f ∈ fields, f.mask.toNat.testBit i = false) →
          (putAll 0 puts).toNat.testBit i = false)
      ∧ (∀ i, (cover fields).toNat.testBit i = fields.any fun f => f.mask.toNat.testBit i)
      ∧ ∀ word, putAll 0 (fields.map fun f => (f, f.get word)) = word &&& cover fields := by
  intro fields
  have apart : puts.Pairwise fun p q => p.1.Apart q.1 :=
    (List.pairwise_map.mp disjoint).imp apart_iff_mask_and_mask.mpr
  refine ⟨fun puts' h => putAll_perm h 0, fun p hp => ?_, fun i h => ?_, testBit_cover fields,
    fun word => ?_⟩
  · rw [get_putAll apart (fun q _ => q.1.get_zero) p hp, toNat_and_max]
  · rw [testBit_putAll_of_mask (List.forall_mem_map.mp h), UInt32.toNat_zero, Nat.zero_testBit]
  · rw [putAll_get, UInt32.zero_or]

/-- The first word of an IPv6 header, put together from its last field to
its first. The traffic class has one bit too many, which is dropped, and
the three fields cover the word. -/
theorem unpack_pack_ipv6 :
    let puts : List (BitField × UInt32) :=
      [(Ipv6Header.versionBits, 6), (Ipv6Header.trafficClassBits, 0x1a5),
        (Ipv6Header.flowLabelBits, 0xbcdef)]
    let fields := puts.map Prod.fst
    (fields.Pairwise fun f g => f.mask &&& g.mask = 0)
      ∧ putAll 0 puts.reverse = 0x6a5bcdef
      ∧ (Ipv6Header.trafficClassBits.get (putAll 0 puts)).toNat = 0x1a5 % 2 ^ 8
      ∧ ∀ word, putAll 0 (fields.map fun f => (f, f.get word)) = word := by
  intro puts fields
  have disjoint : fields.Pairwise fun f g => f.mask &&& g.mask = 0 := by decide
  obtain ⟨hperm, hget, -, -, hword⟩ := unpack_pack puts disjoint
  refine ⟨disjoint, ?_, hget (Ipv6Header.trafficClassBits, 0x1a5) (by decide), fun word => ?_⟩
  · rw [hperm puts.reverse puts.reverse_perm]
    decide
  · have hcover : cover fields = -1 := by decide
    rw [hword, hcover, UInt32.and_neg_one]

end PacketCodec.BitField
