import Mathlib.Tactic.Linarith
import Mathlib.Tactic.Ring
import PacketCodec.Window

/-!
# Words and readers

A word and the octets it is written as determine each other: `be` writes
what `beNat` reads (`be_beNat`) and `beNat` reads what `be` writes
(`beNat_be`), as long as the value has no more digits than there are
octets.

On that rests what is said of a reader off the front of a byte string. A
reader is **exact** for a writer, `Bytes.Exact`, when what it has taken is
what would be written for the value it returns. The readers of single
fields are exact in both directions, so their lemmas are equivalences, and
they are simp lemmas: a reader put together from them turns into the
string that it reads.
-/

namespace PacketCodec

/-! ## Outcomes -/

section Outcome

variable {ε α β : Type}

/-- What a reader returns that goes on with the value of another. -/
theorem bind_eq_ok {x : Except ε α} {f : α → Except ε β} {b : β} :
    (x >>= f) = .ok b ↔ ∃ a, x = .ok a ∧ f a = .ok b := by
  cases x with
  | error e => simp [bind, Except.bind]
  | ok a => simp [bind, Except.bind]

theorem return_eq_ok {a b : α} : (pure a : Except ε α) = .ok b ↔ a = b := by
  rw [show (pure a : Except ε α) = .ok a from rfl, Except.ok.injEq]

theorem map_eq_ok {x : Except ε α} {f : α → β} {b : β} :
    x.map f = .ok b ↔ ∃ a, x = .ok a ∧ f a = b := by
  cases x with
  | error e => simp [Except.map]
  | ok a => simp [Except.map]

theorem throw_ne_ok {e : ε} {b : α} : (throw e : Except ε α) ≠ .ok b := by
  intro h
  cases h

theorem exists_of_isOk {x : Except ε α} (h : x.isOk = true) : ∃ a, x = .ok a := by
  cases x with
  | error e => cases h
  | ok a => exact ⟨a, rfl⟩

end Outcome

namespace Bytes

/-! ## Words -/

theorem be_succ (w n : Nat) : be (w + 1) n = UInt8.ofNat (n / 256 ^ w) :: be w n := rfl

@[simp] theorem length_be (w n : Nat) : (be w n).length = w := by
  induction w with
  | zero => rfl
  | succ w ih => rw [be_succ, List.length_cons, ih]

@[simp] theorem length_be16 (v : UInt16) : (be16 v).length = 2 := length_be 2 v.toNat

@[simp] theorem length_be24 (v : UInt32) : (be24 v).length = 3 := length_be 3 v.toNat

@[simp] theorem length_be32 (v : UInt32) : (be32 v).length = 4 := length_be 4 v.toNat

@[simp] theorem length_be64 (v : UInt64) : (be64 v).length = 8 := length_be 8 v.toNat

@[simp] theorem length_le32 (v : UInt32) : (le32 v).length = 4 := by
  rw [le32, le, List.length_reverse, length_be]

/-- Multiples of `256 ^ w` are out of reach of `w` digits. -/
theorem be_mul_add (w m n : Nat) : be w (m * 256 ^ w + n) = be w n := by
  induction w generalizing m with
  | zero => rfl
  | succ w ih =>
    have hm : m * 256 ^ (w + 1) = m * 256 * 256 ^ w := by ring
    have hdiv : (m * 256 * 256 ^ w + n) / 256 ^ w = n / 256 ^ w + m * 256 := by
      rw [Nat.add_comm, Nat.add_mul_div_right _ _ (by positivity)]
    have hdigit : UInt8.ofNat (n / 256 ^ w + m * 256) = UInt8.ofNat (n / 256 ^ w) := by
      apply UInt8.toNat_inj.mp
      rw [UInt8.toNat_ofNat', UInt8.toNat_ofNat']
      omega
    rw [be_succ, be_succ, hm, hdiv, hdigit, ih]

/-- Reading digits on from a value so far. -/
theorem foldl_beNat (bs : Bytes) (n : Nat) :
    bs.foldl (fun n b => n * 256 + b.toNat) n = n * 256 ^ bs.length + beNat bs := by
  induction bs generalizing n with
  | nil => simp [beNat]
  | cons b bs ih =>
    have hb : beNat (b :: bs) = b.toNat * 256 ^ bs.length + beNat bs := by
      rw [← ih, beNat, List.foldl_cons, Nat.zero_mul, Nat.zero_add]
    rw [List.foldl_cons, ih, hb, List.length_cons, pow_succ]
    ring

theorem beNat_cons (b : UInt8) (bs : Bytes) :
    beNat (b :: bs) = b.toNat * 256 ^ bs.length + beNat bs := by
  rw [beNat, List.foldl_cons, foldl_beNat, Nat.zero_mul, Nat.zero_add]

theorem beNat_lt (bs : Bytes) : beNat bs < 256 ^ bs.length := by
  induction bs with
  | nil => simp [beNat]
  | cons b bs ih =>
    have hb := b.toNat_lt
    rw [beNat_cons, List.length_cons, pow_succ]
    nlinarith

/-- **Writing what was read** gives the octets back, leading zeros
included. -/
theorem be_beNat (bs : Bytes) : be bs.length (beNat bs) = bs := by
  induction bs with
  | nil => rfl
  | cons b bs ih =>
    have hdiv : (b.toNat * 256 ^ bs.length + beNat bs) / 256 ^ bs.length = b.toNat := by
      rw [Nat.mul_comm, Nat.mul_add_div (by positivity), Nat.div_eq_of_lt (beNat_lt bs),
        Nat.add_zero]
    rw [List.length_cons, be_succ, beNat_cons, hdiv, UInt8.ofNat_toNat, be_mul_add, ih]

/-- **Reading what was written** gives the value back, when it has no more
than `w` digits. -/
theorem beNat_be {w n : Nat} (h : n < 256 ^ w) : beNat (be w n) = n := by
  induction w generalizing n with
  | zero =>
    rw [pow_zero, Nat.lt_one_iff] at h
    rw [h]
    rfl
  | succ w ih =>
    have hd : n / 256 ^ w < 256 := by
      rw [pow_succ] at h
      rw [Nat.div_lt_iff_lt_mul (by positivity)]
      omega
    have hn : be w n = be w (n % 256 ^ w) := by
      conv_lhs => rw [← Nat.div_add_mod' n (256 ^ w)]
      exact be_mul_add _ _ _
    rw [be_succ, beNat_cons, length_be, hn, ih (Nat.mod_lt _ (by positivity)), UInt8.toNat_ofNat',
      Nat.mod_eq_of_lt hd, Nat.div_add_mod']

/-- The value of two octets is that of the word they make. -/
theorem toNat_ofNat_beNat (high low : UInt8) :
    (UInt16.ofNat (beNat [high, low])).toNat = beNat [high, low] :=
  UInt16.toNat_ofNat_of_lt (lt_of_lt_of_eq (beNat_lt [high, low]) (by simp))

/-- Two octets are written back as they were, read as a word. -/
theorem be16_ofNat_beNat (high low : UInt8) :
    be16 (UInt16.ofNat (beNat [high, low])) = [high, low] := by
  rw [be16, toNat_ofNat_beNat]
  exact be_beNat [high, low]

/-- Four octets are written back as they were, read as a word. -/
theorem be32_ofNat_beNat {bs : Bytes} (h : bs.length = 4) : be32 (UInt32.ofNat (beNat bs)) = bs := by
  have hlt : beNat bs < UInt32.size := lt_of_lt_of_eq (beNat_lt bs) (by rw [h]; rfl)
  rw [be32, UInt32.toNat_ofNat_of_lt' hlt, ← h, be_beNat]

theorem be32_injective : Function.Injective be32 := by
  intro v w h
  have hnat := congrArg beNat h
  rwa [be32, be32, beNat_be v.toNat_lt, beNat_be w.toNat_lt, UInt32.toNat_inj] at hnat

theorem leNat_cons (b : UInt8) (bs : Bytes) : leNat (b :: bs) = b.toNat + 256 * leNat bs := by
  rw [leNat, List.reverse_cons, beNat, List.foldl_append]
  show leNat bs * 256 + b.toNat = _
  omega

theorem leNat_lt (bs : Bytes) : leNat bs < 256 ^ bs.length :=
  lt_of_lt_of_eq (beNat_lt bs.reverse) (by rw [List.length_reverse])

/-- Octets read least significant first are written back as they were. -/
theorem le_leNat (bs : Bytes) : le bs.length (leNat bs) = bs := by
  rw [le, leNat, ← List.length_reverse, be_beNat, List.reverse_reverse]

/-- Four octets are written back as they were, read least significant
first. -/
theorem le32_ofNat_leNat {bs : Bytes} (h : bs.length = 4) :
    le32 (UInt32.ofNat (leNat bs)) = bs := by
  have hlt : leNat bs < UInt32.size := lt_of_lt_of_eq (leNat_lt bs) (by rw [h]; rfl)
  rw [le32, UInt32.toNat_ofNat_of_lt' hlt, ← h, le_leNat]

theorem leNat_le32 (v : UInt32) : leNat (le32 v) = v.toNat := by
  rw [le32, le, leNat, List.reverse_reverse]
  exact beNat_be v.toNat_lt

/-! ## Reading off the front -/

/-- **A reader is exact** for a writer: what it takes off the front is
what is written for the value it returns. -/
def Exact {α : Type} (read : Bytes → Option (α × Bytes)) (write : α → Bytes) : Prop :=
  ∀ {bs : Bytes} {a : α} {rest : Bytes}, read bs = some (a, rest) → bs = write a ++ rest

/-- What a reader returns that goes on with `f` behind what it has
taken. -/
theorem bind_eq_some {α β : Type} {x : Option (α × Bytes)} {f : α × Bytes → Option β} {b : β} :
    (x >>= f) = some b ↔ ∃ a rest, x = some (a, rest) ∧ f (a, rest) = some b := by
  rw [Option.bind_eq_bind, Option.bind_eq_some_iff, Prod.exists]

theorem return_eq_some {α : Type} {a a' : α} {rest rest' : Bytes} :
    (pure (a, rest) : Option (α × Bytes)) = some (a', rest') ↔ a = a' ∧ rest = rest' := by
  rw [Option.pure_def, Option.some.injEq, Prod.mk.injEq]

@[simp] theorem split?_eq_some {bs front rest : Bytes} {n : Nat} :
    bs.split? n = some (front, rest) ↔ bs = front ++ rest ∧ front.length = n := by
  constructor
  · intro h
    simp only [split?, Option.ite_none_right_eq_some, Option.some.injEq, Prod.mk.injEq] at h
    obtain ⟨hn, rfl, rfl⟩ := h
    exact ⟨(List.take_append_drop n bs).symm, hn⟩
  · rintro ⟨rfl, rfl⟩
    simp [split?]

@[simp] theorem u8?_eq_some {bs rest : Bytes} {b : UInt8} :
    bs.u8? = some (b, rest) ↔ bs = b :: rest := by
  cases bs <;> simp [u8?]

theorem uint?_eq_some {bs rest : Bytes} {w n : Nat} :
    bs.uint? w = some (n, rest) ↔ bs = be w n ++ rest ∧ n < 256 ^ w := by
  simp only [uint?, Option.map_eq_some_iff, Prod.exists, split?_eq_some, Prod.mk.injEq]
  constructor
  · rintro ⟨front, _, ⟨rfl, rfl⟩, rfl, rfl⟩
    exact ⟨by rw [be_beNat], beNat_lt front⟩
  · rintro ⟨rfl, hn⟩
    exact ⟨be w n, rest, ⟨rfl, length_be w n⟩, beNat_be hn, rfl⟩

/-- A type of words that holds every value of `w` octets is read as its
values are. -/
theorem map_uint?_eq_some {α : Type} {ofNat : Nat → α} {toNat : α → Nat} {w : Nat}
    (toNat_ofNat : ∀ n < 256 ^ w, toNat (ofNat n) = n) (ofNat_toNat : ∀ v, ofNat (toNat v) = v)
    {bs rest : Bytes} {v : α} :
    (bs.uint? w).map (fun p => (ofNat p.1, p.2)) = some (v, rest)
      ↔ bs = be w (toNat v) ++ rest ∧ toNat v < 256 ^ w := by
  simp only [Option.map_eq_some_iff, Prod.exists, uint?_eq_some, Prod.mk.injEq]
  constructor
  · rintro ⟨n, _, ⟨rfl, hn⟩, rfl, rfl⟩
    rw [toNat_ofNat n hn]
    exact ⟨rfl, hn⟩
  · rintro ⟨rfl, hv⟩
    exact ⟨toNat v, rest, ⟨rfl, hv⟩, ofNat_toNat v, rfl⟩

@[simp] theorem u16?_eq_some {bs rest : Bytes} {v : UInt16} :
    bs.u16? = some (v, rest) ↔ bs = be16 v ++ rest :=
  (map_uint?_eq_some (fun _ hn => UInt16.toNat_ofNat_of_lt hn)
    (fun _ => UInt16.ofNat_toNat)).trans (and_iff_left v.toNat_lt)

@[simp] theorem u24?_eq_some {bs rest : Bytes} {v : UInt32} :
    bs.u24? = some (v, rest) ↔ bs = be24 v ++ rest ∧ v.toNat < 256 ^ 3 :=
  map_uint?_eq_some (fun _ hn => UInt32.toNat_ofNat_of_lt (hn.trans (by decide)))
    (fun _ => UInt32.ofNat_toNat)

@[simp] theorem u32?_eq_some {bs rest : Bytes} {v : UInt32} :
    bs.u32? = some (v, rest) ↔ bs = be32 v ++ rest :=
  (map_uint?_eq_some (fun _ hn => UInt32.toNat_ofNat_of_lt hn)
    (fun _ => UInt32.ofNat_toNat)).trans (and_iff_left v.toNat_lt)

@[simp] theorem u64?_eq_some {bs rest : Bytes} {v : UInt64} :
    bs.u64? = some (v, rest) ↔ bs = be64 v ++ rest :=
  (map_uint?_eq_some (fun _ hn => UInt64.toNat_ofNat_of_lt hn)
    (fun _ => UInt64.ofNat_toNat)).trans (and_iff_left v.toNat_lt)

end Bytes

@[simp] theorem Octets.take?_eq_some {n : Nat} {bs rest : Bytes} {o : Octets n} :
    Octets.take? n bs = some (o, rest) ↔ bs = o.bytes ++ rest := by
  constructor
  · intro h
    simp only [Octets.take?, Option.dite_none_right_eq_some, Option.some.injEq,
      Prod.mk.injEq] at h
    obtain ⟨_, rfl, rfl⟩ := h
    exact (List.take_append_drop n bs).symm
  · rintro rfl
    have hn := o.length_eq
    simp [Octets.take?, hn]

/-! ## Reading a window -/

namespace Window

@[simp] theorem read_eq_ok {α : Type} {w : Window} {protocol : String} {need : Nat}
    {front? : Bytes → Option (α × Bytes)} {r : α × Bytes} :
    w.read protocol need front? = .ok r ↔ front? w.bytes = some r := by
  unfold read
  cases front? w.bytes <;> simp

theorem length_clamp {buf : Bytes} {offset length : Nat} (h : offset + length ≤ buf.length) :
    (buf.clamp offset length).length = length := by
  rw [Bytes.clamp, List.length_take, List.length_drop]
  omega

/-- The window that a decoder gets of a buffer. -/
theorem cut_eq_ok {protocol : String} {buf : Bytes} {offset length : Nat} {w : Window} :
    cut protocol buf offset length = .ok w
      ↔ offset + length ≤ buf.length ∧ w = ⟨offset, buf.clamp offset length⟩ := by
  unfold cut cut?
  split
  · next h =>
    split at h <;> simp_all [eq_comm]
  · next h =>
    split at h <;> simp_all

/-- A whole buffer is a window. -/
theorem cut_alone (protocol : String) (buf : Bytes) :
    cut protocol buf 0 buf.length = .ok ⟨0, buf⟩ := by
  rw [cut_eq_ok, Bytes.clamp, List.drop_zero, List.take_length]
  exact ⟨(Nat.zero_add _).le, rfl⟩

end Window

end PacketCodec
