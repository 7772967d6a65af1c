import PacketCodec.Packet.Basic
import PacketCodec.Proofs.Bytes

/-!
# How much a reader takes

The readers of fixed layouts take a number of octets that does not depend
on what the octets are, `Bytes.Takes`: such a reader succeeds exactly when
that many are there, and returns what is behind them. The number of a
reader put together from others is the sum of theirs, so that of each
header follows from its fields, in the order in which they are read.

What it returns depends on the octets that it takes alone: when more
octets follow, it returns the same, and leaves those behind as well. A
reader that does so is *steady* (`Bytes.Steady`), whether or not the
number of octets that it takes is known beforehand.
-/

namespace PacketCodec

namespace Bytes

variable {α β : Type}

/-- **A reader is steady**: when more octets follow, it returns the same
value, and leaves them behind what it left before. -/
def Steady (read : Bytes → Option (α × Bytes)) : Prop :=
  ∀ ⦃bs rest : Bytes⦄ ⦃a : α⦄, read bs = some (a, rest) →
    ∀ more, read (bs ++ more) = some (a, rest ++ more)

namespace Steady

theorem pure (a : α) : Steady fun bs => (Pure.pure (a, bs) : Option (α × Bytes)) := by
  intro bs rest b h more
  obtain ⟨rfl, rfl⟩ := return_eq_some.mp h
  rfl

/-- A reader that goes on with another is steady when both are. -/
theorem bind {read : Bytes → Option (α × Bytes)} {next : α × Bytes → Option (β × Bytes)}
    (first : Steady read) (second : ∀ a, Steady fun bs => next (a, bs)) :
    Steady fun bs => read bs >>= next := by
  intro bs rest b h more
  obtain ⟨a, behind, ha, hb⟩ := bind_eq_some.mp h
  exact bind_eq_some.mpr ⟨a, behind ++ more, first ha more, second a hb more⟩

theorem map {read : Bytes → Option (α × Bytes)} (h : Steady read) (f : α → β) :
    Steady fun bs => (read bs).map fun p => (f p.1, p.2) := by
  intro bs rest b hb more
  simp only [Option.map_eq_some_iff, Prod.exists, Prod.mk.injEq] at hb ⊢
  obtain ⟨a, _, ha, rfl, rfl⟩ := hb
  exact ⟨a, _, h ha more, rfl, rfl⟩

end Steady

/-- **A reader takes `n` octets** off the front, whatever they are. -/
structure Takes (n : Nat) (read : Bytes → Option (α × Bytes)) : Prop where
  /-- It succeeds when they are there, and returns what is behind them. -/
  some_of_le : ∀ bs, n ≤ bs.length → ∃ a, read bs = some (a, bs.drop n)
  /-- It fails when there are fewer. -/
  none_of_lt : ∀ bs, bs.length < n → read bs = none
  /-- What it returns does not depend on what is behind them. -/
  steady : Steady read

namespace Takes

theorem isSome_iff {n : Nat} {read : Bytes → Option (α × Bytes)} (h : Takes n read) (bs : Bytes) :
    (read bs).isSome ↔ n ≤ bs.length := by
  by_cases hn : n ≤ bs.length
  · obtain ⟨a, ha⟩ := h.some_of_le bs hn
    simp [ha, hn]
  · simp [h.none_of_lt bs (Nat.lt_of_not_le hn), hn]

/-- What is left is what is behind the octets taken, which are there. -/
theorem eq_drop {n : Nat} {read : Bytes → Option (α × Bytes)} (h : Takes n read) {bs rest : Bytes}
    {a : α} (ha : read bs = some (a, rest)) : n ≤ bs.length ∧ rest = bs.drop n := by
  have hn : n ≤ bs.length := (h.isSome_iff bs).mp (by rw [ha]; rfl)
  obtain ⟨b, hb⟩ := h.some_of_le bs hn
  rw [ha] at hb
  cases hb
  exact ⟨hn, rfl⟩

theorem length_lt {n : Nat} {read : Bytes → Option (α × Bytes)} (h : Takes n read) {bs : Bytes}
    (hnone : read bs = none) : bs.length < n := by
  rw [← Nat.not_le, ← h.isSome_iff bs, hnone]
  exact Bool.false_ne_true

theorem length {n : Nat} {read : Bytes → Option (α × Bytes)} (h : Takes n read) {bs rest : Bytes}
    {a : α} (ha : read bs = some (a, rest)) : bs.length = n + rest.length := by
  obtain ⟨hn, rfl⟩ := h.eq_drop ha
  rw [List.length_drop]
  omega

/-- What is read off a string is read off its front, if that is long
enough. -/
theorem of_append {n : Nat} {read : Bytes → Option (α × Bytes)} (h : Takes n read)
    {front rest behind : Bytes} {a : α} (hn : n ≤ front.length)
    (ha : read (front ++ rest) = some (a, behind)) : read front = some (a, front.drop n) := by
  obtain ⟨b, hb⟩ := h.some_of_le front hn
  have hlong := h.steady hb rest
  rw [ha] at hlong
  cases hlong
  exact hb

theorem pure (a : α) : Takes 0 fun bs => (Pure.pure (a, bs) : Option (α × Bytes)) where
  some_of_le := fun _ _ => ⟨a, rfl⟩
  none_of_lt := fun _ h => absurd h (Nat.not_lt_zero _)
  steady := .pure a

/-- A reader that goes on with another takes as much as both. -/
theorem bind {m n : Nat} {read : Bytes → Option (α × Bytes)} {next : α × Bytes → Option (β × Bytes)}
    (first : Takes m read) (second : ∀ a, Takes n fun bs => next (a, bs)) :
    Takes (m + n) fun bs => read bs >>= next where
  some_of_le bs h := by
    obtain ⟨a, ha⟩ := first.some_of_le bs (by omega)
    obtain ⟨b, hb⟩ := (second a).some_of_le (bs.drop m) (by rw [List.length_drop]; omega)
    refine ⟨b, ?_⟩
    show (read bs).bind next = _
    rw [ha, Option.bind_some, hb, List.drop_drop]
  none_of_lt bs h := by
    show (read bs).bind next = none
    by_cases hm : m ≤ bs.length
    · obtain ⟨a, ha⟩ := first.some_of_le bs hm
      rw [ha, Option.bind_some]
      exact (second a).none_of_lt _ (by rw [List.length_drop]; omega)
    · rw [first.none_of_lt bs (Nat.lt_of_not_le hm), Option.bind_none]
  steady := first.steady.bind fun a => (second a).steady

/-- Interpreting what was read does not take more. -/
theorem map {n : Nat} {read : Bytes → Option (α × Bytes)} (h : Takes n read) (f : α → β) :
    Takes n fun bs => (read bs).map fun p => (f p.1, p.2) where
  some_of_le bs hn := by
    obtain ⟨a, ha⟩ := h.some_of_le bs hn
    exact ⟨f a, by rw [ha, Option.map_some]⟩
  none_of_lt bs hn := by rw [h.none_of_lt bs hn, Option.map_none]
  steady := h.steady.map f

end Takes

/-! ## Fields -/

theorem exists_cons₂ {bs : Bytes} (h : 2 ≤ bs.length) : ∃ a b rest, bs = a :: b :: rest := by
  rcases bs with _ | ⟨a, _ | ⟨b, rest⟩⟩
  · simp at h
  · simp at h
  · exact ⟨a, b, rest, rfl⟩

theorem exists_cons₄ {bs : Bytes} (h : 4 ≤ bs.length) :
    ∃ a b c d rest, bs = a :: b :: c :: d :: rest := by
  obtain ⟨a, b, rest, rfl⟩ := exists_cons₂ (Nat.le_trans (by decide : 2 ≤ 4) h)
  have hrest : 2 ≤ rest.length := by simpa using h
  obtain ⟨c, d, rest, rfl⟩ := exists_cons₂ hrest
  exact ⟨a, b, c, d, rest, rfl⟩

theorem length_lt_two {bs : Bytes} (h : ∀ a b rest, bs ≠ a :: b :: rest) : bs.length < 2 := by
  refine Nat.lt_of_not_le fun hn => ?_
  obtain ⟨a, b, rest, hbs⟩ := exists_cons₂ hn
  exact h a b rest hbs

theorem length_lt_four {bs : Bytes} (h : ∀ a b c d rest, bs ≠ a :: b :: c :: d :: rest) :
    bs.length < 4 := by
  refine Nat.lt_of_not_le fun hn => ?_
  obtain ⟨a, b, c, d, rest, hbs⟩ := exists_cons₄ hn
  exact h a b c d rest hbs

theorem u8?_takes : Takes 1 u8? where
  some_of_le bs h := by
    cases bs with
    | nil => exact absurd h (Nat.not_succ_le_zero 0)
    | cons b rest => exact ⟨b, rfl⟩
  none_of_lt bs h := by
    rw [List.eq_nil_of_length_eq_zero (Nat.lt_one_iff.mp h)]
    rfl
  steady _ _ _ h more := by
    rw [u8?_eq_some] at h ⊢
    rw [h, List.cons_append]

theorem split?_takes (n : Nat) : Takes n fun bs => bs.split? n where
  some_of_le bs h := ⟨bs.take n, by simp [split?, h]⟩
  none_of_lt bs h := by
    rw [split?, List.length_take, if_neg (by omega)]
  steady _ _ _ h more := by
    rw [split?_eq_some] at h ⊢
    rw [h.1, List.append_assoc]
    exact ⟨rfl, h.2⟩

theorem split?_append {bs front rest : Bytes} {n : Nat} (h : bs.split? n = some (front, rest))
    (more : Bytes) : (bs ++ more).split? n = some (front, rest ++ more) :=
  (split?_takes n).steady h more

/-- No octet is left behind `n` of them. -/
theorem length_le_of_split? {bs : Bytes} {n : Nat}
    (h : ∀ front b behind, bs.split? n ≠ some (front, b :: behind)) : bs.length ≤ n := by
  refine Nat.le_of_not_lt fun hn => ?_
  obtain ⟨front, hfront⟩ := (split?_takes n).some_of_le bs (Nat.le_of_lt hn)
  rw [List.drop_eq_getElem_cons hn] at hfront
  exact h _ _ _ hfront

theorem uint?_takes (w : Nat) : Takes w fun bs => bs.uint? w := (split?_takes w).map beNat

theorem u16?_takes : Takes 2 u16? := (uint?_takes 2).map UInt16.ofNat

theorem u24?_takes : Takes 3 u24? := (uint?_takes 3).map UInt32.ofNat

theorem u32?_takes : Takes 4 u32? := (uint?_takes 4).map UInt32.ofNat

theorem u64?_takes : Takes 8 u64? := (uint?_takes 8).map UInt64.ofNat

/-- A field that is there only sometimes takes its octets only then. -/
theorem optional?_takes {n : Nat} {read : Bytes → Option (α × Bytes)} (h : Takes n read)
    (present : Bool) : Takes (if present then n else 0) (optional? present read) := by
  cases present with
  | true => exact h.map some
  | false => exact .pure none

end Bytes

open Bytes (Takes optional?_takes u8?_takes u16?_takes u24?_takes u32?_takes u64?_takes)

theorem Octets.take?_takes (n : Nat) : Takes n (Octets.take? n) where
  some_of_le bs h := ⟨⟨bs.take n, by rw [List.length_take]; omega⟩, by simp [take?, h]⟩
  none_of_lt bs h := by
    rw [take?, dif_neg (by rw [List.length_take]; omega)]
  steady _ _ _ h more := by
    rw [take?_eq_some] at h ⊢
    rw [h, List.append_assoc]

/-! ## Headers -/

theorem EthernetHeader.takes : Takes size read? := by
  show Takes (6 + (6 + (2 + 0))) read?
  exact (Octets.take?_takes 6).bind fun _ => (Octets.take?_takes 6).bind fun _ =>
    u16?_takes.bind fun _ => .pure _

theorem ArpHeader.takes : Takes size read? := by
  show Takes (2 + (2 + (1 + (1 + (2 + (6 + (4 + (6 + (4 + 0))))))))) read?
  exact u16?_takes.bind fun _ => u16?_takes.bind fun _ => u8?_takes.bind fun _ =>
    u8?_takes.bind fun _ => u16?_takes.bind fun _ => (Octets.take?_takes 6).bind fun _ =>
      (Octets.take?_takes 4).bind fun _ => (Octets.take?_takes 6).bind fun _ =>
        (Octets.take?_takes 4).bind fun _ => .pure _

theorem Ipv6Header.takes : Takes size read? := by
  show Takes (4 + (2 + (1 + (1 + (16 + (16 + 0)))))) read?
  exact u32?_takes.bind fun _ => u16?_takes.bind fun _ => u8?_takes.bind fun _ =>
    u8?_takes.bind fun _ => (Octets.take?_takes 16).bind fun _ =>
      (Octets.take?_takes 16).bind fun _ => .pure _

theorem FragmentHeader.takes : Takes size read? := by
  show Takes (1 + (1 + (2 + (4 + 0)))) read?
  exact u8?_takes.bind fun _ => u8?_takes.bind fun _ => u16?_takes.bind fun _ =>
    u32?_takes.bind fun _ => .pure _

theorem Icmpv6Header.takes : Takes size read? := by
  show Takes (1 + (1 + (2 + 0))) read?
  exact u8?_takes.bind fun _ => u8?_takes.bind fun _ => u16?_takes.bind fun _ => .pure _

theorem EchoHeader.takes : Takes size read? := by
  show Takes (2 + (2 + 0)) read?
  exact u16?_takes.bind fun _ => u16?_takes.bind fun _ => .pure _

theorem SolicitationHeader.takes : Takes neighborFixedSize fixed? := by
  show Takes (4 + (16 + 0)) fixed?
  exact u32?_takes.bind fun _ => (Octets.take?_takes 16).bind fun _ => .pure _

theorem UdpHeader.takes : Takes size read? := by
  show Takes (2 + (2 + (2 + (2 + 0)))) read?
  exact u16?_takes.bind fun _ => u16?_takes.bind fun _ => u16?_takes.bind fun _ =>
    u16?_takes.bind fun _ => .pure _

/-- The extent of a datagram covers its header and stays inside the
window. -/
theorem UdpHeader.extent_mem (h : UdpHeader) {available : Nat} (hsize : size ≤ available) :
    size ≤ h.extent available ∧ h.extent available ≤ available := by
  rw [extent]
  split <;> omega

theorem SctpHeader.takes : Takes size fixed? := by
  show Takes (2 + (2 + (4 + (4 + 0)))) fixed?
  exact u16?_takes.bind fun _ => u16?_takes.bind fun _ => u32?_takes.bind fun _ =>
    u32?_takes.bind fun _ => .pure _

theorem GtpHeader.takes : Takes size mandatory? := by
  show Takes (1 + (1 + (2 + (4 + 0)))) mandatory?
  exact u8?_takes.bind fun _ => u8?_takes.bind fun _ => u16?_takes.bind fun _ =>
    u32?_takes.bind fun _ => .pure _

/-- The flags of a message say how many octets its optional part takes. -/
theorem GtpHeader.optional?_takes (h : GtpHeader) :
    Takes (if h.hasOptional then optionalSize else 0) h.optional? := by
  cases hopt : h.hasOptional with
  | false =>
    have heq : h.optional? = fun bs => some (h, bs) := by
      funext bs
      rw [optional?, if_neg (by rw [hopt]; decide)]
    rw [heq]
    exact .pure h
  | true =>
    rw [show h.optional? = _ from funext fun bs => if_pos hopt]
    show Takes (2 + (1 + (1 + 0))) _
    exact u16?_takes.bind fun _ => u8?_takes.bind fun _ => u8?_takes.bind fun _ => .pure _

/-- **The flags of session information** say how many octets its fields take. -/
theorem DownlinkInfo.fields?_takes (b₀ b₁ : UInt32) :
    Takes (lengthFor b₀ b₁ - 2) (fields? b₀ b₁) := by
  have htakes : Takes (_ + (_ + (_ + (_ + 0)))) (fields? b₀ b₁) :=
    (optional?_takes u8?_takes _).bind fun _ => (optional?_takes u64?_takes _).bind fun _ =>
      (optional?_takes u24?_takes _).bind fun _ => (optional?_takes u32?_takes _).bind fun _ =>
        .pure _
  rw [lengthFor]
  simpa only [Nat.add_assoc, Nat.add_sub_cancel_left, Nat.add_zero] using htakes

theorem UplinkTimes.read?_takes : Takes 24 read? := by
  show Takes (8 + (8 + (8 + 0))) read?
  exact u64?_takes.bind fun _ => u64?_takes.bind fun _ => u64?_takes.bind fun _ => .pure _

theorem UplinkInfo.fields?_takes (b₀ b₁ : UInt32) :
    Takes (lengthFor b₀ b₁ - 2) (fields? b₀ b₁) := by
  have htakes : Takes (_ + (_ + (_ + (_ + (_ + (_ + 0)))))) (fields? b₀ b₁) :=
    (optional?_takes UplinkTimes.read?_takes _).bind fun _ =>
      (optional?_takes u32?_takes _).bind fun _ => (optional?_takes u32?_takes _).bind fun _ =>
        (optional?_takes u24?_takes _).bind fun _ => (optional?_takes u32?_takes _).bind fun _ =>
          (optional?_takes u8?_takes _).bind fun _ => .pure _
  rw [lengthFor]
  simpa only [Nat.add_assoc, Nat.add_sub_cancel_left, Nat.add_zero] using htakes

theorem RoutingData.addresses?_takes (n : Nat) : Takes (16 * n) (addresses? n) := by
  induction n with
  | zero => exact .pure []
  | succ n ih =>
    have htakes : Takes (16 + (16 * n + 0)) (addresses? (n + 1)) :=
      (Octets.take?_takes 16).bind fun _ => ih.bind fun _ => .pure _
    rw [show 16 * (n + 1) = 16 + (16 * n + 0) by omega]
    exact htakes

theorem RoutingData.type0?_takes (n : Nat) : Takes (4 + 16 * n) (type0? n) := by
  show Takes (4 + (16 * n + 0)) (type0? n)
  exact u32?_takes.bind fun _ => (addresses?_takes n).bind fun _ => .pure _

/-- A routing header has room for half as many addresses as its length
says. -/
theorem RoutingHeader.exists_route (hdrExtLen : UInt8) {data : Bytes}
    (hdata : data.length = extensionExtent hdrExtLen - 4) :
    ∃ route, RoutingData.type0? (hdrExtLen.toNat / 2) data = some route := by
  have hroom : 4 + 16 * (hdrExtLen.toNat / 2) ≤ data.length := by
    rw [hdata, extensionExtent]
    omega
  obtain ⟨route, hroute⟩ := (RoutingData.type0?_takes _).some_of_le data hroom
  exact ⟨_, hroute⟩

end PacketCodec
