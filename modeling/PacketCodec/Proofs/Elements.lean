import PacketCodec.Elements
import PacketCodec.Proofs.Bytes

/-!
# Lists of elements are written back as they were read

When every element is written as the octets that it was read from, so is a
list of them, and what the list leaves of its region is the region less
the sizes of the elements (`Window.flatMap_elements`).

The induction is over the octets of the region, along the recursion of the
reader. Octets that are still to be passed over belong to an element that
was read before; the statement is about those behind them.
-/

namespace PacketCodec

variable {α : Type}

/-- **An element decoder is exact**: an element is written as the octets
that it was read from, as many as its size says and at least one. -/
structure ExactElement (decode : Window → Except DecodeError α) (size : α → Nat)
    (write : α → Bytes) : Prop where
  /-- What was read is written back. -/
  exact : ∀ {offset : Nat} {b : UInt8} {rest : Bytes} {e : α},
    decode ⟨offset, b :: rest⟩ = .ok e → ∃ behind, b :: rest = write e ++ behind
  /-- The size is that of what is written. -/
  length_write : ∀ e, (write e).length = size e
  /-- No element is empty. -/
  size_pos : ∀ e, 0 < size e

/-- **A decoder is exact for a type**: elements whose first octet is that
type are written as the octets that they were read from. -/
def ExactFor (t : UInt8) (decode : Window → Except DecodeError α) (write : α → Bytes) : Prop :=
  ∀ {offset : Nat} {rest : Bytes} {e : α},
    decode ⟨offset, t :: rest⟩ = .ok e → ∃ behind, t :: rest = write e ++ behind

theorem length_flatMap_eq_totalSize {size : α → Nat} {write : α → Bytes}
    (length_write : ∀ e, (write e).length = size e) (es : List α) :
    (es.flatMap write).length = totalSize size es := by
  induction es with
  | nil => rfl
  | cons e es ih =>
    rw [List.flatMap_cons, List.length_append, length_write, ih]
    rfl

/-- The `n - 1` octets behind the first one of an element of `n` octets
are passed over. -/
theorem drop_pred_of_pos {n : Nat} (h : 0 < n) (b : UInt8) (rest : Bytes) :
    rest.drop (n - 1) = (b :: rest).drop n := by
  obtain ⟨m, rfl⟩ := Nat.exists_eq_succ_of_ne_zero h.ne'
  rfl

variable {decode : Window → Except DecodeError α} {size : α → Nat} {write : α → Bytes}

/-- The elements of a region are written as the octets at its front. -/
theorem elementsFrom_exact (h : ExactElement decode size write) (skip offset : Nat) (bs : Bytes) :
    ∃ rest, bs.drop skip
      = (elementsFrom decode size skip offset bs).1.flatMap write ++ rest := by
  fun_induction elementsFrom decode size skip offset bs with
  | case1 => exact ⟨[], by simp⟩
  | case2 skip offset b rest ih => exact ih
  | case3 offset b rest e he => exact ⟨b :: rest, rfl⟩
  | case4 offset b rest e he more ih =>
    obtain ⟨behind, hw⟩ := h.exact he
    obtain ⟨last, hlast⟩ := ih
    -- What is passed over is the rest of `e`.
    have hdrop : rest.drop (size e - 1) = behind := by
      rw [drop_pred_of_pos (h.size_pos e), hw, ← h.length_write, List.drop_left]
    refine ⟨last, ?_⟩
    rw [List.drop_zero, hw, List.flatMap_cons, List.append_assoc, ← hlast, hdrop]

/-- **A list of elements is written back as it was read**, in front of
what it leaves of its region. -/
theorem Window.flatMap_elements (h : ExactElement decode size write) (w : Window) :
    (w.elements decode size).1.flatMap write
      ++ w.bytes.drop (totalSize size (w.elements decode size).1) = w.bytes := by
  obtain ⟨rest, hrest⟩ := elementsFrom_exact h 0 w.offset w.bytes
  have hrest : w.bytes = (w.elements decode size).1.flatMap write ++ rest := hrest
  rw [← length_flatMap_eq_totalSize h.length_write]
  generalize (w.elements decode size).1 = es at hrest ⊢
  rw [hrest, List.drop_left]

end PacketCodec
