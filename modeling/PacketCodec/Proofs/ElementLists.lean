import PacketCodec.Proofs.Steps

/-!
# How far a list of elements goes

A list of elements ends for one of two reasons: its region is used up, or
an element cannot be decoded. Which of them it was can be seen from what
the list leaves of its region, and in the second case no element can be
decoded off the front of that (`Window.elements_left`). So a list is never
shorter than it has to be.

In the other direction, elements that are read back whatever follows them
(`ReadsBack`) are read back one behind the other, and what follows all of
them is read as if it stood alone (`Window.elements_flatMap`).

The reader passes over the octets of an element one by one. Proofs do not:
`Window.elements_induction` goes from one element to the next.
-/

namespace PacketCodec

variable {α : Type} {decode : Window → Except DecodeError α} {size : α → Nat} {write : α → Bytes}

namespace Window

/-! ## From one element to the next -/

theorem elements_nil (offset : Nat) :
    (⟨offset, []⟩ : Window).elements decode size = ([], false) := rfl

theorem elements_of_error {w : Window} {err : DecodeError} (hw : w.bytes ≠ [])
    (herr : decode w = .error err) : w.elements decode size = ([], true) := by
  obtain ⟨offset, bs⟩ := w
  obtain ⟨b, rest, rfl⟩ := List.exists_cons_of_ne_nil hw
  rw [elements, elementsFrom, herr]

theorem elements_of_decode (size_pos : ∀ e, 0 < size e) {w : Window} {e : α} (hw : w.bytes ≠ [])
    (he : decode w = .ok e) :
    w.elements decode size
      = (e :: ((w.after (size e)).elements decode size).1,
          ((w.after (size e)).elements decode size).2) :=
  elementsFrom_of_decode size_pos hw he

/-- **Induction along a list of elements**: at the end of the region, where
an element cannot be decoded, and from what is behind an element to the
element. -/
theorem elements_induction (size_pos : ∀ e, 0 < size e)
    {motive : Window → List α × Bool → Prop}
    (nil : ∀ offset, motive ⟨offset, []⟩ ([], false))
    (error : ∀ w err, w.bytes ≠ [] → decode w = .error err → motive w ([], true))
    (cons : ∀ w e behind, w.bytes ≠ [] → decode w = .ok e →
      behind = (w.after (size e)).elements decode size → motive (w.after (size e)) behind →
      motive w (e :: behind.1, behind.2))
    (w : Window) : motive w (w.elements decode size) := by
  obtain ⟨offset, bs⟩ := w
  -- On the number of octets; an element takes at least one of them.
  induction hn : bs.length using Nat.strong_induction_on generalizing offset bs with
  | _ n ih =>
    by_cases hbs : bs = []
    · rw [hbs]
      exact nil offset
    · cases he : decode ⟨offset, bs⟩ with
      | error err =>
        rw [elements_of_error hbs he]
        exact error _ err hbs he
      | ok e =>
        rw [elements_of_decode size_pos hbs he]
        have hpos := size_pos e
        have hlen := List.length_pos_iff.mpr hbs
        have hlt : (bs.drop (size e)).length < n := by
          rw [List.length_drop]
          omega
        exact cons _ e _ hbs he rfl (ih _ hlt _ _ rfl)

/-! ## Where a list ends -/

/-- **A list is cut short exactly where octets of its region are left**,
and then no element is at the front of these. -/
theorem elements_left (size_pos : ∀ e, 0 < size e) {w : Window} {es : List α} {cut : Bool}
    (h : w.elements decode size = (es, cut)) :
    let left := w.after (totalSize size es)
    (cut = true ↔ left.bytes ≠ []) ∧ (left.bytes ≠ [] → ∃ err, decode left = .error err) := by
  obtain rfl : (w.elements decode size).1 = es := congrArg Prod.fst h
  obtain rfl : (w.elements decode size).2 = cut := congrArg Prod.snd h
  refine elements_induction (motive := fun w r =>
    (r.2 = true ↔ (w.after (totalSize size r.1)).bytes ≠ [])
      ∧ ((w.after (totalSize size r.1)).bytes ≠ [] →
        ∃ err, decode (w.after (totalSize size r.1)) = .error err)) size_pos ?_ ?_ ?_ w
  · intro offset
    simp [after]
  · intro w err hw herr
    exact ⟨iff_of_true rfl hw, fun _ => ⟨err, herr⟩⟩
  · intro w e behind _ _ _ ih
    have hafter : w.after (totalSize size (e :: behind.1))
        = (w.after (size e)).after (totalSize size behind.1) := by
      rw [after, after, after, List.drop_drop, Nat.add_assoc]
      rfl
    rw [hafter]
    exact ih

end Window

/-! ## Reading back -/

/-- **Read back**, whatever follows: the element is decoded off the front
of what is written for it. -/
def ReadsBack (decode : Window → Except DecodeError α) (write : α → Bytes) (e : α) : Prop :=
  ∀ offset behind, decode ⟨offset, write e ++ behind⟩ = .ok e

/-- **Elements that are read back are read one behind the other**, and then
what follows them. -/
theorem Window.elements_flatMap (h : ExactElement decode size write) {es : List α}
    (hes : ∀ e ∈ es, ReadsBack decode write e) (offset : Nat) (behind : Bytes) :
    (⟨offset, es.flatMap write ++ behind⟩ : Window).elements decode size
      = let rest := (⟨offset + totalSize size es, behind⟩ : Window).elements decode size
        (es ++ rest.1, rest.2) := by
  induction es generalizing offset with
  | nil => rfl
  | cons e es ih =>
    obtain ⟨he, hes⟩ := List.forall_mem_cons.mp hes
    have hne : write e ++ (es.flatMap write ++ behind) ≠ [] := by
      rw [Ne, List.append_eq_nil_iff, ← List.length_eq_zero_iff, h.length_write]
      exact fun hnil => (h.size_pos e).ne' hnil.1
    rw [List.flatMap_cons, List.append_assoc, elements_of_decode h.size_pos hne (he offset _),
      after, List.drop_left' (h.length_write e), ih hes, Nat.add_assoc]
    rfl

/-- Elements that are read back, with nothing behind them. -/
theorem Window.elements_of_readsBack (h : ExactElement decode size write) {es : List α}
    (hes : ∀ e ∈ es, ReadsBack decode write e) (offset : Nat) :
    (⟨offset, es.flatMap write⟩ : Window).elements decode size = (es, false) := by
  have hread := elements_flatMap h hes offset []
  rw [List.append_nil, elements_nil] at hread
  rw [hread]
  exact congrArg (·, false) (List.append_nil es)

end PacketCodec
