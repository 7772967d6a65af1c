import Mathlib.Data.Nat.PSub
import PacketCodec.Bytes.Field
import PacketCodec.Proofs.Elements
import PacketCodec.Proofs.Extent
import PacketCodec.Proofs.GtpChain

/-!
# Reading a window step by step

The readers of this library take octets off the front of what is left and
keep the rest, so that they cannot look at a place where there is nothing:
a `take` that reaches too far is cut, a subtraction stops at zero. `Steps`
is for saying that this never matters. A computation in it goes through a
window by position, as one over a buffer does, and each of its steps has
to be possible: a position that is read lies inside the window, a number
is subtracted from one that is not smaller, and a loop moves on. A step
that is not possible leaves nothing.

The lists of elements and the chains of extension headers are the two
loops of the library. Read in steps, both come to what they are defined to
be (`Window.elementSteps_eq`, `chainSteps_eq`), whatever their elements
are decoded with.
-/

namespace PacketCodec

/-- **What the steps of a decoder come to**: a value, a decoding error, or
nothing when one of them is not possible. -/
abbrev Steps := ExceptT DecodeError Option

namespace Steps

variable {α β : Type}

@[simp] theorem some_bind (a : α) (f : α → Steps β) : (liftM (some a) >>= f) = f a := rfl

@[simp] theorem ok_bind (a : α) (f : α → Steps β) :
    (liftM (Except.ok a : Except DecodeError α) >>= f) = f a := rfl

/-- **An access that has to lie inside its window.** One that does not is a
step that is not possible, whatever error it gives. -/
def inside (x : Except DecodeError α) : Steps α := liftM x.toOption

@[simp] theorem inside_ok_bind (a : α) (f : α → Steps β) : (inside (.ok a) >>= f) = f a := rfl

@[simp] theorem run_liftM (x : Except DecodeError α) : (liftM x : Steps α).run = some x := rfl

end Steps

/-! ## Steps on a window -/

theorem Bytes.field_of_le {bs : Bytes} {start n : Nat} (h : start + n ≤ bs.length) :
    field bs start n = .ok (bs.clamp start n) := by
  rw [field, if_pos h]

namespace Window

/-- The octet at a position inside the window. -/
def octet? (w : Window) (position : Nat) : Option UInt8 :=
  (Bytes.u8At w.bytes position).toOption

/-- The `length` octets from a position on, which have to lie inside the
window. -/
def part? (w : Window) (start length : Nat) : Option Window :=
  (Bytes.field w.bytes start length).toOption.map fun bs => ⟨w.offset + start, bs⟩

/-- Everything from a position on, which may be the end of the window but
not lie behind it. -/
def from? (w : Window) (start : Nat) : Option Window := do
  w.part? start (← w.length.psub start)

theorem octet?_eq (w : Window) (position : Nat) : w.octet? position = w.bytes[position]? := by
  rw [octet?, Bytes.u8At]
  by_cases h : position + 1 ≤ w.bytes.length
  · rw [Bytes.field_of_le h, Bytes.clamp, List.getElem?_eq_getElem h, List.drop_eq_getElem_cons h,
      List.take_succ_cons, List.take_zero]
    simp [Except.map, Except.toOption, Bytes.beNat]
  · rw [Bytes.field, if_neg h, List.getElem?_eq_none (by omega)]
    rfl

theorem part?_of_le {w : Window} {start n : Nat} (h : start + n ≤ w.length) :
    w.part? start n = some ⟨w.offset + start, w.bytes.clamp start n⟩ := by
  rw [part?, Bytes.field_of_le h]
  rfl

theorem from?_of_le {w : Window} {start : Nat} (h : start ≤ w.length) :
    w.from? start = some (w.after start) := by
  rw [from?, Nat.psub_eq_sub h]
  show w.part? start (w.length - start) = _
  rw [part?_of_le (by omega), after, Bytes.clamp, List.take_of_length_le]
  rw [List.length_drop, length]

/-- The rest of a part of a window is a part of it too. -/
theorem after_clamp (w : Window) (start length n : Nat) :
    (⟨w.offset + start, w.bytes.clamp start length⟩ : Window).after n
      = ⟨w.offset + (start + n), w.bytes.clamp (start + n) (start + length - (start + n))⟩ := by
  rw [after, Bytes.clamp, Bytes.clamp, List.drop_take, List.drop_drop, Nat.add_assoc,
    Nat.add_sub_add_left]

end Window

/-! ## Lists of elements -/

section Elements

variable {α : Type}

/-- The elements of a region from a position on. The position moves on by
the size of an element, which must not be zero. -/
def Window.elementSteps (w : Window) (decode : Window → Steps α) (size : α → Nat)
    (position : Nat) : Option (List α × Bool) :=
  if position < w.length then do
    let rest ← w.from? position
    match ← (decode rest).run with
    | .error _ => some ([], true)
    | .ok e =>
      if 0 < size e then do
        let (es, cut) ← w.elementSteps decode size (position + size e)
        some (e :: es, cut)
      else none
  else some ([], false)
termination_by w.length - position

variable {decode : Window → Except DecodeError α} {size : α → Nat}

/-- Octets to be passed over may be dropped in front. -/
theorem elementsFrom_skip (skip offset : Nat) (bs : Bytes) :
    elementsFrom decode size skip offset bs
      = elementsFrom decode size 0 (offset + skip) (bs.drop skip) := by
  induction skip generalizing offset bs with
  | zero => rfl
  | succ skip ih =>
    cases bs with
    | nil => simp [elementsFrom]
    | cons b rest =>
      rw [elementsFrom, ih, List.drop_succ_cons, Nat.add_assoc, Nat.add_comm 1]

/-- One element further. -/
theorem elementsFrom_of_decode (size_pos : ∀ e, 0 < size e) {offset : Nat} {bs : Bytes} {e : α}
    (hbs : bs ≠ []) (he : decode ⟨offset, bs⟩ = .ok e) :
    elementsFrom decode size 0 offset bs
      = (e :: (elementsFrom decode size 0 (offset + size e) (bs.drop (size e))).1,
          (elementsFrom decode size 0 (offset + size e) (bs.drop (size e))).2) := by
  obtain ⟨b, rest, rfl⟩ := List.exists_cons_of_ne_nil hbs
  have hsize : 1 + (size e - 1) = size e := by
    have := size_pos e
    omega
  rw [elementsFrom, he]
  dsimp only
  rw [elementsFrom_skip, drop_pred_of_pos (size_pos e), Nat.add_assoc, hsize]

/-- The elements of a region from a position on. -/
def Window.elementsAt (w : Window) (decode : Window → Except DecodeError α) (size : α → Nat)
    (position : Nat) : List α × Bool :=
  elementsFrom decode size 0 (w.offset + position) (w.bytes.drop position)

namespace Window

variable {w : Window} {position : Nat}

theorem elementsAt_of_le (h : w.length ≤ position) :
    w.elementsAt decode size position = ([], false) := by
  rw [elementsAt, List.drop_eq_nil_of_le h, elementsFrom]

theorem elementsAt_of_error (h : position < w.length) {e : DecodeError}
    (he : decode (w.after position) = .error e) :
    w.elementsAt decode size position = ([], true) := by
  rw [after, List.drop_eq_getElem_cons h] at he
  rw [elementsAt, List.drop_eq_getElem_cons h, elementsFrom, he]

theorem elementsAt_of_ok (size_pos : ∀ e, 0 < size e) (h : position < w.length) {e : α}
    (he : decode (w.after position) = .ok e) :
    w.elementsAt decode size position
      = (e :: (w.elementsAt decode size (position + size e)).1,
          (w.elementsAt decode size (position + size e)).2) := by
  have hne : w.bytes.drop position ≠ [] := List.ne_nil_of_length_pos (by
    rw [List.length_drop]
    exact Nat.sub_pos_of_lt h)
  rw [elementsAt, elementsFrom_of_decode size_pos hne he, List.drop_drop, Nat.add_assoc]
  rfl

/-- **A list of elements is read in steps**, from any position of its
region, when its elements are. -/
theorem elementSteps_eq {steps : Window → Steps α} (hsteps : ∀ w, steps w = liftM (decode w))
    (size_pos : ∀ e, 0 < size e) (w : Window) (position : Nat) :
    w.elementSteps steps size position = some (w.elementsAt decode size position) := by
  -- On the steps of the loop; each moves on, since no element has the size zero.
  fun_induction w.elementSteps steps size position with
  | case1 position hlt ih =>
    rw [from?_of_le hlt.le]
    simp only [Option.bind_eq_bind, Option.bind_some, hsteps, Steps.run_liftM]
    cases he : decode (w.after position) with
    | error e => rw [elementsAt_of_error hlt he]
    | ok e =>
      dsimp only
      rw [if_pos (size_pos e), ih e (size_pos e), elementsAt_of_ok size_pos hlt he,
        Option.bind_some]
  | case2 position hle => rw [elementsAt_of_le (Nat.not_lt.mp hle)]

end Window

theorem Window.elementSteps_zero {steps : Window → Steps α}
    (hsteps : ∀ w, steps w = liftM (decode w)) (size_pos : ∀ e, 0 < size e) (w : Window) :
    w.elementSteps steps size 0 = some (w.elements decode size) :=
  w.elementSteps_eq hsteps size_pos 0

end Elements

/-! ## Chains of extension headers -/

/-- The chain of extension headers of a region from a position on, the
first of them of the type `next`. The last octet of an extension header is
the type of the one behind it; if it is not inside the region, the chain
ends. -/
def chainSteps (decode : GtpExtensionType → Window → Except DecodeError GtpExtension)
    (w : Window) (next : GtpExtensionType) (position : Nat) : Option GtpChain :=
  if next = GtpExtensionType.noMore then some ⟨[], next, false⟩
  else do
    match decode next (← w.from? position) with
    | .error _ => some ⟨[], next, true⟩
    | .ok e =>
      if 0 < position + e.length then
        if position + e.length - 1 < w.length then do
          let following ← w.octet? (position + e.length - 1)
          let more ← chainSteps decode w following (position + e.length)
          some { more with extensions := e.withType next :: more.extensions }
        else some ⟨[], next, true⟩
      else none
termination_by w.length - position
decreasing_by
  have hlength : e.length = e.contentLength + 2 := rfl
  omega

section Chain

variable {decode : GtpExtensionType → Window → Except DecodeError GtpExtension}

theorem chainFrom_skip (next : GtpExtensionType) (skip offset : Nat) (bs : Bytes) :
    chainFrom decode next skip offset bs
      = chainFrom decode next 0 (offset + skip) (bs.drop skip) := by
  induction skip generalizing offset bs with
  | zero => rfl
  | succ skip ih =>
    cases bs with
    | nil => simp [chainFrom]
    | cons b rest =>
      rw [chainFrom, ih, List.drop_succ_cons, Nat.add_assoc, Nat.add_comm 1]

theorem chainFrom_noMore (offset : Nat) (bs : Bytes) :
    chainFrom decode GtpExtensionType.noMore 0 offset bs
      = ⟨[], GtpExtensionType.noMore, false⟩ := by
  cases bs <;> rfl

/-- A chain does not go on where nothing can be read. -/
theorem chainFrom_cut {next : GtpExtensionType} (hnext : next ≠ GtpExtensionType.noMore)
    {offset : Nat} {bs : Bytes}
    (h : ∀ e, decode next ⟨offset, bs⟩ = .ok e → bs.length ≤ e.length - 1) :
    chainFrom decode next 0 offset bs = ⟨[], next, true⟩ := by
  cases bs with
  | nil => rw [chainFrom, bne_iff_ne.mpr hnext]
  | cons b rest =>
    rw [chainFrom, if_neg hnext]
    cases he : decode next ⟨offset, b :: rest⟩ with
    | error e => rfl
    | ok e =>
      dsimp only
      rw [List.getElem?_eq_none (h e he)]

/-- One extension header further. -/
theorem chainFrom_of_decode {next following : GtpExtensionType}
    (hnext : next ≠ GtpExtensionType.noMore) {offset : Nat} {bs : Bytes} {e : GtpExtension}
    (he : decode next ⟨offset, bs⟩ = .ok e) (hfollowing : bs[e.length - 1]? = some following) :
    chainFrom decode next 0 offset bs
      = let below := chainFrom decode following 0 (offset + e.length) (bs.drop e.length)
        { below with extensions := e.withType next :: below.extensions } := by
  cases bs with
  | nil => cases hfollowing
  | cons b rest =>
    have hlength : 1 + (e.length - 1) = e.length := by
      have := e.length_pos
      omega
    rw [chainFrom, if_neg hnext, he]
    dsimp only
    rw [hfollowing]
    dsimp only
    rw [chainFrom_skip, drop_pred_of_pos e.length_pos, Nat.add_assoc, hlength]

/-- The chain of a region from a position on. -/
def Window.chainAt (w : Window)
    (decode : GtpExtensionType → Window → Except DecodeError GtpExtension)
    (next : GtpExtensionType) (position : Nat) : GtpChain :=
  chainFrom decode next 0 (w.offset + position) (w.bytes.drop position)

namespace Window

variable {w : Window} {next : GtpExtensionType} {position : Nat}

theorem chainAt_noMore :
    w.chainAt decode GtpExtensionType.noMore position = ⟨[], GtpExtensionType.noMore, false⟩ :=
  chainFrom_noMore _ _

/-- No extension header can be decoded, so none has to be seen to end too
late. -/
theorem chainAt_of_error (hnext : next ≠ GtpExtensionType.noMore) {e : DecodeError}
    (he : decode next (w.after position) = .error e) :
    w.chainAt decode next position = ⟨[], next, true⟩ := by
  refine chainFrom_cut hnext fun e' he' => ?_
  cases he.symm.trans he'

theorem chainAt_of_le (hnext : next ≠ GtpExtensionType.noMore) {e : GtpExtension}
    (he : decode next (w.after position) = .ok e) (hlast : w.length ≤ position + e.length - 1) :
    w.chainAt decode next position = ⟨[], next, true⟩ := by
  refine chainFrom_cut hnext fun e' he' => ?_
  cases he.symm.trans he'
  have hpos := e.length_pos
  rw [List.length_drop, ← Window.length]
  omega

theorem chainAt_of_ok (hnext : next ≠ GtpExtensionType.noMore) {e : GtpExtension}
    (he : decode next (w.after position) = .ok e) {following : GtpExtensionType}
    (hfollowing : w.bytes[position + e.length - 1]? = some following) :
    w.chainAt decode next position
      = let more := w.chainAt decode following (position + e.length)
        { more with extensions := e.withType next :: more.extensions } := by
  have hfollowing' : (w.bytes.drop position)[e.length - 1]? = some following := by
    rw [List.getElem?_drop, ← Nat.add_sub_assoc e.length_pos, hfollowing]
  rw [chainAt, chainFrom_of_decode hnext he hfollowing', List.drop_drop, Nat.add_assoc]
  rfl

end Window

/-- **A chain of extension headers is read in steps.** -/
theorem chainSteps_eq (w : Window) (next : GtpExtensionType) {position : Nat}
    (hposition : position ≤ w.length) :
    chainSteps decode w next position = some (w.chainAt decode next position) := by
  fun_induction chainSteps decode w next position with
  | case1 position => rw [Window.chainAt_noMore]
  | case2 next position hnext ih =>
    rw [Window.from?_of_le hposition]
    simp only [Option.bind_eq_bind, Option.bind_some]
    cases he : decode next (w.after position) with
    | error e => rw [Window.chainAt_of_error hnext he]
    | ok e =>
      have hpos := e.length_pos
      have hend : 0 < position + e.length := by omega
      dsimp only
      rw [if_pos hend]
      split
      · next hlast =>
        obtain ⟨following, hfollowing⟩ : ∃ b, w.bytes[position + e.length - 1]? = some b :=
          ⟨_, List.getElem?_eq_getElem hlast⟩
        rw [Window.octet?_eq, hfollowing, Option.bind_some, ih e hend hlast following (by omega),
          Option.bind_some, Window.chainAt_of_ok hnext he hfollowing]
      · next hlast => rw [Window.chainAt_of_le hnext he (Nat.le_of_not_lt hlast)]

/-- A chain lies inside its region. -/
theorem totalSize_chainFrom_le (next : GtpExtensionType) (skip offset : Nat) (bs : Bytes)
    (h : skip ≤ bs.length) :
    skip + totalSize GtpExtension.length (chainFrom decode next skip offset bs).extensions
      ≤ bs.length := by
  fun_induction chainFrom decode next skip offset bs with
  | case1 => exact h
  | case2 next skip offset b rest ih =>
    have := ih (Nat.le_of_succ_le_succ h)
    rw [List.length_cons]
    omega
  | case3 => exact h
  | case4 => exact h
  | case5 => exact h
  | case6 next offset b rest hnext e he following hfollowing more ih =>
    obtain ⟨hlast, -⟩ := List.getElem?_eq_some_iff.mp hfollowing
    rw [List.length_cons] at hlast ⊢
    have hmore : e.length - 1 + totalSize GtpExtension.length more.extensions ≤ rest.length :=
      ih (Nat.le_of_lt_succ hlast)
    have hpos := e.length_pos
    show 0 + ((e.withType next).length + totalSize GtpExtension.length more.extensions) ≤ _
    rw [GtpExtension.length_withType]
    omega

end Chain

end PacketCodec
