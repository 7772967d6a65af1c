import Mathlib.Data.List.Forall2
import PacketCodec.Address

/-!
# The text of a hardware address

The text of an address is six groups with colons between them. This
module says which texts are read, which address each of them denotes, and
that the text written for an address is among those read as it.

A group is **two digits** of base sixteen, of either case,
`MacAddr.TwoDigits`. The reader takes one kind of group more: it leaves
each group to the reader of numbers in base sixteen, and a number may
have a plus sign in front, so that a sign and one digit are two
characters as well, `MacAddr.SignedDigit`. These two kinds are all there
is (`parse?_eq_some_iff`), and a text without a plus sign is read exactly
when its groups are of the first kind.

The reader matches the characters of the text. The procedure that it
stands for cuts the text at each colon, asks whether a part takes two
bytes of UTF-8 and reads it as a number, six times over and with nothing
left: `readParts?` is this procedure, and `parse?_eq_readParts?` says that
the two agree on every text. The length in bytes and the count of
characters come apart only at characters that are no digits.
-/

namespace PacketCodec

/-! ## Digits -/

namespace Bytes

/-- `c` is the digit of `n` in base sixteen, in lower or in upper case. -/
def IsDigit (c : Char) (n : Nat) : Prop :=
  n < 16 ∧ (c = Nat.digitChar n ∨ c = (Nat.digitChar n).toUpper)

instance (c : Char) (n : Nat) : Decidable (IsDigit c n) :=
  inferInstanceAs (Decidable (_ ∧ _))

theorem toNat_lt_of_digitValue? {c : Char} {n : Nat} (h : digitValue? c = some n) :
    c.toNat < 128 := by
  have hle (d : Char) (hd : c ≤ d) : c.toNat ≤ d.toNat := hd
  unfold digitValue? at h
  split at h
  · next hc => exact Nat.lt_of_le_of_lt (hle _ hc.2) (by decide)
  · split at h
    · next hc => exact Nat.lt_of_le_of_lt (hle _ hc.2) (by decide)
    · split at h
      · next hc => exact Nat.lt_of_le_of_lt (hle _ hc.2) (by decide)
      · cases h

/-- **The digits are the sixteen of either case**, each with its value. -/
theorem digitValue?_eq_some_iff {c : Char} {n : Nat} :
    digitValue? c = some n ↔ IsDigit c n := by
  constructor
  · intro h
    have hall : ∀ k < 128, ∀ m ∈ digitValue? (Char.ofNat k), IsDigit (Char.ofNat k) m := by
      decide +kernel
    have hc := hall c.toNat (toNat_lt_of_digitValue? h) n
    rw [Char.ofNat_toNat] at hc
    exact hc h
  · rintro ⟨hn, hc⟩
    have hall : ∀ m < 16, digitValue? (Nat.digitChar m) = some m ∧
        digitValue? (Nat.digitChar m).toUpper = some m := by
      decide +kernel
    rcases hc with rfl | rfl
    · exact (hall n hn).1
    · exact (hall n hn).2

theorem isDigit_digitChar {n : Nat} (h : n < 16) : IsDigit (Nat.digitChar n) n :=
  ⟨h, .inl rfl⟩

theorem IsDigit.utf8Size {c : Char} {n : Nat} (h : IsDigit c n) : c.utf8Size = 1 := by
  obtain ⟨hn, hc⟩ := h
  have hall : ∀ m < 16, (Nat.digitChar m).utf8Size = 1 ∧
      (Nat.digitChar m).toUpper.utf8Size = 1 := by
    decide +kernel
  rcases hc with rfl | rfl
  · exact (hall n hn).1
  · exact (hall n hn).2

theorem IsDigit.ne {c x : Char} {n : Nat} (h : IsDigit c n) (hx : digitValue? x = none) :
    x ≠ c := by
  rintro rfl
  rw [digitValue?_eq_some_iff.2 h] at hx
  cases hx

end Bytes

namespace MacAddr

open Bytes

/-! ## Groups -/

/-- A group of the documented form: the two digits of `o`, each in either
case. -/
def TwoDigits (group : String) (o : UInt8) : Prop :=
  ∃ c d, group = String.ofList [c, d] ∧ IsDigit c (o.toNat / 16) ∧ IsDigit d (o.toNat % 16)

/-- A plus sign and the one digit of `o`. -/
def SignedDigit (group : String) (o : UInt8) : Prop :=
  ∃ d, group = String.ofList ['+', d] ∧ IsDigit d o.toNat

/-- The two ways in which a group can stand for an octet. -/
def Denotes (group : String) (o : UInt8) : Prop :=
  TwoDigits group o ∨ SignedDigit group o

theorem octet?_eq_some_iff {c d : Char} {o : UInt8} :
    octet? c d = some o ↔ Denotes (String.ofList [c, d]) o := by
  have hlist (x y : Char) : String.ofList [c, d] = String.ofList [x, y] ↔ c = x ∧ d = y := by
    rw [String.ofList_inj]
    simp
  simp only [Denotes, TwoDigits, SignedDigit, hlist]
  constructor
  · intro h
    simp only [octet?, Option.bind_eq_bind, Option.bind_eq_some_iff] at h
    obtain ⟨low, hlow, h⟩ := h
    have hl := digitValue?_eq_some_iff.1 hlow
    have hlt := hl.1
    split at h
    · next hc =>
      have ho : o.toNat = low := by
        rw [← Option.some.inj h, UInt8.toNat_ofNat']
        omega
      exact .inr ⟨d, ⟨hc, rfl⟩, ho ▸ hl⟩
    · obtain ⟨high, hhigh, h⟩ := Option.bind_eq_some_iff.1 h
      have hh := digitValue?_eq_some_iff.1 hhigh
      have hht := hh.1
      have ho : o.toNat = high * 16 + low := by
        rw [← Option.some.inj h, UInt8.toNat_ofNat']
        omega
      have hdiv : o.toNat / 16 = high := by omega
      have hmod : o.toNat % 16 = low := by omega
      exact .inl ⟨c, d, ⟨rfl, rfl⟩, hdiv ▸ hh, hmod ▸ hl⟩
  · rintro (⟨_, _, ⟨rfl, rfl⟩, hh, hl⟩ | ⟨_, ⟨rfl, rfl⟩, hl⟩)
    · have hc : c ≠ '+' := (hh.ne (by decide)).symm
      have ho : UInt8.ofNat (o.toNat / 16 * 16 + o.toNat % 16) = o := by
        rw [Nat.div_add_mod', UInt8.ofNat_toNat]
      rw [octet?, digitValue?_eq_some_iff.2 hh, digitValue?_eq_some_iff.2 hl]
      exact (if_neg hc).trans (congrArg some ho)
    · simp [octet?, digitValue?_eq_some_iff.2 hl]

theorem Denotes.exists_pair {group : String} {o : UInt8} (h : Denotes group o) :
    ∃ c d, group = String.ofList [c, d] ∧ octet? c d = some o := by
  have hof := h
  rcases h with ⟨c, d, rfl, -⟩ | ⟨d, rfl, -⟩
  · exact ⟨c, d, rfl, octet?_eq_some_iff.2 hof⟩
  · exact ⟨'+', d, rfl, octet?_eq_some_iff.2 hof⟩

/-! ## The whole text -/

/-- **The reader takes six groups with colons between them**, each of one
of the two kinds, and returns the octets that they stand for. -/
theorem parse?_eq_some_iff {s : String} {a : MacAddr} :
    parse? s = some a ↔
      ∃ groups : List String, s = ":".intercalate groups ∧
        List.Forall₂ Denotes groups a.bytes := by
  constructor
  · intro h
    unfold parse? at h
    split at h
    · next a' b c d e f g h' i j k l hs =>
      simp only [Option.bind_eq_bind, Option.bind_eq_some_iff, octet?_eq_some_iff] at h
      obtain ⟨o₁, h₁, o₂, h₂, o₃, h₃, o₄, h₄, o₅, h₅, o₆, h₆, h⟩ := h
      refine ⟨[.ofList [a', b], .ofList [c, d], .ofList [e, f], .ofList [g, h'],
        .ofList [i, j], .ofList [k, l]], ?_, ?_⟩
      · rw [← String.toList_inj, hs, String.toList_intercalate]
        simp [List.intercalate]
      · rw [← Option.some.inj h]
        exact .cons h₁ (.cons h₂ (.cons h₃ (.cons h₄ (.cons h₅ (.cons h₆ .nil)))))
    · cases h
  · rintro ⟨groups, rfl, hall⟩
    have hlen := hall.length_eq.trans a.length_eq
    obtain ⟨bytes, hbytes⟩ := a
    match groups, bytes, hlen, hbytes with
    | [_, _, _, _, _, _], [_, _, _, _, _, _], _, _ =>
      simp only [List.forall₂_cons, List.Forall₂.nil, and_true] at hall
      obtain ⟨h₁, h₂, h₃, h₄, h₅, h₆⟩ := hall
      obtain ⟨a, b, rfl, e₁⟩ := h₁.exists_pair
      obtain ⟨c, d, rfl, e₂⟩ := h₂.exists_pair
      obtain ⟨e, f, rfl, e₃⟩ := h₃.exists_pair
      obtain ⟨g, h, rfl, e₄⟩ := h₄.exists_pair
      obtain ⟨i, j, rfl, e₅⟩ := h₅.exists_pair
      obtain ⟨k, l, rfl, e₆⟩ := h₆.exists_pair
      have hs : (":".intercalate [.ofList [a, b], .ofList [c, d], .ofList [e, f],
          .ofList [g, h], .ofList [i, j], .ofList [k, l]]).toList =
          [a, b, ':', c, d, ':', e, f, ':', g, h, ':', i, j, ':', k, l] := by
        rw [String.toList_intercalate]
        simp [List.intercalate]
      simp only [parse?, hs, e₁, e₂, e₃, e₄, e₅, e₆]
      rfl

/-! ## The procedure by parts -/

/-- A number below 256 in base sixteen: an optional plus sign, then at
least one digit. -/
def radix16? (cs : List Char) : Option UInt8 :=
  match if cs.head? = some '+' then cs.tail else cs with
  | [] => none
  | digits =>
    (digits.foldlM (fun n c => (digitValue? c).bind fun d =>
      if n * 16 + d < 256 then some (n * 16 + d) else none) 0).map UInt8.ofNat

/-- The octet of one part of a text: a number that takes two bytes. -/
def readPart? (part : String) : Option UInt8 :=
  if part.utf8ByteSize = 2 then radix16? part.toList else none

/-- The octets of exactly `n` parts, first one first. -/
def readParts? : Nat → List String → Option Bytes
  | 0, [] => some []
  | 0, _ :: _ => none
  | _ + 1, [] => none
  | n + 1, part :: parts => do
    let o ← readPart? part
    let rest ← readParts? n parts
    return o :: rest

/-- The parts of a text between its colons. -/
def parts (s : String) : List String :=
  (s.toList.splitOn ':').map String.ofList

/-- Two digits are never too large a number, and one digit behind a sign
is not either. -/
theorem radix16?_pair {c d : Char} : radix16? [c, d] = octet? c d := by
  have hlt (x : Char) (n : Nat) (h : digitValue? x = some n) : n < 16 :=
    (digitValue?_eq_some_iff.1 h).1
  by_cases hc : c = '+'
  · cases hd : digitValue? d with
    | none => simp [radix16?, octet?, hc, hd]
    | some low =>
      have hl := hlt d low hd
      simp [radix16?, octet?, hc, hd, show low < 256 by omega]
  · cases hh : digitValue? c with
    | none => cases hd : digitValue? d <;> simp [radix16?, octet?, hc, hh, hd]
    | some high =>
      cases hd : digitValue? d with
      | none => simp [radix16?, octet?, hc, hh, hd]
      | some low =>
        have h := hlt c high hh
        have hl := hlt d low hd
        simp [radix16?, octet?, hc, hh, hd, show high < 256 by omega,
          show high * 16 + low < 256 by omega]

/-- A number of one character is a digit, which takes one byte. -/
theorem utf8Size_of_radix16? {c : Char} {o : UInt8} (h : radix16? [c] = some o) :
    c.utf8Size = 1 := by
  by_cases hc : c = '+'
  · simp [radix16?, hc] at h
  · cases hd : digitValue? c with
    | none => simp [radix16?, hc, hd] at h
    | some n => exact (digitValue?_eq_some_iff.1 hd).utf8Size

theorem Denotes.utf8ByteSize {group : String} {o : UInt8} (h : Denotes group o) :
    group.utf8ByteSize = 2 := by
  rcases h with ⟨c, d, rfl, hc, hd⟩ | ⟨d, rfl, hd⟩
  · simp [hc.utf8Size, hd.utf8Size]
  · have hplus : '+'.utf8Size = 1 := by decide
    simp only [String.ofList_cons, String.ofList_nil, String.utf8ByteSize_append,
      String.utf8ByteSize_singleton, String.utf8ByteSize_empty, hplus, hd.utf8Size]

theorem readPart?_eq_some_iff {part : String} {o : UInt8} :
    readPart? part = some o ↔ Denotes part o := by
  constructor
  · intro h
    obtain ⟨cs, rfl⟩ : ∃ cs, part = String.ofList cs := ⟨part.toList, by simp⟩
    unfold readPart? at h
    split at h
    · next hsize =>
      simp only [String.toList_ofList] at h
      match cs with
      | [] => cases hsize
      | [c] =>
        rw [String.ofList_cons, String.utf8ByteSize_append, String.utf8ByteSize_singleton,
          utf8Size_of_radix16? h] at hsize
        cases hsize
      | [c, d] => exact octet?_eq_some_iff.1 (radix16?_pair ▸ h)
      | c :: d :: e :: rest =>
        have hc := c.utf8Size_pos
        have hd := d.utf8Size_pos
        have he := e.utf8Size_pos
        simp only [String.ofList_cons, String.utf8ByteSize_append,
          String.utf8ByteSize_singleton] at hsize
        omega
    · cases h
  · intro h
    have hsize := h.utf8ByteSize
    obtain ⟨c, d, rfl, hoctet⟩ := h.exists_pair
    rw [readPart?, if_pos hsize, String.toList_ofList, radix16?_pair, hoctet]

theorem readParts?_eq_some_iff {n : Nat} {ps : List String} {os : Bytes} :
    readParts? n ps = some os ↔ os.length = n ∧ List.Forall₂ Denotes ps os := by
  induction n generalizing ps os with
  | zero =>
    cases ps with
    | nil => cases os <;> simp [readParts?]
    | cons part ps => cases os <;> simp [readParts?]
  | succ n ih =>
    cases ps with
    | nil => cases os <;> simp [readParts?]
    | cons part ps =>
      simp only [readParts?, Option.bind_eq_bind, Option.bind_eq_some_iff,
        readPart?_eq_some_iff, ih]
      constructor
      · rintro ⟨o, ho, rest, ⟨hlen, hrest⟩, h⟩
        cases h
        exact ⟨congrArg (· + 1) hlen, .cons ho hrest⟩
      · rintro ⟨hlen, hall⟩
        obtain ⟨o, rest, ho, hrest, rfl⟩ := List.forall₂_cons_left_iff.1 hall
        exact ⟨o, ho, rest, ⟨Nat.succ.inj hlen, hrest⟩, rfl⟩

theorem Denotes.colon_notMem {group : String} {o : UInt8} (h : Denotes group o) :
    ':' ∉ group.toList := by
  have hne {c : Char} {n : Nat} (hc : IsDigit c n) : ':' ≠ c := hc.ne (by decide)
  rcases h with ⟨c, d, rfl, hc, hd⟩ | ⟨d, rfl, hd⟩
  · simp [hne hc, hne hd]
  · simp [hne hd]

theorem intercalate_parts (s : String) : ":".intercalate (parts s) = s := by
  rw [← String.toList_inj, String.toList_intercalate, parts, List.map_map]
  simp [Function.comp_def, List.intercalate_splitOn]

theorem parts_intercalate {groups : List String} (hne : groups ≠ [])
    (hcolon : ∀ g ∈ groups, ':' ∉ g.toList) : parts (":".intercalate groups) = groups := by
  have hlist : ∀ g ∈ groups.map String.toList, ':' ∉ g := by
    simpa using hcolon
  rw [parts, String.toList_intercalate]
  rw [show ":".toList = [':'] from rfl, List.splitOn_intercalate ':' hlist (by simpa using hne)]
  simp [Function.comp_def]

/-- **The reader agrees with the procedure by parts** on every text. -/
theorem parse?_eq_readParts? (s : String) :
    (parse? s).map Octets.bytes = readParts? 6 (parts s) := by
  ext os
  rw [readParts?_eq_some_iff, Option.map_eq_some_iff]
  simp only [parse?_eq_some_iff]
  constructor
  · rintro ⟨a, ⟨groups, rfl, hall⟩, rfl⟩
    have hne : groups ≠ [] := by
      have hlen := hall.length_eq.trans a.length_eq
      rintro rfl
      cases hlen
    have hcolon : ∀ g ∈ groups, ':' ∉ g.toList :=
      ((List.forall₂_and_left _ _).1 (hall.imp fun _ _ h => ⟨h.colon_notMem, h⟩)).1
    rw [parts_intercalate hne hcolon]
    exact ⟨a.length_eq, hall⟩
  · rintro ⟨hlen, hall⟩
    exact ⟨⟨os, hlen⟩, ⟨parts s, (intercalate_parts s).symm, hall⟩, rfl⟩

/-! ## Texts without a sign -/

theorem mem_intercalate_colon {c : Char} (hc : c ≠ ':') {groups : List String} :
    c ∈ (":".intercalate groups).toList ↔ ∃ g ∈ groups, c ∈ g.toList := by
  induction groups with
  | nil => simp
  | cons g groups ih =>
    cases groups with
    | nil => simp
    | cons g' groups =>
      rw [String.intercalate_cons_cons, String.toList_append, String.toList_append,
        List.mem_append, List.mem_append, ih]
      simp [hc]

/-- A group stands for an octet by two digits exactly when it has no plus
sign. -/
theorem twoDigits_eq :
    TwoDigits = fun group o => '+' ∉ group.toList ∧ Denotes group o := by
  funext group o
  refine propext ⟨?_, ?_⟩
  · intro h
    refine ⟨?_, .inl h⟩
    have hne {c : Char} {n : Nat} (hc : IsDigit c n) : '+' ≠ c := hc.ne (by decide)
    obtain ⟨c, d, rfl, hc, hd⟩ := h
    simp [hne hc, hne hd]
  · rintro ⟨hplus, h | ⟨d, rfl, -⟩⟩
    · exact h
    · simp at hplus

theorem twoDigits_hex (o : UInt8) : TwoDigits (Bytes.hex [o]) o := by
  have hlt := o.toNat_lt
  exact ⟨_, _, rfl, isDigit_digitChar (by omega), isDigit_digitChar (by omega)⟩

/-- **What is read, and as which address.** A text is read as `a` exactly
when it is groups with colons between them that stand for the octets of
`a`, one each. The texts among them whose groups are two digits, the
documented form, are those without a plus sign. The text written for `a`
is one of these. -/
theorem parse_groups (a : MacAddr) :
    (∀ s, parse? s = some a ↔
      ∃ groups, s = ":".intercalate groups ∧ List.Forall₂ Denotes groups a.bytes) ∧
    (∀ s, (∃ groups, s = ":".intercalate groups ∧ List.Forall₂ TwoDigits groups a.bytes) ↔
      parse? s = some a ∧ '+' ∉ s.toList) ∧
    parse? a.text = some a := by
  have hplus : ('+' : Char) ≠ ':' := by decide
  refine ⟨fun s => parse?_eq_some_iff, fun s => ?_, ?_⟩
  · rw [parse?_eq_some_iff, twoDigits_eq]
    simp only [List.forall₂_and_left]
    constructor
    · rintro ⟨groups, rfl, hnone, hall⟩
      refine ⟨⟨groups, rfl, hall⟩, fun hmem => ?_⟩
      obtain ⟨g, hg, hin⟩ := (mem_intercalate_colon hplus).1 hmem
      exact hnone g hg hin
    · rintro ⟨⟨groups, rfl, hall⟩, hnone⟩
      exact ⟨groups, rfl, fun g hg hin => hnone ((mem_intercalate_colon hplus).2 ⟨g, hg, hin⟩),
        hall⟩
  · refine parse?_eq_some_iff.2 ⟨_, rfl, List.forall₂_map_left_iff.2 ?_⟩
    exact List.forall₂_same.2 fun o _ => .inl (twoDigits_hex o)

/-- A sign is taken where a digit is meant. -/
example : parse? "+a:00:00:00:00:00" = some ⟨[10, 0, 0, 0, 0, 0], rfl⟩ := by decide

end MacAddr

end PacketCodec
