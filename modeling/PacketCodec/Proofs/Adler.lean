import PacketCodec.Checksum.Adler
import PacketCodec.Proofs.SumOverflow

/-!
# Adler-32 with its reductions put off

By definition both sums of Adler-32 are reduced after every octet
(`Checksum.adlerNext`). The check puts the reductions off to the end of a
run, and adds 32-bit words in between. That is right because a reduction
can be moved past an addition, and because the sums of a run stay below
2³². The second part is close: from reduced sums, a run of `n` octets
brings the second sum to at most

  `65520 · (n + 1) + 255 · n · (n + 1) / 2`,

which 5552 octets keep below 2³² and 5553 do not. So the length of a run is
the greatest one that is safe whatever the octets are and whatever the runs
before have left (`Checksum.adler32_reduced`).

As for the sums of segments, additions are checked: one that would wrap
around has no result.
-/

namespace PacketCodec.Checksum

/-- **Both sums behind one octet more**, each of them reduced. -/
def adlerNext (s : Nat × Nat) (x : UInt8) : Nat × Nat :=
  let a := (s.1 + x.toNat) % 65521
  (a, (s.2 + a) % 65521)

/-- Both sums reduced. -/
def reduced (s : Nat × Nat) : Nat × Nat := (s.1 % 65521, s.2 % 65521)

/-- The sums behind a run, without a reduction. -/
def runSums (a b : Nat) : Bytes → Nat × Nat
  | [] => (a, b)
  | x :: rest => runSums (a + x.toNat) (b + (a + x.toNat)) rest

/-- Adds a run to both sums, with every addition checked. -/
def addRun? (a b : UInt32) : Bytes → Option (UInt32 × UInt32)
  | [] => some (a, b)
  | x :: rest => do
    let a ← add32? a x.toUInt32
    addRun? a (← add32? b a) rest

/-- Adds the runs of a string, and reduces both sums behind each of them. -/
def addRuns? (a b : UInt32) (bs : Bytes) : Option (UInt32 × UInt32) :=
  if bs = [] then some (a, b)
  else do
    let (a, b) ← addRun? a b (bs.take adlerRun)
    addRuns? (a % adlerModulus) (b % adlerModulus) (bs.drop adlerRun)
termination_by bs.length
decreasing_by
  rename_i hbs
  have hpos := List.length_pos_iff.mpr hbs
  rw [List.length_drop]
  simp only [adlerRun] at *
  omega

/-- **Adler-32** with every addition checked. -/
def adler32? (bs : Bytes) : Option UInt32 := do
  let (a, b) ← addRuns? 1 0 bs
  return (b <<< 16) ||| a

/-! ## Reductions put off -/

theorem toNat_mod_adlerModulus (a : UInt32) : (a % adlerModulus).toNat = a.toNat % 65521 :=
  UInt32.toNat_mod a adlerModulus

theorem toNat_mod_adlerModulus_lt (a : UInt32) : (a % adlerModulus).toNat < 65521 := by
  rw [toNat_mod_adlerModulus]
  exact Nat.mod_lt _ (by decide)

/-- A sum that is reduced already. -/
theorem mod_adlerModulus_of_lt {a : UInt32} (h : a.toNat < 65521) : a % adlerModulus = a := by
  apply UInt32.toNat_inj.mp
  rw [toNat_mod_adlerModulus, Nat.mod_eq_of_lt h]

/-- **A reduction can be moved past an octet.** -/
theorem reduced_next (a b : Nat) (x : UInt8) :
    reduced (a + x.toNat, b + (a + x.toNat)) = adlerNext (reduced (a, b)) x := by
  show ((a + x.toNat) % 65521, (b + (a + x.toNat)) % 65521)
    = ((a % 65521 + x.toNat) % 65521, (b % 65521 + (a % 65521 + x.toNat) % 65521) % 65521)
  rw [Nat.mod_add_mod, ← Nat.add_mod]

/-- **Sums that are reduced behind a run** are those that are reduced
behind every octet. -/
theorem reduced_runSums (a b : Nat) (run : Bytes) :
    reduced (runSums a b run) = run.foldl adlerNext (reduced (a, b)) := by
  induction run generalizing a b with
  | nil => rfl
  | cons x run ih => rw [runSums, ih, reduced_next, List.foldl_cons]

/-! ## The sums of a run -/

theorem le_snd_runSums (a b : Nat) (run : Bytes) : b ≤ (runSums a b run).2 := by
  induction run generalizing a b with
  | nil => exact Nat.le_refl b
  | cons x run ih => exact Nat.le_trans (Nat.le_add_right b _) (ih _ _)

/-- **How far a run can bring the second sum.** Both sides are doubled. -/
theorem snd_runSums_le (a b : Nat) (run : Bytes) :
    2 * (runSums a b run).2 ≤ 2 * (b + run.length * a) + 255 * (run.length * (run.length + 1)) := by
  induction run generalizing a b with
  | nil => simp [runSums]
  | cons x run ih =>
    have hx : (run.length + 1) * x.toNat ≤ (run.length + 1) * 255 :=
      Nat.mul_le_mul_left _ (Nat.le_of_lt_succ x.toNat_lt)
    have hrest := ih (a + x.toNat) (b + (a + x.toNat))
    rw [runSums, List.length_cons]
    linarith only [hx, hrest]

/-- A run of the greatest octet brings it as far as that. -/
theorem snd_runSums_replicate (a b n : Nat) :
    2 * (runSums a b (List.replicate n 255)).2 = 2 * (b + n * a) + 255 * (n * (n + 1)) := by
  induction n generalizing a b with
  | zero => simp [runSums]
  | succ n ih =>
    rw [List.replicate_succ, runSums, ih, show (255 : UInt8).toNat = 255 from rfl]
    ring

/-- From reduced sums, a run that is not too long keeps the second sum
below 2³². -/
theorem snd_runSums_lt {a b : Nat} {run : Bytes} (ha : a < 65521) (hb : b < 65521)
    (hrun : run.length ≤ adlerRun) : (runSums a b run).2 < UInt32.size := by
  have hle := snd_runSums_le a b run
  have hfirst : run.length * a ≤ 5552 * 65520 := Nat.mul_le_mul hrun (Nat.le_of_lt_succ ha)
  have hsquare : run.length * (run.length + 1) ≤ 5552 * 5553 :=
    Nat.mul_le_mul hrun (Nat.succ_le_succ hrun)
  rw [UInt32.size]
  omega

/-! ## Checked runs -/

theorem addRun?_cons (a b : UInt32) (x : UInt8) (run : Bytes) :
    addRun? a b (x :: run)
      = (add32? a x.toUInt32).bind fun a => (add32? b a).bind fun b => addRun? a b run := rfl

/-- **The result of a checked run** is its sums. -/
theorem runSums_of_addRun? {a b : UInt32} {run : Bytes} {s : UInt32 × UInt32}
    (h : addRun? a b run = some s) :
    runSums a.toNat b.toNat run = (s.1.toNat, s.2.toNat) := by
  induction run generalizing a b with
  | nil =>
    cases h
    rfl
  | cons x run ih =>
    rw [addRun?_cons] at h
    obtain ⟨a', ha', h⟩ := Option.bind_eq_some_iff.mp h
    obtain ⟨b', hb', h⟩ := Option.bind_eq_some_iff.mp h
    rw [runSums, ← UInt8.toNat_toUInt32, ← toNat_of_add32? ha', ← toNat_of_add32? hb', ih h]

/-- **A run overflows exactly when its second sum does**: no sum on the way
is greater. -/
theorem exists_addRun?_iff {a b : UInt32} {run : Bytes} :
    (∃ s, addRun? a b run = some s) ↔ (runSums a.toNat b.toNat run).2 < UInt32.size := by
  constructor
  · rintro ⟨s, hs⟩
    rw [runSums_of_addRun? hs]
    exact s.2.toNat_lt
  · intro h
    induction run generalizing a b with
    | nil => exact ⟨(a, b), rfl⟩
    | cons x run ih =>
      rw [runSums, ← UInt8.toNat_toUInt32] at h
      have hgrows := le_snd_runSums (a.toNat + x.toUInt32.toNat)
        (b.toNat + (a.toNat + x.toUInt32.toNat)) run
      obtain ⟨a', ha', hsum⟩ := add32?_spec (show a.toNat + x.toUInt32.toNat < UInt32.size by omega)
      rw [← hsum] at h hgrows
      obtain ⟨b', hb', hsum'⟩ := add32?_spec (show b.toNat + a'.toNat < UInt32.size by omega)
      rw [← hsum'] at h
      obtain ⟨s, hs⟩ := ih h
      refine ⟨s, ?_⟩
      rw [addRun?_cons, ha', Option.bind_some, hb', Option.bind_some, hs]

/-- **The length of a run is the greatest that is safe.** -/
theorem forall_exists_addRun?_iff (n : Nat) :
    (∀ (a b : UInt32) (run : Bytes), a.toNat < 65521 → b.toNat < 65521 → run.length ≤ n →
        ∃ s, addRun? a b run = some s)
      ↔ n ≤ adlerRun := by
  constructor
  · intro h
    by_contra hlong
    -- The greatest sums that can be left over, and a run of the greatest octets.
    have hsome := h 65520 65520 (List.replicate 5553 255) (by decide) (by decide)
      (by rw [List.length_replicate]; exact Nat.not_le.mp hlong)
    have hsum := snd_runSums_replicate 65520 65520 5553
    have hfits := exists_addRun?_iff.mp hsome
    rw [show (65520 : UInt32).toNat = 65520 from rfl, UInt32.size] at hfits
    omega
  · intro hn a b run ha hb hrun
    exact exists_addRun?_iff.mpr (snd_runSums_lt ha hb (Nat.le_trans hrun hn))

/-! ## Strings -/

theorem adlerSums_nil (room : Nat) (a b : UInt32) :
    adlerSums room a b [] = (a % adlerModulus, b % adlerModulus) := by
  cases room <;> rfl

/-- **A run is complete** when there is no room left: its sums are reduced
and the next run begins. -/
theorem adlerSums_of_addRun? {room : Nat} {a b : UInt32} {bs : Bytes} {s : UInt32 × UInt32}
    (h : addRun? a b (bs.take room) = some s) :
    adlerSums room a b bs
      = adlerSums adlerRun (s.1 % adlerModulus) (s.2 % adlerModulus) (bs.drop room) := by
  induction bs generalizing room a b with
  | nil =>
    rw [List.take_nil] at h
    cases h
    -- The next run is empty, and sums that are reduced stay as they are.
    rw [List.drop_nil, adlerSums_nil, adlerSums_nil,
      mod_adlerModulus_of_lt (toNat_mod_adlerModulus_lt _),
      mod_adlerModulus_of_lt (toNat_mod_adlerModulus_lt _)]
  | cons x bs ih =>
    cases room with
    | zero =>
      cases h
      rfl
    | succ room =>
      rw [List.take_succ_cons, addRun?_cons] at h
      obtain ⟨a', ha', h⟩ := Option.bind_eq_some_iff.mp h
      obtain ⟨b', hb', h⟩ := Option.bind_eq_some_iff.mp h
      rw [List.drop_succ_cons, ← ih h, eq_add_of_add32? hb', eq_add_of_add32? ha']
      rfl

/-- **The runs of a string** do not overflow from reduced sums, and the
sums behind them are those that are reduced behind every octet. -/
theorem addRuns?_spec {a b : UInt32} {bs : Bytes} (ha : a.toNat < 65521) (hb : b.toNat < 65521) :
    addRuns? a b bs = some (adlerSums adlerRun a b bs)
      ∧ ((adlerSums adlerRun a b bs).1.toNat, (adlerSums adlerRun a b bs).2.toNat)
        = bs.foldl adlerNext (a.toNat, b.toNat) := by
  fun_induction addRuns? a b bs with
  | case1 a b =>
    rw [adlerSums_nil, mod_adlerModulus_of_lt ha, mod_adlerModulus_of_lt hb]
    exact ⟨rfl, rfl⟩
  | case2 a b bs hbs ih =>
    have hfits := snd_runSums_lt ha hb (List.length_take_le adlerRun bs)
    obtain ⟨s, hs⟩ := exists_addRun?_iff.mpr hfits
    obtain ⟨hrest, hsums⟩ := ih s.1 s.2 (toNat_mod_adlerModulus_lt _) (toNat_mod_adlerModulus_lt _)
    -- The sums that the next run begins with are those by definition.
    have hrun : ((s.1 % adlerModulus).toNat, (s.2 % adlerModulus).toNat)
        = (bs.take adlerRun).foldl adlerNext (a.toNat, b.toNat) := by
      have hreduced := reduced_runSums a.toNat b.toNat (bs.take adlerRun)
      rw [runSums_of_addRun? hs] at hreduced
      rw [toNat_mod_adlerModulus, toNat_mod_adlerModulus]
      refine hreduced.trans ?_
      rw [reduced, Nat.mod_eq_of_lt ha, Nat.mod_eq_of_lt hb]
    rw [adlerSums_of_addRun? hs, hs]
    refine ⟨hrest, ?_⟩
    rw [hsums, hrun, ← List.foldl_append, List.take_append_drop]

theorem adlerSums_lt (room : Nat) (a b : UInt32) (bs : Bytes) :
    (adlerSums room a b bs).1.toNat < 65521 ∧ (adlerSums room a b bs).2.toNat < 65521 := by
  fun_induction adlerSums room a b bs with
  | case1 => exact ⟨toNat_mod_adlerModulus_lt _, toNat_mod_adlerModulus_lt _⟩
  | case2 _ _ _ _ _ ih => exact ih
  | case3 _ _ _ _ _ _ ih => exact ih

/-- The two sums side by side in one word. -/
theorem toNat_shiftLeft_or {a b : UInt32} (ha : a.toNat < 65521) (hb : b.toNat < 65521) :
    ((b <<< 16) ||| a).toNat = b.toNat * 65536 + a.toNat := by
  have hlow : a.toNat < 2 ^ 16 := Nat.lt_trans ha (by decide)
  rw [UInt32.toNat_or, UInt32.toNat_shiftLeft, show (16 : UInt32).toNat % 32 = 16 from rfl,
    Nat.mod_eq_of_lt (by rw [Nat.shiftLeft_eq]; omega), ← Nat.shiftLeft_add_eq_or_of_lt hlow,
    Nat.shiftLeft_eq]

/-- **The word of Adler-32** holds the two sums that are reduced behind
every octet, the second one in its high half. -/
theorem toNat_adler32 (bs : Bytes) :
    (adler32 bs).toNat
      = (bs.foldl adlerNext (1, 0)).2 * 65536 + (bs.foldl adlerNext (1, 0)).1 := by
  obtain ⟨-, hsums⟩ := @addRuns?_spec 1 0 bs (by decide) (by decide)
  obtain ⟨hfirst, hsecond⟩ := adlerSums_lt adlerRun 1 0 bs
  rw [show bs.foldl adlerNext (1, 0) = _ from hsums.symm]
  exact toNat_shiftLeft_or hfirst hsecond

/-- **Adler-32 is what its definition says**: the two sums that are reduced
behind every octet, the second one in the high half of the word. No
addition on the way overflows, whatever sums the runs before have left; and
a run of more octets would not be safe. -/
theorem adler32_reduced (bs : Bytes) :
    let s := bs.foldl adlerNext (1, 0)
    (adler32 bs).toNat = s.2 * 65536 + s.1
      ∧ adler32? bs = some (adler32 bs)
      ∧ ∀ n, (∀ (a b : UInt32) (run : Bytes), a.toNat < 65521 → b.toNat < 65521 →
            run.length ≤ n → ∃ s, addRun? a b run = some s)
          ↔ n ≤ adlerRun := by
  refine ⟨toNat_adler32 bs, ?_, forall_exists_addRun?_iff⟩
  obtain ⟨hsome, -⟩ := @addRuns?_spec 1 0 bs (by decide) (by decide)
  rw [adler32?, hsome]
  rfl

end PacketCodec.Checksum
