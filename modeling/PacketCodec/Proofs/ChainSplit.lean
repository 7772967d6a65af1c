import PacketCodec.Proofs.Layer
import PacketCodec.Proofs.Steps

/-!
# How a chain splits its region

A chain of extension headers takes up the front of its region, and it can
be told from the octets alone where one extension header ends and the next
begins. `GtpChain.Splits` says what that comes to: nothing is lost or made
up in front of the place where the chain ends, and it does not end there
without a reason.

There are three ways for a chain to stop, and only one of them is that
there are no more extension headers. The next one may fail to be decoded,
also because its region is used up, or it may be decoded but the type
behind it be outside of the region. The last does not happen with decoders
that are exact: an extension header that was read has its last octet
inside the region, and that octet is the type of what follows. So along a
chain (`readChain_induction`) there is either no type to go on with or an
extension header that cannot be decoded.
-/

namespace PacketCodec

open GtpExtensionType (noMore)

/-- **A chain splits its region**, in which the extension headers start with
the type `first`. -/
structure GtpChain.Splits (decode : GtpExtensionType → Window → Except DecodeError GtpExtension)
    (first : GtpExtensionType) (region : Window) (c : GtpChain) : Prop where
  /-- The extension headers lie inside the region. -/
  inside : totalSize GtpExtension.length c.extensions ≤ region.length
  /-- The first of them goes by the type that announces it. -/
  starts : ∀ e ∈ c.extensions.head?, e.extensionType = first
  /-- If there are none, that type is where the chain ends. -/
  empty : c.extensions = [] → c.tail = first
  /-- Each written with the type of the one behind it, and the last with the
  tail, they are the octets at the front of the region. -/
  written : chainBytes c.tail c.extensions
    = region.bytes.take (totalSize GtpExtension.length c.extensions)
  /-- The chain is cut short exactly if there should be more. -/
  cut_iff : c.truncated = true ↔ c.tail ≠ noMore
  /-- Then the extension header that should follow cannot be decoded. -/
  undecodable : c.truncated = true →
    ∃ err, decode c.tail (region.after (totalSize GtpExtension.length c.extensions)) = .error err

section Exact

variable {decode : GtpExtensionType → Window → Except DecodeError GtpExtension}
  (exact : ∀ t, GtpExtension.ExactFor t (decode t))

include exact

/-- **Induction along a chain**: where there are no more extension headers,
where the next one cannot be decoded, and from what is behind an extension
header to the extension header. -/
theorem readChain_induction {motive : GtpExtensionType → Window → GtpChain → Prop}
    (nil : ∀ region, motive noMore region ⟨[], noMore, false⟩)
    (error : ∀ next region err, next ≠ noMore → decode next region = .error err →
      motive next region ⟨[], next, true⟩)
    (cons : ∀ next region e following, next ≠ noMore → decode next region = .ok e →
      region.bytes = e.toBytes following ++ (region.after e.length).bytes →
      let behind := readChain decode following (region.after e.length)
      motive following (region.after e.length) behind →
      motive next region { behind with extensions := e.withType next :: behind.extensions })
    (first : GtpExtensionType) (region : Window) :
    motive first region (readChain decode first region) := by
  -- On the octets of the region; an extension header takes at least one of them.
  induction hn : region.length using Nat.strong_induction_on generalizing first region with
  | _ n ih =>
    by_cases hfirst : first = noMore
    · rw [hfirst, readChain, chainFrom_noMore]
      exact nil region
    · cases he : decode first region with
      | error err =>
        have hcut : readChain decode first region = ⟨[], first, true⟩ :=
          chainFrom_cut hfirst fun e he' => by
            cases he.symm.trans he'
        rw [hcut]
        exact error first region err hfirst he
      | ok e =>
        obtain ⟨-, following, behind, hbytes⟩ := exact first he
        have hfollowing : region.bytes[e.length - 1]? = some following := by
          rw [hbytes, e.getElem?_toBytes]
        have hafter : (region.after e.length).bytes = behind :=
          Window.bytes_after hbytes (e.length_toBytes following)
        have hshort : (region.after e.length).length < n := by
          have hpos := e.length_pos
          rw [← hn, Window.length, Window.length, hafter, hbytes, List.length_append,
            e.length_toBytes]
          omega
        rw [readChain, chainFrom_of_decode hfirst he hfollowing]
        exact cons first region e following hfirst he (hafter.symm ▸ hbytes)
          (ih _ hshort following _ rfl)

/-- **Where a chain ends**: it is cut short exactly if there should be more,
and then the extension header that should follow cannot be decoded. -/
theorem readChain_left (first : GtpExtensionType) (region : Window) :
    let c := readChain decode first region
    (c.truncated = true ↔ c.tail ≠ noMore)
      ∧ (c.truncated = true →
        ∃ err, decode c.tail (region.after (totalSize GtpExtension.length c.extensions))
          = .error err) := by
  refine readChain_induction exact (motive := fun _ region c =>
    (c.truncated = true ↔ c.tail ≠ noMore)
      ∧ (c.truncated = true →
        ∃ err, decode c.tail (region.after (totalSize GtpExtension.length c.extensions))
          = .error err)) ?_ ?_ ?_ first region
  · exact fun _ => ⟨iff_of_false Bool.false_ne_true (fun h => h rfl), Bool.noConfusion⟩
  · exact fun _ _ err hnext herr => ⟨iff_of_true rfl hnext, fun _ => ⟨err, herr⟩⟩
  · intro next region e following _ _ _ behind ih
    have hafter : region.after (totalSize GtpExtension.length (e.withType next :: behind.extensions))
        = (region.after e.length).after (totalSize GtpExtension.length behind.extensions) := by
      rw [Window.after, Window.after, Window.after, List.drop_drop, Nat.add_assoc,
        ← e.length_withType next]
      rfl
    rw [hafter]
    exact ih

/-- What a chain of exact extension headers is read to splits the region. -/
theorem splits_readChain (first : GtpExtensionType) (region : Window) :
    (readChain decode first region).Splits decode first region := by
  obtain ⟨hannounced, hwritten⟩ := readChain_exact exact first region
  obtain ⟨hcut, hundecodable⟩ := readChain_left exact first region
  generalize readChain decode first region = c at hannounced hwritten hcut hundecodable
  refine ⟨?_, ?_, ?_, ?_, hcut, hundecodable⟩
  · rw [Window.length, ← hwritten, List.length_append, length_chainBytes]
    exact Nat.le_add_right _ _
  · intro e he
    rw [GtpChain.announced, he] at hannounced
    exact hannounced
  · intro hnil
    rw [GtpChain.announced, hnil] at hannounced
    exact hannounced
  · rw [← hwritten]
    exact (List.take_left' (length_chainBytes c.tail c.extensions)).symm

end Exact

/-- **A chain of extension headers is split exactly.** Whatever octets a
region holds and whatever type the first extension header is announced
with, reading the chain by position, step by step, comes to an end without
a step out of bounds, and what it comes to splits the region. -/
theorem splits_readChain_standard (first : GtpExtensionType) (region : Window) :
    let decode := Decoders.standard.gtpExtension
    let chain := readChain decode first region
    chainSteps decode region first 0 = some chain ∧ chain.Splits decode first region :=
  ⟨chainSteps_eq region first (Nat.zero_le _),
    splits_readChain Decoders.standard_exact.gtpExtension first region⟩

/-- A UDP port, and then an extension header whose length octet is zero. -/
example : readChain Decoders.standard.gtpExtension GtpExtensionType.udpPort
    ⟨0, [1, 0x12, 0x34, 0x77, 0, 9]⟩ = ⟨[.udpPort 0x1234], 0x77, true⟩ := by
  decide +kernel

end PacketCodec
