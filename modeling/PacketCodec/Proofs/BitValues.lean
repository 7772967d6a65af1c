import PacketCodec.Proofs.GtpChain
import PacketCodec.Proofs.Options

/-!
# Values with fewer bits than an octet or a word

Some values in options and extension headers have fewer bits on the wire
than in memory: the six reserved bits of a prefix, the six bits of a flow
identifier, and the three octets of a sequence number and of a long PDU
number. A `BitValue` says where the bits of such a value are in the octets
of its element, and what the value is.

When an element is written the low bits of its values are, and the others
are dropped: every value is *cut* (`BitValue.CutIn`), and comes out as it
was exactly if it fits. So an element is written as the element with its
values cut beforehand, `NdpOption.narrowed` and `GtpExtension.narrowed`.
-/

namespace PacketCodec

/-! ## Cutting -/

theorem Bytes.be_mod (w n : Nat) : be w (n % 256 ^ w) = be w n := by
  rw [← be_mul_add w (n / 256 ^ w) (n % 256 ^ w), Nat.div_add_mod']

theorem Bytes.be24_mod (v : UInt32) : be24 (v % 0x1000000) = be24 v := by
  rw [be24, UInt32.toNat_mod]
  exact be_mod 3 v.toNat

theorem Bytes.beNat_be24_mod (v : UInt32) : beNat (be24 v) % 2 ^ 24 = v.toNat % 2 ^ 24 := by
  rw [be24, ← be_mod, beNat_be (Nat.mod_lt _ (by decide)), show 256 ^ 3 = 2 ^ 24 by decide,
    Nat.mod_mod]

/-- What is put into a field depends on the low bits of the value. -/
theorem BitField.put_congr {f : BitField} (acc : UInt32) {v w : UInt32}
    (h : v.toNat % 2 ^ f.width = w.toNat % 2 ^ f.width) : f.put acc v = f.put acc w := by
  have hbits : v &&& f.max = w &&& f.max :=
    UInt32.toNat_inj.mp (by rw [toNat_and_max, toNat_and_max, h])
  rw [put, put, hbits]

theorem BitField.put_mod_sixBits {f : BitField} (six : f.width = 6) (acc : UInt32) (v : UInt8) :
    f.put acc (v % 64).toUInt32 = f.put acc v.toUInt32 :=
  put_congr acc (by
    rw [six, UInt8.toNat_toUInt32, UInt8.toNat_toUInt32, UInt8.toNat_mod]
    exact Nat.mod_mod _ _)

/-- The low bits of a value that is put into the lowest field of an octet
are those of the octet. -/
theorem BitField.beNat_octet_put {f : BitField} (lowest : f.shift = 0) (narrow : f.width ≤ 8)
    {acc : UInt32} (empty : f.get acc = 0) (v : UInt8) :
    Bytes.beNat [(f.put acc v.toUInt32).toUInt8] % 2 ^ f.width = v.toNat % 2 ^ f.width := by
  have hget := congrArg UInt32.toNat (f.get_put acc v.toUInt32)
  rw [empty, UInt32.zero_or, toNat_get, toNat_and_max, lowest, pow_zero, Nat.div_one,
    UInt8.toNat_toUInt32] at hget
  rw [Bytes.beNat_cons, List.length_nil, pow_zero, Nat.mul_one, show Bytes.beNat [] = 0 from rfl,
    Nat.add_zero, UInt32.toNat_toUInt8, Nat.mod_mod_of_dvd _ (pow_dvd_pow 2 narrow), hget]

/-! ## Values and their bits -/

/-- **A value in an element**, and the bits there are for it: the last
`width` bits of so many `octets`. -/
structure BitValue where
  /-- Number of octets of the element in front of these. -/
  front : Nat
  /-- Number of octets that the bits are at the end of. -/
  octets : Nat
  /-- Number of bits. -/
  width : Nat
  /-- The value that was set. -/
  value : Nat

namespace BitValue

/-- The value that the octets of an element have in its place. -/
def written (f : BitValue) (bs : Bytes) : Nat :=
  Bytes.beNat ((bs.drop f.front).take f.octets) % 2 ^ f.width

/-- The value in an element that has `n` octets more in front. -/
def behind (n : Nat) (f : BitValue) : BitValue := { f with front := n + f.front }

/-- The low bits of the value are in its place. -/
def CutIn (f : BitValue) (bs : Bytes) : Prop := f.written bs = f.value % 2 ^ f.width

/-- The value has no more bits than there are for it. -/
def Fits (f : BitValue) : Prop := f.value < 2 ^ f.width

variable {f : BitValue}

/-- A value that is cut is kept if and only if it fits. -/
theorem CutIn.written_eq_iff {bs : Bytes} (h : f.CutIn bs) : f.written bs = f.value ↔ f.Fits := by
  rw [show f.written bs = f.value % 2 ^ f.width from h]
  exact Nat.mod_eq_iff_lt (Nat.two_pow_pos _).ne'

theorem fits_sixBits (front : Nat) (v : UInt8) :
    (⟨front, 1, 6, (v % 64).toNat⟩ : BitValue).Fits := by
  show (v % 64).toNat < 2 ^ 6
  rw [UInt8.toNat_mod]
  exact Nat.mod_lt _ (by decide)

theorem fits_threeOctets (front : Nat) (v : UInt32) :
    (⟨front, 3, 24, (v % 0x1000000).toNat⟩ : BitValue).Fits := by
  show (v % 0x1000000).toNat < 2 ^ 24
  rw [UInt32.toNat_mod]
  exact Nat.mod_lt _ (by decide)

theorem cutIn_append (before body after : Bytes) (hbefore : before.length = f.front)
    (hbody : body.length = f.octets)
    (h : Bytes.beNat body % 2 ^ f.width = f.value % 2 ^ f.width) :
    f.CutIn (before ++ (body ++ after)) := by
  rw [CutIn, written, List.drop_left' hbefore, List.take_left' hbody, h]

theorem cutIn_behind (before : Bytes) {bs : Bytes} {n : Nat} (hbefore : before.length = n)
    (h : f.CutIn bs) : (f.behind n).CutIn (before ++ bs) := by
  have hdrop : (before ++ bs).drop (n + f.front) = bs.drop f.front := by
    rw [← List.drop_drop, List.drop_left' hbefore]
  rw [CutIn, written, behind, hdrop]
  exact h

end BitValue

/-! ## Options -/

/-- The information with its values cut. -/
def PrefixInfo.narrowed (i : PrefixInfo) : PrefixInfo := { i with reserved1 := i.reserved1 % 64 }

theorem PrefixInfo.toBytes_narrowed (i : PrefixInfo) : i.narrowed.toBytes = i.toBytes := by
  have hflags : i.narrowed.flags = i.flags := BitField.put_mod_sixBits rfl _ i.reserved1
  rw [toBytes, hflags]
  rfl

namespace NdpOption

/-- The values of the option that have fewer bits than an octet. -/
def bitValues : NdpOption → List BitValue
  | prefixInfo i => [⟨3, 1, 6, i.reserved1.toNat⟩]
  | _ => []

/-- The option with its values cut. -/
def narrowed : NdpOption → NdpOption
  | prefixInfo i => prefixInfo i.narrowed
  | o => o

theorem length_narrowed (o : NdpOption) : o.narrowed.length = o.length := by
  cases o <;> rfl

theorem toBytes_narrowed (o : NdpOption) : o.narrowed.toBytes = o.toBytes := by
  cases o with
  | prefixInfo i => exact congrArg (fun bs => _ :: _ :: bs) i.toBytes_narrowed
  | _ => rfl

theorem fits_narrowed (o : NdpOption) : ∀ f ∈ o.narrowed.bitValues, f.Fits := by
  cases o with
  | prefixInfo i => exact List.forall_mem_singleton.mpr (BitValue.fits_sixBits 3 i.reserved1)
  | _ => exact fun f hf => absurd hf List.not_mem_nil

theorem cutIn_toBytes (o : NdpOption) : ∀ f ∈ o.bitValues, f.CutIn o.toBytes := by
  cases o with
  | prefixInfo i =>
    have hflags : Bytes.beNat [i.flags.toUInt8] % 2 ^ 6 = i.reserved1.toNat % 2 ^ 6 :=
      PrefixInfo.reservedBits.beNat_octet_put rfl (by decide)
        (by simp (disch := decide)) i.reserved1
    exact List.forall_mem_singleton.mpr
      (BitValue.cutIn_append [_, _, _] [_] _ rfl rfl hflags)
  | _ => exact fun f hf => absurd hf List.not_mem_nil

end NdpOption

/-! ## PDU session information -/

/-- The flow identifier is in the second octet. -/
theorem cutIn_qfi {acc : UInt32} (empty : qfiBits.get acc = 0) (qfi first : UInt8) (body : Bytes) :
    BitValue.CutIn ⟨1, 1, 6, qfi.toNat⟩
      (first :: (qfiBits.put acc qfi.toUInt32).toUInt8 :: body) :=
  BitValue.cutIn_append [first] [_] body rfl rfl
    (qfiBits.beNat_octet_put rfl (by decide) empty qfi)

/-- A number is in its three octets, if it is there. -/
theorem cutIn_sequenceNumber {before : Bytes} {n : Nat} (hbefore : before.length = n)
    (o : Option UInt32) (after : Bytes) :
    ∀ f ∈ o.toList.map fun v => (⟨n, 3, 24, v.toNat⟩ : BitValue),
      f.CutIn (before ++ (presentBytes Bytes.be24 o ++ after)) := by
  cases o with
  | none => exact fun f hf => absurd hf List.not_mem_nil
  | some v =>
    exact List.forall_mem_singleton.mpr
      (BitValue.cutIn_append before (Bytes.be24 v) after hbefore rfl (Bytes.beNat_be24_mod v))

theorem fits_sequenceNumber (front : Nat) (o : Option UInt32) :
    ∀ f ∈ (o.map (· % 0x1000000)).toList.map fun v => (⟨front, 3, 24, v.toNat⟩ : BitValue),
      f.Fits := by
  cases o with
  | none => exact fun f hf => absurd hf List.not_mem_nil
  | some v => exact List.forall_mem_singleton.mpr (BitValue.fits_threeOctets front v)

theorem presentBytes_mod (o : Option UInt32) :
    presentBytes Bytes.be24 (o.map (· % 0x1000000)) = presentBytes Bytes.be24 o := by
  cases o with
  | none => rfl
  | some v => exact Bytes.be24_mod v

namespace DownlinkInfo

/-- The values of the information that have fewer bits than they could. -/
def bitValues (i : DownlinkInfo) : List BitValue :=
  ⟨1, 1, 6, i.qfi.toNat⟩
    :: i.sequenceNumber.toList.map fun v =>
        ⟨2 + presentSize 1 i.ppi + presentSize 8 i.sendingTime, 3, 24, v.toNat⟩

/-- The information with its values cut. -/
def narrowed (i : DownlinkInfo) : DownlinkInfo :=
  { i with qfi := i.qfi % 64, sequenceNumber := i.sequenceNumber.map (· % 0x1000000) }

theorem toBytes_narrowed (i : DownlinkInfo) : i.narrowed.toBytes = i.toBytes := by
  have hfirst : i.narrowed.octet₀ = i.octet₀ := by
    simp only [octet₀, narrowed, Option.isSome_map]
  have hsecond : i.narrowed.octet₁ = i.octet₁ := BitField.put_mod_sixBits rfl _ i.qfi
  rw [toBytes, hfirst, hsecond]
  simp only [narrowed, presentBytes_mod, toBytes]

theorem fits_narrowed (i : DownlinkInfo) : ∀ f ∈ i.narrowed.bitValues, f.Fits :=
  List.forall_mem_cons.mpr ⟨BitValue.fits_sixBits 1 i.qfi, fits_sequenceNumber _ i.sequenceNumber⟩

theorem cutIn_toBytes (i : DownlinkInfo) (after : Bytes) :
    ∀ f ∈ i.bitValues, f.CutIn (i.toBytes ++ after) := by
  refine List.forall_mem_cons.mpr ⟨?_, ?_⟩
  · have hempty : qfiBits.get (rqiBit.putFlag (ppiBit.putFlag 0 i.ppi.isSome) i.rqi) = 0 := by
      simp (disch := decide)
    simp only [toBytes, List.append_assoc, List.cons_append, List.nil_append]
    exact cutIn_qfi hempty i.qfi _ _
  · have hbefore : ([i.octet₀.toUInt8, i.octet₁.toUInt8] ++ presentBytes (fun v => [v]) i.ppi
          ++ presentBytes Bytes.be64 i.sendingTime).length
        = 2 + presentSize 1 i.ppi + presentSize 8 i.sendingTime := by
      simp only [List.length_append, length_presentBytes (fun v : UInt8 => List.length_singleton),
        length_presentBytes Bytes.length_be64]
      rfl
    rw [toBytes, List.append_assoc, List.append_assoc]
    exact cutIn_sequenceNumber hbefore i.sequenceNumber _

end DownlinkInfo

namespace UplinkInfo

/-- The values of the information that have fewer bits than they could. -/
def bitValues (i : UplinkInfo) : List BitValue :=
  ⟨1, 1, 6, i.qfi.toNat⟩
    :: i.sequenceNumber.toList.map fun v =>
        ⟨2 + presentSize 24 i.times + presentSize 4 i.downlinkDelay
          + presentSize 4 i.uplinkDelay, 3, 24, v.toNat⟩

/-- The information with its values cut. -/
def narrowed (i : UplinkInfo) : UplinkInfo :=
  { i with qfi := i.qfi % 64, sequenceNumber := i.sequenceNumber.map (· % 0x1000000) }

theorem toBytes_narrowed (i : UplinkInfo) : i.narrowed.toBytes = i.toBytes := by
  have hfirst : i.narrowed.octet₀ = i.octet₀ := by
    simp only [octet₀, narrowed, Option.isSome_map]
  have hsecond : i.narrowed.octet₁ = i.octet₁ := BitField.put_mod_sixBits rfl _ i.qfi
  rw [toBytes, hfirst, hsecond]
  simp only [narrowed, presentBytes_mod, toBytes]

theorem fits_narrowed (i : UplinkInfo) : ∀ f ∈ i.narrowed.bitValues, f.Fits :=
  List.forall_mem_cons.mpr ⟨BitValue.fits_sixBits 1 i.qfi, fits_sequenceNumber _ i.sequenceNumber⟩

theorem cutIn_toBytes (i : UplinkInfo) (after : Bytes) :
    ∀ f ∈ i.bitValues, f.CutIn (i.toBytes ++ after) := by
  refine List.forall_mem_cons.mpr ⟨?_, ?_⟩
  · have hempty : qfiBits.get (newFlagsBit.putFlag (nodeDelayBit.putFlag 0 i.nodeDelay.isSome)
        i.newFlags.isSome) = 0 := by
      simp (disch := decide)
    simp only [toBytes, List.append_assoc, List.cons_append, List.nil_append]
    exact cutIn_qfi hempty i.qfi _ _
  · have hbefore : ([i.octet₀.toUInt8, i.octet₁.toUInt8] ++ presentBytes UplinkTimes.toBytes i.times
          ++ presentBytes Bytes.be32 i.downlinkDelay
          ++ presentBytes Bytes.be32 i.uplinkDelay).length
        = 2 + presentSize 24 i.times + presentSize 4 i.downlinkDelay
          + presentSize 4 i.uplinkDelay := by
      simp only [List.length_append, length_presentBytes UplinkTimes.length_toBytes,
        length_presentBytes Bytes.length_be32]
      rfl
    rw [toBytes, List.append_assoc, List.append_assoc, List.append_assoc]
    exact cutIn_sequenceNumber hbefore i.sequenceNumber _

end UplinkInfo

namespace SessionInfo

/-- The values of the information that have fewer bits than they could. -/
def bitValues : SessionInfo → List BitValue
  | downlink i => i.bitValues
  | uplink i => i.bitValues

/-- The information with its values cut. -/
def narrowed : SessionInfo → SessionInfo
  | downlink i => downlink i.narrowed
  | uplink i => uplink i.narrowed

theorem toBytes_narrowed (i : SessionInfo) : i.narrowed.toBytes = i.toBytes := by
  cases i with
  | downlink i => exact i.toBytes_narrowed
  | uplink i => exact i.toBytes_narrowed

theorem length_narrowed (i : SessionInfo) : i.narrowed.length = i.length := by
  rw [← length_toBytes, toBytes_narrowed, length_toBytes]

theorem fits_narrowed (i : SessionInfo) : ∀ f ∈ i.narrowed.bitValues, f.Fits := by
  cases i with
  | downlink i => exact i.fits_narrowed
  | uplink i => exact i.fits_narrowed

theorem cutIn_toBytes (i : SessionInfo) (after : Bytes) :
    ∀ f ∈ i.bitValues, f.CutIn (i.toBytes ++ after) := by
  cases i with
  | downlink i => exact i.cutIn_toBytes after
  | uplink i => exact i.cutIn_toBytes after

end SessionInfo

/-! ## Extension headers -/

namespace GtpExtension

/-- The values of the extension header that have fewer bits than they
could. -/
def bitValues : GtpExtension → List BitValue
  | longPduNumber _ number _ => [⟨1, 3, 24, number.toNat⟩]
  | pduSessionContainer info _ => info.bitValues.map (.behind 1)
  | _ => []

/-- The extension header with its values cut. -/
def narrowed : GtpExtension → GtpExtension
  | longPduNumber t number spare => longPduNumber t (number % 0x1000000) spare
  | pduSessionContainer info padding => pduSessionContainer info.narrowed padding
  | e => e

theorem extensionType_narrowed (e : GtpExtension) : e.narrowed.extensionType = e.extensionType := by
  cases e <;> rfl

theorem length_narrowed (e : GtpExtension) : e.narrowed.length = e.length := by
  cases e with
  | pduSessionContainer info padding =>
    exact congrArg (fun n => n + padding.length + 2) info.length_narrowed
  | _ => rfl

theorem toBytes_narrowed (next : GtpExtensionType) (e : GtpExtension) :
    e.narrowed.toBytes next = e.toBytes next := by
  have hcontent : e.narrowed.content = e.content := by
    cases e with
    | longPduNumber t number spare => exact congrArg (· ++ spare.bytes) (Bytes.be24_mod number)
    | pduSessionContainer info padding => exact congrArg (· ++ padding) info.toBytes_narrowed
    | _ => rfl
  rw [toBytes, toBytes, e.length_narrowed, hcontent]

theorem fits_narrowed (e : GtpExtension) : ∀ f ∈ e.narrowed.bitValues, f.Fits := by
  cases e with
  | longPduNumber t number spare =>
    exact List.forall_mem_singleton.mpr (BitValue.fits_threeOctets 1 number)
  | pduSessionContainer info padding =>
    intro f hf
    obtain ⟨g, hg, rfl⟩ := List.mem_map.mp hf
    exact info.fits_narrowed g hg
  | _ => exact fun f hf => absurd hf List.not_mem_nil

theorem cutIn_toBytes (next : GtpExtensionType) (e : GtpExtension) :
    ∀ f ∈ e.bitValues, f.CutIn (e.toBytes next) := by
  cases e with
  | longPduNumber t number spare =>
    rw [toBytes, content, List.cons_append, List.append_assoc]
    exact List.forall_mem_singleton.mpr (BitValue.cutIn_append [_] (Bytes.be24 number) _
      rfl rfl (Bytes.beNat_be24_mod number))
  | pduSessionContainer info padding =>
    intro f hf
    obtain ⟨g, hg, rfl⟩ := List.mem_map.mp hf
    rw [toBytes, content, List.cons_append, List.append_assoc]
    exact BitValue.cutIn_behind [_] rfl (info.cutIn_toBytes _ g hg)
  | _ => exact fun f hf => absurd hf List.not_mem_nil

end GtpExtension

end PacketCodec
