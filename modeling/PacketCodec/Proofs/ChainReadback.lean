import PacketCodec.Decoders
import PacketCodec.Proofs.GtpChain
import PacketCodec.Proofs.Registry
import PacketCodec.Proofs.Steps

/-!
# Chains of extension headers are read as they were written

What is written for an extension header says neither where it ends nor
what it is: its type is in front of it, and its length octet counts units.
It is read back when its parts leave no doubt about the rest
(`GtpExtension.WellFormed`): values fit the bits they are given, a
container is padded up to the next unit and not further, and an extension
header without a decoder of its own fills its units and goes by no type
that has one.

For a chain it is enough that each of its extension headers is read back
under its own type, whatever follows (`GtpExtension.ReadsBack`). The type
in front of each of them and the type behind the last are then the ones
that were written, and the chain ends where it was ended
(`readChain_chainBytes`).
-/

namespace PacketCodec

/-! ## Session information -/

/-- A field that is there only sometimes is read back when its flag says
whether it is. -/
theorem Bytes.optional?_presentBytes {α : Type} {read : Bytes → Option (α × Bytes)}
    {write : α → Bytes} {o : Option α} {rest : Bytes}
    (h : ∀ a ∈ o, read (write a ++ rest) = some (a, rest)) :
    optional? o.isSome read (presentBytes write o ++ rest) = some (o, rest) := by
  cases o with
  | none => rfl
  | some a => rw [Option.isSome_some, optional?, if_pos rfl, presentBytes, h a rfl, Option.map_some]

namespace DownlinkInfo

/-- **The values fit** the bits they are given. -/
structure Encodable (i : DownlinkInfo) : Prop where
  qfi : i.qfi.toNat < 64
  sequenceNumber : ∀ n ∈ i.sequenceNumber, n.toNat < 2 ^ 24

/-- The octets behind the first two. -/
def body (i : DownlinkInfo) : Bytes :=
  presentBytes (fun v => [v]) i.ppi ++ (presentBytes Bytes.be64 i.sendingTime
    ++ (presentBytes Bytes.be24 i.sequenceNumber ++ presentBytes Bytes.be32 i.mbsSequenceNumber))

theorem toBytes_eq (i : DownlinkInfo) :
    i.toBytes = i.octet₀.toUInt8 :: i.octet₁.toUInt8 :: i.body := by
  simp only [toBytes, body, List.append_assoc, List.cons_append, List.nil_append]

/-- The direction and the flags of the first octet are read back. -/
theorem get_octet₀ (i : DownlinkInfo) :
    pduTypeBits.get i.octet₀.toUInt8.toUInt32 = pduType
      ∧ timeBit.isSet i.octet₀.toUInt8.toUInt32 = i.sendingTime.isSome
      ∧ sequenceBit.isSet i.octet₀.toUInt8.toUInt32 = i.sequenceNumber.isSome
      ∧ mbsSequenceBit.isSet i.octet₀.toUInt8.toUInt32 = i.mbsSequenceNumber.isSome
      ∧ spareBit.isSet i.octet₀.toUInt8.toUInt32 = i.spare := by
  have hfits : pduType &&& pduTypeBits.max = pduType := by decide
  simp (disch := decide) [octet₀, hfits]

/-- The flags and the identifier of the second octet are read back. -/
theorem get_octet₁ {i : DownlinkInfo} (h : i.Encodable) :
    ppiBit.isSet i.octet₁.toUInt8.toUInt32 = i.ppi.isSome
      ∧ rqiBit.isSet i.octet₁.toUInt8.toUInt32 = i.rqi
      ∧ (qfiBits.get i.octet₁.toUInt8.toUInt32).toUInt8 = i.qfi := by
  have hfits : i.qfi &&& qfiBits.max.toUInt8 = i.qfi := BitField.and_toUInt8_max _ h.qfi
  simp (disch := decide) [octet₁, hfits]

/-- **The information is read back.** -/
theorem fields?_body {i : DownlinkInfo} (h : i.Encodable) (rest : Bytes) :
    fields? i.octet₀.toUInt8.toUInt32 i.octet₁.toUInt8.toUInt32 (i.body ++ rest)
      = some (i, rest) := by
  obtain ⟨-, htime, hsequence, hmbs, hspare⟩ := i.get_octet₀
  obtain ⟨hppi, hrqi, hqfi⟩ := get_octet₁ h
  rw [fields?, htime, hsequence, hmbs, hspare, hppi, hrqi, hqfi]
  simp only [Bytes.bind_eq_some, Bytes.return_eq_some, body, List.append_assoc]
  exact ⟨_, _, Bytes.optional?_presentBytes fun _ _ => rfl,
    _, _, Bytes.optional?_presentBytes fun _ _ => Bytes.u64?_eq_some.mpr rfl,
    _, _, Bytes.optional?_presentBytes fun n hn =>
      Bytes.u24?_eq_some.mpr ⟨rfl, h.sequenceNumber n hn⟩,
    _, _, Bytes.optional?_presentBytes fun _ _ => Bytes.u32?_eq_some.mpr rfl, rfl, rfl⟩

end DownlinkInfo

theorem UplinkTimes.read?_toBytes (t : UplinkTimes) (rest : Bytes) :
    read? (t.toBytes ++ rest) = some (t, rest) := by
  simp only [read?, Bytes.bind_eq_some, Bytes.return_eq_some, Bytes.u64?_eq_some, toBytes,
    List.append_assoc]
  exact ⟨_, _, rfl, _, _, rfl, _, _, rfl, rfl, rfl⟩

namespace UplinkInfo

/-- **The values fit** the bits they are given. -/
structure Encodable (i : UplinkInfo) : Prop where
  qfi : i.qfi.toNat < 64
  sequenceNumber : ∀ n ∈ i.sequenceNumber, n.toNat < 2 ^ 24

/-- The octets behind the first two. -/
def body (i : UplinkInfo) : Bytes :=
  presentBytes UplinkTimes.toBytes i.times ++ (presentBytes Bytes.be32 i.downlinkDelay
    ++ (presentBytes Bytes.be32 i.uplinkDelay ++ (presentBytes Bytes.be24 i.sequenceNumber
      ++ (presentBytes Bytes.be32 i.nodeDelay ++ presentBytes (fun v => [v]) i.newFlags))))

theorem toBytes_eq (i : UplinkInfo) :
    i.toBytes = i.octet₀.toUInt8 :: i.octet₁.toUInt8 :: i.body := by
  simp only [toBytes, body, List.append_assoc, List.cons_append, List.nil_append]

/-- The direction and the flags of the first octet are read back. -/
theorem get_octet₀ (i : UplinkInfo) :
    pduTypeBits.get i.octet₀.toUInt8.toUInt32 = pduType
      ∧ timeBit.isSet i.octet₀.toUInt8.toUInt32 = i.times.isSome
      ∧ downlinkDelayBit.isSet i.octet₀.toUInt8.toUInt32 = i.downlinkDelay.isSome
      ∧ uplinkDelayBit.isSet i.octet₀.toUInt8.toUInt32 = i.uplinkDelay.isSome
      ∧ sequenceBit.isSet i.octet₀.toUInt8.toUInt32 = i.sequenceNumber.isSome := by
  have hfits : pduType &&& pduTypeBits.max = pduType := by decide
  simp (disch := decide) [octet₀, hfits]

/-- The flags and the identifier of the second octet are read back. -/
theorem get_octet₁ {i : UplinkInfo} (h : i.Encodable) :
    nodeDelayBit.isSet i.octet₁.toUInt8.toUInt32 = i.nodeDelay.isSome
      ∧ newFlagsBit.isSet i.octet₁.toUInt8.toUInt32 = i.newFlags.isSome
      ∧ (qfiBits.get i.octet₁.toUInt8.toUInt32).toUInt8 = i.qfi := by
  have hfits : i.qfi &&& qfiBits.max.toUInt8 = i.qfi := BitField.and_toUInt8_max _ h.qfi
  simp (disch := decide) [octet₁, hfits]

/-- **The information is read back.** -/
theorem fields?_body {i : UplinkInfo} (h : i.Encodable) (rest : Bytes) :
    fields? i.octet₀.toUInt8.toUInt32 i.octet₁.toUInt8.toUInt32 (i.body ++ rest)
      = some (i, rest) := by
  obtain ⟨-, htimes, hdownlink, huplink, hsequence⟩ := i.get_octet₀
  obtain ⟨hnode, hflags, hqfi⟩ := get_octet₁ h
  rw [fields?, htimes, hdownlink, huplink, hsequence, hnode, hflags, hqfi]
  simp only [Bytes.bind_eq_some, Bytes.return_eq_some, body, List.append_assoc]
  exact ⟨_, _, Bytes.optional?_presentBytes fun t _ => t.read?_toBytes _,
    _, _, Bytes.optional?_presentBytes fun _ _ => Bytes.u32?_eq_some.mpr rfl,
    _, _, Bytes.optional?_presentBytes fun _ _ => Bytes.u32?_eq_some.mpr rfl,
    _, _, Bytes.optional?_presentBytes fun n hn =>
      Bytes.u24?_eq_some.mpr ⟨rfl, h.sequenceNumber n hn⟩,
    _, _, Bytes.optional?_presentBytes fun _ _ => Bytes.u32?_eq_some.mpr rfl,
    _, _, Bytes.optional?_presentBytes fun _ _ => rfl, rfl, rfl⟩

end UplinkInfo

namespace SessionInfo

/-- **The values fit** the bits they are given. -/
def Encodable : SessionInfo → Prop
  | downlink i => i.Encodable
  | uplink i => i.Encodable

theorem length_le (i : SessionInfo) : i.length ≤ 42 := by
  have hpresent : ∀ {α : Type} (n : Nat) (o : Option α), presentSize n o ≤ n := fun n o => by
    cases o with
    | none => exact Nat.zero_le n
    | some a => exact Nat.le_refl n
  cases i with
  | downlink i =>
    have h₁ := hpresent 1 i.ppi
    have h₂ := hpresent 8 i.sendingTime
    have h₃ := hpresent 3 i.sequenceNumber
    have h₄ := hpresent 4 i.mbsSequenceNumber
    rw [length, DownlinkInfo.length]
    omega
  | uplink i =>
    have h₁ := hpresent 24 i.times
    have h₂ := hpresent 4 i.downlinkDelay
    have h₃ := hpresent 4 i.uplinkDelay
    have h₄ := hpresent 3 i.sequenceNumber
    have h₅ := hpresent 4 i.nodeDelay
    have h₆ := hpresent 1 i.newFlags
    rw [length, UplinkInfo.length]
    omega

/-- The length octet of a container can tell as many units as it needs. -/
theorem unitsFor_lt (i : SessionInfo) : GtpExtension.unitsFor i.length < 256 := by
  have hle := i.length_le
  rw [GtpExtension.unitsFor]
  omega

end SessionInfo

/-! ## Extension headers -/

namespace GtpExtension

/-- Session information is read back from behind a length octet. -/
theorem readSessionInfo_toBytes {i : SessionInfo} (h : i.Encodable) (offset : Nat) (units : UInt8)
    (rest : Bytes) :
    readSessionInfo ⟨offset, units :: (i.toBytes ++ rest)⟩ = .ok (i, rest) := by
  cases i with
  | downlink i =>
    have htype := i.get_octet₀.1
    rw [SessionInfo.toBytes, i.toBytes_eq, readSessionInfo]
    simp only [Window.after, List.cons_append, List.drop_succ_cons, List.drop_zero, htype,
      ne_eq, not_true_eq_false, false_and, if_false, if_true, DownlinkInfo.fields?_body h rest]
  | uplink i =>
    have htype := i.get_octet₀.1
    have hdirection : ¬ UplinkInfo.pduType = DownlinkInfo.pduType := by decide
    rw [SessionInfo.toBytes, i.toBytes_eq, readSessionInfo]
    simp only [Window.after, List.cons_append, List.drop_succ_cons, List.drop_zero, htype,
      ne_eq, not_true_eq_false, and_false, hdirection, if_false, UplinkInfo.fields?_body h rest]

/-- **An extension header whose parts leave no doubt about the rest.** -/
def WellFormed : GtpExtension → Prop
  | udpPort _ => True
  | pduNumber _ => True
  | longPduNumber t number _ =>
    (t = GtpExtensionType.longPduNumber ∨ t = GtpExtensionType.longPduNumber₂)
      ∧ number.toNat < 2 ^ 24
  | serviceClassIndicator _ _ => True
  | pduSessionContainer info padding =>
    info.Encodable ∧ padding.length = unitsFor info.length * 4 - 2 - info.length
  | unknown t content =>
    t ≠ GtpExtensionType.noMore ∧ Decoders.standard.gtpExtensions.contains t = false
      ∧ content.length % 4 = 2 ∧ content.length ≤ 1018

/-- **Read back under its own type**, whatever follows: what a decoder
returns for the extension header as it is written, and filled in with the
type, is the extension header. -/
structure ReadsBack (decode : GtpExtensionType → Window → Except DecodeError GtpExtension)
    (e : GtpExtension) : Prop where
  /-- The type does not end a chain. -/
  more : e.extensionType ≠ GtpExtensionType.noMore
  /-- It is read back wherever it is. -/
  decode : ∀ offset next behind,
    ∃ e', decode e.extensionType ⟨offset, e.toBytes next ++ behind⟩ = .ok e'
      ∧ e'.withType e.extensionType = e

theorem toBytes_of_units {e : GtpExtension} {units : Nat} (h : e.length = units * 4)
    (next : GtpExtensionType) (behind : Bytes) :
    e.toBytes next ++ behind = UInt8.ofNat units :: (e.content ++ next :: behind) := by
  rw [toBytes, h, Nat.mul_div_cancel _ (by decide), List.cons_append, List.cons_append,
    List.append_assoc, List.singleton_append]

theorem length_content_of_units {e : GtpExtension} {units : Nat} (h : e.length = units * 4) :
    e.content.length = units * 4 - 2 := by
  rw [length_content, ← h, length, Nat.add_sub_cancel]

/-- The content of an extension header of a given number of units is read
back. -/
theorem fixedContent_toBytes {e : GtpExtension} {units : Nat} (h : e.length = units * 4)
    (hlt : units < 256) (offset : Nat) (next : GtpExtensionType) (behind : Bytes) :
    fixedContent ⟨offset, e.toBytes next ++ behind⟩ units = .ok e.content := by
  have hpos := e.length_pos
  have hlength := length_content_of_units h
  have hsplit : Bytes.split? (e.content ++ next :: behind) (units * 4 - 1)
      = some (e.content ++ [next], behind) := by
    rw [Bytes.split?_eq_some, List.append_assoc, List.singleton_append, List.length_append,
      hlength, List.length_singleton]
    exact ⟨rfl, by omega⟩
  rw [toBytes_of_units h, fixedContent]
  simp only [UInt8.toNat_ofNat', Nat.mod_eq_of_lt hlt, ne_eq, not_true_eq_false, if_false, hsplit]
  rw [List.take_left' hlength]

theorem decodeWord_toBytes {make : UInt16 → GtpExtension} {value : UInt16}
    (hcontent : (make value).content = Bytes.be16 value) (offset : Nat) (next : GtpExtensionType)
    (behind : Bytes) :
    decodeWord make ⟨offset, (make value).toBytes next ++ behind⟩ = .ok (make value) := by
  have hlength : (make value).length = 1 * 4 := by
    rw [length, ← length_content, hcontent, Bytes.length_be16]
  have hword : (Bytes.be16 value).u16? = some (value, []) :=
    Bytes.u16?_eq_some.mpr (List.append_nil _).symm
  rw [decodeWord, fixedContent_toBytes hlength (by decide), hcontent]
  simp only [bind, Except.bind, hword]
  rfl

theorem decodeServiceClassIndicator_toBytes (sci spare : UInt8) (offset : Nat)
    (next : GtpExtensionType) (behind : Bytes) :
    decodeServiceClassIndicator ⟨offset, (serviceClassIndicator sci spare).toBytes next ++ behind⟩
      = .ok (serviceClassIndicator sci spare) := by
  rw [decodeServiceClassIndicator, fixedContent_toBytes rfl (by decide)]
  rfl

theorem decodeLongPduNumber_toBytes {number : UInt32} (h : number.toNat < 2 ^ 24)
    (t : GtpExtensionType) (spare : Octets 3) (offset : Nat) (next : GtpExtensionType)
    (behind : Bytes) :
    decodeLongPduNumber ⟨offset, (longPduNumber t number spare).toBytes next ++ behind⟩
      = .ok (longPduNumber GtpExtensionType.longPduNumber number spare) := by
  have hnumber : (Bytes.be24 number ++ spare.bytes).u24? = some (number, spare.bytes) :=
    Bytes.u24?_eq_some.mpr ⟨rfl, h⟩
  have hspare : Octets.take? 3 spare.bytes = some (spare, []) :=
    Octets.take?_eq_some.mpr (List.append_nil _).symm
  rw [decodeLongPduNumber, fixedContent_toBytes rfl (by decide), content]
  simp only [bind, Except.bind, Option.bind, hnumber, hspare]
  rfl

theorem decodePduSessionContainer_toBytes {info : SessionInfo} {padding : Bytes}
    (h : (pduSessionContainer info padding).WellFormed) (offset : Nat) (next : GtpExtensionType)
    (behind : Bytes) :
    decodePduSessionContainer ⟨offset, (pduSessionContainer info padding).toBytes next ++ behind⟩
      = .ok (pduSessionContainer info padding) := by
  obtain ⟨hinfo, hpadding⟩ := h
  have hunits := info.unitsFor_lt
  have hsplit : Bytes.split? (padding ++ next :: behind)
      (unitsFor info.length * 4 - 2 - info.length) = some (padding, next :: behind) :=
    Bytes.split?_eq_some.mpr ⟨rfl, hpadding⟩
  rw [toBytes_of_units (length_of_units hpadding), decodePduSessionContainer, content,
    List.append_assoc]
  simp only [readSessionInfo_toBytes hinfo, bind, Except.bind, UInt8.toNat_ofNat',
    Nat.mod_eq_of_lt hunits, ne_eq, not_true_eq_false, if_false, hsplit]
  rfl

theorem decodeUnknown_toBytes {t : GtpExtensionType} {content : Bytes}
    (hunits : content.length % 4 = 2) (hlt : content.length ≤ 1018) (offset : Nat)
    (next : GtpExtensionType) (behind : Bytes) :
    decodeUnknown ⟨offset, (unknown t content).toBytes next ++ behind⟩
      = .ok (unknown GtpExtensionType.noMore content) := by
  obtain ⟨units, hlength⟩ : ∃ units, (unknown t content).length = units * 4 :=
    ⟨(content.length + 2) / 4, by rw [length, contentLength]; omega⟩
  have hcontent : content.length = units * 4 - 2 := length_content_of_units hlength
  have hne : UInt8.ofNat units ≠ 0 := by
    rw [Ne, ← UInt8.toNat_inj, UInt8.toNat_ofNat', UInt8.toNat_zero]
    omega
  have hnat : (UInt8.ofNat units).toNat = units := by
    rw [UInt8.toNat_ofNat', Nat.mod_eq_of_lt (by omega)]
  have hsplit : Bytes.split? (content ++ next :: behind) (units * 4 - 2)
      = some (content, next :: behind) := Bytes.split?_eq_some.mpr ⟨rfl, hcontent⟩
  rw [toBytes_of_units hlength, decodeUnknown, GtpExtension.content]
  simp only [if_neg hne, hnat, hsplit]

theorem WellFormed.ne_noMore {e : GtpExtension} (h : e.WellFormed) :
    e.extensionType ≠ GtpExtensionType.noMore := by
  cases e with
  | longPduNumber t number spare =>
    obtain ⟨rfl | rfl, -⟩ := h
    all_goals
      rw [extensionType]
      decide
  | unknown t content => exact h.1
  | udpPort _ | pduNumber _ | serviceClassIndicator _ _ | pduSessionContainer _ _ =>
    rw [extensionType]
    decide

/-- **A well-formed extension header is read back** by the decoders of the
library. -/
theorem WellFormed.readsBack {e : GtpExtension} (h : e.WellFormed) :
    e.ReadsBack Decoders.standard.gtpExtension where
  more := h.ne_noMore
  decode offset next behind := by
    cases e with
    | udpPort value => exact ⟨_, decodeWord_toBytes rfl _ _ _, rfl⟩
    | pduNumber value => exact ⟨_, decodeWord_toBytes rfl _ _ _, rfl⟩
    | longPduNumber t number spare =>
      obtain ⟨ht, hnumber⟩ := h
      have hdecode : Decoders.standard.gtpExtension t = decodeLongPduNumber := by
        obtain rfl | rfl := ht <;> rfl
      refine ⟨longPduNumber .longPduNumber number spare, ?_, rfl⟩
      rw [extensionType, hdecode]
      exact decodeLongPduNumber_toBytes hnumber t spare offset next behind
    | serviceClassIndicator sci spare =>
      exact ⟨_, decodeServiceClassIndicator_toBytes _ _ _ _ _, rfl⟩
    | pduSessionContainer info padding =>
      exact ⟨_, decodePduSessionContainer_toBytes h _ _ _, rfl⟩
    | unknown t content =>
      obtain ⟨-, hfree, hunits, hlt⟩ := h
      refine ⟨unknown .noMore content, ?_, rfl⟩
      show Decoders.standard.gtpExtensions.get t _ = _
      rw [Registry.get_of_not_contains hfree]
      exact decodeUnknown_toBytes hunits hlt offset next behind

/-- A well-formed extension header can be written. -/
theorem WellFormed.sized {e : GtpExtension} (h : e.WellFormed) :
    e.length % 4 = 0 ∧ e.length / 4 ≤ 255 := by
  cases e with
  | pduSessionContainer info padding =>
    rw [length_of_units h.2, Nat.mul_div_cancel _ (by decide)]
    exact ⟨Nat.mul_mod_left _ _, Nat.le_of_lt_succ info.unitsFor_lt⟩
  | unknown t content =>
    obtain ⟨-, -, hunits, hlt⟩ := h
    rw [length, contentLength]
    omega
  | udpPort _ | pduNumber _ | longPduNumber _ _ _ | serviceClassIndicator _ _ =>
    rw [length, contentLength]
    decide

end GtpExtension

/-! ## Chains -/

section Chain

variable {decode : GtpExtensionType → Window → Except DecodeError GtpExtension}

/-- The chain of extension headers that says that there are no more. -/
def GtpChain.ended (es : List GtpExtension) : GtpChain := ⟨es, GtpExtensionType.noMore, false⟩

/-- **A chain that was ended is read as it was written**, and what is behind
it makes no difference. -/
theorem chainFrom_chainBytes {es : List GtpExtension} (h : ∀ e ∈ es, e.ReadsBack decode)
    (offset : Nat) (behind : Bytes) :
    chainFrom decode (GtpChain.ended es).announced 0 offset
      (chainBytes GtpExtensionType.noMore es ++ behind) = .ended es := by
  induction es generalizing offset with
  | nil => exact chainFrom_noMore offset behind
  | cons e es ih =>
    obtain ⟨he, hes⟩ := List.forall_mem_cons.mp h
    have hbytes : chainBytes GtpExtensionType.noMore (e :: es) ++ behind
        = e.toBytes (GtpChain.ended es).announced
            ++ (chainBytes GtpExtensionType.noMore es ++ behind) := List.append_assoc _ _ _
    obtain ⟨e', hdecode, htype⟩ := he.decode offset (GtpChain.ended es).announced
      (chainBytes GtpExtensionType.noMore es ++ behind)
    have hsame : e'.length = e.length := by
      rw [← GtpExtension.length_withType e.extensionType, htype]
    rw [hbytes, show (GtpChain.ended (e :: es)).announced = e.extensionType from rfl,
      chainFrom_of_decode he.more hdecode (hsame ▸ e.getElem?_toBytes _ _), hsame,
      List.drop_left' (e.length_toBytes _), ih hes, htype]
    rfl

/-- The same for a region that starts with a chain. -/
theorem readChain_chainBytes {es : List GtpExtension} (h : ∀ e ∈ es, e.ReadsBack decode)
    (offset : Nat) (behind : Bytes) :
    readChain decode (GtpChain.ended es).announced
      ⟨offset, chainBytes GtpExtensionType.noMore es ++ behind⟩ = .ended es :=
  chainFrom_chainBytes h offset behind

end Chain

end PacketCodec
