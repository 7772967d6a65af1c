import PacketCodec.Proofs.Options
import PacketCodec.Proofs.ReaderFields
import PacketCodec.Proofs.Registry
import PacketCodec.Proofs.Steps

/-!
# Elements at a place in a buffer

A decoder of options, chunks or extension headers is handed a buffer and
the place of a stretch in it, makes a `Reader` of the stretch, and asks
that for what it needs. `ElementReader` is such a decoder beside the
function of a window that a registry holds: on a stretch that lies inside
the buffer both come to the same, and on any other both give the error of
cutting it out (`ElementReader.steps_eq`).

The library's own decoders read in steps of their own. A decoder from
elsewhere is a function of its window and counts as one step. Since a
registry holds functions, `ElementReader.of` is told the functions of the
library from others by comparing them.
-/

namespace PacketCodec

open Bytes (Takes u8?_takes u16?_takes u24?_takes u32?_takes)
open Reader (Finds Gives)
open Steps (inside)

variable {α β : Type}

/-! ## Steps of readers -/

namespace Reader

variable {r : Reader}

/-- **Making a reader is cutting out its window**, as far as what is done
with the reader is a matter of the window. -/
theorem ofBuffer_bind {protocol : String} {buf : Bytes} {offset length : Nat}
    {f : Reader → Steps β} {g : Window → Except DecodeError β}
    (h : ∀ r : Reader, r.Covers protocol buf offset length → f r = liftM (g r.window)) :
    (liftM (ofBuffer protocol buf offset length) >>= f : Steps β)
      = liftM (Window.cut protocol buf offset length >>= g) := by
  obtain ⟨r, hr, hcovers, hw⟩ | ⟨e, hr, hw⟩ := ofBuffer_cases protocol buf offset length
  · rw [hr, hw]
    exact h r hcovers
  · rw [hr, hw]
    rfl

/-- What an access has, by what is taken off the front. -/
theorem Gives.eq_ok {n : Nat} {access : Reader → Nat → Except DecodeError α}
    {front? : Bytes → Option (α × Bytes)} (gives : Gives n access front?) {start : Nat} {a : α}
    {rest : Bytes} (h : front? (r.window.bytes.drop start) = some (a, rest))
    (room : start + n ≤ r.length) : access r start = .ok a := by
  obtain ⟨b, hb, hfront⟩ := gives r start room
  rw [h] at hfront
  cases hfront
  exact hb

/-- The octet at a position. -/
theorem u8_of_drop {start : Nat} {b : UInt8} {rest : Bytes}
    (h : r.window.bytes.drop start = b :: rest) : r.u8 start = .ok b := by
  have hlength := congrArg List.length h
  rw [List.length_drop, length_bytes, List.length_cons] at hlength
  exact Gives.u8.eq_ok (congrArg Bytes.u8? h) (by omega)

/-- The word at a position. -/
theorem u16_of_drop {start : Nat} {high low : UInt8} {rest : Bytes}
    (h : r.window.bytes.drop start = high :: low :: rest) :
    r.u16 .big start = .ok (UInt16.ofNat (Bytes.beNat [high, low])) := by
  have hlength := congrArg List.length h
  rw [List.length_drop, length_bytes, List.length_cons, List.length_cons] at hlength
  exact Gives.u16.eq_ok (congrArg Bytes.u16? h) (by omega)

/-- What an access has, by what is taken off a stretch that starts at its
position. -/
theorem Gives.eq_ok_of_append {n : Nat} {access : Reader → Nat → Except DecodeError α}
    {front? : Bytes → Option (α × Bytes)} (gives : Gives n access front?) (takes : Takes n front?)
    {start : Nat} {front behind rest : Bytes} {a : α} (hfront : front? front = some (a, rest))
    (h : r.window.bytes.drop start = front ++ behind) (room : start + n ≤ r.length) :
    access r start = .ok a :=
  gives.eq_ok (h.symm ▸ takes.steady hfront behind) room

end Reader

/-! ## Decoders of elements -/

/-- **A decoder of elements**: what it does with a window, and the steps in
which it reads one. -/
structure ElementReader (protocol : String) (α : Type) where
  /-- What it does with a window. -/
  decode : Window → Except DecodeError α
  /-- How it reads a window. -/
  read : Reader → Steps α
  /-- Both come to the same. -/
  read_eq : ∀ r : Reader, r.protocol = protocol → read r = liftM (decode r.window)

namespace ElementReader

variable {protocol : String}

/-- **The steps of decoding an element** at a place in a buffer. -/
def steps (d : ElementReader protocol α) (buf : Bytes) (offset length : Nat) : Steps α := do
  d.read (← Reader.ofBuffer protocol buf offset length)

theorem steps_eq (d : ElementReader protocol α) (buf : Bytes) (offset length : Nat) :
    d.steps buf offset length = liftM (Window.cut protocol buf offset length >>= d.decode) :=
  Reader.ofBuffer_bind fun r h => d.read_eq r h.protocol

/-- A decoder from elsewhere, which is handed the window as it is. -/
def foreign (protocol : String) (decode : Window → Except DecodeError α) :
    ElementReader protocol α where
  decode := decode
  read r := decode r.window
  read_eq _ _ := rfl

open Classical in
/-- **The decoder of elements that a registry holds**, one of those in the
library if it is one of their functions. -/
noncomputable def of (library : List (ElementReader protocol α))
    (decode : Window → Except DecodeError α) : ElementReader protocol α :=
  match library.find? fun d => d.decode = decode with
  | some d => d
  | none => foreign protocol decode

variable {library : List (ElementReader protocol α)} {decode : Window → Except DecodeError α}

@[simp] theorem decode_of : (of library decode).decode = decode := by
  unfold of
  split
  · next d h => simpa using List.find?_some h
  · rfl

/-- A decoder of the library has steps of its own. -/
theorem of_mem (h : decode ∈ library.map ElementReader.decode) : of library decode ∈ library := by
  obtain ⟨d, hd, hdecode⟩ := List.mem_map.mp h
  unfold of
  split
  · next found h => exact List.mem_of_find?_eq_some h
  · next h => exact absurd hdecode (by simpa using List.find?_eq_none.mp h d hd)

/-- **Decoding at a place in a buffer** is decoding the window there. -/
theorem steps_of (buf : Bytes) (offset length : Nat) :
    (of library decode).steps buf offset length
      = liftM (Window.cut protocol buf offset length >>= decode) := by
  rw [steps_eq, decode_of]

end ElementReader

/-! ## Options of IPv6 -/

namespace Ipv6Option

/-- The data of an option: its length octet, and as many octets behind. -/
def data (r : Reader) : Steps Bytes := do
  r.require 2
  let n := (← inside (r.u8 1)).toNat
  if r.length < n + 2 then throw (r.inconsistent 2 "option data length" n)
  inside (r.slice 2 n)

theorem data_bind {r : Reader} (hr : r.protocol = protocol) {f : Bytes → Steps α}
    {g : Ipv6OptionType × Bytes → Except DecodeError α}
    (h : ∀ t n rest, r.window.bytes = t :: n :: rest → n.toNat ≤ rest.length →
      f (rest.take n.toNat) = liftM (g (t, rest.take n.toNat))) :
    (data r >>= f) = liftM (typeAndData r.window >>= g) := by
  unfold data typeAndData
  split
  · next t n rest hw =>
    have hlength : r.length = rest.length + 2 := Reader.length_of_bytes hw
    have hn : r.u8 1 = .ok n := Reader.u8_of_drop (congrArg (List.drop 1) hw)
    rw [Reader.require_of_le (by omega), hn]
    simp only [Steps.ok_bind, Steps.inside_ok_bind]
    by_cases hroom : n.toNat ≤ rest.length
    · have hslice : r.slice 2 n.toNat = .ok (rest.take n.toNat) := by
        rw [Reader.slice_of_le (by omega), hw]
        rfl
      rw [if_neg (by omega), Bytes.split?_of_le hroom, hslice]
      exact h t n rest hw hroom
    · have hsplit : Bytes.split? rest n.toNat = none :=
        (Bytes.split?_takes _).none_of_lt _ (Nat.lt_of_not_le hroom)
      rw [if_pos (by omega), hsplit, ← hr]
      rfl
  · next hw =>
    have hlt : r.length < 2 := Reader.length_bytes r ▸ Bytes.length_lt_two hw
    rw [Reader.require_of_lt hlt, hr]
    rfl

/-- The one-octet pad. -/
def pad1Reader : ElementReader protocol Ipv6Option where
  decode := decodePad1
  read r := do
    r.require 1
    return pad1
  read_eq r hr := by
    unfold decodePad1
    split
    · next b rest hw =>
      have hlength : r.length = rest.length + 1 := Reader.length_of_bytes hw
      rw [Reader.require_of_le (by omega)]
      rfl
    · next hw =>
      have hlength : r.length = 0 := Reader.length_of_bytes hw
      rw [Reader.require_of_lt (by omega), hr]
      rfl

/-- Longer padding. -/
def padNReader : ElementReader protocol Ipv6Option where
  decode := decodePadN
  read r := do return padN (← data r)
  read_eq _ hr := data_bind hr fun _ _ _ _ _ => rfl

/-- A router alert, with its word read at its position. -/
def routerAlertReader : ElementReader protocol Ipv6Option where
  decode := decodeRouterAlert
  read r := do
    let data ← data r
    if data.length ≠ 2 then throw (r.invalid 1 "router alert length" data.length)
    return routerAlert (← inside (r.u16 .big 2))
  read_eq r hr := by
    refine data_bind hr fun t n rest hw hn => ?_
    generalize hdata : rest.take n.toNat = data
    by_cases hlength : data.length = 2
    · obtain ⟨high, low, behind, rfl⟩ := Bytes.exists_cons₂ hlength.ge
      obtain rfl : behind = [] := List.eq_nil_of_length_eq_zero (by simpa using hlength)
      have hdrop : r.window.bytes.drop 2 = high :: low :: rest.drop n.toNat := by
        rw [hw]
        show rest = [high, low] ++ _
        rw [← hdata, List.take_append_drop]
      rw [if_neg (not_not.mpr hlength), Reader.u16_of_drop hdrop]
      rfl
    · rw [if_pos hlength]
      dsimp only
      split
      · exact absurd rfl hlength
      · rw [← hr]
        rfl

/-- An option of any type. -/
def unknownReader : ElementReader protocol Ipv6Option where
  decode := decodeUnknown
  read r := do
    let data ← data r
    return unknown (← inside (r.u8 0)) data
  read_eq r hr := by
    refine data_bind hr fun t n rest hw _ => ?_
    rw [Reader.u8_of_drop (congrArg (List.drop 0) hw)]
    rfl

/-- **The decoders of the library**, with their steps. -/
def readers : List (ElementReader protocol Ipv6Option) :=
  [pad1Reader, padNReader, routerAlertReader, unknownReader]

theorem decode_readers : readers.map ElementReader.decode = decoders := rfl

end Ipv6Option

/-! ## Options of neighbor discovery -/

theorem PrefixInfo.takes : Takes 30 read? := by
  show Takes (1 + (1 + (4 + (4 + (4 + (16 + 0)))))) read?
  exact u8?_takes.bind fun _ => u8?_takes.bind fun _ => u32?_takes.bind fun _ =>
    u32?_takes.bind fun _ => u32?_takes.bind fun _ => (Octets.take?_takes 16).bind fun _ => .pure _

/-- The fields of prefix information, at their positions in the option. -/
def PrefixInfo.fieldsAt (r : Reader) (start : Nat) : Except DecodeError PrefixInfo := do
  let prefixLen ← r.u8 start
  let flags := (← r.u8 (start + 1)).toUInt32
  let validLifetime ← r.u32 .big (start + 2)
  let preferredLifetime ← r.u32 .big (start + 6)
  let reserved2 ← r.u32 .big (start + 10)
  let network ← r.octets 16 (start + 14)
  return { prefixLen
           onLink := onLinkBit.isSet flags
           autonomous := autonomousBit.isSet flags
           reserved1 := (reservedBits.get flags).toUInt8
           validLifetime, preferredLifetime, reserved2, network }

theorem PrefixInfo.gives : Gives 30 fieldsAt read? := fun r _ _ =>
  Gives.u8.bind fun _ => Gives.u8.bind fun _ => Gives.u32.bind fun _ => Gives.u32.bind fun _ =>
    Gives.u32.bind fun _ => (Gives.octets 16).bind fun _ => .pure _ _

namespace NdpOption

/-- The data of an option: its length octet, in units of eight octets that
include the first two, and the octets behind. -/
def data (r : Reader) : Steps Bytes := do
  r.require 2
  let units ← inside (r.u8 1)
  if units = 0 then throw (r.invalid 1 "option length" 0)
  let size := units.toNat * 8
  if r.length < size then throw (r.inconsistent 1 "option length" size)
  inside (r.slice 2 (← size.psub 2))

theorem data_bind {r : Reader} (hr : r.protocol = protocol) {f : Bytes → Steps α}
    {g : NdpOptionType × UInt8 × Bytes → Except DecodeError α}
    (h : ∀ t units data behind, r.window.bytes = t :: units :: (data ++ behind) →
      data.length + 2 = units.toNat * 8 → f data = liftM (g (t, units, data))) :
    (data r >>= f) = liftM (typeAndData r.window >>= g) := by
  unfold data typeAndData
  split
  · next t units rest hw =>
    have hlength : r.length = rest.length + 2 := Reader.length_of_bytes hw
    have hunits : r.u8 1 = .ok units := Reader.u8_of_drop (congrArg (List.drop 1) hw)
    rw [Reader.require_of_le (by omega), hunits]
    simp only [Steps.ok_bind, Steps.inside_ok_bind]
    by_cases hzero : units = 0
    · rw [if_pos hzero, if_pos hzero, ← hr]
      rfl
    · have hpos : 0 < units.toNat := Nat.pos_of_ne_zero fun h0 => hzero (UInt8.toNat_inj.mp h0)
      rw [if_neg hzero, if_neg hzero]
      by_cases hroom : units.toNat * 8 - 2 ≤ rest.length
      · have hslice : r.slice 2 (units.toNat * 8 - 2) = .ok (rest.take (units.toNat * 8 - 2)) := by
          rw [Reader.slice_of_le (by omega), hw]
          rfl
        rw [if_neg (by omega), Nat.psub_eq_sub (by omega), Bytes.split?_of_le hroom]
        simp only [Steps.some_bind, hslice, Steps.inside_ok_bind]
        refine h t units _ (rest.drop (units.toNat * 8 - 2)) ?_ ?_
        · rw [hw, List.take_append_drop]
        · rw [List.length_take_of_le hroom]
          omega
      · have hsplit : Bytes.split? rest (units.toNat * 8 - 2) = none :=
          (Bytes.split?_takes _).none_of_lt _ (Nat.lt_of_not_le hroom)
        rw [if_pos (by omega), hsplit, ← hr]
        rfl
  · next hw =>
    have hlt : r.length < 2 := Reader.length_bytes r ▸ Bytes.length_lt_two hw
    rw [Reader.require_of_lt hlt, hr]
    rfl

/-- The link-layer address of the source. -/
def sourceLinkAddrReader : ElementReader protocol NdpOption where
  decode := decodeSourceLinkAddr
  read r := do return sourceLinkAddr (← data r)
  read_eq _ hr := data_bind hr fun _ _ _ _ _ _ => rfl

/-- The link-layer address of the target. -/
def targetLinkAddrReader : ElementReader protocol NdpOption where
  decode := decodeTargetLinkAddr
  read r := do return targetLinkAddr (← data r)
  read_eq _ hr := data_bind hr fun _ _ _ _ _ _ => rfl

/-- Prefix information. -/
def prefixInfoReader : ElementReader protocol NdpOption where
  decode := decodePrefixInfo
  read r := do
    let data ← data r
    if data.length + 2 = prefixInfoSize then
      return prefixInfo (← inside (PrefixInfo.fieldsAt r 2))
    else throw (r.invalid 1 "prefix information length" (← inside (r.u8 1)).toNat)
  read_eq r hr := by
    refine data_bind hr fun t units data behind hw hsize => ?_
    have hdrop : r.window.bytes.drop 2 = data ++ behind := congrArg (List.drop 2) hw
    have hlength := congrArg List.length hdrop
    rw [List.length_drop, Reader.length_bytes, List.length_append] at hlength
    by_cases hlen : data.length + 2 = prefixInfoSize
    · have hdata : data.length = 30 := Nat.add_right_cancel hlen
      obtain ⟨info, hinfo⟩ := PrefixInfo.takes.some_of_le data hdata.ge
      rw [List.drop_of_length_le hdata.le] at hinfo
      rw [if_pos hlen,
        PrefixInfo.gives.eq_ok_of_append PrefixInfo.takes hinfo hdrop (by omega)]
      dsimp only
      rw [hinfo]
      rfl
    · rw [if_neg hlen, Reader.u8_of_drop (congrArg (List.drop 1) hw)]
      dsimp only
      split
      · next info hinfo => exact absurd (congrArg (· + 2) (PrefixInfo.takes.length hinfo)) hlen
      · rw [← hr]
        rfl

/-- An MTU. -/
def mtuReader : ElementReader protocol NdpOption where
  decode := decodeMtu
  read r := do
    let data ← data r
    if data.length + 2 = mtuSize then
      let reserved ← inside (r.u16 .big 2)
      let value ← inside (r.u32 .big 4)
      return mtu reserved value
    else throw (r.invalid 1 "MTU option length" (← inside (r.u8 1)).toNat)
  read_eq r hr := by
    refine data_bind hr fun t units data behind hw hsize => ?_
    have hdrop : r.window.bytes.drop 2 = data ++ behind := congrArg (List.drop 2) hw
    have hlength := congrArg List.length hdrop
    rw [List.length_drop, Reader.length_bytes, List.length_append] at hlength
    by_cases hlen : data.length + 2 = mtuSize
    · have hdata : data.length = 6 := Nat.add_right_cancel hlen
      obtain ⟨reserved, hreserved⟩ := u16?_takes.some_of_le data (by omega)
      obtain ⟨value, hvalue⟩ :=
        u32?_takes.some_of_le (data.drop 2) (by rw [List.length_drop]; omega)
      rw [List.drop_drop, List.drop_of_length_le hdata.le] at hvalue
      have hdrop' : r.window.bytes.drop 4 = data.drop 2 ++ behind := by
        rw [← List.drop_append_of_le_length (by omega), ← hdrop, List.drop_drop]
      rw [if_pos hlen,
        Gives.u16.eq_ok_of_append u16?_takes hreserved hdrop (by omega),
        Gives.u32.eq_ok_of_append u32?_takes hvalue hdrop' (by omega)]
      dsimp only
      rw [hreserved]
      simp only [bind, Option.bind, hvalue]
      rfl
    · rw [if_neg hlen, Reader.u8_of_drop (congrArg (List.drop 1) hw)]
      dsimp only
      split
      · next reserved value hfields =>
        simp only [Bytes.bind_eq_some] at hfields
        obtain ⟨_, bs, h16, _, _, h32, h⟩ := hfields
        cases h
        have hbs : data.length = 2 + bs.length := u16?_takes.length h16
        exact absurd (hbs.trans (congrArg (2 + ·) (u32?_takes.length h32))) fun h =>
          hlen (congrArg (· + 2) h)
      · rw [← hr]
        rfl

/-- An option of any type. -/
def unknownReader : ElementReader protocol NdpOption where
  decode := decodeUnknown
  read r := do
    let data ← data r
    return unknown (← inside (r.u8 0)) data
  read_eq r hr := by
    refine data_bind hr fun t units data behind hw _ => ?_
    rw [Reader.u8_of_drop (congrArg (List.drop 0) hw)]
    rfl

/-- **The decoders of the library**, with their steps. -/
def readers : List (ElementReader protocol NdpOption) :=
  [sourceLinkAddrReader, targetLinkAddrReader, prefixInfoReader, mtuReader, unknownReader]

theorem decode_readers : readers.map ElementReader.decode = decoders := rfl

end NdpOption

/-! ## Session information -/

/-- The three times, from a position on. -/
def UplinkTimes.fieldsAt (r : Reader) (start : Nat) : Except DecodeError UplinkTimes := do
  let downlinkSent ← r.u64 start
  let downlinkReceived ← r.u64 (start + 8)
  let uplinkSent ← r.u64 (start + 16)
  return { downlinkSent, downlinkReceived, uplinkSent }

theorem UplinkTimes.gives : Gives 24 fieldsAt read? := fun r _ _ =>
  Gives.u64.bind fun _ => Gives.u64.bind fun _ => Gives.u64.bind fun _ => .pure _ _

/-- The fields that the flags of downlink information call for. -/
def DownlinkInfo.fieldsAt (b₀ b₁ : UInt32) (r : Reader) (start : Nat) :
    Except DecodeError DownlinkInfo := do
  let ppi ← r.fieldIf (ppiBit.isSet b₁) Reader.u8 start
  let start := start + if ppiBit.isSet b₁ then 1 else 0
  let sendingTime ← r.fieldIf (timeBit.isSet b₀) Reader.u64 start
  let start := start + if timeBit.isSet b₀ then 8 else 0
  let sequenceNumber ← r.fieldIf (sequenceBit.isSet b₀) Reader.u24 start
  let start := start + if sequenceBit.isSet b₀ then 3 else 0
  let mbsSequenceNumber ← r.fieldIf (mbsSequenceBit.isSet b₀) (fun r => r.u32 .big) start
  return { qfi := (qfiBits.get b₁).toUInt8
           rqi := rqiBit.isSet b₁
           spare := spareBit.isSet b₀
           ppi, sendingTime, sequenceNumber, mbsSequenceNumber }

theorem DownlinkInfo.finds {r : Reader} {b₀ b₁ : UInt32} (h : lengthFor b₀ b₁ ≤ r.length) :
    r.Finds (fieldsAt b₀ b₁ r 2) (fields? b₀ b₁ (r.window.bytes.drop 2)) (lengthFor b₀ b₁) := by
  unfold lengthFor at h ⊢
  exact (Gives.u8.fieldIf _).bind fun _ => (Gives.u64.fieldIf _).bind fun _ =>
    (Gives.u24.fieldIf _).bind fun _ => (Gives.u32.fieldIf _).bind fun _ => .pure _ _

/-- The fields that the flags of uplink information call for. -/
def UplinkInfo.fieldsAt (b₀ b₁ : UInt32) (r : Reader) (start : Nat) :
    Except DecodeError UplinkInfo := do
  let times ← r.fieldIf (timeBit.isSet b₀) UplinkTimes.fieldsAt start
  let start := start + if timeBit.isSet b₀ then 24 else 0
  let downlinkDelay ← r.fieldIf (downlinkDelayBit.isSet b₀) (fun r => r.u32 .big) start
  let start := start + if downlinkDelayBit.isSet b₀ then 4 else 0
  let uplinkDelay ← r.fieldIf (uplinkDelayBit.isSet b₀) (fun r => r.u32 .big) start
  let start := start + if uplinkDelayBit.isSet b₀ then 4 else 0
  let sequenceNumber ← r.fieldIf (sequenceBit.isSet b₀) Reader.u24 start
  let start := start + if sequenceBit.isSet b₀ then 3 else 0
  let nodeDelay ← r.fieldIf (nodeDelayBit.isSet b₁) (fun r => r.u32 .big) start
  let start := start + if nodeDelayBit.isSet b₁ then 4 else 0
  let newFlags ← r.fieldIf (newFlagsBit.isSet b₁) Reader.u8 start
  return { qfi := (qfiBits.get b₁).toUInt8
           times, downlinkDelay, uplinkDelay, sequenceNumber, nodeDelay, newFlags }

theorem UplinkInfo.finds {r : Reader} {b₀ b₁ : UInt32} (h : lengthFor b₀ b₁ ≤ r.length) :
    r.Finds (fieldsAt b₀ b₁ r 2) (fields? b₀ b₁ (r.window.bytes.drop 2)) (lengthFor b₀ b₁) := by
  unfold lengthFor at h ⊢
  exact (UplinkTimes.gives.fieldIf _).bind fun _ => (Gives.u32.fieldIf _).bind fun _ =>
    (Gives.u32.fieldIf _).bind fun _ => (Gives.u24.fieldIf _).bind fun _ =>
      (Gives.u32.fieldIf _).bind fun _ => (Gives.u8.fieldIf _).bind fun _ => .pure _ _

/-- Parses session information of one direction: two octets, whose flags
tell how much room it needs, and its fields. -/
def parseInfo (lengthFor : UInt32 → UInt32 → Nat)
    (fieldsAt : UInt32 → UInt32 → Reader → Nat → Except DecodeError α) (r : Reader) :
    Steps α := do
  r.require 2
  let b₀ := (← inside (r.u8 0)).toUInt32
  let b₁ := (← inside (r.u8 1)).toUInt32
  r.parse (lengthFor b₀ b₁) fun r => fieldsAt b₀ b₁ r 2

section Info

variable {lengthFor : UInt32 → UInt32 → Nat}
  {fieldsAt : UInt32 → UInt32 → Reader → Nat → Except DecodeError α}
  {fields? : UInt32 → UInt32 → Bytes → Option (α × Bytes)} {r : Reader} {first second : UInt8}
  {rest : Bytes}

theorem parseInfo_of_lt (h : r.length < 2) :
    parseInfo lengthFor fieldsAt r = throw (r.window.tooShort r.protocol 2) := by
  rw [parseInfo, Reader.require_of_lt h]
  rfl

theorem parseInfo_of_window (hw : r.window.bytes = first :: second :: rest) :
    parseInfo lengthFor fieldsAt r
      = r.parse (lengthFor first.toUInt32 second.toUInt32) fun r =>
          fieldsAt first.toUInt32 second.toUInt32 r 2 := by
  have hlength : r.length = rest.length + 2 := Reader.length_of_bytes hw
  rw [parseInfo, Reader.require_of_le (by omega),
    Reader.u8_of_drop (congrArg (List.drop 0) hw), Reader.u8_of_drop (congrArg (List.drop 1) hw)]
  rfl

/-- **Parsing information is reading its fields off the front**, behind its
first two octets. -/
theorem parseInfo_eq (hw : r.window.bytes = first :: second :: rest)
    (htwo : 2 ≤ lengthFor first.toUInt32 second.toUInt32)
    (takes : Takes (lengthFor first.toUInt32 second.toUInt32 - 2)
      (fields? first.toUInt32 second.toUInt32))
    (finds : lengthFor first.toUInt32 second.toUInt32 ≤ r.length →
      r.Finds (fieldsAt first.toUInt32 second.toUInt32 r 2)
        (fields? first.toUInt32 second.toUInt32 (r.window.bytes.drop 2))
        (lengthFor first.toUInt32 second.toUInt32)) :
    parseInfo lengthFor fieldsAt r
      = (fields? first.toUInt32 second.toUInt32 rest).elim
          (throw (r.window.tooShort r.protocol (lengthFor first.toUInt32 second.toUInt32)))
          fun p => pure p.1 := by
  have hlength : r.length = rest.length + 2 := Reader.length_of_bytes hw
  rw [parseInfo_of_window hw]
  by_cases hroom : lengthFor first.toUInt32 second.toUInt32 ≤ r.length
  · obtain ⟨a, ha, hfields⟩ := finds hroom
    have hrest : r.window.bytes.drop 2 = rest := congrArg (List.drop 2) hw
    rw [hrest] at hfields
    rw [Reader.parse_of_le hroom ha, hfields]
    rfl
  · have hlt := Nat.lt_of_not_le hroom
    rw [Reader.parse_of_lt hlt, takes.none_of_lt rest (by omega)]
    rfl

end Info

/-! ## Extension headers of GTP -/

namespace GtpExtension

/-- Asks for an extension header that is always `units` units long. -/
def fixed (r : Reader) (units : Nat) : Steps Unit := do
  r.require 1
  let declared := (← inside (r.u8 0)).toNat
  if declared ≠ units then throw (r.invalid 0 "extension length" declared)
  r.require (units * 4)

theorem fixed_bind {r : Reader} (hr : r.protocol = protocol) {units : Nat} (hunits : 0 < units)
    {x : Steps α} {g : Bytes → Except DecodeError α}
    (h : ∀ content behind, r.window.bytes.drop 1 = content ++ behind →
      content.length + 2 = units * 4 → units * 4 ≤ r.length → x = liftM (g content)) :
    (fixed r units >>= fun _ => x) = liftM (fixedContent r.window units >>= g) := by
  unfold fixed fixedContent
  split
  · next hw =>
    have hlength : r.length = 0 := Reader.length_of_bytes hw
    rw [Reader.require_of_lt (by omega), hr]
    rfl
  · next declared rest hw =>
    have hlength : r.length = rest.length + 1 := Reader.length_of_bytes hw
    rw [Reader.require_of_le (by omega), Reader.u8_of_drop (congrArg (List.drop 0) hw)]
    simp only [Steps.ok_bind, Steps.inside_ok_bind]
    by_cases hdeclared : declared.toNat = units
    · rw [if_neg (not_not.mpr hdeclared), if_neg (not_not.mpr hdeclared)]
      by_cases hroom : units * 4 ≤ r.length
      · have hsplit : Bytes.split? rest (units * 4 - 1)
            = some (rest.take (units * 4 - 1), rest.drop (units * 4 - 1)) :=
          Bytes.split?_of_le (by omega)
        have htake : (rest.take (units * 4 - 1)).take (units * 4 - 2)
            = rest.take (units * 4 - 2) := by
          rw [List.take_take, Nat.min_eq_left (by omega)]
        rw [Reader.require_of_le hroom, hsplit]
        dsimp only
        rw [htake]
        refine h _ (rest.drop (units * 4 - 2)) ?_ ?_ hroom
        · rw [hw, List.take_append_drop]
          rfl
        · rw [List.length_take_of_le (by omega), Nat.sub_add_cancel (by omega)]
      · have hsplit : Bytes.split? rest (units * 4 - 1) = none :=
          (Bytes.split?_takes _).none_of_lt _ (by omega)
        rw [Reader.require_of_lt (Nat.lt_of_not_le hroom), hsplit, hr]
        rfl
    · rw [if_pos hdeclared, if_pos hdeclared, ← hr]
      rfl

/-- An extension header of one unit whose content is a word. -/
def wordReader (make : UInt16 → GtpExtension) : ElementReader protocol GtpExtension where
  decode := decodeWord make
  read r := do
    fixed r 1
    return make (← inside (r.u16 .big 1))
  read_eq r hr := by
    refine fixed_bind hr Nat.one_pos fun content behind hdrop hlen hroom => ?_
    obtain ⟨value, hvalue⟩ := u16?_takes.some_of_le content (by omega)
    rw [Gives.u16.eq_ok_of_append u16?_takes hvalue hdrop (by omega), hvalue]
    rfl

/-- A service class indicator. -/
def serviceClassIndicatorReader : ElementReader protocol GtpExtension where
  decode := decodeServiceClassIndicator
  read r := do
    fixed r 1
    let sci ← inside (r.u8 1)
    let spare ← inside (r.u8 2)
    return serviceClassIndicator sci spare
  read_eq r hr := by
    refine fixed_bind hr Nat.one_pos fun content behind hdrop hlen _ => ?_
    have htwo : 2 ≤ content.length := by omega
    obtain ⟨sci, spare, rest, rfl⟩ := Bytes.exists_cons₂ htwo
    obtain rfl : rest = [] := List.eq_nil_of_length_eq_zero (by simpa using hlen)
    have hdrop' : r.window.bytes.drop 2 = spare :: behind :=
      List.drop_drop.symm.trans (congrArg (List.drop 1) hdrop)
    rw [Reader.u8_of_drop hdrop, Reader.u8_of_drop hdrop']
    rfl

/-- A long PDU number. -/
def longPduNumberReader : ElementReader protocol GtpExtension where
  decode := decodeLongPduNumber
  read r := do
    fixed r 2
    let spare ← inside (r.octets 3 4)
    let number ← inside (r.u24 1)
    return longPduNumber GtpExtensionType.longPduNumber number spare
  read_eq r hr := by
    refine fixed_bind hr Nat.two_pos fun content behind hdrop hlen hroom => ?_
    obtain ⟨number, hnumber⟩ := u24?_takes.some_of_le content (by omega)
    obtain ⟨spare, hspare⟩ :=
      (Octets.take?_takes 3).some_of_le (content.drop 3) (by rw [List.length_drop]; omega)
    have hdrop' : r.window.bytes.drop 4 = content.drop 3 ++ behind := by
      rw [← List.drop_append_of_le_length (by omega), ← hdrop, List.drop_drop]
    rw [Gives.u24.eq_ok_of_append u24?_takes hnumber hdrop (by omega),
      (Gives.octets 3).eq_ok_of_append (Octets.take?_takes 3) hspare hdrop' (by omega)]
    dsimp only
    simp only [hnumber, bind, Option.bind, hspare]
    rfl

/-- The session information of a container: its type tells the direction,
and its content is read as a window of its own. -/
def readInfo (r content : Reader) : Steps SessionInfo := do
  let type := pduTypeBits.get (← inside (r.u8 1)).toUInt32
  if type = DownlinkInfo.pduType then
    return .downlink (← parseInfo DownlinkInfo.lengthFor DownlinkInfo.fieldsAt content)
  else if type = UplinkInfo.pduType then
    return .uplink (← parseInfo UplinkInfo.lengthFor UplinkInfo.fieldsAt content)
  else throw (r.invalid 1 "PDU type" type.toNat)

theorem readInfo_eq {r content : Reader} (hr : r.protocol = protocol)
    (hprotocol : content.protocol = containerProtocol)
    (hcontent : content.window = r.window.after 1)
    {declared first : UInt8} {rest : Bytes} (hw : r.window.bytes = declared :: first :: rest) :
    readInfo r content = liftM ((readSessionInfo r.window).map Prod.fst) := by
  have hbytes : content.window.bytes = first :: rest := by
    rw [hcontent]
    exact congrArg (List.drop 1) hw
  have hbytes' : (r.window.after 1).bytes = first :: rest := by rw [← hcontent, hbytes]
  have hshort (hnil : rest = []) : content.length < 2 := by
    rw [← Reader.length_bytes, hbytes, hnil]
    exact Nat.one_lt_two
  rw [readInfo, Reader.u8_of_drop (congrArg (List.drop 1) hw), Steps.inside_ok_bind,
    readSessionInfo]
  dsimp only
  rw [hbytes']
  dsimp only
  generalize htype : pduTypeBits.get first.toUInt32 = type
  by_cases hdown : type = DownlinkInfo.pduType
  · rw [if_pos hdown, if_neg fun h => h.1 hdown]
    cases rest with
    | nil =>
      rw [parseInfo_of_lt (hshort rfl), hprotocol, hcontent]
      rfl
    | cons second rest =>
      rw [parseInfo_eq hbytes (by rw [DownlinkInfo.lengthFor]; omega)
        (DownlinkInfo.fields?_takes _ _) DownlinkInfo.finds, hprotocol, hcontent]
      dsimp only
      rw [if_pos hdown]
      cases DownlinkInfo.fields? first.toUInt32 second.toUInt32 rest <;> rfl
  · rw [if_neg hdown]
    by_cases hup : type = UplinkInfo.pduType
    · rw [if_pos hup, if_neg fun h => h.2 hup]
      cases rest with
      | nil =>
        rw [parseInfo_of_lt (hshort rfl), hprotocol, hcontent]
        rfl
      | cons second rest =>
        rw [parseInfo_eq hbytes (by rw [UplinkInfo.lengthFor]; omega)
          (UplinkInfo.fields?_takes _ _) UplinkInfo.finds, hprotocol, hcontent]
        dsimp only
        rw [if_neg hdown]
        cases UplinkInfo.fields? first.toUInt32 second.toUInt32 rest <;> rfl
    · rw [if_neg hup, if_pos ⟨hdown, hup⟩, ← hr]
      rfl

theorem decodePduSessionContainer_of_lt {w : Window} (h : w.length < 2) :
    decodePduSessionContainer w = .error (w.tooShort protocol 2) := by
  -- With one octet there is no type to be read, and with none no length either.
  unfold decodePduSessionContainer
  split
  · rfl
  · have hafter : (w.after 1).bytes = [] := List.drop_eq_nil_of_le (Nat.le_of_lt_succ h)
    rw [readSessionInfo]
    dsimp only
    rw [hafter]
    rfl

/-- What is left behind the information starts where its length says. -/
theorem drop_of_readSessionInfo {w : Window} {info : SessionInfo} {behind : Bytes}
    (h : readSessionInfo w = .ok (info, behind)) : w.bytes.drop (1 + info.length) = behind := by
  have hbytes := bytes_of_readSessionInfo h
  rw [← List.drop_drop, ← info.length_toBytes]
  exact (congrArg (List.drop _) hbytes).trans (List.drop_left ..)

/-- A PDU session container. -/
def pduSessionContainerReader : ElementReader protocol GtpExtension where
  decode := decodePduSessionContainer
  read r := do
    r.require 2
    let declared := (← inside (r.u8 0)).toNat
    let content ← inside (r.sub containerProtocol 1 (← r.length.psub 1))
    let info ← readInfo r content
    let units := unitsFor info.length
    if declared ≠ units then throw (r.invalid 0 "extension length" declared)
    if r.length < units * 4 then throw (r.inconsistent 0 "extension length" (units * 4))
    let start := 1 + info.length
    let stop ← (units * 4).psub 1
    return pduSessionContainer info (← inside (r.slice start (← stop.psub start)))
  read_eq r hr := by
    by_cases htwo : 2 ≤ r.length
    · obtain ⟨declared, first, rest, hw⟩ :=
        Bytes.exists_cons₂ (htwo.trans (Reader.length_bytes r).ge)
      have hlength : r.length = rest.length + 2 := Reader.length_of_bytes hw
      obtain ⟨content, hsub, hprotocol, hcontent⟩ :=
        Reader.exists_sub_rest containerProtocol (Nat.le_of_lt htwo)
      rw [Reader.require_of_le htwo, Reader.u8_of_drop (congrArg (List.drop 0) hw),
        Nat.psub_eq_sub (Nat.le_of_lt htwo), decodePduSessionContainer]
      simp only [Steps.ok_bind, Steps.inside_ok_bind, Steps.some_bind, hsub,
        readInfo_eq hr hprotocol hcontent hw]
      rw [hw]
      dsimp only
      cases hinfo : readSessionInfo r.window with
      | error e => rfl
      | ok p =>
        obtain ⟨info, behind⟩ := p
        have hbehind := drop_of_readSessionInfo hinfo
        have hroom := congrArg List.length hbehind
        rw [List.length_drop, Reader.length_bytes] at hroom
        have hunits := add_two_le_unitsFor info.length
        rw [show Except.map Prod.fst (.ok (info, behind)) = .ok info from rfl, Steps.ok_bind]
        show _ = (liftM (if declared.toNat ≠ unitsFor info.length then _ else _) : Steps _)
        by_cases hdeclared : declared.toNat = unitsFor info.length
        · rw [if_neg (not_not.mpr hdeclared), if_neg (not_not.mpr hdeclared)]
          by_cases hfits : unitsFor info.length * 4 ≤ r.length
          · have hn : unitsFor info.length * 4 - 2 - info.length < behind.length := by omega
            have hpadding : unitsFor info.length * 4 - 1 - (1 + info.length)
                = unitsFor info.length * 4 - 2 - info.length := by omega
            have hslice : r.slice (1 + info.length) (unitsFor info.length * 4 - 2 - info.length)
                = .ok (behind.take (unitsFor info.length * 4 - 2 - info.length)) := by
              rw [Reader.slice_of_le (by omega), Bytes.clamp, hbehind]
            rw [if_neg (Nat.not_lt.mpr hfits), Nat.psub_eq_sub (by omega), Steps.some_bind,
              Nat.psub_eq_sub (by omega), Steps.some_bind, hpadding, hslice, Bytes.split?_of_lt hn]
            rfl
          · rw [if_pos (Nat.lt_of_not_le hfits)]
            split
            · next padding next behind' hs =>
              have hlong := Bytes.lt_length_of_split? hs
              dsimp only at hlong
              omega
            · rw [← hr]
              rfl
        · rw [if_pos hdeclared, if_pos hdeclared, ← hr]
          rfl
    · have hlt := Nat.lt_of_not_le htwo
      rw [Reader.require_of_lt hlt, hr,
        decodePduSessionContainer_of_lt (lt_of_eq_of_lt r.length_window hlt)]
      rfl

/-- An extension header of any type. -/
def unknownReader : ElementReader protocol GtpExtension where
  decode := decodeUnknown
  read r := do
    r.require 1
    let units := (← inside (r.u8 0)).toNat
    if units = 0 then throw (r.invalid 0 "extension length" 0)
    if r.length < units * 4 then throw (r.inconsistent 0 "extension length" (units * 4))
    return unknown GtpExtensionType.noMore (← inside (r.slice 1 (← (units * 4).psub 2)))
  read_eq r hr := by
    unfold decodeUnknown
    split
    · next hw =>
      have hlength : r.length = 0 := Reader.length_of_bytes hw
      rw [Reader.require_of_lt (by omega), hr]
      rfl
    · next units rest hw =>
      have hlength : r.length = rest.length + 1 := Reader.length_of_bytes hw
      rw [Reader.require_of_le (by omega), Reader.u8_of_drop (congrArg (List.drop 0) hw)]
      simp only [Steps.ok_bind, Steps.inside_ok_bind]
      by_cases hzero : units = 0
      · rw [if_pos hzero, hzero, ← hr]
        rfl
      · have hpos : 0 < units.toNat := Nat.pos_of_ne_zero fun h0 => hzero (UInt8.toNat_inj.mp h0)
        rw [if_neg hpos.ne', if_neg hzero]
        by_cases hfits : units.toNat * 4 ≤ r.length
        · have hn : units.toNat * 4 - 2 < rest.length := by omega
          have hslice :
              r.slice 1 (units.toNat * 4 - 2) = .ok (rest.take (units.toNat * 4 - 2)) := by
            rw [Reader.slice_of_le (by omega), hw]
            rfl
          rw [if_neg (Nat.not_lt.mpr hfits), Nat.psub_eq_sub (by omega), Bytes.split?_of_lt hn]
          simp only [Steps.some_bind, Steps.inside_ok_bind, hslice]
          rfl
        · rw [if_pos (Nat.lt_of_not_le hfits)]
          split
          · next content next behind hs =>
            have hlong := Bytes.lt_length_of_split? hs
            omega
          · rw [← hr]
            rfl

/-- **The decoders of the library**, with their steps. -/
def readers : List (ElementReader protocol GtpExtension) :=
  [wordReader udpPort, wordReader pduNumber, longPduNumberReader, serviceClassIndicatorReader,
    pduSessionContainerReader, unknownReader]

theorem decode_readers : readers.map ElementReader.decode = decoders := rfl

end GtpExtension

/-! ## Chunks of SCTP -/

/-- A chunk. Its padding ends with the window, if that comes first. -/
def SctpChunk.reader : ElementReader SctpChunk.protocol SctpChunk where
  decode := decode
  read r := do
    r.require headSize
    let lengthField ← inside (r.u16 .big 2)
    let declared := lengthField.toNat
    if declared < headSize then throw (r.invalid 2 "chunk length" declared)
    if r.length < declared then throw (r.inconsistent 2 "chunk length" declared)
    let behind ← r.length.psub declared
    let chunkType ← inside (r.u8 0)
    let flags ← inside (r.u8 1)
    let value ← inside (r.slice headSize (← declared.psub headSize))
    let padding ← inside (r.slice declared (min (paddingFor declared) behind))
    return { chunkType, flags, lengthField, value, padding }
  read_eq r hr := by
    unfold decode
    split
    · next chunkType flags high low rest hw =>
      have hlength : r.length = rest.length + headSize := Reader.length_of_bytes hw
      rw [Reader.require_of_le (by omega), Reader.u16_of_drop (congrArg (List.drop 2) hw)]
      simp only [Steps.ok_bind, Steps.inside_ok_bind, Bytes.toNat_ofNat_beNat]
      -- The length field may say anything; all that is used is that `declared` is its value.
      generalize UInt16.ofNat (Bytes.beNat [high, low]) = lengthField
      generalize Bytes.beNat [high, low] = declared
      by_cases hshort : declared < headSize
      · rw [if_pos hshort, if_pos hshort, ← hr]
        rfl
      · obtain ⟨k, rfl⟩ : ∃ k, declared = k + headSize := Nat.exists_eq_add_of_le' (by omega)
        rw [if_neg hshort, if_neg hshort, Nat.add_sub_cancel]
        by_cases hroom : k + headSize ≤ r.length
        · have hvalue : r.slice headSize k = .ok (rest.take k) := by
            rw [Reader.slice_of_le (by omega), hw]
            rfl
          have hpadding : r.slice (k + headSize)
              (min (paddingFor (k + headSize)) (r.length - (k + headSize)))
                = .ok ((rest.drop k).take (paddingFor (k + headSize))) := by
            have hdrop : r.window.bytes.drop (k + headSize) = rest.drop k := by rw [hw]; rfl
            rw [Reader.slice_of_le (by omega), Bytes.clamp, hdrop]
            exact congrArg Except.ok
              (List.take_eq_take_iff.mpr (by rw [List.length_drop]; omega))
          rw [if_neg (Nat.not_lt.mpr hroom), Nat.psub_eq_sub hroom, Steps.some_bind,
            Reader.u8_of_drop (congrArg (List.drop 0) hw),
            Reader.u8_of_drop (congrArg (List.drop 1) hw),
            Nat.psub_eq_sub (Nat.le_add_left headSize k), Nat.add_sub_cancel,
            Bytes.split?_of_le (by omega)]
          simp only [Steps.inside_ok_bind, Steps.some_bind, hvalue, hpadding]
          rfl
        · have hsplit : Bytes.split? rest k = none :=
            (Bytes.split?_takes k).none_of_lt rest (by omega)
          rw [if_pos (Nat.lt_of_not_le hroom), hsplit, ← hr]
          rfl
    · next hw =>
      have hlt : r.length < headSize := Reader.length_bytes r ▸ Bytes.length_lt_four hw
      rw [Reader.require_of_lt hlt, hr]
      rfl

end PacketCodec
