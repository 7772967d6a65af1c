import PacketCodec.Proofs.Extent
import PacketCodec.Proofs.Header
import PacketCodec.Proofs.ReaderView
import PacketCodec.Proofs.Steps

/-!
# Headers at their positions

Octets can be read in two ways. What reads off the front of a byte string
takes some octets and returns those behind them; a `Reader` stays where it
is and is asked for a field at a position. `Reader.Gives` says that both
come to the same: if the field lies inside the window, the access at a
position has the value that is taken off the front of the octets from
there. It holds of every access that a reader has, since a reader does what
its window says (`Reader.actsAs_view`).

A header is *parsed* by asking first whether the window has room for all of
it, and then for each field at its position, which now has to lie inside.
That is `Window.read` (`Reader.Parses.eq`), for each header of a fixed
layout. The one difference is that parsing leaves nothing behind: whoever
parses a header has to know where the next one starts.
-/

namespace PacketCodec

open Bytes (Takes)

/-! ## Fields off the front -/

namespace Bytes

theorem split?_of_le {bs : Bytes} {n : Nat} (h : n ≤ bs.length) :
    bs.split? n = some (bs.take n, bs.drop n) :=
  if_pos (List.length_take_of_le h)

theorem split?_of_lt {bs : Bytes} {n : Nat} (h : n < bs.length) :
    bs.split? n = some (bs.take n, bs[n] :: bs.drop (n + 1)) := by
  rw [split?_of_le h.le, List.drop_eq_getElem_cons h]

theorem lt_length_of_split? {bs front behind : Bytes} {n : Nat} {b : UInt8}
    (h : bs.split? n = some (front, b :: behind)) : n < bs.length := by
  obtain ⟨rfl, rfl⟩ := split?_eq_some.mp h
  rw [List.length_append]
  exact Nat.lt_add_of_pos_right (Nat.succ_pos _)

theorem u8?_eq_uint? (bs : Bytes) :
    bs.u8? = (bs.uint? 1).map fun p => (UInt8.ofNat p.1, p.2) := by
  cases bs with
  | nil => rfl
  | cons b rest => simp [u8?, uint?, split?, beNat]

/-- **A stretch of a stretch** is a stretch of the whole. -/
theorem clamp_clamp (buf : Bytes) (offset : Nat) {length start n : Nat} (h : start + n ≤ length) :
    (buf.clamp offset length).clamp start n = buf.clamp (offset + start) n := by
  unfold clamp
  rw [List.drop_take, List.drop_drop, List.take_take, Nat.min_eq_left (Nat.le_sub_of_add_le' h)]

end Bytes

namespace Reader

variable {α β : Type} {r : Reader}

/-! ## Readers of a stretch of a buffer -/

/-- **The reader covers a stretch of a buffer**, for a protocol. -/
structure Covers (r : Reader) (protocol : String) (buf : Bytes) (offset length : Nat) : Prop where
  /-- Its errors are raised for the protocol. -/
  protocol : r.protocol = protocol
  /-- The stretch lies inside the buffer. -/
  fits : offset + length ≤ buf.length
  /-- The stretch is the window that is read. -/
  window : r.window = ⟨offset, buf.clamp offset length⟩

theorem length_window (r : Reader) : r.window.length = r.length := List.length_drop

theorem length_bytes (r : Reader) : r.window.bytes.length = r.length := List.length_drop

theorem length_of_bytes {bs : Bytes} (h : r.window.bytes = bs) : r.length = bs.length := by
  rw [← length_bytes, h]

theorem length_drop (r : Reader) (start : Nat) :
    (r.window.bytes.drop start).length = r.length - start := by
  rw [List.length_drop, length_bytes]

theorem length_clamp {start n : Nat} (h : start + n ≤ r.length) :
    (r.window.bytes.clamp start n).length = n :=
  Window.length_clamp (h.trans r.length_bytes.ge)

theorem covers_of_ofBuffer {protocol : String} {buf : Bytes} {offset length : Nat}
    (h : ofBuffer protocol buf offset length = .ok r) : r.Covers protocol buf offset length where
  protocol := congrArg View.protocol (view_of_ofBuffer h)
  fits := by
    by_contra hfits
    rw [ofBuffer, dif_neg hfits] at h
    cases h
  window := congrArg View.toWindow (view_of_ofBuffer h)

/-- A reader of a stretch is there exactly when the window can be cut out. -/
theorem ofBuffer_cases (protocol : String) (buf : Bytes) (offset length : Nat) :
    (∃ r : Reader, ofBuffer protocol buf offset length = .ok r
        ∧ r.Covers protocol buf offset length
        ∧ Window.cut protocol buf offset length = .ok r.window)
      ∨ ∃ e, ofBuffer protocol buf offset length = .error e
        ∧ Window.cut protocol buf offset length = .error e := by
  by_cases hfits : offset + length ≤ buf.length
  · obtain ⟨r, hr⟩ : ∃ r, ofBuffer protocol buf offset length = .ok r := ⟨_, dif_pos hfits⟩
    have hcovers := covers_of_ofBuffer hr
    refine .inl ⟨r, hr, hcovers, ?_⟩
    rw [Window.cut_eq_ok]
    exact ⟨hfits, hcovers.window⟩
  · refine .inr ⟨Window.outside protocol buf offset length, dif_neg hfits, ?_⟩
    rw [Window.cut, Window.cut?, if_neg hfits]

namespace Covers

variable {protocol : String} {buf : Bytes} {offset length : Nat}

theorem length_eq (h : r.Covers protocol buf offset length) : r.length = length := by
  rw [← length_window, h.window]
  exact Window.length_clamp h.fits

/-- A stretch of the buffer inside that of the reader is a stretch of its
window. -/
theorem clamp_eq (h : r.Covers protocol buf offset length) {start n : Nat}
    (hfits : start + n ≤ r.length) :
    buf.clamp (offset + start) n = r.window.bytes.clamp start n := by
  rw [h.length_eq] at hfits
  rw [h.window, Bytes.clamp_clamp buf offset hfits]

theorem fits_part (h : r.Covers protocol buf offset length) {start n : Nat}
    (hfits : start + n ≤ r.length) : offset + start + n ≤ buf.length := by
  have hbuf := h.fits
  rw [h.length_eq] at hfits
  omega

end Covers

/-! ## Octets of the window -/

theorem clamp_rest (r : Reader) (start : Nat) :
    r.window.bytes.clamp start (r.length - start) = r.window.bytes.drop start := by
  rw [Bytes.clamp, List.take_of_length_le (length_drop r start).le]

theorem require_of_le {need : Nat} (h : need ≤ r.length) : r.require need = .ok () :=
  if_neg (Nat.not_lt.mpr h)

theorem require_of_lt {need : Nat} (h : r.length < need) :
    r.require need = .error (r.window.tooShort r.protocol need) := if_pos h

theorem View.read_of_le {v : View} {start width : Nat} (h : start + width ≤ v.bytes.length)
    (value : Bytes → α) : v.read start width value = .ok (value (v.bytes.clamp start width)) :=
  if_pos h

theorem slice_of_le {start need : Nat} (h : start + need ≤ r.length) :
    r.slice start need = .ok (r.window.bytes.clamp start need) := by
  rw [r.actsAs_view.slice]
  exact View.read_of_le (h.trans (length_view r).ge) id

theorem rest_of_le {start : Nat} (h : start ≤ r.length) :
    r.rest start = .ok (r.window.bytes.drop start) := by
  rw [r.actsAs_view.rest]
  exact if_pos (h.trans (length_view r).ge)

/-- A word in either order. -/
theorem u32_of_le (order : ByteOrder) {start : Nat} (h : start + 4 ≤ r.length) :
    r.u32 order start = .ok (UInt32.ofNat (order.value (r.window.bytes.clamp start 4))) := by
  have hread := r.actsAs_view.u32 order start
  rw [View.read_of_le (h.trans (length_view r).ge)] at hread
  obtain ⟨a, ha, hvalue⟩ := map_eq_ok.mp hread
  rw [ha, show r.window.bytes.clamp start 4 = r.view.bytes.clamp start 4 from rfl, ← hvalue,
    UInt32.ofNat_toNat]

/-- **The rest of a window** as a window of its own, for another protocol. -/
theorem exists_sub_rest (protocol : String) {start : Nat} (h : start ≤ r.length) :
    ∃ s, r.sub protocol start (r.length - start) = .ok s
      ∧ s.protocol = protocol ∧ s.window = r.window.after start := by
  have hlength := length_view r
  have hfits : start + (r.length - start) ≤ r.view.bytes.length := by
    rw [hlength]
    exact (Nat.add_sub_cancel' h).le
  have hsub := r.actsAs_view.sub protocol start (r.length - start)
  rw [View.sub, if_pos hfits] at hsub
  obtain ⟨s, hs, hview⟩ := map_eq_ok.mp hsub
  refine ⟨s, hs, congrArg View.protocol hview, ?_⟩
  rw [show s.window = _ from congrArg View.toWindow hview, List.take_of_length_le]
  · rfl
  · rw [List.length_drop, hlength]
    exact Nat.le_refl _

/-! ## Accesses -/

/-- **What is accessed is what is taken off the front**, and this leaves
the octets of the window from `stop` on. -/
def Finds (r : Reader) (accessed : Except DecodeError α) (taken : Option (α × Bytes))
    (stop : Nat) : Prop :=
  ∃ a, accessed = .ok a ∧ taken = some (a, r.window.bytes.drop stop)

/-- **An access gives what is taken off the front**: if the `n` octets from
a position on lie inside the window, it has there the value that `front?`
takes off them. -/
def Gives (n : Nat) (access : Reader → Nat → Except DecodeError α)
    (front? : Bytes → Option (α × Bytes)) : Prop :=
  ∀ (r : Reader) (start : Nat), start + n ≤ r.length →
    r.Finds (access r start) (front? (r.window.bytes.drop start)) (start + n)

theorem Finds.pure (a : α) (stop : Nat) :
    r.Finds (.ok a) (some (a, r.window.bytes.drop stop)) stop := ⟨a, rfl, rfl⟩

namespace Gives

variable {m n : Nat} {access : Reader → Nat → Except DecodeError α}
  {front? : Bytes → Option (α × Bytes)}

/-- Going on behind an access. -/
theorem bind (gives : Gives m access front?) {start stop : Nat} {next : α → Except DecodeError β}
    {next? : α × Bytes → Option (β × Bytes)}
    (behind : ∀ a, r.Finds (next a) (next? (a, r.window.bytes.drop (start + m))) stop)
    (room : start + m ≤ r.length := by omega) :
    r.Finds (access r start >>= next) (front? (r.window.bytes.drop start) >>= next?) stop := by
  obtain ⟨a, ha, hfront⟩ := gives r start room
  rw [ha, hfront]
  exact behind a

/-- An access to a word, by what it does on the window. -/
theorem word {ofNat : Nat → α} {toNat : α → Nat} (inverse : ∀ a, ofNat (toNat a) = a)
    (acts : ∀ r start, (access r start).map toNat = r.view.read start n Bytes.beNat) :
    Gives n access fun bs => (bs.uint? n).map fun p => (ofNat p.1, p.2) := by
  intro r start h
  have hread := acts r start
  rw [View.read_of_le (h.trans (length_view r).ge)] at hread
  obtain ⟨a, ha, hvalue⟩ := map_eq_ok.mp hread
  have hroom : n ≤ (r.window.bytes.drop start).length :=
    (Nat.le_sub_of_add_le' h).trans (length_drop r start).ge
  refine ⟨a, ha, ?_⟩
  show ((Bytes.split? (r.window.bytes.drop start) n).map _).map _ = _
  rw [Bytes.split?_of_le hroom, List.drop_drop]
  exact congrArg (fun v => some (v, _)) ((congrArg ofNat hvalue).symm.trans (inverse a))

theorem u8 : Gives 1 Reader.u8 Bytes.u8? := by
  rw [show Bytes.u8? = _ from funext Bytes.u8?_eq_uint?]
  exact word (fun _ => UInt8.ofNat_toNat) fun r => r.actsAs_view.u8

theorem u16 : Gives 2 (fun r => r.u16 .big) Bytes.u16? :=
  word (fun _ => UInt16.ofNat_toNat) fun r => r.actsAs_view.u16 .big

theorem u24 : Gives 3 Reader.u24 Bytes.u24? :=
  word (fun _ => UInt32.ofNat_toNat) fun r => r.actsAs_view.u24

theorem u32 : Gives 4 (fun r => r.u32 .big) Bytes.u32? :=
  word (fun _ => UInt32.ofNat_toNat) fun r => r.actsAs_view.u32 .big

theorem u64 : Gives 8 Reader.u64 Bytes.u64? :=
  word (fun _ => UInt64.ofNat_toNat) fun r => r.actsAs_view.u64

theorem octets (n : Nat) : Gives n (fun r => r.octets n) (Octets.take? n) := by
  intro r start h
  have hread := r.actsAs_view.octets n start
  rw [View.read_of_le (h.trans (length_view r).ge)] at hread
  obtain ⟨o, ho, hbytes⟩ := map_eq_ok.mp hread
  have hlength : ((r.window.bytes.drop start).take n).length = n :=
    (congrArg List.length hbytes).symm.trans o.length_eq
  refine ⟨o, ho, ?_⟩
  rw [Octets.take?, dif_pos hlength, List.drop_drop]
  obtain ⟨bytes, hlen⟩ := o
  cases hbytes
  rfl

end Gives

/-- An access to a field that is there only when `present` says so. -/
def fieldIf (r : Reader) (present : Bool) (access : Reader → Nat → Except DecodeError α)
    (start : Nat) : Except DecodeError (Option α) :=
  if present then (access r start).map some else .ok none

theorem Gives.fieldIf {n : Nat} {access : Reader → Nat → Except DecodeError α}
    {front? : Bytes → Option (α × Bytes)} (gives : Gives n access front?) (present : Bool) :
    Gives (if present then n else 0) (fun r => r.fieldIf present access)
      (Bytes.optional? present front?) := by
  cases present with
  | false => exact fun r start _ => .pure none start
  | true =>
    intro r start h
    obtain ⟨a, ha, hfront⟩ := gives r start h
    refine ⟨some a, ?_, ?_⟩
    · show (access r start).map some = _
      rw [ha]
      rfl
    · rw [Bytes.optional?, if_pos rfl, hfront]
      rfl

/-! ## Parsing -/

/-- **The place of a part of the window** in a buffer where the window is at
`offset`. The part has to lie inside the window. -/
def place (r : Reader) (offset start n : Nat) : Option Nat :=
  if start + n ≤ r.length then some (offset + start) else none

theorem place_of_le {offset start n : Nat} (h : start + n ≤ r.length) :
    r.place offset start n = some (offset + start) :=
  if_pos h

theorem place_rest {offset start : Nat} (h : start ≤ r.length) :
    r.place offset start (r.length - start) = some (offset + start) :=
  place_of_le (Nat.add_sub_cancel' h).le

/-- **Parses a header**: asks for room for all of it, and then for its
fields. -/
def parse (need : Nat) (fields : Reader → Except DecodeError α) (r : Reader) : Steps α := do
  r.require need
  Steps.inside (fields r)

theorem parse_of_lt {need : Nat} {fields : Reader → Except DecodeError α} (h : r.length < need) :
    r.parse need fields = throw (r.window.tooShort r.protocol need) := by
  rw [parse, require_of_lt h]
  rfl

theorem parse_of_le {need : Nat} {fields : Reader → Except DecodeError α} (h : need ≤ r.length)
    {a : α} (ha : fields r = .ok a) : r.parse need fields = pure a := by
  rw [parse, require_of_le h, ha]
  rfl

/-- **The fields of a header are found as it is read off the front**: if the
window has room for its `need` octets, they are where they are looked for. -/
structure Parses (need : Nat) (fields : Reader → Except DecodeError α)
    (front? : Bytes → Option (α × Bytes)) : Prop where
  /-- Read off the front, the header takes as many octets. -/
  takes : Takes need front?
  /-- Its fields are found. -/
  finds : ∀ r : Reader, need ≤ r.length → r.Finds (fields r) (front? (r.window.bytes.drop 0)) need

namespace Parses

variable {need : Nat} {fields : Reader → Except DecodeError α} {front? : Bytes → Option (α × Bytes)}

/-- Either the header is there, and both find it, or both give the error
that it is not. -/
theorem cases (h : Parses need fields front?) {protocol : String} (hr : r.protocol = protocol) :
    (∃ a, need ≤ r.length ∧ front? r.window.bytes = some (a, r.window.bytes.drop need)
        ∧ r.parse need fields = pure a
        ∧ r.window.read protocol need front? = .ok (a, r.window.bytes.drop need))
      ∨ ∃ e, r.parse need fields = throw e
        ∧ r.window.read protocol need front? = .error e := by
  subst hr
  unfold Window.read
  by_cases hroom : need ≤ r.length
  · obtain ⟨a, ha, hfront⟩ := h.finds r hroom
    rw [List.drop_zero] at hfront
    exact .inl ⟨a, hroom, hfront, parse_of_le hroom ha, by rw [hfront]⟩
  · have hlt := Nat.lt_of_not_le hroom
    refine .inr ⟨_, parse_of_lt hlt, ?_⟩
    rw [h.takes.none_of_lt _ (lt_of_eq_of_lt (length_bytes r) hlt)]

/-- **Parsing a header is reading it off the window**, and no field is
looked for outside. -/
theorem eq (h : Parses need fields front?) (r : Reader) :
    r.parse need fields = liftM ((r.window.read r.protocol need front?).map Prod.fst) := by
  obtain ⟨a, -, -, hparse, hread⟩ | ⟨e, hparse, hread⟩ := h.cases rfl
  · rw [hparse, hread]
    rfl
  · rw [hparse, hread]
    rfl

end Parses

end Reader

open Reader (Parses Finds Gives)

/-! ## Headers -/

/-- The fields of the header of a frame. -/
def EthernetHeader.fields (r : Reader) : Except DecodeError EthernetHeader := do
  let dst ← r.octets 6 0
  let src ← r.octets 6 6
  let etherType ← r.u16 .big 12
  return { dst, src, etherType }

theorem EthernetHeader.parses : Parses size fields read? :=
  .mk takes fun r (_ : 14 ≤ r.length) =>
    (Gives.octets 6).bind fun _ => (Gives.octets 6).bind fun _ => Gives.u16.bind fun _ => .pure _ _

/-- The fields of an ARP message. -/
def ArpHeader.fields (r : Reader) : Except DecodeError ArpHeader := do
  let hardwareType ← r.u16 .big 0
  let protocolType ← r.u16 .big 2
  let hardwareAddrLen ← r.u8 4
  let protocolAddrLen ← r.u8 5
  let operation ← r.u16 .big 6
  let senderMac ← r.octets 6 8
  let senderIp ← r.octets 4 14
  let targetMac ← r.octets 6 18
  let targetIp ← r.octets 4 24
  return { hardwareType, protocolType, hardwareAddrLen, protocolAddrLen, operation,
           senderMac, senderIp, targetMac, targetIp }

theorem ArpHeader.parses : Parses size fields read? :=
  .mk takes fun r (_ : 28 ≤ r.length) =>
    Gives.u16.bind fun _ => Gives.u16.bind fun _ => Gives.u8.bind fun _ => Gives.u8.bind fun _ =>
      Gives.u16.bind fun _ => (Gives.octets 6).bind fun _ => (Gives.octets 4).bind fun _ =>
        (Gives.octets 6).bind fun _ => (Gives.octets 4).bind fun _ => .pure _ _

/-- The fields of the fixed header of an IPv6 packet. -/
def Ipv6Header.fields (r : Reader) : Except DecodeError Ipv6Header := do
  let word ← r.u32 .big 0
  let payloadLen ← r.u16 .big 4
  let nextHeader ← r.u8 6
  let hopLimit ← r.u8 7
  let src ← r.octets 16 8
  let dst ← r.octets 16 24
  return { version := (versionBits.get word).toUInt8
           trafficClass := (trafficClassBits.get word).toUInt8
           flowLabel := flowLabelBits.get word
           payloadLen, nextHeader, hopLimit, src, dst }

theorem Ipv6Header.parses : Parses size fields read? :=
  .mk takes fun r (_ : 40 ≤ r.length) =>
    Gives.u32.bind fun _ => Gives.u16.bind fun _ => Gives.u8.bind fun _ => Gives.u8.bind fun _ =>
      (Gives.octets 16).bind fun _ => (Gives.octets 16).bind fun _ => .pure _ _

/-- The fields of a fragment header. -/
def FragmentHeader.fields (r : Reader) : Except DecodeError FragmentHeader := do
  let nextHeader ← r.u8 0
  let reserved ← r.u8 1
  let word := (← r.u16 .big 2).toUInt32
  let identification ← r.u32 .big 4
  return { nextHeader, reserved
           fragOffset := (fragOffsetBits.get word).toUInt16
           res := (resBits.get word).toUInt8
           moreFrags := moreFragsBit.isSet word
           identification }

theorem FragmentHeader.parses : Parses size fields read? :=
  .mk takes fun r (_ : 8 ≤ r.length) =>
    Gives.u8.bind fun _ => Gives.u8.bind fun _ => Gives.u16.bind fun _ => Gives.u32.bind fun _ =>
      .pure _ _

/-- The fields of the header of an ICMPv6 message. -/
def Icmpv6Header.fields (r : Reader) : Except DecodeError Icmpv6Header := do
  let icmpType ← r.u8 0
  let code ← r.u8 1
  let checksum ← r.u16 .big 2
  return { icmpType, code, checksum }

theorem Icmpv6Header.parses : Parses size fields read? :=
  .mk takes fun r (_ : 4 ≤ r.length) =>
    Gives.u8.bind fun _ => Gives.u8.bind fun _ => Gives.u16.bind fun _ => .pure _ _

/-- The fields of the header of an echo message. -/
def EchoHeader.fields (r : Reader) : Except DecodeError EchoHeader := do
  let identifier ← r.u16 .big 0
  let sequenceNumber ← r.u16 .big 2
  return { identifier, sequenceNumber }

theorem EchoHeader.parses : Parses size fields read? :=
  .mk takes fun r (_ : 4 ≤ r.length) =>
    Gives.u16.bind fun _ => Gives.u16.bind fun _ => .pure _ _

/-- The first word and the target of a neighbor message. -/
def neighborFields (r : Reader) : Except DecodeError (UInt32 × Ipv6Addr) := do
  let word ← r.u32 .big 0
  let target ← r.octets 16 4
  return (word, target)

theorem neighborFields_parses :
    Parses neighborFixedSize neighborFields SolicitationHeader.fixed? :=
  .mk SolicitationHeader.takes fun r (_ : 20 ≤ r.length) =>
    Gives.u32.bind fun _ => (Gives.octets 16).bind fun _ => .pure _ _

/-- The fields of the header of a datagram. -/
def UdpHeader.fields (r : Reader) : Except DecodeError UdpHeader := do
  let srcPort ← r.u16 .big 0
  let dstPort ← r.u16 .big 2
  let lengthField ← r.u16 .big 4
  let checksum ← r.u16 .big 6
  return { srcPort, dstPort, lengthField, checksum }

theorem UdpHeader.parses : Parses size fields read? :=
  .mk takes fun r (_ : 8 ≤ r.length) =>
    Gives.u16.bind fun _ => Gives.u16.bind fun _ => Gives.u16.bind fun _ => Gives.u16.bind fun _ =>
      .pure _ _

/-- The fields of an SCTP header that are in front of the chunks. -/
def SctpHeader.fixedFields (r : Reader) :
    Except DecodeError (UInt16 × UInt16 × UInt32 × UInt32) := do
  let srcPort ← r.u16 .big 0
  let dstPort ← r.u16 .big 2
  let verificationTag ← r.u32 .big 4
  let checksum ← r.u32 .big 8
  return (srcPort, dstPort, verificationTag, checksum)

theorem SctpHeader.parses : Parses size fixedFields fixed? :=
  .mk takes fun r (_ : 12 ≤ r.length) =>
    Gives.u16.bind fun _ => Gives.u16.bind fun _ => Gives.u32.bind fun _ => Gives.u32.bind fun _ =>
      .pure _ _

/-- The fields that every GTP message has. -/
def GtpHeader.mandatoryFields (r : Reader) : Except DecodeError GtpHeader := do
  let flags := (← r.u8 0).toUInt32
  let messageType ← r.u8 1
  let lengthField ← r.u16 .big 2
  let teid ← r.u32 .big 4
  return { version := (versionBits.get flags).toUInt8
           protocolType := protocolTypeBit.isSet flags
           reserved := reservedBit.isSet flags
           extFlag := extBit.isSet flags
           seqFlag := seqBit.isSet flags
           npduFlag := npduBit.isSet flags
           messageType, lengthField, teid
           sequenceNumber := 0
           npduNumber := 0
           nextExtType := GtpExtensionType.noMore
           extensions := []
           chainTail := GtpExtensionType.noMore
           truncated := false }

theorem GtpHeader.mandatoryFields_parses : Parses size mandatoryFields mandatory? :=
  .mk takes fun r (_ : 8 ≤ r.length) =>
    Gives.u8.bind fun _ => Gives.u8.bind fun _ => Gives.u16.bind fun _ => Gives.u32.bind fun _ =>
      .pure _ _

/-- The fields that the flags of a message may call for. -/
def GtpHeader.optionalFields (h : GtpHeader) (r : Reader) : Except DecodeError GtpHeader := do
  let sequenceNumber ← r.u16 .big 8
  let npduNumber ← r.u8 10
  let nextExtType ← r.u8 11
  return { h with sequenceNumber, npduNumber, nextExtType }

/-- Parses the part that the flags of a message may call for. -/
def GtpHeader.parseOptional (h : GtpHeader) (r : Reader) : Steps GtpHeader :=
  if h.hasOptional then r.parse (size + optionalSize) h.optionalFields else return h

theorem GtpHeader.optionalFields_finds {h : GtpHeader} (hopt : h.hasOptional) {r : Reader}
    (hroom : size + optionalSize ≤ r.length) :
    r.Finds (h.optionalFields r) (h.optional? (r.window.bytes.drop size))
      (size + optionalSize) := by
  rw [optional?, if_pos hopt]
  have hroom' : 12 ≤ r.length := hroom
  exact Gives.u16.bind fun _ => Gives.u8.bind fun _ => Gives.u8.bind fun _ => .pure _ _

/-- Either the part is there, or it is not called for, or the window is too
short for it. -/
theorem GtpHeader.parseOptional_cases (h : GtpHeader) {r : Reader} (hr : r.protocol = protocol)
    (hroom : size ≤ r.length) :
    (∃ h', h.fixedLength ≤ r.length ∧ h.parseOptional r = pure h'
        ∧ h.optional? (r.window.bytes.drop size)
            = some (h', r.window.bytes.drop h.fixedLength))
      ∨ h.parseOptional r = throw (r.window.tooShort protocol (size + optionalSize))
        ∧ h.optional? (r.window.bytes.drop size) = none := by
  have htakes := h.optional?_takes
  by_cases hopt : h.hasOptional
  · rw [fixedLength, parseOptional, if_pos hopt, if_pos hopt]
    rw [if_pos hopt] at htakes
    by_cases hlong : size + optionalSize ≤ r.length
    · obtain ⟨h', hfields, hfront⟩ := optionalFields_finds hopt hlong
      exact .inl ⟨h', hlong, Reader.parse_of_le hlong hfields, hfront⟩
    · have hlt := Nat.lt_of_not_le hlong
      refine .inr ⟨?_, htakes.none_of_lt _ ?_⟩
      · rw [Reader.parse_of_lt hlt, hr]
      · rw [Reader.length_drop]
        exact Nat.sub_lt_left_of_lt_add hroom hlt
  · rw [fixedLength, parseOptional, optional?, if_neg hopt, if_neg hopt, if_neg hopt]
    exact .inl ⟨h, hroom, rfl, rfl⟩

end PacketCodec
