import PacketCodec.Proofs.Origin
import PacketCodec.Proofs.RegionSteps

/-!
# Decoding a buffer by position

A decoder is handed a whole buffer and the place of its window in it, an
offset and a length. It passes the buffer on uncut – to the decoders of
options and extension headers, and to that of its payload – each time with a
place that it has computed. Every decoder of the library is written here in
that way. It asks once whether its window is long enough for its fields,
which may fail (`Reader.require`); from then on every access of a reader has
to lie inside the window (`Steps.inside`), and so does every place that is
handed on or kept (`Reader.place`). One that does not is a step that is not
possible, as is a difference below zero (`Steps`).

Nothing else keeps such a decoder inside its window. That it stays there is
what the lemmas say, one after each decoder: all steps are possible, and
they come to what the decoder makes of the window alone. What a length field
declares is brought into the window before it is used, whatever it says, and
a list of elements or a chain of extension headers does not reach behind its
region where a number is subtracted from it.

`PayloadSteps.Follows` is the relation between the two ways of decoding a
payload. It goes from the layers below to a layer (`Context.formatSteps_eq`)
and so, by induction over the layers that are allowed, to all of them:
decoding by position is `Context.payload` (`Context.payloadSteps_follows`)
and `Context.decode` (`Context.decodeSteps_eq`). A decoder from elsewhere
counts as one step, on the window that is cut out for it.
-/

namespace PacketCodec

open Bytes (u8?_takes u32?_takes)
open Reader (Gives)
open Steps (inside)

/-! ## Payloads -/

/-- **The steps of decoding a payload**, by the number that selects its
decoder, the whole buffer, and its place in that. -/
abbrev PayloadSteps := Selector → Bytes → Nat → Nat → Option (Option Packet)

/-- **What is decoded by position follows the windows**: at a place that
lies inside the buffer, it is what the window there is decoded to. -/
def PayloadSteps.Follows (steps : PayloadSteps) (payload : Selector → Window → Option Packet) :
    Prop :=
  ∀ key buf offset length, offset + length ≤ buf.length →
    steps key buf offset length = some (payload key (buf.region offset length))

section Payload

variable {steps : PayloadSteps} {payload : Selector → Window → Option Packet} {r : Reader}
  {protocol : String} {buf : Bytes} {offset length : Nat}

/-- A payload inside the stretch of a reader is a part of its window. -/
theorem PayloadSteps.Follows.part (h : steps.Follows payload)
    (hr : r.Covers protocol buf offset length) (key : Selector) {start n : Nat}
    (hfits : start + n ≤ r.length) :
    steps key buf (offset + start) n
      = some (payload key ⟨r.window.offset + start, r.window.bytes.clamp start n⟩) := by
  rw [h key buf _ _ (hr.fits_part hfits), hr.region_eq hfits]

/-- A payload up to the end of the stretch is the rest of the window. -/
theorem PayloadSteps.Follows.rest (h : steps.Follows payload)
    (hr : r.Covers protocol buf offset length) (key : Selector) {start : Nat}
    (hle : start ≤ r.length) :
    steps key buf (offset + start) (r.length - start)
      = some (payload key (r.window.after start)) := by
  rw [h.part hr key (Nat.add_sub_cancel' hle).le, r.clamp_rest]
  rfl

end Payload

/-! ## Frames -/

/-- Everything from a position on, which may be the end of the octets but
not lie behind it. -/
def Bytes.from? (bs : Bytes) (start : Nat) : Option Bytes :=
  if start ≤ bs.length then some (bs.drop start) else none

/-- A frame over its decoded payload; `kept` stands in for one that would
not be written as the octets at the front of the body. Whatever the payload
does not claim is pad. -/
def EthernetHeader.overPayload (h : EthernetHeader) (fcs : Option UInt32) (body kept : Bytes)
    (p : Option Packet) : Option Packet := do
  let p := p.map fun p => if p.toBytes.isPrefixOf body then p else .unknown kept
  let pad ← body.from? (p.elim 0 fun p => p.toBytes.length)
  return .ofCarrier (.ethernet h pad fcs) p

theorem EthernetHeader.overPayload_eq (h : EthernetHeader) (fcs : Option UInt32) (body : Bytes)
    (p : Option Packet) : h.overPayload fcs body body p = some (h.frame fcs body p) := by
  cases p with
  | none => rfl
  | some p =>
    rw [overPayload, frame]
    by_cases hprefix : p.toBytes.isPrefixOf body
    · have hle := (List.isPrefixOf_iff_prefix.mp hprefix).length_le
      simp only [Option.map_some, if_pos hprefix, Option.elim_some, Bytes.from?, if_pos hle]
      rfl
    · have hfrom : body.from? (Packet.unknown body).toBytes.length = some [] := by
        rw [show (Packet.unknown body).toBytes = body from rfl, Bytes.from?,
          if_pos (Nat.le_refl _), List.drop_length]
      simp only [Option.map_some, if_neg hprefix, Option.elim_some, hfrom]
      rfl

/-- Number of octets of a frame behind its body. -/
def EthernetHeader.tailSize (withFcs : Bool) : Nat := if withFcs then fcsSize else 0

/-- The frame check sequence, in the last octets of a window that ends with
one. -/
def EthernetHeader.fcsSteps (withFcs : Bool) (r : Reader) : Steps (Option UInt32) :=
  if withFcs then do return some (← inside (r.u32 .little (← r.length.psub fcsSize)))
  else return none

theorem EthernetHeader.fcsSteps_eq {withFcs : Bool} {r : Reader}
    (h : size + tailSize withFcs ≤ r.length) :
    fcsSteps withFcs r = pure (if withFcs then
      some (UInt32.ofNat (Bytes.leNat (r.window.bytes.drop (r.length - tailSize withFcs))))
      else none) := by
  cases withFcs with
  | false => rfl
  | true =>
    have hroom : fcsSize ≤ r.length := Nat.le_of_add_left_le h
    have hclamp := r.clamp_rest (r.length - fcsSize)
    rw [Nat.sub_sub_self hroom] at hclamp
    rw [fcsSteps, if_pos rfl, Nat.psub_eq_sub hroom, Steps.some_bind,
      Reader.u32_of_le .little (Nat.sub_add_cancel hroom).le]
    show (pure (some (UInt32.ofNat (Bytes.leNat (r.window.bytes.clamp _ fcsSize)))) :
      Steps (Option UInt32)) = _
    rw [hclamp]
    rfl

/-- The steps of decoding a frame. -/
def EthernetHeader.steps (withFcs : Bool) (payload : PayloadSteps) (buf : Bytes)
    (offset length : Nat) : Steps Packet := do
  let r ← Reader.ofBuffer protocol buf offset length
  r.require (size + tailSize withFcs)
  let h ← inside (fields r)
  let bodyLength ← (← r.length.psub size).psub (tailSize withFcs)
  let fcs ← fcsSteps withFcs r
  let bodyPlace ← r.place offset size bodyLength
  let p ← payload (.etherType h.etherType) buf bodyPlace bodyLength
  let body ← inside (r.slice size bodyLength)
  h.overPayload fcs body (buf.clamp bodyPlace bodyLength) p

section Layers

variable {below : PayloadSteps} {payload : Selector → Window → Option Packet} {buf : Bytes}
  {offset length : Nat}

theorem EthernetHeader.steps_eq (hbelow : below.Follows payload) (withFcs : Bool) :
    steps withFcs below buf offset length
      = liftM (Window.cut protocol buf offset length >>= fun w =>
          (readFrame withFcs w).map (Peeled.assemble payload)) := by
  refine Reader.ofBuffer_bind fun r hr => ?_
  have hlength := Reader.length_window r
  by_cases hlt : r.length < size + tailSize withFcs
  · have hshort : r.window.length < size + tailSize withFcs := hlength.trans_lt hlt
    rw [Reader.require_of_lt hlt, hr.protocol]
    show _ = liftM ((if r.window.length < size + tailSize withFcs then _ else _ :
      Except DecodeError Peeled).map _)
    rw [if_pos hshort]
    rfl
  · have hle := Nat.not_lt.mp hlt
    have hlong : ¬r.window.length < size + tailSize withFcs := hlength.symm ▸ hlt
    obtain ⟨h, hfields, hfront⟩ := parses.finds r (Nat.le_of_add_right_le hle)
    have hbody : size + (r.length - size - tailSize withFcs) ≤ r.length := by omega
    -- The octets behind the body are the last ones of what is behind the header.
    have htail : (r.window.bytes.drop size).drop (r.length - size - tailSize withFcs)
        = r.window.bytes.drop (r.length - tailSize withFcs) := by
      rw [List.drop_drop]
      congr 1
      omega
    rw [Reader.require_of_le hle, Steps.ok_bind, hfields, Steps.inside_ok_bind,
      Nat.psub_eq_sub (by omega), Steps.some_bind, Nat.psub_eq_sub (by omega), Steps.some_bind,
      fcsSteps_eq hle, pure_bind, Reader.place_of_le hbody, Steps.some_bind,
      hbelow.part hr _ hbody, Steps.some_bind, Reader.slice_of_le hbody, Steps.inside_ok_bind,
      hr.clamp_eq hbody, overPayload_eq, ← htail, ← r.length_drop]
    show _ = liftM ((if r.window.length < size + tailSize withFcs then _ else _ :
      Except DecodeError Peeled).map _)
    rw [if_neg hlong, Window.read_eq_ok.mpr hfront]
    rfl

/-! ## IPv6 -/

/-- The steps of decoding an IPv6 packet. -/
def Ipv6Header.steps (payload : PayloadSteps) (buf : Bytes) (offset length : Nat) :
    Steps Packet := do
  let r ← Reader.ofBuffer protocol buf offset length
  let h ← r.parse size fields
  let extent := h.payloadExtent (← r.length.psub size)
  let p ← payload (.ipProtocol h.nextHeader) buf (← r.place offset size extent) extent
  return .ofCarrier (.ipv6 h) p

theorem Ipv6Header.steps_eq (hbelow : below.Follows payload) (ctx : Context) :
    steps below buf offset length
      = liftM (Window.cut protocol buf offset length >>= fun w =>
          (ctx.peel .ipv6 w).map (Peeled.assemble payload)) := by
  refine Reader.ofBuffer_bind fun r hr => ?_
  rw [Context.peel]
  obtain ⟨h, hroom, -, hparse, hread⟩ | ⟨e, hparse, hread⟩ := parses.cases hr.protocol
  · have hle : h.payloadExtent (r.length - size) ≤ r.length - size := by
      rw [payloadExtent]
      split
      · exact Nat.le_refl _
      · exact Nat.min_le_right _ _
    have hfits : size + h.payloadExtent (r.length - size) ≤ r.length := by omega
    rw [hparse, hread, pure_bind, Nat.psub_eq_sub hroom, Steps.some_bind]
    dsimp only
    rw [Reader.place_of_le hfits, Steps.some_bind, hbelow.part hr _ hfits, Steps.some_bind,
      ← r.length_drop]
    rfl
  · rw [hparse, hread]
    rfl

/-! ## Extension headers of IPv6 -/

/-- The payload of an options header, which starts behind its extent if the
window does not end before that. -/
def OptionsHeader.behindExtent (nextHeader : IpProtocol) (r : Reader) (extent : Nat)
    (payload : PayloadSteps) (buf : Bytes) (offset : Nat) : Option (Option Packet) :=
  if extent ≤ r.length then do
    let left ← r.length.psub extent
    payload (.ipProtocol nextHeader) buf (← r.place offset extent left) left
  else some none

/-- The part of a string from a position to the end of an extent, or to the
end of the string if that comes first; a position behind that end is set
back to it. -/
theorem Bytes.clamp_min (bs : Bytes) (start extent : Nat) :
    bs.clamp (min start (min extent bs.length))
        (min extent bs.length - min start (min extent bs.length))
      = (bs.take extent).drop start := by
  have htake : bs.take (min extent bs.length) = bs.take extent :=
    List.take_eq_take_iff.mpr (by omega)
  rw [clamp, ← List.drop_take, htake]
  by_cases h : start ≤ min extent bs.length
  · rw [Nat.min_eq_left h]
  · have hlength : (bs.take extent).length = min extent bs.length := List.length_take
    rw [Nat.min_eq_right (Nat.le_of_not_le h), List.drop_eq_nil_of_le hlength.le,
      List.drop_eq_nil_of_le (by omega)]

/-- The steps of decoding an options header. -/
noncomputable def OptionsHeader.steps (kind : OptionsKind)
    (registry : Registry Ipv6OptionType (Window → Except DecodeError Ipv6Option))
    (payload : PayloadSteps) (buf : Bytes) (offset length : Nat) : Steps Packet := do
  let r ← Reader.ofBuffer kind.protocol buf offset length
  r.require 2
  let nextHeader ← inside (r.u8 0)
  let hdrExtLen ← inside (r.u8 1)
  let extent := extensionExtent hdrExtLen
  let stop := min extent r.length
  let room ← stop.psub 2
  let (options, cut) ← optionSteps Ipv6Option.readers registry Ipv6Option.length buf
    (← r.place offset 2 room) room
  let consumed := min (2 + totalSize Ipv6Option.length options) stop
  let unparsed ← inside (r.slice consumed (← stop.psub consumed))
  let p ← behindExtent nextHeader r extent payload buf offset
  return .ofCarrier
    (.options kind { nextHeader, hdrExtLen, options, truncated := cut || decide (stop < extent) }
      unparsed) p

theorem OptionsHeader.behindExtent_eq (hbelow : below.Follows payload) {r : Reader}
    {protocol : String} (hr : r.Covers protocol buf offset length) (nextHeader : IpProtocol)
    (extent : Nat) :
    behindExtent nextHeader r extent below buf offset
      = some ((if decide (r.window.length < extent) then Inner.nothing
          else .dispatch (.ipProtocol nextHeader) (r.window.after extent)).payload payload) := by
  rw [behindExtent, Reader.length_window]
  by_cases hle : extent ≤ r.length
  · rw [if_pos hle, decide_eq_false (Nat.not_lt.mpr hle), Nat.psub_eq_sub hle]
    show (r.place offset extent (r.length - extent) >>= fun place => _) = _
    rw [Reader.place_rest hle]
    exact hbelow.rest hr _ hle
  · rw [if_neg hle, decide_eq_true (Nat.lt_of_not_le hle)]
    rfl

theorem OptionsHeader.steps_eq (hbelow : below.Follows payload) (kind : OptionsKind)
    (registry : Registry Ipv6OptionType (Window → Except DecodeError Ipv6Option)) :
    steps kind registry below buf offset length
      = liftM (Window.cut kind.protocol buf offset length >>= fun w =>
          (read kind (fun v => registry.get (v.bytes.headD 0) v) w).map fun p =>
            .ofCarrier (.options kind p.1 p.2.1) (p.2.2.payload payload)) := by
  refine Reader.ofBuffer_bind fun r hr => ?_
  have hwlength := Reader.length_window r
  unfold read
  split
  · next nextHeader hdrExtLen rest hw =>
    have hlen : r.length = rest.length + 2 := Reader.length_of_bytes hw
    obtain ⟨m, hextent⟩ : ∃ m, extensionExtent hdrExtLen = m + 2 :=
      ⟨hdrExtLen.toNat * 8 + 6, by rw [extensionExtent]; omega⟩
    have hstop : 2 ≤ min (m + 2) r.length := by omega
    have hregion : buf.region (offset + 2) (min (m + 2) r.length - 2)
        = ⟨r.window.offset + 2, rest.take m⟩ := by
      rw [hr.region_eq (by omega), Bytes.clamp, hw]
      exact congrArg _ (List.take_eq_take_iff.mpr (by simp only [List.drop, hlen]; omega))
    rw [Reader.require_of_le (by omega), Steps.ok_bind,
      Reader.u8_of_drop (congrArg (List.drop 0) hw), Steps.inside_ok_bind,
      Reader.u8_of_drop (congrArg (List.drop 1) hw), Steps.inside_ok_bind]
    simp only [hextent]
    rw [Nat.psub_eq_sub hstop, Steps.some_bind, Reader.place_of_le (by omega), Steps.some_bind,
      optionSteps_eq Ipv6Option.length_pos (hr.fits_part (by omega)), pure_bind, hregion,
      Nat.add_sub_cancel]
    -- Only what the options take up matters from here on. A decoder from elsewhere may have
    -- returned options that reach behind the extent, so `consumed` is brought back into it.
    generalize Window.elements _ _ Ipv6Option.length = es
    obtain ⟨options, cut⟩ := es
    dsimp only
    have hunparsed : r.window.bytes.clamp
        (min (2 + totalSize Ipv6Option.length options) (min (m + 2) r.length))
        (min (m + 2) r.length
          - min (2 + totalSize Ipv6Option.length options) (min (m + 2) r.length))
          = (rest.take m).drop (totalSize Ipv6Option.length options) := by
      rw [← Reader.length_bytes r, Bytes.clamp_min, hw, Nat.add_comm 2]
      rfl
    -- The list counts as cut short exactly when the payload is missing.
    have hshort : decide (min (m + 2) r.length < m + 2) = decide (r.window.length < m + 2) :=
      decide_eq_decide.mpr (by omega)
    rw [Nat.psub_eq_sub (Nat.min_le_right _ _), Steps.some_bind, Reader.slice_of_le (by omega),
      Steps.inside_ok_bind, hunparsed, behindExtent_eq hbelow hr, Steps.some_bind, hshort]
    rfl
  · next hw =>
    have hlt : r.length < 2 := Reader.length_bytes r ▸ Bytes.length_lt_two hw
    rw [Reader.require_of_lt hlt, hr.protocol]
    rfl

/-- The addresses of a source route, one behind the other. -/
def RoutingData.addressesAt (r : Reader) : (n start : Nat) → Except DecodeError (List Ipv6Addr)
  | 0, _ => .ok []
  | n + 1, start => do
    let a ← r.octets 16 start
    let more ← addressesAt r n (start + 16)
    return a :: more

theorem RoutingData.addresses_gives (n : Nat) :
    Gives (16 * n) (fun r => addressesAt r n) (addresses? n) := by
  induction n with
  | zero => exact fun r start _ => .pure [] start
  | succ n ih =>
    intro r start h
    rw [Nat.mul_succ] at h
    rw [show start + 16 * (n + 1) = start + 16 + 16 * n by omega]
    exact (Gives.octets 16).bind fun _ => ih.bind fun _ => .pure _ _

/-- The part of a routing header that depends on its type. -/
def RoutingHeader.dataSteps (r : Reader) (hdrExtLen : UInt8) (t : RoutingType) :
    Steps RoutingData :=
  if t = RoutingType.type0 then
    if hdrExtLen % 2 = 1 then throw (r.invalid 1 "hdr_ext_len" hdrExtLen.toNat)
    else do
      let addresses ← inside (RoutingData.addressesAt r (hdrExtLen.toNat / 2) 8)
      let reserved ← inside (r.u32 .big 4)
      return .type0 reserved addresses
  else do return .unknown t (← inside (r.slice 4 (← (extensionExtent hdrExtLen).psub 4)))

theorem RoutingHeader.dataSteps_eq {r : Reader} (hr : r.protocol = protocol) (hdrExtLen : UInt8)
    (t : RoutingType) {data behind : Bytes} (hdrop : r.window.bytes.drop 4 = data ++ behind)
    (hdata : data.length + 4 = extensionExtent hdrExtLen) :
    dataSteps r hdrExtLen t = liftM (readData r.window hdrExtLen t data) := by
  have hlength := congrArg List.length hdrop
  rw [List.length_drop, Reader.length_bytes, List.length_append] at hlength
  have hextent : extensionExtent hdrExtLen = hdrExtLen.toNat * 8 + 8 := by
    rw [extensionExtent, Nat.succ_mul]
  rw [dataSteps, readData]
  by_cases ht : t = RoutingType.type0
  · by_cases hodd : hdrExtLen % 2 = 1
    · rw [if_pos ht, if_pos ht, if_pos hodd, if_pos hodd, ← hr]
      rfl
    · obtain ⟨⟨route, rest⟩, hroute⟩ := exists_route hdrExtLen (by omega : data.length = _)
      rw [if_pos ht, if_pos ht, if_neg hodd, if_neg hodd, hroute]
      simp only [RoutingData.type0?, Bytes.bind_eq_some, Bytes.return_eq_some] at hroute
      obtain ⟨reserved, front, hreserved, addresses, _, haddresses, rfl, _⟩ := hroute
      obtain ⟨hfour, rfl⟩ := u32?_takes.eq_drop hreserved
      have hdrop' : r.window.bytes.drop 8 = data.drop 4 ++ behind := by
        rw [← List.drop_append_of_le_length hfour, ← hdrop, List.drop_drop]
      rw [(RoutingData.addresses_gives _).eq_ok_of_append (RoutingData.addresses?_takes _)
          haddresses hdrop' (by omega),
        Gives.u32.eq_ok_of_append u32?_takes hreserved hdrop (by omega)]
      rfl
  · rw [if_neg ht, if_neg ht, Nat.psub_eq_sub (by omega), Steps.some_bind,
      Reader.slice_of_le (by omega), Bytes.clamp, hdrop, ← hdata, Nat.add_sub_cancel,
      List.take_left]
    rfl

/-- The steps of parsing a routing header, which has to lie inside the
window. -/
def RoutingHeader.parseSteps (r : Reader) : Steps RoutingHeader := do
  r.require 4
  let hdrExtLen ← inside (r.u8 1)
  let extent := extensionExtent hdrExtLen
  if r.length < extent then throw (r.inconsistent 0 "hdr_ext_len" extent)
  let t ← inside (r.u8 2)
  let data ← dataSteps r hdrExtLen t
  let nextHeader ← inside (r.u8 0)
  let segmentsLeft ← inside (r.u8 3)
  return { nextHeader, hdrExtLen, segmentsLeft, data }

/-- The steps of decoding a routing header. -/
def RoutingHeader.steps (payload : PayloadSteps) (buf : Bytes) (offset length : Nat) :
    Steps Packet := do
  let r ← Reader.ofBuffer protocol buf offset length
  let h ← parseSteps r
  let extent := extensionExtent h.hdrExtLen
  let left ← r.length.psub extent
  let p ← payload (.ipProtocol h.nextHeader) buf (← r.place offset extent left) left
  return .ofCarrier (.routing h) p

theorem RoutingHeader.steps_eq (hbelow : below.Follows payload) :
    steps below buf offset length
      = liftM (Window.cut protocol buf offset length >>= fun w =>
          (read w).map fun p => .ofCarrier (.routing p.1) (p.2.payload payload)) := by
  refine Reader.ofBuffer_bind fun r hr => ?_
  unfold read
  split
  · next nextHeader hdrExtLen t segmentsLeft rest hw =>
    have hlen : r.length = rest.length + 4 := Reader.length_of_bytes hw
    obtain ⟨m, hextent⟩ : ∃ m, extensionExtent hdrExtLen = m + 4 :=
      ⟨hdrExtLen.toNat * 8 + 4, by rw [extensionExtent]; omega⟩
    rw [parseSteps, Reader.require_of_le (by omega),
      Reader.u8_of_drop (congrArg (List.drop 1) hw)]
    simp only [Steps.ok_bind, Steps.inside_ok_bind, hextent, Nat.add_sub_cancel]
    by_cases hle : m + 4 ≤ r.length
    · have hdrop : r.window.bytes.drop 4 = rest.take m ++ rest.drop m := by
        rw [hw, List.take_append_drop]
        rfl
      have hdata : (rest.take m).length + 4 = extensionExtent hdrExtLen := by
        rw [List.length_take_of_le (by omega), hextent]
      rw [if_neg (Nat.not_lt.mpr hle), Bytes.split?_of_le (by omega),
        Reader.u8_of_drop (congrArg (List.drop 2) hw), Steps.inside_ok_bind,
        dataSteps_eq hr.protocol hdrExtLen t hdrop hdata]
      dsimp only
      cases readData r.window hdrExtLen t (rest.take m) with
      | error e => rfl
      | ok data =>
        rw [Steps.ok_bind, Reader.u8_of_drop (congrArg (List.drop 0) hw), Steps.inside_ok_bind,
          Reader.u8_of_drop (congrArg (List.drop 3) hw), Steps.inside_ok_bind, pure_bind]
        simp only [hextent]
        rw [Nat.psub_eq_sub hle, Steps.some_bind, Reader.place_rest hle, Steps.some_bind,
          hbelow.rest hr _ hle]
        rfl
    · have hsplit : Bytes.split? rest m = none :=
        (Bytes.split?_takes m).none_of_lt rest (by omega)
      rw [if_pos (Nat.lt_of_not_le hle), hsplit, ← hr.protocol]
      rfl
  · next hw =>
    have hlt : r.length < 4 := Reader.length_bytes r ▸ Bytes.length_lt_four hw
    rw [parseSteps, Reader.require_of_lt hlt, hr.protocol]
    rfl

/-- The steps of decoding a fragment. Only the first one is decoded any
further. -/
def FragmentHeader.steps (payload : PayloadSteps) (buf : Bytes) (offset length : Nat) :
    Steps Packet := do
  let r ← Reader.ofBuffer protocol buf offset length
  let h ← r.parse size fields
  let left ← r.length.psub size
  let place ← r.place offset size left
  if h.fragOffset = 0 then
    return .ofCarrier (.fragment h) (← payload (.ipProtocol h.nextHeader) buf place left)
  else if 0 < left then return .carry (.fragment h) (.unknown (buf.clamp place left))
  else return .bare (.fragment h)

theorem FragmentHeader.steps_eq (hbelow : below.Follows payload) :
    steps below buf offset length
      = liftM (Window.cut protocol buf offset length >>= fun w =>
          (read w).map fun p => .ofCarrier (.fragment p.1) (p.2.payload payload)) := by
  refine Reader.ofBuffer_bind fun r hr => ?_
  rw [read]
  obtain ⟨h, hroom, -, hparse, hread⟩ | ⟨e, hparse, hread⟩ := parses.cases hr.protocol
  · rw [hparse, hread, pure_bind, Nat.psub_eq_sub hroom, Steps.some_bind,
      Reader.place_rest hroom, Steps.some_bind]
    by_cases hfirst : h.fragOffset = 0
    · rw [if_pos hfirst, hbelow.rest hr _ hroom]
      show _ = liftM (pure (Packet.ofCarrier _ (Inner.payload payload (if _ then _ else _))) :
        Except DecodeError Packet)
      rw [if_pos hfirst]
      rfl
    · rw [if_neg hfirst]
      show _ = liftM (pure (Packet.ofCarrier _ (Inner.payload payload (if _ then _ else _))) :
        Except DecodeError Packet)
      rw [if_neg hfirst, Inner.payload_keep, hr.clamp_eq (Nat.add_sub_cancel' hroom).le,
        Reader.clamp_rest, ← r.length_drop]
      cases r.window.bytes.drop size <;> rfl
  · rw [hparse, hread]
    rfl

/-! ## ICMPv6 -/

/-- The steps of decoding an ICMPv6 message. -/
def Icmpv6Header.steps (payload : PayloadSteps) (buf : Bytes) (offset length : Nat) :
    Steps Packet := do
  let r ← Reader.ofBuffer protocol buf offset length
  let h ← r.parse size fields
  let left ← r.length.psub size
  let p ← payload (.icmpv6Type h.icmpType) buf (← r.place offset size left) left
  return .ofCarrier (.icmpv6 h) p

theorem Icmpv6Header.steps_eq (hbelow : below.Follows payload) :
    steps below buf offset length
      = liftM (Window.cut protocol buf offset length >>= fun w =>
          (read w).map fun p => .ofCarrier (.icmpv6 p.1) (p.2.payload payload)) := by
  refine Reader.ofBuffer_bind fun r hr => ?_
  rw [read]
  obtain ⟨h, hroom, -, hparse, hread⟩ | ⟨e, hparse, hread⟩ := parses.cases hr.protocol
  · rw [hparse, hread, pure_bind, Nat.psub_eq_sub hroom, Steps.some_bind,
      Reader.place_rest hroom, Steps.some_bind, hbelow.rest hr _ hroom]
    rfl
  · rw [hparse, hread]
    rfl

/-- The steps of decoding an echo message, whose data is kept as it is. -/
def EchoHeader.steps (buf : Bytes) (offset length : Nat) : Steps Packet := do
  let r ← Reader.ofBuffer protocol buf offset length
  let h ← r.parse size fields
  let data ← inside (r.rest size)
  return .ofCarrier (.echo h) (if data.isEmpty then none else some (.unknown data))

theorem EchoHeader.steps_eq :
    steps buf offset length
      = liftM (Window.cut protocol buf offset length >>= fun w =>
          (read w).map fun p => .ofCarrier (.echo p.1) (p.2.payload payload)) := by
  refine Reader.ofBuffer_bind fun r hr => ?_
  rw [read]
  obtain ⟨h, hroom, -, hparse, hread⟩ | ⟨e, hparse, hread⟩ := parses.cases hr.protocol
  · rw [hparse, hread, pure_bind, Reader.rest_of_le hroom, Steps.inside_ok_bind,
      ← Inner.payload_keep]
    rfl
  · rw [hparse, hread]
    rfl

/-- The steps that the two neighbor messages share: the first word, the
target, the options, whether their list was cut short, and the octets behind
them. -/
noncomputable def neighborSteps (protocol : String)
    (registry : Registry NdpOptionType (Window → Except DecodeError NdpOption)) (buf : Bytes)
    (offset length : Nat) : Steps ((UInt32 × Ipv6Addr) × List NdpOption × Bool × Bytes) := do
  let r ← Reader.ofBuffer protocol buf offset length
  let fixed ← r.parse neighborFixedSize neighborFields
  let left ← r.length.psub neighborFixedSize
  let (options, cut) ← optionSteps NdpOption.readers registry NdpOption.length buf
    (← r.place offset neighborFixedSize left) left
  let position := min (neighborFixedSize + totalSize NdpOption.length options) r.length
  let trailer ← inside (r.slice position (← r.length.psub position))
  return (fixed, options, cut, trailer)

theorem neighborSteps_eq (protocol : String)
    (registry : Registry NdpOptionType (Window → Except DecodeError NdpOption)) :
    neighborSteps protocol registry buf offset length
      = liftM (Window.cut protocol buf offset length >>= fun w => do
          let (fixed, _) ← w.read protocol neighborFixedSize SolicitationHeader.fixed?
          return (fixed, readNdpOptions (fun v => registry.get (v.bytes.headD 0) v)
            (w.after neighborFixedSize))) := by
  refine Reader.ofBuffer_bind fun r hr => ?_
  obtain ⟨fixed, hroom, -, hparse, hread⟩ | ⟨e, hparse, hread⟩ :=
    neighborFields_parses.cases hr.protocol
  · have hregion : buf.region (offset + neighborFixedSize) (r.length - neighborFixedSize)
        = r.window.after neighborFixedSize := by
      rw [hr.region_eq (Nat.add_sub_cancel' hroom).le, Reader.clamp_rest]
      rfl
    have hfits := (Nat.add_sub_cancel' hroom).le
    rw [hparse, hread, pure_bind, Nat.psub_eq_sub hroom, Steps.some_bind,
      Reader.place_of_le hfits, Steps.some_bind,
      optionSteps_eq NdpOption.length_pos (hr.fits_part hfits), hregion, pure_bind]
    show _ = liftM (pure (fixed, readNdpOptions _ _) : Except DecodeError _)
    rw [readNdpOptions]
    generalize Window.elements _ _ NdpOption.length = es
    obtain ⟨options, cut⟩ := es
    dsimp only
    have htrailer : r.window.bytes.drop
        (min (neighborFixedSize + totalSize NdpOption.length options) r.length)
          = (r.window.after neighborFixedSize).bytes.drop (totalSize NdpOption.length options) := by
      rw [Window.after, List.drop_drop]
      obtain h | h := Nat.le_total (neighborFixedSize + totalSize NdpOption.length options) r.length
      · rw [Nat.min_eq_left h]
      · rw [← Reader.length_bytes] at h ⊢
        rw [Nat.min_eq_right h, List.drop_eq_nil_of_le h, List.drop_length]
    rw [Nat.psub_eq_sub (Nat.min_le_right _ _), Steps.some_bind, Reader.slice_of_le (by omega),
      Reader.clamp_rest, Steps.inside_ok_bind, htrailer]
    rfl
  · rw [hparse, hread]
    rfl

/-! ## Transport -/

/-- The steps of decoding a datagram. -/
def UdpHeader.steps (known : UdpPort → Bool) (payload : PayloadSteps) (buf : Bytes)
    (offset length : Nat) : Steps Packet := do
  let r ← Reader.ofBuffer protocol buf offset length
  let h ← r.parse size fields
  let extent := h.extent r.length
  let bodyLength ← extent.psub size
  let p ← payload (.udpPort (h.selectingPort known)) buf (← r.place offset size bodyLength)
    bodyLength
  let trailer ← inside (r.rest extent)
  return .ofCarrier (.udp h trailer) p

theorem UdpHeader.steps_eq (hbelow : below.Follows payload) (known : UdpPort → Bool) :
    steps known below buf offset length
      = liftM (Window.cut protocol buf offset length >>= fun w =>
          (read known w).map fun p => .ofCarrier (.udp p.1 p.2.1) (p.2.2.payload payload)) := by
  refine Reader.ofBuffer_bind fun r hr => ?_
  rw [read]
  obtain ⟨h, hroom, -, hparse, hread⟩ | ⟨e, hparse, hread⟩ := parses.cases hr.protocol
  · obtain ⟨hmin, hmax⟩ := h.extent_mem hroom
    have hbody : size + (h.extent r.length - size) ≤ r.length := by omega
    have htrailer : (r.window.bytes.drop size).drop (h.extent r.length - size)
        = r.window.bytes.drop (h.extent r.length) := by
      rw [List.drop_drop, Nat.add_sub_cancel' hmin]
    rw [hparse, hread, pure_bind]
    dsimp only
    rw [Nat.psub_eq_sub hmin, Steps.some_bind, Reader.place_of_le hbody, Steps.some_bind,
      hbelow.part hr _ hbody, Steps.some_bind, Reader.rest_of_le hmax, Steps.inside_ok_bind,
      ← htrailer, ← Reader.length_window]
    rfl
  · rw [hparse, hread]
    rfl

/-- The steps of decoding an SCTP packet. -/
def SctpHeader.steps (algorithm : SctpChecksum) (buf : Bytes) (offset length : Nat) :
    Steps Packet := do
  let r ← Reader.ofBuffer protocol buf offset length
  let (srcPort, dstPort, verificationTag, checksum) ← r.parse size fixedFields
  let (chunks, truncated) ← chunkSteps r
  let trailer ← inside (r.rest (size + totalSize SctpChunk.length chunks))
  return .leaf (.sctp { srcPort, dstPort, verificationTag, checksum, chunks, truncated } trailer
    algorithm)

theorem SctpHeader.steps_eq (algorithm : SctpChecksum) :
    steps algorithm buf offset length
      = liftM (Window.cut protocol buf offset length >>= fun w =>
          (read w).map fun p => .leaf (.sctp p.1 p.2 algorithm)) := by
  refine Reader.ofBuffer_bind fun r hr => ?_
  rw [read]
  obtain ⟨fixed, hroom, -, hparse, hread⟩ | ⟨e, hparse, hread⟩ := parses.cases hr.protocol
  · -- No bound is put on where the chunks end: what is read exactly is written inside its region.
    have hregion : totalSize SctpChunk.length
        ((r.window.after size).elements SctpChunk.decode SctpChunk.length).1 ≤ r.length - size := by
      have hchunks := Window.flatMap_elements SctpChunk.decode_exact (r.window.after size)
      have hlength := congrArg List.length hchunks
      have hafter : (r.window.after size).bytes.length = r.length - size := by
        rw [Window.after, List.length_drop, Reader.length_bytes]
      rw [List.length_append, length_flatMap_eq_totalSize SctpChunk.length_toBytes, hafter]
        at hlength
      omega
    rw [hparse, hread, pure_bind, chunkSteps_eq]
    simp only [pure_bind]
    rw [Reader.rest_of_le (by omega), Steps.inside_ok_bind, ← List.drop_drop]
    rfl
  · rw [hparse, hread]
    rfl

/-! ## GTP -/

/-- The extension headers of a message, if its flags call for them. -/
noncomputable def GtpHeader.withChainSteps (h : GtpHeader)
    (registry : Registry GtpExtensionType (Window → Except DecodeError GtpExtension)) (buf : Bytes)
    (offset length : Nat) : Steps GtpHeader :=
  if h.extFlag then do
    let chain ← extensionSteps registry buf offset length h.nextExtType
    return { h with
      extensions := chain.extensions
      chainTail := chain.tail
      truncated := chain.truncated }
  else return h

theorem GtpHeader.withChainSteps_eq (h : GtpHeader)
    (registry : Registry GtpExtensionType (Window → Except DecodeError GtpExtension))
    (hfits : offset + length ≤ buf.length) :
    h.withChainSteps registry buf offset length
      = pure (h.withChain registry.get (buf.region offset length)) := by
  rw [withChainSteps, withChain]
  split
  · rw [extensionSteps_eq hfits, pure_bind]
  · rfl

/-- The extension headers lie inside the region that they are read from. -/
theorem GtpHeader.totalSize_withChain_le {h : GtpHeader}
    (decode : GtpExtensionType → Window → Except DecodeError GtpExtension) (region : Window)
    (hnone : h.extensions = []) :
    totalSize GtpExtension.length (h.withChain decode region).extensions ≤ region.length := by
  rw [withChain]
  split
  · rw [← Nat.zero_add (totalSize _ _)]
    exact totalSize_chainFrom_le h.nextExtType 0 region.offset region.bytes (Nat.zero_le _)
  · rw [hnone]
    exact Nat.zero_le _

/-- The payload of a message. The version of a tunnelled IP packet is in
its first octet. -/
def GtpHeader.payloadSteps (h : GtpHeader) (r : Reader) (payload : PayloadSteps) (buf : Bytes)
    (offset position length : Nat) : Steps (Option Packet) :=
  if length = 0 then return none
  else do
    let place ← r.place offset position length
    if h.messageType = GtpMessageType.gPdu ∧ !h.truncated then
      let first ← inside (r.u8 position)
      payload (.ipVersion (first >>> 4)) buf place length
    else return some (.unknown (buf.clamp place length))

theorem GtpHeader.payloadSteps_eq (hbelow : below.Follows payload) (h : GtpHeader) {r : Reader}
    {protocol : String} (hr : r.Covers protocol buf offset length) {position left : Nat}
    (hle : position + left ≤ r.length) :
    h.payloadSteps r below buf offset position left
      = pure ((h.inner ⟨r.window.offset + position, r.window.bytes.clamp position left⟩).payload
          payload) := by
  have hlength := Reader.length_clamp hle
  rw [payloadSteps, inner]
  by_cases hzero : left = 0
  · rw [if_pos hzero, List.eq_nil_of_length_eq_zero (hlength.trans hzero)]
    rfl
  · obtain ⟨first, rest, hcons⟩ :=
      List.exists_cons_of_length_pos (hlength.symm ▸ Nat.pos_of_ne_zero hzero)
    have hfirst : r.u8 position = .ok first :=
      Gives.u8.eq_ok_of_append u8?_takes (congrArg Bytes.u8? hcons)
        (List.take_append_drop left _).symm (by omega)
    rw [if_neg hzero, Reader.place_of_le hle, Steps.some_bind, hr.clamp_eq hle, hfirst,
      Steps.inside_ok_bind, hbelow.part hr _ hle, hcons]
    dsimp only
    by_cases hdata : h.messageType = GtpMessageType.gPdu ∧ !h.truncated
    · rw [if_pos hdata, if_pos hdata]
      rfl
    · rw [if_neg hdata, if_neg hdata]
      rfl

/-- The steps of decoding a message. -/
noncomputable def GtpHeader.steps
    (registry : Registry GtpExtensionType (Window → Except DecodeError GtpExtension))
    (payload : PayloadSteps) (buf : Bytes) (offset length : Nat) : Steps Packet := do
  let r ← Reader.ofBuffer protocol buf offset length
  let h ← r.parse size mandatoryFields
  let h ← h.parseOptional r
  let front := h.fixedLength
  let extent := max (min (size + h.lengthField.toNat) r.length) front
  let room ← extent.psub front
  let h ← h.withChainSteps registry buf (← r.place offset front room) room
  let position := front + totalSize GtpExtension.length h.extensions
  let p ← h.payloadSteps r payload buf offset position (← extent.psub position)
  let trailer ← inside (r.rest extent)
  return .ofCarrier (.gtp h trailer) p

theorem GtpHeader.steps_eq (hbelow : below.Follows payload)
    (registry : Registry GtpExtensionType (Window → Except DecodeError GtpExtension)) :
    steps registry below buf offset length
      = liftM (Window.cut protocol buf offset length >>= fun w =>
          (read registry.get w).map fun p =>
            .ofCarrier (.gtp p.1 p.2.1) (p.2.2.payload payload)) := by
  refine Reader.ofBuffer_bind fun r hr => ?_
  obtain ⟨m, hroom, hfront, hparse, hread⟩ | ⟨e, hparse, hread⟩ :=
    mandatoryFields_parses.cases hr.protocol
  · rw [hparse, pure_bind]
    obtain ⟨h, hlong, hparse', hopt⟩ | ⟨hparse', hopt⟩ := m.parseOptional_cases hr.protocol hroom
    · obtain ⟨⟨sequenceNumber, npduNumber, nextExtType, hfields⟩, -⟩ := optional?_exact hopt
      have hfixed : h.fixedLength = m.fixedLength := by rw [hfields]; rfl
      have hnone : h.extensions = [] := by
        rw [hfields]
        exact extensions_of_mandatory? (h := m) hfront
      rw [hparse', pure_bind]
      dsimp only
      -- Whatever the length field declares, the extent ends `body` octets behind the front.
      generalize hbody : min (size + h.lengthField.toNat) r.length - h.fixedLength = body
      rw [← hfixed] at hlong hopt
      have hextent : max (min (size + h.lengthField.toNat) r.length) h.fixedLength
          = h.fixedLength + body := by omega
      have hfits : h.fixedLength + body ≤ r.length := by omega
      rw [hextent, Nat.psub_eq_sub (Nat.le_add_right _ body), Nat.add_sub_cancel_left,
        Steps.some_bind, Reader.place_of_le hfits, Steps.some_bind,
        withChainSteps_eq h registry (hr.fits_part hfits), hr.region_eq hfits, pure_bind]
      have hchain := totalSize_withChain_le registry.get
        ⟨r.window.offset + h.fixedLength, r.window.bytes.clamp h.fixedLength body⟩ hnone
      rw [Window.length, Reader.length_clamp hfits] at hchain
      rw [Nat.psub_eq_sub (by omega), Steps.some_bind, payloadSteps_eq hbelow _ hr (by omega),
        pure_bind, Reader.rest_of_le hfits, Steps.inside_ok_bind,
        read_of_fixed hread hopt (r.length_window ▸ hbody), ← Window.after_clamp, ← List.drop_drop]
      rfl
    · rw [hparse', read_of_optional_none hread hopt]
      rfl
  · rw [hparse, read, hread]
    rfl

/-! ## One layer -/

/-- The steps of decoding an ARP message. -/
def ArpHeader.steps (buf : Bytes) (offset length : Nat) : Steps Packet := do
  let r ← Reader.ofBuffer protocol buf offset length
  return .leaf (.arp (← r.parse size fields))

/-- **The steps of decoding a layer of a format**, with what is below it. -/
noncomputable def Context.formatSteps (ctx : Context) (f : Format) (payload : PayloadSteps)
    (buf : Bytes) (offset length : Nat) : Steps Packet :=
  match f with
  | .ethernet => EthernetHeader.steps false payload buf offset length
  | .arp => ArpHeader.steps buf offset length
  | .ipv6 => Ipv6Header.steps payload buf offset length
  | .hopByHop => OptionsHeader.steps .hopByHop ctx.decoders.ipv6Options payload buf offset length
  | .destination =>
    OptionsHeader.steps .destination ctx.decoders.ipv6Options payload buf offset length
  | .routing => RoutingHeader.steps payload buf offset length
  | .fragment => FragmentHeader.steps payload buf offset length
  | .icmpv6 => Icmpv6Header.steps payload buf offset length
  | .echo => EchoHeader.steps buf offset length
  | .solicitation => do
    let ((reserved, target), options, truncated, trailer) ←
      neighborSteps SolicitationHeader.protocol ctx.decoders.ndpOptions buf offset length
    return .leaf (.solicitation { reserved, target, options, truncated } trailer)
  | .advertisement => do
    let ((word, target), options, truncated, trailer) ←
      neighborSteps AdvertisementHeader.protocol ctx.decoders.ndpOptions buf offset length
    return .leaf (.advertisement
      { router := AdvertisementHeader.routerBit.isSet word
        solicited := AdvertisementHeader.solicitedBit.isSet word
        overrides := AdvertisementHeader.overrideBit.isSet word
        reserved := AdvertisementHeader.reservedBits.get word
        target, options, truncated } trailer)
  | .udp => UdpHeader.steps ctx.decoders.udpPorts.contains payload buf offset length
  | .sctp => SctpHeader.steps ctx.settings.sctpChecksum buf offset length
  | .gtp => GtpHeader.steps ctx.decoders.gtpExtensions payload buf offset length

/-- A layer that is read off a window and then put over its payload. -/
theorem Window.cut_carrier {α : Type} (protocol : String) (read : Window → Except DecodeError α)
    (c : α → Carrier) (inner : α → Inner) :
    (liftM (cut protocol buf offset length >>= fun w => (read w).map fun a =>
        Packet.ofCarrier (c a) ((inner a).payload payload)) : Steps Packet)
      = liftM (cut protocol buf offset length >>= fun w =>
          (read w >>= fun a => pure (Peeled.carrier (c a) (inner a))).map
            (Peeled.assemble payload)) := by
  refine congrArg liftM (bind_congr fun w => ?_)
  cases read w with
  | error e => rfl
  | ok a => exact congrArg Except.ok (Peeled.assemble_carrier payload (c a) (inner a)).symm

theorem Context.formatSteps_eq (hbelow : below.Follows payload) (ctx : Context) (f : Format) :
    ctx.formatSteps f below buf offset length
      = liftM (Window.cut f.protocol buf offset length >>= fun w =>
          (ctx.peel f w).map (Peeled.assemble payload)) := by
  cases f with
  | ethernet => exact EthernetHeader.steps_eq hbelow false
  | arp =>
    refine Reader.ofBuffer_bind fun r hr => ?_
    rw [ArpHeader.parses.eq, hr.protocol, peel]
    cases r.window.read ArpHeader.protocol ArpHeader.size ArpHeader.read? <;> rfl
  | ipv6 => exact Ipv6Header.steps_eq hbelow ctx
  | hopByHop =>
    rw [formatSteps, OptionsHeader.steps_eq hbelow]
    exact Window.cut_carrier _ (OptionsHeader.read _ _) (fun p => .options .hopByHop p.1 p.2.1)
      fun p => p.2.2
  | destination =>
    rw [formatSteps, OptionsHeader.steps_eq hbelow]
    exact Window.cut_carrier _ (OptionsHeader.read _ _) (fun p => .options .destination p.1 p.2.1)
      fun p => p.2.2
  | routing =>
    rw [formatSteps, RoutingHeader.steps_eq hbelow]
    exact Window.cut_carrier _ RoutingHeader.read (fun p => .routing p.1) fun p => p.2
  | fragment =>
    rw [formatSteps, FragmentHeader.steps_eq hbelow]
    exact Window.cut_carrier _ FragmentHeader.read (fun p => .fragment p.1) fun p => p.2
  | icmpv6 =>
    rw [formatSteps, Icmpv6Header.steps_eq hbelow]
    exact Window.cut_carrier _ Icmpv6Header.read (fun p => .icmpv6 p.1) fun p => p.2
  | echo =>
    rw [formatSteps, EchoHeader.steps_eq]
    exact Window.cut_carrier _ EchoHeader.read (fun p => .echo p.1) fun p => p.2
  | solicitation =>
    rw [formatSteps, neighborSteps_eq]
    show _ = liftM (Window.cut SolicitationHeader.protocol buf offset length >>= _)
    cases Window.cut SolicitationHeader.protocol buf offset length with
    | error e => rfl
    | ok w =>
      show (liftM (w.read SolicitationHeader.protocol neighborFixedSize _ >>= _) >>= _ :
          Steps Packet)
        = liftM ((SolicitationHeader.read ctx.decoders.ndpOption w >>= _).map _)
      rw [SolicitationHeader.read]
      cases w.read SolicitationHeader.protocol neighborFixedSize SolicitationHeader.fixed? <;> rfl
  | advertisement =>
    rw [formatSteps, neighborSteps_eq]
    show _ = liftM (Window.cut AdvertisementHeader.protocol buf offset length >>= _)
    cases Window.cut AdvertisementHeader.protocol buf offset length with
    | error e => rfl
    | ok w =>
      show (liftM (w.read AdvertisementHeader.protocol neighborFixedSize _ >>= _) >>= _ :
          Steps Packet)
        = liftM ((AdvertisementHeader.read ctx.decoders.ndpOption w >>= _).map _)
      rw [AdvertisementHeader.read]
      cases w.read AdvertisementHeader.protocol neighborFixedSize SolicitationHeader.fixed? <;> rfl
  | udp =>
    rw [formatSteps, UdpHeader.steps_eq hbelow]
    exact Window.cut_carrier _ (UdpHeader.read _) (fun p => .udp p.1 p.2.1) fun p => p.2.2
  | sctp =>
    refine (SctpHeader.steps_eq _).trans (congrArg liftM (bind_congr fun w => ?_))
    rw [peel]
    cases SctpHeader.read w <;> rfl
  | gtp =>
    rw [formatSteps, GtpHeader.steps_eq hbelow]
    exact Window.cut_carrier _ (GtpHeader.read _) (fun p => .gtp p.1 p.2.1) fun p => p.2.2

/-! ## A payload at a place in a buffer -/

/-- The steps of a decoder at a place in a buffer, with `left` layers
allowed below. A decoder from elsewhere is one step, on the window that is
cut out for it. -/
noncomputable def PacketDecoder.steps (ctx : Context) (payload : PayloadSteps) (left : Nat)
    (buf : Bytes) (offset length : Nat) : PacketDecoder → Steps Packet
  | format f => ctx.formatSteps f payload buf offset length
  | unknown => return .unknown (buf.clamp offset length)
  | custom name decode => liftM (Window.cut name buf offset length >>= decode left)

/-- **At a place inside the buffer** a decoder decodes the window there. -/
theorem PacketDecoder.steps_eq (hbelow : below.Follows payload) (ctx : Context) (left : Nat)
    (hfits : offset + length ≤ buf.length) (d : PacketDecoder) :
    d.steps ctx below left buf offset length
      = liftM (d.run ctx payload left (buf.region offset length)) := by
  have hcut (protocol : String) :
      Window.cut protocol buf offset length = .ok (buf.region offset length) :=
    Window.cut_eq_ok.mpr ⟨hfits, rfl⟩
  cases d with
  | format f =>
    rw [steps, Context.formatSteps_eq hbelow, hcut]
    rfl
  | unknown => rfl
  | custom name decode =>
    rw [steps, hcut]
    rfl

/-- **At any other place** nothing below is decoded. -/
theorem PacketDecoder.steps_eq_outside (hbelow : below.Follows payload) (ctx : Context)
    (left : Nat) (hfits : ¬offset + length ≤ buf.length) (d : PacketDecoder) :
    d.steps ctx below left buf offset length = liftM (ctx.decodeWith d buf offset length) := by
  have hcut (protocol : String) : Window.cut protocol buf offset length
      = .error (Window.outside protocol buf offset length) := by
    rw [Window.cut, Window.cut?, if_neg hfits]
  cases d with
  | format f =>
    rw [steps, Context.formatSteps_eq hbelow, Context.decodeWith, Context.decode, hcut]
    rfl
  | unknown => rfl
  | custom name decode =>
    rw [steps, Context.decodeWith, hcut]
    rfl

/-- **The steps of decoding a payload** at a place in a buffer, with `left`
layers allowed. -/
noncomputable def Context.payloadSteps (ctx : Context) : (left : Nat) → PayloadSteps
  | 0, _, buf, offset, length =>
    some (if length = 0 then none else some (.unknown (buf.clamp offset length)))
  | left + 1, key, buf, offset, length =>
    if length = 0 then some none
    else do
      let decoder := ctx.decoders.select key
      match ← (decoder.steps ctx (ctx.payloadSteps left) left buf offset length).run with
      | .ok p => some (some p)
      | .error e => some (some (.malformed (buf.clamp offset length) e))

/-- **Decoding a payload by position is `Context.payload`**: at every place
inside the buffer all steps are possible, and they come to what the window
there is decoded to. -/
theorem Context.payloadSteps_follows (ctx : Context) (left : Nat) :
    (ctx.payloadSteps left).Follows (ctx.payload left) := by
  induction left with
  | zero =>
    intro key buf offset length hfits
    rw [payloadSteps, Context.payload]
    by_cases hzero : length = 0
    · rw [if_pos hzero, if_pos ((Bytes.isEmpty_region hfits).mpr hzero)]
    · rw [if_neg hzero, if_neg (mt (Bytes.isEmpty_region hfits).mp hzero)]
  | succ left ih =>
    intro key buf offset length hfits
    rw [payloadSteps, Context.payload]
    by_cases hzero : length = 0
    · rw [if_pos hzero, if_pos ((Bytes.isEmpty_region hfits).mpr hzero)]
    · rw [if_neg hzero, if_neg (mt (Bytes.isEmpty_region hfits).mp hzero)]
      dsimp only
      rw [PacketDecoder.steps_eq ih ctx left hfits]
      cases (ctx.decoders.select key).run ctx (ctx.payload left) left _ <;> rfl

/-- **At any place**, inside the buffer or not, these are the steps of
`Context.decodePayload`. A place that the buffer does not reach to the end
of is cut out nowhere, so the payload is malformed. -/
theorem Context.payloadSteps_eq (ctx : Context) (key : Selector) (buf : Bytes)
    (offset length : Nat) :
    ctx.payloadSteps ctx.settings.maxDepth key buf offset length
      = some (ctx.decodePayload key buf offset length) := by
  by_cases hzero : length = 0
  · rw [decodePayload, if_pos hzero]
    cases ctx.settings.maxDepth <;> rw [payloadSteps, if_pos hzero]
  · rw [decodePayload, if_neg hzero, Window.cut?]
    by_cases hfits : offset + length ≤ buf.length
    · rw [ctx.payloadSteps_follows _ key buf offset length hfits, if_pos hfits]
      rfl
    · rw [if_neg hfits]
      cases ctx.settings.maxDepth with
      | zero =>
        rw [payloadSteps, if_neg hzero]
        rfl
      | succ left =>
        rw [payloadSteps, if_neg hzero]
        dsimp only
        rw [PacketDecoder.steps_eq_outside (ctx.payloadSteps_follows left) ctx left hfits,
          if_neg left.succ_ne_zero]
        cases ctx.decodeWith (ctx.decoders.select key) buf offset length <;> rfl

/-! ## Packets -/

namespace Context

variable (ctx : Context)

/-- **The steps of `Context.decode`.** -/
noncomputable def decodeSteps (f : Format) (buf : Bytes) (offset length : Nat) : Steps Packet :=
  ctx.formatSteps f (ctx.payloadSteps ctx.settings.maxDepth) buf offset length

/-- **Decoding is possible step by step** and comes to what `decode`
returns. -/
theorem decodeSteps_eq (f : Format) (buf : Bytes) (offset length : Nat) :
    ctx.decodeSteps f buf offset length = liftM (ctx.decode f buf offset length) :=
  ctx.formatSteps_eq (ctx.payloadSteps_follows _) f

/-- **The steps of `Context.decodeFcs`.** -/
noncomputable def decodeFcsSteps (buf : Bytes) (offset length : Nat) : Steps Packet :=
  EthernetHeader.steps true (ctx.payloadSteps ctx.settings.maxDepth) buf offset length

theorem decodeFcsSteps_eq (buf : Bytes) (offset length : Nat) :
    ctx.decodeFcsSteps buf offset length = liftM (ctx.decodeFcs buf offset length) :=
  EthernetHeader.steps_eq (ctx.payloadSteps_follows _) true

/-- **The steps of `Context.decodeWith`.** -/
noncomputable def decodeWithSteps (d : PacketDecoder) (buf : Bytes) (offset length : Nat) :
    Steps Packet :=
  d.steps ctx (ctx.payloadSteps ctx.settings.maxDepth) ctx.settings.maxDepth buf offset length

theorem decodeWithSteps_eq (d : PacketDecoder) (buf : Bytes) (offset length : Nat) :
    ctx.decodeWithSteps d buf offset length = liftM (ctx.decodeWith d buf offset length) := by
  cases d with
  | format f => exact ctx.decodeSteps_eq f buf offset length
  | unknown => rfl
  | custom name decode => rfl

end Context

end Layers

end PacketCodec
