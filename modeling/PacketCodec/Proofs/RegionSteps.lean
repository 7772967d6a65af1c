import PacketCodec.Decoders
import PacketCodec.Proofs.ElementSteps

/-!
# Lists and chains at a place in a buffer

Options, chunks and extension headers follow each other in a region of a
buffer. Whoever reads them keeps the position reached, and hands each
decoder the whole buffer, with the place of what is left of the region in
it. `elementLoop` and `chainLoop` are the two loops, over any way of reading
at a position. If that reads the window left of the region, the loops come
to the lists and chains of the window (`elementLoop_eq`, `chainLoop_eq`).

The type that selects a decoder is itself read from the buffer: that of an
option from its first octet, that of an extension header from the last octet
of the one before.
-/

namespace PacketCodec

open Steps (inside)

variable {α : Type}

/-- What a computation comes to, with nothing for its error. A list or a
chain ends there. -/
def Steps.attempt (x : Steps α) : Steps (Option α) :=
  ExceptT.mk (x.run.map fun outcome => .ok outcome.toOption)

/-- **With the decoders of this library** every element is read in the
steps of its decoder, none in one step. -/
theorem Decoders.OfLibrary.mem_readers {d : Decoders} (h : d.OfLibrary) :
    (∀ t, ElementReader.of Ipv6Option.readers (d.ipv6Options.get t) ∈ Ipv6Option.readers)
      ∧ (∀ t, ElementReader.of NdpOption.readers (d.ndpOptions.get t) ∈ NdpOption.readers)
      ∧ ∀ t, ElementReader.of GtpExtension.readers (d.gtpExtensions.get t)
          ∈ GtpExtension.readers := by
  refine ⟨fun t => ElementReader.of_mem ?_, fun t => ElementReader.of_mem ?_,
    fun t => ElementReader.of_mem ?_⟩
  · rw [Ipv6Option.decode_readers]
    exact h.ipv6Options.get t
  · rw [NdpOption.decode_readers]
    exact h.ndpOptions.get t
  · rw [GtpExtension.decode_readers]
    exact h.gtpExtensions.get t

/-! ## Regions of a buffer -/

section Region

variable {buf : Bytes} {offset length : Nat}

/-- The region of a buffer as a window. -/
abbrev Bytes.region (buf : Bytes) (offset length : Nat) : Window :=
  ⟨offset, buf.clamp offset length⟩

/-- A region inside the stretch of a reader is a part of its window. -/
theorem Reader.Covers.region_eq {r : Reader} {protocol : String}
    (h : r.Covers protocol buf offset length) {start n : Nat} (hfits : start + n ≤ r.length) :
    buf.region (offset + start) n
      = ⟨r.window.offset + start, r.window.bytes.clamp start n⟩ := by
  rw [Bytes.region, h.clamp_eq hfits, h.window]

theorem Bytes.length_region (h : offset + length ≤ buf.length) :
    (buf.region offset length).length = length := Window.length_clamp h

theorem Bytes.isEmpty_region (h : offset + length ≤ buf.length) :
    (buf.region offset length).bytes.isEmpty ↔ length = 0 := by
  rw [List.isEmpty_iff_length_eq_zero, ← Window.length, length_region h]

/-- **What is left of a region** is cut out of the buffer further on. -/
theorem Window.cut_rest (protocol : String) (h : offset + length ≤ buf.length) {position : Nat}
    (hle : position ≤ length) :
    cut protocol buf (offset + position) (length - position)
      = .ok ((buf.region offset length).after position) := by
  rw [cut_eq_ok]
  refine ⟨by omega, ?_⟩
  rw [after, ← Bytes.clamp_clamp buf offset (Nat.add_sub_cancel' hle).le]
  congr 1
  exact (List.take_of_length_le (by
    rw [List.length_drop, Window.length_clamp h])).symm

theorem Bytes.getElem?_region {position : Nat} (hlt : position < length) :
    buf[offset + position]? = (buf.region offset length).bytes[position]? := by
  show _ = ((buf.drop offset).take length)[position]?
  rw [List.getElem?_take_of_lt hlt, List.getElem?_drop]

end Region

/-! ## Lists of elements -/

/-- **The elements of a region of `length` octets** from a position on, each
read by `element` at its position, until the region is used up or one of
them is not there. The position moves on by the size of an element, which
must not be zero. -/
def elementLoop (element : Nat → Steps (Option α)) (size : α → Nat) (length position : Nat) :
    Steps (List α × Bool) :=
  if position < length then do
    match ← element position with
    | none => return ([], true)
    | some e =>
      if 0 < size e then do
        let (es, cut) ← elementLoop element size length (position + size e)
        return (e :: es, cut)
      else liftM (none : Option (List α × Bool))
  else return ([], false)
termination_by length - position

/-- **Reading a list at its positions** is reading it off the window. -/
theorem elementLoop_eq {w : Window} {decode : Window → Except DecodeError α} {size : α → Nat}
    {element : Nat → Steps (Option α)} {length : Nat} (hlength : w.length = length)
    (size_pos : ∀ e, 0 < size e)
    (helement : ∀ position < length, element position = pure (decode (w.after position)).toOption)
    (position : Nat) :
    elementLoop element size length position = pure (w.elementsAt decode size position) := by
  subst hlength
  fun_induction elementLoop element size w.length position with
  | case1 position hlt ih =>
    rw [helement position hlt, pure_bind]
    cases he : decode (w.after position) with
    | error e => rw [Window.elementsAt_of_error hlt he]; rfl
    | ok e =>
      simp only [Except.toOption]
      rw [if_pos (size_pos e), ih e (size_pos e), pure_bind,
        Window.elementsAt_of_ok size_pos hlt he]
  | case2 position hle => rw [Window.elementsAt_of_le (Nat.not_lt.mp hle)]

/-- The options of a region of a buffer. Each is handed to the decoder that
the octet at its place in the buffer selects. -/
noncomputable def optionSteps {protocol : String} (library : List (ElementReader protocol α))
    (registry : Registry UInt8 (Window → Except DecodeError α)) (size : α → Nat) (buf : Bytes)
    (offset length : Nat) : Steps (List α × Bool) :=
  elementLoop (fun position => do
    let t ← (buf[offset + position]? : Option UInt8)
    Steps.attempt do
      let decoder := ElementReader.of library (registry.get t)
      decoder.steps buf (offset + position) (← length.psub position)) size length 0

theorem optionSteps_eq {protocol : String} {library : List (ElementReader protocol α)}
    {registry : Registry UInt8 (Window → Except DecodeError α)} {size : α → Nat}
    (size_pos : ∀ e, 0 < size e) {buf : Bytes} {offset length : Nat}
    (h : offset + length ≤ buf.length) :
    optionSteps library registry size buf offset length
      = pure ((buf.region offset length).elements
          (fun w => registry.get (w.bytes.headD 0) w) size) := by
  have hlength := Bytes.length_region h
  refine elementLoop_eq hlength size_pos (fun position hlt => ?_) 0
  have hlt' : position < (buf.region offset length).bytes.length := hlt.trans_eq hlength.symm
  rw [Bytes.getElem?_region hlt, List.getElem?_eq_getElem hlt', Nat.psub_eq_sub hlt.le,
    Steps.some_bind, Steps.some_bind, ElementReader.steps_of, Window.cut_rest protocol h hlt.le,
    Window.after, List.drop_eq_getElem_cons hlt']
  rfl

/-! ## Chains of extension headers -/

/-- **The chain of a region of `length` octets** from a position on, the
first extension header of the type `next`. Each is read by `element` at its
position, with the type of the one behind it. -/
def chainLoop
    (element : GtpExtensionType → Nat → Steps (Option (GtpExtension × GtpExtensionType)))
    (length : Nat) (next : GtpExtensionType) (position : Nat) : Steps GtpChain :=
  if next = GtpExtensionType.noMore then return ⟨[], next, false⟩
  else do
    match ← element next position with
    | none => return ⟨[], next, true⟩
    | some (e, following) =>
      if position + e.length ≤ length then do
        let more ← chainLoop element length following (position + e.length)
        return { more with extensions := e.withType next :: more.extensions }
      else liftM (none : Option GtpChain)
termination_by length - position
decreasing_by
  have hlength : e.length = e.contentLength + 2 := rfl
  omega

/-- **Reading a chain at its positions** is reading it off the window. -/
theorem chainLoop_eq {w : Window}
    {decode : GtpExtensionType → Window → Except DecodeError GtpExtension}
    {element : GtpExtensionType → Nat → Steps (Option (GtpExtension × GtpExtensionType))}
    {length : Nat} (hlength : w.length = length)
    (helement : ∀ next, ∀ position ≤ length, element next position
      = pure ((decode next (w.after position)).toOption.bind fun e =>
          w.bytes[position + e.length - 1]?.map fun following => (e, following)))
    (next : GtpExtensionType) {position : Nat} (hposition : position ≤ length) :
    chainLoop element length next position = pure (w.chainAt decode next position) := by
  subst hlength
  fun_induction chainLoop element w.length next position with
  | case1 position => rw [Window.chainAt_noMore]
  | case2 next position hnext ih =>
    rw [helement next position hposition, pure_bind]
    cases he : decode next (w.after position) with
    | error e => rw [Window.chainAt_of_error hnext he]; rfl
    | ok e =>
      have hpos := e.length_pos
      simp only [Except.toOption, Option.bind_some]
      cases hfollowing : w.bytes[position + e.length - 1]? with
      | none =>
        have hlast : w.length ≤ position + e.length - 1 := List.getElem?_eq_none_iff.mp hfollowing
        rw [Window.chainAt_of_le hnext he hlast]
        rfl
      | some following =>
        obtain ⟨hlast, -⟩ := List.getElem?_eq_some_iff.mp hfollowing
        have hle : position + e.length ≤ w.length := by
          rw [← Window.length] at hlast
          omega
        simp only [Option.map_some]
        rw [if_pos hle, ih e following hle hle, pure_bind, Window.chainAt_of_ok hnext he hfollowing]

/-- The extension headers of a region of a buffer. Each is handed to the
decoder of its type, and the type behind it is read from its last octet,
which has to lie inside the region. -/
noncomputable def extensionSteps
    (registry : Registry GtpExtensionType (Window → Except DecodeError GtpExtension)) (buf : Bytes)
    (offset length : Nat) (first : GtpExtensionType) : Steps GtpChain :=
  chainLoop (fun next position => Steps.attempt do
    let decoder := ElementReader.of GtpExtension.readers (registry.get next)
    let e ← decoder.steps buf (offset + position) (← length.psub position)
    let last ← (position + e.length).psub 1
    let r ← Reader.ofBuffer GtpExtension.protocol buf offset length
    return (e, ← r.u8 last)) length first 0

/-- An octet behind the window cannot be read. -/
theorem Reader.u8_toOption (r : Reader) (start : Nat) :
    (r.u8 start).toOption = r.window.bytes[start]? := by
  by_cases h : start < r.window.bytes.length
  · rw [Reader.u8_of_drop (List.drop_eq_getElem_cons h), List.getElem?_eq_getElem h]
    rfl
  · have hread := r.actsAs_view.u8 start
    rw [View.read, if_neg (show ¬start + 1 ≤ r.view.bytes.length from h)] at hread
    rw [List.getElem?_eq_none (Nat.le_of_not_lt h)]
    cases hu : r.u8 start with
    | error e => rfl
    | ok b =>
      rw [hu] at hread
      cases hread

theorem extensionSteps_eq
    {registry : Registry GtpExtensionType (Window → Except DecodeError GtpExtension)} {buf : Bytes}
    {offset length : Nat} (h : offset + length ≤ buf.length) (first : GtpExtensionType) :
    extensionSteps registry buf offset length first
      = pure (readChain registry.get first (buf.region offset length)) := by
  have hlength := Bytes.length_region h
  obtain ⟨r, hr, hcovers, -⟩ | ⟨e, -, he⟩ :=
    Reader.ofBuffer_cases GtpExtension.protocol buf offset length
  · refine chainLoop_eq hlength (fun next position hle => ?_) first (Nat.zero_le _)
    rw [Nat.psub_eq_sub hle, Steps.some_bind, ElementReader.steps_of,
      Window.cut_rest GtpExtension.protocol h hle, hr]
    show Steps.attempt (liftM (registry.get next _) >>= _) = _
    cases hdecode : registry.get next ((buf.region offset length).after position) with
    | error e => rfl
    | ok e =>
      have hpos := e.length_pos
      rw [Steps.ok_bind, Nat.psub_eq_sub (by omega)]
      simp only [Steps.some_bind, Steps.ok_bind, Except.toOption, Option.bind_some]
      have hu := Reader.u8_toOption r (position + e.length - 1)
      rw [hcovers.window] at hu
      rw [← hu]
      cases r.u8 (position + e.length - 1) <;> rfl
  · rw [Window.cut_eq_ok.mpr ⟨h, rfl⟩] at he
    cases he

/-! ## Chunks -/

/-- The chunks that follow the fixed part of an SCTP header, each read by a
reader of what is left of the window. -/
def SctpHeader.chunkSteps (r : Reader) : Steps (List SctpChunk × Bool) :=
  elementLoop (fun position => do
    let left ← r.length.psub position
    let chunk ← inside (r.sub SctpChunk.protocol position left)
    (SctpChunk.reader.read chunk).attempt) SctpChunk.length r.length size

theorem SctpHeader.chunkSteps_eq (r : Reader) :
    chunkSteps r = pure ((r.window.after size).elements SctpChunk.decode SctpChunk.length) := by
  refine elementLoop_eq r.length_window SctpChunk.decode_exact.size_pos
    (fun position hlt => ?_) size
  obtain ⟨s, hs, hprotocol, hwindow⟩ := Reader.exists_sub_rest SctpChunk.protocol hlt.le
  rw [Nat.psub_eq_sub hlt.le, Steps.some_bind, hs, Steps.inside_ok_bind,
    SctpChunk.reader.read_eq s hprotocol, hwindow]
  rfl

end PacketCodec
