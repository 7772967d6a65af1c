import Mathlib.Data.List.Forall2
import PacketCodec.Proofs.BitValues
import PacketCodec.Proofs.Completion

/-!
# Values that are cut

A draft checks the lengths of its options and extension headers, but not
the values in them. A value that its field has no room for does not keep the
draft from being built; its low bits are written and the others are lost
(`Draft.build_narrowed`). This is unlike the values of a header, such as the
reserved bits of an advertisement or the version of a message, which a draft
refuses when they do not fit.

So a value is written as it was set if and only if it fits, and a draft
with values that do not fit is built to the same octets as the draft in
which they have been cut.
-/

namespace PacketCodec

open Violation (ifOver)

/-! ## Elements -/

/-- **An element of a list in a draft.** -/
inductive Element where
  /-- An option of a neighbor discovery message. -/
  | option (o : NdpOption)
  /-- An extension header of a message. -/
  | extension (e : GtpExtension)

namespace Element

/-- The values of the element that have fewer bits than they could. -/
def bitValues : Element → List BitValue
  | option o => o.bitValues
  | extension e => e.bitValues

/-- The element with its values cut. -/
def narrowed : Element → Element
  | option o => option o.narrowed
  | extension e => extension e.narrowed

theorem fits_narrowed (e : Element) : ∀ f ∈ e.narrowed.bitValues, f.Fits := by
  cases e with
  | option o => exact o.fits_narrowed
  | extension e => exact e.fits_narrowed

/-- The element is written as these octets, whatever is behind it. -/
def WrittenAs : Element → Bytes → Prop
  | option o, octets => octets = o.toBytes
  | extension e, octets => ∃ next, octets = e.toBytes next

/-- **A value is cut to its bits**, wherever its element is written. -/
theorem WrittenAs.cutIn {e : Element} {octets : Bytes} (h : e.WrittenAs octets) :
    ∀ f ∈ e.bitValues, f.CutIn octets := by
  cases e with
  | option o =>
    rw [show octets = o.toBytes from h]
    exact o.cutIn_toBytes
  | extension e =>
    obtain ⟨next, rfl⟩ := h
    exact e.cutIn_toBytes next

end Element

theorem ndpOptions_writtenAs (options : List NdpOption) :
    List.Forall₂ Element.WrittenAs (options.map .option) (options.map NdpOption.toBytes) := by
  induction options with
  | nil => exact .nil
  | cons o options ih => exact .cons rfl ih

/-- The extension headers of a chain are written one after the other. -/
theorem chainBytes_writtenAs (tail : GtpExtensionType) (es : List GtpExtension) :
    ∃ pieces, chainBytes tail es = pieces.flatten
      ∧ List.Forall₂ Element.WrittenAs (es.map .extension) pieces := by
  induction es with
  | nil => exact ⟨[], rfl, .nil⟩
  | cons e es ih =>
    obtain ⟨pieces, hpieces, hwritten⟩ := ih
    rw [chainBytes, hpieces]
    exact ⟨e.toBytes _ :: pieces, List.flatten_cons.symm, .cons ⟨_, rfl⟩ hwritten⟩

/-! ## Drafts -/

theorem ndpOptionViolations_narrowed (options : List NdpOption) :
    ndpOptionViolations (options.map NdpOption.narrowed) = ndpOptionViolations options := by
  simp only [ndpOptionViolations, List.flatMap_map, NdpOption.length_narrowed]

theorem map_option_narrowed (options : List NdpOption) :
    (options.map NdpOption.narrowed).map Element.option
      = (options.map Element.option).map Element.narrowed := by
  rw [List.map_map, List.map_map]
  rfl

theorem flatMap_toBytes_narrowed (options : List NdpOption) :
    (options.map NdpOption.narrowed).flatMap NdpOption.toBytes
      = options.flatMap NdpOption.toBytes := by
  simp only [List.flatMap_map, NdpOption.toBytes_narrowed]

theorem chainBytes_narrowed (tail : GtpExtensionType) (es : List GtpExtension) :
    chainBytes tail (es.map GtpExtension.narrowed) = chainBytes tail es := by
  induction es with
  | nil => rfl
  | cons e es ih =>
    have htype : ((es.map GtpExtension.narrowed).head?.map GtpExtension.extensionType)
        = es.head?.map GtpExtension.extensionType := by
      cases es with
      | nil => rfl
      | cons e es => exact congrArg some e.extensionType_narrowed
    rw [List.map_cons, chainBytes, chainBytes, htype, ih, GtpExtension.toBytes_narrowed]

namespace LeafDraft

/-- The elements of the layer. -/
def elements : LeafDraft → List Element
  | solicitation d => d.options.map .option
  | advertisement d => d.options.map .option
  | _ => []

/-- The draft with the values in its elements cut. -/
def narrowed : LeafDraft → LeafDraft
  | solicitation d => solicitation { d with options := d.options.map NdpOption.narrowed }
  | advertisement d => advertisement { d with options := d.options.map NdpOption.narrowed }
  | l => l

theorem elements_narrowed (l : LeafDraft) :
    l.narrowed.elements = l.elements.map Element.narrowed := by
  cases l with
  | solicitation d => exact map_option_narrowed d.options
  | advertisement d => exact map_option_narrowed d.options
  | _ => rfl

theorem violations_narrowed (l : LeafDraft) : l.narrowed.violations = l.violations := by
  cases l with
  | solicitation d =>
    exact congrArg (fun vs => _ ++ vs) (ndpOptionViolations_narrowed d.options)
  | advertisement d =>
    exact congrArg (fun vs => _ ++ vs) (ndpOptionViolations_narrowed d.options)
  | _ => rfl

theorem toBytes_complete_narrowed (l : LeafDraft) :
    l.narrowed.complete.toBytes = l.complete.toBytes := by
  cases l with
  | solicitation d =>
    exact congrArg (fun bs => _ ++ bs ++ _) (flatMap_toBytes_narrowed d.options)
  | advertisement d =>
    exact congrArg (fun bs => _ ++ bs ++ _) (flatMap_toBytes_narrowed d.options)
  | _ => rfl

/-- The elements of a layer are written in their order. -/
theorem writtenAs_complete (l : LeafDraft) :
    ∃ front pieces behind, l.complete.toBytes = front ++ pieces.flatten ++ behind
      ∧ List.Forall₂ Element.WrittenAs l.elements pieces := by
  cases l with
  | solicitation d =>
    exact ⟨_, _, _, congrArg (fun bs => _ ++ bs ++ _) List.flatMap_def, ndpOptions_writtenAs _⟩
  | advertisement d =>
    exact ⟨_, _, _, congrArg (fun bs => _ ++ bs ++ _) List.flatMap_def, ndpOptions_writtenAs _⟩
  | _ => exact ⟨_, [], [], by rw [List.flatten_nil, List.append_nil, List.append_nil], .nil⟩

end LeafDraft

namespace GtpDraft

/-- The draft with the values in its extension headers cut. -/
def narrowed (d : GtpDraft) : GtpDraft :=
  { d with extensions := d.extensions.map GtpExtension.narrowed }

theorem extFlagOrDefault_narrowed (d : GtpDraft) :
    d.narrowed.extFlagOrDefault = d.extFlagOrDefault := by
  simp only [extFlagOrDefault, narrowed, List.isEmpty_map]

theorem violations_narrowed (d : GtpDraft) : d.narrowed.violations = d.violations := by
  rw [violations, d.extFlagOrDefault_narrowed]
  simp only [narrowed, List.isEmpty_map, List.flatMap_map, GtpExtension.length_narrowed]
  rfl

/-- The headers differ in the extension headers alone. -/
theorem headerWith_narrowed (d : GtpDraft) (lengthField : UInt16) :
    d.narrowed.headerWith lengthField
      = { d.headerWith lengthField with extensions := d.extensions.map GtpExtension.narrowed } := by
  have htype : (d.narrowed.extensions.head?.map GtpExtension.extensionType)
      = d.extensions.head?.map GtpExtension.extensionType := by
    simp only [narrowed, List.head?_map, Option.map_map, Function.comp_def,
      GtpExtension.extensionType_narrowed]
  rw [headerWith, d.extFlagOrDefault_narrowed, htype]
  rfl

theorem toBytes_headerWith_narrowed (d : GtpDraft) (lengthField : UInt16) :
    (d.narrowed.headerWith lengthField).toBytes = (d.headerWith lengthField).toBytes := by
  rw [headerWith_narrowed]
  exact congrArg (fun bs => _ ++ bs) (chainBytes_narrowed d.chainTail d.extensions)

theorem correctedLength_narrowed (d : GtpDraft) (n : Nat) :
    d.narrowed.correctedLength n = d.correctedLength n := by
  rw [correctedLength, ← GtpHeader.length_toBytes, toBytes_headerWith_narrowed,
    GtpHeader.length_toBytes, correctedLength]

theorem toBytes_headerOver_narrowed (d : GtpDraft) (n : Nat) :
    (d.narrowed.headerOver n).toBytes = (d.headerOver n).toBytes := by
  rw [headerOver, toBytes_headerWith_narrowed, correctedLength_narrowed]
  rfl

end GtpDraft

namespace CarrierDraft

/-- The elements of the layer. -/
def elements : CarrierDraft → List Element
  | gtp d => d.extensions.map .extension
  | _ => []

/-- The draft with the values in its elements cut. -/
def narrowed : CarrierDraft → CarrierDraft
  | gtp d => gtp d.narrowed
  | c => c

theorem elements_narrowed (c : CarrierDraft) :
    c.narrowed.elements = c.elements.map Element.narrowed := by
  cases c with
  | gtp d =>
    show (d.extensions.map GtpExtension.narrowed).map Element.extension
      = (d.extensions.map Element.extension).map Element.narrowed
    rw [List.map_map, List.map_map]
    rfl
  | _ => rfl

theorem format_narrowed (c : CarrierDraft) : c.narrowed.format = c.format := by
  cases c <;> rfl

theorem violations_narrowed (c : CarrierDraft) : c.narrowed.violations = c.violations := by
  cases c with
  | gtp d => exact d.violations_narrowed
  | _ => rfl

theorem lateViolations_narrowed (c : CarrierDraft) (length : Nat) :
    c.narrowed.lateViolations length = c.lateViolations length := by
  cases c with
  | gtp d =>
    show (if d.correctLength then ifOver "length" (d.narrowed.correctedLength length) 65535
      else []) = _
    rw [d.correctedLength_narrowed]
    rfl
  | _ => rfl

theorem toBytes_onto_narrowed (c : CarrierDraft) (payload : Option Packet) :
    (Packet.ofCarrier (c.narrowed.onto payload) payload).toBytes
      = (Packet.ofCarrier (c.onto payload) payload).toBytes := by
  rw [Packet.toBytes_ofCarrier, Packet.toBytes_ofCarrier]
  cases c with
  | gtp d =>
    exact congrArg (fun bs : Bytes => bs ++ [] ++ (payloadBytes payload ++ d.trailer))
      (d.toBytes_headerOver_narrowed _)
  | _ => rfl

/-- The elements of a layer are written in their order. -/
theorem writtenAs_onto (c : CarrierDraft) (payload : Option Packet) :
    ∃ front pieces behind,
      (Packet.ofCarrier (c.onto payload) payload).toBytes = front ++ pieces.flatten ++ behind
        ∧ List.Forall₂ Element.WrittenAs c.elements pieces := by
  cases c with
  | gtp d =>
    obtain ⟨pieces, hpieces, hwritten⟩ := chainBytes_writtenAs d.chainTail d.extensions
    have hheader : ∀ v, ∃ front, (d.headerWith v).toBytes = front ++ pieces.flatten := fun v =>
      ⟨_, congrArg (fun bs => _ ++ bs) hpieces⟩
    obtain ⟨front, hfront⟩ := hheader _
    refine ⟨front, pieces, payloadBytes payload ++ d.trailer, ?_, hwritten⟩
    rw [Packet.toBytes_ofCarrier, ← hfront]
    exact congrArg (fun bs => bs ++ (payloadBytes payload ++ d.trailer)) (List.append_nil _)
  | _ => exact ⟨_, [], [], by rw [List.flatten_nil, List.append_nil, List.append_nil], .nil⟩

end CarrierDraft

namespace Draft

/-- The elements of the outermost layer. -/
def elements : Draft → List Element
  | leaf l => l.elements
  | bare c => c.elements
  | carry c _ => c.elements

/-- **The draft with the values in the elements of its outermost layer
cut.** -/
def narrowed : Draft → Draft
  | leaf l => leaf l.narrowed
  | bare c => bare c.narrowed
  | carry c p => carry c.narrowed p

theorem elements_narrowed (d : Draft) : d.narrowed.elements = d.elements.map Element.narrowed := by
  cases d with
  | leaf l => exact l.elements_narrowed
  | bare c => exact c.elements_narrowed
  | carry c p => exact c.elements_narrowed

/-- **Cutting values makes no difference**, neither to whether a draft is
built, nor to what is wrong with it, nor to the octets that it is built
to. -/
theorem map_build_narrowed (d : Draft) :
    d.narrowed.build.map Packet.toBytes = d.build.map Packet.toBytes := by
  cases d with
  | leaf l =>
    have hkind : l.narrowed.kind = l.kind := by
      cases l <;> rfl
    rw [narrowed, build, build, l.violations_narrowed, hkind]
    cases BuildError.check l.kind.name l.violations with
    | error e => rfl
    | ok u => exact congrArg Except.ok l.toBytes_complete_narrowed
  | bare c =>
    rw [narrowed, build, build, c.violations_narrowed, CarrierDraft.complete_eq,
      CarrierDraft.complete_eq, c.format_narrowed, c.lateViolations_narrowed]
    cases BuildError.check c.format.protocol c.violations with
    | error e => rfl
    | ok u =>
      cases BuildError.check c.format.protocol (c.lateViolations _) with
      | error e => rfl
      | ok u => exact congrArg Except.ok (c.toBytes_onto_narrowed none)
  | carry c p =>
    rw [narrowed, build, build, c.violations_narrowed, c.format_narrowed]
    cases BuildError.check c.format.protocol c.violations with
    | error e => rfl
    | ok u =>
      cases p.build with
      | error e => rfl
      | ok q =>
        simp only [CarrierDraft.complete_eq, c.format_narrowed, c.lateViolations_narrowed]
        cases BuildError.check c.format.protocol (c.lateViolations _) with
        | error e => rfl
        | ok u => exact congrArg Except.ok (c.toBytes_onto_narrowed (some q))

/-- The elements of the outermost layer are written in their order. -/
theorem writtenAs_packet (d : Draft) :
    ∃ front pieces behind, d.packet.toBytes = front ++ pieces.flatten ++ behind
      ∧ List.Forall₂ Element.WrittenAs d.elements pieces := by
  cases d with
  | leaf l => exact l.writtenAs_complete
  | bare c => exact c.writtenAs_onto none
  | carry c p => exact c.writtenAs_onto (some p.packet)

/-- **Values that do not fit are cut.** A draft is built to the octets that
the draft with its values cut is built to, and fails if and as that one
does. In what is built the elements of the outermost layer are written one
after the other, each with the low bits of its values, and a value comes out
as it was set if and only if it fits. -/
theorem build_narrowed (d : Draft) :
    d.narrowed.build.map Packet.toBytes = d.build.map Packet.toBytes
      ∧ d.narrowed.elements = d.elements.map Element.narrowed
      ∧ (∀ e ∈ d.narrowed.elements, ∀ f ∈ e.bitValues, f.Fits)
      ∧ ∀ p, d.build = .ok p →
        ∃ front pieces behind, p.toBytes = front ++ pieces.flatten ++ behind
          ∧ List.Forall₂ (fun e octets => e.WrittenAs octets
              ∧ ∀ f ∈ e.bitValues, f.CutIn octets ∧ (f.written octets = f.value ↔ f.Fits))
              d.elements pieces := by
  refine ⟨d.map_build_narrowed, d.elements_narrowed, fun e he => ?_, fun p hp => ?_⟩
  · rw [d.elements_narrowed] at he
    obtain ⟨e, -, rfl⟩ := List.mem_map.mp he
    exact e.fits_narrowed
  · obtain ⟨-, rfl⟩ := build_eq_ok.mp hp
    obtain ⟨front, pieces, behind, hbytes, hwritten⟩ := d.writtenAs_packet
    refine ⟨front, pieces, behind, hbytes, hwritten.imp fun e octets h => ⟨h, fun f hf => ?_⟩⟩
    have hcut := h.cutIn f hf
    exact ⟨hcut, hcut.written_eq_iff⟩

/-- **A prefix with a reserved value of seven bits** in a solicitation: it
is built all the same, to the octets that a reserved value of zero would be
built to. -/
theorem build_narrowed_solicitation :
    let address : UInt8 → Ipv6Addr := fun b =>
      ⟨[0x20, 0x01, 0x0d, 0xb8] ++ Bytes.zeros 11 ++ [b], rfl⟩
    let info : UInt8 → PrefixInfo := fun reserved1 =>
      ⟨64, true, false, reserved1, 0, 0, 0, address 0⟩
    let d : UInt8 → Draft := fun reserved1 => leaf (.solicitation
      { target := some (address 1), options := [.prefixInfo (info reserved1)] })
    ∃ p, (d 64).build = .ok p ∧ (d 0).build.map Packet.toBytes = .ok p.toBytes
      ∧ ∃ front octets behind, p.toBytes = front ++ octets ++ behind
        ∧ octets = (NdpOption.prefixInfo (info 64)).toBytes
        ∧ BitValue.written ⟨3, 1, 6, 64⟩ octets = 0 := by
  intro address info d
  obtain ⟨hbytes, -, -, hwritten⟩ := build_narrowed (d 64)
  have hsound : (d 64).Sound := sound_leaf.mpr (by decide)
  have hp : (d 64).build = .ok (d 64).packet := build_eq_ok.mpr ⟨hsound, rfl⟩
  obtain ⟨front, pieces, behind, hpieces, helements⟩ := hwritten _ hp
  obtain ⟨octets, _, ⟨hoctets, hcut⟩, hnil, rfl⟩ := List.forall₂_cons_left_iff.mp helements
  rw [List.forall₂_nil_left_iff.mp hnil, List.flatten_cons, List.flatten_nil, List.append_nil]
    at hpieces
  have hzero : (d 64).narrowed = d 0 := by decide
  have hvalue : BitValue.CutIn ⟨3, 1, 6, 64⟩ octets := (hcut _ List.mem_cons_self).1
  rw [hp, hzero] at hbytes
  exact ⟨_, hp, hbytes, front, octets, behind, hpieces, hoctets, hvalue⟩

end Draft

end PacketCodec
