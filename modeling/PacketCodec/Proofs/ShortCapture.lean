import Mathlib.Data.List.Infix
import PacketCodec.Proofs.Depth
import PacketCodec.Proofs.Steps

/-!
# Captures that are cut short

A capture that was cut short shows the front of what was sent. What a
decoder finds there has to be the front of what it would have found in
the whole: the same fixed fields, and the first elements of the same list
(`Context.decode_cutOf`).

An element decoder is *steady*, `Window.Steady`, when an element that it
finds at the front of a region is found there as well when the region goes
on. Nothing is said about the places where it finds none: an element that
is cut in two is rejected in the shorter region and may be there in the
longer one. The lists then are prefixes of each other by an induction
along the reader.

The chunks of SCTP are the exception. The padding that aligns a chunk may
be missing at the end of a capture, and a chunk is accepted with as much
of it as there is: the last chunk of a capture may be the same chunk with
less padding (`SctpChunk.CutOf`).
-/

namespace PacketCodec

/-! ## Steady decoders -/

namespace Window

variable {α β : Type}

/-- **An element decoder is steady**: an element at the front of a region
is found there wherever the region starts, and when more octets follow. -/
def Steady (decode : Window → Except DecodeError α) : Prop :=
  ∀ ⦃offset : Nat⦄ ⦃b : UInt8⦄ ⦃rest : Bytes⦄ ⦃e : α⦄, decode ⟨offset, b :: rest⟩ = .ok e →
    ∀ (offset' : Nat) (more : Bytes), decode ⟨offset', b :: rest ++ more⟩ = .ok e

/-- A decoder that goes on with what a steady one has found, and looks at
its window for errors only. -/
theorem Steady.bind {decode : Window → Except DecodeError α}
    {next : Window → α → Except DecodeError β} (first : Steady decode)
    (second : ∀ ⦃w a b⦄, next w a = .ok b → ∀ w', next w' a = .ok b) :
    Steady fun w => decode w >>= next w := by
  intro offset c rest b h offset' more
  obtain ⟨a, ha, hb⟩ := bind_eq_ok.mp h
  exact bind_eq_ok.mpr ⟨a, first ha offset' more, second hb _⟩

end Window

theorem Ipv6Option.typeAndData_steady : Window.Steady typeAndData := by
  intro offset t rest p h offset' more
  unfold typeAndData at h ⊢
  cases rest with
  | nil => cases h
  | cons n rest =>
    simp only [List.cons_append] at h ⊢
    split at h
    · next data behind hs =>
      rw [Bytes.split?_append hs more]
      exact h
    · cases h

theorem Ipv6Option.decode_steady {decode : Window → Except DecodeError Ipv6Option}
    (h : decode ∈ decoders) : Window.Steady decode := by
  simp only [decoders, List.mem_cons, List.not_mem_nil, or_false] at h
  obtain rfl | rfl | rfl | rfl := h
  · exact fun _ _ _ _ h _ _ => h
  · exact typeAndData_steady.bind fun _ _ _ h _ => h
  · refine typeAndData_steady.bind ?_
    rintro w ⟨t, data⟩ e h w'
    dsimp only at h ⊢
    split at h
    · exact h
    · exact absurd h throw_ne_ok
  · exact typeAndData_steady.bind fun _ _ _ h _ => h

theorem NdpOption.typeAndData_steady : Window.Steady typeAndData := by
  intro offset t rest p h offset' more
  unfold typeAndData at h ⊢
  cases rest with
  | nil => cases h
  | cons units rest =>
    simp only [List.cons_append] at h ⊢
    split at h
    · cases h
    · next hunits =>
      rw [if_neg hunits]
      split at h
      · next data behind hs =>
        rw [Bytes.split?_append hs more]
        exact h
      · cases h

theorem NdpOption.decode_steady {decode : Window → Except DecodeError NdpOption}
    (h : decode ∈ decoders) : Window.Steady decode := by
  simp only [decoders, List.mem_cons, List.not_mem_nil, or_false] at h
  obtain rfl | rfl | rfl | rfl | rfl := h
  · exact typeAndData_steady.bind fun _ _ _ h _ => h
  · exact typeAndData_steady.bind fun _ _ _ h _ => h
  · refine typeAndData_steady.bind ?_
    rintro w ⟨t, units, data⟩ e h w'
    dsimp only at h ⊢
    split at h
    · exact h
    · exact absurd h throw_ne_ok
  · refine typeAndData_steady.bind ?_
    rintro w ⟨t, units, data⟩ e h w'
    dsimp only at h ⊢
    split at h
    · exact h
    · exact absurd h throw_ne_ok
  · exact typeAndData_steady.bind fun _ _ _ h _ => h

/-! ## GTP extension headers -/

namespace GtpExtension

theorem fixedContent_steady (units : Nat) : Window.Steady fun w => fixedContent w units := by
  intro offset declared rest data h offset' more
  simp only [fixedContent, List.cons_append] at h ⊢
  split at h
  · cases h
  · next hdeclared =>
    rw [if_neg hdeclared]
    split at h
    · next front behind hs =>
      rw [Bytes.split?_append hs more]
      exact h
    · cases h

theorem decodeWord_steady (make : UInt16 → GtpExtension) : Window.Steady (decodeWord make) := by
  refine (fixedContent_steady 1).bind fun w data e h w' => ?_
  split at h
  · exact h
  · exact absurd h throw_ne_ok

/-- Session information is found behind the first octet when more octets
follow. -/
theorem readSessionInfo_append {offset : Nat} {b : UInt8} {bs rest : Bytes} {info : SessionInfo}
    (h : readSessionInfo ⟨offset, b :: bs⟩ = .ok (info, rest)) (offset' : Nat) (more : Bytes) :
    readSessionInfo ⟨offset', b :: bs ++ more⟩ = .ok (info, rest ++ more) := by
  simp only [readSessionInfo, Window.after, List.drop_one, List.tail_cons,
    List.cons_append] at h ⊢
  rcases bs with _ | ⟨first, _ | ⟨second, bs⟩⟩
  · cases h
  · simp only at h
    split at h <;> cases h
  · simp only [List.cons_append] at h ⊢
    split at h
    · cases h
    · next htype =>
      rw [if_neg htype]
      split at h
      · next hdown =>
        rw [if_pos hdown]
        split at h
        · next hf =>
          cases h
          rw [(DownlinkInfo.fields?_takes _ _).steady hf more]
        · cases h
      · next hdown =>
        rw [if_neg hdown]
        split at h
        · next hf =>
          cases h
          rw [(UplinkInfo.fields?_takes _ _).steady hf more]
        · cases h

theorem decodePduSessionContainer_steady : Window.Steady decodePduSessionContainer := by
  intro offset declared rest e h offset' more
  simp only [decodePduSessionContainer, List.cons_append, bind_eq_ok] at h ⊢
  obtain ⟨⟨info, behind⟩, hinfo, h⟩ := h
  refine ⟨_, readSessionInfo_append hinfo offset' more, ?_⟩
  split at h
  · exact absurd h throw_ne_ok
  · next hdeclared =>
    rw [if_neg hdeclared]
    dsimp only at h ⊢
    split at h
    · next padding next tail hs =>
      rw [Bytes.split?_append hs more]
      exact h
    · exact absurd h throw_ne_ok

theorem decodeUnknown_steady : Window.Steady decodeUnknown := by
  intro offset units rest e h offset' more
  simp only [decodeUnknown, List.cons_append] at h ⊢
  split at h
  · cases h
  · next hunits =>
    rw [if_neg hunits]
    split at h
    · next content next tail hs =>
      rw [Bytes.split?_append hs more]
      exact h
    · cases h

theorem decode_steady {decode : Window → Except DecodeError GtpExtension} (h : decode ∈ decoders) :
    Window.Steady decode := by
  simp only [decoders, List.mem_cons, List.not_mem_nil, or_false] at h
  obtain rfl | rfl | rfl | rfl | rfl | rfl := h
  · exact decodeWord_steady udpPort
  · exact decodeWord_steady pduNumber
  · refine (fixedContent_steady 2).bind fun w data e h w' => ?_
    dsimp only at h ⊢
    split at h
    · exact h
    · exact absurd h throw_ne_ok
  · refine (fixedContent_steady 1).bind fun w data e h w' => ?_
    split at h
    · exact h
    · exact absurd h throw_ne_ok
  · exact decodePduSessionContainer_steady
  · exact decodeUnknown_steady

end GtpExtension

/-! ## Lists and chains -/

/-- **A list of elements that is cut short** is the front of the whole
list. The induction is along the reader of the shorter region. -/
theorem elementsFrom_prefix {α : Type} {decode : Window → Except DecodeError α}
    (h : Window.Steady decode) (size : α → Nat) (skip offset offset' : Nat) (bs more : Bytes) :
    (elementsFrom decode size skip offset bs).1
      <+: (elementsFrom decode size skip offset' (bs ++ more)).1 := by
  fun_induction elementsFrom decode size skip offset bs generalizing offset' with
  | case1 => exact List.nil_prefix
  | case2 skip offset b rest ih => exact ih (offset' + 1)
  | case3 => exact List.nil_prefix
  | case4 offset b rest e he below ih =>
    have hlong := h he offset' more
    rw [List.cons_append] at hlong ⊢
    rw [elementsFrom, hlong]
    exact List.cons_prefix_cons.mpr ⟨rfl, ih (offset' + 1)⟩

theorem Window.elements_prefix {α : Type} {decode : Window → Except DecodeError α}
    (h : Steady decode) (size : α → Nat) {w w' : Window} (hw : w.bytes <+: w'.bytes) :
    (w.elements decode size).1 <+: (w'.elements decode size).1 := by
  obtain ⟨more, hmore⟩ := hw
  rw [elements, elements, ← hmore]
  exact elementsFrom_prefix h size 0 w.offset w'.offset w.bytes more

section Chain

variable {decode : GtpExtensionType → Window → Except DecodeError GtpExtension}

/-- The same for chains: the type behind an extension header is inside the
shorter region if the extension header is part of its chain. -/
theorem chainFrom_prefix (h : ∀ t, Window.Steady (decode t)) (next : GtpExtensionType)
    (skip offset offset' : Nat) (bs more : Bytes) :
    (chainFrom decode next skip offset bs).extensions
      <+: (chainFrom decode next skip offset' (bs ++ more)).extensions := by
  fun_induction chainFrom decode next skip offset bs generalizing offset' with
  | case1 => exact List.nil_prefix
  | case2 next skip offset b rest ih => exact ih (offset' + 1)
  | case3 => exact List.nil_prefix
  | case4 => exact List.nil_prefix
  | case5 => exact List.nil_prefix
  | case6 next offset b rest hnext e he following hfollowing below ih =>
    have hlong := h next he offset' more
    have hlast : (b :: rest ++ more)[e.length - 1]? = some following := by
      obtain ⟨hlt, -⟩ := List.getElem?_eq_some_iff.mp hfollowing
      rw [List.getElem?_append_left hlt, hfollowing]
    rw [List.cons_append] at hlong hlast ⊢
    rw [chainFrom, if_neg hnext, hlong]
    simp only [hlast]
    exact List.cons_prefix_cons.mpr ⟨rfl, ih (offset' + 1)⟩

theorem readChain_prefix (h : ∀ t, Window.Steady (decode t)) (first : GtpExtensionType)
    {region region' : Window} (hregion : region.bytes <+: region'.bytes) :
    (readChain decode first region).extensions
      <+: (readChain decode first region').extensions := by
  obtain ⟨more, hmore⟩ := hregion
  rw [readChain, readChain, ← hmore]
  exact chainFrom_prefix h first 0 region.offset region'.offset region.bytes more

end Chain

/-! ## Chunks -/

/-- **A list of chunks that is cut short.** Its chunks are the first of the
whole list, but the last of them may have less padding. -/
inductive SctpChunk.CutOf : List SctpChunk → List SctpChunk → Prop
  /-- The list ends before a chunk. -/
  | nil (whole : List SctpChunk) : CutOf [] whole
  /-- The list ends inside the padding of a chunk. -/
  | last (c : SctpChunk) {padding : Bytes} (h : padding <+: c.padding) (whole : List SctpChunk) :
    CutOf [{ c with padding := padding }] (c :: whole)
  /-- The lists have the same chunk in front. -/
  | cons (c : SctpChunk) {cut whole : List SctpChunk} (h : CutOf cut whole) :
    CutOf (c :: cut) (c :: whole)

/-- **A chunk in a longer region** is the same, unless the shorter region
ends inside its padding. -/
theorem SctpChunk.decode_append {offset : Nat} {bs : Bytes} {c : SctpChunk}
    (h : decode ⟨offset, bs⟩ = .ok c) (offset' : Nat) (more : Bytes) :
    ∃ padding, decode ⟨offset', bs ++ more⟩ = .ok { c with padding := padding }
      ∧ c.padding <+: padding ∧ (c.padding = padding ∨ c.length = bs.length) := by
  obtain ⟨behind, hbs, hdeclared, hpadding⟩ := decode_eq_ok_iff.mp h
  have hbs : bs = c.withoutPadding.toBytes ++ behind := hbs
  refine ⟨(behind ++ more).take (paddingFor c.lengthField.toNat),
    decode_eq_ok_iff.mpr ⟨behind ++ more, ?_, hdeclared, rfl⟩, ?_, ?_⟩
  · rw [hbs, List.append_assoc]
    rfl
  · rw [hpadding]
    exact (List.prefix_append behind more).take _
  · rcases Nat.le_total (paddingFor c.lengthField.toNat) behind.length with hle | hle
    · exact .inl (by rw [hpadding, List.take_append_of_le_length hle])
    · -- All that is behind is padding.
      rw [List.take_of_length_le hle] at hpadding
      refine .inr ?_
      rw [hbs, ← hpadding, toBytes_withoutPadding_append, length_toBytes]

theorem SctpChunk.elementsFrom_cutOf (skip offset offset' : Nat) (bs more : Bytes) :
    CutOf (elementsFrom decode length skip offset bs).1
      (elementsFrom decode length skip offset' (bs ++ more)).1 := by
  fun_induction elementsFrom decode length skip offset bs generalizing offset' with
  | case1 => exact .nil _
  | case2 skip offset b rest ih => exact ih (offset' + 1)
  | case3 => exact .nil _
  | case4 offset b rest c hc below ih =>
    obtain ⟨padding, hlong, hpadding, hsame⟩ := decode_append hc offset' more
    rw [List.cons_append] at hlong ⊢
    rw [elementsFrom, hlong]
    rcases hsame with rfl | hend
    · exact .cons c (ih (offset' + 1))
    · -- The chunk takes up the shorter region, so no other chunk is behind it.
      have hnone : below = ([], false) := by
        show elementsFrom decode length (c.length - 1) (offset + 1) rest = _
        rw [hend, List.length_cons, Nat.add_sub_cancel, elementsFrom_skip, List.drop_length,
          elementsFrom]
      rw [hnone]
      exact .last { c with padding := padding } hpadding _

/-! ## Layers -/

/-- **A layer with a list of elements, cut short**: the same fixed fields,
and the first elements of the list. What is behind the elements, and
whether the list is truncated, is as it may be. -/
inductive Packet.CutOf : Leaf ⊕ Carrier → Leaf ⊕ Carrier → Prop
  | options {kind : OptionsKind} {h : OptionsHeader} {options : List Ipv6Option}
    (elements : options <+: h.options) (truncated : Bool) (unparsed unparsed' : Bytes) :
    CutOf (.inr (.options kind { h with options, truncated } unparsed))
      (.inr (.options kind h unparsed'))
  | solicitation {h : SolicitationHeader} {options : List NdpOption}
    (elements : options <+: h.options) (truncated : Bool) (trailer trailer' : Bytes) :
    CutOf (.inl (.solicitation { h with options, truncated } trailer))
      (.inl (.solicitation h trailer'))
  | advertisement {h : AdvertisementHeader} {options : List NdpOption}
    (elements : options <+: h.options) (truncated : Bool) (trailer trailer' : Bytes) :
    CutOf (.inl (.advertisement { h with options, truncated } trailer))
      (.inl (.advertisement h trailer'))
  | sctp {h : SctpHeader} {chunks : List SctpChunk} (elements : SctpChunk.CutOf chunks h.chunks)
    (truncated : Bool) (trailer trailer' : Bytes) (algorithm : SctpChecksum) :
    CutOf (.inl (.sctp { h with chunks, truncated } trailer algorithm))
      (.inl (.sctp h trailer' algorithm))
  | gtp {h : GtpHeader} {extensions : List GtpExtension}
    (elements : extensions <+: h.extensions) (chainTail : GtpExtensionType) (truncated : Bool)
    (trailer trailer' : Bytes) :
    CutOf (.inr (.gtp { h with extensions, chainTail, truncated } trailer))
      (.inr (.gtp h trailer'))

/-- The formats that have a list of elements. -/
def Format.listing : List Format :=
  [.hopByHop, .destination, .solicitation, .advertisement, .sctp, .gtp]

section Read

variable {w w' : Window}

/-- What is read off the front of a window is read off a longer one. -/
theorem Window.read_prefix {α : Type} {protocol : String} {need : Nat}
    {front? : Bytes → Option (α × Bytes)} (steady : Bytes.Steady front?)
    (hw : w'.bytes <+: w.bytes) {a a' : α} {rest rest' : Bytes}
    (h' : w'.read protocol need front? = .ok (a', rest'))
    (h : w.read protocol need front? = .ok (a, rest)) : a' = a ∧ rest' <+: rest := by
  obtain ⟨more, hmore⟩ := hw
  rw [read_eq_ok] at h h'
  have hlong := steady h' more
  rw [hmore, h] at hlong
  cases hlong
  exact ⟨rfl, List.prefix_append rest' more⟩

theorem OptionsHeader.read_prefix {kind : OptionsKind}
    {decode : Window → Except DecodeError Ipv6Option} (steady : Window.Steady decode)
    (hw : w'.bytes <+: w.bytes) {h h' : OptionsHeader} {unparsed unparsed' : Bytes}
    {inner inner' : Inner} (hr' : read kind decode w' = .ok (h', unparsed', inner'))
    (hr : read kind decode w = .ok (h, unparsed, inner)) :
    ∃ options truncated, options <+: h.options ∧ h' = { h with options, truncated } := by
  obtain ⟨more, hmore⟩ := hw
  unfold read at hr hr'
  split at hr'
  · next nextHeader hdrExtLen rest hbytes =>
    cases hr'
    rw [← hmore, hbytes] at hr
    cases hr
    exact ⟨_, _, Window.elements_prefix steady _ ((List.prefix_append rest more).take _), rfl⟩
  · cases hr'

theorem readNdpOptions_prefix {decode : Window → Except DecodeError NdpOption}
    (steady : Window.Steady decode) (hw : w'.bytes <+: w.bytes) (start : Nat) :
    (readNdpOptions decode (w'.after start)).1 <+: (readNdpOptions decode (w.after start)).1 :=
  Window.elements_prefix steady _ (hw.drop start)

theorem SolicitationHeader.read_prefix {decode : Window → Except DecodeError NdpOption}
    (steady : Window.Steady decode) (hw : w'.bytes <+: w.bytes) {h h' : SolicitationHeader}
    {trailer trailer' : Bytes} (hr' : read decode w' = .ok (h', trailer'))
    (hr : read decode w = .ok (h, trailer)) :
    ∃ options truncated, options <+: h.options ∧ h' = { h with options, truncated } := by
  obtain ⟨⟨_, rest'⟩, hfixed', hr'⟩ := bind_eq_ok.mp hr'
  obtain ⟨⟨_, rest⟩, hfixed, hr⟩ := bind_eq_ok.mp hr
  obtain ⟨rfl, -⟩ := Window.read_prefix takes.steady hw hfixed' hfixed
  cases hr'
  cases hr
  exact ⟨_, _, readNdpOptions_prefix steady hw _, rfl⟩

theorem AdvertisementHeader.read_prefix {decode : Window → Except DecodeError NdpOption}
    (steady : Window.Steady decode) (hw : w'.bytes <+: w.bytes) {h h' : AdvertisementHeader}
    {trailer trailer' : Bytes} (hr' : read decode w' = .ok (h', trailer'))
    (hr : read decode w = .ok (h, trailer)) :
    ∃ options truncated, options <+: h.options ∧ h' = { h with options, truncated } := by
  obtain ⟨⟨_, rest'⟩, hfixed', hr'⟩ := bind_eq_ok.mp hr'
  obtain ⟨⟨_, rest⟩, hfixed, hr⟩ := bind_eq_ok.mp hr
  obtain ⟨rfl, -⟩ := Window.read_prefix SolicitationHeader.takes.steady hw hfixed' hfixed
  cases hr'
  cases hr
  exact ⟨_, _, readNdpOptions_prefix steady hw _, rfl⟩

theorem SctpHeader.read_prefix (hw : w'.bytes <+: w.bytes) {h h' : SctpHeader}
    {trailer trailer' : Bytes} (hr' : read w' = .ok (h', trailer'))
    (hr : read w = .ok (h, trailer)) :
    ∃ chunks truncated, SctpChunk.CutOf chunks h.chunks
      ∧ h' = { h with chunks, truncated } := by
  obtain ⟨⟨_, rest'⟩, hfixed', hr'⟩ := bind_eq_ok.mp hr'
  obtain ⟨⟨_, rest⟩, hfixed, hr⟩ := bind_eq_ok.mp hr
  obtain ⟨rfl, more, rfl⟩ := Window.read_prefix takes.steady hw hfixed' hfixed
  cases hr'
  cases hr
  exact ⟨_, _, SctpChunk.elementsFrom_cutOf 0 _ _ rest' more, rfl⟩

theorem GtpHeader.withChain_prefix
    {decode : GtpExtensionType → Window → Except DecodeError GtpExtension}
    (steady : ∀ t, Window.Steady (decode t)) (h : GtpHeader) {region region' : Window}
    (hregion : region'.bytes <+: region.bytes) :
    ∃ extensions chainTail truncated, extensions <+: (h.withChain decode region).extensions
      ∧ h.withChain decode region'
        = { h.withChain decode region with extensions, chainTail, truncated } := by
  unfold withChain
  split
  · exact ⟨_, _, _, readChain_prefix steady h.nextExtType hregion, rfl⟩
  · exact ⟨_, _, _, List.prefix_rfl, rfl⟩

/-- The extension headers of a message are read from what the length field
and the capture leave for them, which is no more in a shorter capture. -/
theorem GtpHeader.read_prefix
    {decode : GtpExtensionType → Window → Except DecodeError GtpExtension}
    (steady : ∀ t, Window.Steady (decode t)) (hw : w'.bytes <+: w.bytes) {h h' : GtpHeader}
    {trailer trailer' : Bytes} {inner inner' : Inner}
    (hr' : read decode w' = .ok (h', trailer', inner'))
    (hr : read decode w = .ok (h, trailer, inner)) :
    ∃ extensions chainTail truncated, extensions <+: h.extensions
      ∧ h' = { h with extensions, chainTail, truncated } := by
  obtain ⟨⟨m', rest'⟩, hfixed', hr'⟩ := bind_eq_ok.mp hr'
  obtain ⟨⟨m, rest⟩, hfixed, hr⟩ := bind_eq_ok.mp hr
  obtain ⟨rfl, more, rfl⟩ := Window.read_prefix takes.steady hw hfixed' hfixed
  dsimp only at hr hr'
  split at hr'
  · exact absurd hr' throw_ne_ok
  · next base rest' hopt =>
    rw [m'.optional?_takes.steady hopt more] at hr
    cases hr'
    cases hr
    have hlength : w'.length ≤ w.length := hw.length_le
    refine withChain_prefix steady base (List.IsPrefix.trans ?_
      ((List.prefix_append rest' more).take _))
    exact List.take_isPrefix_take.mpr (.inl (by omega))

end Read

theorem Peeled.own_assemble_carrier (payload : Selector → Window → Option Packet) (c : Carrier)
    (inner : Inner) : ((carrier c inner).assemble payload).own = .inr c := by
  rw [assemble_carrier]
  cases inner.payload payload <;> rfl

namespace Context

variable {ctx : Context}

/-- An options header in a short capture, of either kind. -/
theorem own_assemble_options_cutOf (library : ctx.decoders.OfLibrary) {kind : OptionsKind}
    {w w' : Window} (hw : w'.bytes <+: w.bytes) {l l' : Peeled}
    (hl' : peel.options ctx w' kind = .ok l') (hl : peel.options ctx w kind = .ok l)
    (payload payload' : Selector → Window → Option Packet) :
    Packet.CutOf (l'.assemble payload').own (l.assemble payload).own := by
  have steady : Window.Steady ctx.decoders.ipv6Option := fun o b rest e he =>
    Ipv6Option.decode_steady (library.ipv6Options.get b) he
  obtain ⟨⟨h', unparsed', inner'⟩, hr', hl'⟩ := bind_eq_ok.mp hl'
  obtain ⟨⟨h, unparsed, inner⟩, hr, hl⟩ := bind_eq_ok.mp hl
  cases hl'
  cases hl
  obtain ⟨options, truncated, helements, rfl⟩ := OptionsHeader.read_prefix steady hw hr' hr
  rw [Peeled.own_assemble_carrier, Peeled.own_assemble_carrier]
  exact .options helements truncated unparsed' unparsed

/-- **One layer of a short capture**, whatever the layers are put over. -/
theorem own_assemble_cutOf (library : ctx.decoders.OfLibrary) {f : Format}
    (hf : f ∈ Format.listing) {w w' : Window} (hw : w'.bytes <+: w.bytes) {l l' : Peeled}
    (hl' : ctx.peel f w' = .ok l') (hl : ctx.peel f w = .ok l)
    (payload payload' : Selector → Window → Option Packet) :
    Packet.CutOf (l'.assemble payload').own (l.assemble payload).own := by
  have hndp : Window.Steady ctx.decoders.ndpOption := fun o b rest e he =>
    NdpOption.decode_steady (library.ndpOptions.get b) he
  have hgtp (t : GtpExtensionType) : Window.Steady (ctx.decoders.gtpExtension t) :=
    GtpExtension.decode_steady (library.gtpExtensions.get t)
  cases f with
  | hopByHop => exact own_assemble_options_cutOf library hw hl' hl payload payload'
  | destination => exact own_assemble_options_cutOf library hw hl' hl payload payload'
  | solicitation =>
    obtain ⟨⟨h', trailer'⟩, hr', hl'⟩ := bind_eq_ok.mp hl'
    obtain ⟨⟨h, trailer⟩, hr, hl⟩ := bind_eq_ok.mp hl
    cases hl'
    cases hl
    obtain ⟨options, truncated, helements, rfl⟩ := SolicitationHeader.read_prefix hndp hw hr' hr
    exact .solicitation helements truncated trailer' trailer
  | advertisement =>
    obtain ⟨⟨h', trailer'⟩, hr', hl'⟩ := bind_eq_ok.mp hl'
    obtain ⟨⟨h, trailer⟩, hr, hl⟩ := bind_eq_ok.mp hl
    cases hl'
    cases hl
    obtain ⟨options, truncated, helements, rfl⟩ := AdvertisementHeader.read_prefix hndp hw hr' hr
    exact .advertisement helements truncated trailer' trailer
  | sctp =>
    obtain ⟨⟨h', trailer'⟩, hr', hl'⟩ := bind_eq_ok.mp hl'
    obtain ⟨⟨h, trailer⟩, hr, hl⟩ := bind_eq_ok.mp hl
    cases hl'
    cases hl
    obtain ⟨chunks, truncated, helements, rfl⟩ := SctpHeader.read_prefix hw hr' hr
    exact .sctp helements truncated trailer' trailer _
  | gtp =>
    obtain ⟨⟨h', trailer', inner'⟩, hr', hl'⟩ := bind_eq_ok.mp hl'
    obtain ⟨⟨h, trailer, inner⟩, hr, hl⟩ := bind_eq_ok.mp hl
    cases hl'
    cases hl
    obtain ⟨extensions, chainTail, truncated, helements, rfl⟩ :=
      GtpHeader.read_prefix hgtp hw hr' hr
    rw [Peeled.own_assemble_carrier, Peeled.own_assemble_carrier]
    exact .gtp helements chainTail truncated trailer' trailer
  | ethernet | arp | ipv6 | routing | fragment | icmpv6 | echo | udp => simp [Format.listing] at hf

/-- **A short capture shows the front of the whole.** For each format with
a list of elements, registries put together from the decoders of this
library and any settings: when the octets of a window are the first ones
of another, and both are accepted, the layers read off them have the same
fixed fields, and the elements of the shorter one are the first elements
of the longer one. Only the last chunk of an SCTP packet may be short of
padding. -/
theorem decode_cutOf (library : ctx.decoders.OfLibrary) {f : Format} (hf : f ∈ Format.listing)
    {buf buf' : Bytes} {offset offset' length length' : Nat}
    (hcut : buf'.clamp offset' length' <+: buf.clamp offset length) {p p' : Packet}
    (hp' : ctx.decode f buf' offset' length' = .ok p')
    (hp : ctx.decode f buf offset length = .ok p) :
    Packet.CutOf p'.own p.own := by
  obtain ⟨w', hw', hp'⟩ := bind_eq_ok.mp hp'
  obtain ⟨w, hw, hp⟩ := bind_eq_ok.mp hp
  obtain ⟨-, rfl⟩ := Window.cut_eq_ok.mp hw'
  obtain ⟨-, rfl⟩ := Window.cut_eq_ok.mp hw
  obtain ⟨l', hl', rfl⟩ := map_eq_ok.mp hp'
  obtain ⟨l, hl, rfl⟩ := map_eq_ok.mp hp
  exact own_assemble_cutOf library hf hcut hl' hl ctx.payloads ctx.payloads

/-- An SCTP packet of two chunks that is cut inside the padding of the
first. -/
theorem decode_cutOf_sctp :
    let fields : SctpHeader := ⟨0x0101, 0x0101, 0x01010101, 0x01010101, [], false⟩
    let buf : Bytes := List.replicate 12 1 ++ [0, 3, 0, 5, 0xaa, 0, 0, 0] ++ [1, 0, 0, 4]
    let cut := Packet.leaf (.sctp { fields with chunks := [⟨0, 3, 5, [0xaa], [0]⟩] } [] .crc32c)
    let whole := Packet.leaf (.sctp
      { fields with chunks := [⟨0, 3, 5, [0xaa], [0, 0, 0]⟩, ⟨1, 0, 4, [], []⟩] } [] .crc32c)
    Decoders.standard.OfLibrary ∧ Format.sctp ∈ Format.listing
      ∧ buf.clamp 0 18 <+: buf.clamp 0 24
      ∧ decode {} .sctp buf 0 18 = .ok cut ∧ decode {} .sctp buf 0 24 = .ok whole
      ∧ Packet.CutOf cut.own whole.own := by
  intro fields buf cut whole
  have hprefix : buf.clamp 0 18 <+: buf.clamp 0 24 := by decide
  have hcut : decode {} .sctp buf 0 18 = .ok cut := by decide +kernel
  have hwhole : decode {} .sctp buf 0 24 = .ok whole := by decide +kernel
  have hlisting : Format.sctp ∈ Format.listing := by simp [Format.listing]
  exact ⟨Decoders.standard_ofLibrary, hlisting, hprefix, hcut, hwhole,
    @decode_cutOf {} Decoders.standard_ofLibrary .sctp hlisting buf buf 0 0 24 18 hprefix whole cut
      hcut hwhole⟩

end Context

end PacketCodec
