import PacketCodec.Proofs.ElementLists
import PacketCodec.Proofs.Obtainable
import PacketCodec.Proofs.SctpCheck

/-!
# Lists of chunks

Reading and writing a list of chunks undo each other, but for one thing: a
capture may end inside the padding of its last chunk. Every other chunk
that is decoded has a right length field and is followed by as many octets
as align the next one (`SctpChunk.forall_dropLast_aligned`), and such
chunks are read back as they are written, whatever is behind them
(`SctpChunk.Declared.readsBack`).

A chunk short of padding keeps what padding there was. So a list that ends
with one cannot be continued: a chunk that is written behind it loses its
first octets to the padding that is missing, and is not found again
(`Context.decode_append_chunk`). The reason is that a chunk is not written
again inside itself so many octets later. That would make all of it zeros,
its padding being zeros (`Bytes.eq_zero_of_shifted`), and no length field is
zero.
-/

namespace PacketCodec

/-- **A byte string that is found again inside itself** further behind, in
front of zeros, is all zeros: an octet that is not zero would be found
again further and further behind. -/
theorem Bytes.eq_zero_of_shifted {bs zeros front behind : Bytes}
    (h : bs ++ zeros = front ++ (bs ++ behind)) (hfront : front ≠ [])
    (hzeros : ∀ b ∈ zeros, b = 0) : ∀ b ∈ bs, b = 0 := by
  -- On the number of octets of `bs` from the one in question on.
  have hindex : ∀ n i, bs.length - i = n → ∀ b, bs[i]? = some b → b = 0 := by
    intro n
    induction n using Nat.strong_induction_on with
    | _ n ih =>
      intro i hn b hb
      obtain ⟨hi, -⟩ := List.getElem?_eq_some_iff.mp hb
      have hpos := List.length_pos_iff.mpr hfront
      have hagain : (bs ++ zeros)[front.length + i]? = some b := by
        rw [h, List.getElem?_append_right (Nat.le_add_right _ _), Nat.add_sub_cancel_left,
          List.getElem?_append_left hi, hb]
      rcases Nat.lt_or_ge (front.length + i) bs.length with hlt | hge
      · rw [List.getElem?_append_left hlt] at hagain
        exact ih _ (by omega) _ rfl b hagain
      · rw [List.getElem?_append_right hge] at hagain
        exact hzeros b (List.mem_of_getElem? hagain)
  intro b hb
  obtain ⟨i, hi⟩ := List.getElem?_of_mem hb
  exact hindex _ i rfl b hi

/-! ## Single chunks -/

namespace SctpChunk

/-- **All the padding is there**: the chunk takes up a multiple of four
octets, and its padding is no longer than that takes. -/
def Aligned (c : SctpChunk) : Prop := c.length % 4 = 0 ∧ c.padding.length < 4

instance (c : SctpChunk) : Decidable c.Aligned :=
  inferInstanceAs (Decidable (_ ∧ _))

theorem aligned_iff {c : SctpChunk} (h : c.Declared) :
    c.Aligned ↔ c.padding.length = paddingFor c.lengthField.toNat := by
  rw [Aligned, length, ← h, paddingFor]
  omega

/-- A chunk made of a value is one. -/
theorem declared_aligned_ofValue (chunkType : SctpChunkType) (flags : UInt8) {value : Bytes}
    (h : value.length ≤ 65531) :
    (ofValue chunkType flags value).Declared ∧ (ofValue chunkType flags value).Aligned := by
  have hdeclared : (ofValue chunkType flags value).Declared := by
    show (UInt16.ofNat (min (headSize + value.length) (UInt16.size - 1))).toNat = _
    have hmin : min (headSize + value.length) (UInt16.size - 1) = headSize + value.length :=
      Nat.min_eq_left (by rw [headSize, UInt16.size]; omega)
    rw [hmin, UInt16.toNat_ofNat_of_lt' (by rw [headSize, UInt16.size]; omega)]
    rfl
  refine ⟨hdeclared, (aligned_iff hdeclared).mpr ?_⟩
  rw [hdeclared, ofValue, Bytes.zeros, List.length_replicate, paddingFor, paddingFor, headSize]
  dsimp only
  omega

/-- **A chunk is decoded off the front of what is written for it**, with as
many octets of what follows as its padding lacks. -/
theorem Declared.decode_toBytes {c : SctpChunk} (h : c.Declared) (offset : Nat) (behind : Bytes) :
    decode ⟨offset, c.toBytes ++ behind⟩
      = .ok { c with padding := (c.padding ++ behind).take (paddingFor c.lengthField.toNat) } := by
  refine decode_eq_ok_iff.mpr ⟨c.padding ++ behind, ?_, h, rfl⟩
  rw [← toBytes_withoutPadding_append, List.append_assoc]
  rfl

/-- **A chunk with all its padding is read back.** -/
theorem Declared.readsBack {c : SctpChunk} (h : c.Declared) (aligned : c.Aligned) :
    ReadsBack decode toBytes c := by
  intro offset behind
  rw [h.decode_toBytes, List.take_left' ((aligned_iff h).mp aligned)]

/-- What is decoded has a right length field and no more padding than it
takes; if it has less, the chunk ends its window. -/
theorem padding_of_decode {w : Window} {c : SctpChunk} (h : decode w = .ok c) :
    c.Declared ∧ c.padding.length ≤ paddingFor c.lengthField.toNat
      ∧ (c.Aligned ∨ c.length = w.length) := by
  obtain ⟨behind, hw, hdeclared, hpadding⟩ := decode_eq_ok_iff.mp h
  refine ⟨hdeclared, by rw [hpadding]; exact List.length_take_le _ _, ?_⟩
  rcases Nat.le_total (paddingFor c.lengthField.toNat) behind.length with hle | hle
  · exact .inl ((aligned_iff hdeclared).mpr (by rw [hpadding, List.length_take_of_le hle]))
  · rw [List.take_of_length_le hle] at hpadding
    rw [Window.length, hw, ← hpadding, toBytes_withoutPadding_append, length_toBytes]
    exact .inr rfl

/-! ## Lists -/

theorem forall_dropLast_aligned (w : Window) :
    ∀ c ∈ (w.elements decode length).1.dropLast, c.Aligned := by
  refine w.elements_induction (motive := fun _ r => ∀ c ∈ r.1.dropLast, c.Aligned)
    decode_exact.size_pos ?_ ?_ ?_
  · exact fun _ _ h => absurd h List.not_mem_nil
  · exact fun _ _ _ _ _ h => absurd h List.not_mem_nil
  · intro w c behind _ hc hbehind ih
    by_cases hnil : behind.1 = []
    · rw [hnil]
      exact fun _ h => absurd h List.not_mem_nil
    · rw [List.dropLast_cons_of_ne_nil hnil, List.forall_mem_cons]
      refine ⟨?_, ih⟩
      -- A chunk that ends its window has none behind it.
      obtain ⟨-, -, aligned | hend⟩ := padding_of_decode hc
      · exact aligned
      · rw [Window.after, hend, Window.length, List.drop_length, Window.elements_nil] at hbehind
        exact absurd (congrArg Prod.fst hbehind) hnil

/-- **What the chunks of a region are**: they are what is written in front
of what they leave of it. -/
theorem elements_spec {w : Window} {chunks : List SctpChunk} {truncated : Bool}
    (h : w.elements decode length = (chunks, truncated)) :
    let left := w.after (totalSize length chunks)
    chunks.flatMap toBytes ++ left.bytes = w.bytes
      ∧ (∀ c ∈ chunks, c.Declared ∧ c.padding.length ≤ paddingFor c.lengthField.toNat)
      ∧ (∀ c ∈ chunks.dropLast, c.Aligned)
      ∧ (truncated = true ↔ left.bytes ≠ [])
      ∧ (left.bytes ≠ [] → ∃ err, decode left = .error err) := by
  have hbytes := w.flatMap_elements decode_exact
  have hdeclared : ∀ c ∈ (w.elements decode length).1,
      c.Declared ∧ c.padding.length ≤ paddingFor c.lengthField.toNat :=
    forall_mem_elementsFrom (fun _ _ hc => ⟨(padding_of_decode hc).1, (padding_of_decode hc).2.1⟩)
      length 0 w.offset w.bytes
  have haligned := forall_dropLast_aligned w
  rw [h] at hbytes hdeclared haligned
  exact ⟨hbytes, hdeclared, haligned, Window.elements_left decode_exact.size_pos h⟩

/-- Chunks with all their padding are read as they are written. -/
theorem elements_of_aligned {chunks : List SctpChunk}
    (h : ∀ c ∈ chunks, c.Declared ∧ c.Aligned) (offset : Nat) :
    (⟨offset, chunks.flatMap toBytes⟩ : Window).elements decode length = (chunks, false) :=
  Window.elements_of_readsBack decode_exact (fun c hc => (h c hc).1.readsBack (h c hc).2) offset

/-- A chunk that is padded with zeros is not written again inside itself. -/
theorem Declared.not_shifted {c c' : SctpChunk} (h : c.Declared) (hpadding : ∀ b ∈ c.padding, b = 0)
    (hsame : c'.withoutPadding = c.withoutPadding) {front behind : Bytes} (hfront : front ≠ []) :
    c.toBytes ≠ front ++ (c'.toBytes ++ behind) := by
  intro hagain
  rw [← c.toBytes_withoutPadding_append, ← c'.toBytes_withoutPadding_append, hsame,
    List.append_assoc] at hagain
  have hzero := Bytes.eq_zero_of_shifted hagain hfront hpadding
  have hfield : Bytes.be16 c.lengthField = List.replicate 2 0 := by
    refine List.eq_replicate_iff.mpr ⟨Bytes.length_be16 _, fun b hb => hzero b ?_⟩
    rw [toBytes, withoutPadding]
    simp [hb]
  have hnat : c.lengthField.toNat = 0 := by
    have hword : Bytes.beNat (Bytes.be16 c.lengthField) = c.lengthField.toNat :=
      Bytes.beNat_be c.lengthField.toNat_lt
    rw [← hword, hfield]
    rfl
  rw [h, headSize] at hnat
  omega

/-- What is behind a chunk that is short of padding is read from behind
the octets that the chunk takes of it. -/
theorem Declared.elements_short {c : SctpChunk} (h : c.Declared) (offset : Nat) {behind : Bytes}
    {k : Nat} (hk : paddingFor c.lengthField.toNat = c.padding.length + k)
    (hbehind : k ≤ behind.length) :
    (⟨offset, c.toBytes ++ behind⟩ : Window).elements decode length
      = let rest := (⟨offset + (c.length + k), behind.drop k⟩ : Window).elements decode length
        ({ c with padding := c.padding ++ behind.take k } :: rest.1, rest.2) := by
  have hne : c.toBytes ++ behind ≠ [] := by
    rw [toBytes, List.cons_append]
    exact List.cons_ne_nil _ _
  have hlength : ({ c with padding := c.padding ++ behind.take k } : SctpChunk).length
      = c.length + k := by
    simp only [length, List.length_append, List.length_take_of_le hbehind, Nat.add_assoc]
  rw [Window.elements_of_decode decode_exact.size_pos hne (h.decode_toBytes offset behind), hk,
    List.take_length_add_append, hlength, Window.after, ← c.length_toBytes,
    List.drop_length_add_append]

/-- **A chunk behind one that is short of padding is lost**: it gives its
first octets to the padding that is missing, and the chunk is not found
again in what remains of it. -/
theorem elements_of_short {front : List SctpChunk} {last next : SctpChunk}
    (hfront : ∀ c ∈ front, c.Declared ∧ c.Aligned) (hlast : last.Declared)
    (hshort : last.padding.length < paddingFor last.lengthField.toNat) (hnext : next.Declared)
    (hzeros : ∀ b ∈ next.padding, b = 0) (offset : Nat) :
    ((⟨offset, (front ++ [last] ++ [next]).flatMap toBytes⟩ : Window).elements decode length).1.map
        withoutPadding
      ≠ (front ++ [last] ++ [next]).map withoutPadding := by
  obtain ⟨k, hk⟩ := Nat.exists_eq_add_of_lt hshort
  have hbehind : k + 1 ≤ next.toBytes.length := by
    have hpadding : paddingFor last.lengthField.toNat < 4 := Nat.mod_lt _ (by decide)
    rw [length_toBytes, length, headSize]
    omega
  have hbytes : (front ++ [last] ++ [next]).flatMap toBytes
      = front.flatMap toBytes ++ (last.toBytes ++ next.toBytes) := by
    simp
  rw [hbytes, Window.elements_flatMap decode_exact
    (fun c hc => (hfront c hc).1.readsBack (hfront c hc).2),
    hlast.elements_short _ hk hbehind]
  generalize hw : (⟨_, next.toBytes.drop (k + 1)⟩ : Window) = w
  intro hsame
  have hrest : (w.elements decode length).1.map withoutPadding = [next.withoutPadding] := by
    simpa [withoutPadding] using hsame
  obtain ⟨again, hagain, hwithout⟩ := List.map_eq_singleton_iff.mp hrest
  -- The chunk that was found again is at the front of what remains.
  have hfound := w.flatMap_elements decode_exact
  rw [hagain, List.flatMap_singleton, ← hw] at hfound
  have htaken : next.toBytes.take (k + 1) ≠ [] := by
    rw [← List.length_pos_iff, List.length_take_of_le hbehind]
    exact Nat.succ_pos k
  exact hnext.not_shifted hzeros hwithout htaken
    ((List.take_append_drop _ _).symm.trans (congrArg _ hfound.symm))

/-- **A chunk put behind others is found there exactly if none of them is
short of padding**, which only the last one can be. -/
theorem elements_concat_iff {chunks : List SctpChunk} {next : SctpChunk}
    (hchunks : ∀ c ∈ chunks, c.Declared ∧ c.padding.length ≤ paddingFor c.lengthField.toNat)
    (hdropLast : ∀ c ∈ chunks.dropLast, c.Aligned) (hnext : next.Declared) (aligned : next.Aligned)
    (hzeros : ∀ b ∈ next.padding, b = 0) (offset : Nat) :
    let found := (⟨offset, (chunks ++ [next]).flatMap toBytes⟩ : Window).elements decode length
    found.2 = false ∧ found.1.map withoutPadding = (chunks ++ [next]).map withoutPadding
      ↔ ∀ last ∈ chunks.getLast?, last.Aligned := by
  intro found
  constructor
  · rintro ⟨-, hsame⟩ last hlast
    by_contra hnot
    obtain ⟨front, rfl⟩ := List.getLast?_eq_some_iff.mp hlast
    rw [List.dropLast_concat] at hdropLast
    obtain ⟨hfront, hdeclared, hle⟩ := List.forall_mem_append.mp hchunks |>.imp_right
      List.forall_mem_singleton.mp
    refine elements_of_short (fun c hc => ⟨(hfront c hc).1, hdropLast c hc⟩) hdeclared
      (lt_of_le_of_ne hle ?_) hnext hzeros offset hsame
    exact mt (aligned_iff hdeclared).mpr hnot
  · intro hlast
    have haligned : ∀ c ∈ chunks, c.Aligned := by
      cases hl : chunks.getLast? with
      | none =>
        rw [List.getLast?_eq_none_iff.mp hl]
        exact List.forall_mem_nil _
      | some last =>
        obtain ⟨front, rfl⟩ := List.getLast?_eq_some_iff.mp hl
        rw [List.dropLast_concat] at hdropLast
        exact List.forall_mem_append.mpr ⟨hdropLast, List.forall_mem_singleton.mpr (hlast last hl)⟩
    have hfound : found = (chunks ++ [next], false) := elements_of_aligned
      (List.forall_mem_append.mpr ⟨fun c hc => ⟨(hchunks c hc).1, haligned c hc⟩,
        List.forall_mem_singleton.mpr ⟨hnext, aligned⟩⟩) offset
    rw [hfound]
    exact ⟨rfl, rfl⟩

end SctpChunk

/-! ## Packets -/

namespace SctpHeader

/-- **What a packet is decoded from**: the fixed fields, and behind them
the region of the chunks, of which the trailer is what they leave. -/
theorem read_eq_ok_iff {w : Window} {h : SctpHeader} {trailer : Bytes} :
    read w = .ok (h, trailer) ↔ ∃ region, w.bytes = h.front ++ (Bytes.be32 h.checksum ++ region)
      ∧ (⟨w.offset + size, region⟩ : Window).elements SctpChunk.decode SctpChunk.length
          = (h.chunks, h.truncated)
      ∧ trailer = region.drop (totalSize SctpChunk.length h.chunks) := by
  constructor
  · intro hr
    simp only [read, bind_eq_ok, return_eq_ok, Window.read_eq_ok, Prod.exists, Prod.mk.injEq] at hr
    obtain ⟨srcPort, dstPort, tag, checksum, region, hfixed, rfl, rfl⟩ := hr
    refine ⟨region, ?_, rfl, rfl⟩
    rw [fixed?_exact hfixed]
    simp only [front, List.append_assoc]
  · rintro ⟨region, hbytes, helements, rfl⟩
    have hfixed : w.read protocol size fixed?
        = .ok ((h.srcPort, h.dstPort, h.verificationTag, h.checksum), region) := by
      simp only [Window.read_eq_ok, hbytes, front, List.append_assoc, fixed?, Bytes.bind_eq_some,
        Bytes.return_eq_some, Bytes.u16?_eq_some, Bytes.u32?_eq_some]
      exact ⟨_, _, rfl, _, _, rfl, _, _, rfl, _, _, rfl, rfl, rfl⟩
    rw [read, hfixed]
    simp only [bind, Except.bind, helements]
    rfl

/-- **What the chunks of a packet are**, and what its trailer: together they
are all that is behind the fixed fields, and a trailer starts where no
chunk can be decoded. -/
theorem read_spec {w : Window} {h : SctpHeader} {trailer : Bytes}
    (hr : read w = .ok (h, trailer)) :
    h.chunks.flatMap SctpChunk.toBytes ++ trailer = w.bytes.drop size
      ∧ (∀ c ∈ h.chunks,
          c.Declared ∧ c.padding.length ≤ SctpChunk.paddingFor c.lengthField.toNat)
      ∧ (∀ c ∈ h.chunks.dropLast, c.Aligned)
      ∧ (h.truncated = true ↔ trailer ≠ [])
      ∧ (trailer ≠ [] → ∃ err,
          SctpChunk.decode ⟨w.offset + (w.length - trailer.length), trailer⟩ = .error err) := by
  obtain ⟨region, hbytes, helements, rfl⟩ := read_eq_ok_iff.mp hr
  obtain ⟨hchunks, hdeclared, haligned, hcut, hundecodable⟩ := SctpChunk.elements_spec helements
  have hfront : (h.front ++ Bytes.be32 h.checksum).length = size := by
    rw [List.length_append, h.length_front, Bytes.length_be32, size]
  rw [← List.append_assoc] at hbytes
  refine ⟨?_, hdeclared, haligned, hcut, fun hne => ?_⟩
  · rw [hbytes, List.drop_left' hfront]
    exact hchunks
  · have hpos := List.length_pos_iff.mpr hne
    rw [List.length_drop] at hpos
    have hoffset : w.offset
        + (w.length - (region.drop (totalSize SctpChunk.length h.chunks)).length)
          = w.offset + size + totalSize SctpChunk.length h.chunks := by
      rw [Window.length, hbytes, List.length_append, hfront, List.length_drop]
      omega
    rw [hoffset]
    exact hundecodable hne

end SctpHeader

/-- **A packet is decoded again** to its fixed fields and to the chunks
that are found in what is written for its own. -/
theorem Context.decode_toBytes_sctp (ctx : Context) (h : SctpHeader) (algorithm : SctpChecksum) :
    let p := Packet.leaf (.sctp h [] algorithm)
    let region : Window := ⟨SctpHeader.size, h.chunks.flatMap SctpChunk.toBytes⟩
    let found := region.elements SctpChunk.decode SctpChunk.length
    ctx.decode .sctp p.toBytes 0 p.toBytes.length
      = .ok (.leaf (.sctp { h with chunks := found.1, truncated := found.2 }
          (region.bytes.drop (totalSize SctpChunk.length found.1)) ctx.settings.sctpChecksum)) := by
  intro p region found
  refine decode_sctp_eq_ok_iff.mpr ⟨(Nat.zero_add _).le, _, _, ?_, rfl⟩
  refine SctpHeader.read_eq_ok_iff.mpr ⟨region.bytes, ?_, rfl, rfl⟩
  rw [Bytes.clamp, List.drop_zero, List.take_length]
  show h.toBytes ++ [] = _
  rw [h.toBytes_append, List.append_nil]
  rfl

/-- **A packet whose chunks have all their padding is read back.** -/
theorem Context.decode_toBytes_sctp_of_aligned (ctx : Context) {h : SctpHeader}
    (hchunks : ∀ c ∈ h.chunks, c.Declared ∧ c.Aligned) (huncut : h.truncated = false)
    (algorithm : SctpChecksum) :
    let p := Packet.leaf (.sctp h [] algorithm)
    ctx.decode .sctp p.toBytes 0 p.toBytes.length
      = .ok (.leaf (.sctp h [] ctx.settings.sctpChecksum)) := by
  have hnothing : (h.chunks.flatMap SctpChunk.toBytes).drop (totalSize SctpChunk.length h.chunks)
      = [] := by
    rw [← length_flatMap_eq_totalSize SctpChunk.length_toBytes, List.drop_length]
  intro p
  rw [decode_toBytes_sctp, SctpChunk.elements_of_aligned hchunks, hnothing, ← huncut]

namespace SctpDraft

/-- **All required fields are set.** -/
structure Complete (d : SctpDraft) : Prop where
  srcPort : d.srcPort.isSome
  dstPort : d.dstPort.isSome
  verificationTag : d.verificationTag.isSome
  checksum : d.correctChecksum = false → d.checksum.isSome

theorem Complete.violations_eq_nil {d : SctpDraft} (h : d.Complete)
    (sized : ∀ c ∈ d.chunks, c.Sized) : d.violations = [] := by
  obtain ⟨hsrc, hdst, htag, hchecksum⟩ := h
  simp only [Option.isSome_iff_exists] at hsrc hdst htag hchecksum
  simp only [violations, List.append_eq_nil_iff, List.flatMap_eq_nil_iff,
    Violation.ifMissing_eq_nil, Violation.ifOver_eq_nil]
  refine ⟨⟨⟨⟨hsrc, hdst⟩, htag⟩, ?_⟩, sized⟩
  cases hcorrect : d.correctChecksum with
  | true => rfl
  | false => exact Violation.ifMissing_eq_nil.mpr (hchecksum hcorrect)

theorem chunks_header (d : SctpDraft) :
    d.header.chunks = d.chunks ∧ d.header.truncated = false := by
  rw [header]
  split <;> exact ⟨rfl, rfl⟩

end SctpDraft

/-- **Lists of chunks are read and written without loss.** Any window with
room for the fixed fields is decoded. What is written for the chunks and
then the trailer are the octets of the window from the twelfth on; every
chunk has a right length field, and every one but possibly the last has
all its padding; and the list is cut short exactly where there is a
trailer, off the front of which no chunk can be decoded. Any draft with all
required fields whose chunks have right length fields and all their
padding, as every chunk made of a value that is not too long does, is
built, and decoded to the same chunks with nothing behind them. -/
theorem Context.chunks_decode_build (ctx : Context) :
    (∀ buf offset length, offset + length ≤ buf.length → 12 ≤ length →
        ∃ h trailer, ctx.decode .sctp buf offset length
            = .ok (.leaf (.sctp h trailer ctx.settings.sctpChecksum))
          ∧ h.chunks.flatMap SctpChunk.toBytes ++ trailer = (buf.clamp offset length).drop 12
          ∧ (∀ c ∈ h.chunks, c.Declared)
          ∧ (∀ c ∈ h.chunks.dropLast, c.Aligned)
          ∧ (h.truncated = true ↔ trailer ≠ [])
          ∧ (trailer ≠ [] → ∃ err,
              SctpChunk.decode ⟨offset + (length - trailer.length), trailer⟩ = .error err))
      ∧ (∀ d : SctpDraft, d.Complete → (∀ c ∈ d.chunks, c.Declared ∧ c.Aligned) →
        ∃ p, (Draft.leaf (.sctp d)).build = .ok p
          ∧ ctx.decode .sctp p.toBytes 0 p.toBytes.length
            = .ok (.leaf (.sctp d.header [] ctx.settings.sctpChecksum))
          ∧ d.header.chunks = d.chunks ∧ d.header.truncated = false)
      ∧ ∀ chunkType flags (value : Bytes), value.length ≤ 65531 →
        (SctpChunk.ofValue chunkType flags value).Declared
          ∧ (SctpChunk.ofValue chunkType flags value).Aligned := by
  refine ⟨?_, ?_, fun chunkType flags _ h => SctpChunk.declared_aligned_ofValue chunkType flags h⟩
  · intro buf offset length hle hsize
    obtain ⟨p, hp⟩ := ctx.exists_decode_sctp hle hsize
    obtain ⟨-, h, trailer, hread, rfl⟩ := decode_sctp_eq_ok_iff.mp hp
    obtain ⟨hchunks, hdeclared, haligned, hcut, hundecodable⟩ := SctpHeader.read_spec hread
    rw [Window.length, Window.length_clamp hle] at hundecodable
    exact ⟨h, trailer, hp, hchunks, fun c hc => (hdeclared c hc).1, haligned, hcut, hundecodable⟩
  · intro d complete hchunks
    obtain ⟨hsame, huncut⟩ := d.chunks_header
    refine ⟨_, Draft.build_sctp_eq_ok.mpr ⟨?_, rfl⟩, ?_, hsame, huncut⟩
    · exact complete.violations_eq_nil fun c hc => (hchunks c hc).1.sized
    · exact ctx.decode_toBytes_sctp_of_aligned (by rwa [hsame]) huncut _

/-- **A padded chunk in front of one that is too short to be one**: the
latter is the trailer. The former, built alone, is read back. -/
theorem Context.chunks_decode_build_padded :
    let ctx : Context := {}
    let chunk : SctpChunk := .ofValue 0 3 [1, 2, 3, 4, 5]
    let window : Bytes := [0x13, 0x88, 0x13, 0x89, 0, 0, 0, 1, 0, 0, 0, 0,
      0, 3, 0, 9, 1, 2, 3, 4, 5, 0, 0, 0, 6, 0, 0, 2]
    let d : SctpDraft :=
      { srcPort := some 5000, dstPort := some 5001, verificationTag := some 1, chunks := [chunk],
        correctChecksum := true }
    (∃ h, ctx.decode .sctp window 0 28 = .ok (.leaf (.sctp h [6, 0, 0, 2] .crc32c))
        ∧ h.chunks = [chunk] ∧ h.truncated = true)
      ∧ ∃ p, (Draft.leaf (.sctp d)).build = .ok p
        ∧ ctx.decode .sctp p.toBytes 0 p.toBytes.length = .ok (.leaf (.sctp d.header [] .crc32c))
        ∧ d.header.chunks = [chunk] := by
  intro ctx chunk window d
  obtain ⟨hdecode, hbuild, hchunk⟩ := ctx.chunks_decode_build
  constructor
  · obtain ⟨h, trailer, hp, -, -, -, hcut, -⟩ := hdecode window 0 28 (by decide) (by decide)
    have hvalue : ctx.decode .sctp window 0 28
        = .ok (.leaf (.sctp ⟨5000, 5001, 1, 0, [chunk], true⟩ [6, 0, 0, 2] .crc32c)) := by
      decide +kernel
    obtain ⟨rfl, rfl, -⟩ := Leaf.sctp.inj (Packet.leaf.inj (Except.ok.inj (hp.symm.trans hvalue)))
    exact ⟨_, hp, rfl, hcut.mpr (by decide)⟩
  · obtain ⟨p, hp, hread, hsame, -⟩ := hbuild d ⟨rfl, rfl, rfl, fun h => Bool.noConfusion h⟩
      (List.forall_mem_singleton.mpr (hchunk 0 3 [1, 2, 3, 4, 5] (by decide)))
    exact ⟨p, hp, hread, hsame⟩

/-- **A chunk appended to a decoded packet is found behind the others unless
the last of them is short of padding.** Any decoded packet can be built
again with one more chunk, made of a value that is not too long. What is
built is decoded to the chunks that were there, padding apart, and then the
new one, with nothing left, if and only if the capture did not end inside
the padding of its last chunk. -/
theorem Context.decode_append_chunk (ctx : Context) {buf : Bytes} {offset length : Nat}
    {h : SctpHeader} {trailer : Bytes} {algorithm : SctpChecksum}
    (hp : ctx.decode .sctp buf offset length = .ok (.leaf (.sctp h trailer algorithm)))
    (chunkType : SctpChunkType) (flags : UInt8) {value : Bytes}
    (hvalue : value.length ≤ 65531) :
    let chunk : SctpChunk := .ofValue chunkType flags value
    let chunks : List SctpChunk := h.chunks ++ [chunk]
    let d := (h.toDraft algorithm).addChunk chunk
    ∃ q, (Draft.leaf (.sctp d)).build = .ok q
      ∧ ∃ (h' : SctpHeader) (trailer' : Bytes), ctx.decode .sctp q.toBytes 0 q.toBytes.length
          = .ok (.leaf (.sctp h' trailer' algorithm))
        ∧ (h'.truncated = false
            ∧ h'.chunks.map SctpChunk.withoutPadding = chunks.map SctpChunk.withoutPadding
          ↔ ∀ last ∈ h.chunks.getLast?, last.Aligned) := by
  intro chunk chunks d
  obtain ⟨-, _, _, hread, heq⟩ := decode_sctp_eq_ok_iff.mp hp
  cases heq
  obtain ⟨-, hchunks, hdropLast, -⟩ := SctpHeader.read_spec hread
  obtain ⟨hdeclared, aligned⟩ := SctpChunk.declared_aligned_ofValue chunkType flags hvalue
  have hcomplete : d.Complete := ⟨rfl, rfl, rfl, fun _ => rfl⟩
  have hsized : ∀ c ∈ d.chunks, c.Sized := List.forall_mem_append.mpr
    ⟨fun c hc => (hchunks c hc).1.sized, List.forall_mem_singleton.mpr hdeclared.sized⟩
  refine ⟨_, Draft.build_sctp_eq_ok.mpr ⟨hcomplete.violations_eq_nil hsized, rfl⟩, _, _,
    ctx.decode_toBytes_sctp d.header _, ?_⟩
  exact SctpChunk.elements_concat_iff hchunks hdropLast hdeclared aligned
    (fun _ => List.eq_of_mem_replicate) SctpHeader.size

/-- **A chunk of six octets at the end of a capture**, without the two that
would align the next: a chunk appended to it is not found. -/
theorem Context.decode_append_chunk_short :
    let ctx : Context := {}
    let window : Bytes := [0x13, 0x88, 0x13, 0x89, 0, 0, 0, 1, 0, 0, 0, 0, 0, 3, 0, 6, 1, 2]
    let appended : SctpChunk := .ofValue 11 0 []
    ∃ h, ctx.decode .sctp window 0 18 = .ok (.leaf (.sctp h [] .crc32c)) ∧ h.truncated = false
      ∧ ∃ q, (Draft.leaf (.sctp ((h.toDraft .crc32c).addChunk appended))).build = .ok q
        ∧ ∃ h' trailer', ctx.decode .sctp q.toBytes 0 q.toBytes.length
            = .ok (.leaf (.sctp h' trailer' .crc32c))
          ∧ ¬(h'.truncated = false ∧ h'.chunks.map SctpChunk.withoutPadding
              = (h.chunks ++ [appended]).map SctpChunk.withoutPadding) := by
  intro ctx window appended
  have hp : ctx.decode .sctp window 0 18
      = .ok (.leaf (.sctp ⟨5000, 5001, 1, 0, [⟨0, 3, 6, [1, 2], []⟩], false⟩ [] .crc32c)) := by
    decide +kernel
  obtain ⟨q, hq, h', trailer', hread, hiff⟩ :=
    ctx.decode_append_chunk hp 11 0 (by decide : ([] : Bytes).length ≤ 65531)
  refine ⟨_, hp, rfl, q, hq, h', trailer', hread, fun hsame => ?_⟩
  exact absurd (hiff.mp hsame _ rfl) (by decide)

end PacketCodec
