import PacketCodec.Decode
import PacketCodec.Proofs.Bytes
import PacketCodec.Proofs.Registry

/-!
# Windows that start elsewhere

The position of a window is only for errors. Each reader, given the same
octets `k` octets further into a buffer, finds the same values, and its
errors are the same but for their offsets, which are `k` more: it
`Commutes` with the shift. Readers that are put together from others do
when these do (`Outcome.shift_bind`), and lists of elements, which drop
the errors that end them, do not depend on the position at all
(`Window.elements_shift`).

The statements are about what one layer is read from; decoding a packet
is then an induction over its layers, in `PacketCodec.Proofs.Locality`.
-/

namespace PacketCodec

/-! ## Shifted values -/

/-- The window with the same octets, `k` octets further on. -/
def Window.shift (k : Nat) (w : Window) : Window := ⟨w.offset + k, w.bytes⟩

/-- The error about the same octets, `k` octets further on. -/
def DecodeError.shift (k : Nat) (e : DecodeError) : DecodeError := { e with offset := e.offset + k }

/-- **The outcome for the same octets, `k` octets further on**, when `f`
does to a value what the shift does to it. -/
def Outcome.shift {α : Type} (k : Nat) (f : α → α) :
    Except DecodeError α → Except DecodeError α
  | .ok a => .ok (f a)
  | .error e => .error (e.shift k)

/-- What is carried, `k` octets further on. -/
def Inner.shift (k : Nat) : Inner → Inner
  | dispatch key w => dispatch key (w.shift k)
  | inner => inner

/-- **A reader commutes with the shift** of its window, `f k` being what
the shift does to the values that it reads. -/
def Commutes {α : Type} (f : Nat → α → α) (read : Window → Except DecodeError α) : Prop :=
  ∀ (k : Nat) (w : Window), read (w.shift k) = Outcome.shift k (f k) (read w)

/-- A reader of values that hold no position. -/
abbrev Positionless {α : Type} (read : Window → Except DecodeError α) : Prop :=
  Commutes (fun _ => id) read

/-! ## Windows and their errors -/

namespace Window

variable (k : Nat) (w : Window)

@[simp] theorem bytes_shift : (w.shift k).bytes = w.bytes := rfl

@[simp] theorem length_shift : (w.shift k).length = w.length := rfl

@[simp] theorem after_shift (start : Nat) : (w.shift k).after start = (w.after start).shift k := by
  rw [after, after, shift, shift, Nat.add_right_comm]

/-- A stretch of the window moves with it. -/
@[simp] theorem mk_shift (start : Nat) (bs : Bytes) :
    (⟨(w.shift k).offset + start, bs⟩ : Window) = shift k ⟨w.offset + start, bs⟩ := by
  rw [shift, shift, Nat.add_right_comm]

@[simp] theorem tooShort_shift (protocol : String) (need : Nat) :
    (w.shift k).tooShort protocol need = (w.tooShort protocol need).shift k := rfl

@[simp] theorem invalid_shift (protocol : String) (start : Nat) (field : String) (value : Nat) :
    (w.shift k).invalid protocol start field value
      = (w.invalid protocol start field value).shift k := by
  rw [invalid, invalid, DecodeError.shift, shift, Nat.add_right_comm]

@[simp] theorem inconsistent_shift (protocol : String) (start : Nat) (field : String)
    (declared : Nat) :
    (w.shift k).inconsistent protocol start field declared
      = (w.inconsistent protocol start field declared).shift k := rfl

end Window

/-! ## Outcomes -/

namespace Outcome

variable {α β : Type} {k : Nat}

@[simp] theorem shift_ok {f : α → α} (a : α) : shift k f (.ok a) = .ok (f a) := rfl

@[simp] theorem shift_pure {f : α → α} (a : α) : shift k f (pure a) = pure (f a) := rfl

@[simp] theorem shift_error {f : α → α} (e : DecodeError) :
    shift k f (.error e) = .error (e.shift k) := rfl

@[simp] theorem shift_throw {f : α → α} (e : DecodeError) :
    shift k f (throw e) = throw (e.shift k) := rfl

/-- **Going on with what was read**: the shift of two readers in sequence
is that of the first, then that of the second. -/
theorem shift_bind {f : α → α} {g : β → β} {x x' : Except DecodeError α}
    {next next' : α → Except DecodeError β} (hx : x' = shift k f x)
    (hnext : ∀ a, next' (f a) = shift k g (next a)) : (x' >>= next') = shift k g (x >>= next) := by
  subst hx
  cases x with
  | error e => rfl
  | ok a => exact hnext a

theorem shift_map {f : α → α} {g : β → β} {h : α → β} (hh : ∀ a, h (f a) = g (h a))
    (x : Except DecodeError α) : (shift k f x).map h = shift k g (x.map h) := by
  cases x with
  | error e => rfl
  | ok a => exact congrArg Except.ok (hh a)

end Outcome

theorem Window.read_shift {α : Type} (k : Nat) (w : Window) (protocol : String) (need : Nat)
    (front? : Bytes → Option (α × Bytes)) :
    (w.shift k).read protocol need front?
      = Outcome.shift k id (w.read protocol need front?) := by
  unfold Window.read
  rw [bytes_shift]
  split <;> simp

/-! ## Options and chunks -/

theorem Ipv6Option.typeAndData_shift : Positionless typeAndData := by
  intro k w
  unfold typeAndData
  rw [Window.bytes_shift]
  split
  · split <;> simp
  · simp

theorem Ipv6Option.decode_shift {decode : Window → Except DecodeError Ipv6Option}
    (h : decode ∈ decoders) : Positionless decode := by
  simp only [decoders, List.mem_cons, List.not_mem_nil, or_false] at h
  obtain rfl | rfl | rfl | rfl := h <;> intro k w
  · unfold decodePad1
    rw [Window.bytes_shift]
    split <;> simp
  · exact Outcome.shift_bind (typeAndData_shift k w) fun _ => rfl
  · refine Outcome.shift_bind (typeAndData_shift k w) ?_
    rintro ⟨t, data⟩
    dsimp only [id]
    split <;> simp
  · exact Outcome.shift_bind (typeAndData_shift k w) fun _ => rfl

theorem NdpOption.typeAndData_shift : Positionless typeAndData := by
  intro k w
  unfold typeAndData
  rw [Window.bytes_shift]
  split
  · split
    · simp
    · split <;> simp
  · simp

theorem NdpOption.decode_shift {decode : Window → Except DecodeError NdpOption}
    (h : decode ∈ decoders) : Positionless decode := by
  simp only [decoders, List.mem_cons, List.not_mem_nil, or_false] at h
  obtain rfl | rfl | rfl | rfl | rfl := h <;> intro k w
  · exact Outcome.shift_bind (typeAndData_shift k w) fun _ => rfl
  · exact Outcome.shift_bind (typeAndData_shift k w) fun _ => rfl
  · refine Outcome.shift_bind (typeAndData_shift k w) ?_
    rintro ⟨t, units, data⟩
    dsimp only [id]
    split <;> simp
  · refine Outcome.shift_bind (typeAndData_shift k w) ?_
    rintro ⟨t, units, data⟩
    dsimp only [id]
    split <;> simp
  · exact Outcome.shift_bind (typeAndData_shift k w) fun _ => rfl

theorem SctpChunk.decode_shift : Positionless SctpChunk.decode := by
  intro k w
  unfold decode
  rw [Window.bytes_shift]
  split
  · dsimp only
    split
    · simp
    · split <;> simp
  · simp

/-! ## GTP extension headers -/

namespace GtpExtension

theorem fixedContent_shift (units : Nat) : Positionless fun w => fixedContent w units := by
  intro k w
  dsimp only
  unfold fixedContent
  rw [Window.bytes_shift]
  split
  · simp
  · split
    · simp
    · split <;> simp

theorem decodeWord_shift (make : UInt16 → GtpExtension) : Positionless (decodeWord make) := by
  intro k w
  refine Outcome.shift_bind (fixedContent_shift 1 k w) fun data => ?_
  dsimp only [id]
  split <;> simp

theorem readSessionInfo_shift : Positionless readSessionInfo := by
  intro k w
  simp only [readSessionInfo, Window.after_shift, Window.bytes_shift]
  split
  · simp
  · split
    · simp
    · split
      · simp
      · split
        · split <;> simp
        · split <;> simp

theorem decode_shift {decode : Window → Except DecodeError GtpExtension} (h : decode ∈ decoders) :
    Positionless decode := by
  simp only [decoders, List.mem_cons, List.not_mem_nil, or_false] at h
  obtain rfl | rfl | rfl | rfl | rfl | rfl := h
  · exact decodeWord_shift udpPort
  · exact decodeWord_shift pduNumber
  · intro k w
    refine Outcome.shift_bind (fixedContent_shift 2 k w) fun data => ?_
    dsimp only [id]
    split <;> simp
  · intro k w
    refine Outcome.shift_bind (fixedContent_shift 1 k w) fun data => ?_
    dsimp only [id]
    split <;> simp
  · intro k w
    unfold decodePduSessionContainer
    rw [Window.bytes_shift]
    split
    · simp
    · refine Outcome.shift_bind (readSessionInfo_shift k w) ?_
      rintro ⟨info, rest⟩
      dsimp only [id]
      split
      · rfl
      · split <;> simp
  · intro k w
    unfold decodeUnknown
    rw [Window.bytes_shift]
    split
    · simp
    · split
      · simp
      · split <;> simp

end GtpExtension

/-! ## Lists and chains -/

section Positionless

variable {α : Type} {decode : Window → Except DecodeError α} {offset : Nat} {bs : Bytes}

theorem Positionless.ok {a : α} (h : Positionless decode) (ha : decode ⟨offset, bs⟩ = .ok a)
    (k : Nat) : decode ⟨offset + k, bs⟩ = .ok a := by
  have hshift := h k ⟨offset, bs⟩
  rw [ha] at hshift
  exact hshift

theorem Positionless.error {e : DecodeError} (h : Positionless decode)
    (he : decode ⟨offset, bs⟩ = .error e) (k : Nat) :
    decode ⟨offset + k, bs⟩ = .error (e.shift k) := by
  have hshift := h k ⟨offset, bs⟩
  rw [he] at hshift
  exact hshift

end Positionless

/-- **A list of elements does not depend on where its region starts**: an
error ends it and is dropped. -/
theorem elementsFrom_shift {α : Type} {decode : Window → Except DecodeError α}
    (h : Positionless decode) (size : α → Nat) (k skip offset : Nat) (bs : Bytes) :
    elementsFrom decode size skip (offset + k) bs = elementsFrom decode size skip offset bs := by
  fun_induction elementsFrom decode size skip offset bs with
  | case1 => rw [elementsFrom]
  | case2 skip offset b rest ih => rw [elementsFrom, Nat.add_right_comm, ih]
  | case3 offset b rest e he => rw [elementsFrom, h.error he k]
  | case4 offset b rest e he more ih =>
    rw [elementsFrom, h.ok he k]
    dsimp only
    rw [Nat.add_right_comm, ih]

@[simp] theorem Window.elements_shift {α : Type} {decode : Window → Except DecodeError α}
    (h : Positionless decode) (size : α → Nat) (k : Nat) (w : Window) :
    (w.shift k).elements decode size = w.elements decode size :=
  elementsFrom_shift h size k 0 w.offset w.bytes

variable {decode : GtpExtensionType → Window → Except DecodeError GtpExtension}

theorem chainFrom_shift (h : ∀ t, Positionless (decode t)) (k : Nat) (next : GtpExtensionType)
    (skip offset : Nat) (bs : Bytes) :
    chainFrom decode next skip (offset + k) bs = chainFrom decode next skip offset bs := by
  fun_induction chainFrom decode next skip offset bs with
  | case1 => rw [chainFrom]
  | case2 next skip offset b rest ih => rw [chainFrom, Nat.add_right_comm, ih]
  | case3 offset b rest => rw [chainFrom, if_pos rfl]
  | case4 next offset b rest hnext e he =>
    rw [chainFrom, if_neg hnext, (h next).error he k]
  | case5 next offset b rest hnext e he hnone =>
    rw [chainFrom, if_neg hnext, (h next).ok he k]
    simp only [hnone]
  | case6 next offset b rest hnext e he following hfollowing more ih =>
    rw [chainFrom, if_neg hnext, (h next).ok he k]
    simp only [hfollowing]
    rw [Nat.add_right_comm, ih]

theorem readChain_shift (h : ∀ t, Positionless (decode t)) (k : Nat) (first : GtpExtensionType)
    (region : Window) :
    readChain decode first (region.shift k) = readChain decode first region :=
  chainFrom_shift h k first 0 region.offset region.bytes

/-! ## Headers and what they carry -/

@[simp] theorem Inner.shift_nothing (k : Nat) : shift k nothing = nothing := rfl

@[simp] theorem Inner.shift_dispatch (k : Nat) (key : Selector) (w : Window) :
    (dispatch key w).shift k = dispatch key (w.shift k) := rfl

@[simp] theorem Inner.shift_keep (k : Nat) (data : Bytes) : (keep data).shift k = keep data := by
  cases data <;> rfl

theorem RoutingHeader.readData_shift (k : Nat) (w : Window) (hdrExtLen : UInt8) (t : RoutingType)
    (data : Bytes) :
    readData (w.shift k) hdrExtLen t data = Outcome.shift k id (readData w hdrExtLen t data) := by
  unfold readData
  split
  · split
    · simp
    · split <;> simp
  · simp

theorem RoutingHeader.read_shift : Commutes (fun k => Prod.map id (Inner.shift k)) read := by
  intro k w
  unfold read
  rw [Window.bytes_shift]
  split
  · dsimp only
    split
    · simp
    · refine Outcome.shift_bind (readData_shift k w _ _ _) fun d => ?_
      simp
  · simp

theorem FragmentHeader.read_shift : Commutes (fun k => Prod.map id (Inner.shift k)) read := by
  intro k w
  refine Outcome.shift_bind (w.read_shift k _ _ _) ?_
  rintro ⟨h, rest⟩
  dsimp only [id]
  split <;> simp

theorem OptionsHeader.read_shift (kind : OptionsKind)
    {decode : Window → Except DecodeError Ipv6Option} (hdecode : Positionless decode) :
    Commutes (fun k => Prod.map id (Prod.map id (Inner.shift k))) (read kind decode) := by
  intro k w
  unfold read
  rw [Window.bytes_shift]
  split
  · next nextHeader hdrExtLen rest _ =>
    simp only [Window.mk_shift, Window.elements_shift hdecode, Window.length_shift,
      Window.after_shift]
    by_cases hshort : w.length < extensionExtent hdrExtLen <;> simp [hshort]
  · simp

theorem Icmpv6Header.read_shift : Commutes (fun k => Prod.map id (Inner.shift k)) read := by
  intro k w
  refine Outcome.shift_bind (w.read_shift k _ _ _) ?_
  rintro ⟨h, rest⟩
  simp

theorem EchoHeader.read_shift : Commutes (fun k => Prod.map id (Inner.shift k)) read := by
  intro k w
  refine Outcome.shift_bind (w.read_shift k _ _ _) ?_
  rintro ⟨h, data⟩
  simp

theorem SolicitationHeader.read_shift {decode : Window → Except DecodeError NdpOption}
    (hdecode : Positionless decode) : Positionless (read decode) := by
  intro k w
  refine Outcome.shift_bind (w.read_shift k _ _ _) ?_
  rintro ⟨⟨reserved, target⟩, rest⟩
  simp [readNdpOptions, Window.elements_shift hdecode]

theorem AdvertisementHeader.read_shift {decode : Window → Except DecodeError NdpOption}
    (hdecode : Positionless decode) : Positionless (read decode) := by
  intro k w
  refine Outcome.shift_bind (w.read_shift k _ _ _) ?_
  rintro ⟨⟨word, target⟩, rest⟩
  simp [readNdpOptions, Window.elements_shift hdecode]

theorem UdpHeader.read_shift (known : UdpPort → Bool) :
    Commutes (fun k => Prod.map id (Prod.map id (Inner.shift k))) (read known) := by
  intro k w
  refine Outcome.shift_bind (w.read_shift k _ _ _) ?_
  rintro ⟨h, rest⟩
  simp

theorem SctpHeader.read_shift : Positionless read := by
  intro k w
  refine Outcome.shift_bind (w.read_shift k _ _ _) ?_
  rintro ⟨_, rest⟩
  simp [Window.elements_shift SctpChunk.decode_shift]

theorem GtpHeader.withChain_shift (h : GtpHeader) (hdecode : ∀ t, Positionless (decode t)) (k : Nat)
    (region : Window) : h.withChain decode (region.shift k) = h.withChain decode region := by
  unfold withChain
  rw [readChain_shift hdecode]

theorem GtpHeader.inner_shift (h : GtpHeader) (k : Nat) (payload : Window) :
    h.inner (payload.shift k) = (h.inner payload).shift k := by
  unfold inner
  rw [Window.bytes_shift]
  split
  · rfl
  · split <;> rfl

theorem GtpHeader.read_shift (hdecode : ∀ t, Positionless (decode t)) :
    Commutes (fun k => Prod.map id (Prod.map id (Inner.shift k))) (read decode) := by
  intro k w
  refine Outcome.shift_bind (w.read_shift k _ _ _) ?_
  rintro ⟨h, rest⟩
  dsimp only [id]
  split
  · simp
  · simp [withChain_shift _ hdecode, inner_shift]

end PacketCodec
