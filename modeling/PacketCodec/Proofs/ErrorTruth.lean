import PacketCodec.Proofs.Depth
import PacketCodec.Proofs.Truthful

/-!
# Errors tell the truth

Whatever window of whatever buffer is decoded, its errors say what is
there: the one that a decoder returns, and those that the malformed layers
of a packet keep, at any depth.

For a window inside its buffer this is an induction over the layers that
are still allowed. A layer is decoded from a stretch of the window of the
layer above it, so the errors of its payload are true of that window too
(`Context.trueOf_of_mem_payload`).

A window that is not inside its buffer is refused for the number of bytes
that it declares, with the number of those that are there from its start
on. Behind the end of the buffer there are none, and an empty window
declares none: its error is the one whose inequality is not strict
(`DecodeError.TrueAt.holds_iff`).
-/

namespace PacketCodec

open Outcome (Truthful)

/-! ## Layers below -/

/-- **The errors that the layers of a packet keep**, outermost first. -/
def Packet.reasons : Packet → List DecodeError
  | leaf l => l.reason?.toList
  | bare _ => []
  | carry _ p => p.reasons

theorem Packet.mem_reasons_ofCarrier {c : Carrier} {p : Option Packet} {e : DecodeError} :
    e ∈ (ofCarrier c p).reasons ↔ ∃ q ∈ p, e ∈ q.reasons := by
  cases p with
  | none => simp [ofCarrier, reasons]
  | some q => simp [ofCarrier, reasons]

/-- **A layer over its payload** keeps the errors that its payload keeps,
which are true of the stretch that was decoded, so of the window. -/
theorem Peeled.trueOf_of_mem_assemble {payload : Selector → Window → Option Packet}
    (h : ∀ key v, ∀ p ∈ payload key v, ∀ e ∈ p.reasons, e.TrueOf v) {w : Window} {l : Peeled}
    (hl : l.Inside w) : ∀ e ∈ (l.assemble payload).reasons, e.TrueOf w := by
  cases l with
  | leaf l => exact fun e he => hl e (Option.mem_toList.mp he)
  | carrier c inner =>
    intro e he
    rw [assemble_carrier, Packet.mem_reasons_ofCarrier] at he
    obtain ⟨q, hq, he⟩ := he
    cases inner with
    | nothing => cases hq
    | kept data =>
      cases hq
      cases he
    | dispatch key v => exact (h key v q hq e he).of_within hl
  | frame header body fcs =>
    intro e he
    rw [assemble, EthernetHeader.frame_eq_ofCarrier] at he
    split at he
    · obtain ⟨q, hq, he⟩ := Packet.mem_reasons_ofCarrier.mp he
      exact (h _ body q hq e he).of_within hl
    · cases he

namespace Context

variable {ctx : Context}

theorem inside_of_peel? {key : Selector} {w : Window} {l : Peeled}
    (h : ctx.peel? key w = some l) : l.Inside w := by
  unfold peel? at h
  split at h
  · cases h
  · split at h
    · next f _ =>
      have hpeel := ctx.peel_truthful f w
      split at h
      · next l' hl =>
        cases h
        rw [hl] at hpeel
        exact hpeel
      · next e he =>
        cases h
        rw [he] at hpeel
        rintro _ ⟨⟩
        exact hpeel
    · cases h
      exact Leaf.inside_of_reason? rfl

/-- **The errors that a payload keeps are true of its window.** The
induction is over the layers that are still allowed. -/
theorem trueOf_of_mem_payload (native : ∀ key, (ctx.decoders.select key).Native) (left : Nat)
    (key : Selector) (w : Window) :
    ∀ p ∈ ctx.payload left key w, ∀ e ∈ p.reasons, e.TrueOf w := by
  induction left generalizing key w with
  | zero =>
    intro p hp
    unfold payload at hp
    split at hp
    · cases hp
    · cases hp
      exact List.forall_mem_nil _
  | succ left ih =>
    intro p hp
    rw [payload_succ (native key), Option.mem_def, Option.map_eq_some_iff] at hp
    obtain ⟨l, hl, rfl⟩ := hp
    exact Peeled.trueOf_of_mem_assemble ih (inside_of_peel? hl)

theorem decodeWindow_truthful (native : ∀ key, (ctx.decoders.select key).Native) (f : Format)
    (w : Window) : Truthful w (fun p => ∀ e ∈ p.reasons, e.TrueOf w) (ctx.decodeWindow f w) :=
  (ctx.peel_truthful f w).map fun _ hl =>
    Peeled.trueOf_of_mem_assemble (trueOf_of_mem_payload native _) hl

theorem decodeFcsWindow_truthful (native : ∀ key, (ctx.decoders.select key).Native)
    (w : Window) : Truthful w (fun p => ∀ e ∈ p.reasons, e.TrueOf w) (ctx.decodeFcsWindow w) :=
  (EthernetHeader.readFrame_truthful true w).map fun _ hl =>
    Peeled.trueOf_of_mem_assemble (trueOf_of_mem_payload native _) hl

end Context

/-! ## Windows of a buffer -/

/-- **An error is true of the `length` bytes of a buffer from `offset`
on.** -/
structure DecodeError.TrueAt (e : DecodeError) (buf : Bytes) (offset length : Nat) : Prop where
  /-- Less is there than it asks for, unless the window is empty and
  starts behind the end of the buffer. -/
  holds_iff : e.fault.Holds ↔ 0 < length ∨ offset ≤ buf.length
  /-- It points into the window or right behind it. -/
  offset_mem : offset + length ≤ buf.length → offset ≤ e.offset ∧ e.offset ≤ offset + length
  /-- Its dump shows the bytes of the window that it points to. -/
  dump_eq : offset + length ≤ buf.length →
    ∃ n ≤ dumpLimit, e.offset + n ≤ offset + length ∧ e.dump = Bytes.hex (buf.clamp e.offset n)

/-- **The errors of an outcome**: the one that is returned, or those that
the value keeps. -/
def Outcome.errors {α : Type} (kept : α → List DecodeError) :
    Except DecodeError α → List DecodeError
  | .ok a => kept a
  | .error e => [e]

section Buffer

variable {buf : Bytes} {offset length : Nat} {protocol : String}

theorem DecodeError.TrueOf.trueAt {e : DecodeError} (h : offset + length ≤ buf.length)
    (he : e.TrueOf ⟨offset, buf.clamp offset length⟩) : e.TrueAt buf offset length := by
  obtain ⟨k, hk, hoffset, n, hn, hdump⟩ := he.shown
  rw [Window.length, Window.length_clamp h] at hk
  dsimp only at hoffset hdump
  rw [Bytes.clamp, List.drop_take, List.take_take, List.drop_drop, ← hoffset] at hdump
  exact
    { holds_iff := iff_of_true he.holds (.inr (by omega))
      offset_mem := fun _ => by omega
      dump_eq := fun _ => ⟨min n (length - k), by omega, by omega, hdump⟩ }

/-- The error about a window that is not inside the buffer says that
fewer bytes than the window has are there from its start on. There are
none behind the end of the buffer, which is not fewer than none. -/
theorem DecodeError.trueAt_outside (h : ¬ offset + length ≤ buf.length) :
    (Window.outside protocol buf offset length).TrueAt buf offset length where
  holds_iff := by
    show buf.length - offset < length ↔ _
    omega
  offset_mem := fun hin => absurd hin h
  dump_eq := fun hin => absurd hin h

/-- **A reader of windows, on a window of a buffer.** -/
theorem Window.trueAt_of_mem_errors {α : Type} {read : Window → Except DecodeError α}
    {kept : α → List DecodeError}
    (h : ∀ w, Truthful w (fun a => ∀ e ∈ kept a, e.TrueOf w) (read w)) :
    ∀ e ∈ Outcome.errors kept (cut protocol buf offset length >>= read),
      e.TrueAt buf offset length := by
  intro e he
  by_cases hin : offset + length ≤ buf.length
  · have hread := h ⟨offset, buf.clamp offset length⟩
    rw [cut, cut?, if_pos hin] at he
    refine DecodeError.TrueOf.trueAt hin ?_
    change e ∈ Outcome.errors kept (read _) at he
    cases hx : read ⟨offset, buf.clamp offset length⟩ with
    | ok a =>
      rw [hx] at he hread
      exact hread e he
    | error e' =>
      rw [hx] at he hread
      rw [List.mem_singleton.mp he]
      exact hread
  · rw [cut, cut?, if_neg hin] at he
    rw [List.mem_singleton.mp he]
    exact DecodeError.trueAt_outside hin

/-- A reader of elements keeps no error. -/
theorem Candid.trueAt_of_eq_error {α : Type} {read : Window → Except DecodeError α}
    (h : Candid read) {e : DecodeError}
    (he : (Window.cut protocol buf offset length >>= read) = .error e) :
    e.TrueAt buf offset length := by
  have htrue := @Window.trueAt_of_mem_errors buf offset length protocol α read (fun _ => [])
    (fun w => (h w).of_ok fun _ _ => List.forall_mem_nil _) e
  rw [he] at htrue
  exact htrue (List.mem_singleton.mpr rfl)

namespace Context

variable {ctx : Context}

theorem trueAt_of_mem_decodeWith (native : ∀ key, (ctx.decoders.select key).Native)
    {d : PacketDecoder} (hd : d.Native) (buf : Bytes) (offset length : Nat) :
    ∀ e ∈ Outcome.errors Packet.reasons (ctx.decodeWith d buf offset length),
      e.TrueAt buf offset length := by
  cases d with
  | format f => exact Window.trueAt_of_mem_errors (decodeWindow_truthful native f)
  | unknown => exact List.forall_mem_nil _
  | custom name decode => exact hd.elim

/-- A payload that cannot be decoded is kept with the error, so that its
errors are those of the decoder. -/
theorem trueAt_of_mem_decodePayload (native : ∀ key, (ctx.decoders.select key).Native)
    (key : Selector) (buf : Bytes) (offset length : Nat) :
    ∀ p ∈ ctx.decodePayload key buf offset length, ∀ e ∈ p.reasons,
      e.TrueAt buf offset length := by
  intro p hp e he
  unfold decodePayload at hp
  split at hp
  · cases hp
  · split at hp
    · next w hw =>
      unfold Window.cut? at hw
      split at hw
      · next hin =>
        cases hw
        exact (trueOf_of_mem_payload native _ key _ p hp e he).trueAt hin
      · cases hw
    · have hwith := trueAt_of_mem_decodeWith native (native key) buf offset length e
      dsimp only at hp
      split at hp
      · cases hp
        cases he
      · split at hp
        · next q hq =>
          cases hp
          rw [hq] at hwith
          exact hwith he
        · next e' he' =>
          cases hp
          rw [he'] at hwith
          exact hwith he

/-- **Errors tell the truth.** On any window of any buffer, inside it or
not, the errors that a decoder of this library returns, and those that
the malformed layers of a packet keep, are true of that window. Their
inequality is strict but in one case: a window of no bytes that starts
behind the end of the buffer is refused for having no fewer bytes than it
declares. -/
theorem errors_trueAt (native : ∀ key, (ctx.decoders.select key).Native)
    (buf : Bytes) (offset length : Nat) :
    (∀ d : PacketDecoder, d.Native →
        ∀ e ∈ Outcome.errors Packet.reasons (ctx.decodeWith d buf offset length),
          e.TrueAt buf offset length)
      ∧ (∀ e ∈ Outcome.errors Packet.reasons (ctx.decodeFcs buf offset length),
          e.TrueAt buf offset length)
      ∧ (∀ key, ∀ p ∈ ctx.decodePayload key buf offset length, ∀ e ∈ p.reasons,
          e.TrueAt buf offset length)
      ∧ (∀ decode ∈ Ipv6Option.decoders, ∀ e,
          (Window.cut Ipv6Option.protocol buf offset length >>= decode) = .error e →
            e.TrueAt buf offset length)
      ∧ (∀ decode ∈ NdpOption.decoders, ∀ e,
          (Window.cut NdpOption.protocol buf offset length >>= decode) = .error e →
            e.TrueAt buf offset length)
      ∧ ∀ decode ∈ GtpExtension.decoders, ∀ e,
          (Window.cut GtpExtension.protocol buf offset length >>= decode) = .error e →
            e.TrueAt buf offset length := by
  refine ⟨fun d hd => ?_, ?_, fun key => ?_, fun decode hd e he => ?_, fun decode hd e he => ?_,
    fun decode hd e he => ?_⟩
  · exact trueAt_of_mem_decodeWith native hd buf offset length
  · exact Window.trueAt_of_mem_errors (decodeFcsWindow_truthful native)
  · exact trueAt_of_mem_decodePayload native key buf offset length
  · exact (Ipv6Option.decode_truthful hd).trueAt_of_eq_error he
  · exact (NdpOption.decode_truthful hd).trueAt_of_eq_error he
  · exact (GtpExtension.decode_truthful hd).trueAt_of_eq_error he

/-- An IPv6 packet over a datagram that is too short: the error that its
layer keeps points to the four octets that are there. -/
theorem errors_trueAt_short_datagram :
    let ctx : Context := {}
    let w : Bytes := [0x60, 0, 0, 0, 0, 4, 17, 64] ++ List.replicate 32 7 ++ [1, 2, 3, 4]
    let e : DecodeError := ⟨"UDP", 43, "01020304", .tooShort 8 4⟩
    (∀ key, (ctx.decoders.select key).Native)
      ∧ Outcome.errors Packet.reasons (ctx.decodeWith (.format .ipv6) ([1, 2, 3] ++ w ++ [9]) 3 44)
        = [e]
      ∧ e.TrueAt ([1, 2, 3] ++ w ++ [9]) 3 44 := by
  intro ctx w e
  have native : ∀ key, (ctx.decoders.select key).Native := Decoders.standard_ofLibrary.native
  have herrors :
      Outcome.errors Packet.reasons (ctx.decodeWith (.format .ipv6) ([1, 2, 3] ++ w ++ [9]) 3 44)
        = [e] := by
    decide +kernel
  have htrue := (@errors_trueAt ctx native ([1, 2, 3] ++ w ++ [9]) 3 44).1
    (.format .ipv6) trivial e
  exact ⟨native, herrors, htrue (herrors ▸ List.mem_singleton.mpr rfl)⟩

/-- An empty window behind the end of a buffer: nothing is declared, and
nothing is there. -/
example : ({} : Context).decode .ethernet [1, 2] 3 0
      = .error ⟨"Ethernet", 3, "", .inconsistentLength "window" 0 0⟩
    ∧ ¬ (Fault.inconsistentLength "window" 0 0).Holds := ⟨rfl, by decide⟩

end Context

end Buffer

end PacketCodec
