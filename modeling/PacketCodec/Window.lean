import PacketCodec.Error

/-!
# Windows

A decoder is a function of a *window*: a stretch of a buffer, with the
position it starts at. What it returns depends on the bytes of the window
alone; the position only enters the errors. Decoders that are handed the
whole buffer, and the place of their window in it, come to the same; that is
shown in `PacketCodec.Proofs.LayerSteps`.

`Window.cut?` takes a window out of a buffer and fails when the buffer
ends too early; `Window.outside` is the error for that case. The other
errors that a decoder can raise about its window are `tooShort`,
`invalid` and `inconsistent`.
-/

namespace PacketCodec

/-- **A stretch of a buffer.** -/
structure Window where
  /-- Where the stretch starts in the buffer. -/
  offset : Nat
  /-- The bytes of the stretch. -/
  bytes : Bytes
  deriving DecidableEq

namespace Window

/-- Number of bytes in the window. -/
def length (w : Window) : Nat := w.bytes.length

/-- The `length` bytes of `buf` from `offset` on, when there are that
many. -/
def cut? (buf : Bytes) (offset length : Nat) : Option Window :=
  if offset + length ≤ buf.length then some ⟨offset, buf.clamp offset length⟩ else none

/-- The error for a window that does not lie inside the buffer. -/
def outside (protocol : String) (buf : Bytes) (offset length : Nat) : DecodeError :=
  let available := buf.length - offset
  { protocol, offset
    dump := DecodeError.dumpOf (buf.clamp offset available)
    fault := .inconsistentLength "window" length available }

/-- The window cut out of `buf`, or the error of the named protocol. -/
def cut (protocol : String) (buf : Bytes) (offset length : Nat) : Except DecodeError Window :=
  match cut? buf offset length with
  | some w => .ok w
  | none => .error (outside protocol buf offset length)

/-- The rest of the window from `start` on. -/
def after (w : Window) (start : Nat) : Window :=
  ⟨w.offset + start, w.bytes.drop start⟩

/-- Fewer than `need` bytes are in the window. -/
def tooShort (w : Window) (protocol : String) (need : Nat) : DecodeError :=
  { protocol, offset := w.offset
    dump := DecodeError.dumpOf w.bytes
    fault := .tooShort need w.length }

/-- The field `start` bytes into the window holds a value that is not
allowed. -/
def invalid (w : Window) (protocol : String) (start : Nat) (field : String) (value : Nat) :
    DecodeError :=
  { protocol, offset := w.offset + start
    dump := DecodeError.dumpOf (w.bytes.drop start)
    fault := .invalidField field value }

/-- The length field `start` bytes into the window declares more than the
window has left from there. -/
def inconsistent (w : Window) (protocol : String) (start : Nat) (field : String)
    (declared : Nat) : DecodeError :=
  let available := w.length - start
  { protocol, offset := w.offset
    dump := DecodeError.dumpOf (w.bytes.take available)
    fault := .inconsistentLength field declared available }

/-- A value read off the front of the window, and what is left of it, or
the error that the window has fewer than the `need` bytes it takes. -/
def read {α : Type} (w : Window) (protocol : String) (need : Nat)
    (front? : Bytes → Option (α × Bytes)) : Except DecodeError (α × Bytes) :=
  match front? w.bytes with
  | some r => .ok r
  | none => .error (w.tooShort protocol need)

end Window

end PacketCodec
