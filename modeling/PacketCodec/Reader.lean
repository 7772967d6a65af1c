import PacketCodec.Bytes.Field
import PacketCodec.Window

/-!
# Readers

A `Reader` is a window that remembers the buffer it was cut from and the
protocol it is read for. Positions are relative to the start of the
window, and no read looks past its end: the buffer is cut there. A read
that would is an error about the window, `Window.tooShort`, with the
number of bytes that would have been enough.
-/

namespace PacketCodec

/-- **A bounded view of a buffer.** -/
structure Reader where
  /-- The protocol that errors are raised for. -/
  protocol : String
  /-- The buffer, cut at the end of the window. -/
  buf : Bytes
  /-- Where the window starts. -/
  offset : Nat
  /-- The window starts inside the buffer or at its end. -/
  offset_le : offset ≤ buf.length

namespace Reader

/-- The largest position in a buffer; larger ones count as this one. -/
def positionLimit : Nat := UInt64.size - 1

/-- A reader of the `length` bytes of `buf` from `offset` on. -/
def ofBuffer (protocol : String) (buf : Bytes) (offset length : Nat) :
    Except DecodeError Reader :=
  if h : offset + length ≤ buf.length then
    .ok ⟨protocol, buf.take (offset + length), offset, by
      rw [List.length_take]; omega⟩
  else .error (Window.outside protocol buf offset length)

/-- The window that is read. -/
def window (r : Reader) : Window := ⟨r.offset, r.buf.drop r.offset⟩

/-- Number of bytes in the window. -/
def length (r : Reader) : Nat := r.buf.length - r.offset

/-- A reader of `length` bytes `start` bytes into this window, for
another protocol. -/
def sub (r : Reader) (protocol : String) (start length : Nat) : Except DecodeError Reader :=
  ofBuffer protocol r.buf (r.offset + start) length

/-- Fails unless the window holds at least `need` bytes. -/
def require (r : Reader) (need : Nat) : Except DecodeError Unit :=
  if r.length < need then .error (r.window.tooShort r.protocol need) else .ok ()

/-- The error that the field `start` bytes into the window is invalid. -/
def invalid (r : Reader) (start : Nat) (field : String) (value : Nat) : DecodeError :=
  r.window.invalid r.protocol start field value

/-- The error that the length field `start` bytes into the window
declares too much. -/
def inconsistent (r : Reader) (start : Nat) (field : String) (declared : Nat) : DecodeError :=
  r.window.inconsistent r.protocol start field declared

/-- An out-of-bounds read of the buffer as an error about the window. -/
def located {α : Type} (r : Reader) : Except OutOfBounds α → Except DecodeError α
  | .ok a => .ok a
  | .error e =>
    .error (r.window.tooShort r.protocol (min (e.offset + e.need) positionLimit - r.offset))

/-- The `need` bytes at `start`. -/
def slice (r : Reader) (start need : Nat) : Except DecodeError Bytes :=
  r.located (r.buf.field (r.offset + start) need)

/-- Everything from `start` to the end of the window. -/
def rest (r : Reader) (start : Nat) : Except DecodeError Bytes := do
  r.require start
  return r.buf.drop (r.offset + start)

/-- The octet at `start`. -/
def u8 (r : Reader) (start : Nat) : Except DecodeError UInt8 :=
  r.located (r.buf.u8At (r.offset + start))

/-- The 16-bit word at `start`. -/
def u16 (r : Reader) (order : ByteOrder) (start : Nat) : Except DecodeError UInt16 :=
  r.located (Bytes.u16At order r.buf (r.offset + start))

/-- The 24-bit word in network order at `start`. -/
def u24 (r : Reader) (start : Nat) : Except DecodeError UInt32 :=
  r.located (Bytes.u24At .big r.buf (r.offset + start))

/-- The 32-bit word at `start`. -/
def u32 (r : Reader) (order : ByteOrder) (start : Nat) : Except DecodeError UInt32 :=
  r.located (Bytes.u32At order r.buf (r.offset + start))

/-- The 64-bit word in network order at `start`. -/
def u64 (r : Reader) (start : Nat) : Except DecodeError UInt64 :=
  r.located (Bytes.u64At .big r.buf (r.offset + start))

/-- The `n` octets at `start`, such as an address. -/
def octets (r : Reader) (n start : Nat) : Except DecodeError (Octets n) :=
  r.located (Bytes.octetsAt n r.buf (r.offset + start))

end Reader

end PacketCodec
