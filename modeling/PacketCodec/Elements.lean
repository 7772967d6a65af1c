import PacketCodec.Window

/-!
# Lists of elements

Several formats end in a list of elements – options, chunks – that follow
each other until the region they are in is used up. `Window.elements`
reads such a list. It stops early, and says so, at the first element that
cannot be decoded; what that element and the rest of the region hold is
left to the caller.

The recursion is on the bytes of the region: after an element of `n`
octets has been read off the front, the `n - 1` octets behind its first
one are passed over.
-/

namespace PacketCodec

/-- The elements of a region whose bytes are still to be read and start
at `offset`, after passing over `skip` octets of the last element; and
whether the list was cut short. -/
def elementsFrom {α : Type} (decode : Window → Except DecodeError α) (size : α → Nat) :
    (skip offset : Nat) → Bytes → List α × Bool
  | _, _, [] => ([], false)
  | skip + 1, offset, _ :: rest => elementsFrom decode size skip (offset + 1) rest
  | 0, offset, b :: rest =>
    match decode ⟨offset, b :: rest⟩ with
    | .error _ => ([], true)
    | .ok e =>
      let more := elementsFrom decode size (size e - 1) (offset + 1) rest
      (e :: more.1, more.2)

/-- **The elements of a region**, read one after the other with `decode`
until the region is used up or an element cannot be decoded, and whether
the list was cut short in that way. An element takes up `size` octets. -/
def Window.elements {α : Type} (w : Window) (decode : Window → Except DecodeError α)
    (size : α → Nat) : List α × Bool :=
  elementsFrom decode size 0 w.offset w.bytes

/-- Number of octets that a list of elements takes up. -/
def totalSize {α : Type} (size : α → Nat) (es : List α) : Nat :=
  es.foldr (fun e n => size e + n) 0

end PacketCodec
