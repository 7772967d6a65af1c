import PacketCodec.Bytes.Basic

/-!
# Values derived once

A packet never changes, so what is derived from it – its length, its wire
bytes, their hexadecimal text, a fingerprint – can be kept from the first
time it is asked for. A `Derived` is a write-once store of these four:
each operation returns the value kept, or keeps and returns the one
offered when there is none yet.

A fingerprint stands for the bytes it was taken from: two of them are
equal exactly when the bytes are.
-/

namespace PacketCodec

/-- **A write-once store** of the values derived from a packet. -/
structure Derived where
  /-- The length, once asked for. -/
  length? : Option Nat := none
  /-- The wire bytes, once asked for. -/
  raw? : Option Bytes := none
  /-- The hexadecimal text, once asked for. -/
  hex? : Option String := none
  /-- The bytes the fingerprint was taken from, once asked for. -/
  fingerprint? : Option Bytes := none
  deriving DecidableEq

namespace Derived

/-- The length kept; `offered` is kept if there is none. -/
def length (d : Derived) (offered : Nat) : Nat × Derived :=
  let kept := d.length?.getD offered
  (kept, { d with length? := some kept })

/-- The bytes kept; `offered` is kept if there are none. -/
def raw (d : Derived) (offered : Bytes) : Bytes × Derived :=
  let kept := d.raw?.getD offered
  (kept, { d with raw? := some kept })

/-- The text kept; the text of `offered` is kept if there is none. -/
def hex (d : Derived) (offered : Bytes) : String × Derived :=
  let kept := d.hex?.getD offered.hex
  (kept, { d with hex? := some kept })

/-- Whether the fingerprint kept is that of `offered`; the fingerprint of
`offered` is kept if there is none. -/
def sameFingerprint (d : Derived) (offered : Bytes) : Bool × Derived :=
  let kept := d.fingerprint?.getD offered
  (kept == offered, { d with fingerprint? := some kept })

/-- The text of a store, which shows none of its content. -/
def description : String := "Memo \x7b .. \x7d"

end Derived

end PacketCodec
