import PacketCodec.Bytes.Basic

/-!
# What can be wrong

Two kinds of failure. A `DecodeError` says why a window of bytes is not a
well-formed value of some format: the format, where the offending bytes
are, a bounded dump of them, and the `Fault` itself. A `BuildError` lists
everything that keeps a draft from becoming a packet, each item a
`Violation`; a draft whose payload cannot be built has the payload's
error as its only violation.

Both are data. Their wording is in one `message` function each.
-/

namespace PacketCodec

/-! ## Decoding -/

/-- **Why bytes are not a well-formed value.** -/
inductive Fault where
  /-- Fewer bytes are there than the structure needs. -/
  | tooShort (need got : Nat)
  /-- A field holds a value that the format does not allow. -/
  | invalidField (field : String) (value : Nat)
  /-- A length field disagrees with the bytes that are there. -/
  | inconsistentLength (field : String) (declared available : Nat)
  deriving DecidableEq

/-- The name of the kind of fault. -/
def Fault.kind : Fault → String
  | tooShort .. => "TooShort"
  | invalidField .. => "InvalidField"
  | inconsistentLength .. => "InconsistentLength"

/-- **A failed decoding**: a fault with the format that found it and the
bytes it was found in. -/
structure DecodeError where
  /-- The format that was being decoded. -/
  protocol : String
  /-- Position of the offending bytes in the buffer. -/
  offset : Nat
  /-- The offending bytes in hexadecimal, at most `dumpLimit` of them. -/
  dump : String
  /-- What is wrong. -/
  fault : Fault
  deriving DecidableEq

namespace DecodeError

/-- Most bytes that a dump shows. -/
def dumpLimit : Nat := 64

/-- The dump of a byte string. -/
def dumpOf (bs : Bytes) : String :=
  Bytes.hex (bs.take dumpLimit)

/-- The text of a decoding error. -/
def message (e : DecodeError) : String :=
  e.protocol ++ ": " ++ what e.fault ++ " (data: [" ++ e.dump ++ "])"
where
  /-- The part of the text that depends on the fault. -/
  what : Fault → String
    | .tooShort need got =>
      "need " ++ toString need ++ " bytes at offset " ++ toString e.offset ++ ", got "
        ++ toString got
    | .invalidField field value =>
      "invalid " ++ field ++ " " ++ toString value ++ " at offset " ++ toString e.offset
    | .inconsistentLength field declared available =>
      field ++ " declares " ++ toString declared ++ " bytes but " ++ toString available
        ++ " are available at offset " ++ toString e.offset

end DecodeError

/-! ## Building -/

/-- **One thing that is wrong with a draft.** -/
inductive Violation where
  /-- A required field was never set. -/
  | missing (field : String)
  /-- A value is larger than its field can hold. -/
  | outOfRange (field : String) (value max : Nat)
  /-- A value conflicts with the rest of the draft. -/
  | invalid (field reason : String)
  /-- The payload, of the named protocol, cannot be built. -/
  | payload (protocol : String) (violations : List Violation)

/-- **A failed build**: the protocol and everything that is wrong, in
field order. -/
structure BuildError where
  /-- The protocol whose draft cannot be built. -/
  protocol : String
  /-- What is wrong with it. -/
  violations : List Violation

mutual

/-- The text of a violation. -/
def Violation.message : Violation → String
  | .missing field => "missing " ++ field
  | .outOfRange field value max => field ++ " = " ++ toString value ++ " exceeds " ++ toString max
  | .invalid field reason => field ++ ": " ++ reason
  | .payload protocol violations =>
    "payload: " ++ "cannot build " ++ protocol ++ ": "
      ++ ", ".intercalate (Violation.messages violations)

/-- The texts of several violations. -/
def Violation.messages : List Violation → List String
  | [] => []
  | v :: vs => v.message :: Violation.messages vs

end

namespace BuildError

/-- The text of a build error: every violation, in order. -/
def message (e : BuildError) : String :=
  "cannot build " ++ e.protocol ++ ": " ++ ", ".intercalate (Violation.messages e.violations)

/-- The required fields that were never set. -/
def missingFields (e : BuildError) : List String :=
  e.violations.filterMap fun
    | .missing field => some field
    | _ => none

end BuildError

namespace Violation

/-- A violation if the required field is unset. -/
def ifMissing {α : Type} (field : String) : Option α → List Violation
  | some _ => []
  | none => [.missing field]

/-- A violation if `value` is larger than `max`. -/
def ifOver (field : String) (value max : Nat) : List Violation :=
  if value > max then [.outOfRange field value max] else []

/-- A violation if `bad` holds. -/
def ifBad (bad : Bool) (field reason : String) : List Violation :=
  if bad then [.invalid field reason] else []

end Violation

/-- The value, unless there is something wrong with the draft. -/
def BuildError.check (protocol : String) (violations : List Violation) : Except BuildError Unit :=
  if violations.isEmpty then .ok () else .error ⟨protocol, violations⟩

end PacketCodec
