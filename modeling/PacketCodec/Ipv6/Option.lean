import PacketCodec.Number
import PacketCodec.Window

/-!
# IPv6 options

The options that a hop-by-hop or destination options header carries. All
but the one-octet pad are a type octet, a length octet and that many
octets of data. Decoders for the known types and one for all others read
an option off the front of a window; what they leave in place is for the
options after it.
-/

namespace PacketCodec

/-- The type of an IPv6 option. -/
abbrev Ipv6OptionType := UInt8

namespace Ipv6OptionType

/-- A single octet of padding. -/
def pad1 : Ipv6OptionType := 0

/-- Several octets of padding. -/
def padN : Ipv6OptionType := 1

/-- Router alert. -/
def routerAlert : Ipv6OptionType := 5

/-- The named option types. -/
def space : NumberSpace where
  title := "Ipv6OptionType"
  assigned := [(0, "PAD1"), (1, "PADN"), (5, "ROUTER_ALERT"), (0xc2, "JUMBO_PAYLOAD")]

/-- The text of an option type. -/
def label (t : Ipv6OptionType) : String := space.label t.toNat

/-- What a node that does not know the option has to do: the two highest
bits. -/
def action (t : Ipv6OptionType) : UInt8 := t >>> 6

/-- Whether the data may change on the way. -/
def mayChange (t : Ipv6OptionType) : Bool := t &&& 0x20 != 0

end Ipv6OptionType

/-- **An IPv6 option.** -/
inductive Ipv6Option where
  /-- A single zero octet. -/
  | pad1
  /-- Padding with its octets. -/
  | padN (data : Bytes)
  /-- Router alert with its value. -/
  | routerAlert (value : UInt16)
  /-- An option of any other type. -/
  | unknown (optionType : Ipv6OptionType) (data : Bytes)
  deriving DecidableEq

namespace Ipv6Option

def protocol : String := "IPv6 option"

/-- The type octet. -/
def optionType : Ipv6Option → Ipv6OptionType
  | pad1 => Ipv6OptionType.pad1
  | padN _ => Ipv6OptionType.padN
  | routerAlert _ => Ipv6OptionType.routerAlert
  | unknown t _ => t

/-- Number of octets on the wire. -/
def length : Ipv6Option → Nat
  | pad1 => 1
  | padN data => 2 + data.length
  | routerAlert _ => 4
  | unknown _ data => 2 + data.length

/-- Number of octets of data. -/
def dataLength (o : Ipv6Option) : Nat := o.length - 2

/-- The option on the wire. The length octet can only tell the length of
up to 255 octets of data. -/
def toBytes : Ipv6Option → Bytes
  | pad1 => [Ipv6OptionType.pad1]
  | padN data => Ipv6OptionType.padN :: UInt8.ofNat data.length :: data
  | routerAlert value => Ipv6OptionType.routerAlert :: 2 :: Bytes.be16 value
  | unknown t data => t :: UInt8.ofNat data.length :: data

/-- Padding of `n` octets: none, the one-octet pad, or the longer one. -/
def padding? : Nat → Option Ipv6Option
  | 0 => none
  | 1 => some pad1
  | n + 2 => some (padN (Bytes.zeros n))

/-! ## Decoding -/

/-- The type and the data of the option at the front of a window. -/
def typeAndData (w : Window) : Except DecodeError (Ipv6OptionType × Bytes) :=
  match w.bytes with
  | t :: n :: rest =>
    match Bytes.split? rest n.toNat with
    | some (data, _) => .ok (t, data)
    | none => .error (w.inconsistent protocol 2 "option data length" n.toNat)
  | _ => .error (w.tooShort protocol 2)

/-- Reads the one-octet pad. -/
def decodePad1 (w : Window) : Except DecodeError Ipv6Option :=
  match w.bytes with
  | _ :: _ => .ok pad1
  | [] => .error (w.tooShort protocol 1)

/-- Reads longer padding. -/
def decodePadN (w : Window) : Except DecodeError Ipv6Option := do
  let (_, data) ← typeAndData w
  return padN data

/-- Reads a router alert, whose data is one word. -/
def decodeRouterAlert (w : Window) : Except DecodeError Ipv6Option := do
  let (_, data) ← typeAndData w
  match data with
  | [high, low] => return routerAlert (UInt16.ofNat (Bytes.beNat [high, low]))
  | _ => throw (w.invalid protocol 1 "router alert length" data.length)

/-- Reads an option of any type. -/
def decodeUnknown (w : Window) : Except DecodeError Ipv6Option := do
  let (t, data) ← typeAndData w
  return unknown t data

end Ipv6Option

end PacketCodec
