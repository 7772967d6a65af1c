/-!
# Assigned numbers

Headers select what follows them by number: an EtherType, an IP protocol,
a message type. Such a number is kept as the plain word it is on the wire
– any value may occur – and its `NumberSpace` knows the names of the
values that have one.
-/

namespace PacketCodec

/-- **A space of assigned numbers**: the values that have a name, with
their names. -/
structure NumberSpace where
  /-- What the space is called. -/
  title : String
  /-- The assigned values. -/
  assigned : List (Nat × String)

namespace NumberSpace

/-- The name of `n`, if it is assigned. -/
def name? (s : NumberSpace) (n : Nat) : Option String :=
  s.assigned.lookup n

/-- The text of `n`: its name, or a word for having none, and the number
in parentheses. -/
def label (s : NumberSpace) (n : Nat) : String :=
  (s.name? n).getD "unknown" ++ " (" ++ toString n ++ ")"

end NumberSpace

end PacketCodec
