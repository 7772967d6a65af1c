import PacketCodec.Number

/-!
# Registries

A registry assigns decoders to the numbers of a space, and has one more
decoder for the numbers that are not in it. It is a list of assignments
with no number twice; `register` and `unregister` drop what was assigned
before. The decoders are of any type: this module only keeps them.
-/

namespace PacketCodec

/-- **Decoders by number**, with one for all other numbers. -/
structure Registry (κ δ : Type) where
  /-- Name of the number space. -/
  space : String
  /-- The assignments, the latest first. -/
  entries : List (κ × δ)
  /-- The decoder of a number that is not assigned. -/
  fallback : δ

namespace Registry

variable {κ δ : Type} [BEq κ]

/-- A registry with no assignments. -/
def empty (space : String) (fallback : δ) : Registry κ δ := ⟨space, [], fallback⟩

/-- The registry without an assignment of `k`. -/
def unregister (r : Registry κ δ) (k : κ) : Registry κ δ :=
  { r with entries := r.entries.filter fun e => !(e.1 == k) }

/-- The registry with `d` assigned to `k`. -/
def register (r : Registry κ δ) (k : κ) (d : δ) : Registry κ δ :=
  { r with entries := (k, d) :: (r.unregister k).entries }

/-- The registry with another decoder for numbers that are not
assigned. -/
def setFallback (r : Registry κ δ) (d : δ) : Registry κ δ :=
  { r with fallback := d }

/-- The decoder assigned to `k`, if there is one. -/
def get? (r : Registry κ δ) (k : κ) : Option δ := r.entries.lookup k

/-- Whether a decoder is assigned to `k`. -/
def contains (r : Registry κ δ) (k : κ) : Bool := (r.get? k).isSome

/-- The decoder that `k` selects. -/
def get (r : Registry κ δ) (k : κ) : δ := (r.get? k).getD r.fallback

/-- The text of a registry: its space and the texts of its keys, in the
order of those texts. -/
def description (r : Registry κ δ) (label : κ → String) : String :=
  let keys := (r.entries.map fun e => label e.1).mergeSort fun a b => decide (a ≤ b)
  "Registry \x7b space: \"" ++ r.space ++ "\", keys: ["
    ++ ", ".intercalate (keys.map fun k => "\"" ++ k ++ "\"") ++ "] \x7d"

end Registry

end PacketCodec
