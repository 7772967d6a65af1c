import PacketCodec.Decoders

/-!
# What every decoder of a registry satisfies

A property that the decoders assigned to numbers have, and the one for the
other numbers, is a property of whatever decoder a number selects
(`Registry.All.get`). The property may depend on the number. It is kept by
all that registries are put together with, so that for a given registry it
comes down to its assignments.

`Decoders.OfLibrary` is such a property of all registries at once: each
holds decoders of this library, for whatever numbers.
-/

namespace PacketCodec.Registry

variable {κ δ : Type} {P : κ → δ → Prop} {r : Registry κ δ}

/-- **Every decoder of the registry satisfies `P`** for the numbers that
select it. -/
structure All (P : κ → δ → Prop) (r : Registry κ δ) : Prop where
  /-- So do the assigned ones. -/
  entries : ∀ e ∈ r.entries, P e.1 e.2
  /-- The one for the other numbers does for any number. -/
  fallback : ∀ k, P k r.fallback

namespace All

theorem empty {space : String} {d : δ} (h : ∀ k, P k d) : (Registry.empty space d).All P :=
  ⟨fun _ he => absurd he List.not_mem_nil, h⟩

theorem setFallback {d : δ} (hr : r.All P) (h : ∀ k, P k d) : (r.setFallback d).All P :=
  ⟨hr.entries, h⟩

variable [BEq κ]

theorem unregister (hr : r.All P) (k : κ) : (r.unregister k).All P :=
  ⟨fun e he => hr.entries e (List.mem_filter.mp he).1, hr.fallback⟩

theorem register {k : κ} {d : δ} (hr : r.All P) (h : P k d) : (r.register k d).All P := by
  refine ⟨fun e he => ?_, hr.fallback⟩
  obtain rfl | he := List.mem_cons.mp he
  · exact h
  · exact (hr.unregister k).entries e he

/-- **The decoder that a number selects** satisfies what all do. -/
theorem get [LawfulBEq κ] (hr : r.All P) (k : κ) : P k (r.get k) := by
  unfold Registry.get get?
  cases hlookup : r.entries.lookup k with
  | none => exact hr.fallback k
  | some d =>
    obtain ⟨front, back, hentries, -⟩ := List.lookup_eq_some_iff.mp hlookup
    exact hr.entries (k, d) (hentries ▸ List.mem_append_right front List.mem_cons_self)

end All

/-- A number that is not assigned selects the decoder for the others. -/
theorem get_of_not_contains [BEq κ] {k : κ} (h : r.contains k = false) : r.get k = r.fallback := by
  rw [contains, Option.isSome_eq_false_iff, Option.isNone_iff_eq_none] at h
  rw [get, h, Option.getD_none]

end PacketCodec.Registry

namespace PacketCodec

/-- A decoder of this library: it decodes a format, or keeps the bytes. -/
def PacketDecoder.Native : PacketDecoder → Prop
  | custom _ _ => False
  | _ => True

/-- The decoders of IPv6 options. -/
def Ipv6Option.decoders : List (Window → Except DecodeError Ipv6Option) :=
  [decodePad1, decodePadN, decodeRouterAlert, decodeUnknown]

/-- The decoders of neighbor discovery options. -/
def NdpOption.decoders : List (Window → Except DecodeError NdpOption) :=
  [decodeSourceLinkAddr, decodeTargetLinkAddr, decodePrefixInfo, decodeMtu, decodeUnknown]

/-- The decoders of GTP extension headers. -/
def GtpExtension.decoders : List (Window → Except DecodeError GtpExtension) :=
  [decodeUdpPort, decodePduNumber, decodeLongPduNumber, decodeServiceClassIndicator,
    decodePduSessionContainer, decodeUnknown]

namespace Decoders

/-- **Registries put together from the decoders of this library**, each
assigned to any numbers. -/
structure OfLibrary (d : Decoders) : Prop where
  etherTypes : d.etherTypes.All fun _ => PacketDecoder.Native
  ipProtocols : d.ipProtocols.All fun _ => PacketDecoder.Native
  udpPorts : d.udpPorts.All fun _ => PacketDecoder.Native
  icmpv6Types : d.icmpv6Types.All fun _ => PacketDecoder.Native
  ipVersions : d.ipVersions.All fun _ => PacketDecoder.Native
  ipv6Options : d.ipv6Options.All fun _ decode => decode ∈ Ipv6Option.decoders
  ndpOptions : d.ndpOptions.All fun _ decode => decode ∈ NdpOption.decoders
  gtpExtensions : d.gtpExtensions.All fun _ decode => decode ∈ GtpExtension.decoders

/-- Every number selects a decoder of this library. -/
theorem OfLibrary.native {d : Decoders} (h : d.OfLibrary) (key : Selector) :
    (d.select key).Native := by
  cases key with
  | etherType n => exact h.etherTypes.get n
  | ipProtocol n => exact h.ipProtocols.get n
  | udpPort n => exact h.udpPorts.get n
  | icmpv6Type n => exact h.icmpv6Types.get n
  | ipVersion n => exact h.ipVersions.get n

theorem none_ofLibrary : none.OfLibrary where
  etherTypes := .empty fun _ => trivial
  ipProtocols := .empty fun _ => trivial
  udpPorts := .empty fun _ => trivial
  icmpv6Types := .empty fun _ => trivial
  ipVersions := .empty fun _ => trivial
  ipv6Options := .empty fun _ => by simp [Ipv6Option.decoders]
  ndpOptions := .empty fun _ => by simp [NdpOption.decoders]
  gtpExtensions := .empty fun _ => by simp [GtpExtension.decoders]

theorem standard_ofLibrary : standard.OfLibrary where
  etherTypes := .register (.register none_ofLibrary.etherTypes trivial) trivial
  ipProtocols := by
    unfold standard
    repeat refine .register ?_ trivial
    exact none_ofLibrary.ipProtocols
  udpPorts := .register none_ofLibrary.udpPorts trivial
  icmpv6Types := by
    unfold standard
    repeat refine .register ?_ trivial
    exact none_ofLibrary.icmpv6Types
  ipVersions := .register none_ofLibrary.ipVersions trivial
  ipv6Options := by
    unfold standard
    repeat refine .register ?_ (by simp [Ipv6Option.decoders])
    exact none_ofLibrary.ipv6Options
  ndpOptions := by
    unfold standard
    repeat refine .register ?_ (by simp [NdpOption.decoders])
    exact none_ofLibrary.ndpOptions
  gtpExtensions := by
    unfold standard
    repeat refine .register ?_ (by simp [GtpExtension.decoders])
    exact none_ofLibrary.gtpExtensions

end Decoders

end PacketCodec
