import PacketCodec.Proofs.Origin

/-!
# How deep decoding goes

Decoding stops below a number of layers, whatever the registries say: a
number may select the decoder of the very layer it was read from. What
keeps a chain short is the count of layers that are still allowed, and
that count decides one thing only – whether a payload is read at all. What
is read off its window, `Context.peel?`, does not depend on it.

Two statements follow, both by induction on the count. A decoded chain has
at most two layers more than the limit, and the last of that many is bytes
that were kept (`Context.layers_decode_le`). And two limits give the same
layers as far as both allow them (`Context.layers_decode_agree`), provided
that no layer depends on how its payload was decoded – which leaves out
frames, whose pad is what the payload does not account for.
-/

namespace PacketCodec

/-! ## One layer of a payload -/

/-- **What is read off the window of a payload**: a layer of the format
that the number selects, or the bytes of the window when no decoder claims
them or one rejects them. Nothing is read off an empty window. -/
def Context.peel? (ctx : Context) (key : Selector) (w : Window) : Option Peeled :=
  if w.bytes.isEmpty then none
  else
    match ctx.decoders.select key with
    | .format f =>
      match ctx.peel f w with
      | .ok l => some l
      | .error e => some (.leaf (.malformed w.bytes e))
    | _ => some (.leaf (.unknown w.bytes))

/-- **A payload is the layer read off its window**, over what that layer
carries, decoded with one layer less. -/
theorem Context.payload_succ {ctx : Context} {key : Selector}
    (native : (ctx.decoders.select key).Native) (left : Nat) (w : Window) :
    ctx.payload (left + 1) key w
      = (ctx.peel? key w).map (Peeled.assemble (ctx.payload left)) := by
  unfold payload peel?
  split
  · rfl
  · cases hd : ctx.decoders.select key with
    | format f =>
      simp only [PacketDecoder.run]
      cases ctx.peel f w <;> rfl
    | unknown => rfl
    | custom name decode =>
      rw [hd] at native
      exact native.elim

/-! ## Chains are short -/

/-- **The chain ends within `depth` layers** below the outermost one, and
a layer that many below it is bytes that no decoder claims. -/
structure Packet.EndsWithin (depth : Nat) (p : Packet) : Prop where
  /-- There are not more layers. -/
  length_le : p.layers.length ≤ depth + 1
  /-- The last one that there may be is not decoded. -/
  unknown_at : ∀ l ∈ p.layers[depth]?, l.kind = .unknown

namespace Packet

theorem endsWithin_unknown (depth : Nat) (data : Bytes) : (unknown data).EndsWithin depth where
  length_le := Nat.le_add_left 1 depth
  unknown_at := by
    intro l hl
    obtain rfl : l = unknown data := List.mem_singleton.mp (List.mem_of_getElem? hl)
    rfl

theorem endsWithin_leaf (depth : Nat) (l : Leaf) : (leaf l).EndsWithin (depth + 1) where
  length_le := Nat.le_add_left 1 (depth + 1)
  unknown_at := fun _ hl => absurd hl (Option.not_mem_none _)

/-- A layer over a payload goes one layer deeper. -/
theorem endsWithin_ofCarrier {depth : Nat} (c : Carrier) {p : Option Packet}
    (h : ∀ q ∈ p, q.EndsWithin depth) : (ofCarrier c p).EndsWithin (depth + 1) := by
  cases p with
  | none =>
    exact ⟨Nat.le_add_left 1 (depth + 1), fun _ hl => absurd hl (Option.not_mem_none _)⟩
  | some q =>
    obtain ⟨hlength, hunknown⟩ := h q rfl
    exact ⟨Nat.succ_le_succ hlength, hunknown⟩

end Packet

/-- **A layer over its payload** goes one layer deeper than payloads do. A
layer that keeps bytes, and a frame that does not use its payload, end one
layer further down. -/
theorem Peeled.endsWithin_assemble {depth : Nat} {payload : Selector → Window → Option Packet}
    (h : ∀ key w, ∀ p ∈ payload key w, p.EndsWithin depth) (l : Peeled) :
    (l.assemble payload).EndsWithin (depth + 1) := by
  have kept : ∀ data, ∀ p ∈ some (Packet.unknown data), p.EndsWithin depth := by
    rintro data _ ⟨⟩
    exact Packet.endsWithin_unknown depth data
  cases l with
  | leaf l => exact Packet.endsWithin_leaf depth l
  | carrier c inner =>
    rw [assemble_carrier]
    refine Packet.endsWithin_ofCarrier c ?_
    cases inner with
    | nothing => exact fun _ hp => absurd hp (Option.not_mem_none _)
    | kept data => exact kept data
    | dispatch key w => exact h key w
  | frame header body fcs =>
    rw [assemble, EthernetHeader.frame_eq_ofCarrier]
    split
    · exact Packet.endsWithin_ofCarrier _ (h _ _)
    · exact Packet.endsWithin_ofCarrier _ (kept _)

namespace Context

variable {ctx : Context}

/-- **A payload ends within the layers that are allowed.** -/
theorem endsWithin_payload (native : ∀ key, (ctx.decoders.select key).Native) (left : Nat)
    (key : Selector) (w : Window) : ∀ p ∈ ctx.payload left key w, p.EndsWithin left := by
  induction left generalizing key w with
  | zero =>
    intro p hp
    unfold payload at hp
    split at hp
    · cases hp
    · cases hp
      exact Packet.endsWithin_unknown 0 _
  | succ left ih =>
    intro p hp
    rw [payload_succ (native key), Option.mem_def, Option.map_eq_some_iff] at hp
    obtain ⟨l, -, rfl⟩ := hp
    exact Peeled.endsWithin_assemble ih l

/-- **The limit bounds every chain.** Whatever numbers the decoders of the
library are assigned to – each to the number that its own header announces,
for one – a packet has at most two layers more than the limit, and a layer
below as many as the limit allows is bytes that no decoder claims. -/
theorem layers_decode_le (library : ctx.decoders.OfLibrary) {buf : Bytes} {offset length : Nat}
    {p : Packet}
    (h : (∃ d : PacketDecoder, d.Native ∧ ctx.decodeWith d buf offset length = .ok p)
      ∨ ctx.decodeFcs buf offset length = .ok p) :
    p.layers.length ≤ ctx.settings.maxDepth + 2
      ∧ ∀ l ∈ p.layers[ctx.settings.maxDepth + 1]?, l.kind = .unknown := by
  have hassemble : ∀ l : Peeled,
      (l.assemble ctx.payloads).EndsWithin (ctx.settings.maxDepth + 1) :=
    Peeled.endsWithin_assemble (endsWithin_payload library.native _)
  have hp : p.EndsWithin (ctx.settings.maxDepth + 1) := by
    obtain ⟨d, native, h⟩ | h := h
    · cases d with
      | format f =>
        rw [decodeWith, decode, bind_eq_ok] at h
        obtain ⟨w, -, h⟩ := h
        rw [decodeWindow, map_eq_ok] at h
        obtain ⟨l, -, rfl⟩ := h
        exact hassemble l
      | unknown =>
        cases h
        exact Packet.endsWithin_unknown _ _
      | custom name decode => exact native.elim
    · rw [decodeFcs, bind_eq_ok] at h
      obtain ⟨w, -, h⟩ := h
      rw [decodeFcsWindow, map_eq_ok] at h
      obtain ⟨l, -, rfl⟩ := h
      exact hassemble l
  exact ⟨hp.length_le, hp.unknown_at⟩

/-- Options headers that announce each other for ever: with every next
header assigned to them and a limit of two layers, the octets of the
fourth are kept. -/
theorem layers_decode_le_hopByHop :
    let ctx : Context :=
      ⟨{ Decoders.standard with ipProtocols := .empty "IpProtocol" (.format .hopByHop) },
        { maxDepth := 2 }⟩
    ctx.decoders.OfLibrary
      ∧ ∃ p, ctx.decodeWith (.format .hopByHop) (Bytes.zeros 64) 0 64 = .ok p
        ∧ p.layers.map Packet.kind
            = [.format .hopByHop, .format .hopByHop, .format .hopByHop, .unknown]
        ∧ p.layers.length ≤ 4 ∧ ∀ l ∈ p.layers[3]?, l.kind = .unknown := by
  intro ctx
  have library : ctx.decoders.OfLibrary :=
    { Decoders.standard_ofLibrary with ipProtocols := .empty fun _ => trivial }
  have hkinds : (ctx.decodeWith (.format .hopByHop) (Bytes.zeros 64) 0 64).toOption.map
      (fun p => p.layers.map Packet.kind)
        = some [.format .hopByHop, .format .hopByHop, .format .hopByHop, .unknown] := by
    decide +kernel
  cases hp : ctx.decodeWith (.format .hopByHop) (Bytes.zeros 64) 0 64 with
  | error e => rw [hp] at hkinds; cases hkinds
  | ok p =>
    rw [hp] at hkinds
    exact ⟨library, p, rfl, Option.some.inj hkinds,
      layers_decode_le library (.inl ⟨.format .hopByHop, trivial, hp⟩)⟩

end Context

/-! ## Limits agree -/

/-- **The outermost layer by itself**, without the packet that it
carries. -/
def Packet.own : Packet → Leaf ⊕ Carrier
  | leaf l => .inl l
  | bare c => .inr c
  | carry c _ => .inr c

/-- The layers of a payload, each by itself. -/
def Packet.chain (p : Option Packet) : List (Leaf ⊕ Carrier) :=
  ((p.map layers).getD []).map own

theorem Packet.chain_ofCarrier (c : Carrier) (p : Option Packet) :
    chain (some (ofCarrier c p)) = .inr c :: chain p := by
  cases p <;> rfl

/-- A layer that is no frame, and whose payload is not selected by an
EtherType. -/
def Peeled.Internet : Peeled → Prop
  | carrier _ (.dispatch key _) => key.Internet
  | frame _ _ _ => False
  | _ => True

/-- **Layers over payloads that agree** on their first layers agree on one
layer more. -/
theorem Peeled.take_chain_assemble {payload payload' : Selector → Window → Option Packet}
    {n : Nat}
    (h : ∀ key w, key.Internet →
      (Packet.chain (payload key w)).take n = (Packet.chain (payload' key w)).take n)
    {l : Peeled} (internet : l.Internet) :
    (Packet.chain (some (l.assemble payload))).take (n + 1)
      = (Packet.chain (some (l.assemble payload'))).take (n + 1) := by
  cases l with
  | leaf l => rfl
  | carrier c inner =>
    rw [assemble_carrier, assemble_carrier, Packet.chain_ofCarrier, Packet.chain_ofCarrier,
      List.take_succ_cons, List.take_succ_cons]
    congr 1
    cases inner with
    | nothing => rfl
    | kept data => rfl
    | dispatch key w => exact h key w internet
  | frame header body fcs => exact internet.elim

namespace Context

variable {ctx ctx' : Context}

theorem peel_internet {f : Format} (hf : f ≠ .ethernet) {w : Window} {l : Peeled}
    (h : ctx.peel f w = .ok l) : l.Internet := by
  cases l with
  | leaf l => trivial
  | carrier c inner =>
    cases inner with
    | dispatch key v => exact internet_of_peel h
    | _ => trivial
  | frame header body fcs => exact absurd (kind_of_peel h) (by simpa [Peeled.kind] using hf.symm)

theorem peel?_internet (internet : ctx.decoders.Internet) {key : Selector} (hkey : key.Internet)
    {w : Window} {l : Peeled} (h : ctx.peel? key w = some l) : l.Internet := by
  have hd := internet key hkey
  unfold peel? at h
  split at h
  · cases h
  · split at h
    · next f hselect =>
      rw [hselect] at hd
      split at h
      · next l hl =>
        cases h
        exact peel_internet hd.1 hl
      · cases h
        trivial
    · cases h
      trivial

/-- **Payloads agree on the layers that both limits allow**, when the same
is read off each window. -/
theorem take_chain_payload (same : ∀ key w, ctx.peel? key w = ctx'.peel? key w)
    (native : ∀ key, (ctx.decoders.select key).Native)
    (native' : ∀ key, (ctx'.decoders.select key).Native) (internet : ctx.decoders.Internet)
    {m m' : Nat} (hm : m ≤ m') (key : Selector) (w : Window) (hkey : key.Internet) :
    (Packet.chain (ctx.payload m key w)).take m
      = (Packet.chain (ctx'.payload m' key w)).take m := by
  induction m generalizing m' key w with
  | zero => rfl
  | succ m ih =>
    obtain ⟨n, rfl⟩ := Nat.exists_eq_add_of_le' hm
    rw [← Nat.add_assoc, payload_succ (native key), payload_succ (native' key), ← same]
    cases hl : ctx.peel? key w with
    | none => rw [Option.map_none, Option.map_none]
    | some l =>
      exact Peeled.take_chain_assemble (fun key w => ih (Nat.le_add_left m n) key w)
        (peel?_internet internet hkey hl)

/-- The limit is no part of what is read off a window. -/
theorem peel_maxDepth (d : Decoders) (settings : Settings) (m m' : Nat) (f : Format)
    (w : Window) :
    peel ⟨d, { settings with maxDepth := m }⟩ f w
      = peel ⟨d, { settings with maxDepth := m' }⟩ f w := by
  cases f <;> rfl

theorem peel?_maxDepth (d : Decoders) (settings : Settings) (m m' : Nat) (key : Selector)
    (w : Window) :
    peel? ⟨d, { settings with maxDepth := m }⟩ key w
      = peel? ⟨d, { settings with maxDepth := m' }⟩ key w := by
  simp only [peel?, peel_maxDepth d settings m m']

/-- A layer that is no frame is the same over payloads decoded with two
limits, and so are the layers below it as far as the lower limit goes. -/
theorem own_assemble_payloads {settings : Settings} {m m' : Nat} (hm : m ≤ m') {l : Peeled}
    (internet : l.Internet) {i : Nat} (hi : i ≤ m) :
    (l.assemble (payloads ⟨.standard, { settings with maxDepth := m }⟩)).layers[i]?.map Packet.own
      = (l.assemble (payloads ⟨.standard, { settings with maxDepth := m' }⟩)).layers[i]?.map
          Packet.own := by
  have hpeel := peel?_maxDepth .standard settings m m'
  have hpayload := take_chain_payload hpeel Decoders.standard_ofLibrary.native
    Decoders.standard_ofLibrary.native Decoders.standard_internet hm
  have htake := Peeled.take_chain_assemble hpayload internet
  have hplace := congrArg (fun chain => chain[i]?) htake
  simp only [List.getElem?_take_of_lt (Nat.lt_succ_of_le hi)] at hplace
  rw [← List.getElem?_map, ← List.getElem?_map]
  exact hplace

/-- **A higher limit only reveals more.** Two limits accept the same
windows, and the packets they decode have the same layers as far as the
lower limit goes: at each place the same layer – its header with the
elements in it, the octets behind it, or the bytes and the reason they are
rejected for – or none in both. -/
theorem layers_decode_agree {settings : Settings} {m m' : Nat} (hm : m ≤ m')
    {d : PacketDecoder} (native : d.Native) (frameless : d ≠ .format .ethernet) (buf : Bytes)
    (offset length : Nat) {i : Nat} (hi : i ≤ m) :
    (decodeWith ⟨.standard, { settings with maxDepth := m }⟩ d buf offset length).map
        (fun p => p.layers[i]?.map Packet.own)
      = (decodeWith ⟨.standard, { settings with maxDepth := m' }⟩ d buf offset length).map
        (fun p => p.layers[i]?.map Packet.own) := by
  cases d with
  | format f =>
    have hf : f ≠ .ethernet := fun h => frameless (congrArg PacketDecoder.format h)
    rw [decodeWith, decodeWith, decode, decode]
    cases Window.cut f.protocol buf offset length with
    | error e => rfl
    | ok w =>
      show Except.map _ (decodeWindow _ f w) = Except.map _ (decodeWindow _ f w)
      rw [decodeWindow, decodeWindow, peel_maxDepth .standard settings m m']
      cases hl : peel ⟨.standard, { settings with maxDepth := m' }⟩ f w with
      | error e => rfl
      | ok l => exact congrArg Except.ok (own_assemble_payloads hm (peel_internet hf hl) hi)
  | unknown => rfl
  | custom name decode => exact native.elim

/-- Options headers in a row: a limit of one layer shows two of them, a
limit of three shows all four, and the first two are the same. -/
theorem layers_decode_agree_hopByHop :
    let run (m : Nat) := decodeWith ⟨.standard, { maxDepth := m }⟩ (.format .hopByHop)
      (Bytes.zeros 32) 0 32
    (run 1).toOption.map (fun p => p.layers.map Packet.kind)
        = some [.format .hopByHop, .format .hopByHop, .unknown]
      ∧ (run 3).toOption.map (fun p => p.layers.map Packet.kind)
        = some [.format .hopByHop, .format .hopByHop, .format .hopByHop, .format .hopByHop]
      ∧ ∀ i ≤ 1, (run 1).map (fun p => p.layers[i]?.map Packet.own)
          = (run 3).map (fun p => p.layers[i]?.map Packet.own) := by
  intro run
  refine ⟨by decide +kernel, by decide +kernel, fun i hi => ?_⟩
  exact @layers_decode_agree {} 1 3 (by decide) (.format .hopByHop) trivial (by simp) _ 0 32 i hi

end Context

end PacketCodec
