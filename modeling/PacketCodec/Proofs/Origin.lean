import PacketCodec.Proofs.Layer

/-!
# Which octets a packet keeps

The octets of a window that a decoded packet does not write are octets
that some IPv6 packet in it left behind: its payload length says that the
payload ends before the window does. To say so, each layer of the packet
is listed with the octets of the window that it was decoded from, an
`Origin`. An origin *fills* its window unless it is an IPv6 packet that
leaves octets behind.

The main statement is an equivalence, `Context.payload_accounts`: what is
decoded is written as the octets it was decoded from exactly when every
origin fills its window. The induction is over the layers that are still
allowed, and what one layer adds is `Context.assemble_accounts`.
-/

namespace PacketCodec

/-! ## Origins -/

/-- **A layer and what it was decoded from.** -/
structure Origin where
  /-- The octets of the window. -/
  window : Bytes
  /-- The packet that starts with the layer. -/
  layer : Packet

/-- The header of the outermost layer, if that is an IPv6 packet. -/
def Packet.ipv6Header? : Packet → Option Ipv6Header
  | bare (.ipv6 h) => some h
  | carry (.ipv6 h) _ => some h
  | _ => none

/-- **The layer uses up its window**: if it is an IPv6 packet, its payload
length is zero or at least what follows the header in the window. -/
def Origin.Fills (o : Origin) : Prop :=
  ∀ h ∈ o.layer.ipv6Header?,
    h.payloadLen = 0 ∨ o.window.length - Ipv6Header.size ≤ h.payloadLen.toNat

instance (o : Origin) : Decidable o.Fills := inferInstanceAs (Decidable (∀ h ∈ _, _))

/-- The payload of a layer, by what it carries. -/
def Inner.payload (payload : Selector → Window → Option Packet) : Inner → Option Packet
  | nothing => none
  | kept data => some (.unknown data)
  | dispatch key w => payload key w

theorem Inner.payload_keep (payload : Selector → Window → Option Packet) (data : Bytes) :
    (Inner.keep data).payload payload = if data.isEmpty then none else some (.unknown data) := by
  rw [keep]
  split <;> rfl

/-- The origins of what a layer carries. -/
def Inner.origins (origins : Selector → Window → List Origin) : Inner → List Origin
  | nothing => []
  | kept data => [⟨data, .unknown data⟩]
  | dispatch key w => origins key w

/-- The origins below a layer. A frame that does not use its payload has
the octets of its body instead. -/
def Peeled.origins (payload : Selector → Window → Option Packet)
    (origins : Selector → Window → List Origin) : Peeled → List Origin
  | leaf _ => []
  | carrier _ inner => inner.origins origins
  | frame h body _ =>
    if (payload (.etherType h.etherType) body).all fun p => p.toBytes.isPrefixOf body.bytes then
      origins (.etherType h.etherType) body
    else [⟨body.bytes, .unknown body.bytes⟩]

namespace Context

/-- **The layers of a payload with what they were decoded from**,
outermost first. -/
def origins (ctx : Context) : (left : Nat) → Selector → Window → List Origin
  | 0, key, w => (ctx.payload 0 key w).toList.map (Origin.mk w.bytes)
  | left + 1, key, w =>
    if w.bytes.isEmpty then []
    else
      (ctx.payload (left + 1) key w).toList.map (Origin.mk w.bytes)
        ++ match ctx.decoders.select key with
          | .format f =>
            match ctx.peel f w with
            | .ok l => l.origins (ctx.payload left) (ctx.origins left)
            | .error _ => []
          | _ => []

/-- **The layers below the outermost one**, with what they were decoded
from, of a window decoded as a packet of the given format. -/
def originsBelow (ctx : Context) (f : Format) (w : Window) : List Origin :=
  match ctx.peel f w with
  | .ok l => l.origins ctx.payloads (ctx.origins ctx.settings.maxDepth)
  | .error _ => []

end Context

/-! ## Origins are layers -/

theorem Peeled.assemble_carrier (payload : Selector → Window → Option Packet) (c : Carrier)
    (inner : Inner) :
    (carrier c inner).assemble payload = Packet.ofCarrier c (inner.payload payload) := by
  cases inner <;> rfl

/-- A frame is a carrier over the payload that it uses. -/
theorem EthernetHeader.frame_eq_ofCarrier (h : EthernetHeader) (fcs : Option UInt32) (body : Bytes)
    (p : Option Packet) :
    h.frame fcs body p
      = if p.all fun p => p.toBytes.isPrefixOf body then
          .ofCarrier (.ethernet h (body.drop (payloadBytes p).length) fcs) p
        else .carry (.ethernet h [] fcs) (.unknown body) := by
  cases p <;> rfl

/-- What is decoded is of the kind of the layer that was read. -/
theorem Peeled.kind_assemble (payload : Selector → Window → Option Packet) (l : Peeled) :
    (l.assemble payload).kind = l.kind := by
  cases l with
  | leaf l => rfl
  | carrier c inner =>
    rw [assemble_carrier]
    cases inner.payload payload <;> rfl
  | frame h body fcs =>
    rw [assemble, EthernetHeader.frame_eq_ofCarrier]
    split
    · cases payload (.etherType h.etherType) body <;> rfl
    · rfl

theorem Packet.layers_ofCarrier (c : Carrier) (p : Option Packet) :
    (ofCarrier c p).layers = ofCarrier c p :: (p.map layers).getD [] := by
  cases p <;> rfl

theorem Packet.layers_eq_cons (p : Packet) : p.layers = p :: p.layers.tail := by
  cases p <;> rfl

theorem Packet.carrier?_ofCarrier (c : Carrier) (p : Option Packet) :
    (ofCarrier c p).carrier? = some (c, p) := by
  cases p <;> rfl

theorem Packet.toBytes_ofCarrier (c : Carrier) (p : Option Packet) :
    (ofCarrier c p).toBytes = c.header ++ c.unparsed ++ (payloadBytes p ++ c.trailer) := by
  cases p <;> rfl

theorem Packet.toBytes_ofCarrier_of_unparsed {c : Carrier} (unparsed : c.unparsed = [])
    (p : Option Packet) :
    (ofCarrier c p).toBytes = c.header ++ (payloadBytes p ++ c.trailer) := by
  rw [toBytes_ofCarrier, unparsed, List.append_nil]

theorem Packet.toBytes_ofCarrier_of_trailer {c : Carrier} (unparsed : c.unparsed = [])
    (trailer : c.trailer = []) (p : Option Packet) :
    (ofCarrier c p).toBytes = c.header ++ payloadBytes p := by
  rw [toBytes_ofCarrier_of_unparsed unparsed, trailer, List.append_nil]

/-- The origins below a layer are the layers below it, when that is so for
its payload. -/
theorem Peeled.map_layer_origins {payload : Selector → Window → Option Packet}
    {origins : Selector → Window → List Origin}
    (h : ∀ key w, (origins key w).map Origin.layer = ((payload key w).map Packet.layers).getD [])
    (l : Peeled) :
    (l.origins payload origins).map Origin.layer = (l.assemble payload).layers.tail := by
  cases l with
  | leaf l => rfl
  | carrier c inner =>
    rw [assemble_carrier, Packet.layers_ofCarrier, List.tail_cons, Peeled.origins]
    cases inner with
    | nothing => rfl
    | kept data => rfl
    | dispatch key w => exact h key w
  | frame header body fcs =>
    rw [assemble, EthernetHeader.frame_eq_ofCarrier, Peeled.origins]
    split
    · rw [Packet.layers_ofCarrier, List.tail_cons, h]
    · rfl

variable {ctx : Context}

/-- A payload whose first layer can be read. -/
theorem Context.payload_of_peel (ctx : Context) {key : Selector} {w : Window} {f : Format}
    {l : Peeled} (hw : w.bytes ≠ []) (hd : ctx.decoders.select key = .format f)
    (hl : ctx.peel f w = .ok l) (left : Nat) :
    ctx.payload (left + 1) key w = some (l.assemble (ctx.payload left)) := by
  rw [payload, if_neg (by simpa using hw), hd]
  simp only [PacketDecoder.run, hl, Except.map]

theorem Context.origins_of_peel (ctx : Context) {key : Selector} {w : Window} {f : Format}
    {l : Peeled} (hw : w.bytes ≠ []) (hd : ctx.decoders.select key = .format f)
    (hl : ctx.peel f w = .ok l) (left : Nat) :
    ctx.origins (left + 1) key w
      = ⟨w.bytes, l.assemble (ctx.payload left)⟩
        :: l.origins (ctx.payload left) (ctx.origins left) := by
  rw [origins, if_neg (by simpa using hw), payload_of_peel ctx hw hd hl, hd]
  simp only [hl]
  rfl

/-- **Induction on how a payload is decoded**, for its origins as well: a
window holds no payload, or it is kept, or rejected, or a layer is read
off it and the rest is decoded with one layer less. -/
theorem Context.payload_induction (native : ∀ key, (ctx.decoders.select key).Native)
    {P : Nat → Selector → Window → Option Packet → List Origin → Prop}
    (empty : ∀ left key w, w.bytes = [] → P left key w none [])
    (kept : ∀ left key w,
      P left key w (some (.unknown w.bytes)) [⟨w.bytes, .unknown w.bytes⟩])
    (rejected : ∀ left key w e,
      P left key w (some (.malformed w.bytes e)) [⟨w.bytes, .malformed w.bytes e⟩])
    (layer : ∀ left key w f l, ctx.decoders.select key = .format f → ctx.peel f w = .ok l →
      (∀ key w, P left key w (ctx.payload left key w) (ctx.origins left key w)) →
      P (left + 1) key w (some (l.assemble (ctx.payload left)))
        (⟨w.bytes, l.assemble (ctx.payload left)⟩
          :: l.origins (ctx.payload left) (ctx.origins left)))
    (left : Nat) (key : Selector) (w : Window) :
    P left key w (ctx.payload left key w) (ctx.origins left key w) := by
  induction left generalizing key w with
  | zero =>
    unfold origins payload
    split
    · next hw => exact empty 0 key w (List.isEmpty_iff.mp hw)
    · exact kept 0 key w
  | succ left ih =>
    by_cases hw : w.bytes = []
    · have hempty := empty (left + 1) key w hw
      simpa [origins, payload, hw] using hempty
    · have hne : ¬ w.bytes.isEmpty = true := by simpa using hw
      cases hd : ctx.decoders.select key with
      | format f =>
        cases hl : ctx.peel f w with
        | ok l =>
          rw [payload_of_peel ctx hw hd hl, origins_of_peel ctx hw hd hl]
          exact layer left key w f l hd hl ih
        | error e =>
          simp only [origins, payload, if_neg hne, hd, PacketDecoder.run, hl, Except.map]
          exact rejected (left + 1) key w e
      | unknown =>
        simp only [origins, payload, if_neg hne, hd, PacketDecoder.run]
        exact kept (left + 1) key w
      | custom name decode =>
        have hnative := native key
        rw [hd] at hnative
        exact hnative.elim

/-- **Each origin is a layer of the payload**, and the other way round. -/
theorem Context.map_layer_origins (ctx : Context)
    (native : ∀ key, (ctx.decoders.select key).Native) (left : Nat) (key : Selector) (w : Window) :
    (ctx.origins left key w).map Origin.layer
      = ((ctx.payload left key w).map Packet.layers).getD [] := by
  refine payload_induction
    (P := fun _ _ _ p os => os.map Origin.layer = (p.map Packet.layers).getD []) native
    (fun _ _ _ _ => rfl) (fun _ _ _ => rfl) (fun _ _ _ _ => rfl) ?_ left key w
  intro left key w f l _ _ ih
  rw [List.map_cons, Peeled.map_layer_origins ih]
  exact (Packet.layers_eq_cons _).symm

/-- The same for the layers below the outermost one. -/
theorem Context.map_layer_originsBelow (native : ∀ key, (ctx.decoders.select key).Native)
    {f : Format} {w : Window} {p : Packet} (h : ctx.decodeWindow f w = .ok p) :
    (ctx.originsBelow f w).map Origin.layer = p.layers.tail := by
  rw [decodeWindow, map_eq_ok] at h
  obtain ⟨l, hl, rfl⟩ := h
  rw [originsBelow, hl]
  exact Peeled.map_layer_origins (map_layer_origins ctx native _) l

/-! ## What is kept -/

/-- **A payload accounts for its octets** as far as its origins do: it is
no longer than they are, and it is written as they are exactly when every
origin fills its window. -/
structure Accounts (bs : Bytes) (p : Option Packet) (origins : List Origin) : Prop where
  /-- Nothing is added. -/
  length_le : (payloadBytes p).length ≤ bs.length
  /-- Nothing is left out exactly when every origin fills its window. -/
  toBytes_eq_iff : payloadBytes p = bs ↔ ∀ o ∈ origins, o.Fills

theorem Accounts.of_eq {bs : Bytes} {p : Option Packet} {origins : List Origin}
    (h : payloadBytes p = bs) (fills : ∀ o ∈ origins, o.Fills) : Accounts bs p origins where
  length_le := by rw [h]
  toBytes_eq_iff := iff_of_true h fills

/-- A layer that carries no packet leaves nothing behind. -/
theorem Accounts.leaf {bs : Bytes} {l : Leaf} (h : l.toBytes = bs) :
    Accounts bs (some (.leaf l)) [⟨bs, .leaf l⟩] := by
  refine .of_eq h fun o ho => ?_
  rw [List.mem_singleton.mp ho]
  exact fun h hh => absurd hh (Option.not_mem_none h)

/-- A layer that is not an IPv6 packet uses up its window. -/
theorem Origin.fills_of_kind {o : Origin} (h : o.layer.kind ≠ .format .ipv6) : o.Fills := by
  have hnone : o.layer.ipv6Header? = none := by
    unfold Packet.ipv6Header?
    split
    · next hl => exact absurd (congrArg Packet.kind hl) h
    · next hl => exact absurd (congrArg Packet.kind hl) h
    · rfl
  intro header hmem
  rw [hnone] at hmem
  cases hmem

section Accounts

variable {payload : Selector → Window → Option Packet}
  {origins : Selector → Window → List Origin}

/-- What a layer carries is accounted for when payloads are. -/
theorem Inner.accounts {inner : Inner} (key : ∀ k w, inner = .dispatch k w → k.Internet)
    (h : ∀ k w, k.Internet → Accounts w.bytes (payload k w) (origins k w)) :
    Accounts inner.bytes (inner.payload payload) (inner.origins origins) := by
  cases inner with
  | nothing => exact .of_eq rfl (List.forall_mem_nil _)
  | kept data => exact .leaf rfl
  | dispatch k w => exact h k w (key k w rfl)

/-- **A layer that accounts for its window** adds nothing to what its
payload leaves out. -/
theorem Accounts.carrier {bs : Bytes} {c : Carrier} {inner : Inner}
    (hwire : (Peeled.carrier c inner).wire = bs) (hc : c.format ≠ .ipv6)
    (h : Accounts inner.bytes (inner.payload payload) (inner.origins origins)) :
    Accounts bs (some ((Peeled.carrier c inner).assemble payload))
      (⟨bs, (Peeled.carrier c inner).assemble payload⟩ :: inner.origins origins) := by
  have hbytes : payloadBytes (some ((Peeled.carrier c inner).assemble payload))
      = c.header ++ c.unparsed ++ (payloadBytes (inner.payload payload) ++ c.trailer) := by
    rw [Peeled.assemble_carrier]
    exact Packet.toBytes_ofCarrier c _
  have hfills : Origin.Fills ⟨bs, (Peeled.carrier c inner).assemble payload⟩ := by
    refine Origin.fills_of_kind fun hk => hc ?_
    rw [Peeled.kind_assemble] at hk
    exact Kind.format.inj hk
  constructor
  · have hlen := h.length_le
    rw [hbytes, ← hwire, Peeled.wire]
    simp only [List.length_append]
    omega
  · have heq : payloadBytes (some ((Peeled.carrier c inner).assemble payload)) = bs
        ↔ payloadBytes (inner.payload payload) = inner.bytes := by
      rw [hbytes, ← hwire, Peeled.wire, List.append_cancel_left_eq,
        List.append_cancel_right_eq]
    rw [heq, h.toBytes_eq_iff, List.forall_mem_cons, and_iff_right hfills]

/-- **An IPv6 packet** leaves out what its payload does, and what its
payload length leaves behind. -/
theorem Accounts.ipv6 {bs rest : Bytes} {h : Ipv6Header} {p : Option Packet}
    {below : List Origin} (hbs : bs = h.toBytes ++ rest)
    (hp : Accounts (rest.take (h.payloadExtent rest.length)) p below) :
    Accounts bs (some (.ofCarrier (.ipv6 h) p)) (⟨bs, .ofCarrier (.ipv6 h) p⟩ :: below) := by
  have hbytes : payloadBytes (some (.ofCarrier (.ipv6 h) p)) = h.toBytes ++ payloadBytes p := by
    show (Packet.ofCarrier (.ipv6 h) p).toBytes = _
    rw [Packet.toBytes_ofCarrier]
    simp [Carrier.header, Carrier.unparsed, Carrier.trailer]
  have hlen := hp.length_le
  rw [List.length_take] at hlen
  have hrest : bs.length - Ipv6Header.size = rest.length := by
    rw [hbs, List.length_append, h.length_toBytes, Nat.add_sub_cancel_left]
  have hfills : Origin.Fills ⟨bs, .ofCarrier (.ipv6 h) p⟩
      ↔ h.payloadLen = 0 ∨ rest.length ≤ h.payloadLen.toNat := by
    have hheader : (Packet.ofCarrier (.ipv6 h) p).ipv6Header? = some h := by cases p <;> rfl
    unfold Origin.Fills
    rw [hheader, hrest]
    simp
  have hextent : h.payloadLen = 0 ∨ rest.length ≤ h.payloadLen.toNat
      ↔ rest.length ≤ h.payloadExtent rest.length := by
    unfold Ipv6Header.payloadExtent
    split
    · next h₀ => simp [h₀]
    · next h₀ => simp [h₀]
  constructor
  · rw [hbytes, hbs, List.length_append, List.length_append]
    omega
  · rw [hbytes, hbs, List.append_cancel_left_eq, List.forall_mem_cons, ← hbs, hfills, hextent,
      ← hp.toBytes_eq_iff]
    constructor
    · -- A payload as long as all that follows the header leaves nothing to be left behind.
      intro heq
      have hle : rest.length ≤ h.payloadExtent rest.length := by
        rw [heq] at hlen
        omega
      exact ⟨hle, by rw [heq, List.take_of_length_le hle]⟩
    · rintro ⟨hle, heq⟩
      rw [heq, List.take_of_length_le hle]

end Accounts

/-- **What one layer adds.** A layer from IP upwards accounts for its
window with its origins when payloads do. -/
theorem Context.assemble_accounts (ctx : Context) (exact : ctx.decoders.Exact)
    {payload : Selector → Window → Option Packet} {origins : Selector → Window → List Origin}
    (h : ∀ k w, k.Internet → Accounts w.bytes (payload k w) (origins k w)) {f : Format}
    {w : Window} {l : Peeled} (hf : f ≠ .ethernet ∧ f ≠ .arp) (hl : ctx.peel f w = .ok l) :
    Accounts w.bytes (some (l.assemble payload))
      (⟨w.bytes, l.assemble payload⟩ :: l.origins payload origins) := by
  by_cases hip : f = .ipv6
  · subst hip
    simp only [peel, bind_eq_ok, return_eq_ok, Window.read_eq_ok, Prod.exists] at hl
    obtain ⟨header, rest, hread, rfl⟩ := hl
    have hp := h (.ipProtocol header.nextHeader)
      ⟨w.offset + Ipv6Header.size, rest.take (header.payloadExtent rest.length)⟩ trivial
    exact .ipv6 (Ipv6Header.read?_exact hread) hp
  · have hwire := peel_wire exact hf.2 hip hl
    have hkind := kind_of_peel hl
    cases l with
    | leaf l => exact .leaf hwire
    | carrier c inner =>
      have hc : c.format ≠ .ipv6 := fun hc => hip (Kind.format.inj hkind ▸ hc)
      exact .carrier hwire hc (Inner.accounts (fun k v hk => internet_of_peel (hk ▸ hl)) h)
    | frame header body fcs => exact absurd (Kind.format.inj hkind).symm hf.1

/-- **A payload leaves out what its IPv6 packets leave behind**, and
nothing else. -/
theorem Context.payload_accounts (ctx : Context) (lossless : ctx.decoders.Lossless) (left : Nat)
    (key : Selector) (w : Window) (hkey : key.Internet) :
    Accounts w.bytes (ctx.payload left key w) (ctx.origins left key w) := by
  refine payload_induction (P := fun _ key w p os => key.Internet → Accounts w.bytes p os)
    lossless.native (fun _ _ w hw _ => .of_eq hw.symm (List.forall_mem_nil _))
    (fun _ _ _ _ => .leaf rfl) (fun _ _ _ _ _ => .leaf rfl) ?_ left key w hkey
  intro left key w f l hd hl ih hkey
  have hf := lossless.internet key hkey
  rw [hd] at hf
  exact assemble_accounts ctx lossless.toExact (fun k v hk => ih k v hk) hf hl

end PacketCodec
