import PacketCodec.Proofs.Acceptance
import PacketCodec.Proofs.Completion

/-!
# Which layer a failed build names

A draft that cannot be built fails because of one of its layers, and its
error says which one: the layers around it report the error as that of
their payload, each in turn (`BuildError.within`), and what is at the
bottom is about this layer alone.

Up front it is the outermost failing layer that is named, since a layer is
checked before its payload is looked at. Late it is the innermost one,
since a layer is checked late only when its payload has been built. Any
up-front failure goes before any late one: a layer with a late failure has
a payload that passed all its checks. Together with the case in which no
check finds anything this is `Draft.build_attributed`.

All that is wrong with the layer is listed, and in the order of its fields
(`Violation.InOrder`). This is the order in which a draft goes through
them, `Kind.fields`. Mostly it is that of the wire; the length of an options
header and of a routing header, which depends on what is behind it, comes
last, and the length of a message comes after its tunnel.
-/

namespace PacketCodec

open Violation (ifMissing ifOver ifBad)

/-! ## The order of violations -/

namespace Violation

/-- The field that a violation is about. -/
def field : Violation → String
  | missing field => field
  | outOfRange field _ _ => field
  | invalid field _ => field
  | payload _ _ => "payload"

/-- **Violations in the order of their fields**: those of the first field,
if any, then those of the fields behind it, and none of any other
field. -/
inductive InOrder : List String → List Violation → Prop
  /-- Nothing is wrong. -/
  | nil {fields : List String} : InOrder fields []
  /-- No more is wrong with the first field. -/
  | skip {field : String} {fields : List String} {vs : List Violation} (rest : InOrder fields vs) :
    InOrder (field :: fields) vs
  /-- Something is wrong with the first field. -/
  | take {field : String} {fields : List String} {v : Violation} {vs : List Violation}
    (h : v.field = field) (rest : InOrder (field :: fields) vs) :
    InOrder (field :: fields) (v :: vs)

/-- All that is wrong is wrong with that field. -/
def AllOf (field : String) (vs : List Violation) : Prop := ∀ v ∈ vs, v.field = field

namespace AllOf

variable {field : String}

theorem ifMissing {α : Type} {a : Option α} : AllOf field (ifMissing field a) := by
  cases a <;> simp [AllOf, Violation.ifMissing, Violation.field]

theorem ifOver {value max : Nat} : AllOf field (ifOver field value max) := by
  rw [Violation.ifOver]
  split <;> simp [AllOf, Violation.field]

theorem ifBad {bad : Bool} {reason : String} : AllOf field (ifBad bad field reason) := by
  cases bad <;> simp [AllOf, Violation.ifBad, Violation.field]

theorem append {vs ws : List Violation} (hvs : AllOf field vs) (hws : AllOf field ws) :
    AllOf field (vs ++ ws) :=
  fun v hv => (List.mem_append.mp hv).elim (hvs v) (hws v)

theorem flatMap {α : Type} {as : List α} {f : α → List Violation} (h : ∀ a, AllOf field (f a)) :
    AllOf field (as.flatMap f) := by
  intro v hv
  obtain ⟨a, -, hv⟩ := List.mem_flatMap.mp hv
  exact h a v hv

end AllOf

namespace InOrder

variable {field : String} {fields : List String} {own rest vs ws : List Violation}

theorem more (hown : AllOf field own) (h : InOrder (field :: fields) rest) :
    InOrder (field :: fields) (own ++ rest) := by
  induction own with
  | nil => exact h
  | cons v own ih =>
    exact .take (hown v List.mem_cons_self) (ih fun w hw => hown w (List.mem_cons_of_mem v hw))

theorem cons (hown : AllOf field own) (h : InOrder fields rest) :
    InOrder (field :: fields) (own ++ rest) :=
  more hown h.skip

theorem only (hown : AllOf field own) : InOrder (field :: fields) own :=
  own.append_nil ▸ more hown .nil

theorem ite {c : Prop} [Decidable c] (hvs : InOrder fields vs) (hws : InOrder fields ws) :
    InOrder fields (if c then vs else ws) := by
  split <;> assumption

end InOrder

end Violation

/-- **The fields of a kind of layer**, in the order in which a draft goes
through them. -/
def Kind.fields : Kind → List String
  | format .ethernet => ["dst_addr", "src_addr", "ether_type"]
  | format .arp =>
    ["hardware_type", "protocol_type", "hardware_addr_len", "protocol_addr_len", "operation",
      "sender_ether_addr", "sender_ipv4_addr", "target_ether_addr", "target_ipv4_addr"]
  | format .ipv6 =>
    ["version", "traffic_class", "flow_label", "payload_len", "next_header", "hop_limit",
      "src_addr", "dst_addr"]
  | format .hopByHop => ["next_header", "option data length", "hdr_ext_len"]
  | format .destination => ["next_header", "option data length", "hdr_ext_len"]
  | format .routing => ["next_header", "segments_left", "data", "hdr_ext_len"]
  | format .fragment => ["next_header", "frag_offset", "res", "more_frags", "identification"]
  | format .icmpv6 => ["icmp_type", "code", "checksum", "src_addr", "dst_addr"]
  | format .echo => ["identifier", "sequence_number"]
  | format .solicitation => ["target_addr", "option length"]
  | format .advertisement => ["target_addr", "reserved", "option length"]
  | format .udp => ["src_port", "dst_port", "length", "checksum", "src_addr", "dst_addr"]
  | format .sctp => ["src_port", "dst_port", "verification_tag", "checksum", "chunk length"]
  | format .gtp =>
    ["version", "message_type", "teid", "length", "ext_flag", "extension length"]
  | unknown => ["data"]
  | malformed => []

section

open Violation

theorem LeafDraft.inOrder_violations (l : LeafDraft) : InOrder l.kind.fields l.violations := by
  cases l with
  | arp d =>
    rw [violations, ArpDraft.violations]
    cases d.correctLength <;>
      simp only [List.append_assoc, Bool.false_eq_true, if_true, if_false, List.nil_append]
    · exact .cons .ifMissing <| .cons .ifMissing <| .cons .ifMissing <| .cons .ifMissing <|
        .cons .ifMissing <| .cons .ifMissing <| .cons .ifMissing <| .cons .ifMissing <|
        .only .ifMissing
    · exact .cons .ifMissing <| .cons .ifMissing <| .skip <| .skip <| .cons .ifMissing <|
        .cons .ifMissing <| .cons .ifMissing <| .cons .ifMissing <| .only .ifMissing
  | solicitation d => exact .cons .ifMissing <| .only <| .flatMap fun _ => .append .ifBad .ifOver
  | advertisement d =>
    rw [violations, AdvertisementDraft.violations, List.append_assoc]
    exact .cons .ifMissing <| .cons .ifOver <| .only <| .flatMap fun _ => .append .ifBad .ifOver
  | sctp d =>
    rw [violations, SctpDraft.violations]
    cases d.correctChecksum <;>
      simp only [List.append_assoc, Bool.false_eq_true, if_true, if_false, List.nil_append]
    · exact .cons .ifMissing <| .cons .ifMissing <| .cons .ifMissing <| .cons .ifMissing <|
        .only <| .flatMap fun _ => .ifOver
    · exact .cons .ifMissing <| .cons .ifMissing <| .cons .ifMissing <| .skip <|
        .only <| .flatMap fun _ => .ifOver
  | unknown data => exact .only .ifMissing

theorem CarrierDraft.inOrder_violations (c : CarrierDraft) :
    InOrder (Kind.format c.format).fields c.violations := by
  cases c with
  | ethernet d =>
    rw [violations, EthernetDraft.violations, List.append_assoc]
    exact .cons .ifMissing <| .cons .ifMissing <| .only .ifMissing
  | ipv6 d =>
    rw [violations, Ipv6Draft.violations]
    cases d.correctLength <;>
      simp only [List.append_assoc, Bool.false_eq_true, if_true, if_false, List.nil_append]
    · exact .cons .ifOver <| .cons .ifMissing <| .more .ifMissing <| .cons .ifOver <|
        .cons .ifMissing <| .cons .ifMissing <| .cons .ifMissing <| .cons .ifMissing <|
        .only .ifMissing
    · exact .cons .ifOver <| .cons .ifMissing <| .more .ifMissing <| .cons .ifOver <| .skip <|
        .cons .ifMissing <| .cons .ifMissing <| .cons .ifMissing <| .only .ifMissing
  | options kind d =>
    have h : InOrder ["next_header", "option data length", "hdr_ext_len"] d.violations := by
      rw [OptionsDraft.violations, List.append_assoc]
      exact .cons .ifMissing <| .cons (.flatMap fun _ => .ifOver) <|
        .ite (.only .ifOver) (.only .ifMissing)
    cases kind <;> exact h
  | routing d =>
    rw [violations, RoutingDraft.violations, List.append_assoc, List.append_assoc]
    refine .cons .ifMissing <| .cons .ifMissing <| .more .ifMissing <| .ite ?_ ?_
    · exact .cons .ifBad <| .only .ifOver
    · exact .skip <| .only .ifMissing
  | fragment d =>
    simp only [violations, FragmentDraft.violations, List.append_assoc]
    exact .cons .ifMissing <| .more .ifMissing <| .cons .ifOver <| .cons .ifOver <|
      .cons .ifMissing <| .only .ifMissing
  | icmpv6 d =>
    rw [violations, Icmpv6Draft.violations, List.append_assoc]
    refine .cons .ifMissing <| .cons .ifMissing <| .ite ?_ ?_
    · exact .skip <| .cons .ifMissing <| .only .ifMissing
    · exact .only .ifMissing
  | echo d => exact .cons .ifMissing <| .only .ifMissing
  | udp d =>
    rw [violations, UdpDraft.violations]
    cases d.correctLength <;> cases d.correctChecksum <;>
      simp only [List.append_assoc, Bool.false_eq_true, if_true, if_false, List.nil_append]
    · exact .cons .ifMissing <| .cons .ifMissing <| .cons .ifMissing <| .only .ifMissing
    · exact .cons .ifMissing <| .cons .ifMissing <| .cons .ifMissing <| .skip <|
        .cons .ifMissing <| .more .ifMissing <| .only .ifBad
    · exact .cons .ifMissing <| .cons .ifMissing <| .skip <| .only .ifMissing
    · exact .cons .ifMissing <| .cons .ifMissing <| .skip <| .skip <|
        .cons .ifMissing <| .more .ifMissing <| .only .ifBad
  | gtp d =>
    rw [violations, GtpDraft.violations]
    cases d.correctLength <;>
      simp only [List.append_assoc, Bool.false_eq_true, if_true, if_false, List.nil_append]
    · exact .cons .ifOver <| .cons .ifMissing <| .cons .ifMissing <| .cons .ifMissing <|
        .cons .ifBad <| .only <| .flatMap fun _ => .append .ifBad .ifOver
    · exact .cons .ifOver <| .cons .ifMissing <| .cons .ifMissing <| .skip <|
        .cons .ifBad <| .only <| .flatMap fun _ => .append .ifBad .ifOver

/-- **All that is wrong with a layer is listed in the order of its
fields.** -/
theorem Draft.inOrder_violations (d : Draft) : InOrder d.kind.fields d.violations := by
  cases d with
  | leaf l => exact l.inOrder_violations
  | bare c => exact c.inOrder_violations
  | carry c p => exact c.inOrder_violations

end

/-! ## Errors inside errors -/

namespace BuildError

/-- The error of a layer of that protocol whose payload has the error. -/
def inside (e : BuildError) (protocol : String) : BuildError :=
  ⟨protocol, [.payload e.protocol e.violations]⟩

/-- **The error as the layers around report it**, the outermost first. -/
def within (outer : List String) (e : BuildError) : BuildError :=
  outer.foldr (fun protocol e => e.inside protocol) e

theorem check_of_ne_nil {protocol : String} {violations : List Violation} (h : violations ≠ []) :
    check protocol violations = .error ⟨protocol, violations⟩ := by
  cases violations with
  | nil => exact absurd rfl h
  | cons v vs => rfl

end BuildError

/-! ## Drafts -/

namespace Draft

/-- A layer is checked before its payload is looked at. -/
theorem build_of_violations {d : Draft} (h : d.violations ≠ []) :
    d.build = .error ⟨d.name, d.violations⟩ := by
  cases d with
  | leaf l =>
    rw [build, BuildError.check_of_ne_nil (show l.violations ≠ [] from h)]
    rfl
  | bare c =>
    rw [build, BuildError.check_of_ne_nil (show c.violations ≠ [] from h)]
    rfl
  | carry c p =>
    rw [build, BuildError.check_of_ne_nil (show c.violations ≠ [] from h)]
    rfl

/-- A layer is checked late when its payload has been built. -/
theorem build_of_lateViolations {d : Draft} (checked : d.violations = [])
    (built : ∀ l ∈ d.layers.tail, l.violations = [] ∧ l.lateViolations = [])
    (h : d.lateViolations ≠ []) : d.build = .error ⟨d.name, d.lateViolations⟩ := by
  cases d with
  | leaf l => exact absurd rfl h
  | bare c =>
    have hc : c.violations = [] := checked
    have hlate : c.lateViolations 0 ≠ [] := h
    rw [build, hc, CarrierDraft.complete_eq, Option.map_none, Option.getD_none,
      BuildError.check_of_ne_nil hlate]
    rfl
  | carry c p =>
    have hc : c.violations = [] := checked
    have hlate : c.lateViolations p.packet.length ≠ [] := h
    have hp : p.build = .ok p.packet := build_eq_ok.mpr ⟨built, rfl⟩
    rw [build, hc, hp]
    simp only [CarrierDraft.complete_eq, Option.map_some, Option.getD_some,
      BuildError.check_of_ne_nil hlate]
    rfl

/-- A layer reports the error of its payload. -/
theorem build_carry_of_error {c : CarrierDraft} {p : Draft} {e : BuildError}
    (checked : c.violations = []) (h : p.build = .error e) :
    (carry c p).build = .error (e.inside c.format.protocol) := by
  rw [build, checked, h]
  rfl

/-- The layers of a layer are it and those inside it. -/
theorem layers_of_layers_eq {d l : Draft} {outer inner : List Draft}
    (hd : d.layers = outer ++ l :: inner) : l.layers = l :: inner := by
  induction outer generalizing d with
  | nil =>
    have hl : d = l := by
      cases d <;> exact (List.cons.inj hd).1
    exact hl ▸ hd
  | cons l' outer ih =>
    cases d with
    | leaf leaf => simp [layers] at hd
    | bare c => simp [layers] at hd
    | carry c p => exact ih (List.cons.inj hd).2

/-- **The error of a layer is reported by all layers around it**, when
nothing is wrong with these up front. -/
theorem build_of_error {d failing : Draft} {outer inner : List Draft} {e : BuildError}
    (hd : d.layers = outer ++ failing :: inner) (checked : ∀ l ∈ outer, l.violations = [])
    (h : failing.build = .error e) : d.build = .error (e.within (outer.map name)) := by
  -- Induction on the layers around; each of them carries the next.
  induction outer generalizing d with
  | nil =>
    have hfailing : d = failing := by
      cases d <;> exact (List.cons.inj hd).1
    rw [hfailing, h]
    rfl
  | cons l outer ih =>
    cases d with
    | leaf l' => simp [layers] at hd
    | bare c => simp [layers] at hd
    | carry c p =>
      obtain ⟨rfl, hp⟩ := List.cons.inj hd
      have hpayload := ih hp fun l hl => checked l (List.mem_cons_of_mem _ hl)
      exact build_carry_of_error (checked _ List.mem_cons_self) hpayload

/-- **A failed build names one layer.** Up front it is the outermost layer
that fails. When no layer fails up front it is the innermost one that fails
late, the layers inside it having been built; and the draft is built if and
only if there is none. The layers around the named one report its error as
that of their payload, each in turn, and the error itself lists everything
that is wrong with this layer, up front in the order of its fields, and
nothing else. -/
theorem build_attributed (d : Draft) :
    (∀ outer failing inner, d.layers = outer ++ failing :: inner →
        (∀ l ∈ outer, l.violations = []) → failing.violations ≠ [] →
          d.build = .error (.within (outer.map name) ⟨failing.name, failing.violations⟩)
            ∧ Violation.InOrder failing.kind.fields failing.violations)
      ∧ ((∀ l ∈ d.layers, l.violations = []) →
        (∀ outer failing inner, d.layers = outer ++ failing :: inner →
            failing.lateViolations ≠ [] → (∀ l ∈ inner, l.lateViolations = []) →
              d.build = .error (.within (outer.map name) ⟨failing.name, failing.lateViolations⟩)
                ∧ ∀ l ∈ inner, l.build = .ok l.packet)
          ∧ ∀ p, d.build = .ok p ↔ (∀ l ∈ d.layers, l.lateViolations = []) ∧ d.packet = p) := by
  refine ⟨fun outer failing inner hd houter hfailing => ⟨?_, failing.inOrder_violations⟩,
    fun checked => ⟨fun outer failing inner hd hfailing hinner => ?_, fun p => ?_⟩⟩
  · exact build_of_error hd houter (build_of_violations hfailing)
  · rw [hd, List.forall_mem_append, List.forall_mem_cons] at checked
    obtain ⟨houter, hchecked, hinside⟩ := checked
    have built : ∀ l ∈ inner, l.violations = [] ∧ l.lateViolations = [] := fun l hl =>
      ⟨hinside l hl, hinner l hl⟩
    have hlayers := layers_of_layers_eq hd
    have hbelow : ∀ l ∈ failing.layers.tail, l.violations = [] ∧ l.lateViolations = [] :=
      hlayers.symm ▸ built
    refine ⟨build_of_error hd houter (build_of_lateViolations hchecked hbelow hfailing),
      fun l hl => build_eq_ok.mpr ⟨?_, rfl⟩⟩
    obtain ⟨between, inside, rfl⟩ := List.append_of_mem hl
    have hl : l.layers = l :: inside :=
      layers_of_layers_eq (show failing.layers = (failing :: between) ++ l :: inside from hlayers)
    rw [Sound, hl]
    exact fun l' hl' => built l' (List.mem_append_right _ hl')
  · rw [build_eq_ok, Sound]
    exact and_congr_left fun _ => forall₂_congr fun l hl => and_iff_right (checked l hl)

/-- **Several failing layers.** Of an IPv6 packet and a datagram in a frame
that both lack fields, the packet is named. Of a datagram with too many
octets in an IPv6 packet, both lengths to be corrected, the datagram is
named; with as many octets as both have room for they are built. -/
theorem build_attributed_nested :
    let address : Ipv6Addr := ⟨Bytes.zeros 16, rfl⟩
    let frame : EthernetDraft :=
      { dst := some ⟨Bytes.zeros 6, rfl⟩, src := some ⟨Bytes.zeros 6, rfl⟩,
        etherType := some EtherType.ipv6 }
    let lacking : Ipv6Draft :=
      { version := 16, flowLabel := some 0, hopLimit := some 64, src := some address,
        dst := some address }
    let ip : Ipv6Draft :=
      { trafficClass := some 0, flowLabel := some 0, nextHeader := some IpProtocol.udp,
        hopLimit := some 64, src := some address, dst := some address, correctLength := true }
    let udp : UdpDraft :=
      { srcPort := some 5000, dstPort := some 5001, checksum := some 0, correctLength := true }
    let nested : Nat → Draft := fun n =>
      .carry (.ipv6 ip) (.carry (.udp udp) (.unknown (Bytes.zeros n)))
    (Draft.carry (.ethernet frame) (.carry (.ipv6 lacking) (.bare (.udp {})))).build
        = .error ⟨"Ethernet", [.payload "IPv6" [.outOfRange "version" 16 15,
            .missing "traffic_class", .missing "payload_len", .missing "next_header"]]⟩
      ∧ (nested 65528).build = .error ⟨"IPv6", [.payload "UDP" [.outOfRange "length" 65536 65535]]⟩
      ∧ (nested 65527).build = .ok (nested 65527).packet := by
  intro address frame lacking ip udp nested
  have hnone : ∀ n, ∀ l ∈ (nested n).layers, l.violations = [] := by
    intro n l hl
    simp only [nested, layers, unknown, List.mem_cons, List.not_mem_nil, or_false] at hl
    rcases hl with rfl | rfl | rfl <;> rfl
  have hlength : ∀ n, (unknown (Bytes.zeros n)).packet.length = n := fun n =>
    (Nat.zero_add _).trans List.length_replicate
  have hdatagram : ∀ n, (carry (.udp udp) (unknown (Bytes.zeros n))).packet.length = 8 + n :=
    fun n => congrArg (8 + ·) (hlength n)
  have hudp : ∀ n, (carry (.udp udp) (unknown (Bytes.zeros n))).lateViolations
      = Violation.ifOver "length" (8 + n) 65535 := fun n =>
    congrArg (fun m => Violation.ifOver "length" (8 + m) 65535) (hlength n)
  have hip : ∀ n, (nested n).lateViolations = Violation.ifOver "payload_len" (8 + n) 65535 :=
    fun n => congrArg (fun m => Violation.ifOver "payload_len" m 65535) (hdatagram n)
  refine ⟨?_, ?_, ?_⟩
  · let below : Draft := .carry (.ipv6 lacking) (.bare (.udp {}))
    exact ((build_attributed (carry (.ethernet frame) below)).1 [carry (.ethernet frame) below]
      below _ rfl (List.forall_mem_singleton.mpr rfl) (List.cons_ne_nil _ _)).1
  · have hover : (carry (.udp udp) (unknown (Bytes.zeros 65528))).lateViolations
        = [.outOfRange "length" 65536 65535] := hudp 65528
    have h := (((build_attributed (nested 65528)).2 (hnone 65528)).1 [nested 65528] _ _ rfl
      (hover ▸ List.cons_ne_nil _ _) (List.forall_mem_singleton.mpr rfl)).1
    rw [h, hover]
    rfl
  · refine (((build_attributed (nested 65527)).2 (hnone 65527)).2 _).mpr ⟨fun l hl => ?_, rfl⟩
    simp only [nested, layers, unknown, List.mem_cons, List.not_mem_nil, or_false] at hl
    rcases hl with rfl | rfl | rfl
    · exact hip 65527
    · exact hudp 65527
    · rfl

end Draft

end PacketCodec
