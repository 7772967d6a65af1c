import PacketCodec.Proofs.Attribution

/-!
# What a failed build reports

The error of a failed build is about one of the layers of the draft. It
lists the required fields of this layer that are unset, each once and in
the order of the fields, and it objects to values: that they do not fit or
that they contradict each other. `Draft.build_reports` says that it does
nothing else, and when an objection is one to values that were set: then
it stands (`Draft.Stands`), however the fields that are unset are set.

Two objections need not stand. A draft goes on after an unset field with a
value that stands in for it, and where fields are compared with each other
this value takes part. A datagram whose checksum is to be computed takes
an unset address for one of IPv4, so that an address of IPv6 alone is said
to be of another family; and a routing header whose length is corrected
takes unset data for none, so that the length of the data is said to be
wrong. They are `Draft.presumed`, and there are no more.
-/

namespace PacketCodec

open Violation (ifMissing ifOver ifBad)

/-! ## Required fields -/

/-- A field, with whether it is set. -/
def slot {α : Type} (field : String) (a : Option α) : List (String × Bool) := [(field, a.isSome)]

/-- The fields of a list that are unset. -/
def unsetFields (fields : List (String × Bool)) : List String :=
  (fields.filter fun f => !f.2).map Prod.fst

/-- **The fields that the draft requires**, with whether they are set. -/
def LeafDraft.required : LeafDraft → List (String × Bool)
  | arp d =>
    slot "hardware_type" d.hardwareType ++ slot "protocol_type" d.protocolType
      ++ (if d.correctLength then [] else
            slot "hardware_addr_len" d.hardwareAddrLen
              ++ slot "protocol_addr_len" d.protocolAddrLen)
      ++ slot "operation" d.operation ++ slot "sender_ether_addr" d.senderMac
      ++ slot "sender_ipv4_addr" d.senderIp ++ slot "target_ether_addr" d.targetMac
      ++ slot "target_ipv4_addr" d.targetIp
  | solicitation d => slot "target_addr" d.target
  | advertisement d => slot "target_addr" d.target
  | sctp d =>
    slot "src_port" d.srcPort ++ slot "dst_port" d.dstPort
      ++ slot "verification_tag" d.verificationTag
      ++ (if d.correctChecksum then [] else slot "checksum" d.checksum)
  | unknown data => slot "data" data

/-- **The fields that the draft requires**, with whether they are set. -/
def CarrierDraft.required : CarrierDraft → List (String × Bool)
  | ethernet d => slot "dst_addr" d.dst ++ slot "src_addr" d.src ++ slot "ether_type" d.etherType
  | ipv6 d =>
    slot "traffic_class" d.trafficClass ++ slot "flow_label" d.flowLabel
      ++ (if d.correctLength then [] else slot "payload_len" d.payloadLen)
      ++ slot "next_header" d.nextHeader ++ slot "hop_limit" d.hopLimit
      ++ slot "src_addr" d.src ++ slot "dst_addr" d.dst
  | options _ d =>
    slot "next_header" d.nextHeader
      ++ (if d.correctLength then [] else slot "hdr_ext_len" d.hdrExtLen)
  | routing d =>
    slot "next_header" d.nextHeader ++ slot "segments_left" d.segmentsLeft ++ slot "data" d.data
      ++ (if d.correctLength then [] else slot "hdr_ext_len" d.hdrExtLen)
  | fragment d =>
    slot "next_header" d.nextHeader ++ slot "frag_offset" d.fragOffset
      ++ slot "more_frags" d.moreFrags ++ slot "identification" d.identification
  | icmpv6 d =>
    slot "icmp_type" d.icmpType ++ slot "code" d.code
      ++ (if d.correctChecksum then slot "src_addr" d.src ++ slot "dst_addr" d.dst
          else slot "checksum" d.checksum)
  | echo d => slot "identifier" d.identifier ++ slot "sequence_number" d.sequenceNumber
  | udp d =>
    slot "src_port" d.srcPort ++ slot "dst_port" d.dstPort
      ++ (if d.correctLength then [] else slot "length" d.lengthField)
      ++ (if d.correctChecksum then slot "src_addr" d.src ++ slot "dst_addr" d.dst
          else slot "checksum" d.checksum)
  | gtp d =>
    slot "message_type" d.messageType ++ slot "teid" d.teid
      ++ (if d.correctLength then [] else slot "length" d.lengthField)

theorem unsetFields_sublist {fields : List (String × Bool)} :
    (unsetFields fields).Sublist (fields.map Prod.fst) :=
  List.filter_sublist.map Prod.fst

@[simp] theorem map_fst_slot {α : Type} (field : String) (a : Option α) :
    (slot field a).map Prod.fst = [field] := rfl

/-- Required fields are in the order of the fields. -/
theorem LeafDraft.required_sublist (l : LeafDraft) :
    (l.required.map Prod.fst).Sublist l.kind.fields := by
  cases l with
  | arp d => cases h : d.correctLength <;> simp [required, h, kind, Kind.fields]
  | sctp d => cases h : d.correctChecksum <;> simp [required, h, kind, Kind.fields]
  | _ => simp [required, kind, Kind.fields]

/-- Required fields are in the order of the fields. -/
theorem CarrierDraft.required_sublist (c : CarrierDraft) :
    (c.required.map Prod.fst).Sublist (Kind.format c.format).fields := by
  cases c with
  | ipv6 d => cases h : d.correctLength <;> simp [required, h, format, Kind.fields]
  | options kind d =>
    cases kind <;> cases h : d.correctLength <;>
      simp [required, h, format, OptionsKind.format, Kind.fields]
  | routing d => cases h : d.correctLength <;> simp [required, h, format, Kind.fields]
  | icmpv6 d => cases h : d.correctChecksum <;> simp [required, h, format, Kind.fields]
  | udp d =>
    cases h : d.correctLength <;> cases h' : d.correctChecksum <;>
      simp [required, h, h', format, Kind.fields]
  | gtp d => cases h : d.correctLength <;> simp [required, h, format, Kind.fields]
  | _ => simp [required, format, Kind.fields]

/-- **The required fields of the outermost layer that are unset**, in
order. -/
def Draft.unset : Draft → List String
  | leaf l => unsetFields l.required
  | bare c => unsetFields c.required
  | carry c _ => unsetFields c.required

/-! ## Setting what is unset -/

/-- **The draft with its unset fields set** as in another draft of the same
kind. What is set stays. -/
def LeafDraft.fill : LeafDraft → LeafDraft → LeafDraft
  | arp d, arp e => arp { d with
      hardwareType := d.hardwareType.or e.hardwareType
      protocolType := d.protocolType.or e.protocolType
      hardwareAddrLen := d.hardwareAddrLen.or e.hardwareAddrLen
      protocolAddrLen := d.protocolAddrLen.or e.protocolAddrLen
      operation := d.operation.or e.operation
      senderMac := d.senderMac.or e.senderMac
      senderIp := d.senderIp.or e.senderIp
      targetMac := d.targetMac.or e.targetMac
      targetIp := d.targetIp.or e.targetIp }
  | solicitation d, solicitation e => solicitation { d with target := d.target.or e.target }
  | advertisement d, advertisement e => advertisement { d with target := d.target.or e.target }
  | sctp d, sctp e => sctp { d with
      srcPort := d.srcPort.or e.srcPort
      dstPort := d.dstPort.or e.dstPort
      verificationTag := d.verificationTag.or e.verificationTag
      checksum := d.checksum.or e.checksum }
  | unknown data, unknown other => unknown (data.or other)
  | l, _ => l

/-- **The draft with its unset fields set** as in another draft of the same
kind. What is set stays. -/
def CarrierDraft.fill : CarrierDraft → CarrierDraft → CarrierDraft
  | ethernet d, ethernet e => ethernet { d with
      dst := d.dst.or e.dst
      src := d.src.or e.src
      etherType := d.etherType.or e.etherType }
  | ipv6 d, ipv6 e => ipv6 { d with
      trafficClass := d.trafficClass.or e.trafficClass
      flowLabel := d.flowLabel.or e.flowLabel
      payloadLen := d.payloadLen.or e.payloadLen
      nextHeader := d.nextHeader.or e.nextHeader
      hopLimit := d.hopLimit.or e.hopLimit
      src := d.src.or e.src
      dst := d.dst.or e.dst }
  | options kind d, options _ e => options kind { d with
      nextHeader := d.nextHeader.or e.nextHeader
      hdrExtLen := d.hdrExtLen.or e.hdrExtLen }
  | routing d, routing e => routing { d with
      nextHeader := d.nextHeader.or e.nextHeader
      hdrExtLen := d.hdrExtLen.or e.hdrExtLen
      segmentsLeft := d.segmentsLeft.or e.segmentsLeft
      data := d.data.or e.data }
  | fragment d, fragment e => fragment { d with
      nextHeader := d.nextHeader.or e.nextHeader
      fragOffset := d.fragOffset.or e.fragOffset
      moreFrags := d.moreFrags.or e.moreFrags
      identification := d.identification.or e.identification }
  | icmpv6 d, icmpv6 e => icmpv6 { d with
      icmpType := d.icmpType.or e.icmpType
      code := d.code.or e.code
      checksum := d.checksum.or e.checksum
      src := d.src.or e.src
      dst := d.dst.or e.dst }
  | echo d, echo e => echo { d with
      identifier := d.identifier.or e.identifier
      sequenceNumber := d.sequenceNumber.or e.sequenceNumber }
  | udp d, udp e => udp { d with
      srcPort := d.srcPort.or e.srcPort
      dstPort := d.dstPort.or e.dstPort
      lengthField := d.lengthField.or e.lengthField
      checksum := d.checksum.or e.checksum
      src := d.src.or e.src
      dst := d.dst.or e.dst }
  | gtp d, gtp e => gtp { d with
      messageType := d.messageType.or e.messageType
      teid := d.teid.or e.teid
      lengthField := d.lengthField.or e.lengthField }
  | c, _ => c

/-- **An objection to values that were set**: it is made however the fields
that are unset are set. -/
def LeafDraft.Stands (l : LeafDraft) (v : Violation) : Prop :=
  ∀ other : LeafDraft, other.kind = l.kind → v ∈ (l.fill other).violations

/-- **An objection to values that were set**, over a payload of `length`
octets: it is made, up front or late, however the fields that are unset are
set. -/
def CarrierDraft.Stands (length : Nat) (c : CarrierDraft) (v : Violation) : Prop :=
  ∀ other : CarrierDraft, other.format = c.format →
    v ∈ (c.fill other).violations ++ (c.fill other).lateViolations length

/-- **An objection to values that were set** in the outermost layer. -/
def Draft.Stands : Draft → Violation → Prop
  | leaf l => l.Stands
  | bare c => c.Stands 0
  | carry c p => c.Stands p.packet.length

/-- **Objections to a value that stands in for an unset field.** -/
def CarrierDraft.presumed : CarrierDraft → List Violation
  | udp d =>
    let oneOfIpv6 := match d.src, d.dst with
      | some a, none | none, some a => !a.isV4
      | _, _ => false
    ifBad (d.correctChecksum && oneOfIpv6) "dst_addr" "address families differ"
  | routing d =>
    ifBad (d.correctLength && d.data.isNone) "data" "length is not a multiple of 8 octets"
  | _ => []

/-- **Objections to a value that stands in for an unset field** of the
outermost layer. -/
def Draft.presumed : Draft → List Violation
  | leaf _ => []
  | bare c => c.presumed
  | carry c _ => c.presumed

namespace Violation

/-- An unset field is reported. -/
def IsMissing : Violation → Prop
  | missing _ => True
  | _ => False

/-- A value is objected to. -/
def IsObjection : Violation → Prop
  | outOfRange _ _ _ | invalid _ _ => True
  | _ => False

/-- Objections do not report unset fields. -/
theorem missingFields_of_objections {protocol : String} {vs : List Violation}
    (objections : ∀ v ∈ vs, v.IsObjection) : BuildError.missingFields ⟨protocol, vs⟩ = [] := by
  refine List.filterMap_eq_nil_iff.mpr fun v hv => ?_
  have hobjection := objections v hv
  cases v with
  | missing | payload => exact hobjection.elim
  | outOfRange | invalid => rfl

/-- **What is wrong is accounted for**: it reports the fields that are
unset, in order, and for the rest it is objections that are also found
in `filled`, where these fields are set, or are `presumed`. -/
structure Accounted (fields : List (String × Bool)) (presumed filled vs : List Violation) :
    Prop where
  missing : ∀ protocol, BuildError.missingFields ⟨protocol, vs⟩ = unsetFields fields
  rest : ∀ v ∈ vs, v.IsMissing ∨ v.IsObjection ∧ (v ∈ filled ∨ v ∈ presumed)

namespace Accounted

variable {fields fields' : List (String × Bool)} {presumed filled filled' vs ws : List Violation}

theorem append (hvs : Accounted fields presumed filled vs)
    (hws : Accounted fields' presumed filled' ws) :
    Accounted (fields ++ fields') presumed (filled ++ filled') (vs ++ ws) where
  missing protocol := by
    rw [unsetFields, List.filter_append, List.map_append, ← unsetFields, ← unsetFields,
      ← hvs.missing protocol, ← hws.missing protocol]
    exact List.filterMap_append
  rest v hv := by
    rcases List.mem_append.mp hv with hv | hv
    · exact (hvs.rest v hv).imp_right (And.imp_right (Or.imp_left (List.mem_append_left _)))
    · exact (hws.rest v hv).imp_right (And.imp_right (Or.imp_left (List.mem_append_right _)))

theorem nil : Accounted [] presumed filled [] :=
  ⟨fun _ => rfl, fun _ hv => absurd hv List.not_mem_nil⟩

theorem ifMissing {α : Type} {field : String} {a : Option α} :
    Accounted (slot field a) presumed filled (ifMissing field a) := by
  cases a with
  | some a => exact ⟨fun _ => rfl, fun _ hv => absurd hv List.not_mem_nil⟩
  | none => exact ⟨fun _ => rfl, fun v hv => .inl (List.mem_singleton.mp hv ▸ trivial)⟩

/-- Values that are not unset are objected to again. -/
theorem again (objections : ∀ v ∈ vs, v.IsObjection) : Accounted [] presumed vs vs :=
  ⟨fun _ => missingFields_of_objections objections, fun v hv => .inr ⟨objections v hv, .inl hv⟩⟩

/-- Objections that are presumed. -/
theorem presume (objections : ∀ v ∈ vs, v.IsObjection) (h : ∀ v ∈ vs, v ∈ presumed) :
    Accounted [] presumed filled vs :=
  ⟨fun _ => missingFields_of_objections objections,
    fun v hv => .inr ⟨objections v hv, .inr (h v hv)⟩⟩

/-- Objections behind what is accounted for. -/
theorem also (hvs : Accounted fields presumed filled vs)
    (hws : Accounted [] presumed filled' ws) :
    Accounted fields presumed (filled ++ filled') (vs ++ ws) := by
  have h := hvs.append hws
  rwa [List.append_nil] at h

theorem ite {c : Prop} [Decidable c] (hvs : c → Accounted fields presumed filled vs)
    (hws : Accounted fields' presumed filled' ws) :
    Accounted (if c then fields else fields') presumed (if c then filled else filled')
      (if c then vs else ws) := by
  split
  · next h => exact hvs h
  · exact hws

end Accounted

theorem mem_ifMissing {α : Type} {field : String} {a : Option α} {v : Violation} :
    v ∈ ifMissing field a ↔ a = none ∧ v = .missing field := by
  cases a <;> simp [ifMissing]

theorem mem_ifOver {field : String} {value max : Nat} {v : Violation} :
    v ∈ ifOver field value max ↔ max < value ∧ v = .outOfRange field value max := by
  rw [ifOver]
  split <;> simp_all

theorem mem_ifBad {bad : Bool} {field reason : String} {v : Violation} :
    v ∈ ifBad bad field reason ↔ bad = true ∧ v = .invalid field reason := by
  cases bad <;> simp [ifBad]

theorem isObjection_ifOver {field : String} {value max : Nat} :
    ∀ v ∈ ifOver field value max, v.IsObjection := by
  rw [ifOver]
  split <;> simp [IsObjection]

theorem isObjection_ifBad {bad : Bool} {field reason : String} :
    ∀ v ∈ ifBad bad field reason, v.IsObjection := by
  cases bad <;> simp [ifBad, IsObjection]

theorem isObjection_append {vs ws : List Violation} (hvs : ∀ v ∈ vs, v.IsObjection)
    (hws : ∀ v ∈ ws, v.IsObjection) : ∀ v ∈ vs ++ ws, v.IsObjection :=
  List.forall_mem_append.mpr ⟨hvs, hws⟩

theorem isObjection_flatMap {α : Type} {as : List α} {f : α → List Violation}
    (h : ∀ a, ∀ v ∈ f a, v.IsObjection) : ∀ v ∈ as.flatMap f, v.IsObjection := by
  intro v hv
  obtain ⟨a, -, hv⟩ := List.mem_flatMap.mp hv
  exact h a v hv

namespace Accounted

variable {presumed : List Violation}

theorem ifOver {field : String} {value max : Nat} :
    Accounted [] presumed (ifOver field value max) (ifOver field value max) :=
  again isObjection_ifOver

/-- The value that stands in for an unset field is not too large. -/
theorem ifOver_getD {α : Type} {toNat : α → Nat} {field : String} {standIn : α} {max : Nat}
    (fits : toNat standIn ≤ max) (a b : Option α) :
    Accounted [] presumed (Violation.ifOver field (toNat ((a.or b).getD standIn)) max)
      (Violation.ifOver field (toNat (a.getD standIn)) max) := by
  cases a with
  | some a => exact ifOver
  | none =>
    rw [Option.getD_none, Violation.ifOver_eq_nil.mpr fits]
    exact nil

end Accounted

end Violation

/-! ## Layers -/

section

open Violation Violation.Accounted

/-- **What is wrong with a layer is accounted for**, and nothing is
presumed. -/
theorem LeafDraft.accounted {l other : LeafDraft} (h : other.kind = l.kind) :
    Accounted l.required [] (l.fill other).violations l.violations := by
  fun_cases fill l other with
  | case1 d e =>
    exact Accounted.ifMissing.append .ifMissing
      |>.append (.ite (fun _ => .nil) (.append .ifMissing .ifMissing))
      |>.append .ifMissing |>.append .ifMissing |>.append .ifMissing |>.append .ifMissing
      |>.append .ifMissing
  | case2 d e =>
    exact Accounted.ifMissing.also (.again (isObjection_flatMap fun _ =>
      isObjection_append isObjection_ifBad isObjection_ifOver))
  | case3 d e =>
    exact Accounted.ifMissing.also .ifOver |>.also (.again (isObjection_flatMap fun _ =>
      isObjection_append isObjection_ifBad isObjection_ifOver))
  | case4 d e =>
    exact Accounted.ifMissing.append .ifMissing |>.append .ifMissing
      |>.append (.ite (fun _ => .nil) .ifMissing) |>.also (.again (isObjection_flatMap fun _ =>
        isObjection_ifOver))
  | case5 data other => exact .ifMissing
  | case6 other hne =>
    cases l <;> cases other <;> simp_all [kind]

/-- Families are compared again if both addresses are set, and if none is
they are the same. -/
theorem UdpDraft.accounted_families {d : UdpDraft} (correct : d.correctChecksum = true)
    (src dst : Option IpAddr) :
    Accounted [] (CarrierDraft.presumed (.udp d))
      (ifBad (((d.src.or src).getD IpAddr.unspecified).isV4
        != ((d.dst.or dst).getD IpAddr.unspecified).isV4) "dst_addr" "address families differ")
      (ifBad (d.srcOrNone.isV4 != d.dstOrNone.isV4) "dst_addr" "address families differ") := by
  -- What stands in for an unset address is one of IPv4.
  have hsrc : ∀ a : IpAddr, (a.isV4 != IpAddr.unspecified.isV4) = !a.isV4 := fun a => by
    cases a.isV4 <;> rfl
  have hdst : ∀ a : IpAddr, (IpAddr.unspecified.isV4 != a.isV4) = !a.isV4 := fun a => by
    cases a.isV4 <;> rfl
  rw [srcOrNone, dstOrNone, CarrierDraft.presumed, correct]
  cases d.src with
  | some a =>
    cases d.dst with
    | some b => exact .again isObjection_ifBad
    | none =>
      refine .presume isObjection_ifBad fun v hv => ?_
      rwa [Option.getD_some, Option.getD_none, hsrc] at hv
  | none =>
    cases d.dst with
    | some b =>
      refine .presume isObjection_ifBad fun v hv => ?_
      rwa [Option.getD_some, Option.getD_none, hdst] at hv
    | none => exact .nil

/-- The length of the data is checked again if the data is set. -/
theorem RoutingDraft.accounted_length {d : RoutingDraft} (correct : d.correctLength = true)
    (data : Option RoutingData) :
    let filled : RoutingDraft := { d with data := d.data.or data }
    Accounted [] (CarrierDraft.presumed (.routing d))
      (ifBad (filled.length % 8 != 0) "data" "length is not a multiple of 8 octets"
        ++ ifOver "hdr_ext_len" filled.units 255)
      (ifBad (d.length % 8 != 0) "data" "length is not a multiple of 8 octets"
        ++ ifOver "hdr_ext_len" d.units 255) := by
  intro filled
  rw [CarrierDraft.presumed, correct]
  cases hdata : d.data with
  | some given =>
    have hlength : filled.length = d.length := by
      simp only [filled, length, dataOrNone, hdata, Option.some_or]
    rw [units, units, hlength]
    exact .again (isObjection_append isObjection_ifBad isObjection_ifOver)
  | none =>
    have hlength : d.length = 4 := by
      rw [length, dataOrNone, hdata]
      rfl
    have hunits : d.units = 0 := by rw [units, hlength]
    rw [hlength, hunits]
    exact .presume (isObjection_append isObjection_ifBad isObjection_ifOver) fun v hv => hv

theorem CarrierDraft.accounted {c other : CarrierDraft} (h : other.format = c.format) :
    Accounted c.required c.presumed (c.fill other).violations c.violations := by
  fun_cases fill c other with
  | case1 d e => exact Accounted.ifMissing.append .ifMissing |>.append .ifMissing
  | case2 d e =>
    exact Accounted.ifOver.append .ifMissing |>.append .ifMissing
      |>.also (.ifOver_getD (by decide) _ _) |>.append (.ite (fun _ => .nil) .ifMissing)
      |>.append .ifMissing |>.append .ifMissing |>.append .ifMissing |>.append .ifMissing
  | case3 kind d kind' e =>
    exact Accounted.ifMissing.also (.again (isObjection_flatMap fun _ => isObjection_ifOver))
      |>.append (.ite (fun _ => .ifOver) .ifMissing)
  | case4 d e =>
    exact Accounted.ifMissing.append .ifMissing |>.append .ifMissing
      |>.append (.ite (fun hcorrect => RoutingDraft.accounted_length hcorrect e.data) .ifMissing)
  | case5 d e =>
    exact Accounted.ifMissing.append .ifMissing |>.also (.ifOver_getD (by decide) _ _)
      |>.also .ifOver |>.append .ifMissing |>.append .ifMissing
  | case6 d e =>
    exact Accounted.ifMissing.append .ifMissing
      |>.append (.ite (fun _ => Accounted.ifMissing.append .ifMissing) .ifMissing)
  | case7 d e => exact Accounted.ifMissing.append .ifMissing
  | case8 d e =>
    exact Accounted.ifMissing.append .ifMissing |>.append (.ite (fun _ => .nil) .ifMissing)
      |>.append (.ite (fun hcorrect => Accounted.ifMissing.append .ifMissing
        |>.also (UdpDraft.accounted_families hcorrect _ _)) .ifMissing)
  | case9 d e =>
    exact Accounted.ifOver.append .ifMissing |>.append .ifMissing
      |>.append (.ite (fun _ => .nil) .ifMissing) |>.also (.again isObjection_ifBad)
      |>.also (.again (isObjection_flatMap fun _ =>
        isObjection_append isObjection_ifBad isObjection_ifOver))
  | case10 other =>
    -- Drafts of one format are of the same kind; only options headers have two formats.
    have hkind : ∀ kind : OptionsKind, kind.format = .hopByHop ∨ kind.format = .destination := by
      intro kind
      cases kind
      · exact .inl rfl
      · exact .inr rfl
    exfalso
    cases c <;> cases other <;> grind [format]

/-- What is presumed is not found once the unset field is set in the right
way. -/
theorem CarrierDraft.not_stands_of_mem_presumed {c : CarrierDraft} {v : Violation}
    (h : v ∈ c.presumed) (length : Nat) : ¬c.Stands length v := by
  intro hstands
  cases c with
  | udp d =>
    obtain ⟨hone, rfl⟩ := mem_ifBad.mp h
    rw [Bool.and_eq_true] at hone
    obtain ⟨correct, hone⟩ := hone
    -- The other address is set to the same.
    have hsame : ∃ a, d.src.or (some a) = d.dst.or (some a) := by
      cases hsrc : d.src <;> cases hdst : d.dst <;> simp_all
    obtain ⟨a, hsame⟩ := hsame
    have hfound := hstands (.udp { src := some a, dst := some a }) rfl
    simp [fill, violations, UdpDraft.violations, lateViolations, UdpDraft.srcOrNone,
      UdpDraft.dstOrNone, hsame, correct, mem_ifMissing, mem_ifOver, mem_ifBad] at hfound
  | routing d =>
    obtain ⟨hunset, rfl⟩ := mem_ifBad.mp h
    rw [Bool.and_eq_true, Option.isNone_iff_eq_none] at hunset
    obtain ⟨correct, hdata⟩ := hunset
    have hfound := hstands (.routing { data := some (.unknown 0 (Bytes.zeros 4)) }) rfl
    have hlength : ∀ e : RoutingDraft, e.data = some (.unknown 0 (Bytes.zeros 4)) → e.length = 8 :=
      fun e he => by rw [RoutingDraft.length, RoutingDraft.dataOrNone, he]; rfl
    simp [fill, violations, RoutingDraft.violations, lateViolations, hdata, hlength, correct,
      mem_ifMissing, mem_ifOver, mem_ifBad] at hfound
  | _ => exact absurd h List.not_mem_nil

/-- What is presumed is reported. -/
theorem CarrierDraft.presumed_subset (c : CarrierDraft) : ∀ v ∈ c.presumed, v ∈ c.violations := by
  intro v hv
  cases c with
  | udp d =>
    obtain ⟨hone, rfl⟩ := mem_ifBad.mp hv
    rw [Bool.and_eq_true] at hone
    obtain ⟨correct, hone⟩ := hone
    have hdiffer : (d.srcOrNone.isV4 != d.dstOrNone.isV4) = true := by
      rw [UdpDraft.srcOrNone, UdpDraft.dstOrNone]
      cases hsrc : d.src <;> cases hdst : d.dst <;> simp_all [IpAddr.unspecified, IpAddr.isV4]
    simp [violations, UdpDraft.violations, correct, hdiffer, ifBad]
  | routing d =>
    obtain ⟨hunset, rfl⟩ := mem_ifBad.mp hv
    rw [Bool.and_eq_true, Option.isNone_iff_eq_none] at hunset
    obtain ⟨correct, hdata⟩ := hunset
    have hlength : d.length = 4 := by
      rw [RoutingDraft.length, RoutingDraft.dataOrNone, hdata]
      rfl
    simp [violations, RoutingDraft.violations, correct, hlength, ifBad]
  | _ => exact absurd hv List.not_mem_nil

theorem CarrierDraft.isObjection_lateViolations (c : CarrierDraft) (length : Nat) :
    ∀ v ∈ c.lateViolations length, v.IsObjection := by
  cases c with
  | ipv6 d | icmpv6 d | udp d | gtp d =>
    rw [lateViolations]
    split
    · exact isObjection_ifOver
    · exact List.forall_mem_nil _
  | _ => exact List.forall_mem_nil _

/-- The late check does not look at fields that may be unset. -/
theorem CarrierDraft.lateViolations_fill (c other : CarrierDraft) (length : Nat) :
    (c.fill other).lateViolations length = c.lateViolations length := by
  fun_cases fill c other <;> rfl

end

/-! ## Drafts -/

namespace Draft

/-- **A layer reports what is wrong with it**: the violations list what it
lacks and what it objects to, and nothing else. -/
structure Reports (d : Draft) (vs : List Violation) : Prop where
  /-- The required fields that are unset are reported, each once. -/
  missing : BuildError.missingFields ⟨d.name, vs⟩ = d.unset
  /-- They are in the order of the fields. -/
  ordered : d.unset.Sublist d.kind.fields
  /-- All else are objections to values. They stand, unless they are
  presumed. -/
  objections : ∀ v ∈ vs, v.IsMissing ∨ v.IsObjection ∧ (d.Stands v ↔ v ∉ d.presumed)
  /-- Those that are presumed are reported like the others. -/
  presumed : ∀ v ∈ d.presumed, v ∈ vs

theorem unset_sublist (d : Draft) : d.unset.Sublist d.kind.fields := by
  cases d with
  | leaf l => exact unsetFields_sublist.trans l.required_sublist
  | bare c => exact unsetFields_sublist.trans c.required_sublist
  | carry c p => exact unsetFields_sublist.trans c.required_sublist

/-- A layer reports up front what is wrong with it. -/
theorem reports_violations (d : Draft) : d.Reports d.violations := by
  have hcarrier : ∀ (c : CarrierDraft) (length : Nat), ∀ v ∈ c.violations,
      v.IsMissing ∨ v.IsObjection ∧ (c.Stands length v ↔ v ∉ c.presumed) := by
    intro c length v hv
    by_cases hmissing : v.IsMissing
    · exact .inl hmissing
    · have hrest : ∀ other : CarrierDraft, other.format = c.format →
          v.IsObjection ∧ (v ∈ (c.fill other).violations ∨ v ∈ c.presumed) := fun other hother =>
        ((CarrierDraft.accounted hother).rest v hv).resolve_left hmissing
      refine .inr ⟨(hrest c rfl).1, fun hstands hpresumed => ?_, fun hstated other hother => ?_⟩
      · exact CarrierDraft.not_stands_of_mem_presumed hpresumed length hstands
      · exact List.mem_append_left _ ((hrest other hother).2.resolve_right hstated)
  cases d with
  | leaf l =>
    refine ⟨(LeafDraft.accounted rfl).missing _, unset_sublist _, fun v hv => ?_,
      fun v hv => absurd hv List.not_mem_nil⟩
    by_cases hmissing : v.IsMissing
    · exact .inl hmissing
    · have hrest : ∀ other : LeafDraft, other.kind = l.kind →
          v.IsObjection ∧ v ∈ (l.fill other).violations := fun other hother =>
        ((LeafDraft.accounted hother).rest v hv).resolve_left hmissing
          |>.imp_right (Or.resolve_right · List.not_mem_nil)
      exact .inr ⟨(hrest l rfl).1, iff_of_true (fun other hother => (hrest other hother).2)
        List.not_mem_nil⟩
  | bare c =>
    exact ⟨(CarrierDraft.accounted rfl).missing _, unset_sublist _, hcarrier c 0,
      c.presumed_subset⟩
  | carry c p =>
    exact ⟨(CarrierDraft.accounted rfl).missing _, unset_sublist _, hcarrier c p.packet.length,
      c.presumed_subset⟩

/-- A layer that nothing is wrong with up front reports late what is. -/
theorem reports_lateViolations {d : Draft} (checked : d.violations = []) :
    d.Reports d.lateViolations := by
  obtain ⟨hmissing, hordered, -, hpresumed⟩ := d.reports_violations
  rw [checked] at hmissing hpresumed
  have hunset : d.unset = [] := hmissing.symm
  have hnone : ∀ v, v ∉ d.presumed := fun v hv => List.not_mem_nil (hpresumed v hv)
  have hcarrier : ∀ (c : CarrierDraft) (length : Nat), ∀ v ∈ c.lateViolations length,
      v.IsObjection ∧ c.Stands length v := fun c length v hv =>
    ⟨c.isObjection_lateViolations length v hv, fun other _ =>
      List.mem_append_right _ (c.lateViolations_fill other length ▸ hv)⟩
  have hlate : ∀ v ∈ d.lateViolations, v.IsObjection ∧ d.Stands v := by
    cases d with
    | leaf l => exact List.forall_mem_nil _
    | bare c => exact hcarrier c 0
    | carry c p => exact hcarrier c p.packet.length
  refine ⟨?_, hordered, fun v hv => ?_, fun v hv => absurd hv (hnone v)⟩
  · rw [hunset, Violation.missingFields_of_objections fun v hv => (hlate v hv).1]
  · exact .inr ⟨(hlate v hv).1, iff_of_true (hlate v hv).2 (hnone v)⟩

theorem layers_eq_cons (d : Draft) : d.layers = d :: d.layers.tail := by
  cases d <;> rfl

/-- When a build fails and it is not because of the layers inside, it is
because of the outermost one. -/
theorem fails_outermost {d : Draft} {e : BuildError} (h : d.build = .error e)
    (built : d.violations = [] → ∀ l ∈ d.layers.tail, l.violations = [] ∧ l.lateViolations = []) :
    ∃ vs, e = ⟨d.name, vs⟩ ∧ vs ≠ []
      ∧ (vs = d.violations ∨ d.violations = [] ∧ vs = d.lateViolations) := by
  by_cases hup : d.violations = []
  · have hlate : d.lateViolations ≠ [] := fun hlate => by
      have hsound : d.Sound := by
        rw [Sound, layers_eq_cons]
        exact List.forall_mem_cons.mpr ⟨⟨hup, hlate⟩, built hup⟩
      rw [build_eq_ok.mpr ⟨hsound, rfl⟩] at h
      cases h
    rw [build_of_lateViolations hup (built hup) hlate] at h
    cases h
    exact ⟨_, rfl, hlate, .inr ⟨hup, rfl⟩⟩
  · rw [build_of_violations hup] at h
    cases h
    exact ⟨_, rfl, hup, .inl rfl⟩

/-- **A build that fails is that of a layer**, which fails up front or
late. -/
theorem exists_failing_layer {d : Draft} {e : BuildError} (h : d.build = .error e) :
    ∃ outer failing inner vs, d.layers = outer ++ failing :: inner
      ∧ e = .within (outer.map name) ⟨failing.name, vs⟩ ∧ vs ≠ []
      ∧ (vs = failing.violations ∨ failing.violations = [] ∧ vs = failing.lateViolations) := by
  -- Induction on the layers: the outermost fails, or the error is that of its payload.
  induction d generalizing e with
  | leaf l =>
    obtain ⟨vs, he, hvs⟩ := fails_outermost h fun _ => List.forall_mem_nil _
    exact ⟨[], leaf l, [], vs, rfl, he, hvs⟩
  | bare c =>
    obtain ⟨vs, he, hvs⟩ := fails_outermost h fun _ => List.forall_mem_nil _
    exact ⟨[], bare c, [], vs, rfl, he, hvs⟩
  | carry c p ih =>
    by_cases hup : c.violations = []
    · cases hp : p.build with
      | error below =>
        obtain ⟨outer, failing, inner, vs, hlayers, rfl, hvs⟩ := ih hp
        rw [build_carry_of_error hup hp] at h
        cases h
        exact ⟨carry c p :: outer, failing, inner, vs, congrArg _ hlayers, rfl, hvs⟩
      | ok q =>
        obtain ⟨vs, he, hvs⟩ := fails_outermost h fun _ => (build_eq_ok.mp hp).1
        exact ⟨[], carry c p, p.layers, vs, rfl, he, hvs⟩
    · obtain ⟨vs, he, hvs⟩ := fails_outermost h fun hc => absurd hc hup
      exact ⟨[], carry c p, p.layers, vs, rfl, he, hvs⟩

/-- **A build that fails reports what is wrong with one layer of the
draft**, and the layers around it report its error as that of their
payload. The required fields of the layer that are unset are reported, each
once and in the order of the fields. All else are objections, and these are
to values that were set, but for the ones that are presumed: of a datagram
whose checksum is to be computed, with an address of IPv6 and the other one
unset, that the families differ; and of a routing header whose length is to
be corrected, with its data unset, that the data has the wrong length. -/
theorem build_reports {d : Draft} {e : BuildError} (h : d.build = .error e) :
    ∃ outer failing inner vs, d.layers = outer ++ failing :: inner
      ∧ e = .within (outer.map name) ⟨failing.name, vs⟩ ∧ vs ≠ [] ∧ failing.Reports vs := by
  obtain ⟨outer, failing, inner, vs, hlayers, he, hne, rfl | ⟨hchecked, rfl⟩⟩ :=
    exists_failing_layer h
  · exact ⟨outer, failing, inner, _, hlayers, he, hne, failing.reports_violations⟩
  · exact ⟨outer, failing, inner, _, hlayers, he, hne, reports_lateViolations hchecked⟩

/-- **A datagram to an address of IPv6 that lacks the other one.** Its
error reports the missing address, and then that the families of the two
differ. -/
theorem build_reports_families :
    let d : Draft := .bare (.udp
      { srcPort := some 5000, dstPort := some 5001, lengthField := some 8,
        dst := some (.v6 ⟨Bytes.zeros 16, rfl⟩), correctChecksum := true })
    d.build = .error ⟨"UDP", [.missing "src_addr", .invalid "dst_addr" "address families differ"]⟩
      ∧ d.presumed = [.invalid "dst_addr" "address families differ"]
      ∧ ∃ outer failing inner vs, d.layers = outer ++ failing :: inner
        ∧ BuildError.mk "UDP" [.missing "src_addr", .invalid "dst_addr" "address families differ"]
          = .within (outer.map name) ⟨failing.name, vs⟩
        ∧ vs ≠ [] ∧ failing.Reports vs :=
  ⟨rfl, rfl, build_reports rfl⟩

/-- A routing header without data whose length is to be corrected. -/
example :
    let d : RoutingDraft :=
      { nextHeader := some IpProtocol.noNext, segmentsLeft := some 0, correctLength := true }
    (bare (.routing d)).build = .error ⟨"IPv6 Routing",
      [.missing "data", .invalid "data" "length is not a multiple of 8 octets"]⟩ := by
  rfl

end Draft

end PacketCodec
