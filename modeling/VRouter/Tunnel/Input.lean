import VRouter.Flow.Forward
import VRouter.Tunnel.Output

/-!
# VRouter — receiving from a tunnel (`vr_proto_ip.c`, `vr_mpls.c`, `vr_vxlan.c`)

`vr_ip_rcv` takes the outer header off a packet for this host, `vr_gre_input` and `vr_udp_input` the
one behind it, and `vr_mpls_input` and `vr_vxlan_input` read the label or the VXLAN identifier and
hand what is left to the nexthop they find. The functions of the host that make the inner headers
contiguous are parameters.
-/

namespace VRouter

open Memory

/-- `nh_family`. -/
inductive NhFamily where
  | inet | bridge | other
  deriving DecidableEq, Repr

/-- What the input functions read of a nexthop. -/
structure InputNexthop where
  nhFamily : NhFamily
  /-- `nh_type` is `NH_COMPOSITE`. -/
  composite : Bool
  nhVrf : Int
  /-- `vif_vrf` of `nh_dev`. -/
  nhDevVrf : Option Int
  deriving DecidableEq, Repr

/-- What the input functions read of the router and of the interface a packet comes in on. -/
structure InputRouter where
  vrMaxLabels : Nat
  /-- `__vrouter_get_label`. -/
  label : Nat → Option InputNexthop
  /-- `vr_itable_get` of `vr_vxlan_table`. -/
  vxlan : Nat → Option InputNexthop
  /-- `vif_vrf` of `vp_if`. -/
  vifVrf : Int
  /-- `vr_myip` of `vp_if`. -/
  myip : Nat → Bool

/-- What becomes of a packet that is received. -/
inductive TunnelInput where
  /-- Given to the nexthop. -/
  | output (nh : InputNexthop) (fmd : ForwardingMd) (pkt : TunnelPacket)
  | dropped (reason : TunnelDrop)
  /-- Trapped with `AGENT_TRAP_ROUTER_ALERT`. -/
  | trapped (fmd : ForwardingMd)
  /-- Given to `vr_icmp_input`. -/
  | icmp (fmd : ForwardingMd) (pkt : TunnelPacket)
  /-- Not a packet of a tunnel; it is for the host. -/
  | unhandled

/-- `vr_eth_proto_to_pkt_type`. -/
def vrEthProtoToPktType (ethProto : Nat) : PacketType :=
  if ethProto = 0x800 then .ip
  else if ethProto = 0x86DD then .ip6
  else if ethProto = 0x806 then .arp
  else .unknown

/-- The loop of `vr_pkt_type` over VLAN headers. Each takes four bytes of the packet, so that
`pkt_len` rounds are enough. The result is the last protocol, the length of the headers and
`fmd_vlan`. -/
def vlanLoop (m : Bytes) (eth pktLen : Nat) : Nat → Nat → Nat → Nat → Option (Nat × Nat × Nat)
  | 0, _, _, _ => none
  | rounds + 1, ethProto, pullLen, fmdVlan =>
    if ethProto ≠ 0x8100 then some (ethProto, pullLen, fmdVlan)
    else if pktLen < pullLen + 4 then none
    else
      let vlan := eth + pullLen
      let fmdVlan := if fmdVlan = vlanIdInvalid then load16 m vlan % 2 ^ 12 else fmdVlan
      vlanLoop m eth pktLen rounds (swap16 (load16 m (vlan + 2))) (pullLen + 4) fmdVlan

/-- `vr_pkt_type`. -/
def vrPktType (pkt : TunnelPacket) (offset : Nat) (fmd : ForwardingMd) :
    Option (TunnelPacket × ForwardingMd) :=
  let eth := pkt.vpData + offset
  if pkt.vpLen < offset + 14 then none
  else
    let pktLen := pkt.vpLen - offset
    (vlanLoop pkt.vpHead eth pktLen (pktLen + 1) (swap16 (load16 pkt.vpHead (eth + 12))) 14
      fmd.fmdVlan).map fun (ethProto, pullLen, fmdVlan) =>
        ({ pkt with
            multicast := (load8 pkt.vpHead eth).testBit 0
            vpNetworkH := eth + pullLen
            vpInnerNetworkH := eth + pullLen
            vpType := vrEthProtoToPktType ethProto },
          { fmd with fmdVlan := fmdVlan })

/-- The VRF a received packet is forwarded in. -/
def inputDvrf (router : InputRouter) (nh : InputNexthop) : Int :=
  if nh.nhVrf ≥ 0 then nh.nhVrf else nh.nhDevVrf.getD router.vifVrf

/-- `vr_mpls_input`, once the label is off: the nexthop of the label in the metadata gets the
packet. -/
def mplsOutput (router : InputRouter) (fmd : ForwardingMd) (pkt : TunnelPacket) : TunnelInput :=
  match router.label fmd.fmdLabel.toNat with
  | none => .dropped .invalidLabel
  | some nh =>
    let pkt := { pkt with multicast := false }
    let fmd := { fmd with fmdVlan := vlanIdInvalid }
    match nh.nhFamily with
    | .inet =>
      let version := ipVersion pkt.vpHead pkt.vpData
      if version = 4 ∨ version = 6 then
        .output nh { fmd with fmdDvrf := inputDvrf router nh }
          { pkt with
            vpType := if version = 4 then .ip else .ip6
            vpNetworkH := pkt.vpData
            vpInnerNetworkH := pkt.vpData }
      else .dropped .invalidProtocol
    | .bridge =>
      -- `VR_MAX_UCAST_LABELS`, `VR_L2_MCAST_CTRL_DATA_LEN` and `VR_VXLAN_HDR_LEN`
      let l2Offset := if nh.composite ∧ 1024 ≤ fmd.fmdLabel then 4 + 36 else 0
      match vrPktType pkt l2Offset fmd with
      | none => .dropped .invalidPacket
      | some (pkt, fmd) => .output nh { fmd with fmdDvrf := inputDvrf router nh } pkt
    | .other => .dropped .invalidNh

/-- `vr_mpls_input`. -/
def vrMplsInput (router : InputRouter) (fmd : ForwardingMd) (pkt : TunnelPacket) : TunnelInput :=
  let word := swap32 (load32 pkt.vpHead pkt.vpData)
  let ttl := word % 2 ^ 8
  let label := word / 2 ^ 12
  if label ≥ router.vrMaxLabels then .dropped .invalidLabel
  else if ttl ≤ 1 then .dropped .ttlExceeded
  else
    let fmd := { fmd with
      fmdOuterSrcIp := ipSaddr pkt.vpHead pkt.vpNetworkH
      fmdLabel := label
      labelIsVxlanId := false }
    match pktPull (pkt.setTtl (ttl - 1)) 4 with
    | none => .dropped .pull
    | some pkt => mplsOutput router fmd pkt

/-- `vr_vxlan_input`, once the VXLAN header is off. -/
def vxlanOutput (router : InputRouter) (fmd : ForwardingMd) (pkt : TunnelPacket) (flags : Nat) :
    TunnelInput :=
  match router.vxlan fmd.fmdLabel.toNat with
  | none => .dropped .invalidVnid
  | some nh =>
    match vrPktType pkt 0 { fmd with fmdVlan := vlanIdInvalid } with
    | none => .dropped .invalidPacket
    | some (pkt, fmd) =>
      let fmd := { fmd with fmdDvrf := inputDvrf router nh }
      -- `VR_VXLAN_RABIT`
      if flags.testBit 24 then .trapped fmd else .output nh fmd pkt

/-- `vr_vxlan_input`. -/
def vrVxlanInput (router : InputRouter) (fmd : ForwardingMd) (pkt : TunnelPacket) : TunnelInput :=
  let fmd := { fmd with fmdOuterSrcIp := ipSaddr pkt.vpHead pkt.vpNetworkH }
  let flags := swap32 (load32 pkt.vpHead pkt.vpData)
  -- `VR_VXLAN_IBIT`
  if ¬ flags.testBit 27 then .dropped .invalidVnid
  else
    let vnid := swap32 (load32 pkt.vpHead (pkt.vpData + 4)) / 2 ^ 8
    match pktPull pkt 8 with
    | none => .dropped .pull
    | some pkt => vxlanOutput router { fmd with fmdLabel := vnid, labelIsVxlanId := true } pkt flags

/-- `encap_type`. -/
inductive EncapType where
  | mpls | vxlan
  deriving DecidableEq, Repr

/-- What `vr_pull_inner_headers_fast` answers; on the fast path it has pulled the headers. -/
inductive FastPull where
  | unhandled
  | error
  | slowPath
  | fastPath (encap : EncapType) (pkt : TunnelPacket)

/-- The functions of the host that make the inner headers of a packet contiguous. -/
structure PullHost where
  vrPerfp : Bool
  pullInnerHeadersFast : Option (Nat → TunnelPacket → FastPull)
  pullInnerHeaders : Option (Nat → TunnelPacket → Except TunnelDrop TunnelPacket)

namespace PullHost

/-- The fast function, where it is to be used. -/
def fast (host : PullHost) (proto : Nat) (pkt : TunnelPacket) : FastPull :=
  match host.vrPerfp, host.pullInnerHeadersFast with
  | true, some f => f proto pkt
  | _, _ => .slowPath

def slow (host : PullHost) (proto : Nat) (pkt : TunnelPacket) : Except TunnelDrop TunnelPacket :=
  match host.pullInnerHeaders with
  | some f => f proto pkt
  | none => .ok pkt

end PullHost

def encapInput (router : InputRouter) (fmd : ForwardingMd) : EncapType → TunnelPacket → TunnelInput
  | .mpls, pkt => vrMplsInput router fmd pkt
  | .vxlan, pkt => vrVxlanInput router fmd pkt

/-- `encap_type` by the destination port; `vr_mpls_udp_port` knows two. -/
def udpEncap (dport : Nat) : Option EncapType :=
  if dport = 51234 ∨ dport = 6635 then some .mpls
  else if dport = 4789 then some .vxlan
  else none

/-- `vr_udp_input`. -/
def vrUdpInput (host : PullHost) (router : InputRouter) (fmd : ForwardingMd) (pkt : TunnelPacket) :
    TunnelInput :=
  match host.fast protoUdp pkt with
  | .unhandled => .unhandled
  | .error => .dropped .cksumErr
  | .fastPath encap pkt => encapInput router fmd encap pkt
  | .slowPath =>
    if pkt.vpLen < 8 then .dropped .misc
    else
      match udpEncap (swap16 (load16 pkt.vpHead (pkt.vpData + 2))) with
      | none => .unhandled
      | some encap =>
        match host.slow protoUdp pkt with
        | .error reason => .dropped reason
        | .ok pkt => encapInput router fmd encap (pktPulled pkt 8)

/-- `VR_GRE_FLAG_CSUM` and `VR_GRE_FLAG_KEY`. -/
def greFlagCsum : Nat := swap16 0x8000

def greFlagKey : Nat := swap16 0x2000

/-- `vr_gre_input`. -/
def vrGreInput (host : PullHost) (router : InputRouter) (fmd : ForwardingMd) (pkt : TunnelPacket) :
    TunnelInput :=
  match host.fast protoGre pkt with
  | .unhandled => .unhandled
  | .error => .dropped .cksumErr
  | .fastPath _ pkt => vrMplsInput router fmd pkt
  | .slowPath =>
    if pkt.vpLen < 4 then .dropped .misc
    else
      let flags := load16 pkt.vpHead pkt.vpData
      let hdrLen := 4 + (if flags &&& greFlagCsum ≠ 0 then 4 else 0) +
        if flags &&& greFlagKey ≠ 0 then 4 else 0
      if flags &&& (2 ^ 16 - 1 - (greFlagCsum ||| greFlagKey)) ≠ 0 then .unhandled
      else if swap16 (load16 pkt.vpHead (pkt.vpData + 2)) ≠ 0x8847 then .unhandled
      else
        match host.slow protoGre pkt with
        | .error reason => .dropped reason
        | .ok pkt => vrMplsInput router fmd (pktPulled pkt hdrLen)

/-- `vr_ip_rcv`, up to the packets the host gets. -/
def vrIpRcv (host : PullHost) (router : InputRouter) (fmd : ForwardingMd) (pkt : TunnelPacket) :
    TunnelInput :=
  let proto := ipProto pkt.vpHead pkt.vpData
  let rest := pktPulled pkt (ipHl pkt.vpHead pkt.vpData * 4)
  if pkt.vpNh.isSome || router.myip (ipDaddr pkt.vpHead pkt.vpData) then
    if proto = protoGre then vrGreInput host router fmd rest
    else if proto = protoUdp then vrUdpInput host router fmd rest
    else if proto = protoIcmp then .icmp fmd rest
    else .unhandled
  else .unhandled

/-! ## What a label is taken for -/

/-- The answers of `vr_mpls_tunnel_type`. -/
inductive MplsTunnelType where
  | l3 | l2Ucast | l2McastEvpn | l2Mcast
  deriving DecidableEq, Repr

/-- The `switch` of `vr_mpls_tunnel_type`. -/
def InputNexthop.tunnelType (nh : InputNexthop) (label : Nat) : Option MplsTunnelType :=
  match nh.nhFamily with
  | .inet => some .l3
  | .bridge =>
    if !nh.composite then some .l2Ucast
    else if label < 1024 then some .l2McastEvpn
    else some .l2Mcast
  | .other => none

/-- `vr_mpls_tunnel_type`, without the reason it gives for a failure. -/
def vrMplsTunnelType (router : InputRouter) (word : Nat) : Option MplsTunnelType :=
  let label := word / 2 ^ 12
  if label ≥ router.vrMaxLabels then none
  else (router.label label).bind fun nh => nh.tunnelType label

/-- Where `vr_inner_pkt_parse` finds the header behind the label, and if it is an IP header. -/
def MplsTunnelType.inner : MplsTunnelType → Bool × Nat
  | .l3 => (true, 0)
  | .l2Ucast | .l2McastEvpn => (false, 0)
  | .l2Mcast => (false, 4 + 36)

/-- A packet with its label off whose inner header, an IP or an Ethernet header, is at `offset`. -/
def dispatchInner (router : InputRouter) (nh : InputNexthop) (fmd : ForwardingMd)
    (pkt : TunnelPacket) : Bool × Nat → TunnelInput
  | (true, offset) =>
    let version := ipVersion pkt.vpHead (pkt.vpData + offset)
    if version = 4 ∨ version = 6 then
      .output nh { fmd with fmdDvrf := inputDvrf router nh }
        { pkt with
          vpType := if version = 4 then .ip else .ip6
          vpNetworkH := pkt.vpData + offset
          vpInnerNetworkH := pkt.vpData + offset }
    else .dropped .invalidProtocol
  | (false, offset) =>
    match vrPktType pkt offset fmd with
    | none => .dropped .invalidPacket
    | some (pkt, fmd) => .output nh { fmd with fmdDvrf := inputDvrf router nh } pkt

theorem mplsOutput_eq {router : InputRouter} {fmd : ForwardingMd} {pkt : TunnelPacket}
    {nh : InputNexthop} {label : Nat} (hlabel : fmd.fmdLabel = label)
    (hnh : router.label label = some nh) :
    mplsOutput router fmd pkt = (nh.tunnelType label).elim (.dropped .invalidNh) fun type =>
      dispatchInner router nh { fmd with fmdVlan := vlanIdInvalid } { pkt with multicast := false }
        type.inner := by
  unfold mplsOutput InputNexthop.tunnelType
  rw [hlabel, Int.toNat_natCast, hnh]
  cases hfamily : nh.nhFamily with
  | inet => simp [hfamily, dispatchInner, MplsTunnelType.inner]
  | other => simp [hfamily]
  | bridge =>
    by_cases hcomposite : nh.composite = true <;> rcases Nat.lt_or_ge label 1024 with h | h <;>
      simp [hfamily, hcomposite, h, Nat.not_le.mpr, Nat.not_lt.mpr, dispatchInner,
        MplsTunnelType.inner]

/-- **`vr_mpls_input` parses and dispatches a packet as `vr_mpls_tunnel_type` has classified it.**
Unless the TTL of the label has run out or the packet ends there, one without a type is dropped and
one with a type goes to the nexthop of its label, with the inner header where the type says. -/
theorem mpls_tunnel_type_agrees (router : InputRouter) (fmd : ForwardingMd) (pkt : TunnelPacket) :
    let word := swap32 (load32 pkt.vpHead pkt.vpData)
    (word % 2 ^ 8 ≤ 1 ∧ vrMplsInput router fmd pkt = .dropped .ttlExceeded) ∨
    (pkt.vpLen < 4 ∧ vrMplsInput router fmd pkt = .dropped .pull) ∨
    match vrMplsTunnelType router word with
    | none => ∃ reason, vrMplsInput router fmd pkt = .dropped reason
    | some type => ∃ nh fmd' pkt', router.label (word / 2 ^ 12) = some nh ∧
        pkt'.vpHead = pkt.vpHead ∧ pkt'.vpData = pkt.vpData + 4 ∧ pkt'.vpLen = pkt.vpLen - 4 ∧
        vrMplsInput router fmd pkt = dispatchInner router nh fmd' pkt' type.inner := by
  unfold vrMplsInput vrMplsTunnelType
  dsimp only
  generalize swap32 (load32 pkt.vpHead pkt.vpData) = word
  by_cases hmax : word / 2 ^ 12 ≥ router.vrMaxLabels
  · rw [if_pos hmax, if_pos hmax]
    exact .inr (.inr ⟨_, rfl⟩)
  rw [if_neg hmax, if_neg hmax]
  by_cases httl : word % 2 ^ 8 ≤ 1
  · rw [if_pos httl]
    exact .inl ⟨httl, rfl⟩
  rw [if_neg httl]
  right
  obtain ⟨hhead', hdata', hlen'⟩ := pkt.setTtl_fields (word % 2 ^ 8 - 1)
  obtain ⟨hlen, hpull⟩ | ⟨out, hpull, hhead, hdata, hlen⟩ :=
    pktPull_cases (pkt.setTtl (word % 2 ^ 8 - 1)) 4
  · rw [hlen'] at hlen
    rw [hpull]
    exact .inl ⟨hlen, rfl⟩
  rw [hpull]
  right
  dsimp only
  cases hnh : router.label (word / 2 ^ 12) with
  | none =>
    refine ⟨.invalidLabel, ?_⟩
    unfold mplsOutput
    rw [Int.toNat_natCast, hnh]
  | some nh =>
    rw [mplsOutput_eq rfl hnh, Option.bind_some]
    cases nh.tunnelType (word / 2 ^ 12) with
    | none => exact ⟨_, rfl⟩
    | some type =>
      exact ⟨nh, _, { out with multicast := false }, rfl, hhead.trans hhead',
        hdata.trans (congrArg (· + 4) hdata'), hlen.trans (congrArg (· - 4) hlen'), rfl⟩

/-! ## Reading the headers back -/

section

variable {label ttl : Nat} (qos : Option ForwardingClassQos)

theorem mplsWord_eq (hlabel : label < 2 ^ 20) (httl : ttl < 2 ^ 8) :
    ∃ e < 8, mplsWord label qos ttl = label * 2 ^ 12 + (e * 2 ^ 9 + (2 ^ 8 + ttl)) := by
  have hfields : ∀ e < 8, (label <<< 12) % 2 ^ 32 ||| e <<< 9 ||| 1 <<< 8 ||| ttl =
      label * 2 ^ 12 + (e * 2 ^ 9 + (2 ^ 8 + ttl)) := by
    intro e he
    have hlow : 1 <<< 8 ||| ttl = 2 ^ 8 + ttl := (Nat.two_pow_add_eq_or_of_lt httl 1).symm
    have hmid : e <<< 9 ||| (2 ^ 8 + ttl) = e * 2 ^ 9 + (2 ^ 8 + ttl) := by
      rw [Nat.shiftLeft_eq, Nat.mul_comm]
      exact (Nat.two_pow_add_eq_or_of_lt (by omega) e).symm
    have hhigh : label <<< 12 ||| (e * 2 ^ 9 + (2 ^ 8 + ttl)) =
        label * 2 ^ 12 + (e * 2 ^ 9 + (2 ^ 8 + ttl)) := by
      rw [Nat.shiftLeft_eq, Nat.mul_comm label]
      exact (Nat.two_pow_add_eq_or_of_lt (by omega) label).symm
    rw [Nat.mod_eq_of_lt (by rw [Nat.shiftLeft_eq]; omega), Nat.or_assoc, Nat.or_assoc, hlow, hmid,
      hhigh]
  cases qos with
  | none =>
    refine ⟨0, by decide, ?_⟩
    rw [← hfields 0 (by decide)]
    rfl
  | some q => exact ⟨q.vfcqMplsQos, q.vfcqMplsQos.isLt, hfields _ q.vfcqMplsQos.isLt⟩

theorem mplsWord_read (hlabel : label < 2 ^ 20) (httl : ttl < 2 ^ 8) :
    swap32 (swap32 (mplsWord label qos ttl)) / 2 ^ 12 = label ∧
      swap32 (swap32 (mplsWord label qos ttl)) % 2 ^ 8 = ttl := by
  obtain ⟨e, he, heq⟩ := mplsWord_eq qos hlabel httl
  rw [swap32_swap32 (by omega)]
  omega

theorem vnid_read {vnid : Nat} (hvnid : vnid < 2 ^ 24) :
    swap32 (swap32 (vnid <<< 8)) / 2 ^ 8 = vnid := by
  rw [swap32_swap32 (by omega)]
  omega

end

section

variable {host : PullHost} {pkt : TunnelPacket} (router : InputRouter) (fmd : ForwardingMd)

theorem vrMplsInput_eq {label ttl : Nat} {qos : Option ForwardingClassQos}
    (hword : load32 pkt.vpHead pkt.vpData = swap32 (mplsWord label qos ttl))
    (hlabel : label < 2 ^ 20) (httl : ttl < 2 ^ 8) (hmax : label < router.vrMaxLabels)
    (halive : 1 < ttl) (hlen : 4 ≤ pkt.vpLen) :
    ∃ (fmd' : ForwardingMd) (pkt' : TunnelPacket), fmd'.fmdLabel = label ∧
      pkt'.data = pkt.data.drop 4 ∧
      vrMplsInput router fmd pkt = mplsOutput router fmd' pkt' := by
  obtain ⟨hread, hread'⟩ := mplsWord_read qos hlabel httl
  obtain ⟨pulled, hpull, hdata⟩ := pktPull_data (show 4 ≤ (pkt.setTtl (ttl - 1)).vpLen from hlen)
  unfold vrMplsInput
  dsimp only
  rw [hword, hread, hread', if_neg (by omega), if_neg (by omega), hpull]
  exact ⟨_, pulled, rfl, hdata, rfl⟩

theorem vrVxlanInput_eq {vnid : Nat} (hflags : load32 pkt.vpHead pkt.vpData = swap32 0x08000000)
    (hword : load32 pkt.vpHead (pkt.vpData + 4) = swap32 (vnid <<< 8)) (hvnid : vnid < 2 ^ 24)
    (hlen : 8 ≤ pkt.vpLen) :
    ∃ (fmd' : ForwardingMd) (pkt' : TunnelPacket), fmd'.fmdLabel = vnid ∧
      pkt'.data = pkt.data.drop 8 ∧
      vrVxlanInput router fmd pkt = vxlanOutput router fmd' pkt' 0x08000000 := by
  have hibit : swap32 (swap32 0x08000000) = 0x08000000 := swap32_swap32 (by decide)
  unfold vrVxlanInput
  rw [hflags, hword, hibit, vnid_read hvnid, if_neg (by decide)]
  obtain ⟨pulled, hpull, hdata⟩ := pktPull_data hlen
  rw [hpull]
  exact ⟨_, pulled, rfl, hdata, rfl⟩

/-- The host hands a packet on as it came. -/
def PullHost.Passes (host : PullHost) (proto : Nat) (pkt : TunnelPacket) : Prop :=
  host.fast proto pkt = .slowPath ∧ ∃ pkt', host.slow proto pkt = .ok pkt' ∧ pkt'.data = pkt.data

theorem vrUdpInput_eq {dport : Nat} {encap : EncapType} (hpass : host.Passes protoUdp pkt)
    (hdport : load16 pkt.vpHead (pkt.vpData + 2) = swap16 dport) (hlt : dport < 2 ^ 16)
    (hencap : udpEncap dport = some encap) (hlen : 8 ≤ pkt.vpLen) :
    ∃ pkt', pkt'.data = pkt.data.drop 8 ∧
      vrUdpInput host router fmd pkt = encapInput router fmd encap pkt' := by
  obtain ⟨hfast, pkt', hslow, hdata⟩ := hpass
  have hlen' : pkt'.vpLen = pkt.vpLen := by
    rw [← TunnelPacket.data_length, hdata, TunnelPacket.data_length]
  unfold vrUdpInput
  rw [hfast]
  rw [if_neg (by omega), hdport, swap16_swap16 hlt, hencap]
  rw [hslow]
  refine ⟨pktPulled pkt' 8, ?_, rfl⟩
  rw [pktPulled_data (by omega), hdata]

theorem vrGreInput_eq (hpass : host.Passes protoGre pkt) (hflags : load16 pkt.vpHead pkt.vpData = 0)
    (hproto : load16 pkt.vpHead (pkt.vpData + 2) = swap16 0x8847) (hlen : 4 ≤ pkt.vpLen) :
    ∃ pkt', pkt'.data = pkt.data.drop 4 ∧
      vrGreInput host router fmd pkt = vrMplsInput router fmd pkt' := by
  obtain ⟨hfast, pkt', hslow, hdata⟩ := hpass
  have hlen' : pkt'.vpLen = pkt.vpLen := by
    rw [← TunnelPacket.data_length, hdata, TunnelPacket.data_length]
  unfold vrGreInput
  rw [hfast]
  rw [if_neg (by omega), hflags, hproto, swap16_swap16 (by decide)]
  simp only [Nat.zero_and, ne_eq, not_true_eq_false, if_false, hslow, Nat.add_zero]
  refine ⟨pktPulled pkt' 4, ?_, rfl⟩
  rw [pktPulled_data (by omega), hdata]

end

end VRouter
