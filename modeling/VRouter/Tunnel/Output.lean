import VRouter.Inet.HeaderChecksum
import VRouter.Tunnel.Packet

/-!
# VRouter — sending through a tunnel (`vr_nexthop.c`)

`nh_mpls_udp_tunnel`, `nh_gre_tunnel` and `nh_vxlan_tunnel_helper` push a label or a VXLAN header
and the outer headers in front of a packet. The model ends where the link header is added.

Each function that writes a header has a lemma that says what it pushed and what can be read there;
the packets the three functions send are described from these (`MplsUdp`, `MplsGre`, `VxlanUdp`).
-/

namespace VRouter

open Memory LongestMatch

/-! ## The outer IPv4 header -/

/-- The fields of an outer header that vary. -/
structure OuterIp where
  ipTos : Nat
  ipId : Nat
  ipTtl : Nat
  ipProto : Nat
  ipSaddr : Nat
  ipDaddr : Nat
  /-- In host order. -/
  ipLen : Nat

/-- The assignments to `ip` that the tunnels share; `ip_csum` is not one of them. -/
def writeOuterIp (m : Bytes) (ip : Nat) (h : OuterIp) : Bytes :=
  let m := store8 m ip (4 * 16 + 5)
  let m := store8 m (ip + 1) h.ipTos
  let m := store16 m (ip + 4) h.ipId
  let m := store16 m (ip + 6) 0
  let m := store8 m (ip + 8) h.ipTtl
  let m := store8 m (ip + 9) h.ipProto
  let m := store32 m (ip + 12) h.ipSaddr
  let m := store32 m (ip + 16) h.ipDaddr
  store16 m (ip + 2) (swap16 h.ipLen)

/-- `ip->ip_csum = 0; ip->ip_csum = vr_ip_csum(ip);` -/
def setIpCsum (m : Bytes) (ip : Nat) : Bytes :=
  store16 (vrIpCsum m ip).2 (ip + 10) (vrIpCsum m ip).1

section

variable {m : Bytes} {ip : Nat} {h : OuterIp}

variable {b : Nat}

theorem writeOuterIp_of_ne (hb : b < ip ∨ ip + 20 ≤ b) : writeOuterIp m ip h b = m b := by
  unfold writeOuterIp
  rw [store16_of_ne (by omega), store32_of_ne (by omega), store32_of_ne (by omega),
    store8_of_ne (by omega), store8_of_ne (by omega), store16_of_ne (by omega),
    store16_of_ne (by omega), store8_of_ne (by omega), store8_of_ne (by omega)]

theorem writeOuterIp_hl : ipHl (writeOuterIp m ip h) ip = 5 := by
  unfold writeOuterIp ipHl
  rw [load8_store16_of_ne (by omega), load8_store32_of_ne (by omega),
    load8_store32_of_ne (by omega), load8_store8_of_ne (by omega), load8_store8_of_ne (by omega),
    load8_store16_of_ne (by omega), load8_store16_of_ne (by omega), load8_store8_of_ne (by omega),
    load8_store8]

theorem writeOuterIp_proto : ipProto (writeOuterIp m ip h) ip = h.ipProto % 256 := by
  unfold writeOuterIp ipProto
  rw [load8_store16_of_ne (by omega), load8_store32_of_ne (by omega),
    load8_store32_of_ne (by omega), load8_store8]

theorem writeOuterIp_len : ipLen (writeOuterIp m ip h) ip = swap16 h.ipLen := by
  unfold writeOuterIp ipLen
  rw [load16_store16]
  exact Nat.mod_eq_of_lt (swap16_lt _)

theorem setIpCsum_of_ne (hb : b < ip + 10 ∨ ip + 12 ≤ b) : setIpCsum m ip b = m b := by
  unfold setIpCsum vrIpCsum
  dsimp only
  rw [store16_of_ne (by omega), store16_of_ne (by omega)]

theorem setIpCsum_valid (hl : 5 ≤ ipHl m ip) : IpCsumValid (setIpCsum m ip) ip := by
  have hcleared : (vrIpCsum m ip).2 = store16 m (ip + 10) 0 := rfl
  obtain ⟨hle, hcast⟩ := vrIpCsum_cast hl
  have hhl : ipHl (store16 m (ip + 10) 0) ip = ipHl m ip := ipHl_store16 (by omega)
  have hhl' : ipHl (setIpCsum m ip) ip = ipHl m ip := by
    unfold setIpCsum
    rw [hcleared, ipHl_store16 (by omega), hhl]
  have hsum : (headerSum (setIpCsum m ip) ip : ZMod 65535) = 0 := by
    unfold setIpCsum
    rw [hcleared, headerSum_csum (by omega) (by omega), headerSum_csum hl (by decide), hcast]
    have hread : ipCsum (store16 m (ip + 10) 0) ip = 0 := load16_store16
    rw [hread]
    ring
  exact (ipCsumValid_iff (by omega)).mpr hsum

end

/-! ## What the host and the configuration answer -/

/-- `struct vr_forwarding_class_qos`; `vfcq_mpls_qos` is a bit field of three bits. -/
structure ForwardingClassQos where
  vfcqDscp : Nat
  vfcqMplsQos : Fin 8

/-- What a tunnel function asks for while it handles one packet. -/
structure TunnelEnv where
  vrMudp : Bool
  vrPerfs : Bool
  /-- `vif_get_mtu` of the nexthop's device. -/
  mtu : Nat
  /-- `vr_pgso_size`, where the host has it. -/
  pgsoSize : Option Nat
  /-- `vr_pfrag_len`. -/
  pfragLen : Nat
  /-- `vr_pexpand_head` has memory. -/
  expands : Bool
  /-- `vr_get_udp_src_port`, where the host has it. -/
  udpSrcPort : Option (TunnelPacket → ForwardingMd → Nat)
  /-- `vr_qos_get_forwarding_class`. -/
  qos : TunnelPacket → ForwardingMd → Option ForwardingClassQos
  /-- `vr_generate_unique_ip_id`. -/
  uniqueIpId : Nat

/-- The tunnel data of a nexthop. -/
structure TunnelNexthop where
  nhGreTunSip : Nat
  nhGreTunDip : Nat
  nhGreTunEncapLen : Nat
  nhUdpTunSip : Nat
  nhUdpTunDip : Nat
  nhUdpTunEncapLen : Nat

/-- What becomes of a packet that is given to a tunnel nexthop. -/
inductive TunnelOutput where
  /-- Given to the device, with the outer headers in front. -/
  | sent (pkt : TunnelPacket)
  | dropped (reason : TunnelDrop)
  /-- Trapped with `AGENT_TRAP_HANDLE_DF`. -/
  | trapped (dfMtu : Int) (dfFlowIndex : Int)
  /-- Given to `vr_forward`. -/
  | forwarded

/-- `pkt_len`. -/
def pktLen (env : TunnelEnv) (pkt : TunnelPacket) : Nat := pkt.vpLen + env.pfragLen

/-- `vr_has_to_fragment`. -/
def vrHasToFragment (env : TunnelEnv) (pkt : TunnelPacket) (tunLen : Nat) : Bool :=
  let ip := pkt.vpNetworkH
  match env.pgsoSize.getD 0 with
  | 0 => pktLen env pkt + tunLen > env.mtu
  | len =>
    if len > env.mtu then true
    else
      -- the TCP header that follows the network header, if there is one
      let headers : Option (Nat × Option Nat) :=
        match pkt.vpType with
        | .ip =>
          some (ipHl pkt.vpHead ip * 4,
            if ipProto pkt.vpHead ip = protoTcp then some (transportHeader pkt.vpHead ip) else none)
        | .ip6 =>
          some (sizeofIp6, if ip6Nxt pkt.vpHead ip = protoTcp then some (ip + sizeofIp6) else none)
        | _ => none
      match headers with
      | none => false
      | some (hlen, tcp) =>
        let tcpLen := tcp.elim 0 fun tcp => swap16 (load16 pkt.vpHead (tcp + 12)) / 2 ^ 12 * 4
        decide ((len + hlen + tcpLen + (ip - pkt.vpData)) + tunLen > env.mtu)

/-- `vr_ip_dont_fragment_set`. -/
def vrIpDontFragmentSet (pkt : TunnelPacket) : Bool :=
  ipVersion pkt.vpHead pkt.vpNetworkH == 6 ||
    (swap16 (ipFragOff pkt.vpHead pkt.vpNetworkH)).testBit 14

/-- The check for packets that may not be fragmented. -/
def tunnelFragmentCheck (env : TunnelEnv) (fmd : ForwardingMd) (pkt : TunnelPacket)
    (overheadLen : Nat) : Option TunnelOutput :=
  if (pkt.vpType = .ip ∨ pkt.vpType = .ip6) ∧ vrHasToFragment env pkt overheadLen ∧
      vrIpDontFragmentSet pkt then
    if pkt.multicast then some (.dropped .mcastDfBit)
    else some (.trapped (env.mtu - (overheadLen + pkt.vpNetworkH - pkt.vpData)) fmd.fmdFlowIndex)
  else none

/-- `vr_pexpand_head`: the buffer gets longer at its start. -/
def vrPexpandHead (pkt : TunnelPacket) (hspace : Nat) : TunnelPacket :=
  { pkt with
    vpHead := fun b => if b < hspace then 0 else pkt.vpHead (b - hspace)
    vpData := pkt.vpData + hspace
    vpTail := pkt.vpTail + hspace
    vpEnd := pkt.vpEnd + hspace
    vpNetworkH := pkt.vpNetworkH + hspace
    vpInnerNetworkH := pkt.vpInnerNetworkH + hspace
    tail_eq := by have := pkt.tail_eq; omega }

/-- The head space a tunnel needs, by `vr_pexpand_head` where it is missing. -/
def reserveHeadSpace (env : TunnelEnv) (pkt : TunnelPacket) (space : Nat) : Option TunnelPacket :=
  if pkt.vpData < space then
    if env.expands then some (vrPexpandHead pkt (space - pkt.vpData)) else none
  else some pkt

/-- The UDP source port: that of the metadata, a hash of the inner headers, or a fixed one. -/
def tunnelSrcPort (env : TunnelEnv) (fmd : ForwardingMd) (pkt : TunnelPacket) (port : Nat) :
    Option Nat :=
  if fmd.fmdUdpSrcPort ≠ 0 then some fmd.fmdUdpSrcPort
  else
    match env.udpSrcPort with
    | none => some port
    | some hash => if hash pkt fmd = 0 then none else some (hash pkt fmd)

/-- The change of the packet type: an IP packet becomes an overlay packet, anything else an IP
packet. -/
def tunnelType : PacketType → PacketType
  | .ip => .ipoip
  | .ipoip => .ipoip
  | .ip6 => .ip6oip
  | .ip6oip => .ip6oip
  | _ => .ip

def TunnelPacket.retype (pkt : TunnelPacket) : TunnelPacket :=
  { pkt with vpType := tunnelType pkt.vpType }

/-- `vr_pkt_type_is_overlay`. -/
def vrPktTypeIsOverlay (type : PacketType) : Bool := type == .ipoip || type == .ip6oip

/-- `ip_tos` and `ip_ttl` of the outer header. -/
def tunnelTos (qos : Option ForwardingClassQos) : Nat := qos.elim 0 fun q => q.vfcqDscp * 2 ^ 2

def tunnelTtl (pkt : TunnelPacket) : Nat := if pkt.diag then pkt.vpTtl else 64

/-- `VR_IP_PROTO_GRE`. -/
def protoGre : Nat := 47

/-! ## Headers -/

/-- The label stack entry of `nh_push_mpls_header`. -/
def mplsWord (label : Nat) (qos : Option ForwardingClassQos) (ttl : Nat) : Nat :=
  let expQos := qos.elim 0 fun q => q.vfcqMplsQos.val <<< 9
  (label <<< 12) % 2 ^ 32 ||| expQos ||| 1 <<< 8 ||| ttl

/-- The TTL of `nh_push_mpls_header`. -/
def mplsTtl (pkt : TunnelPacket) : Nat := if pkt.vpTtl = 0 then 64 else pkt.vpTtl

/-- `nh_push_mpls_header`. -/
def nhPushMplsHeader (pkt : TunnelPacket) (label : Nat) (qos : Option ForwardingClassQos) :
    Option TunnelPacket := do
  let pkt ← pktPush pkt 4
  some (pkt.write fun m => store32 m pkt.vpData (swap32 (mplsWord label qos (mplsTtl pkt))))

/-- The assignments to `udp`; the ports are in network order. -/
def writeUdp (m : Bytes) (udp sport dport len : Nat) : Bytes :=
  let m := store16 m udp sport
  let m := store16 m (udp + 2) dport
  let m := store16 m (udp + 4) (swap16 len)
  store16 m (udp + 6) 0

/-- `nh_udp_tunnel_helper`. -/
def nhUdpTunnelHelper (env : TunnelEnv) (pkt : TunnelPacket) (sport dport sip dip : Nat)
    (qos : Option ForwardingClassQos) : Option TunnelPacket := do
  let pkt ← pktPush pkt 8
  let pkt := pkt.write fun m => writeUdp m pkt.vpData sport dport (pktLen env pkt)
  let pkt ← pktPush pkt 20
  some (pkt.write fun m => setIpCsum (writeOuterIp m pkt.vpData
    { ipTos := tunnelTos qos, ipId := swap16 env.uniqueIpId, ipTtl := tunnelTtl pkt,
      ipProto := protoUdp, ipSaddr := sip, ipDaddr := dip, ipLen := pktLen env pkt }) pkt.vpData)

/-- The VXLAN header, with `VR_VXLAN_IBIT`. -/
def writeVxlan (m : Bytes) (vxlanh label : Nat) : Bytes :=
  let m := store32 m (vxlanh + 4) (swap32 (label <<< 8))
  store32 m vxlanh (swap32 0x08000000)

/-- `nh_vxlan_tunnel_helper`. The first push cannot fail, as the head space is there. -/
def nhVxlanTunnelHelper (env : TunnelEnv) (fmd : ForwardingMd) (pkt : TunnelPacket)
    (sip dip : Nat) : Option TunnelPacket := do
  let pkt ← reserveHeadSpace env pkt (8 + 20 + 8)
  let udpSrcPort ← tunnelSrcPort env fmd pkt 52000
  let fmd := { fmd with labelIsVxlanId := true }
  let pkt ← pktPush pkt 8
  let pkt := pkt.write fun m => writeVxlan m pkt.vpData fmd.fmdLabel.toNat
  nhUdpTunnelHelper env pkt (swap16 udpSrcPort) (swap16 4789) sip dip (env.qos pkt fmd)

/-- `nh_mpls_udp_tunnel`, up to the link header. -/
def nhMplsUdpTunnel (env : TunnelEnv) (nh : TunnelNexthop) (fmd : ForwardingMd)
    (pkt : TunnelPacket) : TunnelOutput :=
  let tunSip := if env.vrMudp then nh.nhGreTunSip else nh.nhUdpTunSip
  let tunDip := if env.vrMudp then nh.nhGreTunDip else nh.nhUdpTunDip
  let tunEncapLen := if env.vrMudp then nh.nhGreTunEncapLen else nh.nhUdpTunEncapLen
  if fmd.fmdLabel < 0 then .forwarded
  else
    let fmd := { fmd with labelIsVxlanId := false }
    match tunnelSrcPort env fmd pkt 51000 with
    | none => .dropped .pull
    | some udpSrcPort =>
      match tunnelFragmentCheck env fmd pkt (4 + 20 + 8) with
      | some verdict => verdict
      | none =>
        match reserveHeadSpace env pkt (4 + 20 + 8 + tunEncapLen) with
        | none => .dropped .push
        | some pkt =>
          let qos := env.qos pkt fmd
          match nhPushMplsHeader pkt fmd.fmdLabel.toNat qos with
          | none => .dropped .push
          | some pkt =>
            match nhUdpTunnelHelper env pkt.retype (swap16 udpSrcPort) (swap16 51234) tunSip tunDip
                qos with
            | none => .dropped .push
            | some pkt => .sent (pktSetNetworkHeader pkt pkt.vpData)

/-- The GRE header of `nh_gre_tunnel`, for MPLS. -/
def writeGre (m : Bytes) (gre : Nat) : Bytes :=
  let m := store16 m gre 0
  store16 m (gre + 2) (swap16 0x8847)

/-- The part of `nh_gre_tunnel` that writes the GRE header and the outer header. The checksum of an
overlay packet is left to the function that transmits it. -/
def pushGreHeaders (env : TunnelEnv) (nh : TunnelNexthop) (pkt : TunnelPacket) (id : Nat)
    (qos : Option ForwardingClassQos) : Option TunnelPacket := do
  let pkt ← pktPush pkt 4
  let pkt := pkt.write fun m => writeGre m pkt.vpData
  let pkt ← pktPush pkt 20
  let pkt := (pktSetNetworkHeader pkt pkt.vpData).retype
  let pkt := pkt.write fun m => writeOuterIp m pkt.vpData
    { ipTos := tunnelTos qos, ipId := id, ipTtl := tunnelTtl pkt, ipProto := protoGre,
      ipSaddr := nh.nhGreTunSip, ipDaddr := nh.nhGreTunDip, ipLen := pktLen env pkt }
  some (if vrPktTypeIsOverlay pkt.vpType then pkt else pkt.write fun m => setIpCsum m pkt.vpData)

/-- `nh_gre_tunnel`, up to the link header. -/
def nhGreTunnel (env : TunnelEnv) (nh : TunnelNexthop) (fmd : ForwardingMd) (pkt : TunnelPacket) :
    TunnelOutput :=
  if env.vrMudp && env.vrPerfs then nhMplsUdpTunnel env nh fmd pkt
  else if fmd.fmdLabel < 0 then .forwarded
  else
    let fmd := { fmd with labelIsVxlanId := false }
    let id := if pkt.vpType = .ip then load16 pkt.vpHead (pkt.vpNetworkH + 4)
      else swap16 env.uniqueIpId
    match tunnelFragmentCheck env fmd pkt (4 + 20 + 4) with
    | some verdict => verdict
    | none =>
      match reserveHeadSpace env pkt (4 + 20 + 4 + nh.nhGreTunEncapLen) with
      | none => .dropped .headAllocFail
      | some pkt =>
        let qos := env.qos pkt fmd
        match nhPushMplsHeader pkt fmd.fmdLabel.toNat qos with
        | none => .dropped .invalidNh
        | some pkt =>
          match pushGreHeaders env nh pkt id qos with
          | none => .dropped .push
          | some pkt => .sent pkt

/-! ## What is pushed -/

variable {sport dport label n space sip dip : Nat} {h : OuterIp}

section

variable {env : TunnelEnv} {pkt out : TunnelPacket} {qos : Option ForwardingClassQos} {m : Bytes}
  {a : Nat}

variable {len : Nat}

theorem writeUdp_agree : AgreeFrom (a + 8) m (writeUdp m a sport dport len) := by
  exact (((AgreeFrom.store16 (by omega) _).trans (AgreeFrom.store16 (by omega) _)).trans
    (AgreeFrom.store16 (by omega) _)).trans (AgreeFrom.store16 (by omega) _)

theorem writeUdp_dport (hd : dport < 2 ^ 16) :
    load16 (writeUdp m a sport dport len) (a + 2) = dport := by
  unfold writeUdp
  rw [load16_store16_of_ne (by omega), load16_store16_of_ne (by omega), load16_store16]
  exact Nat.mod_eq_of_lt hd

theorem writeUdp_len : load16 (writeUdp m a sport dport len) (a + 4) = swap16 len := by
  unfold writeUdp
  rw [load16_store16_of_ne (by omega), load16_store16]
  exact Nat.mod_eq_of_lt (swap16_lt _)

theorem writeGre_agree : AgreeFrom (a + 4) m (writeGre m a) := by
  exact (AgreeFrom.store16 (by omega) _).trans (AgreeFrom.store16 (by omega) _)

theorem writeGre_flags : load16 (writeGre m a) a = 0 := by
  unfold writeGre
  rw [load16_store16_of_ne (by omega), load16_store16]

theorem writeGre_proto : load16 (writeGre m a) (a + 2) = swap16 0x8847 := by
  unfold writeGre
  rw [load16_store16]
  exact Nat.mod_eq_of_lt (swap16_lt _)

theorem writeVxlan_flags : load32 (writeVxlan m a label) a = swap32 0x08000000 := by
  unfold writeVxlan
  rw [load32_store32]
  exact Nat.mod_eq_of_lt (swap32_lt _)

theorem writeVxlan_vnid : load32 (writeVxlan m a label) (a + 4) = swap32 (label <<< 8) := by
  unfold writeVxlan
  rw [load32_store32_of_ne (by omega), load32_store32]
  exact Nat.mod_eq_of_lt (swap32_lt _)

theorem writeVxlan_agree : AgreeFrom (a + 8) m (writeVxlan m a label) := by
  exact (AgreeFrom.store32 (by omega) _).trans (AgreeFrom.store32 (by omega) _)

theorem writeOuterIp_agree : AgreeFrom (a + 20) m (writeOuterIp m a h) :=
  fun _ hb => writeOuterIp_of_ne (.inr hb)

theorem setIpCsum_agree : AgreeFrom (a + 20) m (setIpCsum m a) :=
  fun _ hb => setIpCsum_of_ne (by omega)

theorem reserveHeadSpace_data (h : reserveHeadSpace env pkt space = some out) :
    out.data = pkt.data ∧ out.vpTtl = pkt.vpTtl ∧ out.vpType = pkt.vpType := by
  unfold reserveHeadSpace at h
  split at h
  · split at h
    · cases h
      refine ⟨?_, rfl, rfl⟩
      apply bytesAt_congr
      intro i _
      dsimp only [vrPexpandHead]
      rw [if_neg (by omega)]
      congr 1
      omega
    · cases h
  · cases h
    exact ⟨rfl, rfl, rfl⟩

theorem Pushed.setNetworkHeader (h : Pushed n pkt out) (off : Nat) :
    Pushed n pkt (pktSetNetworkHeader out off) := { h with }

theorem Pushed.retype (h : Pushed n pkt out) : Pushed n pkt out.retype := { h with }

theorem Pushed.of_retype (h : Pushed n pkt.retype out) : Pushed n pkt out := { h with }

theorem nhPushMplsHeader_spec (h : nhPushMplsHeader pkt label qos = some out) :
    Pushed 4 pkt out ∧ out.vpType = pkt.vpType ∧
      load32 out.vpHead out.vpData = swap32 (mplsWord label qos (mplsTtl pkt)) := by
  obtain ⟨mid, hpush, hout⟩ := Option.bind_eq_some_iff.mp h
  have hmid := pktPush_pushed hpush
  have httl : mplsTtl mid = mplsTtl pkt := by
    unfold mplsTtl
    rw [hmid.ttl]
  cases hout
  refine ⟨hmid.write (AgreeFrom.store32 (by omega) _), (pktPush_vpType hpush :), ?_⟩
  rw [TunnelPacket.write_vpHead, TunnelPacket.write_vpData, load32_store32, httl]
  exact Nat.mod_eq_of_lt (swap32_lt _)

end

/-! ## What can be read from the headers -/

/-- The outer IPv4 header of `total` bytes. -/
structure OuterHeader (proto total : Nat) (m : Bytes) (ip : Nat) : Prop where
  hl : ipHl m ip = 5
  proto : ipProto m ip = proto
  len : ipLen m ip = swap16 total

section

variable {env : TunnelEnv} {pkt out : TunnelPacket} {qos : Option ForwardingClassQos}
  {m m' : Bytes} {ip ip' proto total : Nat}

theorem OuterHeader.copies (h : OuterHeader proto total m ip) (hc : Copies 10 m ip m' ip') :
    OuterHeader proto total m' ip' where
  hl := by
    have hbyte : load8 m' ip' = load8 m ip := hc.load8 (i := 0) (by omega)
    unfold ipHl
    rw [hbyte]
    exact h.hl
  proto := (hc.load8 (by omega)).trans h.proto
  len := (hc.load16 (by omega)).trans h.len

theorem OuterHeader.written (hproto : h.ipProto % 256 = proto) (hlen : h.ipLen = total) :
    OuterHeader proto total (writeOuterIp m ip h) ip :=
  ⟨writeOuterIp_hl, writeOuterIp_proto.trans hproto, writeOuterIp_len.trans (by rw [hlen])⟩

theorem OuterHeader.setCsum (h : OuterHeader proto total m ip) :
    OuterHeader proto total (setIpCsum m ip) ip :=
  h.copies fun i hi => setIpCsum_of_ne (.inl (by omega))

/-- The UDP header stays readable behind what is pushed in front of it. -/
theorem Pushed.udp {udp : TunnelPacket} (hd : dport < 2 ^ 16) (hpush : pktPush pkt 8 = some udp)
    (hout : Pushed n (udp.write fun m => writeUdp m udp.vpData sport dport (pktLen env udp)) out) :
    Pushed (8 + n) pkt out ∧ load16 out.vpHead (out.vpData + (n + 2)) = dport ∧
      load16 out.vpHead (out.vpData + (n + 4)) = swap16 (pktLen env out - n) := by
  have hudp := (pktPush_pushed hpush).write (f := fun m =>
    writeUdp m udp.vpData sport dport (pktLen env udp)) writeUdp_agree
  have hdata : out.vpData + n = udp.vpData := hout.data
  have hlen : out.vpLen = udp.vpLen + n := hout.len
  have htotal : pktLen env out - n = pktLen env udp := by
    unfold pktLen
    omega
  refine ⟨hudp.trans hout, ?_, ?_⟩
  · rw [← Nat.add_assoc, hdata, hout.agree.load16 (by simp)]
    exact writeUdp_dport hd
  · rw [← Nat.add_assoc, hdata, hout.agree.load16 (by simp), htotal]
    exact writeUdp_len

theorem nhUdpTunnelHelper_spec (hd : dport < 2 ^ 16)
    (h : nhUdpTunnelHelper env pkt sport dport sip dip qos = some out) :
    Pushed 28 pkt out ∧ OuterHeader protoUdp (pktLen env out) out.vpHead out.vpData ∧
      IpCsumValid out.vpHead out.vpData ∧ load16 out.vpHead (out.vpData + 22) = dport ∧
      load16 out.vpHead (out.vpData + 24) = swap16 (pktLen env out - 20) := by
  obtain ⟨udp, hpush, h⟩ := Option.bind_eq_some_iff.mp h
  obtain ⟨ip, hpush', h⟩ := Option.bind_eq_some_iff.mp h
  have hout : Pushed 20 (udp.write fun m => writeUdp m udp.vpData sport dport (pktLen env udp))
      out := by
    cases h
    exact (pktPush_pushed hpush').write (writeOuterIp_agree.trans setIpCsum_agree)
  obtain ⟨hpushed, hdport, hlen⟩ := hout.udp hd hpush
  cases h
  exact ⟨hpushed, OuterHeader.setCsum (OuterHeader.written rfl rfl),
    setIpCsum_valid (Nat.le_of_eq writeOuterIp_hl.symm), hdport, hlen⟩

theorem pushGreHeaders_spec {nh : TunnelNexthop} {id : Nat}
    (h : pushGreHeaders env nh pkt id qos = some out) :
    Pushed 24 pkt out ∧ out.vpType = tunnelType pkt.vpType ∧
      OuterHeader protoGre (pktLen env out) out.vpHead out.vpData ∧
      (vrPktTypeIsOverlay out.vpType = false → IpCsumValid out.vpHead out.vpData) ∧
      load16 out.vpHead (out.vpData + 20) = 0 ∧
      load16 out.vpHead (out.vpData + 22) = swap16 0x8847 := by
  obtain ⟨gre, hpush, h⟩ := Option.bind_eq_some_iff.mp h
  obtain ⟨ip, hpush', h⟩ := Option.bind_eq_some_iff.mp h
  have hgre := (pktPush_pushed hpush).write (f := fun m => writeGre m gre.vpData) writeGre_agree
  have hip := ((pktPush_pushed hpush').setNetworkHeader ip.vpData).retype
  have htype : ip.vpType = pkt.vpType := by
    rw [pktPush_vpType hpush', TunnelPacket.write_vpType, pktPush_vpType hpush]
  have hout : Pushed 20 (gre.write fun m => writeGre m gre.vpData) out ∧
      out.vpType = tunnelType ip.vpType ∧
      OuterHeader protoGre (pktLen env out) out.vpHead out.vpData ∧
      (vrPktTypeIsOverlay out.vpType = false → IpCsumValid out.vpHead out.vpData) := by
    dsimp only at h
    split at h
    · next hoverlay =>
      cases h
      exact ⟨hip.write writeOuterIp_agree, rfl, OuterHeader.written rfl rfl, fun hnot =>
        absurd (hoverlay.symm.trans hnot) (by decide)⟩
    · cases h
      refine ⟨(hip.write writeOuterIp_agree).write setIpCsum_agree, rfl, ?_, fun _ => ?_⟩
      · exact OuterHeader.setCsum (OuterHeader.written rfl rfl)
      · exact setIpCsum_valid (Nat.le_of_eq writeOuterIp_hl.symm)
  obtain ⟨hout, htype', houter, hvalid⟩ := hout
  have hdata : out.vpData + 20 = gre.vpData := hout.data
  refine ⟨hgre.trans hout, htype'.trans (by rw [htype]), houter, hvalid, ?_, ?_⟩
  · rw [hdata, hout.agree.load16 (by simp)]
    exact writeGre_flags
  · have hread := hout.agree.load16 (b := gre.vpData + 2) (by simp)
    rw [← hdata] at hread
    rw [hread]
    exact writeGre_proto

end

/-- MPLS over UDP: the label `label` with a TTL, in a packet of `total` bytes. -/
structure MplsUdp (label ttl total : Nat) (m : Bytes) (ip : Nat) : Prop extends
    OuterHeader protoUdp total m ip where
  dport : load16 m (ip + 22) = swap16 51234
  udpLen : load16 m (ip + 24) = swap16 (total - 20)
  word : ∃ qos, load32 m (ip + 28) = swap32 (mplsWord label qos ttl)

/-- MPLS over GRE. -/
structure MplsGre (label ttl total : Nat) (m : Bytes) (ip : Nat) : Prop extends
    OuterHeader protoGre total m ip where
  flags : load16 m (ip + 20) = 0
  greProto : load16 m (ip + 22) = swap16 0x8847
  word : ∃ qos, load32 m (ip + 24) = swap32 (mplsWord label qos ttl)

/-- VXLAN. -/
structure VxlanUdp (vnid total : Nat) (m : Bytes) (ip : Nat) : Prop extends
    OuterHeader protoUdp total m ip where
  dport : load16 m (ip + 22) = swap16 4789
  udpLen : load16 m (ip + 24) = swap16 (total - 20)
  flags : load32 m (ip + 28) = swap32 0x08000000
  vnid : load32 m (ip + 32) = swap32 (vnid <<< 8)

/-- Behind the first `n` bytes of `out` is what `pkt` holds. -/
structure Encapsulates (n : Nat) (pkt out : TunnelPacket) : Prop where
  room : n ≤ out.vpLen
  inner : out.data.drop n = pkt.data

section

variable {env : TunnelEnv} {nh : TunnelNexthop} {fmd : ForwardingMd} {pkt mid out : TunnelPacket}

theorem Pushed.encapsulates (h : Pushed n pkt out) : Encapsulates n pkt out :=
  ⟨by have := h.len; omega, h.drop_data⟩

theorem Encapsulates.of_data (h : Encapsulates n mid out) (hdata : mid.data = pkt.data) :
    Encapsulates n pkt out :=
  ⟨h.room, h.inner.trans hdata⟩

theorem encapsulates_label {room lbl : TunnelPacket} {qos : Option ForwardingClassQos}
    (hroom : reserveHeadSpace env pkt space = some room)
    (hlbl : nhPushMplsHeader room label qos = some lbl) (hout : Pushed n lbl out) :
    (∃ qos, load32 out.vpHead (out.vpData + n) = swap32 (mplsWord label qos (mplsTtl pkt))) ∧
      Encapsulates (4 + n) pkt out := by
  obtain ⟨hdata, httl, -⟩ := reserveHeadSpace_data hroom
  obtain ⟨hpush, -, hword⟩ := nhPushMplsHeader_spec hlbl
  have httl' : mplsTtl room = mplsTtl pkt := by
    unfold mplsTtl
    rw [httl]
  constructor
  · use qos
    rw [hout.data, hout.agree.load32 (Nat.le_refl _), hword, httl']
  · exact (hpush.trans hout).encapsulates.of_data hdata

/-- The check for packets that may not be fragmented never sends. -/
theorem tunnelFragmentCheck_ne_sent {overheadLen : Nat} :
    tunnelFragmentCheck env fmd pkt overheadLen ≠ some (.sent out) := by
  unfold tunnelFragmentCheck
  split
  · split <;> simp
  · simp

theorem nhMplsUdpTunnel_spec (h : nhMplsUdpTunnel env nh fmd pkt = .sent out) :
    ∃ label : Nat, fmd.fmdLabel = label ∧
      MplsUdp label (mplsTtl pkt) (pktLen env out) out.vpHead out.vpData ∧
      IpCsumValid out.vpHead out.vpData ∧ Encapsulates 32 pkt out := by
  unfold nhMplsUdpTunnel at h
  dsimp only at h
  split at h
  · cases h
  next hlabel =>
  split at h
  · cases h
  split at h
  · next verdict hcheck => exact absurd (h ▸ hcheck) tunnelFragmentCheck_ne_sent
  split at h
  · cases h
  next room hroom =>
  split at h
  · cases h
  next lbl hlbl =>
  split at h
  · cases h
  next sent hsent =>
  obtain ⟨hudp, houter, hvalid, hdport, hlen⟩ := nhUdpTunnelHelper_spec (swap16_lt _) hsent
  cases h
  obtain ⟨hword, hencap⟩ := encapsulates_label hroom hlbl
    (hudp.of_retype.setNetworkHeader sent.vpData)
  exact ⟨fmd.fmdLabel.toNat, by omega, ⟨houter, hdport, hlen, hword⟩, hvalid, hencap⟩

theorem nhGreTunnel_spec (hudp : (env.vrMudp && env.vrPerfs) = false)
    (h : nhGreTunnel env nh fmd pkt = .sent out) :
    ∃ label : Nat, fmd.fmdLabel = label ∧
      MplsGre label (mplsTtl pkt) (pktLen env out) out.vpHead out.vpData ∧
      Encapsulates 28 pkt out ∧ out.vpType = tunnelType pkt.vpType ∧
      (vrPktTypeIsOverlay out.vpType = false → IpCsumValid out.vpHead out.vpData) := by
  unfold nhGreTunnel at h
  dsimp only at h
  rw [hudp, if_neg (by decide)] at h
  split at h
  · cases h
  next hlabel =>
  split at h
  · next verdict hcheck => exact absurd (h ▸ hcheck) tunnelFragmentCheck_ne_sent
  split at h
  · cases h
  next room hroom =>
  split at h
  · cases h
  next lbl hlbl =>
  split at h
  · cases h
  next sent hsent =>
  cases h
  obtain ⟨hout, htype, houter, hvalid, hflags, hproto⟩ := pushGreHeaders_spec hsent
  obtain ⟨hword, hencap⟩ := encapsulates_label hroom hlbl hout
  have htype' : lbl.vpType = pkt.vpType :=
    (nhPushMplsHeader_spec hlbl).2.1.trans (reserveHeadSpace_data hroom).2.2
  exact ⟨fmd.fmdLabel.toNat, by omega, ⟨houter, hflags, hproto, hword⟩, hencap,
    htype.trans (by rw [htype']), hvalid⟩

theorem nhVxlanTunnelHelper_spec (h : nhVxlanTunnelHelper env fmd pkt sip dip = some out) :
    VxlanUdp fmd.fmdLabel.toNat (pktLen env out) out.vpHead out.vpData ∧
      IpCsumValid out.vpHead out.vpData ∧ Encapsulates 36 pkt out := by
  obtain ⟨room, hroom, h⟩ := Option.bind_eq_some_iff.mp h
  obtain ⟨port, -, h⟩ := Option.bind_eq_some_iff.mp h
  obtain ⟨vxlan, hpush, h⟩ := Option.bind_eq_some_iff.mp h
  have hvxlan := (pktPush_pushed hpush).write (f := fun m =>
    writeVxlan m vxlan.vpData fmd.fmdLabel.toNat) writeVxlan_agree
  obtain ⟨hout, houter, hvalid, hdport, hlen⟩ := nhUdpTunnelHelper_spec (swap16_lt _) h
  have hdata : out.vpData + 28 = vxlan.vpData := hout.data
  have hflags : load32 out.vpHead (out.vpData + 28) = swap32 0x08000000 := by
    rw [hdata, hout.agree.load32 (by simp)]
    exact writeVxlan_flags
  have hvnid : load32 out.vpHead (out.vpData + 32) = swap32 (fmd.fmdLabel.toNat <<< 8) := by
    have hread := hout.agree.load32 (b := vxlan.vpData + 4) (by simp)
    rw [← hdata] at hread
    rw [hread]
    exact writeVxlan_vnid
  exact ⟨⟨houter, hdport, hlen, hflags, hvnid⟩, hvalid,
    (hvxlan.trans hout).encapsulates.of_data (reserveHeadSpace_data hroom).1⟩

end

end VRouter
