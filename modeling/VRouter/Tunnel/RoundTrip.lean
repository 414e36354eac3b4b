import VRouter.Tunnel.Input
import VRouter.Tunnel.Transmit

/-!
# VRouter — through a tunnel and out again

The two sides meet at what the headers of a packet say (`MplsUdp`, `MplsGre`, `VxlanUdp`): the
sending functions write such headers, and the receiving functions find the label and the inner
packet behind them, wherever the bytes have been put (`Received`).
-/

namespace VRouter

open Memory LongestMatch TunnelPacket

/-! ## Receiving what the headers say -/

/-- `rx` holds the bytes of `w` and its fragments, and is for this host. -/
structure Received (host : PullHost) (router : InputRouter) (w : TunnelPacket) (frags : List Octet)
    (rx : TunnelPacket) : Prop where
  data : rx.data = w.data ++ frags
  toMe : (rx.vpNh.isSome || router.myip (ipDaddr rx.vpHead rx.vpData)) = true
  passes : host.Passes (ipProto rx.vpHead rx.vpData) (pktPulled rx 20)

section

variable {host : PullHost} {router : InputRouter} (fmd : ForwardingMd) {pkt w rx : TunnelPacket}
  {frags : List Octet} {proto total n : Nat}

theorem length_of_drop {k : Nat} (h : rx.data = (w.data ++ frags).drop k) :
    rx.vpLen = w.vpLen + frags.length - k := by
  have hlen := congrArg List.length h
  simpa using hlen

section

variable (h : Received host router w frags rx)
include h

theorem Received.rest (houter : OuterHeader proto total w.vpHead w.vpData) (hlen : 20 ≤ w.vpLen) :
    (pktPulled rx 20).data = (w.data ++ frags).drop 20 ∧
      host.Passes proto (pktPulled rx 20) ∧
      (proto = protoGre →
        vrIpRcv host router fmd rx = vrGreInput host router fmd (pktPulled rx 20)) ∧
      (proto = protoUdp →
        vrIpRcv host router fmd rx = vrUdpInput host router fmd (pktPulled rx 20)) := by
  have hcopies : Copies 10 w.vpHead w.vpData rx.vpHead rx.vpData :=
    copies_of_drop (k := 0) h.data (by omega)
  have houter' := houter.copies hcopies
  have hlen' : rx.vpLen = w.vpLen + frags.length - 0 := length_of_drop h.data
  have hpass := h.passes
  rw [houter'.proto] at hpass
  refine ⟨by rw [pktPulled_data (by omega), h.data], hpass, ?_, ?_⟩
  · intro hproto
    unfold vrIpRcv
    rw [houter'.hl, houter'.proto, hproto, if_pos h.toMe, if_pos rfl]
  · intro hproto
    unfold vrIpRcv
    rw [houter'.hl, houter'.proto, hproto, if_pos h.toMe, if_neg (by decide), if_pos rfl]

theorem Received.udp {dport : Nat} {encap : EncapType}
    (houter : OuterHeader protoUdp total w.vpHead w.vpData)
    (hdport : load16 w.vpHead (w.vpData + 22) = swap16 dport) (hlt : dport < 2 ^ 16)
    (hencap : udpEncap dport = some encap) (hlen : 28 ≤ w.vpLen) :
    ∃ mid : TunnelPacket, mid.data = (w.data ++ frags).drop 28 ∧
      vrIpRcv host router fmd rx = encapInput router fmd encap mid := by
  obtain ⟨hdata, hpass, -, hrcv⟩ := h.rest fmd houter (by omega)
  have hcopies : Copies 8 w.vpHead (w.vpData + 20) (pktPulled rx 20).vpHead
      (pktPulled rx 20).vpData :=
    copies_of_drop hdata (by omega)
  have hlen' := length_of_drop hdata
  obtain ⟨mid, hmid, hudp⟩ := vrUdpInput_eq router fmd hpass
    ((hcopies.load16 (by omega)).trans hdport) hlt hencap (by omega)
  rw [hdata, List.drop_drop] at hmid
  exact ⟨mid, hmid, (hrcv rfl).trans hudp⟩

theorem Received.gre (houter : OuterHeader protoGre total w.vpHead w.vpData)
    (hflags : load16 w.vpHead (w.vpData + 20) = 0)
    (hproto : load16 w.vpHead (w.vpData + 22) = swap16 0x8847) (hlen : 24 ≤ w.vpLen) :
    ∃ mid : TunnelPacket, mid.data = (w.data ++ frags).drop 24 ∧
      vrIpRcv host router fmd rx = vrMplsInput router fmd mid := by
  obtain ⟨hdata, hpass, hrcv, -⟩ := h.rest fmd houter (by omega)
  have hcopies : Copies 4 w.vpHead (w.vpData + 20) (pktPulled rx 20).vpHead
      (pktPulled rx 20).vpData :=
    copies_of_drop hdata (by omega)
  have hlen' := length_of_drop hdata
  obtain ⟨mid, hmid, hgre⟩ := vrGreInput_eq router fmd hpass
    ((hcopies.load16 (i := 0) (by omega)).trans hflags)
    ((hcopies.load16 (by omega)).trans hproto) (by omega)
  rw [hdata, List.drop_drop] at hmid
  exact ⟨mid, hmid, (hrcv rfl).trans hgre⟩

end

theorem Encapsulates.drop_append (h : Encapsulates n pkt w) (frags : List Octet) :
    (w.data ++ frags).drop n = pkt.data ++ frags := by
  rw [List.drop_append_of_le_length (by rw [data_length]; exact h.room), h.inner]

theorem vrMplsInput_received {label ttl k : Nat} {mid : TunnelPacket}
    (hword : ∃ qos, load32 w.vpHead (w.vpData + k) = swap32 (mplsWord label qos ttl))
    (hencap : Encapsulates (k + 4) pkt w) (hmid : mid.data = (w.data ++ frags).drop k)
    (hlabel : label < 2 ^ 20) (httl : ttl < 2 ^ 8) (halive : 1 < ttl)
    (hmax : label < router.vrMaxLabels) :
    ∃ (fmd' : ForwardingMd) (pkt' : TunnelPacket), fmd'.fmdLabel = label ∧
      pkt'.data = pkt.data ++ frags ∧
      vrMplsInput router fmd mid = mplsOutput router fmd' pkt' := by
  have hroom := hencap.room
  obtain ⟨qos, hword⟩ := hword
  have hcopies : Copies 4 w.vpHead (w.vpData + k) mid.vpHead mid.vpData :=
    copies_of_drop hmid hroom
  have hread : load32 mid.vpHead mid.vpData = swap32 (mplsWord label qos ttl) :=
    (hcopies.load32 (i := 0) (by omega)).trans hword
  have hlen := length_of_drop hmid
  obtain ⟨fmd', pkt', hfmd, hdata, heq⟩ := vrMplsInput_eq router fmd hread hlabel httl hmax halive
    (by omega)
  refine ⟨fmd', pkt', hfmd, ?_, heq⟩
  rw [hdata, hmid, List.drop_drop, hencap.drop_append]

end

/-! ## Delivery -/

/-- Where the bytes of `w` and its fragments are received, the nexthop of `label` gets `inner`. -/
def DeliversMpls (w : TunnelPacket) (frags : List Octet) (label : Nat) (inner : List Octet) :
    Prop :=
  ∀ (host : PullHost) (router : InputRouter) (fmd : ForwardingMd) (rx : TunnelPacket),
    Received host router w frags rx → label < router.vrMaxLabels →
    ∃ (fmd' : ForwardingMd) (pkt' : TunnelPacket), fmd'.fmdLabel = label ∧ pkt'.data = inner ∧
      vrIpRcv host router fmd rx = mplsOutput router fmd' pkt'

/-- The nexthop of the VXLAN identifier `vnid` gets `inner`. -/
def DeliversVxlan (w : TunnelPacket) (frags : List Octet) (vnid : Nat) (inner : List Octet) :
    Prop :=
  ∀ (host : PullHost) (router : InputRouter) (fmd : ForwardingMd) (rx : TunnelPacket),
    Received host router w frags rx →
    ∃ (fmd' : ForwardingMd) (pkt' : TunnelPacket), fmd'.fmdLabel = vnid ∧ pkt'.data = inner ∧
      vrIpRcv host router fmd rx = vxlanOutput router fmd' pkt' 0x08000000

/-- The lengths in the outer headers are those of the packet. -/
def OuterLengths (w : TunnelPacket) (frags : List Octet) : Prop :=
  swap16 (ipLen w.vpHead w.vpData) = (w.data ++ frags).length ∧
    (ipProto w.vpHead w.vpData = protoUdp →
      swap16 (load16 w.vpHead (w.vpData + 24)) = (w.data ++ frags).length - 20)

section

variable {pkt w : TunnelPacket} {frags : List Octet} {label ttl total : Nat}

theorem MplsUdp.delivers (h : MplsUdp label ttl total w.vpHead w.vpData)
    (hencap : Encapsulates 32 pkt w) (hlabel : label < 2 ^ 20) (httl : ttl < 2 ^ 8)
    (halive : 1 < ttl) : DeliversMpls w frags label (pkt.data ++ frags) := by
  intro host router fmd rx hrx hmax
  have hroom := hencap.room
  have hport : udpEncap 51234 = some .mpls := rfl
  obtain ⟨mid, hmid, hudp⟩ := hrx.udp fmd h.toOuterHeader h.dport (by decide) hport (by omega)
  obtain ⟨fmd', pkt', hfmd, hinner, heq⟩ := vrMplsInput_received fmd h.word hencap hmid hlabel httl
    halive hmax
  exact ⟨fmd', pkt', hfmd, hinner, hudp.trans heq⟩

theorem MplsGre.delivers (h : MplsGre label ttl total w.vpHead w.vpData)
    (hencap : Encapsulates 28 pkt w) (hlabel : label < 2 ^ 20) (httl : ttl < 2 ^ 8)
    (halive : 1 < ttl) : DeliversMpls w frags label (pkt.data ++ frags) := by
  intro host router fmd rx hrx hmax
  have hroom := hencap.room
  obtain ⟨mid, hmid, hgre⟩ := hrx.gre fmd h.toOuterHeader h.flags h.greProto (by omega)
  obtain ⟨fmd', pkt', hfmd, hinner, heq⟩ := vrMplsInput_received fmd h.word hencap hmid hlabel httl
    halive hmax
  exact ⟨fmd', pkt', hfmd, hinner, hgre.trans heq⟩

theorem VxlanUdp.delivers {vnid : Nat} (h : VxlanUdp vnid total w.vpHead w.vpData)
    (hencap : Encapsulates 36 pkt w) (hvnid : vnid < 2 ^ 24) :
    DeliversVxlan w frags vnid (pkt.data ++ frags) := by
  intro host router fmd rx hrx
  have hroom := hencap.room
  have hport : udpEncap 4789 = some .vxlan := rfl
  obtain ⟨mid, hmid, hudp⟩ := hrx.udp fmd h.toOuterHeader h.dport (by decide) hport (by omega)
  have hcopies : Copies 8 w.vpHead (w.vpData + 28) mid.vpHead mid.vpData :=
    copies_of_drop hmid (by omega)
  have hlen := length_of_drop hmid
  obtain ⟨fmd', pkt', hfmd, hdata, heq⟩ := vrVxlanInput_eq router fmd
    ((hcopies.load32 (i := 0) (by omega)).trans h.flags)
    ((hcopies.load32 (by omega)).trans h.vnid) hvnid (by omega)
  refine ⟨fmd', pkt', hfmd, ?_, hudp.trans heq⟩
  rw [hdata, hmid, List.drop_drop, hencap.drop_append]

end

/-! ## Lengths -/

section

variable {env : TunnelEnv} {out : TunnelPacket} {frags : List Octet}

theorem pktLen_eq (hfrags : env.pfragLen = frags.length) :
    pktLen env out = (out.data ++ frags).length := by
  unfold pktLen
  rw [hfrags, List.length_append, data_length]

/-- Lengths that fit the 16 bits of their fields are those of the packet. -/
theorem OuterHeader.lengths {proto : Nat}
    (h : OuterHeader proto (pktLen env out) out.vpHead out.vpData)
    (hfrags : env.pfragLen = frags.length) (hfits : (out.data ++ frags).length < 2 ^ 16)
    (hudp : proto = protoUdp → load16 out.vpHead (out.vpData + 24) = swap16 (pktLen env out - 20)) :
    OuterLengths out frags := by
  constructor
  · rw [h.len, pktLen_eq hfrags, swap16_swap16 hfits]
  · intro hproto
    rw [hudp (h.proto.symm.trans hproto), pktLen_eq hfrags, swap16_swap16 (by omega)]

end

/-! ## Round trips -/

/-- `w` says how long it is, and what it carries arrives unless its TTL ends there. -/
structure CarriesMpls (pkt : TunnelPacket) (frags : List Octet) (label : Nat) (w : TunnelPacket) :
    Prop where
  lengths : OuterLengths w frags
  delivers : pkt.vpTtl ≠ 1 → DeliversMpls w frags label (pkt.data ++ frags)

section

variable {env : TunnelEnv} {nh : TunnelNexthop} {fmd : ForwardingMd} {pkt out : TunnelPacket}
  {frags : List Octet} {label : Nat}

theorem mplsTtl_bounds (pkt : TunnelPacket) :
    mplsTtl pkt < 2 ^ 8 ∧ (pkt.vpTtl ≠ 1 → 1 < mplsTtl pkt) := by
  have hlt := pkt.ttl_lt
  unfold mplsTtl
  split
  · exact ⟨by decide, fun _ => by decide⟩
  · exact ⟨hlt, by omega⟩

theorem length_xmit {w : TunnelPacket} (h : w.vpLen = out.vpLen) :
    (w.data ++ frags).length = (out.data ++ frags).length := by
  simp [h]

section

variable (hfrags : env.pfragLen = frags.length) (hfits : (out.data ++ frags).length < 2 ^ 16)
  (hlabel : label < 2 ^ 20)
include hfrags hfits hlabel

theorem MplsUdp.carries (h : MplsUdp label (mplsTtl pkt) (pktLen env out) out.vpHead out.vpData)
    (hencap : Encapsulates 32 pkt out) : CarriesMpls pkt frags label out where
  lengths := h.toOuterHeader.lengths hfrags hfits fun _ => h.udpLen
  delivers hne := h.delivers hencap hlabel (mplsTtl_bounds pkt).1 ((mplsTtl_bounds pkt).2 hne)

theorem MplsGre.carries (h : MplsGre label (mplsTtl pkt) (pktLen env out) out.vpHead out.vpData)
    (hencap : Encapsulates 28 pkt out) : CarriesMpls pkt frags label out where
  lengths := h.toOuterHeader.lengths hfrags hfits fun hproto => absurd hproto (by decide)
  delivers hne := h.delivers hencap hlabel (mplsTtl_bounds pkt).1 ((mplsTtl_bounds pkt).2 hne)

/-- MPLS over UDP, as it leaves `nh_mpls_udp_tunnel` and as it leaves the machine. -/
theorem nhMplsUdpTunnel_carries (h : nhMplsUdpTunnel env nh fmd pkt = .sent out)
    (hfmd : fmd.fmdLabel = label) :
    CarriesMpls pkt frags label out ∧ IpCsumValid out.vpHead out.vpData ∧
      ∀ (x : XmitEnv) (w : TunnelPacket), w = linuxXmitSegment x env out →
        CarriesMpls pkt frags label w ∧ IpCsumValid w.vpHead w.vpData := by
  obtain ⟨label', hlabel', hheader, hvalid, hencap⟩ := nhMplsUdpTunnel_spec h
  obtain rfl : label' = label := by omega
  refine ⟨hheader.carries hfrags hfits hlabel hencap, hvalid, ?_⟩
  intro x w hw
  obtain ⟨hheader', hencap', hlen, hvalid'⟩ := hheader.linuxXmitSegment hencap hvalid x hw
  exact ⟨hheader'.carries hfrags (by rw [length_xmit hlen]; exact hfits) hlabel hencap', hvalid'⟩

/-- MPLS over GRE: an IP packet gets its outer checksum when it is transmitted. -/
theorem nhGreTunnel_carries (h : nhGreTunnel env nh fmd pkt = .sent out)
    (hfmd : fmd.fmdLabel = label) :
    CarriesMpls pkt frags label out ∧
      (vrPktTypeIsOverlay (tunnelType pkt.vpType) = false → IpCsumValid out.vpHead out.vpData) ∧
      ∀ (x : XmitEnv) (w : TunnelPacket), w = linuxXmitSegment x env out →
        CarriesMpls pkt frags label w ∧
          ((out.data ++ frags).length ≤ x.devMtu → IpCsumValid w.vpHead w.vpData) := by
  cases hmode : env.vrMudp && env.vrPerfs with
  | true =>
    have hsame : nhGreTunnel env nh fmd pkt = nhMplsUdpTunnel env nh fmd pkt := by
      unfold nhGreTunnel
      rw [hmode, if_pos rfl]
    obtain ⟨hcarries, hvalid, hxmit⟩ := nhMplsUdpTunnel_carries hfrags hfits hlabel (hsame ▸ h) hfmd
    refine ⟨hcarries, fun _ => hvalid, ?_⟩
    intro x w hw
    exact ⟨(hxmit x w hw).1, fun _ => (hxmit x w hw).2⟩
  | false =>
    obtain ⟨label', hlabel', hheader, hencap, htype, hvalid⟩ := nhGreTunnel_spec hmode h
    obtain rfl : label' = label := by omega
    refine ⟨hheader.carries hfrags hfits hlabel hencap, fun hplain => hvalid (htype ▸ hplain), ?_⟩
    intro x w hw
    obtain ⟨hheader', hencap', hlen, hvalid'⟩ := hheader.linuxXmitSegment hencap hvalid x hw
    refine ⟨hheader'.carries hfrags (by rw [length_xmit hlen]; exact hfits) hlabel hencap', ?_⟩
    intro hmtu
    exact hvalid' (by rw [pktLen_eq hfrags]; exact hmtu)

end

end

/-! ### A packet of 20 bytes -/

/-- A host without fragments, hashes or classes of service. -/
def plainEnv (pfragLen : Nat) : TunnelEnv where
  vrMudp := false
  vrPerfs := false
  mtu := 70000
  pgsoSize := none
  pfragLen := pfragLen
  expands := false
  udpSrcPort := none
  qos := fun _ _ => none
  uniqueIpId := 7

/-- A tunnel from 10.0.0.1 to 10.0.0.2, in network order. -/
def plainTunnel : TunnelNexthop where
  nhGreTunSip := 0x0100000A
  nhGreTunDip := 0x0200000A
  nhGreTunEncapLen := 14
  nhUdpTunSip := 0x0100000A
  nhUdpTunDip := 0x0200000A
  nhUdpTunEncapLen := 14

def labelMd (label : Int) : ForwardingMd where
  fmdFlowIndex := -1
  fmdLabel := label
  fmdDvrf := 0
  fmdOuterSrcIp := 0
  fmdVlan := vlanIdInvalid
  fmdUdpSrcPort := 0
  labelIsVxlanId := false

/-- An IPv4 header behind 64 bytes of head space. -/
def innerPacket (ttl : Fin 256) : TunnelPacket where
  vpHead := fun b => octet [0x45, 0, 0, 20, 0, 0, 0, 0, 64, 6, 0x66, 0xE2, 10, 1, 1, 1, 10, 1, 1, 2]
    (b - 64)
  vpData := 64
  vpTail := 84
  vpLen := 20
  vpEnd := 128
  vpNetworkH := 64
  vpType := .ip
  vpTtl := ttl
  csumPartial := false
  diag := false
  vpNh := none
  vpInnerNetworkH := 64
  multicast := false
  tail_eq := rfl
  ttl_lt := ttl.isLt

def bareHost : PullHost where
  vrPerfp := false
  pullInnerHeadersFast := none
  pullInnerHeaders := none

/-- A router with 1000 labels. -/
def labelRouter : InputRouter where
  vrMaxLabels := 1000
  label := fun _ => some ⟨.inet, false, 1, none⟩
  vxlan := fun _ => some ⟨.bridge, false, 1, none⟩
  vifVrf := 0
  myip := fun _ => true

def TunnelInput.dropReason : TunnelInput → Option TunnelDrop
  | .dropped reason => some reason
  | _ => none

theorem received_self (w : TunnelPacket) : Received bareHost labelRouter w [] w where
  data := (List.append_nil _).symm
  toMe := Bool.or_true _
  passes := ⟨rfl, _, rfl, rfl⟩

end VRouter
