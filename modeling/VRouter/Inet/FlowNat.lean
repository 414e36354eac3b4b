import VRouter.Inet.Packet
import VRouter.Flow.Table

/-!
# VRouter — address translation (`vr_inet_flow_nat`)

Translation takes the new addresses and ports from the key of the reverse flow, writes them to the
packet and keeps the header checksums up to date by differences. The packet an ICMP error carries is
translated as well, in the other direction.
-/

namespace VRouter

open Memory

/-- `flow4_sip` and `flow4_dip` of a key. -/
def flow4Sip (key : List LongestMatch.Octet) : Nat :=
  load32 (LongestMatch.octet key) 12

def flow4Dip (key : List LongestMatch.Octet) : Nat :=
  load32 (LongestMatch.octet key) 16

/-- `vr_icmp_error`: `VR_ICMP_TYPE_DEST_UNREACH` or `VR_ICMP_TYPE_TIME_EXCEEDED`. -/
def vrIcmpError (m : Bytes) (icmph : Nat) : Bool := load8 m icmph == 3 || load8 m icmph == 11

/-- The part of `vr_inet_flow_nat` for the packet inside an ICMP error. -/
def natIcmpPayload (m : Bytes) (ip : Nat) (fe rfe : FlowEntry) : Bytes :=
  let icmph := transportHeader m ip
  if ipProto m ip = protoIcmp ∧ vrIcmpError m icmph then
    let icmpPlIp := icmph + 8
    let m := if fe.feFlags.snat then store32 m (icmpPlIp + 16) (flow4Dip rfe.feKey) else m
    let m := if fe.feFlags.dnat then store32 m (icmpPlIp + 12) (flow4Sip rfe.feKey) else m
    let m :=
      if fe.feFlags.snat || fe.feFlags.dnat then
        let (csum, m) := vrIpCsum m icmpPlIp
        store16 m (icmpPlIp + 10) csum
      else m
    let tSport := transportHeader m icmpPlIp
    let m := if fe.feFlags.spat then store16 m (tSport + 2) (flowDport rfe.feKey) else m
    if fe.feFlags.dpat then store16 m tSport (flowSport rfe.feKey) else m
  else m

/-- The addresses, and the difference they make. -/
def natAddresses (m : Bytes) (ip : Nat) (fe rfe : FlowEntry) : Bytes × Nat :=
  let (m, inc) :=
    if fe.feFlags.snat && ipSaddr m ip == flow4Sip fe.feKey then
      (store32 m (ip + 12) (flow4Dip rfe.feKey),
        vrIncrementalDiff (ipSaddr m ip) (flow4Dip rfe.feKey) 0)
    else (m, 0)
  if fe.feFlags.dnat then
    (store32 m (ip + 16) (flow4Sip rfe.feKey),
      vrIncrementalDiff (ipDaddr m ip) (flow4Sip rfe.feKey) inc)
  else (m, inc)

/-- The ports, and the difference they make on top of `inc`. -/
def natPorts (m : Bytes) (ip : Nat) (fe rfe : FlowEntry) (inc : Nat) : Bytes × Nat :=
  if vrIpTransportHeaderValid m ip then
    let tSport := transportHeader m ip
    let (m, inc) :=
      if fe.feFlags.spat then
        (store16 m tSport (flowDport rfe.feKey),
          vrIncrementalDiff (load16 m tSport) (flowDport rfe.feKey) inc)
      else (m, inc)
    if fe.feFlags.dpat then
      (store16 m (tSport + 2) (flowSport rfe.feKey),
        vrIncrementalDiff (load16 m (tSport + 2)) (flowSport rfe.feKey) inc)
    else (m, inc)
  else (m, inc)

/-- What `vr_inet_flow_nat` makes of the packet's bytes, once it has the reverse flow. -/
def natBytes (m : Bytes) (ip : Nat) (diag csumPartial : Bool) (fe rfe : FlowEntry) : Bytes :=
  let m := natIcmpPayload m ip fe rfe
  let (m, ipInc) := natAddresses m ip fe rfe
  let (m, inc) := natPorts m ip fe rfe ipInc
  if !diag then vrIpUpdateCsum m ip csumPartial ipInc inc else m

/-- `vr_inet_flow_nat`. Without a reverse flow the packet is dropped. `lookup` is
`vr_inet_ip_lookup`. -/
def vrInetFlowNat (s : FlowSys) (lookup : Nat → Nat → Option PacketNexthop) (fe : Nat)
    (pkt : VrPacket) (fmdDvrf : Nat) : FlowResult × Option VrPacket :=
  let e := s.entry fe
  if e.feRflow < 0 then (.consumed, none)
  else
    match s.vrFlowGetEntry e.feRflow with
    | none => (.consumed, none)
    | some rfe =>
      let m := natBytes pkt.vpHead pkt.vpNetworkH pkt.diag pkt.csumPartial e (s.entry rfe)
      let nh :=
        if e.feFlags.vrft && pkt.vpNh.any (fun nh => nh.nhVrf != fmdDvrf || nh.routeLookup) then
          lookup fmdDvrf (ipDaddr m pkt.vpNetworkH)
        else pkt.vpNh
      (.forward, some { pkt with vpHead := m, vpNh := nh })

end VRouter
