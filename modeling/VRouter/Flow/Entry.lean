import VRouter.Basic

/-!
# VRouter — flow entries (`vr_flow.h`)

The data of one flow entry and what the functions of `vr_flow.c` do to a single entry: its flags
with the bits `vr_flow_start_modify`, `vr_flow_reset_evict` and the reset functions set and clear,
its key, its queue of held packets. The functions that work on the whole table are in
`VRouter.Flow.Table`.

A step of the model is atomic, so a compare-and-swap on flags that have just been read succeeds
exactly if the expected value is the one read.
-/

namespace VRouter

open LongestMatch

/-! ## Packets as the flow module sees them -/

/-- `vp_type`, as far as flows distinguish it. -/
inductive VpType where
  | null
  | ip
  | ip6
  | other
  deriving DecidableEq, Repr

/-- What `vr_flow_tcp_digest` reads of a TCP header: the flags, sequence and acknowledgment
numbers, the data offset in words, and the number of bytes the IP header leaves for the
segment. -/
structure TcpSegment where
  rst : Bool
  syn : Bool
  fin : Bool
  ack : Bool
  tcpSeq : Nat
  tcpAck : Nat
  length : Nat
  offset : Nat
  deriving DecidableEq, Repr

/-- What `vr_flow_action` finds behind `fe_src_nh_index`: no nexthop, or the outcome of
`nh_validate_src`. -/
inductive SourceCheck where
  | noNexthop
  | invalid
  | mismatch
  | valid
  deriving DecidableEq, Repr

/-- A packet given to the flow module, with the outcomes of the tests other modules make when it
arrives. -/
structure FlowPacket where
  pktLen : Nat
  vpType : VpType
  /-- `fmd_dvrf`. -/
  fmdDvrf : Nat
  /-- The packet's nexthop lets packets without a flow pass (`NH_FLAG_RELAXED_POLICY` or
  `NH_FLAG_FLOW_LOOKUP`). -/
  relaxedPolicy : Bool
  /-- `vr_inet_flow_allow_new_flow`. -/
  inetAllowsNewFlow : Bool
  /-- `vr_flow_vif_allow_new_flow`. -/
  vifAllowsNewFlow : Bool
  /-- The TCP header, if the IP header names TCP and `vr_ip_transport_header_valid` holds. -/
  tcp : Option TcpSegment
  deriving DecidableEq, Repr

/-- `flow_result_t`. -/
inductive FlowResult where
  | held
  | forward
  | drop
  | trap
  | consumed
  | evictDrop
  deriving DecidableEq, Repr

/-- `VR_IP_PROTO_TCP`, `VR_IP_PROTO_UDP` and `VR_IP_PROTO_SCTP`. -/
def vrIpProtoTcp : Nat := 6

def vrIpProtoUdp : Nat := 17

def vrIpProtoSctp : Nat := 132

/-! ## Entries -/

/-- `fe_action`; `other` is a value the datapath knows no action for. -/
inductive FlowAction where
  | drop
  | hold
  | forward
  | nat
  | other (code : Nat)
  deriving DecidableEq, Repr

/-- `fe_flags`, and the flags of a request, one Boolean for each bit. -/
structure FlowFlags where
  active : Bool := false
  snat : Bool := false
  spat : Bool := false
  dnat : Bool := false
  dpat : Bool := false
  trapEcmp : Bool := false
  deleteMarked : Bool := false
  bgpService : Bool := false
  modified : Bool := false
  newFlow : Bool := false
  evictCandidate : Bool := false
  evicted : Bool := false
  rflowValid : Bool := false
  mirror : Bool := false
  vrft : Bool := false
  linkLocal : Bool := false
  deriving DecidableEq, Repr

/-- `fe_tcp_flags`. -/
structure FlowTcpFlags where
  fin : Bool := false
  halfClose : Bool := false
  finR : Bool := false
  syn : Bool := false
  synR : Bool := false
  established : Bool := false
  establishedR : Bool := false
  rst : Bool := false
  dead : Bool := false
  deriving DecidableEq, Repr

/-- `struct vr_flow_stats`. -/
structure FlowStats where
  flowBytes : Nat := 0
  flowPackets : Nat := 0
  flowBytesOflow : Nat := 0
  flowPacketsOflow : Nat := 0
  deriving DecidableEq, Repr

/-- `VR_MAX_FLOW_QUEUE_ENTRIES`. -/
def vrMaxFlowQueueEntries : Nat := 3

/-- `struct vr_flow_queue`; a slot without a packet is `none`. -/
structure FlowQueue where
  vfqIndex : Nat
  vfqEntries : Nat
  vfqPnodes : Nat → Option FlowPacket

/-- A queue fresh from `vr_zalloc`. -/
def FlowQueue.zalloc : FlowQueue where
  vfqIndex := 0
  vfqEntries := 0
  vfqPnodes := fun _ => none

/-- `VR_MAX_MIRROR_INDICES`. -/
def vrMaxMirrorIndices : Nat := 255

/-- `struct vr_flow_entry` without its hash entry, which the hash table's model has, and without
`fe_mme`, which only the mirror module reads. -/
structure FlowEntry where
  feTtl : Nat
  feQosId : Int
  /-- The bytes of `fe_key` that have been written; `flow_key_len` of them count. -/
  feKey : List Octet
  feKeyLen : Nat
  feGenId : Nat
  feTcpFlags : FlowTcpFlags
  feHoldList : Option FlowQueue
  feTcpSeq : Nat
  feAction : FlowAction
  feFlags : FlowFlags
  feRflow : Int
  feVrf : Nat
  feDvrf : Nat
  feSrcNhIndex : Nat
  feMirrorId : Nat
  feSecMirrorId : Nat
  feStats : FlowStats
  feEcmpNhIndex : Int
  feDropReason : Nat
  feType : VpType
  feUdpSrcPort : Nat

/-- An entry of zeroed memory. -/
def FlowEntry.zeroed : FlowEntry where
  feTtl := 0
  feQosId := 0
  feKey := []
  feKeyLen := 0
  feGenId := 0
  feTcpFlags := {}
  feHoldList := none
  feTcpSeq := 0
  feAction := .drop
  feFlags := {}
  feRflow := 0
  feVrf := 0
  feDvrf := 0
  feSrcNhIndex := 0
  feMirrorId := 0
  feSecMirrorId := 0
  feStats := {}
  feEcmpNhIndex := 0
  feDropReason := 0
  feType := .null
  feUdpSrcPort := 0

/-! ## Keys -/

/-- A 16-bit number in memory, low octet first. -/
def le16 (n : Nat) : List Octet :=
  [⟨n % 256, Nat.mod_lt _ (by decide)⟩, ⟨n / 256 % 256, Nat.mod_lt _ (by decide)⟩]

/-- The fields of a key at their places in `struct vr_common_flow`. -/
def flowProto (key : List Octet) : Nat := (octet key 1).val

def flowSport (key : List Octet) : Nat := (octet key 4).val + 256 * (octet key 5).val

def flowDport (key : List Octet) : Nat := (octet key 6).val + 256 * (octet key 7).val

def flowNhId (key : List Octet) : Nat :=
  (octet key 8).val + 256 * (octet key 9).val + 65536 * (octet key 10).val +
    16777216 * (octet key 11).val

def flowIp (key : List Octet) (n : Nat) : List Octet :=
  (List.range n).map fun j => octet key (12 + j)

/-- `AF_INET` and `AF_INET6` in the first octet of a key. -/
def familyOctet : Family → Octet
  | .inet => 2
  | .inet6 => 10

/-- `VR_IP_ADDRESS_LEN` and `VR_IP6_ADDRESS_LEN`. -/
def addressLen : Family → Nat
  | .inet => 4
  | .inet6 => 16

/-- `vr_inet_fill_flow` and `vr_inet6_fill_flow`, which differ in the family and the address
length: family, protocol, two unused octets, the ports, the nexthop id, both addresses. -/
def fillFlow (family : Family) (nhId : Nat) (ip : List Octet) (proto : Octet) (sport dport : Nat) :
    List Octet :=
  [familyOctet family, proto, 0, 0] ++ le16 sport ++ le16 dport ++ le16 nhId ++ [0, 0] ++
    (List.range (2 * addressLen family)).map (octet ip)

def vrInetFillFlow : Nat → List Octet → Octet → Nat → Nat → List Octet := fillFlow .inet

def vrInet6FillFlow : Nat → List Octet → Octet → Nat → Nat → List Octet := fillFlow .inet6

namespace FlowEntry

/-- `vr_flow_get_key`. -/
def vrFlowGetKey (e : FlowEntry) : Option (List Octet) :=
  if e.feFlags.deleteMarked || !e.feFlags.active then none else some (e.feKey.take e.feKeyLen)

/-! ## Changes to one entry -/

/-- `vr_flow_start_modify`: the entry with the modify bit taken, or `none` if it cannot be. -/
def vrFlowStartModify (e : FlowEntry) : Option FlowEntry :=
  if e.feFlags.modified || e.feFlags.evicted || e.feFlags.newFlow then none
  else some { e with feFlags := { e.feFlags with modified := true } }

/-- `vr_flow_stop_modify`. -/
def vrFlowStopModify (e : FlowEntry) : FlowEntry :=
  { e with feFlags := { e.feFlags with modified := false } }

/-- `vr_flow_reset_evict`. -/
def vrFlowResetEvict (e : FlowEntry) : FlowEntry :=
  { e with feFlags := { e.feFlags with evictCandidate := false, modified := false } }

/-- `vr_flow_reset_mirror`. -/
def vrFlowResetMirror (e : FlowEntry) : FlowEntry :=
  { e with
    feFlags := { e.feFlags with mirror := false }
    feMirrorId := vrMaxMirrorIndices
    feSecMirrorId := vrMaxMirrorIndices }

/-- `vr_init_flow_entry`. -/
def vrInitFlowEntry (e : FlowEntry) : FlowEntry :=
  { e with
    feRflow := -1
    feMirrorId := vrMaxMirrorIndices
    feSecMirrorId := vrMaxMirrorIndices
    feEcmpNhIndex := -1 }

/-- `__vr_flow_reset_entry`. -/
def vrFlowResetCore (e : FlowEntry) : FlowEntry :=
  { e.vrFlowResetMirror with
    feHoldList := none
    feKeyLen := 0
    feEcmpNhIndex := -1
    feSrcNhIndex := nhDiscardId
    feRflow := -1
    feAction := .drop
    feUdpSrcPort := 0
    feTcpFlags := {}
    feFlags :=
      { active := e.feFlags.active
        evicted := e.feFlags.evicted
        newFlow := e.feFlags.newFlow
        deleteMarked := e.feFlags.deleteMarked }
    feTtl := 0 }

/-- What `vr_flow_reset_entry` writes. -/
def resetAll (e : FlowEntry) : FlowEntry :=
  { e.vrFlowResetCore with feStats := {}, feType := .null, feFlags := {} }

/-- What `vr_flow_evict_flow` writes to a candidate: the mark is turned into `EVICTED`, the modify
bit released and the entry reset. -/
def evictCore (e : FlowEntry) : FlowEntry :=
  vrFlowResetCore <| vrFlowStopModify
    { e with feFlags := { e.feFlags with evictCandidate := false, evicted := true } }

/-- What `vr_flow_table_get_free_entry` writes to the entry the hash table has given out. The flags
of an entry that is not active are replaced as a whole (`vr_flow_set_active`); one that was evicted
keeps its other flags. -/
def activate (e : FlowEntry) : FlowEntry :=
  let e :=
    if !e.feFlags.active then
      vrInitFlowEntry { e with feFlags := { active := true, newFlow := true } }
    else if e.feFlags.evicted then
      { e with feFlags := { e.feFlags with evicted := false, newFlow := true } }
    else e
  { e with feGenId := (e.feGenId + 1) % 2 ^ 8 }

/-- `VR_FLOW_FLAG_DP_BITS (fe) | VR_FLOW_FLAG_MASK (flags)`: the datapath's own bits are kept. -/
def mergeFlags (fe flags : FlowFlags) : FlowFlags :=
  { flags with
    evictCandidate := fe.evictCandidate
    evicted := fe.evicted
    newFlow := fe.newFlow
    modified := fe.modified }

/-- The statistics part of `vr_do_flow_action`. -/
def countPacket (e : FlowEntry) (len : Nat) : FlowEntry :=
  let stats := if e.feFlags.newFlow then {} else e.feStats
  let bytes := (stats.flowBytes + len) % 2 ^ 32
  let packets := (stats.flowPackets + 1) % 2 ^ 32
  { e with
    feStats :=
      { flowBytes := bytes
        flowBytesOflow :=
          if bytes < len then (stats.flowBytesOflow + 1) % 2 ^ 16 else stats.flowBytesOflow
        flowPackets := packets
        flowPacketsOflow :=
          if packets = 0 then (stats.flowPacketsOflow + 1) % 2 ^ 8 else stats.flowPacketsOflow } }

/-- What `vr_flow_get_free_entry` writes to an entry: type and key. -/
def setKey (e : FlowEntry) (type : VpType) (key : List Octet) : FlowEntry :=
  { e with
    feType := type
    feKey := key ++ e.feKey.drop key.length
    feKeyLen := key.length }

/-- `vr_enqueue_flow` and, for the first packet of a queue, `vr_trap_flow`. `cloned` is the outcome
of `vr_pclone`: a packet that cannot be cloned is trapped itself and not held. -/
def vrEnqueueFlow (e : FlowEntry) (pkt : FlowPacket) (cloned : Bool) : FlowEntry :=
  match e.feHoldList with
  | none => e
  | some vfq =>
    let i := vfq.vfqEntries
    let vfq := { vfq with vfqEntries := (vfq.vfqEntries + 1) % 2 ^ 32 }
    if vrMaxFlowQueueEntries ≤ i then { e with feHoldList := some vfq }
    else
      let held := if i = 0 && !cloned then none else some pkt
      let e :=
        { e with
          feHoldList := some { vfq with vfqPnodes := Function.update vfq.vfqPnodes i held } }
      if i = 0 then { e with feFlags := { e.feFlags with newFlow := false } } else e

/-- `vr_flow_tcp_rflow_set`: what a new flow takes over from its reverse flow. -/
def vrFlowTcpRflowSet (e rfe : FlowEntry) : FlowEntry :=
  let r := rfe.feTcpFlags
  { e with
    feTcpFlags :=
      { e.feTcpFlags with
        synR := e.feTcpFlags.synR || r.syn
        rst := e.feTcpFlags.rst || r.rst
        dead := e.feTcpFlags.dead || r.dead
        finR := e.feTcpFlags.finR || r.fin
        established := e.feTcpFlags.established || r.established
        establishedR := e.feTcpFlags.establishedR || r.established } }

/-- `vr_inet_flow_is_fat_flow` and `vr_inet6_flow_is_fat_flow`, which read the same places of the
key. -/
def isFatFlow (e : FlowEntry) : Bool :=
  (flowSport e.feKey == 0 || flowDport e.feKey == 0) &&
    (flowProto e.feKey == vrIpProtoTcp || flowProto e.feKey == vrIpProtoUdp ||
      flowProto e.feKey == vrIpProtoSctp)

/-- `VR_MUDP_PORT_RANGE_START` and `VR_MUDP_PORT_RANGE_END`. -/
def vrMudpPortRangeStart : Nat := 49152

def vrMudpPortRangeEnd : Nat := 65535

/-- `vr_flow_udp_src_port`, with `hashval` for the value of `jhash`. -/
def vrFlowUdpSrcPort (e : FlowEntry) (hashval : Nat) : FlowEntry :=
  if e.feUdpSrcPort ≠ 0 then e
  else
    let portRange := vrMudpPortRangeEnd - vrMudpPortRangeStart
    let port := hashval % 2 ^ 32 * portRange / 2 ^ 32 % 2 ^ 16
    let port := if portRange < port then 0 else port
    { e with feUdpSrcPort := (port + vrMudpPortRangeStart) % 2 ^ 16 }

end FlowEntry

end VRouter
