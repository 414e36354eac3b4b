import VRouter.Flow.Entry
import VRouter.Inet.Packet
import VRouter.Interface.FatFlow

/-!
# VRouter — the flow key of a packet

`vr_inet_form_flow` and `vr_inet6_form_flow` read addresses, protocol and ports from the headers.
An ICMP error belongs to the flow of the packet it quotes, in the other direction; a quoted ICMP
error has no flow (`formFlow_eq_none`).
-/

namespace VRouter

open Memory LongestMatch

/-! ## Headers -/

/-- `VR_IP_MF` is bit 13 of `ip_frag_off`. -/
def vrIpFragment (m : Bytes) (ip : Nat) : Bool :=
  ipVersion m ip == 4 && (swap16 (ipFragOff m ip) % 2 ^ 13 != 0 ||
    (swap16 (ipFragOff m ip)).testBit 13)

/-- `vr_ip_fragment_head`. -/
def vrIpFragmentHead (m : Bytes) (ip : Nat) : Bool :=
  ipVersion m ip == 4 && (swap16 (ipFragOff m ip)).testBit 13 &&
    swap16 (ipFragOff m ip) % 2 ^ 13 == 0

/-- `ip6_nxt`. -/
def ip6Nxt (m : Bytes) (ip6 : Nat) : Nat := load8 m (ip6 + 6)

/-- `ip6_plen`. -/
def ip6Plen (m : Bytes) (ip6 : Nat) : Nat := load16 m (ip6 + 4)

/-- `sizeof (struct vr_ip6)`. -/
def sizeofIp6 : Nat := 40

/-- `sizeof (struct vr_icmp)`. -/
def sizeofIcmp : Nat := 8

/-- `n` bytes of memory. -/
def bytesAt (m : Bytes) (a n : Nat) : List Octet := (List.range n).map fun j => m (a + j)

/-- Memory that holds the given bytes. -/
def bytesOf (bytes : List Nat) : Bytes := fun a => Fin.ofNat 256 (bytes.getD a 0)

/-- What the flow key takes from an IP header. -/
structure FlowHeader where
  proto : Nat
  transport : Nat
  src : List Octet
  dst : List Octet

def ip4FlowHeader (m : Bytes) (ip : Nat) : FlowHeader where
  proto := ipProto m ip
  transport := transportHeader m ip
  src := bytesAt m (ip + 12) 4
  dst := bytesAt m (ip + 16) 4

def ip6FlowHeader (m : Bytes) (ip6 : Nat) : FlowHeader where
  proto := ip6Nxt m ip6
  transport := ip6 + sizeofIp6
  src := bytesAt m (ip6 + 8) 16
  dst := bytesAt m (ip6 + 24) 16

/-! ## Keys -/

/-- The fields of `struct vr_flow`. -/
structure FlowTuple where
  family : Family
  nhId : Nat
  src : List Octet
  dst : List Octet
  proto : Nat
  sport : Nat
  dport : Nat
  deriving DecidableEq, Repr

/-- The key as `vr_inet_fill_flow` and `vr_inet6_fill_flow` lay it out. -/
def FlowTuple.key (flow : FlowTuple) : List Octet :=
  fillFlow flow.family flow.nhId (flow.src ++ flow.dst) (Fin.ofNat 256 flow.proto) flow.sport
    flow.dport

/-- What the key of a packet depends on beside the packet's bytes. -/
structure FlowContext where
  /-- `vr_inet_flow_nexthop`. -/
  nhId : Nat
  /-- The interface whose fat flow configuration `vr_flow_fat_flow_lookup` reads. -/
  fatFlowVif : Option FatFlowVif
  /-- The ports `vr_fragment_get` knows for the packet's datagram. -/
  fragment : Option (Nat × Nat)

/-- `vr_flow_fat_flow_lookup`, on ports in network byte order. -/
def vrFlowFatFlowLookup (ctx : FlowContext) (proto sport dport : Nat) : FatFlowPortMask :=
  match ctx.fatFlowVif with
  | none => .none
  | some vif => vifFatFlowLookup vif proto (swap16 sport) (swap16 dport)

/-- The `switch` over the port mask. -/
def FatFlowPortMask.apply (mask : FatFlowPortMask) (ports : Nat × Nat) : Nat × Nat :=
  match mask with
  | .source => (0, ports.2)
  | .destination => (ports.1, 0)
  | .all => (0, 0)
  | .none => ports

/-- What distinguishes ICMP from ICMPv6 here. -/
structure IcmpKind where
  proto : Nat
  error : Nat → Bool
  echo : Nat → Bool
  /-- The destination port in the key of an echo packet. -/
  echoPort : Nat

/-- `vr_icmp_error` (`DEST_UNREACH` and `TIME_EXCEEDED`) and `vr_icmp_echo`. -/
def icmp4 : IcmpKind where
  proto := protoIcmp
  error := fun type => type == 3 || type == 11
  echo := fun type => type == 8 || type == 0
  echoPort := 0

/-- `vr_icmp6_error`, and echo requests and replies. -/
def icmp6 : IcmpKind where
  proto := 58
  error := fun type => type < 128
  echo := fun type => type == 128 || type == 129
  echoPort := swap16 129

/-- `vr_inet_flow_swap` and `vr_inet6_flow_swap`. -/
def flowSwap (kind : IcmpKind) (flow : FlowTuple) : FlowTuple :=
  if flow.proto = kind.proto then { flow with src := flow.dst, dst := flow.src }
  else
    { flow with src := flow.dst, dst := flow.src, sport := flow.dport, dport := flow.sport }

/-- The ports of a packet that is no ICMP error. -/
def flowPorts (kind : IcmpKind) (m : Bytes) (h : FlowHeader) : Nat × Nat :=
  let type := load8 m h.transport
  if h.proto = kind.proto then
    if kind.echo type then (load16 m (h.transport + 4), kind.echoPort) else (0, type)
  else if h.proto = vrIpProtoTcp ∨ h.proto = vrIpProtoUdp ∨ h.proto = vrIpProtoSctp then
    (load16 m h.transport, load16 m (h.transport + 2))
  else (0, 0)

/-- The header is followed by an ICMP error. -/
def isIcmpError (kind : IcmpKind) (m : Bytes) (h : FlowHeader) : Bool :=
  h.proto == kind.proto && kind.error (load8 m h.transport)

/-- One call of `vr_inet_proto_flow` or `vr_inet6_form_flow`; `onError` is what an ICMP error
leads to. -/
def protoFlow (family : Family) (kind : IcmpKind) (ctx : FlowContext) (m : Bytes) (h : FlowHeader)
    (onError : Option FlowTuple) : Option FlowTuple :=
  if isIcmpError kind m h then onError
  else
    let ports := flowPorts kind m h
    let ports := (vrFlowFatFlowLookup ctx h.proto ports.1 ports.2).apply ports
    some ⟨family, ctx.nhId, h.src, h.dst, h.proto, ports.1, ports.2⟩

/-- The packet's own header, then, for an ICMP error, the header that it quotes. -/
def formFlow (family : Family) (kind : IcmpKind) (header : Bytes → Nat → FlowHeader)
    (ctx : FlowContext) (m : Bytes) (ip : Nat) : Option FlowTuple :=
  let quoted := header m ((header m ip).transport + sizeofIcmp)
  protoFlow family kind ctx m (header m ip)
    ((protoFlow family kind ctx m quoted none).map (flowSwap kind))

/-- `vr_inet_proto_flow`. -/
def vrInetProtoFlow : FlowContext → Bytes → Nat → Option FlowTuple :=
  formFlow .inet icmp4 ip4FlowHeader

/-- `vr_inet6_form_flow`. -/
def vrInet6FormFlow : FlowContext → Bytes → Nat → Option FlowTuple :=
  formFlow .inet6 icmp6 ip6FlowHeader

/-- `vr_inet_fragment_flow`. -/
def vrInetFragmentFlow (ctx : FlowContext) (m : Bytes) (ip : Nat) : Option FlowTuple :=
  let h := ip4FlowHeader m ip
  ctx.fragment.map fun ports => ⟨.inet, ctx.nhId, h.src, h.dst, h.proto, ports.1, ports.2⟩

/-- `vr_inet_form_flow`. -/
def vrInetFormFlow (ctx : FlowContext) (m : Bytes) (ip : Nat) : Option FlowTuple :=
  if vrIpTransportHeaderValid m ip then vrInetProtoFlow ctx m ip
  else vrInetFragmentFlow ctx m ip

/-! ## What `vr_flow_tcp_digest` reads -/

/-- The TCP header at `tcph`, in a segment of `length` bytes. -/
def tcpSegmentAt (m : Bytes) (tcph length : Nat) : TcpSegment :=
  let flags := swap16 (load16 m (tcph + 12))
  let swap32 (a : Nat) := swap16 (load16 m a) * 2 ^ 16 + swap16 (load16 m (a + 2))
  { rst := flags.testBit 2
    syn := flags.testBit 1
    fin := flags.testBit 0
    ack := flags.testBit 4
    tcpSeq := swap32 (tcph + 4)
    tcpAck := swap32 (tcph + 8)
    length := length
    offset := flags / 2 ^ 12 }

/-- The TCP header of a packet, where `vr_flow_tcp_digest` looks for it. -/
def tcpSegment (type : VpType) (m : Bytes) (ip : Nat) : Option TcpSegment :=
  if !vrIpTransportHeaderValid m ip then none
  else
    match type with
    | .ip =>
      if ipProto m ip = vrIpProtoTcp then
        let length := (swap16 (ipLen m ip) + 2 ^ 32 - ipHl m ip * 4) % 2 ^ 32
        some (tcpSegmentAt m (transportHeader m ip) length)
      else none
    | .ip6 =>
      if ip6Nxt m ip = vrIpProtoTcp then
        some (tcpSegmentAt m (ip + sizeofIp6) (swap16 (ip6Plen m ip)))
      else none
    | .null | .other => none

/-! ## Packets without a key -/

section

variable {family : Family} {kind : IcmpKind} {ctx : FlowContext} {m : Bytes}

theorem protoFlow_eq_none {h : FlowHeader} {onError : Option FlowTuple} :
    protoFlow family kind ctx m h onError = none ↔
      isIcmpError kind m h = true ∧ onError = none := by
  unfold protoFlow
  split
  · rename_i herror
    simp [herror]
  · rename_i herror
    simp [herror]

/-- The packets without a flow are the ICMP errors that quote an ICMP error. -/
theorem formFlow_eq_none {header : Bytes → Nat → FlowHeader} {ip : Nat} :
    formFlow family kind header ctx m ip = none ↔
      isIcmpError kind m (header m ip) = true ∧
        isIcmpError kind m (header m ((header m ip).transport + sizeofIcmp)) = true := by
  unfold formFlow
  rw [protoFlow_eq_none, Option.map_eq_none_iff, protoFlow_eq_none]
  simp

end

end VRouter
