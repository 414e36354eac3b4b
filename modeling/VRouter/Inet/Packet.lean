import VRouter.Lib.Memory
import VRouter.Lib.OnesComplement

/-!
# VRouter — packets and IPv4 headers (`vr_packet.h`, `vr_proto_ip.c`)

A packet is a buffer of bytes with offsets into it. Header fields are read and written where
`struct vr_ip` and the transport headers have them, on a little-endian host. `unsigned int`
arithmetic is reduced modulo `2 ^ 32` where it can overflow.
-/

namespace VRouter

open Memory OnesComplement

/-! ## Packets -/

/-- `vp_type`. -/
inductive PacketType where
  | null | arp | ip | ip6 | ipoip | ip6oip | agent | unknown
  deriving DecidableEq, Repr

/-- What the modelled functions read of the nexthop a packet has been given. -/
structure PacketNexthop where
  nhVrf : Nat
  /-- `NH_FLAG_ROUTE_LOOKUP`. -/
  routeLookup : Bool
  deriving DecidableEq, Repr

/-- `struct vr_packet`; offsets are into the buffer `vp_head`. -/
structure VrPacket where
  vpHead : Bytes
  vpData : Nat
  vpTail : Nat
  vpLen : Nat
  vpEnd : Nat
  vpNetworkH : Nat
  vpType : PacketType
  vpTtl : Nat
  /-- `VP_FLAG_CSUM_PARTIAL`. -/
  csumPartial : Bool
  /-- `VP_FLAG_DIAG`. -/
  diag : Bool
  vpNh : Option PacketNexthop

/-! ## `struct vr_ip` -/

section

variable (m : Bytes) (ip : Nat)

def ipHl : Nat := load8 m ip % 16

def ipVersion : Nat := load8 m ip / 16

def ipTos : Nat := load8 m (ip + 1)

def ipLen : Nat := load16 m (ip + 2)

def ipFragOff : Nat := load16 m (ip + 6)

def ipTtl : Nat := load8 m (ip + 8)

def ipProto : Nat := load8 m (ip + 9)

def ipCsum : Nat := load16 m (ip + 10)

def ipSaddr : Nat := load32 m (ip + 12)

def ipDaddr : Nat := load32 m (ip + 16)

/-- Where the transport header starts. -/
def transportHeader : Nat := ip + ipHl m ip * 4

end

/-- `ntohs` and `htons`. -/
def swap16 (n : Nat) : Nat := n % 256 * 256 + n / 256 % 256

/-- `VR_IP_FRAG_OFFSET_MASK` is `2 ^ 13 - 1`. -/
def vrIpTransportHeaderValid (m : Bytes) (ip : Nat) : Bool :=
  ipVersion m ip != 4 || swap16 (ipFragOff m ip) % 2 ^ 13 == 0

/-! ## Incremental checksums -/

/-- `vr_incremental_diff`. -/
def vrIncrementalDiff (oldval newval diff : Nat) : Nat :=
  let tmp := (2 ^ 32 - 1 - oldval + newval) % 2 ^ 32
  let tmp := if tmp < newval then (tmp + 1) % 2 ^ 32 else tmp
  let diff := (diff + tmp) % 2 ^ 32
  if diff < tmp then (diff + 1) % 2 ^ 32 else diff

/-- `vr_ip_incremental_csum`. -/
def vrIpIncrementalCsum (m : Bytes) (ip diff : Nat) : Bytes :=
  let diff := fold (2 ^ 16) diff
  let csum := 2 ^ 16 - 1 - ipCsum m ip
  let csum := fold (2 ^ 16) (csum + diff)
  store16 m (ip + 10) (2 ^ 16 - 1 - csum)

/-- `vr_inet_set_tos`. -/
def vrInetSetTos (m : Bytes) (ip tos : Nat) : Bytes :=
  if ipTos m ip = tos then m
  else
    let diff := vrIncrementalDiff (ipTos m ip * 2 ^ 8) (tos * 2 ^ 8) 0
    vrIpIncrementalCsum (store8 m (ip + 1) tos) ip diff

/-- `vr_ip_decrement_ttl`. The difference of the two `int`s is taken as an `unsigned int`. -/
def vrIpDecrementTtl (m : Bytes) (ip : Nat) : Bytes :=
  let diff := vrIncrementalDiff (ipTtl m ip) ((ipTtl m ip + 2 ^ 32 - 1) % 2 ^ 32) 0
  vrIpIncrementalCsum (store8 m (ip + 8) (ipTtl m ip + 2 ^ 8 - 1)) ip diff

/-- What `vr_flow_action` does to the TTL of a packet that is forwarded. -/
def overwriteTtl (m : Bytes) (ip feTtl : Nat) : Bytes :=
  if feTtl ≠ 0 ∧ feTtl ≠ ipTtl m ip then
    let diff := vrIncrementalDiff (ipTtl m ip) feTtl 0
    let m := store8 m (ip + 8) feTtl
    if diff ≠ 0 then vrIpIncrementalCsum m ip diff else m
  else m

/-! ## Checksums from scratch -/

/-- The loop of `vr_ip_csum`: words, and an odd byte at the end. -/
def csumLoop (m : Bytes) : Nat → Nat → Nat
  | _, 0 => 0
  | w, 1 => load8 m w
  | w, nleft + 2 => load16 m w + csumLoop m (w + 2) nleft

/-- `vr_ip_csum`, which also clears `ip_csum`. -/
def vrIpCsum (m : Bytes) (ip : Nat) : Nat × Bytes :=
  let m := store16 m (ip + 10) 0
  let sum := csumLoop m ip (ipHl m ip * 4)
  let sum := sum / 2 ^ 16 + sum % 2 ^ 16
  let sum := sum + sum / 2 ^ 16
  (2 ^ 16 - 1 - sum % 2 ^ 16, m)

/-! ## Transport checksums -/

/-- `VR_IP_PROTO_ICMP`, `VR_IP_PROTO_TCP` and `VR_IP_PROTO_UDP`. -/
def protoIcmp : Nat := 1

def protoTcp : Nat := 6

def protoUdp : Nat := 17

/-- Where the checksum of the transport header is. -/
def transportCsum (m : Bytes) (ip : Nat) : Option Nat :=
  if ipProto m ip = protoTcp then some (transportHeader m ip + 16)
  else if ipProto m ip = protoUdp then some (transportHeader m ip + 6)
  else none

/-- The new value of a transport checksum. A partial checksum is stored as it is, and only the
addresses are part of it. -/
def updatedCsum (csumPartial : Bool) (csum ipInc inc : Nat) : Nat :=
  let inc := if csumPartial then ipInc else inc
  let sum := if csumPartial then csum else 2 ^ 16 - 1 - csum
  let sum := (sum + inc) % 2 ^ 32
  let sum := if sum < inc then (sum + 1) % 2 ^ 32 else sum
  let sum := fold (2 ^ 16) sum
  if csumPartial then sum else 2 ^ 16 - 1 - sum

/-- `vr_ip_update_csum`. -/
def vrIpUpdateCsum (m : Bytes) (ip : Nat) (csumPartial : Bool) (ipInc inc : Nat) : Bytes :=
  let m := if ipInc ≠ 0 then vrIpIncrementalCsum m ip ipInc else m
  match transportCsum m ip with
  | none => m
  | some csump =>
    if vrIpTransportHeaderValid m ip then
      store16 m csump (updatedCsum csumPartial (load16 m csump) ipInc inc)
    else m

end VRouter
