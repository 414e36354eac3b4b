import VRouter.Flow.Step
import VRouter.Lib.Memory

/-!
# VRouter — the outer UDP source port of a flow

`vr_flow_udp_src_port` gathers the VRF, the ports and the addresses of a flow in a local array,
hashes the array and scales the hash to the port range. The length it hashes is the size of the
flow key, which has four bytes more than what it gathers.

* `hashKey`: the array and the memory behind it, with what is written to it.
* `hashKey_congr`, `hashKey_behind`: the bytes written do not depend on what the array was before,
  and the others are what they were.
* `vrFlowHashSize_eq`: four of the others are hashed.
-/

namespace VRouter

open Memory LongestMatch
open FlowSys (vrIpAddrSize)
open FlowEntry (vrMudpPortRangeStart vrMudpPortRangeEnd)

/-! ## The Jenkins hash (`vr_hash.h`) -/

/-- The internal state of the hash. -/
structure HashState where
  a : BitVec 32
  b : BitVec 32
  c : BitVec 32

/-- `__vr_hash_mix`. -/
def vrHashMix (s : HashState) : HashState :=
  let ⟨a, b, c⟩ := s
  let a := (a - c) ^^^ c.rotateLeft 4
  let c := c + b
  let b := (b - a) ^^^ a.rotateLeft 6
  let a := a + c
  let c := (c - b) ^^^ b.rotateLeft 8
  let b := b + a
  let a := (a - c) ^^^ c.rotateLeft 16
  let c := c + b
  let b := (b - a) ^^^ a.rotateLeft 19
  let a := a + c
  let c := (c - b) ^^^ b.rotateLeft 4
  let b := b + a
  ⟨a, b, c⟩

/-- `__vr_hash_final`. -/
def vrHashFinal (s : HashState) : HashState :=
  let ⟨a, b, c⟩ := s
  let c := (c ^^^ b) - b.rotateLeft 14
  let a := (a ^^^ c) - c.rotateLeft 11
  let b := (b ^^^ a) - a.rotateLeft 25
  let c := (c ^^^ b) - b.rotateLeft 16
  let a := (a ^^^ c) - c.rotateLeft 4
  let b := (b ^^^ a) - a.rotateLeft 14
  let c := (c ^^^ b) - b.rotateLeft 24
  ⟨a, b, c⟩

/-- Twelve bytes are added; bytes there are not count as zero, as in the `switch` over the length of
the last block. -/
def HashState.addBlock (s : HashState) (k : List Octet) : HashState :=
  ⟨s.a + BitVec.ofNat 32 (load32 (octet k) 0), s.b + BitVec.ofNat 32 (load32 (octet k) 4),
    s.c + BitVec.ofNat 32 (load32 (octet k) 8)⟩

/-- All but the last block. -/
def vrHashBlocks : Nat → List Octet → HashState → HashState
  | 0, k, s => s.addBlock k
  | n + 1, k, s => vrHashBlocks n (k.drop 12) (vrHashMix (s.addBlock (k.take 12)))

/-- `vr_hash`. `VR_HASH_INITVAL` is `0xdeadbeef`. The `while` loop runs as long as more than twelve
bytes are left. -/
def vrHash (k : List Octet) (initval : Nat) : Nat :=
  let init := BitVec.ofNat 32 (0xdeadbeef + k.length + initval)
  if k.length = 0 then init.toNat
  else (vrHashFinal (vrHashBlocks ((k.length - 1) / 12) k ⟨init, init, init⟩)).c.toNat

/-! ## The hashed array -/

/-- `VR_FLOW_HASH_SIZE`: `sizeof(struct vr_inet6_flow)` or `sizeof(struct vr_inet_flow)`. -/
def vrFlowHashSize (type : VpType) : Nat := if type = .ip6 then 44 else 20

/-- The part of the array that is written. -/
def hashKeyFilled (type : VpType) : Nat := 8 + 2 * vrIpAddrSize type

/-- `memcpy` of `xs` to address `a`. -/
def storeOctets (m : Bytes) (a : Nat) (xs : List Octet) : Bytes :=
  fun b => if a ≤ b ∧ b < a + xs.length then octet xs (b - a) else m b

/-- `hash_key` at the start of `frame`, the memory it is in, when it has been filled in. -/
def hashKey (frame : Bytes) (e : FlowEntry) : Bytes :=
  let m := store32 frame 0 e.feVrf
  let m := store32 m 4 (flowSport e.feKey * 2 ^ 16 + flowDport e.feKey)
  storeOctets m 8 (flowIp e.feKey (2 * vrIpAddrSize e.feType))

/-- `vr_flow_udp_src_port` with its array: `jhash` is the hash function of the platform and
`vrHashrnd` the seed. -/
def vrFlowUdpSrcPortIn (jhash : List Octet → Nat → Nat) (vrHashrnd : Nat) (frame : Bytes)
    (e : FlowEntry) : FlowEntry :=
  e.vrFlowUdpSrcPort
    (jhash ((List.range (vrFlowHashSize e.feType)).map (hashKey frame e)) vrHashrnd)

/-- Two memories agree on the bytes that are hashed without having been written. -/
def SameBehind (type : VpType) (frame frame' : Bytes) : Prop :=
  ∀ b, hashKeyFilled type ≤ b → b < vrFlowHashSize type → frame' b = frame b

theorem flowIp_length (key : List Octet) (n : Nat) : (flowIp key n).length = n := by
  unfold flowIp
  rw [List.length_map, List.length_range]

section

variable {e e' : FlowEntry} (hvrf : e'.feVrf = e.feVrf) (htype : e'.feType = e.feType)
  (hkey : e'.feKey = e.feKey) (frame frame' : Bytes)

theorem hashKey_behind {b : Nat} (hb : hashKeyFilled e.feType ≤ b) :
    hashKey frame e b = frame b := by
  unfold hashKeyFilled at hb
  unfold hashKey storeOctets
  rw [flowIp_length, if_neg (by omega), store32_of_ne (by omega), store32_of_ne (by omega)]

include hvrf htype hkey in
/-- The part that is written depends on VRF, type and key only. -/
theorem hashKey_congr {b : Nat} (hb : b < hashKeyFilled e.feType) :
    hashKey frame' e' b = hashKey frame e b := by
  unfold hashKeyFilled at hb
  unfold hashKey storeOctets
  rw [hvrf, htype, hkey, flowIp_length]
  split
  · rfl
  next hout =>
    have hlow : ∀ m : Bytes, store32 (store32 m 0 e.feVrf) 4
        (flowSport e.feKey * 2 ^ 16 + flowDport e.feKey) b =
          store32 (store32 (fun _ => 0) 0 e.feVrf) 4
            (flowSport e.feKey * 2 ^ 16 + flowDport e.feKey) b := by
      intro m
      have hcases : b < 4 ∨ 4 ≤ b ∧ b < 8 := by omega
      rcases hcases with hlt | ⟨hge, hlt⟩
      · have hbefore : ∀ (m : Bytes) (v : Nat), store32 m 4 v b = m b :=
          fun m v => store32_of_ne (by omega)
        rw [hbefore, hbefore]
        exact store32_within (by omega) (by omega)
      · exact store32_within hge (by omega)
    rw [hlow frame', hlow frame]

end

/-! ## The port -/

theorem vrFlowUdpSrcPort_range {e : FlowEntry} (h : e.feUdpSrcPort = 0) (hashval : Nat) :
    vrMudpPortRangeStart ≤ (e.vrFlowUdpSrcPort hashval).feUdpSrcPort ∧
      (e.vrFlowUdpSrcPort hashval).feUdpSrcPort < vrMudpPortRangeEnd := by
  unfold FlowEntry.vrFlowUdpSrcPort
  rw [if_neg (not_not.mpr h)]
  unfold vrMudpPortRangeStart vrMudpPortRangeEnd
  dsimp only
  have hlt : hashval % 2 ^ 32 * (65535 - 49152) / 2 ^ 32 < 65535 - 49152 := by
    rw [Nat.div_lt_iff_lt_mul (by decide), Nat.mul_comm]
    exact (Nat.mul_lt_mul_left (by decide)).mpr (Nat.mod_lt _ (by decide))
  generalize hashval % 2 ^ 32 * (65535 - 49152) / 2 ^ 32 = port at hlt ⊢
  split
  · omega
  · omega

theorem vrFlowUdpSrcPort_eq {e e' : FlowEntry} (h : e.feUdpSrcPort = 0) (h' : e'.feUdpSrcPort = 0)
    (hashval : Nat) :
    (e'.vrFlowUdpSrcPort hashval).feUdpSrcPort = (e.vrFlowUdpSrcPort hashval).feUdpSrcPort := by
  unfold FlowEntry.vrFlowUdpSrcPort
  rw [if_neg (not_not.mpr h), if_neg (not_not.mpr h')]

/-- Two flows of the same VRF, family and key are given their port, each with whatever was in
memory. The ports are in the range. They are the same for every hash function and seed exactly if
the four bytes behind what is written of the hashed array are the same. -/
theorem udpSrcPort_eq_iff {e e' : FlowEntry} (hvrf : e'.feVrf = e.feVrf)
    (htype : e'.feType = e.feType) (hkey : e'.feKey = e.feKey) (h : e.feUdpSrcPort = 0)
    (h' : e'.feUdpSrcPort = 0) (frame frame' : Bytes) :
    (∀ jhash vrHashrnd,
      vrMudpPortRangeStart ≤ (vrFlowUdpSrcPortIn jhash vrHashrnd frame e).feUdpSrcPort ∧
        (vrFlowUdpSrcPortIn jhash vrHashrnd frame e).feUdpSrcPort < vrMudpPortRangeEnd) ∧
      ((∀ jhash vrHashrnd, (vrFlowUdpSrcPortIn jhash vrHashrnd frame' e').feUdpSrcPort =
          (vrFlowUdpSrcPortIn jhash vrHashrnd frame e).feUdpSrcPort) ↔
        SameBehind e.feType frame frame') := by
  refine ⟨fun jhash vrHashrnd => vrFlowUdpSrcPort_range h _, fun hports b hb hlt => ?_,
    fun hbehind jhash vrHashrnd => ?_⟩
  · -- a hash function that tells the two arrays apart
    have hport := hports (fun k _ => if k = (List.range (vrFlowHashSize e.feType)).map
      (hashKey frame e) then 2 ^ 31 else 0) 0
    unfold vrFlowUdpSrcPortIn at hport
    dsimp only at hport
    rw [if_pos rfl, htype] at hport
    split at hport
    next hsame =>
      have hbyte := List.map_inj_left.mp hsame b (List.mem_range.mpr hlt)
      rw [hashKey_behind frame hb, hashKey_behind frame' (htype ▸ hb)] at hbyte
      exact hbyte
    next =>
      unfold FlowEntry.vrFlowUdpSrcPort at hport
      rw [if_neg (not_not.mpr h), if_neg (not_not.mpr h')] at hport
      dsimp only at hport
      exact absurd hport (by decide)
  · have hbytes : (List.range (vrFlowHashSize e'.feType)).map (hashKey frame' e') =
        (List.range (vrFlowHashSize e.feType)).map (hashKey frame e) := by
      rw [htype]
      refine List.map_inj_left.mpr fun b hb => ?_
      have hlt := List.mem_range.mp hb
      rcases Nat.lt_or_ge b (hashKeyFilled e.feType) with hfilled | hfilled
      · exact hashKey_congr hvrf htype hkey frame frame' hfilled
      · rw [hashKey_behind frame hfilled, hashKey_behind frame' (htype ▸ hfilled)]
        exact hbehind b hfilled hlt
    unfold vrFlowUdpSrcPortIn
    rw [hbytes]
    exact vrFlowUdpSrcPort_eq h h' _

/-- A flow of either family. -/
def portlessFlow (type : VpType) : FlowEntry := { FlowEntry.zeroed with feType := type, feVrf := 1 }

/-- Memory of zeros. -/
def zeroFrame : Bytes := fun _ => 0

theorem udpSrcPort_eq_iff_ip :
    (vrFlowUdpSrcPortIn vrHash 7 zeroFrame (portlessFlow .ip)).feUdpSrcPort =
      (vrFlowUdpSrcPortIn vrHash 7 (store8 zeroFrame 20 1) (portlessFlow .ip)).feUdpSrcPort := by
  have hbehind : SameBehind .ip (store8 zeroFrame 20 1) zeroFrame := by
    intro b _ hlt
    have hb : b < 20 := hlt
    rw [store8_of_ne (by omega)]
  exact (@udpSrcPort_eq_iff (portlessFlow .ip) (portlessFlow .ip) rfl rfl rfl rfl rfl
    (store8 zeroFrame 20 1) zeroFrame).2.mpr hbehind vrHash 7

/-- One byte behind what is written makes another port, for both families. -/
theorem udpSrcPort_ne :
    (vrFlowUdpSrcPortIn vrHash 7 zeroFrame (portlessFlow .ip)).feUdpSrcPort ≠
        (vrFlowUdpSrcPortIn vrHash 7 (store8 zeroFrame 16 1) (portlessFlow .ip)).feUdpSrcPort ∧
      (vrFlowUdpSrcPortIn vrHash 7 zeroFrame (portlessFlow .ip6)).feUdpSrcPort ≠
        (vrFlowUdpSrcPortIn vrHash 7 (store8 zeroFrame 40 1) (portlessFlow .ip6)).feUdpSrcPort := by
  decide +kernel

end VRouter
