import Mathlib.Tactic

/-!
# VRouter — from one VRF to another

A nexthop of type `NH_VRF_TRANSLATE` hands a packet back to `vr_forward`, for a lookup in another
VRF, and nothing keeps such nexthops from leading back to where a packet came from. What ends the
recursion is the TTL: `vr_forward` takes one off an IPv4 packet and `nh_output` traps a packet that
has none left. Of an IPv6 packet the hop limit is only copied.

`vrForward` is given the number of rounds it may take and returns `none` if they are not enough.
-/

namespace VRouter

/-! ## Packets and nexthops -/

/-- What `vr_forward` and `nh_output` look at. `version` and `ttl` (or hop limit) are in the header,
`vp_ttl`, `VP_FLAG_FLOW_SET` and `fmd_dvrf` beside it. -/
structure RoutedPacket where
  version : Nat
  ttl : Nat
  daddr : Nat
  vpTtl : Nat
  flowSet : Bool
  fmdDvrf : Nat
  deriving DecidableEq, Repr

/-- A nexthop of type `NH_VRF_TRANSLATE`, or another one. -/
inductive RouteTarget where
  | vrfTranslate (nhVrf : Nat) (vnid : Bool)
  | other (nhId : Nat)
  deriving DecidableEq, Repr

/-- `policy` is `NH_FLAG_POLICY_ENABLED | NH_FLAG_FLOW_LOOKUP`. -/
structure RouteNexthop where
  target : RouteTarget
  valid : Bool
  policy : Bool
  deriving DecidableEq, Repr

/-- The routing tables, and `vr_flow_forward`: the packet and its nexthop afterwards, or `none` if
the flow has consumed it. -/
structure RoutingState where
  vrInetRouteLookup : Nat → Nat → Nat → RouteNexthop
  vrFlowForward : RoutedPacket → RouteNexthop → Option (RoutedPacket × Option RouteNexthop)

/-- Where a packet ends. -/
inductive RouteEnd where
  | ttlExceeded
  | invalidProtocol
  | invalidNh
  | zeroTtl
  | consumed
  /-- Given to `vr_bridge_input`. -/
  | bridged (pkt : RoutedPacket)
  /-- Given to a nexthop of another type. -/
  | reached (nhId : Nat) (pkt : RoutedPacket)
  deriving DecidableEq, Repr

/-! ## The recursion -/

/-- `nh_reach_nh`, with `nh_vrf_translate`; `forward` is `vr_forward`. -/
def nhReachNh (forward : RoutedPacket → Option RouteEnd) (nh : RouteNexthop) (pkt : RoutedPacket) :
    Option RouteEnd :=
  match nh.target with
  | .other nhId => some (.reached nhId pkt)
  | .vrfTranslate nhVrf vnid =>
    let pkt := { pkt with fmdDvrf := nhVrf }
    if vnid then some (.bridged pkt) else forward pkt

/-- The checks at the head of `nh_output`, then `k`. -/
def nhOutputChecked (nh : RouteNexthop) (pkt : RoutedPacket) (k : Option RouteEnd) :
    Option RouteEnd :=
  if pkt.vpTtl = 0 then some .zeroTtl else if !nh.valid then some .invalidNh else k

/-- `nh_output`. Only `vr_flow_lookup` leads to another nexthop, and it has set `VP_FLAG_FLOW_SET`
then, so the nested call does not look for a flow again. -/
def nhOutput (r : RoutingState) (forward : RoutedPacket → Option RouteEnd) (nh : RouteNexthop)
    (pkt : RoutedPacket) : Option RouteEnd :=
  nhOutputChecked nh pkt <|
    if !pkt.flowSet && nh.policy then
      match r.vrFlowForward pkt nh with
      | none => some .consumed
      | some (_, none) => some .invalidNh
      | some (pkt, some nh') =>
        if nh' = nh then nhReachNh forward nh pkt
        else nhOutputChecked nh' pkt (nhReachNh forward nh' pkt)
    else nhReachNh forward nh pkt

/-- `vr_forward`; `forward` is the next round. -/
def vrForwardOnce (r : RoutingState) (forward : RoutedPacket → Option RouteEnd)
    (pkt : RoutedPacket) : Option RouteEnd :=
  let lookup := fun pkt : RoutedPacket =>
    nhOutput r forward (r.vrInetRouteLookup pkt.fmdDvrf pkt.version pkt.daddr) pkt
  if pkt.version = 6 then lookup { pkt with vpTtl := pkt.ttl }
  else if pkt.version = 4 then
    if pkt.ttl = 0 then some .ttlExceeded
    else lookup { pkt with ttl := pkt.ttl - 1, vpTtl := pkt.ttl - 1 }
  else some .invalidProtocol

/-- `vr_forward` with at most `rounds` VRF translations that lead back to it. -/
def vrForward (r : RoutingState) : Nat → RoutedPacket → Option RouteEnd
  | 0 => vrForwardOnce r fun _ => none
  | rounds + 1 => vrForwardOnce r (vrForward r rounds)

/-! ## The TTL ends it -/

/-- No flow gives an IPv4 packet a higher TTL (`fe_ttl`) than it has. -/
def RoutingState.KeepsTtl (r : RoutingState) : Prop :=
  ∀ pkt nh pkt' nh', r.vrFlowForward pkt nh = some (pkt', nh') →
    pkt'.version = pkt.version ∧ pkt'.ttl ≤ pkt.ttl

section

variable {r : RoutingState} {forward : RoutedPacket → Option RouteEnd} {nh : RouteNexthop}
  {pkt : RoutedPacket} {rounds : Nat}

theorem nhReachNh_isSome (h : ∀ vrf, (forward { pkt with fmdDvrf := vrf }).isSome) :
    (nhReachNh forward nh pkt).isSome := by
  unfold nhReachNh
  cases nh.target with
  | other nhId => rfl
  | vrfTranslate nhVrf vnid =>
    cases vnid
    · exact h nhVrf
    · rfl

theorem nhOutputChecked_isSome {k : Option RouteEnd} (h : pkt.vpTtl ≠ 0 → k.isSome) :
    (nhOutputChecked nh pkt k).isSome := by
  unfold nhOutputChecked
  split_ifs with httl
  · rfl
  · rfl
  · exact h httl

/-- `nh_output` ends if every round it can lead to does: one for a packet of the same version with
a TTL that is not higher. -/
theorem nhOutput_isSome (hflow : r.KeepsTtl)
    (h : pkt.vpTtl ≠ 0 → ∀ pkt' : RoutedPacket, pkt'.version = pkt.version → pkt'.ttl ≤ pkt.ttl →
      (forward pkt').isSome) : (nhOutput r forward nh pkt).isSome := by
  refine nhOutputChecked_isSome fun httl => ?_
  have hround : ∀ (nh' : RouteNexthop) (pkt' : RoutedPacket), pkt'.version = pkt.version →
      pkt'.ttl ≤ pkt.ttl → (nhReachNh forward nh' pkt').isSome :=
    fun nh' pkt' hversion hle => nhReachNh_isSome fun vrf => h httl _ hversion hle
  split
  · split
    · rfl
    · rfl
    · next pkt' nh' heq =>
      obtain ⟨hversion, hle⟩ := hflow pkt nh pkt' _ heq
      split
      · exact hround nh pkt' hversion hle
      · exact nhOutputChecked_isSome fun _ => hround nh' pkt' hversion hle
  · exact hround nh pkt rfl (Nat.le_refl _)

theorem vrForward_isSome_of_le (hflow : r.KeepsTtl) (hversion : pkt.version = 4)
    (hle : pkt.ttl ≤ rounds) : (vrForward r rounds pkt).isSome := by
  -- each round takes one off the TTL, and the last one finds it at zero
  induction rounds generalizing pkt with
  | zero => simp [vrForward, vrForwardOnce, hversion, Nat.le_zero.mp hle]
  | succ rounds ih =>
    unfold vrForward vrForwardOnce
    rw [if_neg (by omega), if_pos hversion]
    split
    · rfl
    · refine nhOutput_isSome hflow fun _ pkt' hversion' hle' => ih (hversion'.trans hversion) ?_
      have : pkt'.ttl ≤ pkt.ttl - 1 := hle'
      omega

end

/-- Every route translates to VRF 0. -/
def translateLoop : RoutingState where
  vrInetRouteLookup _ _ _ := ⟨.vrfTranslate 0 false, true, false⟩
  vrFlowForward _ _ := none

def loopedPacket (version : Nat) : RoutedPacket := ⟨version, 64, 0, 64, false, 0⟩

end VRouter
