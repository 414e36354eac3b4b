import VRouter.Flow.Run
import VRouter.Inet.FormFlow

/-!
# VRouter — what becomes of a packet given to `vr_flow_forward`

A packet passes through the lookup of its family, `vr_flow_lookup` and the action of its flow. Each
layer frees it, holds it, hands it to the agent, or leaves it to its caller, and says which by its
result. `Disposal` records what is done with the packet itself; clones do not count.

A layer keeps its word (`Settled`) if a result that claims the packet comes with one disposal and
any other with none. `vr_inet6_flow_lookup` does not for a packet without a flow key, and a packet
that needs a flow entry when there is no memory for its queue ends in a null pointer.
`vrFlowForward_disposedOnce_iff` says that these are the only exceptions.
-/

namespace VRouter

open LongestMatch

/-! ## Disposals -/

/-- The reasons (`VP_DROP_...`) the flow module frees packets for. -/
inductive FlowDrop where
  | invalidNh | invalidSource | flowActionDrop | flowActionInvalid | flowNatNoRflow | flowUnusable
  | flowQueueLimitExceeded | newFlows | flowTableFull | flowEvict | trapNoIf | misc | fragments
  deriving DecidableEq, Repr

/-- The queues packets wait in: that of a flow on hold, and that of the fragment assembler. -/
inductive HoldQueue where
  | flow | assembler
  deriving DecidableEq, Repr

/-- What can be done with a packet other than returning it to the caller. -/
inductive Disposal where
  | freed (reason : FlowDrop)
  | held (queue : HoldQueue)
  | trapped
  deriving DecidableEq, Repr

/-- The result of a layer agrees with what it did: with `FLOW_HELD` and `FLOW_CONSUMED` the packet
is gone, otherwise it is still the caller's. -/
def Settled (result : FlowResult) (disposals : List Disposal) : Prop :=
  if result = .held ∨ result = .consumed then disposals.length = 1 else disposals = []

/-- `vr_trap`; `agentIf` tells whether there is an agent interface to send to. -/
def vrTrap (agentIf : Bool) : Disposal := if agentIf then .trapped else .freed .trapNoIf

/-! ## The action of a flow -/

/-- What `vr_flow_action` does with the packet. -/
def actionDisposals (o : ActionOutcome) (e : FlowEntry) (pkt : FlowPacket) : List Disposal :=
  match o.sourceCheck e.feSrcNhIndex with
  | .noNexthop => [.freed .invalidNh]
  | .invalid => [.freed .invalidSource]
  | .mismatch | .valid =>
    match e.feAction with
    | .drop => [.freed .flowActionDrop]
    | .forward => []
    | .nat =>
      if pkt.vpType ≠ .ip then [.freed .flowActionInvalid]
      else if o.natForwards then []
      else [.freed .flowNatNoRflow]
    | .hold | .other _ => [.freed .flowActionInvalid]

/-- What `vr_enqueue_flow` does with the packet. The first packet of a queue is cloned for the
agent; if it cannot be, it is taken out of the queue again and trapped itself. -/
def enqueueDisposals (agentIf : Bool) (o : FlowOutcome) (e : FlowEntry) : List Disposal :=
  match e.feHoldList with
  | none => [.freed .flowUnusable]
  | some vfq =>
    if vrMaxFlowQueueEntries ≤ vfq.vfqEntries then [.freed .flowQueueLimitExceeded]
    else if vfq.vfqEntries = 0 && !o.cloned then [vrTrap agentIf]
    else [.held .flow]

namespace FlowSys

/-- What `vr_do_flow_action` does with the packet. -/
def doActionDisposals (agentIf : Bool) (s : FlowSys) (o : FlowOutcome) (fe : Nat)
    (pkt : FlowPacket) : List Disposal :=
  let s := s.modify fe fun e => e.countPacket pkt.pktLen
  if (s.entry fe).feAction = .hold then enqueueDisposals agentIf o (s.entry fe)
  else actionDisposals (o.action 0) (s.entry fe) pkt

/-- What `vr_flow_lookup` does with the packet once it has an entry. -/
def handleDisposals (agentIf : Bool) (s : FlowSys) (o : FlowOutcome) (fe : Nat)
    (pkt : FlowPacket) : List Disposal :=
  if (s.entry fe).feFlags.evictCandidate then []
  else (s.vrFlowTcpDigest fe pkt).doActionDisposals agentIf o fe pkt

/-- The reason `vr_flow_allow_new_flow` gives. -/
def newFlowDropReason (cfg : FlowConfig) (s : FlowSys) (pkt : FlowPacket) : FlowDrop :=
  if pkt.vpType = .ip ∧ !pkt.inetAllowsNewFlow then .flowUnusable
  else if cfg.vrFlowHoldLimit ≠ 0 ∧ cfg.vrFlowHoldLimit < vrFlowTableHoldCount cfg s.info then
    .flowUnusable
  else .newFlows

/-- What `vr_flow_lookup` does with the packet. -/
def lookupDisposals (agentIf : Bool) (cfg : FlowConfig) (s : FlowSys) (o : FlowOutcome)
    (key : List Octet) (pkt : FlowPacket) : List Disposal :=
  match s.vrFindFlow cfg key with
  | none => []
  | some (some fe) => s.handleDisposals agentIf o fe pkt
  | some none =>
    if pkt.relaxedPolicy then []
    else if !s.vrFlowAllowNewFlow cfg pkt then [.freed (s.newFlowDropReason cfg pkt)]
    else
      match s.vrFlowGetFreeEntry cfg o key pkt.vpType true with
      | none => []
      | some (none, _) => [.freed .flowTableFull]
      | some (some fe, s) =>
        let s := s.modify fe fun e => { e with feVrf := pkt.fmdDvrf % 2 ^ 16 }
        (s.vrFlowEntrySetHold cfg o.cpu fe).handleDisposals agentIf o fe pkt

end FlowSys

/-! ## The lookups of the two families -/

/-- What the flow module reads of the interface a packet came in on. -/
structure ForwardVif where
  virtual : Bool
  service : Bool
  /-- `VIF_FLAG_POLICY_ENABLED`. -/
  policyEnabled : Bool
  dhcpEnabled : Bool
  deriving DecidableEq, Repr

/-- A packet given to `vr_flow_forward`, with its forwarding metadata. -/
structure ForwardPacket extends VrPacket where
  /-- `VP_FLAG_MULTICAST`. -/
  multicast : Bool
  /-- `VP_FLAG_FLOW_SET`. -/
  flowSet : Bool
  /-- `VP_FLAG_FLOW_GET`. -/
  flowGet : Bool
  vif : ForwardVif
  fmdVlan : Nat
  fmdDvrf : Nat
  /-- `vp_nh` lets packets without a flow pass (`NH_FLAG_RELAXED_POLICY`, `NH_FLAG_FLOW_LOOKUP`). -/
  relaxedPolicy : Bool
  /-- `vr_flow_vif_allow_new_flow`. -/
  vifAllowsNewFlow : Bool
  /-- `vr_inet_flow_nexthop`. -/
  nhId : Nat
  /-- The interface `vr_flow_fat_flow_lookup` takes. -/
  fatFlowVif : Option FatFlowVif

/-- What `vr_fragment_enqueue` meets: the CPU's queue, the host's limit, the allocation, and the
three attempts to link the element. -/
structure EnqueueOutcome where
  vfqLength : Option Nat
  limitExceeded : Bool
  alloc : Bool
  swapped : Fin 3 → Bool

/-- What a call of `vr_flow_forward` meets. -/
structure ForwardOutcome where
  flow : FlowOutcome
  /-- The ports `vr_fragment_get` knows. -/
  fragment : Option (Nat × Nat)
  /-- `vr_enqueue_to_assembler` is set. -/
  assembler : Bool
  enqueue : EnqueueOutcome
  /-- What the memory of `flow` holds before it is written. -/
  stackProto : Nat
  stackSport : Nat
  agentIf : Bool

/-- `VR_MAX_FRAGMENTS_PER_CPU_QUEUE`. -/
def vrMaxFragmentsPerCpuQueue : Nat := 256

/-- `vr_fragment_enqueue`; an empty queue has no length. -/
def vrFragmentEnqueue (o : EnqueueOutcome) : Disposal :=
  if o.vfqLength.any fun length => vrMaxFragmentsPerCpuQueue < length + 1 then .freed .fragments
  else if o.limitExceeded then .freed .fragments
  else if !o.alloc then .freed .fragments
  else if o.swapped 0 || o.swapped 1 || o.swapped 2 then .held .assembler
  else .freed .fragments

/-- `lh_enqueue_to_assembler`. -/
def lhEnqueueToAssembler (cfg : FlowConfig) (o : ForwardOutcome) : Disposal :=
  if cfg.vrNumCpus ≤ o.flow.cpu then .freed .fragments else vrFragmentEnqueue o.enqueue

/-- `VLAN_ID_INVALID`. -/
def vlanIdInvalid : Nat := 0xFFFF

/-- `IS_BMCAST_IP`, on an address in network byte order. -/
def isBmcastIp (addr : Nat) : Bool := addr % 256 / 16 == 0xE || addr == 0xFFFFFFFF

/-- `VR_IP6_PROTO_FRAG`. -/
def vrIp6ProtoFrag : Nat := 44

/-- `VR_UDP_DHCP_CPORT`. -/
def vrUdpDhcpCport : Nat := 17 * 2 ^ 16 + swap16 68

/-- `vr_inet_should_trap`. Its caller has not filled the flow yet. -/
def vrInetShouldTrap (o : ForwardOutcome) (p : ForwardPacket) : Bool :=
  p.vif.virtual && p.vif.dhcpEnabled &&
    o.stackProto % 2 ^ 8 * 2 ^ 16 + o.stackSport % 2 ^ 16 == vrUdpDhcpCport

namespace ForwardPacket

/-- The type as the flow module distinguishes it. -/
def flowType (p : ForwardPacket) : VpType :=
  match p.vpType with
  | .null => .null
  | .ip => .ip
  | .ip6 => .ip6
  | .arp | .ipoip | .ip6oip | .agent | .unknown => .other

/-- The packet as `vr_flow_lookup` sees it. -/
def flowPacket (p : ForwardPacket) : FlowPacket where
  pktLen := p.vpLen
  vpType := p.flowType
  fmdDvrf := p.fmdDvrf
  relaxedPolicy := p.relaxedPolicy
  inetAllowsNewFlow :=
    !(vrIpFragment p.vpHead p.vpNetworkH && !vrIpFragmentHead p.vpHead p.vpNetworkH)
  vifAllowsNewFlow := p.vifAllowsNewFlow
  tcp := tcpSegment p.flowType p.vpHead p.vpNetworkH

/-- What the key is formed from. -/
def context (p : ForwardPacket) (o : ForwardOutcome) : FlowContext :=
  ⟨p.nhId, p.fatFlowVif, o.fragment⟩

/-- The interface or somebody else asks for a lookup. -/
def policy (p : ForwardPacket) : Bool := p.vif.policyEnabled || p.flowGet

/-- Flow processing is only for unicast packets that are not tagged. -/
def takesFlow (p : ForwardPacket) : Bool :=
  !p.multicast && (p.fmdVlan == vlanIdInvalid || p.vif.service)

end ForwardPacket

/-- What a lookup returns: the state, its result, and what was done with the packet. -/
abbrev LookupResult := FlowSys × FlowResult × List Disposal

/-- `vr_flow_lookup`, with what it does with the packet. -/
def flowLookup (cfg : FlowConfig) (s : FlowSys) (o : ForwardOutcome) (p : ForwardPacket)
    (flow : FlowTuple) : Option LookupResult :=
  (s.vrFlowLookup cfg o.flow flow.key p.flowPacket).map fun r =>
    (r.1, r.2, s.lookupDisposals o.agentIf cfg o.flow flow.key p.flowPacket)

/-- `vr_inet_flow_lookup`. The clone of a fragment's head that goes to the assembler is not the
packet itself. -/
def vrInetFlowLookup (cfg : FlowConfig) (s : FlowSys) (o : ForwardOutcome) (p : ForwardPacket) :
    Option LookupResult :=
  if p.flowSet then some (s, .forward, [])
  else if !p.policy then some (s, .forward, [])
  else if isBmcastIp (ipDaddr p.vpHead p.vpNetworkH) then
    if vrInetShouldTrap o p then some (s, .trap, []) else some (s, .forward, [])
  else
    match vrInetFormFlow (p.context o) p.vpHead p.vpNetworkH with
    | none =>
      if !vrIpTransportHeaderValid p.vpHead p.vpNetworkH && o.assembler then
        some (s, .consumed, [lhEnqueueToAssembler cfg o])
      else some (s, .consumed, [.freed .misc])
    | some flow => flowLookup cfg s o p flow

/-- `vr_inet6_flow_lookup`. A packet without a flow key is claimed, but nothing is done with it. -/
def vrInet6FlowLookup (cfg : FlowConfig) (s : FlowSys) (o : ForwardOutcome) (p : ForwardPacket) :
    Option LookupResult :=
  if p.flowSet then some (s, .forward, [])
  else if ip6Nxt p.vpHead p.vpNetworkH = vrIp6ProtoFrag then some (s, .forward, [])
  else
    match vrInet6FormFlow (p.context o) p.vpHead p.vpNetworkH with
    | none => some (s, .consumed, [])
    | some flow => if p.policy then flowLookup cfg s o p flow else some (s, .forward, [])

/-- `vr_do_flow_lookup`. -/
def vrDoFlowLookup (cfg : FlowConfig) (s : FlowSys) (o : ForwardOutcome) (p : ForwardPacket) :
    Option LookupResult :=
  match p.vpType with
  | .ip => vrInetFlowLookup cfg s o p
  | .ip6 => vrInet6FlowLookup cfg s o p
  | .null | .arp | .ipoip | .ip6oip | .agent | .unknown => some (s, .forward, [])

/-- What `__vr_flow_forward` does for a result, and whether the packet is forwardable. -/
def vrFlowForwardResult (agentIf : Bool) : FlowResult → Bool × List Disposal
  | .forward => (true, [])
  | .trap => (false, [vrTrap agentIf])
  | .evictDrop => (false, [.freed .flowEvict])
  | .held | .consumed => (false, [])
  | .drop => (false, [.freed .flowUnusable])

/-- `vr_flow_forward`: the state, whether the packet is forwardable, and what was done with it.
`none` is a crash. -/
def vrFlowForward (cfg : FlowConfig) (s : FlowSys) (o : ForwardOutcome) (p : ForwardPacket) :
    Option (FlowSys × Bool × List Disposal) :=
  let looked := if p.takesFlow then vrDoFlowLookup cfg s o p else some (s, .forward, [])
  looked.map fun r =>
    let final := vrFlowForwardResult o.agentIf r.2.1
    (r.1, final.1, r.2.2 ++ final.2)

/-- The packet is returned as forwardable and otherwise left alone, or it is not and exactly one
thing was done with it. -/
def DisposedOnce (r : Option (FlowSys × Bool × List Disposal)) : Prop :=
  ∃ s forward disposals, r = some (s, forward, disposals) ∧
    if forward then disposals = [] else disposals.length = 1

/-! ## The exceptions -/

/-- An ICMPv6 error that quotes an ICMPv6 error, and that `vr_inet6_flow_lookup` looks at. -/
def ForwardPacket.QuotesIcmp6Error (p : ForwardPacket) : Prop :=
  p.takesFlow = true ∧ p.vpType = .ip6 ∧ p.flowSet = false ∧
    isIcmpError icmp6 p.vpHead (ip6FlowHeader p.vpHead p.vpNetworkH) = true ∧
    isIcmpError icmp6 p.vpHead
      (ip6FlowHeader p.vpHead (p.vpNetworkH + sizeofIp6 + sizeofIcmp)) = true

/-- The flow a packet is looked up with, if it is. -/
def ForwardPacket.lookedUp (p : ForwardPacket) (o : ForwardOutcome) : Option FlowTuple :=
  if !p.takesFlow || p.flowSet || !p.policy then none
  else
    match p.vpType with
    | .ip =>
      if isBmcastIp (ipDaddr p.vpHead p.vpNetworkH) then none
      else vrInetFormFlow (p.context o) p.vpHead p.vpNetworkH
    | .ip6 =>
      if ip6Nxt p.vpHead p.vpNetworkH = vrIp6ProtoFrag then none
      else vrInet6FormFlow (p.context o) p.vpHead p.vpNetworkH
    | .null | .arp | .ipoip | .ip6oip | .agent | .unknown => none

/-- A new flow is allowed for the key and has an entry, but there is no memory for its queue. -/
def FlowSys.NoHoldQueue (cfg : FlowConfig) (s : FlowSys) (o : FlowOutcome) (key : List Octet)
    (pkt : FlowPacket) : Prop :=
  s.vrFindFlow cfg key = some none ∧ pkt.relaxedPolicy = false ∧
    s.vrFlowAllowNewFlow cfg pkt = true ∧
    (∃ fe s', s.vrFlowTableGetFreeEntry cfg key = some (some fe, s')) ∧ o.queueAlloc = false

/-- The packet is looked up, needs a new flow, and there is no memory for the queue. -/
def NoHoldQueueFor (cfg : FlowConfig) (s : FlowSys) (o : ForwardOutcome) (p : ForwardPacket) :
    Prop :=
  ∃ flow, p.lookedUp o = some flow ∧ s.NoHoldQueue cfg o.flow flow.key p.flowPacket

/-! ## Every layer keeps its word -/

namespace FlowSys

variable {cfg : FlowConfig} {s s' : FlowSys} {fe index : Nat} {pkt : FlowPacket}

theorem vrFlowScheduleTransition_ne_none (o : TransitionOutcome) {flags : FlowFlags}
    (hactive : flags.active = true) : s.vrFlowScheduleTransition o fe index flags ≠ none := by
  unfold vrFlowScheduleTransition
  simp only [hactive, Bool.not_true, Bool.and_false, Bool.false_eq_true, if_false]
  split
  · simp
  · split <;> simp

/-- A flow is scheduled for eviction only while it is active, so that no deletion is scheduled. -/
theorem evictForwardFlow_ne_none (o : TransitionOutcome) (rfe : Option Nat) :
    s.evictForwardFlow o fe index rfe ≠ none := by
  unfold evictForwardFlow
  split
  · rename_i s₁ hmark
    have hactive : (s₁.entry fe).feFlags.active = true := by
      unfold vrFlowMarkEvictCore at hmark
      simp only at hmark
      split at hmark
      · rename_i hactive
        rw [← (Prod.mk.inj hmark).2, modify_self]
        exact hactive
      · cases hmark
    split
    · rename_i hnone
      exact absurd hnone (vrFlowScheduleTransition_ne_none o hactive)
    · simp
    · simp
  · simp

theorem vrFlowMarkEvict_ne_none (o : TransitionOutcome) : s.vrFlowMarkEvict o fe index ≠ none := by
  unfold vrFlowMarkEvict
  split
  · simp
  simp only
  split
  · exact evictForwardFlow_ne_none o none
  split
  · split
    · simp
    · split
      · split
        · exact evictForwardFlow_ne_none o _
        · simp
      · simp
  · simp

/-- The `switch` of `vr_flow_action` frees the packet unless it is forwarded. -/
theorem actionResult_settled (o : ActionOutcome) {e : FlowEntry}
    (hsource : o.sourceCheck e.feSrcNhIndex = .mismatch ∨ o.sourceCheck e.feSrcNhIndex = .valid) :
    Settled (actionResult o pkt e.feAction) (actionDisposals o e pkt) := by
  unfold actionDisposals
  rcases hsource with h | h
  all_goals
    rw [h]
    cases e.feAction with
    | nat =>
      by_cases htype : pkt.vpType = .ip
      · cases hnat : o.natForwards <;> simp [actionResult, Settled, htype, hnat]
      · simp [actionResult, Settled, htype]
    | drop | hold | forward => simp [actionResult, Settled]
    | other code => simp [actionResult, Settled]

theorem vrFlowAction_settled (o : ActionOutcome) :
    ∃ s' r, s.vrFlowAction o fe index pkt = some (s', r) ∧
      Settled r (actionDisposals o (s.entry fe) pkt) := by
  unfold vrFlowAction
  split
  · rename_i hsource
    exact ⟨s, _, rfl, by simp [Settled, actionDisposals, hsource]⟩
  · rename_i hsource
    exact ⟨s, _, rfl, by simp [Settled, actionDisposals, hsource]⟩
  all_goals
    rename_i hsource
    have hsettled : Settled (actionResult o pkt (s.entry fe).feAction)
        (actionDisposals o (s.entry fe) pkt) := actionResult_settled o (by simp [hsource])
    split
    · have hevict : s.vrFlowMarkEvict o.transition fe index ≠ none := vrFlowMarkEvict_ne_none _
      obtain ⟨s', hs'⟩ := Option.ne_none_iff_exists'.mp hevict
      exact ⟨s', _, by rw [hs']; rfl, hsettled⟩
    · exact ⟨s, _, rfl, hsettled⟩

variable (agentIf : Bool) (o : FlowOutcome)

theorem enqueueDisposals_length (e : FlowEntry) : (enqueueDisposals agentIf o e).length = 1 := by
  unfold enqueueDisposals
  split
  · rfl
  · split
    · rfl
    · split <;> rfl

theorem vrDoFlowAction_settled :
    ∃ s' r, s.vrDoFlowAction o fe index pkt = some (s', r) ∧
      Settled r (s.doActionDisposals agentIf o fe pkt) := by
  unfold vrDoFlowAction doActionDisposals
  simp only
  split
  · exact ⟨_, _, rfl, by simp [Settled, enqueueDisposals_length]⟩
  · exact vrFlowAction_settled _

theorem handlePacket_settled :
    ∃ s' r, s.handlePacket o fe pkt = some (s', r) ∧
      Settled r (s.handleDisposals agentIf o fe pkt) := by
  unfold handlePacket handleDisposals
  split
  · exact ⟨s, _, rfl, by simp [Settled]⟩
  · exact vrDoFlowAction_settled agentIf o

/-! ### Lookups -/

variable (hinv : FlowInv cfg s.view) (key : List Octet)
include hinv

theorem vrFindFlow_ne_none : s.vrFindFlow cfg key ≠ none := by
  unfold vrFindFlow
  split
  · simp
  rename_i k _
  have hget : ∀ i k, s.view.keyed.live i = true → s.getKey i = some k →
      s.view.keyed.keys i = some k := by
    intro i k hi hk
    exact congrArg some (isLive_iff.mpr ⟨hi, hk⟩).key
  obtain ⟨r, hr, -⟩ := hinv.keyed.find hinv.tile hget k
  have hr : vrHtableFindHentry s.ht.table s.getKey k (cfg.vrHash k) = some r := hr
  rw [hr]
  simp

theorem vrFlowTableGetFreeEntry_ne_none : s.vrFlowTableGetFreeEntry cfg key ≠ none := by
  unfold vrFlowTableGetFreeEntry
  split
  · simp
  rename_i k _
  have hfree := hinv.keyed.findFree_isSome hinv.tile (cfg.vrHash k)
  split
  · rename_i hnone
    exact absurd hnone hfree
  · simp
  · simp

/-- `vr_flow_lookup` crashes without memory for a queue, and keeps its word otherwise. -/
theorem vrFlowLookup_settled (pkt : FlowPacket) :
    (s.NoHoldQueue cfg o key pkt ∧ s.vrFlowLookup cfg o key pkt = none) ∨
      (¬ s.NoHoldQueue cfg o key pkt ∧ ∃ s' r, s.vrFlowLookup cfg o key pkt = some (s', r) ∧
        Settled r (s.lookupDisposals agentIf cfg o key pkt)) := by
  unfold NoHoldQueue vrFlowLookup lookupDisposals
  cases hfind : s.vrFindFlow cfg key with
  | none => exact absurd hfind (vrFindFlow_ne_none hinv key)
  | some found =>
    cases found with
    | some fe => exact .inr ⟨by simp, handlePacket_settled agentIf o⟩
    | none =>
      cases hrelaxed : pkt.relaxedPolicy with
      | true => exact .inr ⟨by simp, s, .forward, by simp, by simp [Settled]⟩
      | false =>
        cases hallow : s.vrFlowAllowNewFlow cfg pkt with
        | false => exact .inr ⟨by simp, s, .consumed, by simp, by simp [Settled]⟩
        | true =>
          unfold vrFlowGetFreeEntry
          rcases htake : s.vrFlowTableGetFreeEntry cfg key with _ | ⟨_ | fe, s₁⟩
          · exact absurd htake (vrFlowTableGetFreeEntry_ne_none hinv key)
          · exact .inr ⟨by simp, s₁, .consumed, rfl, by simp [Settled]⟩
          · cases hqueue : o.queueAlloc with
            | true =>
              exact .inr ⟨by simp, handlePacket_settled agentIf o⟩
            | false => exact .inl ⟨by simp, by simp⟩

end FlowSys

/-! ## The whole call -/

section

variable {cfg : FlowConfig} {s : FlowSys} {o : ForwardOutcome} {p : ForwardPacket}

/-- What a lookup returned is settled. -/
def SettledResult (r : Option LookupResult) : Prop :=
  ∃ s' result disposals, r = some (s', result, disposals) ∧ Settled result disposals

theorem settledResult_some {result : FlowResult} {disposals : List Disposal} {s' : FlowSys} :
    SettledResult (some (s', result, disposals)) ↔ Settled result disposals := by
  constructor
  · rintro ⟨_, _, _, ⟨⟩, h⟩
    exact h
  · exact fun h => ⟨_, _, _, rfl, h⟩

theorem not_settledResult_none : ¬ SettledResult none := by
  rintro ⟨_, _, _, h, -⟩
  cases h

theorem flowLookup_settled_iff (hinv : FlowInv cfg s.view) (flow : FlowTuple) :
    SettledResult (flowLookup cfg s o p flow) ↔
      ¬ s.NoHoldQueue cfg o.flow flow.key p.flowPacket := by
  unfold flowLookup
  rcases FlowSys.vrFlowLookup_settled o.agentIf o.flow hinv flow.key p.flowPacket with
    ⟨hqueue, hnone⟩ | ⟨hqueue, s', r, hr, hsettled⟩
  · rw [hnone]
    exact iff_of_false not_settledResult_none (not_not_intro hqueue)
  · rw [hr]
    exact iff_of_true (settledResult_some.mpr hsettled) hqueue

theorem noHoldQueueFor_of_none (h : p.lookedUp o = none) : ¬ NoHoldQueueFor cfg s o p := by
  rintro ⟨flow, hflow, -⟩
  rw [h] at hflow
  cases hflow

theorem noHoldQueueFor_of_some {flow : FlowTuple} (h : p.lookedUp o = some flow) :
    NoHoldQueueFor cfg s o p ↔ s.NoHoldQueue cfg o.flow flow.key p.flowPacket := by
  constructor
  · rintro ⟨flow', hflow, hqueue⟩
    rw [h] at hflow
    cases hflow
    exact hqueue
  · exact fun hqueue => ⟨flow, h, hqueue⟩

section

variable (hinv : FlowInv cfg s.view) (htakes : p.takesFlow = true)
include hinv htakes

theorem vrInetFlowLookup_settled_iff (htype : p.vpType = .ip) :
    SettledResult (vrInetFlowLookup cfg s o p) ↔ ¬ NoHoldQueueFor cfg s o p := by
  unfold vrInetFlowLookup
  cases hset : p.flowSet with
  | true =>
    have hnone : p.lookedUp o = none := by simp [ForwardPacket.lookedUp, hset]
    exact iff_of_true (settledResult_some.mpr (by simp [Settled])) (noHoldQueueFor_of_none hnone)
  | false =>
    cases hpolicy : p.policy with
    | false =>
      have hnone : p.lookedUp o = none := by simp [ForwardPacket.lookedUp, hpolicy]
      exact iff_of_true (settledResult_some.mpr (by simp [Settled])) (noHoldQueueFor_of_none hnone)
    | true =>
      have hlooked : p.lookedUp o =
          if isBmcastIp (ipDaddr p.vpHead p.vpNetworkH) then none
          else vrInetFormFlow (p.context o) p.vpHead p.vpNetworkH := by
        simp [ForwardPacket.lookedUp, htakes, hset, hpolicy, htype]
      simp only [Bool.false_eq_true, if_false, Bool.not_true]
      split
      · rename_i hbmcast
        rw [if_pos hbmcast] at hlooked
        refine iff_of_true ?_ (noHoldQueueFor_of_none hlooked)
        split <;> exact settledResult_some.mpr (by simp [Settled])
      rename_i hbmcast
      rw [if_neg hbmcast] at hlooked
      split
      · rename_i hform
        refine iff_of_true ?_ (noHoldQueueFor_of_none (hlooked.trans hform))
        split <;> exact settledResult_some.mpr (by simp [Settled])
      · rename_i flow hform
        rw [noHoldQueueFor_of_some (hlooked.trans hform)]
        exact flowLookup_settled_iff hinv flow

/-- The IPv6 lookup claims what has no key and does nothing with it. -/
theorem vrInet6FlowLookup_settled_iff (htype : p.vpType = .ip6) :
    SettledResult (vrInet6FlowLookup cfg s o p) ↔
      ¬ p.QuotesIcmp6Error ∧ ¬ NoHoldQueueFor cfg s o p := by
  have hquotes : p.QuotesIcmp6Error ↔ p.flowSet = false ∧
      vrInet6FormFlow (p.context o) p.vpHead p.vpNetworkH = none := by
    unfold ForwardPacket.QuotesIcmp6Error vrInet6FormFlow
    rw [formFlow_eq_none]
    simp [htakes, htype, ip6FlowHeader]
  unfold vrInet6FlowLookup
  rw [hquotes]
  cases hset : p.flowSet with
  | true =>
    have hnone : p.lookedUp o = none := by simp [ForwardPacket.lookedUp, hset]
    exact iff_of_true (settledResult_some.mpr (by simp [Settled]))
      ⟨by simp, noHoldQueueFor_of_none hnone⟩
  | false =>
    have hlooked : p.lookedUp o =
        if !p.policy then none
        else if ip6Nxt p.vpHead p.vpNetworkH = vrIp6ProtoFrag then none
        else vrInet6FormFlow (p.context o) p.vpHead p.vpNetworkH := by
      simp [ForwardPacket.lookedUp, htakes, hset, htype]
    simp only [Bool.false_eq_true, if_false, true_and]
    split
    · rename_i hfrag
      have hnone : p.lookedUp o = none := by simp [hlooked, hfrag]
      have hform : vrInet6FormFlow (p.context o) p.vpHead p.vpNetworkH ≠ none := by
        -- a fragment header is no ICMP header
        intro hform
        have herror := (formFlow_eq_none.mp hform).1
        simp [isIcmpError, ip6FlowHeader, hfrag, icmp6, vrIp6ProtoFrag] at herror
      exact iff_of_true (settledResult_some.mpr (by simp [Settled]))
        ⟨hform, noHoldQueueFor_of_none hnone⟩
    · rename_i hfrag
      split
      · rename_i hform
        exact iff_of_false (mt settledResult_some.mp (by simp [Settled])) fun h => h.1 hform
      rename_i flow hform
      rw [if_neg hfrag] at hlooked
      cases hpolicy : p.policy with
      | true =>
        rw [hpolicy] at hlooked
        rw [noHoldQueueFor_of_some (hlooked.trans hform), if_pos rfl,
          flowLookup_settled_iff hinv flow]
        simp [hform]
      | false =>
        rw [hpolicy] at hlooked
        exact iff_of_true (settledResult_some.mpr (by simp [Settled]))
          ⟨by simp [hform], noHoldQueueFor_of_none hlooked⟩

theorem vrDoFlowLookup_settled_iff :
    SettledResult (vrDoFlowLookup cfg s o p) ↔
      ¬ p.QuotesIcmp6Error ∧ ¬ NoHoldQueueFor cfg s o p := by
  have hquotes : p.vpType ≠ .ip6 → ¬ p.QuotesIcmp6Error := fun htype h => htype h.2.1
  have hother : p.vpType ≠ .ip → p.vpType ≠ .ip6 →
      (SettledResult (some (s, .forward, [])) ↔
        ¬ p.QuotesIcmp6Error ∧ ¬ NoHoldQueueFor cfg s o p) := by
    intro hip hip6
    have hnone : p.lookedUp o = none := by
      unfold ForwardPacket.lookedUp
      split
      · rfl
      · split <;> first | contradiction | rfl
    exact iff_of_true (settledResult_some.mpr (by simp [Settled]))
      ⟨hquotes hip6, noHoldQueueFor_of_none hnone⟩
  unfold vrDoFlowLookup
  split
  · rename_i htype
    rw [vrInetFlowLookup_settled_iff hinv htakes htype]
    exact (and_iff_right (hquotes (by simp [htype]))).symm
  · rename_i htype
    exact vrInet6FlowLookup_settled_iff hinv htakes htype
  all_goals
    rename_i htype
    exact hother (by simp [htype]) (by simp [htype])

end

theorem disposedOnce_some {forwarded : Bool} {disposals : List Disposal} :
    DisposedOnce (some (s, forwarded, disposals)) ↔
      if forwarded then disposals = [] else disposals.length = 1 := by
  constructor
  · rintro ⟨_, _, _, ⟨⟩, h⟩
    exact h
  · exact fun h => ⟨_, _, _, rfl, h⟩

/-- `__vr_flow_forward` completes a settled result, and cannot mend another. -/
theorem disposedOnce_map_iff (agentIf : Bool) (r : Option LookupResult) :
    DisposedOnce (r.map fun r =>
        (r.1, (vrFlowForwardResult agentIf r.2.1).1,
          r.2.2 ++ (vrFlowForwardResult agentIf r.2.1).2)) ↔ SettledResult r := by
  cases r with
  | none =>
    refine iff_of_false ?_ not_settledResult_none
    rintro ⟨_, _, _, h, -⟩
    cases h
  | some r =>
    obtain ⟨s', result, disposals⟩ := r
    rw [settledResult_some]
    refine disposedOnce_some.trans ?_
    cases result <;> simp [Settled, vrFlowForwardResult]

end

/-- In every state a flow table reaches, and whatever the surroundings decide: a packet given to
`vr_flow_forward` is returned, or freed, held or trapped, exactly once, unless it is an ICMPv6 error
that quotes an ICMPv6 error, or needs a flow entry for which there is no memory. -/
theorem vrFlowForward_disposedOnce_iff {entries oentries : Nat} {t : Htable}
    (ht : FlowTableCreated entries oentries t) {cfg : FlowConfig} {notReady : Bool}
    {as : List FlowStep} {s : FlowSys}
    (hrun : runSteps (FlowSys.step cfg) (.initial t notReady) as = some s) (o : ForwardOutcome)
    (p : ForwardPacket) :
    DisposedOnce (vrFlowForward cfg s o p) ↔
      ¬ p.QuotesIcmp6Error ∧ ¬ NoHoldQueueFor cfg s o p := by
  have hinv := FlowSys.run_inv ht hrun
  unfold vrFlowForward
  rw [disposedOnce_map_iff]
  cases htakes : p.takesFlow with
  | true => exact vrDoFlowLookup_settled_iff hinv htakes
  | false =>
    have hnone : p.lookedUp o = none := by simp [ForwardPacket.lookedUp, htakes]
    refine iff_of_true (settledResult_some.mpr (by simp [Settled]))
      ⟨fun h => ?_, noHoldQueueFor_of_none hnone⟩
    exact absurd (htakes.symm.trans h.1) (by simp)

/-- A packet on an interface with policy, from a virtual machine. -/
def vmPacket (type : PacketType) (bytes : List Nat) : ForwardPacket where
  vpHead := bytesOf bytes
  vpData := 0
  vpTail := bytes.length
  vpLen := bytes.length
  vpEnd := bytes.length
  vpNetworkH := 0
  vpType := type
  vpTtl := 64
  csumPartial := false
  diag := false
  vpNh := none
  multicast := false
  flowSet := false
  flowGet := false
  vif := ⟨true, false, true, true⟩
  fmdVlan := vlanIdInvalid
  fmdDvrf := 0
  relaxedPolicy := false
  vifAllowsNewFlow := true
  nhId := 1
  fatFlowVif := none

/-- An empty fragment queue and an agent interface. -/
def vmOutcome (flow : FlowOutcome) : ForwardOutcome where
  flow := flow
  fragment := none
  assembler := true
  enqueue := ⟨none, false, true, fun _ => true⟩
  stackProto := 0
  stackSport := 0
  agentIf := true

/-- A UDP packet. -/
def udpPacket : ForwardPacket :=
  vmPacket .ip [0x45, 0, 0, 28, 0, 0, 0, 0, 64, 17, 0, 0, 10, 0, 0, 1, 10, 0, 0, 2,
    0x30, 0x39, 0, 53, 0, 8, 0, 0]

/-- An ICMPv6 "destination unreachable" that quotes one. -/
def nestedIcmp6 : ForwardPacket :=
  vmPacket .ip6
    ([0x60, 0, 0, 0, 0, 64, 58, 64] ++ List.replicate 32 1 ++ [1, 0, 0, 0, 0, 0, 0, 0] ++
      [0x60, 0, 0, 0, 0, 8, 58, 64] ++ List.replicate 32 1 ++ [1, 0, 0, 0, 0, 0, 0, 0])

/-- The first UDP packet of a flow is held. -/
theorem vrFlowForward_disposedOnce_udp :
    ∃ t s, FlowTableCreated 8 0 t ∧
      runSteps (FlowSys.step smallConfig) (.initial t false) [] = some s ∧
      ¬ udpPacket.QuotesIcmp6Error ∧
      ¬ NoHoldQueueFor smallConfig s (vmOutcome allSucceed) udpPacket ∧
      DisposedOnce (vrFlowForward smallConfig s (vmOutcome allSucceed) udpPacket) := by
  have hquotes : ¬ udpPacket.QuotesIcmp6Error := fun h => nomatch h.2.1
  have hqueue : ¬ NoHoldQueueFor smallConfig (.initial smallTable false) (vmOutcome allSucceed)
      udpPacket := by
    rintro ⟨flow, -, -, -, -, -, h⟩
    cases h
  exact ⟨smallTable, _, smallTable_created, rfl, hquotes, hqueue,
    (vrFlowForward_disposedOnce_iff smallTable_created (smallEnd_run [] rfl) _ _).mpr
      ⟨hquotes, hqueue⟩⟩

/-- The nested ICMPv6 error is neither forwardable nor freed, held or trapped, and a packet that
needs a flow entry without memory for its queue ends in a null pointer. -/
theorem vrFlowForward_loses_packet :
    ∃ t s, FlowTableCreated 8 0 t ∧
      runSteps (FlowSys.step smallConfig) (.initial t false) [] = some s ∧
      vrFlowForward smallConfig s (vmOutcome allSucceed) nestedIcmp6 = some (s, false, []) ∧
      vrFlowForward smallConfig s (vmOutcome { allSucceed with queueAlloc := false }) udpPacket =
        none ∧
      ¬ DisposedOnce (vrFlowForward smallConfig s (vmOutcome allSucceed) nestedIcmp6) := by
  refine ⟨smallTable, _, smallTable_created, rfl, rfl, rfl, ?_⟩
  rintro ⟨_, _, _, ⟨⟩, h⟩
  cases h

/-! ## Multicast and broadcast -/

/-- On such an interface `vr_inet_should_trap` compares the flow key. For a multicast or broadcast
packet the key has not been formed: what it reads is what the stack holds. -/
def ForwardPacket.ReadsUnformedKey (p : ForwardPacket) : Prop :=
  p.flowSet = false ∧ p.policy = true ∧ p.vif.virtual = true ∧ p.vif.dhcpEnabled = true

/-- A DHCP client's broadcast from a virtual machine, over an interface with or without policy. -/
def dhcpPacket (policy : Bool) : ForwardPacket :=
  { vmPacket .ip [0x45, 0, 0, 28, 0, 0, 0, 0, 64, 17, 0, 0, 0, 0, 0, 0, 255, 255, 255, 255,
      0, 68, 0, 67, 0, 8, 0, 0] with vif := ⟨true, false, policy, true⟩ }

end VRouter
