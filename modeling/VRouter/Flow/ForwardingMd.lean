import VRouter.Flow.Run

/-!
# VRouter — forwarding metadata of held packets

`__vr_flow_flush_hold_queue` lets all packets of a queue use one block of metadata. Each slot writes
what was saved with its packet to the block, `vr_flow_action` and the functions that forward the
packet write to it as well, and it is as they left it when the next slot comes.

* `vrFlowFlushPnodeMd`: one slot, with the block it finds and the block it leaves.
* `flushPnodes_eq_map`: a queue is flushed as each packet alone would be, if no packet finds the
  to-me mark of another one. The mark is the only field of a decision that a slot sets and no slot
  takes back.
-/

namespace VRouter

/-! ## The block -/

/-- The fields of `struct vr_forwarding_md` that the decision about a packet rests on. -/
@[ext]
structure DecisionMd where
  fmdFlowIndex : Int
  fmdLabel : Int
  /-- `FMD_FLAG_LABEL_IS_VXLAN_ID`, the one bit of `fmd_flags`. -/
  labelIsVxlanId : Bool
  fmdEcmpNhIndex : Int
  fmdEcmpSrcNhIndex : Int
  fmdDvrf : Int
  fmdOuterSrcIp : Nat
  fmdToMe : Bool
  fmdDscp : Int
  fmdDotonep : Int
  deriving DecidableEq, Repr

/-- `struct vr_forwarding_md` as the flow module fills it. The fields added here are for output
functions. -/
structure FlowForwardingMd extends DecisionMd where
  fmdVlan : Nat
  fmdUdpSrcPort : Nat
  fmdSrc : Nat
  deriving DecidableEq, Repr

/-- An unsigned number stored in a signed type with `m` values. -/
def toSigned (m n : Nat) : Int := if n % m < m / 2 then (n % m : Nat) else (n % m : Nat) - (m : Int)

/-- `vr_init_forwarding_md`. `VLAN_ID_INVALID` is `0xFFFF`. -/
def vrInitForwardingMd : FlowForwardingMd where
  fmdFlowIndex := -1
  fmdEcmpNhIndex := -1
  fmdEcmpSrcNhIndex := -1
  fmdLabel := -1
  fmdDvrf := -1
  fmdOuterSrcIp := 0
  fmdVlan := 0xFFFF
  fmdUdpSrcPort := 0
  fmdToMe := false
  fmdSrc := 0
  labelIsVxlanId := false
  fmdDscp := -1
  fmdDotonep := -1

/-- `vr_flow_set_forwarding_md`. `fmd_flow_index` is an `int32_t`. -/
def FlowSys.vrFlowSetForwardingMd (s : FlowSys) (fe index : Nat) (md : FlowForwardingMd) :
    FlowForwardingMd :=
  let e := s.entry fe
  let md :=
    { md with
      fmdFlowIndex := toSigned 4294967296 index
      fmdEcmpNhIndex := e.feEcmpNhIndex
      fmdUdpSrcPort := e.feUdpSrcPort }
  if e.feFlags.rflowValid then
    match s.vrFlowGetEntry e.feRflow with
    | some rfe => { md with fmdEcmpSrcNhIndex := (s.entry rfe).feEcmpNhIndex }
    | none => md
  else md

/-! ## One slot -/

/-- `struct vr_packet_node`, as far as a flush reads it. -/
structure PacketNode where
  plPacket : Option FlowPacket
  plOuterSrcIp : Nat
  plLabel : Nat
  plVifIdx : Nat
  /-- `PN_FLAG_LABEL_IS_VXLAN_ID` and `PN_FLAG_TO_ME`. -/
  labelIsVxlanId : Bool
  toMe : Bool
  plDscp : Int
  plDotonep : Int

/-- What a flush meets in other modules. -/
structure FlushEnv where
  /-- `__vrouter_get_interface` finds the packet's own interface for an index. -/
  vifMatches : Nat → FlowPacket → Bool
  vifIsFabric : FlowPacket → Bool
  /-- What `vr_flow_action` meets. Of the metadata, `nh_validate_src` reads
  `fmd_ecmp_src_nh_index` and `fmd_outer_src_ip`. -/
  action : FlowPacket → Int → Nat → ActionOutcome
  /-- The block as `vr_reinject_packet` leaves it. -/
  reinject : FlowPacket → FlowForwardingMd → FlowForwardingMd

/-- The source VRF, as the `int16_t` `fmd_dvrf` holds it, is not the destination VRF of a flow with
`VR_FLOW_FLAG_VRFT`. -/
def FlowEntry.translatesVrf (e : FlowEntry) : Bool :=
  e.feFlags.vrft && toSigned 65536 e.feVrf != e.feDvrf

/-- `vr_flow_action` writes the VRF twice: for the source check, and behind it. -/
def FlowEntry.setSourceVrf (e : FlowEntry) (md : FlowForwardingMd) : FlowForwardingMd :=
  { md with fmdDvrf := toSigned 65536 e.feVrf }

def FlowEntry.setDestinationVrf (e : FlowEntry) (md : FlowForwardingMd) : FlowForwardingMd :=
  if e.translatesVrf then
    { md with fmdDvrf := toSigned 65536 e.feDvrf, fmdToMe := true }
  else md

/-- `vr_flow_action` with the metadata it writes; `none` if the source does not check out. -/
def vrFlowActionMd (env : FlushEnv) (e : FlowEntry) (pkt : FlowPacket) (md : FlowForwardingMd) :
    Option FlowResult × FlowForwardingMd :=
  let o := env.action pkt md.fmdEcmpSrcNhIndex md.fmdOuterSrcIp
  let md := e.setSourceVrf md
  match o.sourceCheck e.feSrcNhIndex with
  | .noNexthop | .invalid => (none, md)
  | .mismatch | .valid =>
    (some (FlowSys.actionResult o pkt e.feAction), e.setDestinationVrf md)

/-- What becomes of a held packet. -/
inductive FlushedPacket where
  /-- Freed because of its interface or its source. -/
  | invalid
  /-- The flow's action, the label the packet gets its nexthop from, and the metadata. -/
  | decided (result : FlowResult) (nhLabel : Option Int) (md : DecisionMd)
  deriving DecidableEq, Repr

/-- What `vr_flow_flush_pnode` writes before it looks for a packet. -/
def PacketNode.setSaved (pnode : PacketNode) (md : FlowForwardingMd) : FlowForwardingMd :=
  { md with
    fmdOuterSrcIp := pnode.plOuterSrcIp
    fmdLabel := toSigned 4294967296 pnode.plLabel
    labelIsVxlanId := pnode.labelIsVxlanId
    fmdToMe := if pnode.toMe then true else md.fmdToMe }

/-- And when it has found one. -/
def PacketNode.setQos (pnode : PacketNode) (md : FlowForwardingMd) : FlowForwardingMd :=
  { md with fmdDscp := pnode.plDscp, fmdDotonep := pnode.plDotonep }

/-- The label a packet from the fabric gets its nexthop from. -/
def FlowForwardingMd.nhLabel (env : FlushEnv) (pkt : FlowPacket) (md : FlowForwardingMd) :
    Option Int :=
  if env.vifIsFabric pkt && decide (0 ≤ md.fmdLabel) && !md.labelIsVxlanId then some md.fmdLabel
  else none

/-- `vr_flow_flush_pnode`. A slot without a packet writes to the block all the same. -/
def vrFlowFlushPnodeMd (env : FlushEnv) (e : FlowEntry) (pnode : PacketNode)
    (md : FlowForwardingMd) : FlowForwardingMd × Option FlushedPacket :=
  let md := pnode.setSaved md
  match pnode.plPacket with
  | none => (md, none)
  | some pkt =>
    let md := pnode.setQos md
    if !env.vifMatches pnode.plVifIdx pkt then (md, some .invalid)
    else
      match vrFlowActionMd env e pkt md with
      | (none, md) => (md, some .invalid)
      | (some result, md') =>
        (if result = .forward then env.reinject pkt md' else md',
          some (.decided result (md.nhLabel env pkt) md'.toDecisionMd))

/-- The loop of `__vr_flow_flush_hold_queue`: what becomes of the packets of the slots. -/
def flushPnodes (env : FlushEnv) (e : FlowEntry) :
    List PacketNode → FlowForwardingMd → List (Option FlushedPacket)
  | [], _ => []
  | pnode :: pnodes, md =>
    let r := vrFlowFlushPnodeMd env e pnode md
    r.2 :: flushPnodes env e pnodes r.1

theorem vrFlowActionMd_cases (env : FlushEnv) (e : FlowEntry) (pkt : FlowPacket)
    (md : FlowForwardingMd) :
    (∃ o, o = env.action pkt md.fmdEcmpSrcNhIndex md.fmdOuterSrcIp ∧
      ((o.sourceCheck e.feSrcNhIndex = .noNexthop ∨ o.sourceCheck e.feSrcNhIndex = .invalid) ∧
        vrFlowActionMd env e pkt md = (none, e.setSourceVrf md) ∨
      (o.sourceCheck e.feSrcNhIndex = .mismatch ∨ o.sourceCheck e.feSrcNhIndex = .valid) ∧
        vrFlowActionMd env e pkt md = (some (FlowSys.actionResult o pkt e.feAction),
          e.setDestinationVrf (e.setSourceVrf md)))) := by
  refine ⟨_, rfl, ?_⟩
  unfold vrFlowActionMd
  cases hcheck : (env.action pkt md.fmdEcmpSrcNhIndex md.fmdOuterSrcIp).sourceCheck
      e.feSrcNhIndex with
  | noNexthop => exact .inl ⟨.inl rfl, by simp only [hcheck]⟩
  | invalid => exact .inl ⟨.inr rfl, by simp only [hcheck]⟩
  | mismatch => exact .inr ⟨.inl rfl, by simp only [hcheck]⟩
  | valid => exact .inr ⟨.inr rfl, by simp only [hcheck]⟩

/-! ## Two blocks -/

/-- The fields that `vr_flow_set_forwarding_md` sets for the flow and no slot writes. -/
structure FlowForwardingMd.SameFlow (md md' : FlowForwardingMd) : Prop where
  flowIndex : md'.fmdFlowIndex = md.fmdFlowIndex
  ecmpNhIndex : md'.fmdEcmpNhIndex = md.fmdEcmpNhIndex
  ecmpSrcNhIndex : md'.fmdEcmpSrcNhIndex = md.fmdEcmpSrcNhIndex

/-- Forwarding a packet leaves these fields and the to-me mark alone. -/
structure FlushEnv.Keeps (env : FlushEnv) : Prop where
  flow : ∀ pkt (md : FlowForwardingMd), md.SameFlow (env.reinject pkt md)
  toMe : ∀ pkt (md : FlowForwardingMd), (env.reinject pkt md).fmdToMe = md.fmdToMe

namespace FlowForwardingMd

variable {md md' : FlowForwardingMd} {e : FlowEntry} {pnode : PacketNode}

theorem SameFlow.refl (md : FlowForwardingMd) : md.SameFlow md := ⟨rfl, rfl, rfl⟩

theorem SameFlow.trans {md'' : FlowForwardingMd} (h : md.SameFlow md') (h' : md'.SameFlow md'') :
    md.SameFlow md'' :=
  ⟨h'.flowIndex.trans h.flowIndex, h'.ecmpNhIndex.trans h.ecmpNhIndex,
    h'.ecmpSrcNhIndex.trans h.ecmpSrcNhIndex⟩

theorem setDestinationVrf_sameFlow (e : FlowEntry) (md : FlowForwardingMd) :
    md.SameFlow (e.setDestinationVrf md) := by
  unfold FlowEntry.setDestinationVrf
  cases e.translatesVrf with
  | true => exact ⟨rfl, rfl, rfl⟩
  | false => exact .refl md

theorem setDestinationVrf_toMe (e : FlowEntry) (md : FlowForwardingMd) :
    (e.setDestinationVrf md).fmdToMe = (e.translatesVrf || md.fmdToMe) := by
  unfold FlowEntry.setDestinationVrf
  cases e.translatesVrf with
  | true | false => rfl

theorem setSaved_toMe (pnode : PacketNode) (md : FlowForwardingMd) :
    (pnode.setSaved md).fmdToMe = (pnode.toMe || md.fmdToMe) := by
  unfold PacketNode.setSaved
  cases pnode.toMe with
  | true | false => rfl

/-- With its own to-me mark, or a translation that sets the mark, or the same mark before, a packet
has the same metadata from both blocks. -/
theorem SameFlow.decision (h : md.SameFlow md')
    (htoMe : pnode.toMe ∨ e.translatesVrf ∨ md'.fmdToMe = md.fmdToMe) :
    (e.setDestinationVrf (e.setSourceVrf (pnode.setQos (pnode.setSaved md')))).toDecisionMd =
      (e.setDestinationVrf (e.setSourceVrf (pnode.setQos (pnode.setSaved md)))).toDecisionMd := by
  unfold FlowEntry.setDestinationVrf
  cases htranslates : e.translatesVrf with
  | true =>
    exact DecisionMd.ext h.flowIndex rfl rfl h.ecmpNhIndex h.ecmpSrcNhIndex rfl rfl rfl rfl rfl
  | false =>
    have hmark : (pnode.setSaved md').fmdToMe = (pnode.setSaved md).fmdToMe := by
      rw [setSaved_toMe, setSaved_toMe]
      rcases htoMe with hown | htrue | hsame
      · rw [hown, Bool.true_or, Bool.true_or]
      · exact absurd (htranslates.symm.trans htrue) Bool.false_ne_true
      · rw [hsame]
    exact DecisionMd.ext h.flowIndex rfl rfl h.ecmpNhIndex h.ecmpSrcNhIndex rfl rfl hmark rfl rfl

end FlowForwardingMd

section

variable {env : FlushEnv} {e : FlowEntry} {pnode : PacketNode} {md md' : FlowForwardingMd}

/-- A slot from two blocks: what becomes of its packet is the same. -/
theorem flushPnode_congr (h : md.SameFlow md')
    (htoMe : pnode.plPacket.isSome → pnode.toMe ∨ e.translatesVrf ∨ md'.fmdToMe = md.fmdToMe) :
    (vrFlowFlushPnodeMd env e pnode md').2 = (vrFlowFlushPnodeMd env e pnode md).2 := by
  unfold vrFlowFlushPnodeMd
  cases hpkt : pnode.plPacket with
  | none => rfl
  | some pkt =>
    dsimp only
    split
    · rfl
    have hdecision := h.decision (htoMe (by rw [hpkt]; rfl))
    obtain ⟨o, ho, hcases⟩ := vrFlowActionMd_cases env e pkt (pnode.setQos (pnode.setSaved md))
    obtain ⟨o', ho', hcases'⟩ :=
      vrFlowActionMd_cases env e pkt (pnode.setQos (pnode.setSaved md'))
    -- the source check reads a field of the flow and one of the packet
    obtain rfl : o' = o := by
      rw [ho, ho']
      show env.action pkt md'.fmdEcmpSrcNhIndex pnode.plOuterSrcIp =
        env.action pkt md.fmdEcmpSrcNhIndex pnode.plOuterSrcIp
      rw [h.ecmpSrcNhIndex]
    rcases hcases with ⟨hcheck, heq⟩ | ⟨hcheck, heq⟩
    · rcases hcases' with ⟨hcheck', heq'⟩ | ⟨hcheck', heq'⟩
      · rw [heq, heq']
      · rcases hcheck with hcheck | hcheck
        · rw [hcheck] at hcheck'
          exact absurd hcheck' (by decide)
        · rw [hcheck] at hcheck'
          exact absurd hcheck' (by decide)
    · rcases hcases' with ⟨hcheck', heq'⟩ | ⟨hcheck', heq'⟩
      · rcases hcheck' with hcheck' | hcheck'
        · rw [hcheck'] at hcheck
          exact absurd hcheck (by decide)
        · rw [hcheck'] at hcheck
          exact absurd hcheck (by decide)
      · rw [heq, heq']
        dsimp only
        rw [hdecision]
        rfl

/-- The block a slot leaves: the flow's fields are kept, and the to-me mark is there only if it was
there before or this slot has set it. -/
theorem flushPnode_leaves (hkeeps : env.Keeps) (md : FlowForwardingMd) :
    md.SameFlow (vrFlowFlushPnodeMd env e pnode md).1 ∧
      ((vrFlowFlushPnodeMd env e pnode md).1.fmdToMe →
        md.fmdToMe ∨ pnode.toMe ∨ e.translatesVrf) := by
  have hsaved : (pnode.setSaved md).fmdToMe → md.fmdToMe ∨ pnode.toMe ∨ e.translatesVrf := by
    rw [FlowForwardingMd.setSaved_toMe, Bool.or_eq_true]
    rintro (hown | hbefore)
    · exact .inr (.inl hown)
    · exact .inl hbefore
  unfold vrFlowFlushPnodeMd
  cases pnode.plPacket with
  | none => exact ⟨⟨rfl, rfl, rfl⟩, hsaved⟩
  | some pkt =>
    dsimp only
    split
    · exact ⟨⟨rfl, rfl, rfl⟩, hsaved⟩
    obtain ⟨o, -, ⟨-, heq⟩ | ⟨-, heq⟩⟩ :=
      vrFlowActionMd_cases env e pkt (pnode.setQos (pnode.setSaved md))
    · rw [heq]
      exact ⟨⟨rfl, rfl, rfl⟩, hsaved⟩
    rw [heq]
    dsimp only
    generalize hacted : e.setDestinationVrf
      (e.setSourceVrf (pnode.setQos (pnode.setSaved md))) = acted
    have hsource : md.SameFlow (e.setSourceVrf (pnode.setQos (pnode.setSaved md))) :=
      ⟨rfl, rfl, rfl⟩
    have hflow : md.SameFlow acted := by
      rw [← hacted]
      exact hsource.trans (FlowForwardingMd.setDestinationVrf_sameFlow e _)
    have hmark : acted.fmdToMe → md.fmdToMe ∨ pnode.toMe ∨ e.translatesVrf := by
      rw [← hacted, FlowForwardingMd.setDestinationVrf_toMe, Bool.or_eq_true]
      rintro (htranslates | hbefore)
      · exact .inr (.inr htranslates)
      · exact hsaved hbefore
    split
    · refine ⟨hflow.trans (hkeeps.flow pkt acted), ?_⟩
      rw [hkeeps.toMe]
      exact hmark
    · exact ⟨hflow, hmark⟩

end

/-- No packet of a queue without a to-me mark stands behind a slot with one. -/
def ToMeOrdered (pnodes : List PacketNode) : Prop :=
  pnodes.Pairwise fun p q => p.toMe → q.plPacket.isSome → q.toMe

/-- A queue from a block that may already have the to-me mark. -/
theorem flushPnodes_eq_map {env : FlushEnv} (hkeeps : env.Keeps) {e : FlowEntry}
    {fresh : FlowForwardingMd} (hfresh : fresh.fmdToMe = false) (pnodes : List PacketNode) :
    ∀ {md : FlowForwardingMd}, fresh.SameFlow md → (e.translatesVrf ∨ ToMeOrdered pnodes) →
      (∀ p ∈ pnodes, p.plPacket.isSome → p.toMe ∨ e.translatesVrf ∨ md.fmdToMe = false) →
      flushPnodes env e pnodes md =
        pnodes.map fun p => (vrFlowFlushPnodeMd env e p fresh).2 := by
  induction pnodes with
  | nil => exact fun _ _ _ => rfl
  | cons p pnodes ih =>
    intro md hflow hordered htoMe
    obtain ⟨hflow', hmark⟩ := @flushPnode_leaves env e p hkeeps md
    have hhead := htoMe p List.mem_cons_self
    rw [← hfresh] at hhead
    rw [flushPnodes, flushPnode_congr hflow hhead]
    congr 1
    refine ih (hflow.trans hflow') (hordered.imp_right fun h => (List.pairwise_cons.mp h).2)
      fun q hq hpkt => ?_
    -- the mark `q` finds is its own, of the translation, or of nobody
    rcases hordered with htranslates | hordered
    · exact .inr (.inl htranslates)
    cases hleft : (vrFlowFlushPnodeMd env e p md).1.fmdToMe with
    | false => exact .inr (.inr rfl)
    | true =>
      rcases hmark hleft with hbefore | hp | htranslates
      · rcases htoMe q (List.mem_cons_of_mem _ hq) hpkt with hq' | htranslates | hclear
        · exact .inl hq'
        · exact .inr (.inl htranslates)
        · exact absurd (hclear.symm.trans hbefore) Bool.false_ne_true
      · exact .inl ((List.pairwise_cons.mp hordered).1 q hq hp hpkt)
      · exact .inr (.inl htranslates)

theorem FlowSys.vrFlowSetForwardingMd_toMe (s : FlowSys) (fe index : Nat) (md : FlowForwardingMd) :
    (s.vrFlowSetForwardingMd fe index md).fmdToMe = md.fmdToMe := by
  unfold vrFlowSetForwardingMd
  dsimp only
  split
  · split <;> rfl
  · rfl

/-- A slot with a packet from a virtual machine. -/
def vmPnode (toMe : Bool) : PacketNode where
  plPacket := some (tcpPacket false)
  plOuterSrcIp := 0
  plLabel := 0
  plVifIdx := 0
  labelIsVxlanId := false
  toMe := toMe
  plDscp := 0
  plDotonep := 0

/-- All interfaces and sources are in order, and forwarding does not touch the block. -/
def plainFlush : FlushEnv where
  vifMatches := fun _ _ => true
  vifIsFabric := fun _ => false
  action := fun _ _ _ => allSucceed.action 0
  reinject := fun _ md => md

theorem plainFlush_keeps : plainFlush.Keeps := ⟨fun _ md => .refl md, fun _ _ => rfl⟩

instance (pnodes : List PacketNode) : Decidable (ToMeOrdered pnodes) :=
  inferInstanceAs (Decidable (pnodes.Pairwise _))

/-- The metadata of such a packet when flow 4 forwards it. -/
def vmDecision (toMe : Bool) : DecisionMd := ⟨4, 0, false, 0, -1, 0, 0, toMe, 0, 0⟩

end VRouter
