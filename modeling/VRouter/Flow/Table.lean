import VRouter.Flow.Entry
import VRouter.Htable.Table

/-!
# VRouter — the flow table (`vr_flow.c`)

The flow module as a state that packets, requests of the agent, work items and deferred callbacks
change. Each of them is one atomic step (`FlowSys.step`).

What the module takes from its surroundings during a step is an argument: the outcome of each
allocation, the CPU it runs on, what the nexthop and interface tables say at that moment
(`FlowOutcome`). A pointer to an entry is the entry's index, as in `VRouter.Htable.Table`.
Functions that would follow a null pointer return `none`.

Two fields are no part of the source's state and no function reads them: `incarnation` counts how
often an entry has been taken into use, and `madeFor` records the entries, with their incarnations,
that a work item or callback was made for.
-/

namespace VRouter

open LongestMatch Function

/-! ## State -/

/-- `struct vr_flow_table_info`. -/
structure FlowTableInfo where
  vftiActionCount : Nat
  vftiAdded : Nat
  vftiOflows : Nat
  vftiHoldCount : Nat → Nat

/-- `struct vr_flow_defer_data`. -/
structure FlowDeferData where
  vfddFlowQueue : Option FlowQueue
  vfddFe : Nat
  vfddDelete : Bool
  madeFor : List (Nat × Nat)

/-- `struct vr_flow_md`, the argument of a work item. `flmd_defer_data` and its `vdd_data` can each
be null. -/
structure FlowMd where
  flmdIndex : Nat
  flmdFlags : FlowFlags
  flmdDeferData : Option (Option FlowDeferData)
  madeFor : List (Nat × Nat)

/-- The flow table, its counters, the link-local port bitmap and the scheduler's queues. -/
structure FlowSys where
  ht : HtSys
  entry : Nat → FlowEntry
  info : FlowTableInfo
  linkLocalPorts : Nat → Bool
  works : List FlowMd
  callbacks : List FlowDeferData
  incarnation : Nat → Nat

/-- What the module is configured with. -/
structure FlowConfig where
  vrHash : List Octet → Nat
  vrNumCpus : Nat
  vrFlowHoldLimit : Nat
  vrMaxVrfs : Nat
  vrMaxMirrorIndices : Nat
  vrNumCpus_lt : vrNumCpus < 2 ^ 32

/-- Outcomes in `__vr_flow_schedule_transition`: the three allocations and `vr_schedule_work`. -/
structure TransitionOutcome where
  flmd : Bool
  defer : Bool
  vfdd : Bool
  scheduled : Bool

/-- What one call of `vr_flow_action` meets. -/
structure ActionOutcome where
  sourceCheck : Nat → SourceCheck
  /-- `vr_inet_flow_nat` returns `FLOW_FORWARD`. -/
  natForwards : Bool
  transition : TransitionOutcome

/-- What a step meets. `action i` and `vifPresent i` are for the packet in slot `i` of a queue that
is flushed; a packet that arrives has `action 0`. -/
structure FlowOutcome where
  cpu : Nat
  queueAlloc : Bool
  cloned : Bool
  action : Nat → ActionOutcome
  vifPresent : Nat → Bool
  transition : TransitionOutcome
  /-- `vrouter_get_mirror` finds a mirror. -/
  mirrorExists : Nat → Bool
  jhash : Nat
  /-- Outcome of `vr_schedule_work` when the hash table releases an entry. -/
  htScheduled : Nat → Bool

/-- `vr_flow_req`. A family other than `AF_INET` and `AF_INET6` is `none`. -/
structure FlowReq where
  frIndex : Int
  frRindex : Int
  frAction : FlowAction
  frFlags : FlowFlags
  frFamily : Option Family
  frFlowIp : List Octet
  frFlowSport : Nat
  frFlowDport : Nat
  frFlowProto : Octet
  frFlowNhId : Nat
  frFlowVrf : Nat
  frFlowDvrf : Nat
  frSrcNhIndex : Nat
  frEcmpNhIndex : Int
  frMirId : Int
  frSecMirId : Int
  frQosId : Int
  frTtl : Nat
  frDropReason : Nat
  frGenId : Nat
  frFlowBytes : Nat
  frFlowPackets : Nat
  frFlowStatsOflow : Nat

namespace FlowSys

/-- Write to one entry. -/
@[simps -fullyApplied ht info works callbacks incarnation]
def modify (s : FlowSys) (i : Nat) (f : FlowEntry → FlowEntry) : FlowSys :=
  { s with entry := update s.entry i (f (s.entry i)) }

/-! ### Reading back what was written -/

section

variable (s : FlowSys) (i : Nat) (f : FlowEntry → FlowEntry)

@[simp] theorem modify_self : (s.modify i f).entry i = f (s.entry i) := by
  simp [modify]

theorem modify_of_ne {j : Nat} (h : j ≠ i) : (s.modify i f).entry j = s.entry j := by
  simp [modify, h]

end

/-! ## Entries by index -/

/-- `vr_flow_get_entry`. -/
def vrFlowGetEntry (s : FlowSys) (index : Int) : Option Nat :=
  if index < 0 then none else vrHtableGetHentryByIndex s.ht.table index.toNat

/-! ## Resetting entries -/

/-- `vr_flow_reset_entry`. -/
def vrFlowResetEntry (s : FlowSys) (o : FlowOutcome) (fe : Nat) : Option FlowSys :=
  (vrHtableReleaseHentry s.ht (o.htScheduled fe) fe).map fun ht =>
    { s.modify fe FlowEntry.resetAll with ht := ht }

/-- `vr_flow_evict_flow`, with `vr_flow_reset_active_entry`. -/
def vrFlowEvictFlow (s : FlowSys) (o : FlowOutcome) (fe : Nat) : Option FlowSys :=
  if (s.entry fe).feFlags.active && (s.entry fe).feFlags.evictCandidate then
    (vrHtableReleaseHentry s.ht (o.htScheduled fe) fe).map fun ht =>
      { s.modify fe FlowEntry.evictCore with ht := ht }
  else some s

/-! ## Work items -/

/-- The entries a work item for `fe` is made for: `fe` and its reverse flow. -/
def madeForNow (s : FlowSys) (fe : Nat) : List (Nat × Nat) :=
  (fe, s.incarnation fe) ::
    ((s.vrFlowGetEntry (s.entry fe).feRflow).map fun r => (r, s.incarnation r)).toList

/-- `__vr_flow_schedule_transition`, and whether it returned zero. Without memory for `vdd_data` a
deletion writes through a null pointer. -/
def vrFlowScheduleTransition (s : FlowSys) (o : TransitionOutcome) (fe index : Nat)
    (flags : FlowFlags) : Option (FlowSys × Bool) :=
  if !o.flmd then some (s, false)
  else
    let wantsDefer := (s.entry fe).feHoldList.isSome || flags.evictCandidate
    if wantsDefer && o.defer && !o.vfdd && !flags.active then none
    else
      let vfdd : FlowDeferData :=
        { vfddFlowQueue := none
          vfddFe := 0
          vfddDelete := !flags.active
          madeFor := s.madeForNow fe }
      let defer :=
        if wantsDefer && o.defer then some (if o.vfdd then some vfdd else none) else none
      if o.scheduled then
        some
          ({ s with
              works := s.works ++
                [{ flmdIndex := index
                   flmdFlags := flags
                   flmdDeferData := defer
                   madeFor := s.madeForNow fe }] },
            true)
      else some (s, false)

/-! ## Eviction marks -/

/-- `__vr_flow_mark_evict`: whether the mark is new. -/
def vrFlowMarkEvictCore (s : FlowSys) (fe : Nat) : Bool × FlowSys :=
  let flags := (s.entry fe).feFlags
  if flags.active then
    (!flags.evictCandidate,
      s.modify fe fun e => { e with feFlags := { e.feFlags with evictCandidate := true } })
  else (false, s)

/-- Apply `f` to the reverse flow, if there is one, and to the flow. -/
def modifyPair (s : FlowSys) (rfe : Option Nat) (fe : Nat) (f : FlowEntry → FlowEntry) : FlowSys :=
  match rfe with
  | some r => (s.modify r f).modify fe f
  | none => s.modify fe f

/-- The second half of `vr_flow_mark_evict`, once the flow (and its reverse flow `rfe`) are locked
and the reverse flow does not stand in the way. -/
def evictForwardFlow (s : FlowSys) (o : TransitionOutcome) (fe index : Nat) (rfe : Option Nat) :
    Option FlowSys :=
  match s.vrFlowMarkEvictCore fe with
  | (true, s) =>
    match s.vrFlowScheduleTransition o fe index (s.entry fe).feFlags with
    | none => none
    | some (s, true) => some s
    | some (s, false) => some (s.modifyPair rfe fe FlowEntry.vrFlowResetEvict)
  | (false, s) => some (s.modifyPair rfe fe FlowEntry.vrFlowStopModify)

/-- `vr_flow_mark_evict`. -/
def vrFlowMarkEvict (s : FlowSys) (o : TransitionOutcome) (fe index : Nat) : Option FlowSys :=
  match (s.entry fe).vrFlowStartModify with
  | none => some s
  | some e =>
    let s := s.modify fe fun _ => e
    match s.vrFlowGetEntry e.feRflow with
    | none => s.evictForwardFlow o fe index none
    | some rfe =>
      if (s.entry rfe).feTcpFlags.dead then
        match (s.entry rfe).vrFlowStartModify with
        | none => some (s.modify fe FlowEntry.vrFlowStopModify)
        | some re =>
          let s := s.modify rfe fun _ => re
          -- flows on hold are not evicted yet
          if (re.feRflow = index ∨ re.feRflow < 0) ∧ re.feAction ≠ .hold then
            match s.vrFlowMarkEvictCore rfe with
            | (true, s) => s.evictForwardFlow o fe index (some rfe)
            | (false, s) => some (s.modifyPair (some rfe) fe FlowEntry.vrFlowStopModify)
          else some (s.modifyPair (some rfe) fe FlowEntry.vrFlowStopModify)
      else some (s.modify fe FlowEntry.vrFlowStopModify)

/-! ## What happens to a packet of a flow -/

/-- The `switch` of `vr_flow_action`. -/
def actionResult (o : ActionOutcome) (pkt : FlowPacket) : FlowAction → FlowResult
  | .forward => .forward
  | .nat => if pkt.vpType = .ip ∧ o.natForwards then .forward else .consumed
  | .drop | .hold | .other _ => .consumed

/-- `vr_flow_action`. A packet whose source does not check out is freed before the flow's state is
looked at. -/
def vrFlowAction (s : FlowSys) (o : ActionOutcome) (fe index : Nat) (pkt : FlowPacket) :
    Option (FlowSys × FlowResult) :=
  match o.sourceCheck (s.entry fe).feSrcNhIndex with
  | .noNexthop | .invalid => some (s, .consumed)
  | .mismatch | .valid =>
    let result := actionResult o pkt (s.entry fe).feAction
    if (s.entry fe).feTcpFlags.dead then
      (s.vrFlowMarkEvict o.transition fe index).map fun s => (s, result)
    else some (s, result)

/-- `vr_do_flow_action`. -/
def vrDoFlowAction (s : FlowSys) (o : FlowOutcome) (fe index : Nat) (pkt : FlowPacket) :
    Option (FlowSys × FlowResult) :=
  let s := s.modify fe fun e => e.countPacket pkt.pktLen
  if (s.entry fe).feAction = .hold then
    some (s.modify fe fun e => e.vrEnqueueFlow pkt o.cloned, .held)
  else s.vrFlowAction (o.action 0) fe index pkt

/-! ## The TCP state machine -/

/-- Set bits of `fe_tcp_flags`. -/
def setTcpFlags (s : FlowSys) (fe : Nat) (f : FlowTcpFlags → FlowTcpFlags) : FlowSys :=
  s.modify fe fun e => { e with feTcpFlags := f e.feTcpFlags }

/-- Set bits of the reverse flow's `fe_tcp_flags`, if it is there. -/
def setReverseTcpFlags (s : FlowSys) (rfe : Option Nat) (f : FlowTcpFlags → FlowTcpFlags) :
    FlowSys :=
  match rfe with
  | some r => s.setTcpFlags r f
  | none => s

/-- `vr_flow_init_close`. -/
def vrFlowInitClose (s : FlowSys) (fe : Nat) : FlowSys :=
  let s := s.setTcpFlags fe fun x => { x with dead := true }
  s.setReverseTcpFlags (s.vrFlowGetEntry (s.entry fe).feRflow) fun x => { x with dead := true }

/-- The reverse flow as `vr_flow_tcp_digest` looks it up: only if `VR_RFLOW_VALID` is set. -/
def reverseFlow (s : FlowSys) (fe : Nat) : Option Nat :=
  if (s.entry fe).feFlags.rflowValid then s.vrFlowGetEntry (s.entry fe).feRflow else none

/-- `vr_flow_tcp_digest` on a reset. -/
def digestRst (s : FlowSys) (fe : Nat) : FlowSys :=
  let s := s.setTcpFlags fe fun x => { x with rst := true }
  let s := s.setReverseTcpFlags (s.reverseFlow fe) fun x => { x with rst := true }
  s.vrFlowInitClose fe

/-- `vr_flow_tcp_digest` on a SYN without RST. -/
def digestSyn (s : FlowSys) (fe : Nat) (tcp : TcpSegment) : FlowSys :=
  let s := s.modify fe fun e => { e with feTcpSeq := tcp.tcpSeq % 2 ^ 32 }
  let s := s.setTcpFlags fe fun x => { x with syn := true }
  match s.reverseFlow fe with
  | none => s
  | some rfe =>
    let s := s.setTcpFlags rfe fun x => { x with synR := true }
    if (s.entry fe).feTcpFlags.synR && tcp.ack &&
        tcp.tcpAck == ((s.entry rfe).feTcpSeq + 1) % 2 ^ 32 then
      (s.setTcpFlags rfe fun x => { x with established := true }).setTcpFlags fe fun x =>
        { x with establishedR := true }
    else s

/-- `vr_flow_tcp_digest` on a FIN without RST and SYN: the sequence number of the FIN is one past
the data that came with it. -/
def digestFin (s : FlowSys) (fe : Nat) (tcp : TcpSegment) : FlowSys :=
  let length := ((tcp.length : Int) - 4 * tcp.offset) % 2 ^ 32
  let s := s.modify fe fun e => { e with feTcpSeq := ((tcp.tcpSeq + length) % 2 ^ 32).toNat }
  let s := s.setTcpFlags fe fun x => { x with fin := true }
  s.setReverseTcpFlags (s.reverseFlow fe) fun x => { x with finR := true }

/-- The last part of `vr_flow_tcp_digest`: an acknowledgment that closes the reverse direction or
completes the connection. -/
def digestAck (s : FlowSys) (fe : Nat) (tcp : TcpSegment) : FlowSys :=
  let flags := (s.entry fe).feTcpFlags
  if (flags.finR || (!flags.establishedR && flags.synR)) && tcp.ack then
    match s.reverseFlow fe with
    | none => s
    | some rfe =>
      if tcp.tcpAck == ((s.entry rfe).feTcpSeq + 1) % 2 ^ 32 && flags.finR then
        let s := s.setTcpFlags rfe fun x => { x with halfClose := true }
        if (s.entry fe).feTcpFlags.halfClose then s.vrFlowInitClose fe else s
      else if tcp.tcpAck != (s.entry rfe).feTcpSeq && !flags.establishedR then
        (s.setTcpFlags rfe fun x => { x with established := true }).setTcpFlags fe fun x =>
          { x with establishedR := true }
      else s
  else s

/-- `vr_flow_tcp_digest`. -/
def vrFlowTcpDigest (s : FlowSys) (fe : Nat) (pkt : FlowPacket) : FlowSys :=
  if pkt.vpType ≠ .ip ∧ pkt.vpType ≠ .ip6 then s
  else
    match pkt.tcp with
    | none => s
    | some tcp =>
      if (s.entry fe).isFatFlow then s
      else if tcp.rst then s.digestRst fe
      else
        let s :=
          if tcp.syn then s.digestSyn fe tcp
          else if tcp.fin then s.digestFin fe tcp
          else s
        s.digestAck fe tcp

end FlowSys

/-! ## Counting flows on hold -/

/-- `vr_flow_table_hold_count`. -/
def vrFlowTableHoldCount (cfg : FlowConfig) (info : FlowTableInfo) : Nat :=
  let hcount := ((List.range cfg.vrNumCpus).map info.vftiHoldCount).sum % 2 ^ 64
  if info.vftiActionCount ≤ hcount then (hcount - info.vftiActionCount) % 2 ^ 32 else 0

/-- The counters after a flow has been put on hold on a CPU. When the CPU's 32-bit counter is about
to overflow, it is first reduced together with the 64-bit counter. -/
def FlowTableInfo.countHold (info : FlowTableInfo) (cpu : Nat) : FlowTableInfo :=
  let hold := info.vftiHoldCount cpu
  let info :=
    if (hold + 1) % 2 ^ 32 < hold then
      let info := { info with vftiOflows := (info.vftiOflows + 1) % 2 ^ 32 }
      if hold < info.vftiActionCount then
        { info with
          vftiActionCount := info.vftiActionCount - hold
          vftiHoldCount := update info.vftiHoldCount cpu 0 }
      else
        { info with
          vftiHoldCount := update info.vftiHoldCount cpu (hold - info.vftiActionCount)
          vftiActionCount := 0 }
    else info
  { info with
    vftiHoldCount :=
      update info.vftiHoldCount cpu ((info.vftiHoldCount cpu + 1) % 2 ^ 32) }

/-- The counters after a flow has left hold. -/
def FlowTableInfo.countAction (info : FlowTableInfo) : FlowTableInfo :=
  { info with vftiActionCount := (info.vftiActionCount + 1) % 2 ^ 64 }

namespace FlowSys

/-- `vr_flow_entry_set_hold`. -/
def vrFlowEntrySetHold (cfg : FlowConfig) (s : FlowSys) (cpu fe : Nat) : FlowSys :=
  if cfg.vrNumCpus ≤ cpu then s
  else
    { s.modify fe fun e => { e with feAction := .hold } with info := s.info.countHold cpu }

end FlowSys

end VRouter
