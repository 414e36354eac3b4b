import VRouter.Flow.Table
import VRouter.Htable.Run

/-!
# VRouter — what happens to the flow table

Packets (`vr_flow_lookup`), work items (`vr_flow_work`), deferred callbacks (`vr_flow_defer_cb`)
and requests of the agent (`vr_flow_set`), and the steps of the whole module, which are these and
the steps of the hash table's own work items and callbacks.
-/

namespace VRouter

open LongestMatch

namespace FlowSys

/-! ## Finding and taking entries -/

/-- The keys of the entries, as the hash table asks for them. -/
def getKey (s : FlowSys) (i : Nat) : Option (List Octet) := (s.entry i).vrFlowGetKey

/-- `vr_find_flow`. -/
def vrFindFlow (cfg : FlowConfig) (s : FlowSys) (key : List Octet) : Option (Option Nat) :=
  match keyOf s.ht.table (some key) key.length with
  | none => some none
  | some k => vrHtableFindHentry s.ht.table s.getKey k (cfg.vrHash k)

/-- `vr_flow_table_get_free_entry`. -/
def vrFlowTableGetFreeEntry (cfg : FlowConfig) (s : FlowSys) (key : List Octet) :
    Option (Option Nat × FlowSys) :=
  match keyOf s.ht.table (some key) key.length with
  | none => some (none, s)
  | some k =>
    match vrHtableFindFreeHentry s.ht.table (cfg.vrHash k) with
    | none => none
    | some (none, t) => some (none, { s with ht := { s.ht with table := t } })
    | some (some fe, t) =>
      some (some fe,
        { s.modify fe FlowEntry.activate with
          ht := { s.ht with table := t }
          incarnation := Function.update s.incarnation fe (s.incarnation fe + 1) })

/-- `vr_flow_get_free_entry`. Without memory for the queue of held packets the entry is reset, and
then its type is written through a null pointer. -/
def vrFlowGetFreeEntry (cfg : FlowConfig) (s : FlowSys) (o : FlowOutcome) (key : List Octet)
    (type : VpType) (needHold : Bool) : Option (Option Nat × FlowSys) :=
  match s.vrFlowTableGetFreeEntry cfg key with
  | none => none
  | some (none, s) => some (none, s)
  | some (some fe, s) =>
    if needHold then
      if o.queueAlloc then
        some (some fe, s.modify fe fun e =>
          { e with feHoldList := some { FlowQueue.zalloc with vfqIndex := fe } }.setKey type key)
      else none
    else some (some fe, s.modify fe fun e => e.setKey type key)

/-! ## Packets -/

/-- `vr_flow_allow_new_flow`. -/
def vrFlowAllowNewFlow (cfg : FlowConfig) (s : FlowSys) (pkt : FlowPacket) : Bool :=
  if pkt.vpType = .ip ∧ !pkt.inetAllowsNewFlow then false
  else if cfg.vrFlowHoldLimit ≠ 0 ∧ cfg.vrFlowHoldLimit < vrFlowTableHoldCount cfg s.info then false
  else pkt.vifAllowsNewFlow

/-- The part of `vr_flow_lookup` behind the lookup, for the entry found or created. -/
def handlePacket (s : FlowSys) (o : FlowOutcome) (fe : Nat) (pkt : FlowPacket) :
    Option (FlowSys × FlowResult) :=
  if (s.entry fe).feFlags.evictCandidate then some (s, .evictDrop)
  else (s.vrFlowTcpDigest fe pkt).vrDoFlowAction o fe fe pkt

/-- `vr_flow_lookup`. -/
def vrFlowLookup (cfg : FlowConfig) (s : FlowSys) (o : FlowOutcome) (key : List Octet)
    (pkt : FlowPacket) : Option (FlowSys × FlowResult) :=
  match s.vrFindFlow cfg key with
  | none => none
  | some (some fe) => s.handlePacket o fe pkt
  | some none =>
    if pkt.relaxedPolicy then some (s, .forward)
    else if !s.vrFlowAllowNewFlow cfg pkt then some (s, .consumed)
    else
      match s.vrFlowGetFreeEntry cfg o key pkt.vpType true with
      | none => none
      | some (none, s) => some (s, .consumed)
      | some (some fe, s) =>
        let s := s.modify fe fun e => { e with feVrf := pkt.fmdDvrf % 2 ^ 16 }
        (s.vrFlowEntrySetHold cfg o.cpu fe).handlePacket o fe pkt

/-! ## Held packets -/

/-- `vr_flow_flush_pnode` for one slot of a queue; what it forwards leaves the module. -/
def vrFlowFlushPnode (s : FlowSys) (o : FlowOutcome) (fe index slot : Nat) (vfq : FlowQueue) :
    Option (FlowSys × FlowQueue) :=
  match vfq.vfqPnodes slot with
  | none => some (s, vfq)
  | some pkt =>
    let vfq := { vfq with vfqPnodes := Function.update vfq.vfqPnodes slot none }
    if o.vifPresent slot then
      (s.vrFlowAction (o.action slot) fe index pkt).map fun r => (r.1, vfq)
    else some (s, vfq)

/-- The loop of `__vr_flow_flush_hold_queue`. -/
def flushSlots (o : FlowOutcome) (fe index : Nat) :
    List Nat → FlowSys → FlowQueue → Option (FlowSys × FlowQueue)
  | [], s, vfq => some (s, vfq)
  | slot :: slots, s, vfq =>
    match s.vrFlowFlushPnode o fe index slot vfq with
    | none => none
    | some (s, vfq) => flushSlots o fe index slots s vfq

/-- `__vr_flow_flush_hold_queue`. -/
def vrFlowFlushHoldQueue (s : FlowSys) (o : FlowOutcome) (fe index : Nat) (vfq : FlowQueue) :
    Option (FlowSys × FlowQueue) :=
  flushSlots o fe index (List.range vrMaxFlowQueueEntries) s vfq

/-- `vr_flush_entry`: a queue that has been flushed is left to the callback to free. -/
def vrFlushEntry (s : FlowSys) (o : FlowOutcome) (fe : Nat) (flmd : FlowMd) :
    Option (FlowSys × FlowMd) :=
  match (s.entry fe).feHoldList with
  | none => some (s, flmd)
  | some vfq =>
    if (s.entry fe).feAction = .hold then some (s, flmd)
    else
      let s := s.modify fe fun e => { e with feHoldList := none }
      match s.vrFlowFlushHoldQueue o fe flmd.flmdIndex vfq with
      | none => none
      | some (s, vfq) =>
        some (s,
          { flmd with
            flmdDeferData := flmd.flmdDeferData.map fun vdd =>
              vdd.map fun vfdd => { vfdd with vfddFlowQueue := some vfq } })

/-! ## Work items and callbacks -/

/-- The part of `vr_flow_defer` that takes back the eviction marks of a work item without defer
data. The reverse flow is not looked up if its index is zero. -/
def takeBackMarks (s : FlowSys) (fe : Nat) : FlowSys :=
  let rfe :=
    if (s.entry fe).feRflow ≠ 0 then s.vrFlowGetEntry (s.entry fe).feRflow else none
  s.modifyPair rfe fe FlowEntry.vrFlowResetEvict

/-- `vr_flow_defer`. -/
def vrFlowDefer (s : FlowSys) (o : FlowOutcome) (fe : Nat) (flmd : FlowMd) : Option FlowSys :=
  match flmd.flmdDeferData with
  | some (some vfdd) => some { s with callbacks := s.callbacks ++ [{ vfdd with vfddFe := fe }] }
  | _ =>
    let s := if flmd.flmdFlags.evictCandidate then s.takeBackMarks fe else s
    if !flmd.flmdFlags.active then s.vrFlowResetEntry o fe else some s

/-- `vr_flow_work`. -/
def vrFlowWork (s : FlowSys) (o : FlowOutcome) (flmd : FlowMd) : Option FlowSys :=
  match s.vrFlowGetEntry flmd.flmdIndex with
  | none => some s
  | some fe =>
    match s.vrFlushEntry o fe flmd with
    | none => none
    | some (s, flmd) => s.vrFlowDefer o fe flmd

/-- `vr_flow_defer_cb`. -/
def vrFlowDeferCb (s : FlowSys) (o : FlowOutcome) (vfdd : FlowDeferData) : Option FlowSys :=
  let fe := vfdd.vfddFe
  let flushed :=
    match vfdd.vfddFlowQueue with
    | none => some s
    | some vfq => (s.vrFlowFlushHoldQueue o fe vfq.vfqIndex vfq).map Prod.fst
  match flushed with
  | none => none
  | some s =>
    if vfdd.vfddDelete then s.vrFlowResetEntry o fe
    else
      let rfe := s.vrFlowGetEntry (s.entry fe).feRflow
      match s.vrFlowEvictFlow o fe, rfe with
      | none, _ => none
      | some s, none => some s
      | some s, some rfe => s.vrFlowEvictFlow o rfe

/-! ## Link-local ports -/

/-- `vr_link_local_ports_size`, as `vr_link_local_ports_init` computes it. -/
def vrLinkLocalPortsSize : Nat := 16384

/-- The bit `vr_set_link_local_port` and `vr_clear_link_local_port` write, if any. The callers pass
`AF_INET`. -/
def linkLocalBit (proto port : Nat) : Option Nat :=
  if proto ≠ vrIpProtoTcp ∧ proto ≠ vrIpProtoUdp then none
  else if proto = vrIpProtoUdp then some (port + vrLinkLocalPortsSize * 8 / 2)
  else some port

/-- `vr_set_link_local_port` and `vr_clear_link_local_port` for the destination port of a key. -/
def writeLinkLocalPort (s : FlowSys) (key : List Octet) (value : Bool) : FlowSys :=
  -- the port is in network byte order in the key
  let port := (octet key 6).val * 256 + (octet key 7).val
  match linkLocalBit (flowProto key) port with
  | none => s
  | some bit => { s with linkLocalPorts := Function.update s.linkLocalPorts bit value }

/-- `vr_flow_update_link_local_port`. -/
def vrFlowUpdateLinkLocalPort (s : FlowSys) (req : FlowReq) (fe : Nat) : FlowSys :=
  let e := s.entry fe
  if e.feType ≠ .ip then s
  else
    let s :=
      if !req.frFlags.linkLocal && e.feFlags.linkLocal then s.writeLinkLocalPort e.feKey false
      else s
    if (req.frFlags.linkLocal && !e.feFlags.linkLocal) ||
        (req.frFlags.bgpService && !e.feFlags.bgpService) then
      s.writeLinkLocalPort e.feKey true
    else s

/-! ## Requests of the agent -/

/-- An `int` passed as `unsigned int`. -/
def unsigned32 (x : Int) : Nat := (x % 2 ^ 32).toNat

/-- The key of a request, as `vr_add_flow_req` fills it. -/
def reqKey (req : FlowReq) (family : Family) : List Octet :=
  fillFlow family req.frFlowNhId req.frFlowIp req.frFlowProto req.frFlowSport req.frFlowDport

/-- `VR_IP_ADDR_SIZE`. -/
def vrIpAddrSize (type : VpType) : Nat := if type = .ip6 then 16 else 4

/-- The request names another key than the entry has. -/
def keyMismatch (req : FlowReq) (e : FlowEntry) : Bool :=
  (List.range (2 * vrIpAddrSize e.feType)).map (octet req.frFlowIp) !=
      flowIp e.feKey (2 * vrIpAddrSize e.feType) ||
    req.frFlowSport % 2 ^ 16 != flowSport e.feKey ||
    req.frFlowDport % 2 ^ 16 != flowDport e.feKey ||
    req.frFlowNhId % 2 ^ 16 != flowNhId e.feKey ||
    req.frFlowProto.val != flowProto e.feKey

/-- The first half of `vr_flow_set_req_is_invalid`: the request against the entry it names. -/
def reqMismatch (s : FlowSys) (req : FlowReq) : Option Nat → Option Errno
  | some fe =>
    let e := s.entry fe
    if e.feFlags.deleteMarked then some .EINVAL
    else if e.feType = .ip ∨ e.feType = .ip6 then
      if req.frGenId % 2 ^ 8 ≠ e.feGenId then some .EBADF
      else if keyMismatch req e then some .EFAULT
      else none
    else none
  | none => if req.frFlags.active ∧ 0 ≤ req.frIndex then some .ENOENT else none

/-- `vr_flow_set_req_is_invalid`; `none` is zero. -/
def vrFlowSetReqIsInvalid (cfg : FlowConfig) (s : FlowSys) (req : FlowReq) (fe : Option Nat) :
    Option Errno :=
  match s.reqMismatch req fe with
  | some error => some error
  | none =>
    if req.frFlags.vrft ∧ cfg.vrMaxVrfs ≤ req.frFlowDvrf % 2 ^ 16 then some .EINVAL
    else if req.frFlags.mirror ∧ cfg.vrMaxMirrorIndices ≤ unsigned32 req.frMirId ∧
        cfg.vrMaxMirrorIndices ≤ unsigned32 req.frSecMirId then some .EINVAL
    else if req.frFlags.rflowValid ∧ (s.vrFlowGetEntry req.frRindex).isNone then some .EINVAL
    else none

/-- One mirror id in `vr_flow_set_mirror`. -/
def newMirrorId (cfg : FlowConfig) (o : FlowOutcome) (old : Nat) (id : Int) : Nat :=
  if (old : Int) = id then old
  else
    let old := if old < cfg.vrMaxMirrorIndices then cfg.vrMaxMirrorIndices % 2 ^ 8 else old
    if unsigned32 id < cfg.vrMaxMirrorIndices ∧ o.mirrorExists (unsigned32 id) then
      unsigned32 id % 2 ^ 8
    else old

/-- `vr_flow_set_mirror`. -/
def vrFlowSetMirror (cfg : FlowConfig) (o : FlowOutcome) (req : FlowReq) (e : FlowEntry) :
    FlowEntry :=
  if !req.frFlags.mirror then
    if e.feFlags.mirror then e.vrFlowResetMirror else e
  else
    { e with
      feMirrorId := newMirrorId cfg o e.feMirrorId req.frMirId
      feSecMirrorId := newMirrorId cfg o e.feSecMirrorId req.frSecMirId }

/-- `vr_add_flow_req`: the entry, if one could be added, and whether a flow with this key was there
already. -/
def vrAddFlowReq (cfg : FlowConfig) (s : FlowSys) (o : FlowOutcome) (req : FlowReq) :
    Option (Option Nat × Bool × FlowSys) :=
  match req.frFamily with
  | none => some (none, false, s)
  | some family =>
    let key := reqKey req family
    match s.vrFindFlow cfg key with
    | none => none
    | some (some _) => some (none, true, s)
    | some none =>
      let type := match family with | .inet => .ip | .inet6 => .ip6
      match s.vrFlowGetFreeEntry cfg o key type (req.frAction = .hold) with
      | none => none
      | some (fe, s) => some (fe, false, s)

/-- `vr_flow_delete`. Whatever it returns, the entry stays locked. -/
def vrFlowDelete (s : FlowSys) (o : FlowOutcome) (req : FlowReq) (fe : Nat) :
    Option (FlowSys × Bool) :=
  let s := s.modify fe fun e => { e with feFlags := { e.feFlags with deleteMarked := true } }
  let s :=
    if (s.entry fe).feFlags.linkLocal then s.writeLinkLocalPort (s.entry fe).feKey false else s
  let s := s.modify fe fun e => { e with feAction := .drop }.vrFlowResetMirror
  s.vrFlowScheduleTransition o.transition fe req.frIndex.toNat req.frFlags

/-- The fields of an entry that `vr_flow_set` writes before the action. -/
def setFields (cfg : FlowConfig) (o : FlowOutcome) (req : FlowReq) (e : FlowEntry) : FlowEntry :=
  { vrFlowSetMirror cfg o req e with
    feRflow :=
      if req.frFlags.rflowValid then req.frRindex
      else if 0 ≤ e.feRflow then -1
      else e.feRflow
    feVrf := req.frFlowVrf % 2 ^ 16
    feDvrf := if req.frFlags.vrft then req.frFlowDvrf % 2 ^ 16 else e.feDvrf }

/-- The action `vr_flow_set` gives an entry. -/
def setAction (cfg : FlowConfig) (s : FlowSys) (o : FlowOutcome) (req : FlowReq) (fe : Nat) :
    FlowSys :=
  if req.frAction = .hold ∧ (s.entry fe).feAction ≠ .hold then s.vrFlowEntrySetHold cfg o.cpu fe
  else s.modify fe fun e => { e with feAction := req.frAction }

/-- The fields of an entry that `vr_flow_set` writes after the action, up to the flags. -/
def setFlags (req : FlowReq) (e : FlowEntry) : FlowEntry :=
  { e with
    feTtl := req.frTtl % 2 ^ 8
    feDropReason := if e.feAction = .drop then req.frDropReason % 2 ^ 8 else e.feDropReason
    feFlags := FlowEntry.mergeFlags e.feFlags req.frFlags }

/-- What `vr_flow_set` does with an entry it has just added: statistics of the flow that had the
entry before are cleared, and the TCP state of the reverse flow is taken over. -/
def setNewFlow (s : FlowSys) (fe : Nat) : FlowSys :=
  let s := s.modify fe fun e =>
    if e.feFlags.newFlow ∧ (e.feStats.flowPackets ≠ 0 ∨ e.feStats.flowPacketsOflow ≠ 0) then
      { e with feStats := {} }
    else e
  match s.reverseFlow fe with
  | none => s
  | some rfe => s.modify fe fun e => e.vrFlowTcpRflowSet (s.entry rfe)

/-- The response fields `vr_flow_set` fills for a new flow. -/
def respond (req : FlowReq) (e : FlowEntry) : FlowReq :=
  { req with
    frFlowBytes := e.feStats.flowBytes
    frFlowPackets := e.feStats.flowPackets
    frFlowStatsOflow := e.feStats.flowBytesOflow + 65536 * e.feStats.flowPacketsOflow
    frGenId := e.feGenId }

/-- `vr_flow_set` from `vr_flow_set_mirror` up to the work item. -/
def writeEntry (cfg : FlowConfig) (s : FlowSys) (o : FlowOutcome) (req : FlowReq) (fe : Nat)
    (newFlow : Bool) : FlowSys :=
  let s := s.modify fe (setFields cfg o req)
  let s := s.vrFlowUpdateLinkLocalPort req fe
  let s := s.modify fe fun e =>
    { e with
      feEcmpNhIndex := req.frEcmpNhIndex.bmod 256
      feSrcNhIndex := req.frSrcNhIndex % 2 ^ 16
      feQosId := req.frQosId }
  let s := s.setAction cfg o req fe
  let s := s.modify fe (setFlags req)
  let s := if newFlow then s.setNewFlow fe else s
  s.modify fe fun e =>
    { e.vrFlowUdpSrcPort o.jhash with feFlags := { e.feFlags with newFlow := false } }

/-- The return code of `vr_flow_set` for the outcome of `__vr_flow_schedule_transition`. -/
def transitionCode (ok : Bool) : Option Errno := if ok then none else some .ENOMEM

/-- `vr_flow_set` without an entry for the index: a new flow is added, unless the request is a
deletion. -/
def vrFlowSetAdd (cfg : FlowConfig) (s : FlowSys) (o : FlowOutcome) (req : FlowReq) :
    Option (FlowSys × Option Errno × FlowReq) :=
  if !req.frFlags.active then some (s, some .ENOENT, req)
  else
    match s.vrAddFlowReq cfg o req with
    | none => none
    | some (none, true, s) => some (s, some .EEXIST, req)
    | some (none, false, s) => some (s, some .ENOSPC, req)
    | some (some fe, _, s) =>
      let req := { req with frIndex := fe }
      let s := { s with info := { s.info with vftiAdded := (s.info.vftiAdded + 1) % 2 ^ 64 } }
      -- the statistics sent back are those before they are cleared
      let resp := respond req (s.entry fe)
      let s := s.writeEntry cfg o req fe true
      match s.vrFlowScheduleTransition o.transition fe fe req.frFlags with
      | none => none
      | some (s, ok) => some (s, transitionCode ok, resp)

/-- `vr_flow_set` on an entry that has been locked and passed the checks. -/
def vrFlowSetChange (cfg : FlowConfig) (s : FlowSys) (o : FlowOutcome) (req : FlowReq) (fe : Nat) :
    Option (FlowSys × Option Errno × FlowReq) :=
  let e := s.entry fe
  let s :=
    if e.feAction = .hold ∧ (req.frAction ≠ e.feAction ∨ !req.frFlags.active) then
      { s with info := s.info.countAction }
    else s
  if !req.frFlags.active then
    (s.vrFlowDelete o req fe).map fun r => (r.1, transitionCode r.2, req)
  else
    let needsQueue := req.frAction = .hold ∧ e.feAction ≠ .hold ∧ e.feHoldList.isNone
    if needsQueue ∧ !o.queueAlloc then
      some (s.modify fe FlowEntry.vrFlowStopModify, some .ENOMEM, req)
    else
      let s :=
        if needsQueue then s.modify fe fun e => { e with feHoldList := some FlowQueue.zalloc }
        else s
      let s := s.writeEntry cfg o req fe false
      match s.vrFlowScheduleTransition o.transition fe req.frIndex.toNat req.frFlags with
      | none => none
      | some (s, ok) => some (s.modify fe FlowEntry.vrFlowStopModify, transitionCode ok, req)

/-- `vr_flow_set`: the new state, the return code (`none` for zero) and the request as it is sent
back. -/
def vrFlowSet (cfg : FlowConfig) (s : FlowSys) (o : FlowOutcome) (req : FlowReq) :
    Option (FlowSys × Option Errno × FlowReq) :=
  match s.vrFlowGetEntry req.frIndex with
  | none =>
    match s.vrFlowSetReqIsInvalid cfg req none with
    | some error => some (s, some error, req)
    | none => s.vrFlowSetAdd cfg o req
  | some fe =>
    match (s.entry fe).vrFlowStartModify with
    | none => some (s, some .EBUSY, req)
    | some e =>
      let s := s.modify fe fun _ => e
      match s.vrFlowSetReqIsInvalid cfg req (some fe) with
      | some error => some (s.modify fe FlowEntry.vrFlowStopModify, some error, req)
      | none => s.vrFlowSetChange cfg o req fe

end FlowSys

/-! ## Steps -/

/-- What can happen to the flow module. Work items and callbacks are named by their place in their
queue; they run in any order. -/
inductive FlowStep where
  | packet (key : List Octet) (pkt : FlowPacket) (o : FlowOutcome)
  | request (req : FlowReq) (o : FlowOutcome)
  | work (n : Nat) (o : FlowOutcome)
  | callback (n : Nat) (o : FlowOutcome)
  /-- A work item or callback of the hash table, or a write to `vr_not_ready`. -/
  | htWork (deleteIndex : Nat) (alloc : Nat → Bool)
  | htCallback (ent : Nat)
  | setNotReady (notReady : Bool)

/-- One step of the flow module. -/
def FlowSys.step (cfg : FlowConfig) (s : FlowSys) : FlowStep → Option FlowSys
  | .packet key pkt o => (s.vrFlowLookup cfg o key pkt).map Prod.fst
  | .request req o => (s.vrFlowSet cfg o req).map Prod.fst
  | .work n o =>
    match s.works[n]? with
    | none => none
    | some flmd => { s with works := s.works.eraseIdx n }.vrFlowWork o flmd
  | .callback n o =>
    match s.callbacks[n]? with
    | none => none
    | some vfdd => { s with callbacks := s.callbacks.eraseIdx n }.vrFlowDeferCb o vfdd
  | .htWork d alloc => (s.ht.step (.work d alloc)).map fun ht => { s with ht := ht }
  | .htCallback ent => (s.ht.step (.callback ent)).map fun ht => { s with ht := ht }
  | .setNotReady notReady =>
    (s.ht.step (.setNotReady notReady)).map fun ht => { s with ht := ht }

/-- A new flow table: zeroed entries and counters, nothing scheduled. -/
def FlowSys.initial (t : Htable) (notReady : Bool) : FlowSys where
  ht := .initial t notReady
  entry := fun _ => .zeroed
  info := ⟨0, 0, 0, fun _ => 0⟩
  linkLocalPorts := fun _ => false
  works := []
  callbacks := []
  incarnation := fun _ => 0

/-- `sizeof (struct vr_flow_entry)`. -/
def sizeofFlowEntry : Nat := 128

/-- The hash table `vr_flow_table_init` makes, where no memory is attached. -/
def vrFlowTableInit (vrFlowEntries vrOflowEntries : Nat) : Option Htable :=
  vrHtableCreate vrFlowEntries vrOflowEntries sizeofFlowEntry 0 0

end VRouter
