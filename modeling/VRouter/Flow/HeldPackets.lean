import VRouter.Flow.Absent
import VRouter.Flow.HoldQueue

/-!
# VRouter — what becomes of held packets

A packet of a flow on hold waits in the queue of the flow. When the agent has decided, a work item
takes the queue off the entry and flushes it, and a callback flushes it once more and frees it.

* `FlowSys.heldOn`: the packets in the queue of an entry, in the order of their slots.
* `FlowSys.placedOn` and `FlowSys.takenOff`: the packets a step puts in the queue of an entry, and
  those it takes out, with what becomes of them.
* `FlowSys.flushFate_once`: what a flush does with a packet it does once.
* `FlowSys.handlePacket_balance`: a packet that is enqueued comes after those that are there.
-/

namespace VRouter

open LongestMatch Function

variable {cfg : FlowConfig} {s s' : FlowSys} {o : FlowOutcome} {fe index : Nat}

/-! ## Queues -/

variable {n : Nat}

namespace FlowQueue

/-- The packets in a queue, in the order of the slots. -/
def packets (vfq : FlowQueue) : List FlowPacket :=
  (List.range vrMaxFlowQueueEntries).filterMap vfq.vfqPnodes

/-- The slots from the next one on are free, and there are only three. -/
structure Tidy (vfq : FlowQueue) : Prop where
  free : ∀ slot, vfq.vfqEntries ≤ slot → vfq.vfqPnodes slot = none
  bound : ∀ slot, vrMaxFlowQueueEntries ≤ slot → vfq.vfqPnodes slot = none

/-- A packet that comes is put in the queue: there is a slot, and the first packet could be cloned
for the agent. -/
def takes (vfq : FlowQueue) (cloned : Bool) : Bool :=
  decide (vfq.vfqEntries < vrMaxFlowQueueEntries) && !(vfq.vfqEntries = 0 && !cloned)

variable {vfq : FlowQueue} {pkt : FlowPacket} {cloned : Bool}

theorem packets_length (vfq : FlowQueue) : vfq.packets.length ≤ vrMaxFlowQueueEntries := by
  refine (List.length_filterMap_le _ _).trans ?_
  rw [List.length_range]

theorem packets_eq_nil (h : ∀ slot, slot < vrMaxFlowQueueEntries → vfq.vfqPnodes slot = none) :
    vfq.packets = [] :=
  List.filterMap_eq_nil_iff.mpr fun slot hslot => h slot (List.mem_range.mp hslot)

theorem zalloc_tidy (index : Nat) : { zalloc with vfqIndex := index }.Tidy :=
  ⟨fun _ _ => rfl, fun _ _ => rfl⟩

theorem zalloc_packets (index : Nat) : { zalloc with vfqIndex := index }.packets = [] := rfl

theorem Tidy.enqueued (h : vfq.Tidy) (hlt : vfq.vfqEntries + 1 < 2 ^ 32) :
    (vfq.enqueued pkt cloned).Tidy := by
  unfold FlowQueue.enqueued
  split
  · exact ⟨fun slot hslot => h.free slot (by simp only at hslot; omega), h.bound⟩
  constructor
  · intro slot hslot
    simp only at hslot ⊢
    rw [update_of_ne (by omega)]
    exact h.free slot (by omega)
  · intro slot hslot
    simp only
    rw [update_of_ne (by omega)]
    exact h.bound slot hslot

theorem filterMap_update {entries : Nat} {pnodes : Nat → Option FlowPacket} (hlt : entries < n)
    (hfree : ∀ slot, entries ≤ slot → pnodes slot = none) :
    (List.range n).filterMap (Function.update pnodes entries (some pkt)) =
      (List.range n).filterMap pnodes ++ [pkt] := by
  induction n with
  | zero => omega
  | succ n ih =>
    have hlast : [n].filterMap pnodes = [] := List.filterMap_cons_none (hfree n (by omega))
    rw [List.range_succ, List.filterMap_append, List.filterMap_append, hlast, List.append_nil]
    rcases Nat.lt_or_eq_of_le (Nat.lt_succ_iff.mp hlt) with hn | rfl
    · have hother : update pnodes entries (some pkt) n = none := by
        rw [update_of_ne (by omega)]
        exact hfree n (by omega)
      rw [ih hn, List.filterMap_cons_none hother]
      exact List.append_nil _
    have hbelow : ∀ slot ∈ List.range entries,
        update pnodes entries (some pkt) slot = pnodes slot := by
      intro slot hslot
      exact update_of_ne (List.mem_range.mp hslot).ne _ _
    rw [List.filterMap_congr hbelow, List.filterMap_cons_some (update_self _ _ _)]
    rfl

theorem Tidy.packets_enqueued (h : vfq.Tidy) : (vfq.enqueued pkt cloned).packets =
    vfq.packets ++ if vfq.takes cloned then [pkt] else [] := by
  unfold FlowQueue.enqueued packets takes
  by_cases hfull : vrMaxFlowQueueEntries ≤ vfq.vfqEntries
  · simp [hfull]
  have hroom : vfq.vfqEntries < vrMaxFlowQueueEntries := by omega
  rw [if_neg hfull]
  cases hclone : (decide (vfq.vfqEntries = 0) && !cloned) with
  | true =>
    have hsame : update vfq.vfqPnodes vfq.vfqEntries none = vfq.vfqPnodes := by
      rw [update_eq_self_iff]
      exact (h.free _ le_rfl).symm
    simp [hsame]
  | false => simp [hroom, filterMap_update hroom h.free]

end FlowQueue

/-- The packets held on an entry. -/
def FlowSys.heldOn (s : FlowSys) (i : Nat) : List FlowPacket :=
  match (s.entry i).feHoldList with
  | none => []
  | some vfq => vfq.packets

/-! ## What a step takes in -/

namespace FlowSys

/-- The entry `vr_flow_lookup` handles a packet with. -/
def packetEntry (cfg : FlowConfig) (s : FlowSys) (o : FlowOutcome) (key : List Octet)
    (pkt : FlowPacket) : Option Nat :=
  match s.vrFindFlow cfg key with
  | some (some fe) => some fe
  | some none =>
    match s.vrFlowGetFreeEntry cfg o key pkt.vpType true with
    | some (some fe, _) => some fe
    | some (none, _) | none => none
  | none => none

/-- The packets a step puts in the queue of an entry. -/
def placedOn (cfg : FlowConfig) (i : Nat) (s : FlowSys) : FlowStep → List FlowPacket
  | .packet key pkt o =>
    if s.lookupDisposals true cfg o key pkt = [.held .flow] ∧
        s.packetEntry cfg o key pkt = some i then [pkt]
    else []
  | .request _ _ | .work _ _ | .callback _ _ | .htWork _ _ | .htCallback _ | .setNotReady _ => []

end FlowSys

/-! ## What a step takes out -/

/-- What becomes of a packet that is taken out. -/
inductive PacketFate where
  /-- `vr_flow_flush_pnode` frees it: the interface it came in on is gone. -/
  | invalidIf
  /-- It goes through `vr_flow_action`: whether it is reinjected, and what else was done with it. -/
  | acted (reinjected : Bool) (disposals : List Disposal)
  deriving DecidableEq, Repr

/-- One thing was done with the packet. -/
def PacketFate.Once : PacketFate → Prop
  | .invalidIf => True
  | .acted reinjected disposals => if reinjected then disposals = [] else disposals.length = 1

namespace FlowSys

/-- What `vr_flow_flush_pnode` does with a packet. -/
def flushFate (s : FlowSys) (o : FlowOutcome) (fe index slot : Nat) (pkt : FlowPacket) :
    PacketFate :=
  if o.vifPresent slot then
    let disposals := actionDisposals (o.action slot) (s.entry fe) pkt
    match s.vrFlowAction (o.action slot) fe index pkt with
    -- a crash
    | none => .acted false disposals
    | some (_, result) =>
      let final := vrFlowForwardResult true result
      .acted final.1 (disposals ++ final.2)
  else .invalidIf

/-- The packets the loop of `__vr_flow_flush_hold_queue` takes out. -/
def flushTaken (o : FlowOutcome) (fe index : Nat) :
    List Nat → FlowSys → FlowQueue → List (FlowPacket × PacketFate)
  | [], _, _ => []
  | slot :: slots, s, vfq =>
    let taken :=
      match vfq.vfqPnodes slot with
      | none => []
      | some pkt => [(pkt, s.flushFate o fe index slot pkt)]
    match s.vrFlowFlushPnode o fe index slot vfq with
    | none => taken
    | some (s, vfq) => taken ++ flushTaken o fe index slots s vfq

/-- The packets `vr_flush_entry` takes out. -/
def entryTaken (s : FlowSys) (o : FlowOutcome) (fe index : Nat) : List (FlowPacket × PacketFate) :=
  match (s.entry fe).feHoldList with
  | none => []
  | some vfq =>
    if (s.entry fe).feAction = .hold then []
    else
      flushTaken o fe index (List.range vrMaxFlowQueueEntries)
        (s.modify fe fun e => { e with feHoldList := none }) vfq

/-- The packets `vr_flow_defer_cb` takes out. -/
def callbackTaken (s : FlowSys) (o : FlowOutcome) (vfdd : FlowDeferData) :
    List (FlowPacket × PacketFate) :=
  match vfdd.vfddFlowQueue with
  | none => []
  | some vfq => flushTaken o vfdd.vfddFe vfq.vfqIndex (List.range vrMaxFlowQueueEntries) s vfq

/-- The packets of an entry that a step takes out. -/
def takenOff (i : Nat) (s : FlowSys) : FlowStep → List (FlowPacket × PacketFate)
  | .work n o =>
    match s.works[n]? with
    | none => []
    | some flmd =>
      if s.vrFlowGetEntry flmd.flmdIndex = some i then
        { s with works := s.works.eraseIdx n }.entryTaken o i flmd.flmdIndex
      else []
  | .callback n o =>
    match s.callbacks[n]? with
    | none => []
    | some vfdd =>
      if vfdd.vfddFe = i then { s with callbacks := s.callbacks.eraseIdx n }.callbackTaken o vfdd
      else []
  | .packet _ _ _ | .request _ _ | .htWork _ _ | .htCallback _ | .setNotReady _ => []

theorem takenOff_work {flmd : FlowMd} (hget : s.works[n]? = some flmd) (i : Nat) :
    s.takenOff i (.work n o) = if s.vrFlowGetEntry flmd.flmdIndex = some i then
      { s with works := s.works.eraseIdx n }.entryTaken o i flmd.flmdIndex else [] := by
  unfold takenOff
  simp only [hget]

variable {result : FlowResult} {slots : List Nat} {pkt : FlowPacket} {vfq : FlowQueue} {i : Nat}

theorem flushTaken_packets (hslots : slots.Nodup) (s : FlowSys) (vfq : FlowQueue) :
    (flushTaken o fe index slots s vfq).map Prod.fst =
      slots.filterMap vfq.vfqPnodes := by
  induction slots generalizing s vfq with
  | nil => rfl
  | cons slot slots ih =>
    obtain ⟨hslot, hslots⟩ := List.nodup_cons.mp hslots
    have hsome : ∃ s₁ vfq₁, s.vrFlowFlushPnode o fe index slot vfq = some (s₁, vfq₁) ∧
        ∀ i ∈ slots, vfq₁.vfqPnodes i = vfq.vfqPnodes i := by
      unfold vrFlowFlushPnode
      split
      · exact ⟨s, vfq, rfl, fun _ _ => rfl⟩
      have hother : ∀ i ∈ slots,
          update vfq.vfqPnodes slot none i = vfq.vfqPnodes i := by
        intro i hi
        exact update_of_ne (fun heq : i = slot => hslot (heq ▸ hi)) _ _
      split
      · rename_i pkt _ _
        obtain ⟨s₁, result, haction, -⟩ := @vrFlowAction_settled s fe index pkt
          (o.action slot)
        exact ⟨s₁, _, by rw [haction]; rfl, hother⟩
      · exact ⟨s, _, rfl, hother⟩
    obtain ⟨s₁, vfq₁, hpnode, hsame⟩ := hsome
    have hrest := ih hslots s₁ vfq₁
    rw [List.filterMap_congr hsame] at hrest
    unfold flushTaken
    rw [hpnode]
    rw [List.map_append, hrest]
    cases hpkt : vfq.vfqPnodes slot with
    | none => rw [List.filterMap_cons_none hpkt]; rfl
    | some pkt => rw [List.filterMap_cons_some hpkt]; rfl

theorem flushFate_once (s : FlowSys) (o : FlowOutcome) (fe index slot : Nat) (pkt : FlowPacket) :
    (s.flushFate o fe index slot pkt).Once := by
  unfold flushFate
  split
  · obtain ⟨s₁, result, haction, hsettled⟩ := @vrFlowAction_settled s fe index pkt
      (o.action slot)
    rw [haction]
    unfold Settled at hsettled
    cases result with
    | forward => simpa [PacketFate.Once, vrFlowForwardResult] using hsettled
    | held | consumed => simpa [PacketFate.Once, vrFlowForwardResult] using hsettled
    | drop | trap | evictDrop => simpa [PacketFate.Once, vrFlowForwardResult] using hsettled
  · trivial

theorem takenOff_callback {vfdd : FlowDeferData} (hflushed : vfdd.Flushed)
    (hget : s.callbacks[n]? = some vfdd) (i : Nat) :
    (s.takenOff i (.callback n o)).map Prod.fst = [] := by
  unfold takenOff callbackTaken
  simp only [hget]
  split
  · cases hqueue : vfdd.vfddFlowQueue with
    | none => rfl
    | some vfq =>
      refine (flushTaken_packets List.nodup_range _ vfq).trans ?_
      exact FlowQueue.packets_eq_nil (hflushed vfq hqueue)
  · rfl

theorem flushTaken_once {s : FlowSys} : ∀ x ∈ flushTaken o fe index slots s vfq, x.2.Once := by
  induction slots generalizing s vfq with
  | nil => exact fun x hx => (nomatch hx)
  | cons slot slots ih =>
    have hslot : ∀ x ∈ (match vfq.vfqPnodes slot with
        | none => []
        | some pkt => [(pkt, s.flushFate o fe index slot pkt)]), x.2.Once := by
      intro x hx
      split at hx
      · cases hx
      · rw [List.mem_singleton.mp hx]
        exact s.flushFate_once o fe index slot _
    intro x hx
    unfold flushTaken at hx
    dsimp only at hx
    split at hx
    · exact hslot x hx
    · exact (List.mem_append.mp hx).elim (hslot x) (ih x)

theorem takenOff_once (i : Nat) (s : FlowSys) (a : FlowStep) : ∀ x ∈ s.takenOff i a, x.2.Once := by
  intro x hx
  cases a with
  | work n o =>
    unfold takenOff at hx
    dsimp only at hx
    split at hx
    · cases hx
    split at hx
    · unfold entryTaken at hx
      split at hx
      · cases hx
      · split at hx
        · cases hx
        · exact flushTaken_once x hx
    · cases hx
  | callback n o =>
    unfold takenOff at hx
    dsimp only at hx
    split at hx
    · cases hx
    split at hx
    · unfold callbackTaken at hx
      split at hx
      · cases hx
      · exact flushTaken_once x hx
    · cases hx
  | packet | request | htWork | htCallback | setNotReady => cases hx

/-! ## Entries -/

theorem heldOn_of_holdList (h : (s'.entry i).feHoldList = (s.entry i).feHoldList) :
    s'.heldOn i = s.heldOn i := by
  unfold heldOn
  rw [h]

theorem heldOn_of_none (h : (s.entry i).feHoldList = none) : s.heldOn i = [] := by
  unfold heldOn
  rw [h]

theorem heldOn_of_some (h : (s.entry i).feHoldList = some vfq) : s.heldOn i = vfq.packets := by
  unfold heldOn
  rw [h]

theorem heldOn_length (s : FlowSys) (i : Nat) : (s.heldOn i).length ≤ vrMaxFlowQueueEntries := by
  unfold heldOn
  split
  · exact Nat.zero_le _
  · exact FlowQueue.packets_length _

theorem lasting_holdList (h : s'.lasting = s.lasting) (i : Nat) :
    (s'.entry i).feHoldList = (s.entry i).feHoldList :=
  FlowEntry.eq_of_lasting FlowEntry.feHoldList (fun _ => rfl) (lasting_entry h i)

theorem lasting_action (h : s'.lasting = s.lasting) (i : Nat) :
    (s'.entry i).feAction = (s.entry i).feAction :=
  FlowEntry.eq_of_lasting FlowEntry.feAction (fun _ => rfl) (lasting_entry h i)

/-! ## Packets -/

/-- What the part of `vr_flow_lookup` behind the lookup puts in the queue of its entry. -/
def placedBy (s : FlowSys) (o : FlowOutcome) (fe : Nat) (pkt : FlowPacket) : List FlowPacket :=
  if s.handleDisposals true o fe pkt = [.held .flow] then [pkt] else []

theorem enqueueDisposals_held_iff (o : FlowOutcome) (e : FlowEntry) :
    enqueueDisposals true o e = [.held .flow] ↔
      ∃ vfq, e.feHoldList = some vfq ∧ vfq.takes o.cloned = true := by
  unfold enqueueDisposals vrTrap
  cases e.feHoldList with
  | none => simp
  | some vfq =>
    simp only [Option.some.injEq, exists_eq_left']
    unfold FlowQueue.takes
    by_cases hfull : vrMaxFlowQueueEntries ≤ vfq.vfqEntries
    · simp [hfull]
    · cases (decide (vfq.vfqEntries = 0) && !o.cloned) with
      | true => simp [hfull]
      | false => simp [Nat.lt_of_not_le hfull]

theorem actionDisposals_ne_held (o : ActionOutcome) (e : FlowEntry) (pkt : FlowPacket) :
    actionDisposals o e pkt ≠ [.held .flow] := by
  unfold actionDisposals
  split
  · simp
  · simp
  all_goals
    split
    · simp
    · simp
    · split
      · simp
      · split <;> simp
    · simp
    · simp

/-- A packet is held if its flow is on hold and not marked for eviction, and the queue takes it. -/
theorem handleDisposals_held_iff (s : FlowSys) (o : FlowOutcome) (fe : Nat) (pkt : FlowPacket) :
    s.handleDisposals true o fe pkt = [.held .flow] ↔
      (s.entry fe).feFlags.evictCandidate = false ∧ (s.entry fe).feAction = .hold ∧
        ∃ vfq, (s.entry fe).feHoldList = some vfq ∧ vfq.takes o.cloned = true := by
  unfold handleDisposals doActionDisposals
  generalize hs₁ : (s.vrFlowTcpDigest fe pkt).modify fe (fun e => e.countPacket pkt.pktLen) = s₁
  have hlasting : s₁.lasting = s.lasting := by
    rw [← hs₁]
    exact (lasting_modify rfl).trans (s.vrFlowTcpDigest_lasting fe pkt)
  rw [← lasting_action hlasting, ← lasting_holdList hlasting]
  cases (s.entry fe).feFlags.evictCandidate with
  | true => simp
  | false =>
    by_cases hhold : (s₁.entry fe).feAction = .hold
    · simp [hhold, enqueueDisposals_held_iff]
    · simp [hhold, actionDisposals_ne_held]

/-- Behind the lookup, the packet is put in the queue of its entry or not. -/
theorem handlePacket_balance (htidy : ∀ vfq, (s.entry fe).feHoldList = some vfq → vfq.Tidy)
    (h : s.handlePacket o fe pkt = some (s', result)) (i : Nat) :
    s.heldOn i ++ (if i = fe then s.placedBy o fe pkt else []) = s'.heldOn i := by
  have hiff := s.handleDisposals_held_iff o fe pkt
  unfold placedBy
  rcases handlePacket_lasts h with ⟨hlasts, hnot⟩ | ⟨hcandidate, hhold, hlasts⟩
  · have hheld : ¬ s.handleDisposals true o fe pkt = [.held .flow] := by
      intro hheld
      obtain ⟨hcandidate, hhold, -⟩ := hiff.mp hheld
      rcases hnot with hmarked | hother
      · cases hcandidate.symm.trans hmarked
      · exact hother hhold
    rw [heldOn_of_holdList (lasting_holdList hlasts.lasting i), if_neg hheld, ite_self,
      List.append_nil]
  · rw [heldOn_of_holdList (lasting_holdList hlasts.lasting i)]
    by_cases hi : i = fe
    · rw [if_pos hi, hi]
      have hqueue : ((s.modify fe fun e => e.withQueue (Option.map fun vfq =>
          vfq.enqueued pkt o.cloned)).entry fe).feHoldList =
          (s.entry fe).feHoldList.map fun vfq => vfq.enqueued pkt o.cloned := by
        rw [modify_self]
        rfl
      cases hlist : (s.entry fe).feHoldList with
      | none =>
        rw [hlist] at hqueue
        rw [heldOn_of_none hlist, heldOn_of_none hqueue, if_neg]
        · rfl
        · rw [hiff, hlist]
          simp
      | some vfq =>
        rw [hlist] at hqueue
        rw [heldOn_of_some hlist, heldOn_of_some hqueue, (htidy vfq hlist).packets_enqueued]
        have htakes : s.handleDisposals true o fe pkt = [.held .flow] ↔
            vfq.takes o.cloned = true := by
          rw [hiff, hlist]
          simp [hcandidate, hhold]
        simp only [htakes]
    · rw [if_neg hi, List.append_nil]
      exact (heldOn_of_holdList (by rw [modify_of_ne _ _ _ hi])).symm

/-- What `vr_flow_lookup` does with the entries, and with the packet. -/
theorem vrFlowLookup_placed {key : List Octet}
    (h : s.vrFlowLookup cfg o key pkt = some (s', result)) :
    (s' = s ∧ ∀ i, s.placedOn cfg i (.packet key pkt o) = []) ∨
      (∃ fe, s.vrFindFlow cfg key = some (some fe) ∧ s.packetEntry cfg o key pkt = some fe ∧
        s.handlePacket o fe pkt = some (s', result) ∧
        ∀ i, s.placedOn cfg i (.packet key pkt o) = if i = fe then s.placedBy o fe pkt else []) ∨
      ∃ fe s₁ s₂, s.vrFlowGetFreeEntry cfg o key pkt.vpType true = some (some fe, s₁) ∧
        s₂ = (s₁.modify fe fun e => { e with feVrf := pkt.fmdDvrf % 2 ^ 16 }).vrFlowEntrySetHold
          cfg o.cpu fe ∧
        s₂.handlePacket o fe pkt = some (s', result) ∧
        ∀ i, s.placedOn cfg i (.packet key pkt o) =
          if i = fe then s₂.placedBy o fe pkt else [] := by
  have hplaced : ∀ (s₂ : FlowSys) (fe i : Nat),
      (if s₂.handleDisposals true o fe pkt = [.held .flow] ∧ some fe = some i then [pkt] else []) =
        if i = fe then s₂.placedBy o fe pkt else [] := by
    intro s₂ fe i
    unfold placedBy
    by_cases hi : i = fe
    · simp [hi]
    · simp [hi, Ne.symm hi]
  have hnot : s.lookupDisposals true cfg o key pkt ≠ [.held .flow] →
      ∀ i, s.placedOn cfg i (.packet key pkt o) = [] :=
    fun hne i => if_neg fun hheld => hne hheld.1
  unfold vrFlowLookup at h
  split at h
  · cases h
  · rename_i fe hfind
    have hdisposals : s.lookupDisposals true cfg o key pkt = s.handleDisposals true o fe pkt := by
      unfold lookupDisposals
      rw [hfind]
    have hentry : s.packetEntry cfg o key pkt = some fe := by
      unfold packetEntry
      rw [hfind]
    refine Or.inr (Or.inl ⟨fe, hfind, hentry, h, fun i => ?_⟩)
    unfold placedOn
    dsimp only
    rw [hdisposals, hentry]
    exact hplaced s fe i
  · rename_i hfind
    split at h
    · rename_i hrelaxed
      cases h
      refine Or.inl ⟨rfl, hnot ?_⟩
      simp [lookupDisposals, hfind, hrelaxed]
    rename_i hrelaxed
    split at h
    · rename_i hallow
      cases h
      refine Or.inl ⟨rfl, hnot ?_⟩
      simp [lookupDisposals, hfind, hrelaxed, hallow]
    rename_i hallow
    split at h
    · cases h
    · -- no entry is free
      rename_i hget
      cases h
      rcases vrFlowGetFreeEntry_eq hget with ⟨-, hs⟩ | ⟨fe, t, hfe, -⟩
      · refine Or.inl ⟨hs, hnot ?_⟩
        simp [lookupDisposals, hfind, hrelaxed, hallow, hget]
      · cases hfe
    · rename_i fe s₁ hget
      refine Or.inr (Or.inr ⟨fe, s₁, _, hget, rfl, h, fun i => ?_⟩)
      have hdisposals : s.lookupDisposals true cfg o key pkt =
          ((s₁.modify fe fun e => { e with feVrf := pkt.fmdDvrf % 2 ^ 16 }).vrFlowEntrySetHold
            cfg o.cpu fe).handleDisposals true o fe pkt := by
        unfold lookupDisposals
        simp only [hfind, hrelaxed, hallow, hget, Bool.false_eq_true, if_false]
      have hentry : s.packetEntry cfg o key pkt = some fe := by
        unfold packetEntry
        simp only [hfind, hget]
      unfold placedOn
      dsimp only
      rw [hdisposals, hentry]
      exact hplaced _ fe i

end FlowSys

end VRouter
