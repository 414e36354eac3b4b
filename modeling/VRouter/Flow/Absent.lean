import VRouter.Flow.Claim
import VRouter.Flow.Forward

/-!
# VRouter — null pointers on the paths of the flow module

Packets, requests of the agent and the work items they make take memory on the way: an entry of the
hash table, a queue for held packets, the argument of a work item, its deferral data and the payload
of these. A function of the model is `none` where the source would follow a pointer that one of
these steps has left null.

Two statements do. `vr_flow_get_free_entry` gives its entry back when there is no memory for the
queue and then writes the type of the entry all the same, and `__vr_flow_schedule_transition` fills
in the payload of a deletion's deferral data without asking whether there is one.
`null_accesses_iff` says for each call when it comes to that; work items and callbacks never do.
-/

namespace VRouter

open LongestMatch

/-! ## The two statements -/

/-- The deferral data could be allocated, their payload could not. -/
def TransitionOutcome.NoPayload (o : TransitionOutcome) : Prop :=
  o.flmd = true ∧ o.defer = true ∧ o.vfdd = false

/-- The request adds a flow on hold, there is an entry for it, and no memory for its queue. -/
def FlowSys.AddsWithoutQueue (cfg : FlowConfig) (s : FlowSys) (o : FlowOutcome) (req : FlowReq) :
    Prop :=
  s.vrFlowGetEntry req.frIndex = none ∧ s.vrFlowSetReqIsInvalid cfg req none = none ∧
    req.frFlags.active = true ∧ req.frAction = .hold ∧ o.queueAlloc = false ∧
    ∃ family, req.frFamily = some family ∧ s.vrFindFlow cfg (reqKey req family) = some none ∧
      ∃ fe s', s.vrFlowTableGetFreeEntry cfg (reqKey req family) = some (some fe, s')

/-- The request deletes a flow that has a queue or is said to be evicted, and the deferral data
have no payload. -/
def FlowSys.DeletesWithoutPayload (cfg : FlowConfig) (s : FlowSys) (o : FlowOutcome)
    (req : FlowReq) : Prop :=
  ∃ fe e, s.vrFlowGetEntry req.frIndex = some fe ∧ (s.entry fe).vrFlowStartModify = some e ∧
    (s.modify fe fun _ => e).vrFlowSetReqIsInvalid cfg req (some fe) = none ∧
    req.frFlags.active = false ∧
    ((s.entry fe).feHoldList.isSome = true ∨ req.frFlags.evictCandidate = true) ∧
    o.transition.NoPayload

namespace FlowSys

variable {cfg : FlowConfig} {s s' : FlowSys} {o : FlowOutcome} {req : FlowReq} {fe index : Nat}

theorem vrFlowScheduleTransition_eq_none_iff {o : TransitionOutcome} {flags : FlowFlags} :
    s.vrFlowScheduleTransition o fe index flags = none ↔
      flags.active = false ∧
        ((s.entry fe).feHoldList.isSome = true ∨ flags.evictCandidate = true) ∧ o.NoPayload := by
  unfold vrFlowScheduleTransition TransitionOutcome.NoPayload
  cases hflmd : o.flmd with
  | false => simp
  | true =>
    simp only [Bool.not_true, Bool.false_eq_true, if_false]
    split
    · rename_i hnull
      simpa [and_assoc, and_comm, and_left_comm] using hnull
    · rename_i hfine
      refine iff_of_false (by split <;> simp) ?_
      simpa [and_assoc, and_comm, and_left_comm] using hfine

theorem vrFlowGetFreeEntry_eq_none_iff (hinv : FlowInv cfg s.view) {key : List Octet}
    {type : VpType} {needHold : Bool} :
    s.vrFlowGetFreeEntry cfg o key type needHold = none ↔
      needHold = true ∧ o.queueAlloc = false ∧
        ∃ fe s', s.vrFlowTableGetFreeEntry cfg key = some (some fe, s') := by
  unfold vrFlowGetFreeEntry
  rcases htake : s.vrFlowTableGetFreeEntry cfg key with _ | ⟨_ | fe, s₁⟩
  · exact absurd htake (vrFlowTableGetFreeEntry_ne_none hinv key)
  · simp
  · cases needHold with
    | false => simp
    | true => cases o.queueAlloc <;> simp

/-! ## Requests -/

theorem vrAddFlowReq_eq_none_iff (hinv : FlowInv cfg s.view) :
    s.vrAddFlowReq cfg o req = none ↔
      req.frAction = .hold ∧ o.queueAlloc = false ∧
        ∃ family, req.frFamily = some family ∧ s.vrFindFlow cfg (reqKey req family) = some none ∧
          ∃ fe s', s.vrFlowTableGetFreeEntry cfg (reqKey req family) = some (some fe, s') := by
  unfold vrAddFlowReq
  cases hfamily : req.frFamily with
  | none => simp
  | some family =>
    simp only [Option.some.injEq, exists_eq_left']
    rcases hfind : s.vrFindFlow cfg (reqKey req family) with _ | _ | fe
    · exact absurd hfind (vrFindFlow_ne_none hinv _)
    · simp only [true_and]
      -- only an addition on hold asks for a queue
      have hiff : ∀ type : VpType,
          s.vrFlowGetFreeEntry cfg o (reqKey req family) type (decide (req.frAction = .hold)) =
              none ↔
            req.frAction = .hold ∧ o.queueAlloc = false ∧
              ∃ fe s', s.vrFlowTableGetFreeEntry cfg (reqKey req family) = some (some fe, s') := by
        intro type
        rw [vrFlowGetFreeEntry_eq_none_iff hinv, decide_eq_true_iff]
      split
      · rename_i hnone
        exact iff_of_true rfl ((hiff _).mp hnone)
      · rename_i hsome
        refine iff_of_false (by simp) fun hnone => ?_
        cases hsome.symm.trans ((hiff _).mpr hnone)
    · simp

theorem vrFlowSetAdd_eq_none_iff :
    s.vrFlowSetAdd cfg o req = none ↔
      req.frFlags.active = true ∧ s.vrAddFlowReq cfg o req = none := by
  unfold vrFlowSetAdd
  cases hactive : req.frFlags.active with
  | false => simp
  | true =>
    simp only [Bool.not_true, Bool.false_eq_true, if_false]
    rcases hadd : s.vrAddFlowReq cfg o req with _ | ⟨_ | fe, exist, s₁⟩
    · simp
    · cases exist <;> simp
    simp only
    -- what is scheduled for an addition is no deletion
    split
    · rename_i hnone
      exact absurd hnone (vrFlowScheduleTransition_ne_none _ hactive)
    · simp

theorem vrFlowDelete_eq_none_iff :
    s.vrFlowDelete o req fe = none ↔
      req.frFlags.active = false ∧
        ((s.entry fe).feHoldList.isSome = true ∨ req.frFlags.evictCandidate = true) ∧
        o.transition.NoPayload := by
  rw [vrFlowDelete_eq, vrFlowScheduleTransition_eq_none_iff, deleted_self]
  rfl

theorem vrFlowSetChange_eq_none_iff :
    s.vrFlowSetChange cfg o req fe = none ↔
      req.frFlags.active = false ∧
        ((s.entry fe).feHoldList.isSome = true ∨ req.frFlags.evictCandidate = true) ∧
        o.transition.NoPayload := by
  unfold vrFlowSetChange
  cases hactive : req.frFlags.active with
  | false =>
    simp only [Bool.not_false, if_true, Option.map_eq_none_iff]
    rw [vrFlowDelete_eq_none_iff, eq_true hactive]
    -- counting the flow that leaves hold is no write to an entry
    split <;> rfl
  | true =>
    simp only [Bool.not_true, if_false, reduceCtorEq]
    split
    · simp
    · split
      · rename_i hnone
        exact absurd hnone (vrFlowScheduleTransition_ne_none _ hactive)
      · simp

/-- `vr_flow_set` reaches the one statement when it adds a flow and the other one when it deletes
one. -/
theorem vrFlowSet_eq_none_iff (hinv : FlowInv cfg s.view) :
    s.vrFlowSet cfg o req = none ↔
      s.AddsWithoutQueue cfg o req ∨ s.DeletesWithoutPayload cfg o req := by
  unfold vrFlowSet AddsWithoutQueue DeletesWithoutPayload
  cases hget : s.vrFlowGetEntry req.frIndex with
  | none =>
    cases hinvalid : s.vrFlowSetReqIsInvalid cfg req none with
    | some error => simp
    | none =>
      rw [vrFlowSetAdd_eq_none_iff, vrAddFlowReq_eq_none_iff hinv]
      simp
  | some fe =>
    simp only [reduceCtorEq, false_and, false_or, Option.some.injEq]
    cases hstart : (s.entry fe).vrFlowStartModify with
    | none =>
      refine iff_of_false (by simp) ?_
      rintro ⟨_, e, rfl, hstart', -⟩
      cases hstart.symm.trans hstart'
    | some e =>
      have hlocked : ((s.modify fe fun _ => e).entry fe).feHoldList = (s.entry fe).feHoldList := by
        rw [modify_self, (vrFlowStartModify_eq_some hstart).2]
        rfl
      cases hinvalid : (s.modify fe fun _ => e).vrFlowSetReqIsInvalid cfg req (some fe) with
      | some error =>
        refine iff_of_false (by simp [hinvalid]) ?_
        rintro ⟨_, e', rfl, hstart', hvalid, -⟩
        cases hstart.symm.trans hstart'
        cases hinvalid.symm.trans hvalid
      | none =>
        simp only [hinvalid]
        rw [vrFlowSetChange_eq_none_iff, hlocked]
        constructor
        · rintro ⟨hactive, hwants, hpayload⟩
          exact ⟨fe, e, rfl, hstart, hinvalid, hactive, hwants, hpayload⟩
        · rintro ⟨_, e', rfl, -, -, hactive, hwants, hpayload⟩
          exact ⟨hactive, hwants, hpayload⟩

/-! ## Work items and callbacks -/

theorem flushSlots_ne_none (slots : List Nat) (s : FlowSys) (vfq : FlowQueue) :
    flushSlots o fe index slots s vfq ≠ none := by
  induction slots generalizing s vfq with
  | nil => simp [flushSlots]
  | cons slot slots ih =>
    unfold flushSlots vrFlowFlushPnode
    cases vfq.vfqPnodes slot with
    | none => exact ih s vfq
    | some pkt =>
      cases o.vifPresent slot with
      | false => exact ih s _
      | true =>
        obtain ⟨s₁, r, hr, -⟩ := @vrFlowAction_settled s fe index pkt (o.action slot)
        simp only [hr]
        exact ih s₁ _

theorem vrFlushEntry_ne_none (flmd : FlowMd) : s.vrFlushEntry o fe flmd ≠ none := by
  unfold vrFlushEntry
  split
  · simp
  split
  · simp
  simp only
  split
  · rename_i hnone
    exact absurd hnone (flushSlots_ne_none _ _ _)
  · simp

section

variable (hinv : FlowInv cfg s.view)
include hinv

/-- Under the invariant the hash table finds what it needs to release an entry. -/
theorem release_ne_none (scheduled : Bool) (fe : Nat) :
    vrHtableReleaseHentry s.ht scheduled fe ≠ none := by
  cases hvalid : s.view.valid fe with
  | false =>
    have hvalid : (s.ht.table.hentry fe).flagValid = false := hvalid
    simp [vrHtableReleaseHentry, hvalid]
  | true =>
    obtain ⟨place, cont, hi⟩ := hinv.keyed.inv
    have hi : HtInv s.ht place cont := hi
    obtain ⟨ht, hht, -⟩ := hi.release scheduled (hinv.keyed.bound fe hvalid)
    rw [hht]
    simp

theorem vrFlowWork_ne_none (flmd : FlowMd) : s.vrFlowWork o flmd ≠ none := by
  unfold vrFlowWork
  split
  · simp
  rename_i fe _
  split
  · rename_i hnone
    exact absurd hnone (vrFlushEntry_ne_none flmd)
  rename_i s₁ flmd₁ hflush
  unfold vrFlowDefer
  split
  · simp
  -- neither the flush nor the marks that are taken back concern the hash table
  have hht₂ : (if flmd₁.flmdFlags.evictCandidate then s₁.takeBackMarks fe else s₁).ht = s.ht :=
    lasting_ht (s := s.modify fe FlowEntry.flushed)
      ((vrFlushEntry_lasts hflush).1.trans (takenBack_lasts rfl)).lasting
  simp only
  split
  · unfold vrFlowResetEntry
    rw [hht₂, Ne, Option.map_eq_none_iff]
    exact release_ne_none hinv _ fe
  · simp

theorem vrFlowEvictFlow_ne_none (fe : Nat) : s.vrFlowEvictFlow o fe ≠ none := by
  unfold vrFlowEvictFlow
  split
  · rw [Ne, Option.map_eq_none_iff]
    exact release_ne_none hinv _ fe
  · simp

theorem vrFlowDeferCb_ne_none {vfdd : FlowDeferData}
    (hflushed : vfdd.Flushed) : s.vrFlowDeferCb o vfdd ≠ none := by
  unfold vrFlowDeferCb
  dsimp only
  split
  · rename_i hnone
    -- the flush of the callback's queue goes through
    split at hnone
    · cases hnone
    · exact absurd (Option.map_eq_none_iff.mp hnone) (flushSlots_ne_none _ _ _)
  rename_i s₁ hflush
  obtain rfl := flushed_eq_self hflushed hflush
  split
  · unfold vrFlowResetEntry
    rw [Ne, Option.map_eq_none_iff]
    exact release_ne_none hinv _ _
  split
  · rename_i hnone
    exact absurd hnone (vrFlowEvictFlow_ne_none hinv _)
  · simp
  · rename_i s₂ rfe hevict _
    exact vrFlowEvictFlow_ne_none (vrFlowEvictFlow_keeps hinv hevict (i := 0)).1 rfe

theorem step_work_ne_none {n : Nat} (hn : n < s.works.length) : s.step cfg (.work n o) ≠ none := by
  simp only [step, List.getElem?_eq_getElem hn]
  exact vrFlowWork_ne_none (inv_eraseWork hinv n) _

theorem step_callback_ne_none {n : Nat} (hn : n < s.callbacks.length) :
    s.step cfg (.callback n o) ≠ none := by
  simp only [step, List.getElem?_eq_getElem hn]
  exact vrFlowDeferCb_ne_none (inv_eraseCallback hinv n) (hinv.flushed _ (List.getElem_mem hn))

end

end FlowSys

/-! ## Runs -/

/-- In every state a run reaches, and whatever can be allocated then: a packet follows a null
pointer exactly if it needs a flow and there is no memory for its queue; a request exactly if it
adds a flow on hold in that situation, or deletes a flow and the deferral data have no payload; a
work item or callback never. -/
theorem null_accesses_iff {entries oentries : Nat} {t : Htable}
    (ht : FlowTableCreated entries oentries t) {cfg : FlowConfig} {notReady : Bool}
    {as : List FlowStep} {s : FlowSys}
    (hrun : runSteps (FlowSys.step cfg) (.initial t notReady) as = some s) (o : FlowOutcome) :
    (∀ key pkt, s.vrFlowLookup cfg o key pkt = none ↔ s.NoHoldQueue cfg o key pkt) ∧
      (∀ req, s.vrFlowSet cfg o req = none ↔
        s.AddsWithoutQueue cfg o req ∨ s.DeletesWithoutPayload cfg o req) ∧
      (∀ n, n < s.works.length → s.step cfg (.work n o) ≠ none) ∧
      ∀ n, n < s.callbacks.length → s.step cfg (.callback n o) ≠ none := by
  have hinv := FlowSys.run_inv ht hrun
  refine ⟨fun key pkt => ?_, fun req => FlowSys.vrFlowSet_eq_none_iff hinv,
    fun n hn => FlowSys.step_work_ne_none hinv hn,
    fun n hn => FlowSys.step_callback_ne_none hinv hn⟩
  rcases FlowSys.vrFlowLookup_settled true o hinv key pkt with
    ⟨hqueue, hnone⟩ | ⟨hqueue, s', r, hsome, -⟩
  · exact iff_of_true hnone hqueue
  · rw [hsome]
    exact iff_of_false (by simp) hqueue

/-- A packet has made a flow on hold, and the agent has let it forward: another packet, a request
and the work item all go through. -/
theorem null_accesses_iff_forwarded :
    ∃ t s, FlowTableCreated 8 0 t ∧
      runSteps (FlowSys.step smallConfig) (.initial t false)
        [.packet (tcpKey 1) (tcpPacket false) allSucceed,
          .request (tcpRequest 4 1 1 .forward { active := true } (-1)) allSucceed] = some s ∧
      s.works.length = 1 ∧
      s.vrFlowLookup smallConfig allSucceed (tcpKey 2) (tcpPacket false) ≠ none ∧
      s.vrFlowSet smallConfig allSucceed (tcpRequest 4 1 1 .forward {} (-1)) ≠ none ∧
      s.step smallConfig (.work 0 allSucceed) ≠ none := by
  have hrun := smallEnd_run [.packet (tcpKey 1) (tcpPacket false) allSucceed,
    .request (tcpRequest 4 1 1 .forward { active := true } (-1)) allSucceed] rfl
  obtain ⟨hlookup, hset, hwork, -⟩ := null_accesses_iff smallTable_created hrun allSucceed
  refine ⟨smallTable, _, smallTable_created, hrun, rfl, ?_, ?_, hwork 0 Nat.one_pos⟩
  · rw [Ne, hlookup]
    rintro ⟨-, -, -, -, hqueue⟩
    cases hqueue
  · rw [Ne, hset]
    rintro (⟨-, -, hactive, -⟩ | ⟨fe, e, -, -, -, -, -, hpayload⟩)
    · cases hactive
    · cases hpayload.2.2

/-- No memory for the queue of held packets. -/
def noQueue : FlowOutcome := { allSucceed with queueAlloc := false }

/-- Deferral data without a payload. -/
def noPayload : FlowOutcome := { allSucceed with transition := ⟨true, true, false, true⟩ }

/-- The first packet of a new table has no memory for its queue; a flow on hold is deleted and there
is no memory for the payload. -/
theorem null_pointers_followed :
    ∃ t s, FlowTableCreated 8 0 t ∧
      runSteps (FlowSys.step smallConfig) (.initial t false)
        [.packet (tcpKey 1) (tcpPacket false) allSucceed] = some s ∧
      s.vrFlowLookup smallConfig noQueue (tcpKey 2) (tcpPacket false) = none ∧
      s.vrFlowSet smallConfig noPayload (tcpRequest 4 1 1 .forward {} (-1)) = none := by
  exact ⟨smallTable, _, smallTable_created, rfl, rfl, rfl⟩

end VRouter
