import VRouter.Flow.ForwardingMd
import VRouter.Flow.HoldQueue

/-!
# VRouter — the index in a hold queue

When a callback flushes the queue of a flow, `vr_flow_flush_hold_queue` makes the forwarding
metadata of the packets from the entry and from the index that the queue carries.
`vr_flow_get_free_entry` writes that index, `vr_flow_set` does not: an entry that a request puts on
hold gets a zeroed queue.

`QueuesIndexed` says that every queue carries the index of its entry, and `hold_queue_index` that it
holds in every state of a run in which no request puts an entry other than entry 0 on hold that has
no queue. `queue_index_not_set` is a run in which one does.
-/

namespace VRouter

open LongestMatch FlowSys

variable {cfg : FlowConfig} {s s' : FlowSys} {o : FlowOutcome} {req : FlowReq} {fe : Nat}

/-- Every queue carries the index of its entry, and so do those that wait for their callback. -/
structure QueuesIndexed (s : FlowSys) : Prop where
  attached : ∀ i vfq, (s.entry i).feHoldList = some vfq → vfq.vfqIndex = i
  deferred : ∀ vfdd ∈ s.callbacks, ∀ vfq, vfdd.vfddFlowQueue = some vfq →
    vfq.vfqIndex = vfdd.vfddFe

variable {flmd : FlowMd}

namespace QueuesIndexed

theorem of_lasting (h : QueuesIndexed s) (hs : s'.lasting = s.lasting) : QueuesIndexed s' := by
  have hlasting : QueuesIndexed s.lasting := ⟨h.attached, h.deferred⟩
  rw [← hs] at hlasting
  exact ⟨hlasting.attached, hlasting.deferred⟩

theorem of_kept (h : QueuesIndexed s) (hs : s'.kept = s.kept) : QueuesIndexed s' := by
  have hlist : (fun i => (s'.entry i).feHoldList) = fun i => (s.entry i).feHoldList :=
    congrArg FlowSys.FlowKept.holdList hs
  have hcallbacks : s'.callbacks = s.callbacks := congrArg FlowSys.FlowKept.callbacks hs
  refine ⟨fun i vfq hvfq => h.attached i vfq ?_, ?_⟩
  · rw [← congrFun hlist i]
    exact hvfq
  · rw [hcallbacks]
    exact h.deferred

theorem modify (h : QueuesIndexed s) {i : Nat} {f : FlowEntry → FlowEntry}
    (hf : ∀ vfq, (f (s.entry i)).feHoldList = some vfq → vfq.vfqIndex = i) :
    QueuesIndexed (s.modify i f) := by
  refine ⟨fun j vfq hvfq => ?_, h.deferred⟩
  rw [modify_apply] at hvfq
  split at hvfq
  · rename_i hj
    subst hj
    exact hf vfq hvfq
  · exact h.attached j vfq hvfq

/-! ## Packets -/

variable {result : Option Errno × FlowReq} {pkt : FlowPacket} {key : List Octet}

variable (h : QueuesIndexed s)
include h

theorem handlePacket {result : FlowResult}
    (hstep : s.handlePacket o fe pkt = some (s', result)) : QueuesIndexed s' := by
  rcases handlePacket_lasts hstep with ⟨hs, -⟩ | ⟨-, -, hs⟩
  · exact h.of_lasting hs.lasting
  · refine (h.modify fun vfq hvfq => ?_).of_lasting hs.lasting
    obtain ⟨old, hold, rfl⟩ := Option.map_eq_some_iff.mp hvfq
    exact h.attached fe old hold

theorem vrFlowGetFreeEntry {type : VpType} {needHold : Bool}
    (hget : s.vrFlowGetFreeEntry cfg o key type needHold = some (some fe, s')) :
    QueuesIndexed s' := by
  obtain ⟨t, -, rfl⟩ := vrFlowGetFreeEntry_some hget
  have htaken : QueuesIndexed (s.modify fe fun e =>
      takenEntry e fe type key needHold) := by
    refine h.modify fun vfq hvfq => ?_
    rw [takenEntry_holdList] at hvfq
    unfold takenQueue at hvfq
    split at hvfq
    · cases hvfq
      rfl
    · exact h.attached fe vfq hvfq
  exact ⟨htaken.attached, htaken.deferred⟩

theorem vrFlowLookup {result : FlowResult}
    (hstep : s.vrFlowLookup cfg o key pkt = some (s', result)) : QueuesIndexed s' := by
  rcases vrFlowLookup_cases hstep with rfl | ⟨fe, -, hstep⟩ | ⟨fe, s₁, -, hget, hstep⟩
  · exact h
  · exact h.handlePacket hstep
  · have hvrf : QueuesIndexed (s₁.modify fe fun e => { e with feVrf := pkt.fmdDvrf % 2 ^ 16 }) :=
      (h.vrFlowGetFreeEntry hget).of_kept (kept_modify rfl rfl)
    exact (hvrf.of_kept (vrFlowEntrySetHold_kept _ _ _)).handlePacket hstep

/-! ## Requests -/

theorem vrFlowSetAdd (hstep : s.vrFlowSetAdd cfg o req = some (s', result)) : QueuesIndexed s' := by
  rcases vrFlowSetAdd_cases hstep with rfl | ⟨fe, family, s₁, ok, -, -, hget, hschedule⟩
  · exact h
  have hs₁ := h.vrFlowGetFreeEntry hget
  have hadded : QueuesIndexed { s₁ with
      info := { s₁.info with vftiAdded := (s₁.info.vftiAdded + 1) % 2 ^ 64 } } :=
    ⟨hs₁.attached, hs₁.deferred⟩
  exact (hadded.of_kept (writeEntry_kept _ _ _)).of_lasting
    (vrFlowScheduleTransition_lasting hschedule)

/-- A request on an entry in use, if it does not attach a queue to an entry other than entry 0. -/
theorem vrFlowSetChange
    (hqueue : req.frFlags.active = true → req.frAction = .hold → (s.entry fe).feAction ≠ .hold →
      (s.entry fe).feHoldList = none → fe = 0)
    (hstep : s.vrFlowSetChange cfg o req fe = some (s', result)) : QueuesIndexed s' := by
  obtain ⟨info, hcases⟩ := vrFlowSetChange_cases hstep
  have hinfo : QueuesIndexed { s with info := info } := ⟨h.attached, h.deferred⟩
  rcases hcases with ⟨-, ok, hdelete⟩ | ⟨hactive, rfl | ⟨s₁, ok, hschedule, rfl⟩⟩
  · obtain ⟨s₁, hkept, -, hschedule⟩ := vrFlowDelete_cases hdelete
    exact (hinfo.of_kept hkept).of_lasting (vrFlowScheduleTransition_lasting hschedule)
  · exact hinfo.of_kept (kept_modify rfl rfl)
  have hattach : QueuesIndexed ({ s with info := info }.attachQueue req fe) := by
    unfold attachQueue
    split
    · rename_i hneeds
      refine hinfo.modify fun vfq hvfq => ?_
      cases hvfq
      exact (hqueue hactive hneeds.1 hneeds.2.1 (Option.isNone_iff_eq_none.mp hneeds.2.2)).symm
    · exact hinfo
  refine QueuesIndexed.of_kept ?_ (kept_modify rfl rfl)
  exact (hattach.of_kept (writeEntry_kept _ _ _)).of_lasting
    (vrFlowScheduleTransition_lasting hschedule)

/-! ## Work items and callbacks -/

theorem vrFlowWork (hinv : FlowInv cfg s.view) (hcons : flmd.Consistent)
    (hstep : s.vrFlowWork o flmd = some s') : QueuesIndexed s' := by
  rcases vrFlowWork_ends hinv hcons hstep with ⟨-, rfl⟩ | ⟨fe, s₁, -, hlasts, hend⟩
  · exact h
  have hflushed : QueuesIndexed (s.modify fe FlowEntry.flushed) := by
    refine h.modify fun vfq hvfq => h.attached fe vfq ?_
    unfold FlowEntry.flushed at hvfq
    split at hvfq
    · exact hvfq
    · cases hvfq
  have hs₁ := hflushed.of_lasting hlasts.lasting
  rcases hend with rfl | ⟨vfdd, hfe, -, hqueue, rfl⟩ | ⟨-, ht, -, rfl⟩
  · exact hs₁
  · refine ⟨hs₁.attached, fun vfdd' hmem vfq hvfq => ?_⟩
    rcases List.mem_append.mp hmem with hmem | hmem
    · exact hs₁.deferred vfdd' hmem vfq hvfq
    · obtain rfl := List.mem_singleton.mp hmem
      obtain ⟨old, hold, hindex⟩ := hqueue vfq hvfq
      rw [hindex, hfe]
      exact h.attached fe old hold
  · have hreset : QueuesIndexed (s₁.modify fe FlowEntry.resetAll) :=
      hs₁.modify fun vfq hvfq => nomatch hvfq
    exact ⟨hreset.attached, hreset.deferred⟩

end QueuesIndexed

/-! ## Runs -/

/-- No request puts an entry on hold that has no queue, unless it is entry 0. -/
def FlowSys.HoldsWithQueue (s : FlowSys) : FlowStep → Prop
  | .request req _ =>
    ∀ fe, s.vrFlowGetEntry req.frIndex = some fe → req.frFlags.active = true →
      req.frAction = .hold → (s.entry fe).feAction ≠ .hold → (s.entry fe).feHoldList = none → fe = 0
  | .packet _ _ _ | .work _ _ | .callback _ _ | .htWork _ _ | .htCallback _ | .setNotReady _ => True

theorem QueuesIndexed.step {a : FlowStep} (h : QueuesIndexed s) (hinv : FlowInv cfg s.view)
    (hok : s.HoldsWithQueue a) (hstep : s.step cfg a = some s') : QueuesIndexed s' := by
  cases a with
  | packet key pkt o =>
    obtain ⟨⟨s₁, result⟩, hlookup, rfl⟩ := Option.map_eq_some_iff.mp hstep
    exact h.vrFlowLookup hlookup
  | request req o =>
    obtain ⟨⟨s₁, result⟩, hset, rfl⟩ := Option.map_eq_some_iff.mp hstep
    rcases vrFlowSet_cases hset with rfl | hadd | ⟨fe, hget, -, -, hchange⟩
    · exact h
    · exact h.vrFlowSetAdd hadd
    have hlock : QueuesIndexed (s.modify fe lock) :=
      h.of_lasting (lasting_modify rfl)
    refine hlock.vrFlowSetChange ?_ hchange
    rw [modify_self]
    exact hok fe hget
  | work n o =>
    obtain ⟨flmd, hget, hwork⟩ := step_work hstep
    have hs : QueuesIndexed { s with works := s.works.eraseIdx n } := ⟨h.attached, h.deferred⟩
    exact hs.vrFlowWork (inv_eraseWork hinv n) (hinv.consistent flmd (List.mem_of_getElem? hget))
      hwork
  | callback n o =>
    have hs : QueuesIndexed { s with callbacks := s.callbacks.eraseIdx n } :=
      ⟨h.attached, fun vfdd hmem => h.deferred vfdd (List.mem_of_mem_eraseIdx hmem)⟩
    refine step_callback_rule hinv hstep hs fun s₁ i f ht h₁ hf _ _ => ?_
    have hdone : QueuesIndexed (s₁.modify i f) := by
      refine h₁.modify fun vfq hvfq => ?_
      rcases hf with ⟨rfl, -⟩ | ⟨rfl, -⟩ <;> cases hvfq
    exact ⟨hdone.attached, hdone.deferred⟩
  | htWork | htCallback =>
    obtain ⟨ht, -, rfl⟩ := htStep_eq hstep
    exact ⟨h.attached, h.deferred⟩
  | setNotReady notReady =>
    cases hstep
    exact ⟨h.attached, h.deferred⟩

/-- A work item hands on no other queue than that of the entry it names in the callback. -/
theorem FlowSys.vrFlowWork_hands_on (hinv : FlowInv cfg s.view) (hcons : flmd.Consistent)
    (h : s.vrFlowWork o flmd = some s') :
    ∀ vfdd ∈ s'.callbacks, vfdd ∈ s.callbacks ∨ ∀ vfq, vfdd.vfddFlowQueue = some vfq →
      ∃ old, (s.entry vfdd.vfddFe).feHoldList = some old ∧ vfq.vfqIndex = old.vfqIndex := by
  intro vfdd hmem
  rcases vrFlowWork_ends hinv hcons h with ⟨-, rfl⟩ | ⟨fe, s₁, -, hlasts, hend⟩
  · exact Or.inl hmem
  have hcallbacks : s₁.callbacks = (s.modify fe FlowEntry.flushed).callbacks :=
    lasting_callbacks hlasts.lasting
  rcases hend with rfl | ⟨vfdd', rfl, -, hqueue, rfl⟩ | ⟨-, ht, -, rfl⟩
  · exact Or.inl (hcallbacks ▸ hmem)
  · rcases List.mem_append.mp hmem with hmem | hmem
    · exact Or.inl (hcallbacks ▸ hmem)
    · obtain rfl := List.mem_singleton.mp hmem
      exact Or.inr hqueue
  · exact Or.inl (hcallbacks ▸ hmem)

/-- The forwarding metadata of a flow, under its own index. -/
def FlowSys.ownMd (s : FlowSys) (fe : Nat) : FlowForwardingMd :=
  s.vrFlowSetForwardingMd fe fe vrInitForwardingMd

/-- In every state reached by a run in which no request puts an entry other than entry 0 on hold
that has no queue, every queue carries the index of its entry. The metadata a callback flushes its
queue with is that of its flow, which is the flow the queue was attached to when a work item took it
off, and the metadata a work item flushes with is that of its flow. -/
theorem hold_queue_index {entries oentries : Nat} {t : Htable}
    (ht : FlowTableCreated entries oentries t) {cfg : FlowConfig} {notReady : Bool}
    {as : List FlowStep} {s : FlowSys}
    (hok : StepsMeet (FlowSys.step cfg) FlowSys.HoldsWithQueue (.initial t notReady) as)
    (hrun : runSteps (FlowSys.step cfg) (.initial t notReady) as = some s) :
    (∀ i vfq, (s.entry i).feHoldList = some vfq → vfq.vfqIndex = i) ∧
      (∀ vfdd ∈ s.callbacks, ∀ vfq, vfdd.vfddFlowQueue = some vfq →
        s.vrFlowSetForwardingMd vfdd.vfddFe vfq.vfqIndex vrInitForwardingMd =
          s.ownMd vfdd.vfddFe) ∧
      (∀ n o s', s.step cfg (.work n o) = some s' → ∀ vfdd ∈ s'.callbacks, vfdd ∈ s.callbacks ∨
        ∀ vfq, vfdd.vfddFlowQueue = some vfq →
          ∃ old, (s.entry vfdd.vfddFe).feHoldList = some old ∧ vfq.vfqIndex = old.vfqIndex) ∧
      ∀ flmd ∈ s.works, ∀ fe, s.vrFlowGetEntry flmd.flmdIndex = some fe →
        s.vrFlowSetForwardingMd fe flmd.flmdIndex vrInitForwardingMd = s.ownMd fe := by
  have hinit : QueuesIndexed (.initial t notReady) :=
    ⟨fun _ _ hvfq => (nomatch hvfq), fun _ hmem => (nomatch hmem)⟩
  obtain ⟨hinv, hindexed⟩ := runSteps_invariant_of_meet
    (I := fun s : FlowSys => FlowInv cfg s.view ∧ QueuesIndexed s)
    (fun s a s' h hok hstep => ⟨step_inv h.1 hstep, h.2.step h.1 hok hstep⟩)
    ⟨ht.inv cfg notReady, hinit⟩ hok hrun
  refine ⟨hindexed.attached, ?_, ?_, ?_⟩
  · intro vfdd hmem vfq hvfq
    rw [hindexed.deferred vfdd hmem vfq hvfq]
    rfl
  · intro n o s' hstep vfdd hmem
    obtain ⟨flmd, hget, hwork⟩ := step_work hstep
    exact vrFlowWork_hands_on (inv_eraseWork hinv n)
      (hinv.consistent flmd (List.mem_of_getElem? hget)) hwork vfdd hmem
  · intro flmd _ fe hget
    have hindex := eq_of_vrFlowGetEntry hget
    rw [show flmd.flmdIndex = fe by omega]
    rfl

/-- A packet opens a flow, the agent lets it pass, and the queue waits for its callback. -/
def missRun : List FlowStep :=
  [.packet (tcpKey 1) (tcpPacket false) allSucceed,
    .request (tcpRequest 4 1 1 .forward { active := true } (-1)) allSucceed,
    .work 0 allSucceed]

theorem hold_queue_index_miss : ∃ t s vfdd vfq, FlowTableCreated 8 0 t ∧
    runSteps (FlowSys.step smallConfig) (.initial t false) missRun = some s ∧
    vfdd ∈ s.callbacks ∧ vfdd.vfddFe = 4 ∧ vfdd.vfddFlowQueue = some vfq ∧
    s.vrFlowSetForwardingMd vfdd.vfddFe vfq.vfqIndex vrInitForwardingMd = s.ownMd vfdd.vfddFe := by
  have hok : StepsMeet (step smallConfig) FlowSys.HoldsWithQueue (.initial smallTable false)
      missRun :=
    ⟨trivial, fun _ _ => ⟨fun _ _ _ hhold => (nomatch hhold), fun _ _ =>
      ⟨trivial, fun _ _ => trivial⟩⟩⟩
  have hrun := smallEnd_run missRun rfl
  exact ⟨smallTable, _, _, _, smallTable_created, hrun, .head _, rfl, rfl,
    (hold_queue_index smallTable_created hok hrun).2.1 _ (.head _) _ rfl⟩

/-! ## A queue without an index -/

/-- The agent adds a flow and puts it on hold. -/
def holdAgainRun : List FlowStep :=
  [.request (tcpRequest (-1) 1 0 .forward { active := true } (-1)) allSucceed,
    .request (tcpRequest 4 1 1 .hold { active := true } (-1)) allSucceed]

/-- The queue of entry 4 carries the index 0. When the agent lets the flow pass again, the callback
flushes the queue with the metadata of entry 4 under the index 0. -/
theorem queue_index_not_set :
    (∃ t s, FlowTableCreated 8 0 t ∧
      runSteps (FlowSys.step smallConfig) (.initial t false) holdAgainRun = some s ∧
      (s.entry 4).feHoldList.map FlowQueue.vfqIndex = some 0) ∧
    ∃ t s, FlowTableCreated 8 0 t ∧
      runSteps (FlowSys.step smallConfig) (.initial t false) (holdAgainRun ++
        [.request (tcpRequest 4 1 1 .forward { active := true } (-1)) allSucceed,
          .work 2 allSucceed]) = some s ∧
      (s.callbacks.map fun vfdd => (vfdd.vfddFe, vfdd.vfddFlowQueue.map fun vfq =>
        (s.vrFlowSetForwardingMd vfdd.vfddFe vfq.vfqIndex vrInitForwardingMd).fmdFlowIndex,
          (s.ownMd vfdd.vfddFe).fmdFlowIndex)) = [(4, some 0, 4)] := by
  exact ⟨⟨smallTable, _, smallTable_created, rfl, rfl⟩, smallTable, _, smallTable_created, rfl, rfl⟩

end VRouter
