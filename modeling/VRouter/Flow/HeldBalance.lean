import VRouter.Flow.HeldPackets

/-!
# VRouter — held packets along a run

A flow can go back on hold before its work item has run, and keeps its queue then. So a queue can
hold packets although the flow is not on hold, and packets can wait although a work item is pending.

* `HeldInv`: slots are filled in order, only entries in use have a queue, and where packets wait
  although the flow is not on hold a work item is on its way.
* `held_packets_balance`: along a run, the packets that have been put in are those taken out
  followed by those that are still there, if no flow is evicted while packets are in its queue.

An eviction does not look at the queue. `held_packet_lost` is a run in which it throws one away.
-/

namespace VRouter

open LongestMatch FlowSys

variable {cfg : FlowConfig} {s s' : FlowSys} {o : FlowOutcome} {req : FlowReq} {fe index : Nat}

/-! ## The invariant -/

/-- No pending deletion is for the entry. -/
def FlowSys.NoDeletion (s : FlowSys) (i : Nat) : Prop :=
  (∀ flmd ∈ s.works, flmd.flmdFlags.active = false → flmd.flmdIndex ≠ i) ∧
    ∀ vfdd ∈ s.callbacks, vfdd.vfddDelete = true → vfdd.vfddFe ≠ i

/-- A pending deletion is for an entry that is in use and locked. -/
theorem LockInv.noDeletion (h : LockInv s.view) {i : Nat}
    (hi : s.view.valid i = false ∨ (s.entry i).feFlags.modified = false) : s.NoDeletion i := by
  have hnone : ∀ it ∈ s.view.items, it.delete = true → it.index ≠ i := by
    rintro it hit hdelete rfl
    have howns := h.owns it hit hdelete
    rcases hi with hvalid | hmodified
    · cases hvalid.symm.trans howns.valid
    · cases hmodified.symm.trans howns.modified
  constructor
  · intro flmd hmem hactive
    refine hnone flmd.item (List.mem_append_left _ ?_) ?_
    · exact List.mem_append_right _ (List.mem_map_of_mem hmem)
    · show (!flmd.flmdFlags.active) = true
      rw [hactive]
      rfl
  · intro vfdd hmem hdelete
    exact hnone vfdd.item (List.mem_append_right _ (List.mem_map_of_mem hmem)) hdelete

/-- What holds about queues between two steps, or while a work item for the entry `running` is under
way. -/
structure HeldInv (s : FlowSys) (running : Option Nat) : Prop where
  unused : ∀ i, s.view.valid i = false → (s.entry i).feHoldList = none
  tidy : ∀ i vfq, (s.entry i).feHoldList = some vfq → vfq.Tidy
  pending : ∀ i, s.heldOn i ≠ [] → (s.entry i).feAction ≠ .hold →
    running = some i ∨ ∃ flmd ∈ s.works, flmd.flmdIndex = i
  deleting : ∀ flmd ∈ s.works, flmd.flmdFlags.active = false →
    (s.entry flmd.flmdIndex).feAction ≠ .hold
  deleted : ∀ vfdd ∈ s.callbacks, vfdd.vfddDelete = true →
    (s.entry vfdd.vfddFe).feHoldList = none

/-- At most one entry has been written or taken into use. Its queue is the one it had, or new. -/
structure FlowSys.EntryTouched (s s' : FlowSys) (fe : Nat) : Prop where
  others : ∀ j, j ≠ fe → s'.entry j = s.entry j
  valid : ∀ j, j ≠ fe → s'.view.valid j = s.view.valid j
  used : s'.view.valid fe = true
  callbacks : s'.callbacks = s.callbacks
  queue : (s'.entry fe).feHoldList = (s.entry fe).feHoldList ∨
    ((s.entry fe).feHoldList = none ∧
      ∃ index, (s'.entry fe).feHoldList = some { FlowQueue.zalloc with vfqIndex := index })

/-- If there are packets in the queue and the action has changed, there is a work item for it, and a
deletion is not on hold. -/
structure FlowSys.EntryWritten (s s' : FlowSys) (fe : Nat) : Prop
    extends s.EntryTouched s' fe where
  works : ∃ made, s'.works = s.works ++ made ∧ ∀ flmd ∈ made, flmd.flmdIndex = fe ∧
    (flmd.flmdFlags.active = false → (s'.entry fe).feAction ≠ .hold)
  action : (s'.entry fe).feAction = (s.entry fe).feAction ∨ s'.heldOn fe = [] ∨
    ∃ flmd ∈ s'.works, flmd.flmdIndex = fe

theorem FlowSys.EntryTouched.heldOn (h : s.EntryTouched s' fe) (i : Nat) :
    s'.heldOn i = s.heldOn i := by
  by_cases hi : i = fe
  · rw [hi]
    rcases h.queue with hsame | ⟨hnone, index, hnew⟩
    · exact heldOn_of_holdList hsame
    · rw [heldOn_of_none hnone, heldOn_of_some hnew, FlowQueue.zalloc_packets]
  · exact heldOn_of_holdList (by rw [h.others i hi])

variable {f : FlowEntry → FlowEntry} {a : FlowStep} {ht : HtSys} {n : Nat}

namespace HeldInv

variable {running : Option Nat}

theorem initial (t : Htable) (notReady : Bool) : HeldInv (.initial t notReady) none :=
  ⟨fun _ _ => rfl, fun _ _ hvfq => (nomatch hvfq), fun _ hheld => absurd rfl hheld,
    fun _ hmem => (nomatch hmem), fun _ hmem => (nomatch hmem)⟩

theorem of_lasts (h : HeldInv s running) (hs : s.Lasts s') : HeldInv s' running := by
  have hlist := lasting_holdList hs.lasting
  have haction := lasting_action hs.lasting
  obtain ⟨made, hworks, hmade⟩ := hs.works
  refine ⟨fun i hi => ?_, fun i vfq hvfq => ?_, fun i hheld hhold => ?_,
    fun flmd hmem hdelete => ?_, fun vfdd hmem hdelete => ?_⟩
  · rw [valid_of_ht (lasting_ht hs.lasting)] at hi
    rw [hlist]
    exact h.unused i hi
  · rw [hlist] at hvfq
    exact h.tidy i vfq hvfq
  · rw [heldOn_of_holdList (hlist i)] at hheld
    rw [haction] at hhold
    refine (h.pending i hheld hhold).imp_right fun ⟨flmd, hmem, hindex⟩ => ⟨flmd, ?_, hindex⟩
    rw [hworks]
    exact List.mem_append_left _ hmem
  · rw [haction]
    rw [hworks] at hmem
    rcases List.mem_append.mp hmem with hmem | hmem
    · exact h.deleting flmd hmem hdelete
    · cases hdelete.symm.trans (hmade flmd hmem)
  · rw [hlist]
    rw [lasting_callbacks hs.lasting] at hmem
    exact h.deleted vfdd hmem hdelete

section

variable (h : HeldInv s running) (hrunning : ∀ i, running = some i → i = fe)
  (hothers : ∀ j, j ≠ fe → s'.entry j = s.entry j)
  (hvalid : ∀ j, j ≠ fe → s'.view.valid j = s.view.valid j)
  (hcallbacks : s'.callbacks = s.callbacks)
include h hrunning hothers hvalid hcallbacks

/-- One entry is changed, and the work items that are added are for it. What is left to show is
about this entry. -/
theorem change {made : List FlowMd} (hworks : s'.works = s.works ++ made)
    (hmade : ∀ flmd ∈ made, flmd.flmdIndex = fe)
    (hunused : s'.view.valid fe = false → (s'.entry fe).feHoldList = none)
    (htidy : ∀ vfq, (s'.entry fe).feHoldList = some vfq → vfq.Tidy)
    (hpending : s'.heldOn fe ≠ [] → (s'.entry fe).feAction ≠ .hold →
      ∃ flmd ∈ s'.works, flmd.flmdIndex = fe)
    (hdeleting : ∀ flmd ∈ s'.works, flmd.flmdIndex = fe → flmd.flmdFlags.active = false →
      (s'.entry fe).feAction ≠ .hold)
    (hdeleted : ∀ vfdd ∈ s.callbacks, vfdd.vfddFe = fe → vfdd.vfddDelete = true →
      (s'.entry fe).feHoldList = none) : HeldInv s' none := by
  refine ⟨fun i hi => ?_, fun i vfq hvfq => ?_, fun i hheld hhold => Or.inr ?_,
    fun flmd hmem hdelete => ?_, fun vfdd hmem hdelete => ?_⟩
  · by_cases hife : i = fe
    · rw [hife] at hi ⊢
      exact hunused hi
    · rw [hothers i hife]
      exact h.unused i ((hvalid i hife).symm.trans hi)
  · by_cases hife : i = fe
    · rw [hife] at hvfq
      exact htidy vfq hvfq
    · rw [hothers i hife] at hvfq
      exact h.tidy i vfq hvfq
  · by_cases hife : i = fe
    · rw [hife] at hheld hhold ⊢
      exact hpending hheld hhold
    · rw [heldOn_of_holdList (s := s) (by rw [hothers i hife])] at hheld
      rw [hothers i hife] at hhold
      obtain ⟨flmd, hmem, hindex⟩ :=
        (h.pending i hheld hhold).resolve_left fun hi => hife (hrunning i hi)
      refine ⟨flmd, ?_, hindex⟩
      rw [hworks]
      exact List.mem_append_left _ hmem
  · by_cases hife : flmd.flmdIndex = fe
    · rw [hife]
      exact hdeleting flmd hmem hife hdelete
    · rw [hworks] at hmem
      rw [hothers _ hife]
      refine h.deleting flmd ((List.mem_append.mp hmem).resolve_right fun hnew => ?_) hdelete
      exact hife (hmade flmd hnew)
  · rw [hcallbacks] at hmem
    by_cases hife : vfdd.vfddFe = fe
    · rw [hife]
      exact hdeleted vfdd hmem hife hdelete
    · rw [hothers _ hife]
      exact h.deleted vfdd hmem hdelete

theorem emptied (hqueue : (s'.entry fe).feHoldList = none)
    (haction : (s'.entry fe).feAction = .hold → (s.entry fe).feAction = .hold)
    (hworks : s'.works = s.works) : HeldInv s' none := by
  refine h.change hrunning hothers hvalid hcallbacks (hworks.trans (List.append_nil _).symm)
    (by simp) (fun _ => hqueue) (fun vfq hvfq => ?_)
    (fun hheld _ => absurd (heldOn_of_none hqueue) hheld)
    (fun flmd hmem hindex hdelete hhold => ?_) fun _ _ _ _ => hqueue
  · rw [hqueue] at hvfq
    cases hvfq
  · rw [hworks] at hmem
    refine h.deleting flmd hmem hdelete ?_
    rw [hindex]
    exact haction hhold

end

theorem of_written (h : HeldInv s none) (hfree : s.NoDeletion fe) (hs : s.EntryWritten s' fe) :
    HeldInv s' none := by
  obtain ⟨made, hworks, hmade⟩ := hs.works
  refine h.change nofun hs.others hs.valid hs.callbacks hworks
    (fun flmd hmem => (hmade flmd hmem).1)
    (fun hi => ?_) (fun vfq hvfq => ?_) (fun hheld hhold => ?_)
    (fun flmd hmem hindex hdelete => ?_) fun vfdd hmem hindex hdelete => ?_
  · cases hi.symm.trans hs.used
  · rcases hs.queue with hsame | ⟨-, index, hnew⟩
    · rw [hsame] at hvfq
      exact h.tidy fe vfq hvfq
    · rw [hnew] at hvfq
      cases hvfq
      exact FlowQueue.zalloc_tidy index
  · rcases hs.action with hsame | hempty | hwork
    · rw [hs.heldOn] at hheld
      rw [hsame] at hhold
      obtain ⟨flmd, hmem, hindex⟩ := (h.pending fe hheld hhold).resolve_left (by simp)
      refine ⟨flmd, ?_, hindex⟩
      rw [hworks]
      exact List.mem_append_left _ hmem
    · exact absurd hempty hheld
    · exact hwork
  · rw [hworks] at hmem
    rcases List.mem_append.mp hmem with hmem | hmem
    · exact absurd hindex (hfree.1 flmd hmem hdelete)
    · exact (hmade flmd hmem).2 hdelete
  · exact absurd hindex (hfree.2 vfdd hmem hdelete)

theorem release (h : HeldInv s none) (hqueue : (f (s.entry fe)).feHoldList = none)
    (haction : (f (s.entry fe)).feAction = .drop) (hreleases : s.ht.table.Releases ht.table fe) :
    HeldInv { s.modify fe f with ht := ht } none := by
  have hothers : ∀ j, j ≠ fe → (s.modify fe f).entry j = s.entry j :=
    fun j hj => modify_of_ne _ _ _ hj
  have hlist : ((s.modify fe f).entry fe).feHoldList = none := by
    rw [modify_self]
    exact hqueue
  refine h.emptied nofun hothers (fun j hj => (hreleases j).1.trans (if_neg hj)) rfl hlist
    (fun hhold => ?_) rfl
  rw [modify_self, haction] at hhold
  cases hhold

end HeldInv

/-! ## Requests -/

namespace FlowSys

variable {flags : FlowFlags}

theorem vrFlowScheduleTransition_made {o : TransitionOutcome} {ok : Bool} (hflmd : o.flmd = true)
    (hscheduled : o.scheduled = true)
    (h : s.vrFlowScheduleTransition o fe index flags = some (s', ok)) :
    ∃ flmd : FlowMd, s' = { s with works := s.works ++ [flmd] } ∧ flmd.flmdIndex = index ∧
      flmd.flmdFlags.active = flags.active := by
  have hok := vrFlowScheduleTransition_ok h
  obtain ⟨-, flmd, hs', hdescribes, -⟩ :=
    (vrFlowScheduleTransition_eq h).resolve_left (by simp [hok, hflmd, hscheduled])
  exact ⟨flmd, hs', hdescribes.index, Bool.not_inj hdescribes.delete⟩

theorem vrFlowGetFreeEntry_touched (hheld : HeldInv s none) (hinv : FlowInv cfg s.view)
    {key : List Octet} {type : VpType} {needHold : Bool}
    (h : s.vrFlowGetFreeEntry cfg o key type needHold = some (some fe, s')) :
    s.EntryTouched s' fe ∧ s'.works = s.works ∧ s'.heldOn fe = [] ∧ s.view.valid fe = false := by
  obtain ⟨t, hfree, rfl⟩ := vrFlowGetFreeEntry_some h
  have hins := hinv.inserts hfree
  have hnone : (s.entry fe).feHoldList = none := hheld.unused fe hins.fresh
  have hothers : ∀ j, j ≠ fe →
      (s.modify fe fun e => takenEntry e fe type key needHold).entry j = s.entry j :=
    fun j hj => modify_of_ne _ _ _ hj
  have hnew : ((s.modify fe fun e => takenEntry e fe type key needHold).entry fe).feHoldList =
      takenQueue needHold fe none := by
    rw [modify_self, takenEntry_holdList, hnone]
  refine ⟨⟨hothers, fun j hj => (hins.others j hj).1, hins.valid, rfl, ?_⟩, rfl, ?_, hins.fresh⟩
  · cases needHold with
    | true => exact Or.inr ⟨hnone, fe, hnew⟩
    | false => exact Or.inl (hnew.trans hnone.symm)
  · cases needHold with
    | true => exact (heldOn_of_some hnew).trans (FlowQueue.zalloc_packets fe)
    | false => exact heldOn_of_none hnew

namespace EntryTouched

variable {s₁ s₂ : FlowSys}

theorem of_kept (h : s.EntryTouched s₁ fe) (hkept : s₂.kept = s₁.kept)
    (hothers : ∀ j, j ≠ fe → s₂.entry j = s₁.entry j) : s.EntryTouched s₂ fe := by
  have hht : s₂.ht = s₁.ht := congrArg FlowFrame.ht (frame_of_kept hkept)
  have hlist : (s₂.entry fe).feHoldList = (s₁.entry fe).feHoldList :=
    congrFun (congrArg FlowKept.holdList hkept) fe
  have hcallbacks : s₂.callbacks = s₁.callbacks := congrArg FlowKept.callbacks hkept
  have hvalid : ∀ j, s₂.view.valid j = s₁.view.valid j := congrFun (valid_of_ht hht)
  refine ⟨fun j hj => (hothers j hj).trans (h.others j hj),
    fun j hj => (hvalid j).trans (h.valid j hj), (hvalid fe).trans h.used,
    hcallbacks.trans h.callbacks, ?_⟩
  rw [hlist]
  exact h.queue

theorem scheduled (h : s.EntryTouched s₁ fe) (hworks : s₁.works = s.works) {o : TransitionOutcome}
    {ok : Bool} (hflmd : o.flmd = true) (hscheduled : o.scheduled = true)
    (hdelete : flags.active = false → (s₁.entry fe).feAction ≠ .hold)
    (hschedule : s₁.vrFlowScheduleTransition o fe fe flags = some (s₂, ok)) :
    s.EntryWritten s₂ fe := by
  obtain ⟨flmd, rfl, hindex, hactive⟩ := vrFlowScheduleTransition_made hflmd hscheduled hschedule
  refine ⟨{ h with }, ⟨[flmd], ?_, fun flmd' hmem => ?_⟩,
    Or.inr (Or.inr ⟨flmd, List.mem_append_right _ List.mem_cons_self, hindex⟩)⟩
  · rw [hworks]
  · obtain rfl := List.mem_singleton.mp hmem
    rw [hactive]
    exact ⟨hindex, hdelete⟩

end EntryTouched

theorem EntryWritten.modify {s₁ : FlowSys} (h : s.EntryWritten s₁ fe)
    (hqueue : (f (s₁.entry fe)).feHoldList = (s₁.entry fe).feHoldList)
    (haction : (f (s₁.entry fe)).feAction = (s₁.entry fe).feAction) :
    s.EntryWritten (s₁.modify fe f) fe := by
  have hlist : ((s₁.modify fe f).entry fe).feHoldList = (s₁.entry fe).feHoldList := by
    rw [modify_self, hqueue]
  have hsame : ((s₁.modify fe f).entry fe).feAction = (s₁.entry fe).feAction := by
    rw [modify_self, haction]
  refine ⟨⟨fun j hj => (modify_of_ne _ _ _ hj).trans (h.others j hj), h.valid, h.used, h.callbacks,
    ?_⟩, ?_, ?_⟩
  · rw [hlist]
    exact h.queue
  · rw [hsame]
    exact h.works
  · rw [hsame, heldOn_of_holdList hlist]
    exact h.action

section

variable (hflmd : o.transition.flmd = true) (hscheduled : o.transition.scheduled = true)
  {result : Option Errno × FlowReq}
include hflmd hscheduled

theorem vrFlowSetAdd_written (hheld : HeldInv s none) (hinv : FlowInv cfg s.view)
    (h : s.vrFlowSetAdd cfg o req = some (s', result)) :
    s' = s ∨ ∃ fe, s.EntryWritten s' fe ∧ s.view.valid fe = false := by
  rcases vrFlowSetAdd_cases h with rfl | ⟨fe, family, s₁, ok, hactive, -, hget, hschedule⟩
  · exact Or.inl rfl
  obtain ⟨htouched, hworks, -, hfresh⟩ := vrFlowGetFreeEntry_touched hheld hinv hget
  refine Or.inr ⟨fe, ?_, hfresh⟩
  generalize hs₂ : ({ s₁ with
    info := { s₁.info with vftiAdded := (s₁.info.vftiAdded + 1) % 2 ^ 64 } } : FlowSys) = s₂
    at hschedule
  have hinfo : s.EntryTouched s₂ fe := by
    rw [← hs₂]
    exact { htouched with }
  have hworks₂ : s₂.works = s.works := by
    rw [← hs₂]
    exact hworks
  have hkept : (s₂.writeEntry cfg o { req with frIndex := fe } fe true).kept = s₂.kept :=
    writeEntry_kept s₂ fe true
  have hwritten := hinfo.of_kept hkept fun j hj => writeEntry_of_ne hj
  refine hwritten.scheduled ((congrArg FlowKept.works hkept).trans hworks₂) hflmd hscheduled ?_
    hschedule
  intro hdelete
  cases hactive.symm.trans hdelete

theorem vrFlowSetChange_written (hvalid : s.view.valid fe = true) (hindex : req.frIndex.toNat = fe)
    (h : s.vrFlowSetChange cfg o req fe = some (s', result)) : s.EntryWritten s' fe := by
  obtain ⟨info, hcases⟩ := vrFlowSetChange_cases h
  generalize hs₁ : ({ s with info := info } : FlowSys) = s₁ at hcases
  have htouched : s.EntryTouched s₁ fe := by
    rw [← hs₁]
    exact ⟨fun _ _ => rfl, fun _ _ => rfl, hvalid, rfl, Or.inl rfl⟩
  have hworks : s₁.works = s.works := by rw [← hs₁]
  have hentry : s₁.entry = s.entry := by rw [← hs₁]
  rcases hcases with ⟨-, ok, hdelete⟩ | ⟨hactive, rfl | ⟨s₂, ok, hschedule, rfl⟩⟩
  · obtain ⟨s₂, hkept, hdrop, hschedule⟩ := vrFlowDelete_cases hdelete
    have hothers : ∀ j, j ≠ fe → s₂.entry j = s₁.entry j := by
      intro j hj
      rw [← (vrFlowScheduleTransition_entry hschedule).1]
      exact vrFlowDelete_of_ne hj hdelete
    rw [hindex] at hschedule
    refine (htouched.of_kept hkept hothers).scheduled ((congrArg FlowKept.works hkept).trans hworks)
      hflmd hscheduled (fun _ => ?_) hschedule
    rw [hdrop]
    simp
  · have hwritten : s.EntryWritten s₁ fe := by
      refine ⟨htouched,
        ⟨[], hworks.trans (List.append_nil _).symm, fun _ hmem => (nomatch hmem)⟩, ?_⟩
      rw [hentry]
      exact Or.inl rfl
    exact hwritten.modify rfl rfl
  · have hattached : s.EntryTouched (s₁.attachQueue req fe) fe ∧
        (s₁.attachQueue req fe).works = s.works := by
      unfold attachQueue
      split
      · rename_i hneeds
        refine ⟨⟨fun j hj => (modify_of_ne _ _ _ hj).trans (htouched.others j hj), htouched.valid,
          htouched.used, htouched.callbacks, Or.inr ⟨?_, 0, by rw [modify_self]; rfl⟩⟩, hworks⟩
        rw [← hentry]
        exact Option.isNone_iff_eq_none.mp hneeds.2.2
      · exact ⟨htouched, hworks⟩
    have hkept : ((s₁.attachQueue req fe).writeEntry cfg o req fe false).kept =
        (s₁.attachQueue req fe).kept := writeEntry_kept _ fe false
    have hwritten := hattached.1.of_kept hkept fun j hj => writeEntry_of_ne hj
    rw [hindex] at hschedule
    refine (hwritten.scheduled ((congrArg FlowKept.works hkept).trans hattached.2) hflmd hscheduled
      (fun hdelete => ?_) hschedule).modify rfl rfl
    cases hactive.symm.trans hdelete

end

/-! ## Work items and callbacks -/

/-- `vr_flush_entry` takes out what is in the queue, unless the flow is on hold. -/
theorem heldOn_flushed (s : FlowSys) (o : FlowOutcome) (fe index i : Nat) :
    s.heldOn i = (if i = fe then (s.entryTaken o fe index).map Prod.fst else []) ++
      (s.modify fe FlowEntry.flushed).heldOn i := by
  by_cases hi : i = fe
  · rw [if_pos hi, hi]
    unfold entryTaken heldOn
    rw [modify_self]
    unfold FlowEntry.flushed
    by_cases hhold : (s.entry fe).feAction = .hold
    · simp only [if_pos hhold]
      cases (s.entry fe).feHoldList <;> rfl
    · simp only [if_neg hhold]
      cases (s.entry fe).feHoldList with
      | none => rfl
      | some vfq =>
        rw [List.append_nil]
        exact (flushTaken_packets List.nodup_range _ vfq).symm
  · rw [if_neg hi]
    exact (heldOn_of_holdList (by rw [modify_of_ne _ _ _ hi])).symm

theorem heldOn_release (hqueue : (f (s.entry fe)).feHoldList = none) (hempty : s.heldOn fe = [])
    (i : Nat) : FlowSys.heldOn { s.modify fe f with ht := ht } i = s.heldOn i := by
  by_cases hi : i = fe
  · rw [hi, hempty]
    refine heldOn_of_none ?_
    rw [modify_self]
    exact hqueue
  · exact heldOn_of_holdList (by rw [modify_of_ne _ _ _ hi])

end FlowSys

namespace HeldInv

theorem eraseWork (h : HeldInv s none) {flmd : FlowMd} (hget : s.works[n]? = some flmd) :
    HeldInv { s with works := s.works.eraseIdx n } (some flmd.flmdIndex) := by
  refine ⟨h.unused, h.tidy, fun i hheld hhold => ?_, fun flmd' hmem => ?_, h.deleted⟩
  · obtain ⟨flmd', hmem, hindex⟩ := (h.pending i hheld hhold).resolve_left (by simp)
    obtain ⟨hn, rfl⟩ := List.getElem?_eq_some_iff.mp hget
    rcases List.mem_cons.mp ((List.getElem_cons_eraseIdx_perm hn).mem_iff.mpr hmem) with rfl | hmem
    · exact Or.inl (congrArg some hindex)
    · exact Or.inr ⟨flmd', hmem, hindex⟩
  · exact h.deleting flmd' (List.mem_of_mem_eraseIdx hmem)

theorem flushed (h : HeldInv s (some fe)) : HeldInv (s.modify fe FlowEntry.flushed) none := by
  by_cases hhold : (s.entry fe).feAction = .hold
  · have hsame : (s.entry fe).flushed = s.entry fe := if_pos hhold
    rw [modify_eq_self hsame]
    refine { h with pending := fun i hheld hother => Or.inr ?_ }
    refine (h.pending i hheld hother).resolve_left fun hrunning => ?_
    cases hrunning
    exact hother hhold
  · have hoff : (s.entry fe).flushed = { s.entry fe with feHoldList := none } := if_neg hhold
    refine h.emptied (fun i hi => (Option.some.inj hi).symm) (fun j hj => modify_of_ne _ _ _ hj)
      (fun _ _ => rfl) rfl ?_ (fun hhold' => ?_) rfl
    · rw [modify_self, hoff]
    · rwa [modify_self, hoff] at hhold'

/-- A work item: what is taken out of the queue of its entry, and that nothing is left if the flow
is not on hold. -/
theorem vrFlowWork (hinv : FlowInv cfg s.view) {flmd : FlowMd}
    (h : HeldInv s (some flmd.flmdIndex)) (hcons : flmd.Consistent)
    (hdeleting : flmd.flmdFlags.active = false → (s.entry flmd.flmdIndex).feAction ≠ .hold)
    (hstep : s.vrFlowWork o flmd = some s') :
    HeldInv s' none ∧
      (∀ i, s.heldOn i = (if s.vrFlowGetEntry flmd.flmdIndex = some i then
        (s.entryTaken o i flmd.flmdIndex).map Prod.fst else []) ++ s'.heldOn i) ∧
      ((s.entry flmd.flmdIndex).feAction ≠ .hold → s'.heldOn flmd.flmdIndex = []) := by
  rcases vrFlowWork_ends hinv hcons hstep with ⟨hnone, rfl⟩ | ⟨fe, s₁, hget, hlasts, hend⟩
  · -- an entry that packets wait on is in use
    have hempty : s'.heldOn flmd.flmdIndex = [] := by
      refine heldOn_of_none (h.unused _ ?_)
      cases hvalid : s'.view.valid flmd.flmdIndex with
      | false => rfl
      | true => cases hnone.symm.trans (hinv.getEntry_of_valid hvalid)
    refine ⟨⟨h.unused, h.tidy, fun i hheld hhold => ?_, h.deleting, h.deleted⟩, fun i => ?_,
      fun _ => hempty⟩
    · rcases h.pending i hheld hhold with hrunning | hwork
      · cases hrunning
        exact absurd hempty hheld
      · exact Or.inr hwork
    · rw [hnone]
      rfl
  · have hfe : flmd.flmdIndex = fe := by
      have hindex := eq_of_vrFlowGetEntry hget
      omega
    rw [hget]
    rw [hfe] at h hdeleting ⊢
    have hs₁ : HeldInv s₁ none := h.flushed.of_lasts hlasts
    have hlist := lasting_holdList hlasts.lasting
    have hempty : (s.entry fe).feAction ≠ .hold → (s₁.entry fe).feHoldList = none := by
      intro hhold
      rw [hlist, modify_self]
      exact congrArg FlowEntry.feHoldList (if_neg hhold)
    have hpackets : ∀ i, s.heldOn i =
        (if some fe = some i then (s.entryTaken o i fe).map Prod.fst else []) ++ s₁.heldOn i := by
      intro i
      rw [s.heldOn_flushed o fe fe i, heldOn_of_holdList (hlist i)]
      by_cases hi : i = fe
      · simp [hi]
      · simp [hi, Ne.symm hi]
    rcases hend with rfl | ⟨vfdd, hvfdd, hflags, -, rfl⟩ | ⟨hactive, ht, hreleases, rfl⟩
    · exact ⟨hs₁, hpackets, fun hhold => heldOn_of_none (hempty hhold)⟩
    · refine ⟨⟨hs₁.unused, hs₁.tidy, hs₁.pending, hs₁.deleting, fun vfdd' hmem hdelete => ?_⟩,
        hpackets, fun hhold => heldOn_of_none (hempty hhold)⟩
      rcases List.mem_append.mp hmem with hmem | hmem
      · exact hs₁.deleted vfdd' hmem hdelete
      -- a deletion has no queue any more
      obtain rfl := List.mem_singleton.mp hmem
      rw [hdelete] at hflags
      rw [hvfdd]
      exact hempty (hdeleting ((Bool.not_eq_true' _).mp hflags.symm))
    · have hsame := @heldOn_release s₁ fe FlowEntry.resetAll ht rfl
        (heldOn_of_none (hempty (hdeleting hactive)))
      refine ⟨hs₁.release rfl rfl hreleases, fun i => ?_, fun hhold => ?_⟩
      · rw [hsame]
        exact hpackets i
      · rw [hsame]
        exact heldOn_of_none (hempty hhold)

variable (h : HeldInv s none) (hinv : FlowInv cfg s.view)
include h hinv

/-- A callback, if it evicts no flow with packets in its queue. -/
theorem callback (hstep : s.step cfg (.callback n o) = some s')
    (hempty : ∀ i, (s.entry i).feFlags.evictCandidate = true → s.Releases s' i → s.heldOn i = []) :
    HeldInv s' none ∧ ∀ i, s'.heldOn i = s.heldOn i := by
  have hs : HeldInv { s with callbacks := s.callbacks.eraseIdx n } none :=
    { h with deleted := fun vfdd hmem => h.deleted vfdd (List.mem_of_mem_eraseIdx hmem) }
  refine step_callback_rule (P := fun s₁ => HeldInv s₁ none ∧ ∀ i, s₁.heldOn i = s.heldOn i) hinv
    hstep ⟨hs, fun _ => rfl⟩ ?_
  rintro s₁ i f ht ⟨h₁, hsame₁⟩ hf hreleases hsame
  have hdone : (f (s₁.entry i)).feHoldList = none ∧ (f (s₁.entry i)).feAction = .drop := by
    rcases hf with ⟨rfl, -⟩ | ⟨rfl, -⟩ <;> exact ⟨rfl, rfl⟩
  have hnone : s₁.heldOn i = [] := by
    cases hvalid : s₁.view.valid i with
    | false => exact heldOn_of_none (h₁.unused i hvalid)
    | true =>
      obtain ⟨hentry, hrel⟩ := hsame hvalid
      rw [hsame₁]
      rcases hf with ⟨-, vfdd, hmem, hdelete, rfl⟩ | ⟨-, hcandidate⟩
      · exact heldOn_of_none (h.deleted vfdd hmem hdelete)
      · rw [hentry] at hcandidate
        exact hempty i hcandidate hrel
  refine ⟨h₁.release hdone.1 hdone.2 hreleases, fun j => ?_⟩
  rw [heldOn_release hdone.1 hnone]
  exact hsame₁ j

end HeldInv

/-! ## Runs -/

/-- A request gets its work item. -/
def FlowStep.IsScheduled : FlowStep → Prop
  | .request _ o => o.transition.flmd = true ∧ o.transition.scheduled = true
  | .packet _ _ _ | .work _ _ | .callback _ _ | .htWork _ _ | .htCallback _ | .setNotReady _ => True

/-- What held packets need: memory for work items and defer data, fewer than `2 ^ 32` packets for
one queue, and no callback that evicts a flow while packets are in its queue. -/
structure FlowSys.KeepsHeld (cfg : FlowConfig) (s : FlowSys) (a : FlowStep) : Prop where
  memory : a.HasMemory
  scheduled : a.IsScheduled
  counted : ∀ key pkt o i vfq, a = .packet key pkt o → s.packetEntry cfg o key pkt = some i →
    (s.entry i).feHoldList = some vfq → vfq.vfqEntries + 1 < 2 ^ 32
  evicted : ∀ n o s', a = .callback n o → s.step cfg a = some s' → ∀ i,
    (s.entry i).feFlags.evictCandidate = true → s.Releases s' i → s.heldOn i = []

namespace HeldInv

variable {pkt : FlowPacket}

variable (h : HeldInv s none)
include h

theorem handlePacket {result : FlowResult}
    (hcounted : ∀ vfq, (s.entry fe).feHoldList = some vfq → vfq.vfqEntries + 1 < 2 ^ 32)
    (hvalid : s.view.valid fe = true) (hstep : s.handlePacket o fe pkt = some (s', result)) :
    HeldInv s' none := by
  rcases handlePacket_lasts hstep with ⟨hlasts, -⟩ | ⟨-, hhold, hlasts⟩
  · exact h.of_lasts hlasts
  refine of_lasts (h.change nofun (fun j hj => modify_of_ne _ _ _ hj) (fun _ _ => rfl) rfl
    (List.append_nil _).symm (by simp) (fun hi => ?_) (fun vfq hvfq => ?_)
    (fun _ hother => ?_) (fun flmd hmem hindex hdelete => ?_)
    fun vfdd hmem hindex hdelete => ?_) hlasts
  · cases hi.symm.trans hvalid
  · rw [modify_self] at hvfq
    obtain ⟨old, hold, rfl⟩ := Option.map_eq_some_iff.mp hvfq
    exact (h.tidy fe old hold).enqueued (hcounted old hold)
  · rw [modify_self] at hother
    exact absurd hhold hother
  · exact absurd (hindex ▸ hhold) (h.deleting flmd hmem hdelete)
  · rw [modify_self, FlowEntry.withQueue, ← hindex, h.deleted vfdd hmem hdelete]
    rfl

variable (hinv : FlowInv cfg s.view)
include hinv

theorem table {a : HtStep} (ha : a.Rests)
    (hstep : (s.ht.step a).map (fun ht => { s with ht := ht }) = some s') :
    HeldInv s' none ∧ ∀ i, s'.heldOn i = s.heldOn i := by
  obtain ⟨ht, hht, rfl⟩ := htStep_eq hstep
  have hvalid := (hinv.table ha hht).2.2
  exact ⟨⟨fun i hi => h.unused i ((hvalid i).symm.trans hi), h.tidy, h.pending, h.deleting,
    h.deleted⟩, fun _ => rfl⟩

theorem work {flmd : FlowMd} (hget : s.works[n]? = some flmd)
    (hstep : s.step cfg (.work n o) = some s') : HeldInv s' none ∧
      (∀ i, s.heldOn i = (s.takenOff i (.work n o)).map Prod.fst ++ s'.heldOn i) ∧
      ((s.entry flmd.flmdIndex).feAction ≠ .hold → s'.heldOn flmd.flmdIndex = []) := by
  obtain ⟨flmd', hget', hwork⟩ := step_work hstep
  cases hget.symm.trans hget'
  have hmem := List.mem_of_getElem? hget
  obtain ⟨hs', hbalance, hempty⟩ := (h.eraseWork hget).vrFlowWork (inv_eraseWork hinv n)
    (hinv.consistent flmd hmem) (h.deleting flmd hmem) hwork
  refine ⟨hs', fun i => ?_, hempty⟩
  rw [takenOff_work hget, apply_ite (List.map Prod.fst)]
  exact hbalance i

variable (hlock : LockInv s.view)
include hlock

theorem vrFlowLookup {key : List Octet} {result : FlowResult}
    (hcounted : ∀ i vfq, s.packetEntry cfg o key pkt = some i →
      (s.entry i).feHoldList = some vfq → vfq.vfqEntries + 1 < 2 ^ 32)
    (hstep : s.vrFlowLookup cfg o key pkt = some (s', result)) : HeldInv s' none ∧
      ∀ i, s.heldOn i ++ s.placedOn cfg i (.packet key pkt o) = s'.heldOn i := by
  rcases vrFlowLookup_placed hstep with
    ⟨rfl, hnone⟩ | ⟨fe, hfind, hentry, hstep, hplaced⟩ | ⟨fe, s₁, s₂, hget, hs₂, hstep, hplaced⟩
  · refine ⟨h, fun i => ?_⟩
    rw [hnone, List.append_nil]
  · refine ⟨h.handlePacket (hcounted fe · hentry) (valid_of_vrFindFlow hfind) hstep,
      fun i => ?_⟩
    rw [hplaced]
    exact handlePacket_balance (h.tidy fe) hstep i
  obtain ⟨htouched, hworks, hempty, hfresh⟩ := vrFlowGetFreeEntry_touched h hinv hget
  -- the entry is taken into use and put on hold
  have hkept : s₂.kept = s₁.kept := by
    rw [hs₂, vrFlowEntrySetHold_kept]
    exact kept_modify rfl rfl
  have htouched₂ : s.EntryTouched s₂ fe := by
    refine htouched.of_kept hkept fun j hj => ?_
    rw [hs₂, vrFlowEntrySetHold_of_ne hj]
    exact modify_of_ne _ _ _ hj
  have hlist : (s₂.entry fe).feHoldList = (s₁.entry fe).feHoldList :=
    congrFun (congrArg FlowSys.FlowKept.holdList hkept) fe
  have hworks₂ : s₂.works = s.works := (congrArg FlowSys.FlowKept.works hkept).trans hworks
  have hwritten : s.EntryWritten s₂ fe :=
    ⟨htouched₂, ⟨[], hworks₂.trans (List.append_nil _).symm, fun _ hmem => (nomatch hmem)⟩,
      Or.inr (Or.inl ((heldOn_of_holdList hlist).trans hempty))⟩
  have hheld₂ : HeldInv s₂ none := h.of_written (hlock.noDeletion (Or.inl hfresh)) hwritten
  refine ⟨hheld₂.handlePacket (fun vfq hvfq => ?_) htouched₂.used hstep, fun i => ?_⟩
  · -- the queue is new
    rcases htouched₂.queue with hsame | ⟨-, index, hnew⟩
    · rw [hsame, h.unused fe hfresh] at hvfq
      cases hvfq
    · rw [hnew] at hvfq
      cases hvfq
      show 0 + 1 < 2 ^ 32
      decide
  · rw [hplaced, ← htouched₂.heldOn i]
    exact handlePacket_balance (hheld₂.tidy fe) hstep i

theorem vrFlowSet (hflmd : o.transition.flmd = true) (hscheduled : o.transition.scheduled = true)
    {result : Option Errno × FlowReq} (hstep : s.vrFlowSet cfg o req = some (s', result)) :
    HeldInv s' none ∧ ∀ i, s'.heldOn i = s.heldOn i := by
  rcases vrFlowSet_cases hstep with rfl | hadd | ⟨fe, hget, hmodified, -, hchange⟩
  · exact ⟨h, fun _ => rfl⟩
  · rcases vrFlowSetAdd_written hflmd hscheduled h hinv hadd with
      rfl | ⟨fe, hwritten, hfresh⟩
    · exact ⟨h, fun _ => rfl⟩
    · exact ⟨h.of_written (hlock.noDeletion (Or.inl hfresh)) hwritten, hwritten.heldOn⟩
  have hlasts : s.Lasts (s.modify fe lock) := .modify rfl
  have hvalid : s.view.valid fe = true := FlowView.valid_of_getEntry hget
  have hindex : req.frIndex.toNat = fe := by
    rw [eq_of_vrFlowGetEntry hget]
    rfl
  have hwritten := vrFlowSetChange_written (s := s.modify fe lock) hflmd hscheduled hvalid
    hindex hchange
  have hfree : (s.modify fe lock).NoDeletion fe := hlock.noDeletion (Or.inr hmodified)
  refine ⟨(h.of_lasts hlasts).of_written hfree hwritten, fun i => ?_⟩
  rw [hwritten.heldOn]
  exact heldOn_of_holdList (lasting_holdList hlasts.lasting i)

theorem step (hok : s.KeepsHeld cfg a) (hstep : s.step cfg a = some s') :
    HeldInv s' none ∧ ∀ i, s.heldOn i ++ s.placedOn cfg i a =
      (s.takenOff i a).map Prod.fst ++ s'.heldOn i := by
  -- steps that neither take in nor give out
  have hidle : (HeldInv s' none ∧ ∀ i, s'.heldOn i = s.heldOn i) →
      (∀ i, s.placedOn cfg i a = [] ∧ (s.takenOff i a).map Prod.fst = []) →
      HeldInv s' none ∧ ∀ i, s.heldOn i ++ s.placedOn cfg i a =
        (s.takenOff i a).map Prod.fst ++ s'.heldOn i := by
    rintro ⟨hs', hsame⟩ hnone
    refine ⟨hs', fun i => ?_⟩
    rw [(hnone i).1, (hnone i).2, hsame i, List.append_nil, List.nil_append]
  cases a with
  | packet key pkt o =>
    obtain ⟨⟨s₁, result⟩, hlookup, rfl⟩ := Option.map_eq_some_iff.mp hstep
    exact h.vrFlowLookup hinv hlock (fun i vfq => hok.counted key pkt o i vfq rfl) hlookup
  | request req o =>
    obtain ⟨⟨s₁, result⟩, hset, rfl⟩ := Option.map_eq_some_iff.mp hstep
    exact hidle (h.vrFlowSet hinv hlock hok.scheduled.1 hok.scheduled.2 hset) fun _ => ⟨rfl, rfl⟩
  | work n o =>
    obtain ⟨flmd, hget, -⟩ := step_work hstep
    obtain ⟨hs', hbalance, -⟩ := h.work hinv hget hstep
    refine ⟨hs', fun i => ?_⟩
    rw [← hbalance i]
    exact List.append_nil _
  | callback n o =>
    obtain ⟨vfdd, hget, -⟩ := step_callback hstep
    refine hidle (h.callback hinv hstep (hok.evicted n o s' rfl hstep)) fun i => ⟨rfl, ?_⟩
    exact takenOff_callback (hinv.flushed vfdd (List.mem_of_getElem? hget)) hget i
  | htWork | htCallback => exact hidle (h.table hinv (by trivial) hstep) fun _ => ⟨rfl, rfl⟩
  | setNotReady notReady =>
    exact hidle (h.table hinv (a := .setNotReady notReady) trivial hstep) fun _ => ⟨rfl, rfl⟩

end HeldInv

theorem FlowSys.step_heldInv (h : FlowInv cfg s.view ∧ LockInv s.view ∧ HeldInv s none)
    (hok : s.KeepsHeld cfg a) (hstep : s.step cfg a = some s') :
    (FlowInv cfg s'.view ∧ LockInv s'.view ∧ HeldInv s' none) ∧
      ∀ i, s.heldOn i ++ s.placedOn cfg i a = (s.takenOff i a).map Prod.fst ++ s'.heldOn i := by
  obtain ⟨hinv, hlock, hheld⟩ := h
  obtain ⟨hinv', hlock'⟩ := run_lockInv hinv hlock (List.forall_mem_singleton.mpr hok.memory)
    (runSteps_singleton hstep)
  obtain ⟨hheld', hbalance⟩ := hheld.step hinv hlock hok hstep
  exact ⟨⟨hinv', hlock', hheld'⟩, hbalance⟩

/-- In every state reached by a run with memory for work items and defer data, in which no queue
counts `2 ^ 32` packets and no callback evicts a flow while packets are in its queue:

* the queue of an entry has packets in three slots at most, and a queue that waits for its callback,
  which frees it, has none;
* the packets that were put in the queues of an entry are, in order, those that have been taken out,
  each with one thing done with it, and those that are there now;
* as long as packets are there, the flow is on hold or a work item is on its way, which can run
  whatever it meets and takes all of them out. -/
theorem held_packets_balance {entries oentries : Nat} {t : Htable}
    (ht : FlowTableCreated entries oentries t) {cfg : FlowConfig} {notReady : Bool}
    {as : List FlowStep} {s : FlowSys}
    (hok : StepsMeet (FlowSys.step cfg) (FlowSys.KeepsHeld cfg) (.initial t notReady) as)
    (hrun : runSteps (FlowSys.step cfg) (.initial t notReady) as = some s) (i : Nat) :
    ((s.heldOn i).length ≤ vrMaxFlowQueueEntries ∧
        (∀ vfq, (s.entry i).feHoldList = some vfq →
          ∀ slot, vfq.vfqPnodes slot ≠ none → slot < vrMaxFlowQueueEntries) ∧
        ∀ vfdd ∈ s.callbacks, ∀ vfq, vfdd.vfddFlowQueue = some vfq → vfq.packets = []) ∧
      (runTrace (FlowSys.step cfg) (FlowSys.placedOn cfg i) (.initial t notReady) as =
          (runTrace (FlowSys.step cfg) (FlowSys.takenOff i) (.initial t notReady) as).map
            Prod.fst ++ s.heldOn i ∧
        ∀ x ∈ runTrace (FlowSys.step cfg) (FlowSys.takenOff i) (.initial t notReady) as,
          x.2.Once) ∧
      (s.heldOn i ≠ [] → (s.entry i).feAction ≠ .hold →
        ∃ n, n < s.works.length ∧ ∀ o, ∃ s', s.step cfg (.work n o) = some s' ∧
          (s.takenOff i (.work n o)).map Prod.fst = s.heldOn i ∧ s'.heldOn i = []) := by
  have hinit : FlowInv cfg (initial t notReady).view ∧
      LockInv (initial t notReady).view ∧ HeldInv (.initial t notReady) none :=
    ⟨ht.inv cfg notReady, initial_lockInv t notReady, .initial t notReady⟩
  obtain ⟨hinv, hlock, hheld⟩ := runSteps_invariant_of_meet
    (fun s a s' h hok hs => (step_heldInv h hok hs).1) hinit hok hrun
  refine ⟨⟨s.heldOn_length i, fun vfq hvfq slot hslot => ?_, fun vfdd hmem vfq hvfq => ?_⟩,
    ⟨?_, runTrace_forall fun a _ s => s.takenOff_once i a⟩, fun hwait hhold => ?_⟩
  · by_contra hge
    exact hslot ((hheld.tidy i vfq hvfq).bound slot (Nat.le_of_not_lt hge))
  · exact FlowQueue.packets_eq_nil (hinv.flushed vfdd hmem vfq hvfq)
  · refine runTrace_balance (I := fun s : FlowSys => FlowInv cfg s.view ∧ LockInv s.view ∧
      HeldInv s none) (fun s => s.heldOn i) Prod.fst (fun s a s' h hok hs => ?_) hinit hok hrun
    obtain ⟨hinv', hbalance⟩ := step_heldInv h hok hs
    exact ⟨hinv', hbalance i⟩
  obtain ⟨flmd, hmem, rfl⟩ := (hheld.pending i hwait hhold).resolve_left (by simp)
  obtain ⟨n, hget⟩ := List.mem_iff_getElem?.mp hmem
  have hn : n < s.works.length := (List.getElem?_eq_some_iff.mp hget).1
  refine ⟨n, hn, fun o => ?_⟩
  obtain ⟨s', hs'⟩ := Option.ne_none_iff_exists'.mp (step_work_ne_none hinv hn)
  obtain ⟨-, hbalance, hempty⟩ := hheld.work hinv hget hs'
  refine ⟨s', hs', ?_, hempty hhold⟩
  rw [hbalance, hempty hhold, List.append_nil]

/-- A packet opens a flow, the agent lets it pass, and the work item takes the packet out. -/
def flushedRun : List FlowStep :=
  [.packet (tcpKey 1) (tcpPacket false) allSucceed,
    .request (tcpRequest 4 1 1 .forward { active := true } (-1)) allSucceed,
    .work 0 allSucceed]

theorem held_packets_balance_flushed : ∃ t s, FlowTableCreated 8 0 t ∧
    runSteps (FlowSys.step smallConfig) (.initial t false) flushedRun = some s ∧
    s.heldOn 4 = [] ∧
    (runTrace (FlowSys.step smallConfig) (FlowSys.takenOff 4) (.initial t false) flushedRun).map
      Prod.fst = [tcpPacket false] := by
  have hrun := smallEnd_run flushedRun rfl
  have hplaced : runTrace (step smallConfig) (placedOn smallConfig 4)
      (.initial smallTable false) flushedRun = [tcpPacket false] := by decide +kernel
  have hempty : (smallEnd flushedRun rfl).heldOn 4 = [] := by decide +kernel
  have hmemory : allSucceed.transition.HasMemory ∧
      ∀ slot, (allSucceed.action slot).transition.HasMemory := by
    simp [TransitionOutcome.HasMemory, allSucceed]
  have hok : StepsMeet (step smallConfig) (FlowSys.KeepsHeld smallConfig)
      (.initial smallTable false) flushedRun := by
    refine ⟨⟨hmemory.2 0, trivial, ?_, by rintro _ _ _ ⟨⟩⟩, fun _ _ => ?_⟩
    · -- no entry of a new table has a queue
      rintro _ _ _ _ _ _ _ ⟨⟩
    refine ⟨⟨hmemory.1, ⟨rfl, rfl⟩, by rintro _ _ _ _ _ ⟨⟩, by rintro _ _ _ ⟨⟩⟩, fun _ _ => ?_⟩
    exact ⟨⟨hmemory.2, trivial, by rintro _ _ _ _ _ ⟨⟩, by rintro _ _ _ ⟨⟩⟩, fun _ _ => trivial⟩
  refine ⟨smallTable, _, smallTable_created, hrun, hempty, ?_⟩
  obtain ⟨-, ⟨hbalance, -⟩, -⟩ := held_packets_balance smallTable_created hok hrun 4
  rw [hplaced, hempty, List.append_nil] at hbalance
  exact hbalance.symm

/-- Two flows are each other's reverse flow, and the queue of the second still holds the packet that
opened it when a reset on the first has both evicted. -/
def evictedHeldRun : List FlowStep :=
  [.packet (tcpKey 1) (tcpPacket false) allSucceed,
    .request (tcpRequest (-1) 2 0 .forward { active := true, rflowValid := true } 4) allSucceed,
    .request (tcpRequest 4 1 1 .forward { active := true, rflowValid := true } 0) allSucceed,
    .packet (tcpKey 2) (tcpPacket true) allSucceed,
    .work 2 allSucceed,
    .callback 0 allSucceed,
    .work 0 allSucceed,
    .work 0 allSucceed]

/-- The packet is in no queue any more, nothing has been done with it, and nothing is pending. -/
theorem held_packet_lost : ∃ t s, FlowTableCreated 8 0 t ∧
    runSteps (FlowSys.step smallConfig) (.initial t false) evictedHeldRun = some s ∧
    runTrace (FlowSys.step smallConfig) (FlowSys.placedOn smallConfig 4) (.initial t false)
      evictedHeldRun = [tcpPacket false] ∧
    runTrace (FlowSys.step smallConfig) (FlowSys.takenOff 4) (.initial t false)
      evictedHeldRun = [] ∧
    s.heldOn 4 = [] ∧ s.works = [] ∧ s.callbacks = [] := by
  exact ⟨smallTable, smallEnd evictedHeldRun (by decide +kernel), smallTable_created,
    smallEnd_run _ _, by decide +kernel, by decide +kernel, by decide +kernel, by decide +kernel,
    by decide +kernel⟩

end VRouter
