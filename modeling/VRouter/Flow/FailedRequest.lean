import VRouter.Flow.TcpPair

/-!
# VRouter — what a failed request leaves behind

`vr_flow_set` can fail for an entry that exists: the entry is locked by somebody else, the request
does not fit it, there is no memory for a queue, or the work item that ends every change cannot be
made. In the first three cases nothing has been written yet and the lock is given back, so that the
state is the one before the request.

A work item that cannot be made is found out last. The entry has been rewritten by then, or marked
for deletion and left locked, and neither is taken back, as `vr_flow_mark_evict` does with its marks
when its work item cannot be made. A deletion that fails so can never be repeated: every later
request finds the entry busy.
-/

namespace VRouter

variable {cfg : FlowConfig} {s s' : FlowSys} {o : FlowOutcome} {req resp : FlowReq} {fe : Nat}
  {errno : Errno}

/-- Key, action, link to the reverse flow and flags are the same. -/
structure FlowEntry.Kept (e e' : FlowEntry) : Prop where
  key : e'.feKey = e.feKey
  keyLen : e'.feKeyLen = e.feKeyLen
  action : e'.feAction = e.feAction
  rflow : e'.feRflow = e.feRflow
  flags : e'.feFlags = e.feFlags

theorem FlowEntry.Kept.refl (e : FlowEntry) : e.Kept e := ⟨rfl, rfl, rfl, rfl, rfl⟩

namespace FlowSys

/-- The error a request for an existing entry is refused with, before anything is written: the entry
is busy, or the request is not valid for it. -/
def refusal (cfg : FlowConfig) (s : FlowSys) (req : FlowReq) : Option Errno :=
  match s.vrFlowGetEntry req.frIndex with
  | none => none
  | some fe =>
    match (s.entry fe).vrFlowStartModify with
    | none => some .EBUSY
    | some e => (s.modify fe fun _ => e).vrFlowSetReqIsInvalid cfg req (some fe)

/-- If the request fails for an existing entry, the entry is as before, and no later request for it
is refused that would not have been refused before. -/
def FailsCleanly (cfg : FlowConfig) (s : FlowSys) (o : FlowOutcome) (req : FlowReq) : Prop :=
  ∀ fe s' errno resp, s.vrFlowGetEntry req.frIndex = some fe →
    s.vrFlowSet cfg o req = some (s', some errno, resp) →
      (s.entry fe).Kept (s'.entry fe) ∧
        ∀ later : FlowReq, later.frIndex = req.frIndex →
          s'.refusal cfg later ≠ none → s.refusal cfg later ≠ none

/-! ## Failures that leave nothing behind -/

theorem vrFlowSet_of_refusal (h : s.refusal cfg req = some errno) :
    s.vrFlowSet cfg o req = some (s, some errno, req) := by
  unfold refusal at h
  split at h
  · cases h
  rename_i fe hget
  split at h
  · rename_i hstart
    simp only [vrFlowSet, hget, hstart, h]
  · rename_i e hstart
    simp only [vrFlowSet, hget, hstart, h, lock_stop hstart]

/-- A request that is not refused changes the entry it names. -/
theorem vrFlowSet_of_accepted (hget : s.vrFlowGetEntry req.frIndex = some fe)
    (h : s.refusal cfg req = none) :
    s.vrFlowSet cfg o req = (s.modify fe lock).vrFlowSetChange cfg o req fe ∧
      (s.entry fe).vrFlowStartModify = some (lock (s.entry fe)) := by
  unfold refusal at h
  simp only [hget] at h
  split at h
  · cases h
  rename_i e hstart
  obtain ⟨-, rfl⟩ := vrFlowStartModify_eq_some hstart
  refine ⟨?_, hstart⟩
  simp only [vrFlowSet, hget, hstart, h]
  rfl

/-- If its work item is made, a change fails only for lack of a queue, and then nothing but the lock
has been written. -/
theorem vrFlowSetChange_of_error (hflmd : o.transition.flmd = true)
    (hscheduled : o.transition.scheduled = true)
    (h : s.vrFlowSetChange cfg o req fe = some (s', some errno, resp)) :
    s' = s.modify fe FlowEntry.vrFlowStopModify := by
  unfold vrFlowSetChange at h
  dsimp only at h
  split at h
  · -- a deletion
    obtain ⟨⟨s₁, ok⟩, hdelete, heq⟩ := Option.map_eq_some_iff.mp h
    obtain rfl : ok = true := by rw [vrFlowScheduleTransition_ok hdelete, hflmd, hscheduled]; rfl
    cases heq
  split at h
  · -- no queue: a flow that goes on hold was not on hold, so that it is not counted
    rename_i hqueue
    obtain ⟨⟨-, hhold, -⟩, -⟩ := hqueue
    rw [if_neg fun h => hhold h.1] at h
    cases h
    rfl
  · split at h
    · cases h
    · rename_i s₁ ok hschedule
      obtain rfl : ok = true := by
        rw [vrFlowScheduleTransition_ok hschedule, hflmd, hscheduled]
        rfl
      cases h

/-- If its work item is made, a request that fails for an existing entry leaves the state as it
was. -/
theorem vrFlowSet_of_error (hflmd : o.transition.flmd = true)
    (hscheduled : o.transition.scheduled = true) (hget : s.vrFlowGetEntry req.frIndex = some fe)
    (h : s.vrFlowSet cfg o req = some (s', some errno, resp)) : s' = s := by
  cases hrefusal : s.refusal cfg req with
  | some error =>
    rw [vrFlowSet_of_refusal hrefusal] at h
    cases h
    rfl
  | none =>
    obtain ⟨hset, hstart⟩ := @vrFlowSet_of_accepted cfg s o req fe hget hrefusal
    rw [hset] at h
    rw [vrFlowSetChange_of_error hflmd hscheduled h]
    exact lock_stop hstart

theorem failsCleanly (hflmd : o.transition.flmd = true) (hscheduled : o.transition.scheduled = true)
    (s : FlowSys) (req : FlowReq) : s.FailsCleanly cfg o req := by
  intro fe s' errno resp hget h
  obtain rfl := vrFlowSet_of_error hflmd hscheduled hget h
  exact ⟨.refl _, fun _ _ => id⟩

/-! ## Deletions whose work item cannot be made -/

theorem vrFlowScheduleTransition_fails {o : TransitionOutcome} {index : Nat} {flags : FlowFlags}
    (hqueue : (s.entry fe).feHoldList = none) (hcandidate : flags.evictCandidate = false)
    (hfail : o.flmd = false ∨ o.scheduled = false) :
    s.vrFlowScheduleTransition o fe index flags = some (s, false) := by
  unfold vrFlowScheduleTransition
  cases hflmd : o.flmd with
  | false => rfl
  | true =>
    have hscheduled : o.scheduled = false := by simpa [hflmd] using hfail
    simp [hqueue, hcandidate, hscheduled]

theorem vrFlowDelete_fails (hqueue : (s.entry fe).feHoldList = none)
    (hcandidate : req.frFlags.evictCandidate = false)
    (hfail : o.transition.flmd = false ∨ o.transition.scheduled = false) :
    ∃ s', s.vrFlowDelete o req fe = some (s', false) ∧
      (s'.entry fe).feFlags.modified = (s.entry fe).feFlags.modified := by
  rw [vrFlowDelete_eq]
  refine ⟨_, vrFlowScheduleTransition_fails ?_ hcandidate hfail, ?_⟩
  · rw [deleted_self]
    exact hqueue
  · rw [deleted_self]
    rfl

/-- The deletion fails behind the mark: the entry is left locked. -/
theorem vrFlowSet_delete_fails (hget : s.vrFlowGetEntry req.frIndex = some fe)
    (hrefusal : s.refusal cfg req = none) (hactive : req.frFlags.active = false)
    (hqueue : (s.entry fe).feHoldList = none) (hcandidate : req.frFlags.evictCandidate = false)
    (hfail : o.transition.flmd = false ∨ o.transition.scheduled = false) :
    ∃ s', s.vrFlowSet cfg o req = some (s', some .ENOMEM, req) ∧
      (s.entry fe).feFlags.modified = false ∧ (s'.entry fe).feFlags.modified = true := by
  obtain ⟨hset, hstart⟩ := @vrFlowSet_of_accepted cfg s o req fe hget hrefusal
  obtain ⟨hmodified, -⟩ := vrFlowStartModify_eq_some hstart
  rw [hset]
  unfold vrFlowSetChange
  dsimp only
  -- whether the flow is counted as leaving hold or not, its entry is the locked one
  rw [countedInfo_eq, if_pos (by rw [hactive]; rfl)]
  generalize hs₁ : ({ s.modify fe lock with info := s.countedInfo req fe } : FlowSys) = s₁
  have hentry : s₁.entry fe = lock (s.entry fe) := by
    rw [← hs₁]
    exact modify_self s fe lock
  obtain ⟨s', hs', hlocked⟩ := @vrFlowDelete_fails s₁ o req fe (by rw [hentry]; exact hqueue)
    hcandidate hfail
  refine ⟨s', by rw [hs']; rfl, hmodified, ?_⟩
  rw [hlocked, hentry]
  rfl

end FlowSys

/-! ## The result -/

/-- For given outcomes, every request that fails in a state some run reaches does so without a
trace exactly if the work item of a change can be made: its argument allocated and the work
scheduled. -/
theorem failed_requests_leave_no_trace_iff (o : FlowOutcome) :
    (∀ (cfg : FlowConfig) (entries oentries : Nat) (t : Htable) (notReady : Bool)
        (as : List FlowStep) (s : FlowSys), FlowTableCreated entries oentries t →
      runSteps (FlowSys.step cfg) (.initial t notReady) as = some s →
        ∀ req, s.FailsCleanly cfg o req) ↔
      o.transition.flmd = true ∧ o.transition.scheduled = true := by
  constructor
  · intro hclean
    by_contra hfail
    rw [not_and_or, Bool.not_eq_true, Bool.not_eq_true] at hfail
    -- a flow is added, and deleted without a work item
    obtain ⟨s, hrun, hget, hqueue, hrefusal⟩ : ∃ s,
        runSteps (FlowSys.step smallConfig) (.initial smallTable false)
          [.request (tcpRequest (-1) 1 0 .forward { active := true } (-1)) allSucceed] = some s ∧
        s.vrFlowGetEntry 4 = some 4 ∧ (s.entry 4).feHoldList = none ∧
        s.refusal smallConfig (tcpRequest 4 1 1 .forward {} (-1)) = none :=
      ⟨_, smallEnd_run _ rfl, by decide +kernel, by decide +kernel, by decide +kernel⟩
    obtain ⟨s', hs', hfree, hlocked⟩ := FlowSys.vrFlowSet_delete_fails hget hrefusal rfl
      hqueue rfl hfail
    have hkept :=
      (hclean smallConfig 8 0 _ false _ s smallTable_created hrun _ 4 s' _ _ hget hs').1
    rw [hkept.flags, hfree] at hlocked
    cases hlocked
  · rintro ⟨hflmd, hscheduled⟩ cfg entries oentries t notReady as s - - req
    exact FlowSys.failsCleanly hflmd hscheduled s req

/-- No memory for the argument of the work item. -/
def noWork : FlowOutcome := { allSucceed with transition := ⟨false, true, true, true⟩ }

/-- A flow is added and its deletion fails. It is marked for deletion, its action is gone, and when
there is memory again the deletion cannot be repeated. -/
theorem failed_deletion_locks_entry :
    ∃ t s s' resp, FlowTableCreated 8 0 t ∧
      runSteps (FlowSys.step smallConfig) (.initial t false)
        [.request (tcpRequest (-1) 1 0 .forward { active := true } (-1)) allSucceed] = some s ∧
      s.vrFlowGetEntry 4 = some 4 ∧
      s.vrFlowSet smallConfig noWork (tcpRequest 4 1 1 .forward {} (-1)) =
        some (s', some .ENOMEM, resp) ∧
      (s.entry 4).feFlags.deleteMarked = false ∧ (s'.entry 4).feFlags.deleteMarked = true ∧
      (s.entry 4).feAction = .forward ∧ (s'.entry 4).feAction = .drop ∧
      s.refusal smallConfig (tcpRequest 4 1 1 .forward {} (-1)) = none ∧
      s'.refusal smallConfig (tcpRequest 4 1 1 .forward {} (-1)) = some .EBUSY := by
  exact ⟨smallTable, _, _, _, smallTable_created, rfl, rfl, rfl, rfl, rfl, rfl, rfl, rfl, rfl⟩

end VRouter
