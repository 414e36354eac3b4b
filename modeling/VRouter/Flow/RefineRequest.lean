import VRouter.Flow.Refine

/-!
# VRouter — the agent's requests as moves

`vr_flow_set` adds, changes or deletes one entry. While it does it holds the entry's modify bit; as
other writers respect the bit, a request is one move of the protocol, and a second one for the work
item that is made afterwards.
-/

namespace VRouter

open LongestMatch Relation FlowView Function

variable {cfg : FlowConfig} {R : FlowRules} {s s' : FlowSys} {o : FlowOutcome} {req : FlowReq}
  {fe : Nat}

/-! ## Writing an entry -/

/-- What `vr_flow_set` makes of an entry and of the counters. An entry that leaves hold has been
counted before. -/
structure FlowCore.Written (cfg : FlowConfig) (req : FlowReq) (c c' : FlowCore)
    (info info' : FlowTableInfo) : Prop where
  key : c'.key = c.key
  active : c'.active = req.frFlags.active
  modified : c'.modified = c.modified
  evictCandidate : c'.evictCandidate = c.evictCandidate
  held : c.hold = true → c'.hold = decide (req.frAction = .hold) ∧ info' = info
  free : c.hold = false → HoldChange cfg false c'.hold info info'

/-- An entry that `vr_flow_set` has written: what it is in use for and the queue are those of the
entry before, the flags are merged. -/
def FlowEntry.written (e : FlowEntry) (req : FlowReq) (x : FlowEntry) : FlowEntry :=
  { x with
    feGenId := e.feGenId
    feType := e.feType
    feKey := e.feKey
    feKeyLen := e.feKeyLen
    feHoldList := e.feHoldList
    feFlags := { FlowEntry.mergeFlags e.feFlags req.frFlags with newFlow := false } }

variable {result : Option Errno × FlowReq} {info : FlowTableInfo} {ok : Bool} {added : Nat}

namespace FlowSys

theorem modify_modify (s : FlowSys) (i : Nat) (f g : FlowEntry → FlowEntry) :
    (s.modify i f).modify i g = s.modify i fun e => g (f e) := by
  simp [modify]

theorem modify_eq_self {f : FlowEntry → FlowEntry} {i : Nat} (h : f (s.entry i) = s.entry i) :
    s.modify i f = s := by
  unfold modify
  rw [h, update_eq_self]

theorem vrFlowSetMirror_eq (cfg : FlowConfig) (o : FlowOutcome) (req : FlowReq) (e : FlowEntry) :
    ∃ mirror id sec, vrFlowSetMirror cfg o req e =
      { e with
        feFlags := { e.feFlags with mirror := mirror }
        feMirrorId := id
        feSecMirrorId := sec } := by
  unfold vrFlowSetMirror
  split
  · split <;> exact ⟨_, _, _, rfl⟩
  · exact ⟨_, _, _, rfl⟩

theorem writeLinkLocalPort_eq (s : FlowSys) (key : List Octet) (value : Bool) :
    ∃ ports, s.writeLinkLocalPort key value = { s with linkLocalPorts := ports } := by
  unfold writeLinkLocalPort
  dsimp only
  split <;> exact ⟨_, rfl⟩

theorem vrFlowUpdateLinkLocalPort_eq (h : s.vrFlowUpdateLinkLocalPort req fe = s') :
    ∃ ports, s' = { s with linkLocalPorts := ports } := by
  rw [← h]
  unfold vrFlowUpdateLinkLocalPort
  dsimp only
  split
  · exact ⟨_, rfl⟩
  generalize hs₁ : (if (_ && _) = true then s.writeLinkLocalPort _ false else s) = s₁
  have hcleared : ∃ ports, s₁ = { s with linkLocalPorts := ports } := by
    rw [← hs₁]
    split
    · exact s.writeLinkLocalPort_eq _ _
    · exact ⟨_, rfl⟩
  obtain ⟨ports, rfl⟩ := hcleared
  split
  · exact writeLinkLocalPort_eq _ _ _
  · exact ⟨_, rfl⟩

/-- The action of a request: only an entry that is not on hold yet is counted as one on hold. -/
theorem setAction_eq (h : s.setAction cfg o req fe = s') : ∃ action info,
    s' = { s.modify fe (fun e => { e with feAction := action }) with info := info } ∧
      ((s.entry fe).feAction = .hold → action = req.frAction ∧ info = s.info) ∧
      ((s.entry fe).feAction ≠ .hold →
        HoldChange cfg false (decide (action = .hold)) s.info info) := by
  rw [← h]
  unfold setAction vrFlowEntrySetHold
  split
  · rename_i haction
    split
    · refine ⟨(s.entry fe).feAction, s.info, ?_, fun h => absurd h haction.2, fun h => ?_⟩
      · exact (modify_eq_self (f := fun e => { e with feAction := _ }) rfl).symm
      · rw [decide_eq_false h]
        exact .same
    · rename_i hcpu
      exact ⟨.hold, _, rfl, fun h => absurd h haction.2, fun _ => .set (Nat.lt_of_not_le hcpu)⟩
  · rename_i haction
    refine ⟨req.frAction, s.info, rfl, fun _ => ⟨rfl, rfl⟩, fun h => ?_⟩
    -- an entry that is not on hold takes the other branch for an action that is
    rw [decide_eq_false fun hhold => haction ⟨hhold, h⟩]
    exact .same

/-- What is done for a new flow touches the statistics and the TCP flags. -/
theorem setNewFlow_eq {newFlow : Bool}
    (h : (if newFlow = true then s.setNewFlow fe else s) = s') : ∃ stats tcpFlags,
      s' = s.modify fe fun e => { e with feStats := stats, feTcpFlags := tcpFlags } := by
  rw [← h]
  split
  · unfold setNewFlow
    dsimp only
    generalize hs₁ : s.modify fe _ = s₁
    have hstats : ∃ stats, s₁ = s.modify fe fun e => { e with feStats := stats } := by
      rw [← hs₁]
      unfold modify
      dsimp only
      split <;> exact ⟨_, rfl⟩
    obtain ⟨stats, rfl⟩ := hstats
    split
    · exact ⟨stats, (s.entry fe).feTcpFlags, rfl⟩
    · rw [modify_modify]
      exact ⟨stats, _, rfl⟩
  · exact ⟨_, _, (modify_eq_self rfl).symm⟩

theorem vrFlowUdpSrcPort_eq (e : FlowEntry) (hashval : Nat) : e.vrFlowUdpSrcPort hashval =
    { e with feUdpSrcPort := (e.vrFlowUdpSrcPort hashval).feUdpSrcPort } := by
  unfold FlowEntry.vrFlowUdpSrcPort
  split <;> rfl

theorem writeEntry_eq (cfg : FlowConfig) (s : FlowSys) (o : FlowOutcome) (req : FlowReq)
    (fe : Nat) (newFlow : Bool) : ∃ x info, s.writeEntry cfg o req fe newFlow =
        { s.modify fe (fun _ => x) with
          info := info
          linkLocalPorts := ((s.modify fe (setFields cfg o req)).vrFlowUpdateLinkLocalPort req
            fe).linkLocalPorts } ∧
      x = (s.entry fe).written req x ∧
      ((s.entry fe).feAction = .hold → x.feAction = req.frAction ∧ info = s.info) ∧
      ((s.entry fe).feAction ≠ .hold →
        HoldChange cfg false (decide (x.feAction = .hold)) s.info info) := by
  unfold writeEntry
  dsimp only
  generalize hs₂ : vrFlowUpdateLinkLocalPort _ req fe = s₂
  generalize hs₄ : setAction cfg _ o req fe = s₄
  generalize hs₆ : (if newFlow = true then setNewFlow _ fe else _) = s₆
  obtain ⟨ports, rfl⟩ := vrFlowUpdateLinkLocalPort_eq hs₂
  obtain ⟨action, info, rfl, hheld, hfree⟩ := setAction_eq hs₄
  obtain ⟨stats, tcpFlags, rfl⟩ := setNewFlow_eq hs₆
  clear hs₂ hs₄ hs₆
  obtain ⟨mirror, id, sec, hmirror⟩ := vrFlowSetMirror_eq cfg o req (s.entry fe)
  simp only [modify, update_self, update_idem, setFields, hmirror] at hheld hfree ⊢
  rw [vrFlowUdpSrcPort_eq]
  exact ⟨_, info, rfl, rfl, hheld, hfree⟩

theorem writeEntry_view (cfg : FlowConfig) (s : FlowSys) (o : FlowOutcome) (req : FlowReq)
    (fe : Nat) (newFlow : Bool) : ∃ c info, (s.writeEntry cfg o req fe newFlow).view =
      { s.view.setCore fe c with info := info } ∧
      (s.view.core fe).Written cfg req c s.info info := by
  obtain ⟨x, info, heq, hx, hheld, hfree⟩ := writeEntry_eq cfg s o req fe newFlow
  refine ⟨x.core, info, ?_, ?_⟩
  · rw [heq]
    exact congrArg (fun v : FlowView => { v with info := info }) (s.viewWith_modify _ _)
  · refine ⟨congrArg (·.core.key) hx, congrArg (·.core.active) hx, congrArg (·.core.modified) hx,
      congrArg (·.core.evictCandidate) hx, fun h => ?_, fun h => hfree (of_decide_eq_false h)⟩
    obtain ⟨haction, hinfo⟩ := hheld (of_decide_eq_true h)
    exact ⟨congrArg (fun action => decide (action = FlowAction.hold)) haction, hinfo⟩

/-! ## The work item -/

variable {o : TransitionOutcome} {flags : FlowFlags}

section

variable (hactive : flags.active = true) (hpush : R.Admits o)
  (h : s.vrFlowScheduleTransition o fe fe flags = some (s', ok))
include hactive hpush h

/-- The work item of a change: there is one, or the table is as it was. -/
theorem vrFlowScheduleTransition_refines : ReflTransGen (FlowMove cfg R) s.view s'.view := by
  rcases vrFlowScheduleTransition_eq h with ⟨-, rfl⟩ | ⟨-, flmd, rfl, hflmd, -⟩
  · exact .refl
  refine .single (.schedule hflmd.consistent ?_ ?_ (hpush _ hflmd.takesBack))
  · rw [hflmd.delete, hactive]
    rfl
  · rw [hflmd.madeFor, hflmd.index]
    rfl

/-- The same while the entry is locked, seen after it has been unlocked. -/
theorem schedule_stop_refines :
    ReflTransGen (FlowMove cfg R) (s.modify fe FlowEntry.vrFlowStopModify).view
      (s'.modify fe FlowEntry.vrFlowStopModify).view := by
  rcases vrFlowScheduleTransition_eq h with ⟨-, rfl⟩ | ⟨-, flmd, rfl, hflmd, -⟩
  · exact .refl
  refine .single (.schedule hflmd.consistent ?_ ?_ (hpush _ hflmd.takesBack))
  · rw [hflmd.delete, hactive]
    rfl
  rw [hflmd.madeFor, hflmd.index]
  show s.madeForNow fe = (s.modify fe FlowEntry.vrFlowStopModify).madeForNow fe
  unfold madeForNow
  rw [modify_self]
  rfl

end

end FlowSys

/-- Counting the flows that have been added does not interfere with counting those on hold. -/
theorem HoldChange.of_added {hold hold' : Bool} {info' : FlowTableInfo}
    (h : HoldChange cfg hold hold' { info with vftiAdded := added } info') :
    ∃ info₁, HoldChange cfg hold hold' info info₁ ∧
      info' = { info₁ with vftiAdded := info'.vftiAdded } := by
  cases h with
  | same => exact ⟨info, .same, rfl⟩
  | set hcpu =>
    rename_i cpu
    refine ⟨_, .set hcpu, ?_⟩
    unfold FlowTableInfo.countHold
    dsimp only
    by_cases hfold : info.vftiHoldCount cpu < info.vftiActionCount
    · split <;> rfl
    · split <;> rfl
  | leave => exact ⟨_, .leave, rfl⟩

/-- The packet type of a family. -/
def flowVpType : Family → VpType
  | .inet => .ip
  | .inet6 => .ip6

namespace FlowSys

/-! ## Adding a flow -/

/-- `vr_add_flow_req`: nothing has happened, or an entry is asked for, for a key no lookup found. -/
theorem vrAddFlowReq_cases {r : Option Nat} {exist : Bool}
    (h : s.vrAddFlowReq cfg o req = some (r, exist, s')) :
    (r = none ∧ s' = s) ∨ ∃ family, s.vrFindFlow cfg (reqKey req family) = some none ∧
      s.vrFlowGetFreeEntry cfg o (reqKey req family) (flowVpType family) (req.frAction = .hold) =
        some (r, s') := by
  unfold vrAddFlowReq at h
  split at h
  · cases h
    exact Or.inl ⟨rfl, rfl⟩
  rename_i family _
  dsimp only at h
  split at h
  · cases h
  · cases h
    exact Or.inl ⟨rfl, rfl⟩
  rename_i hfind
  split at h
  · cases h
  · rename_i hget
    cases h
    refine Or.inr ⟨family, hfind, ?_⟩
    cases family <;> exact hget

theorem take_of_writeEntry {key : List Octet} {t : Htable} {s₁ : FlowSys}
    (hactive : req.frFlags.active = true)
    (hfind : vrHtableFindHentry s.ht.table s.getKey key (cfg.vrHash key) = some none)
    (hfree : vrHtableFindFreeHentry s.ht.table (cfg.vrHash key) = some (some fe, t))
    (hview : s₁.view = s.takenView fe key t) : FlowMove cfg R s.view
      ({ s₁ with
        info := { s₁.info with vftiAdded := added } }.writeEntry cfg o req fe true).view := by
  have hinfo : s₁.info = s.info := congrArg FlowView.info hview
  have hcore : s₁.view.core fe = (s.entry fe).core.activate key := by
    rw [hview]
    exact setCore_self
  obtain ⟨c, info, hwrite, hwritten⟩ :=
    { s₁ with info := { s₁.info with vftiAdded := added } }.writeEntry_view cfg o req fe true
  replace hwritten : (s₁.view.core fe).Written cfg req c { s₁.info with vftiAdded := added } info :=
    hwritten
  rw [hcore, hinfo] at hwritten
  have hview' : ∀ info₁ : FlowTableInfo, info = { info₁ with vftiAdded := info.vftiAdded } →
      ({ s₁ with info := { s₁.info with vftiAdded := added } }.writeEntry cfg o req fe true).view =
        { (s.takenView fe key t).setCore fe c with
          info := { info₁ with vftiAdded := info.vftiAdded } } := by
    intro info₁ hinfo₁
    rw [hwrite, ← hinfo₁, ← hview]
    rfl
  have hkey : c.key = key := by rw [hwritten.key, FlowCore.activate_key]
  have hactive' : c.active = true := by rw [hwritten.active, hactive]
  cases hhold : (s.entry fe).core.hold with
  | true =>
    exact take_move hfind hfree info info.vftiAdded (hview' info rfl) hkey hactive'
      hwritten.modified hwritten.evictCandidate (Or.inr hhold)
  | false =>
    obtain ⟨info₁, hchange, hinfo₁⟩ :=
      (hwritten.free ((FlowCore.activate_hold _ _).trans hhold)).of_added
    rw [← hhold] at hchange
    exact take_move hfind hfree info₁ info.vftiAdded (hview' info₁ hinfo₁) hkey hactive'
      hwritten.modified hwritten.evictCandidate (Or.inl hchange)

/-- `vr_flow_set` without an entry: nothing happens, or a flow is added and its entry written. -/
theorem vrFlowSetAdd_cases (h : s.vrFlowSetAdd cfg o req = some (s', result)) :
    s' = s ∨ ∃ fe family s₁ ok, req.frFlags.active = true ∧
      s.vrFindFlow cfg (reqKey req family) = some none ∧
      s.vrFlowGetFreeEntry cfg o (reqKey req family) (flowVpType family) (req.frAction = .hold) =
        some (some fe, s₁) ∧
      ({ s₁ with
        info := { s₁.info with vftiAdded := (s₁.info.vftiAdded + 1) % 2 ^ 64 } }.writeEntry cfg o
          { req with frIndex := fe } fe true).vrFlowScheduleTransition o.transition fe fe
            req.frFlags = some (s', ok) := by
  unfold vrFlowSetAdd at h
  split at h
  · cases h
    exact Or.inl rfl
  rename_i hactive
  rw [Bool.not_eq_true', Bool.not_eq_false] at hactive
  have hrest : ∀ exist s₁, s.vrAddFlowReq cfg o req = some (none, exist, s₁) → s₁ = s := by
    intro exist s₁ hadd
    rcases vrAddFlowReq_cases hadd with ⟨-, hs⟩ | ⟨family, -, hget⟩
    · exact hs
    · rcases vrFlowGetFreeEntry_cases hget with ⟨-, hs⟩ | ⟨fe, t, hfe, -⟩
      · exact hs
      · cases hfe
  split at h
  · cases h
  · rename_i hadd
    cases h
    exact Or.inl (hrest _ _ hadd)
  · rename_i hadd
    cases h
    exact Or.inl (hrest _ _ hadd)
  rename_i fe exist s₁ hadd
  obtain ⟨family, hfind, hget⟩ := (vrAddFlowReq_cases hadd).resolve_left (by simp)
  dsimp only at h
  split at h
  · cases h
  · rename_i s₂ ok hschedule
    cases h
    exact Or.inr ⟨fe, family, s₁, ok, hactive, hfind, hget, hschedule⟩

theorem vrFlowSetAdd_refines (hpush : R.Admits o.transition)
    (h : s.vrFlowSetAdd cfg o req = some (s', result)) :
    ReflTransGen (FlowMove cfg R) s.view s'.view := by
  rcases vrFlowSetAdd_cases h with rfl | ⟨fe, family, s₁, ok, hactive, hfind, hget, hschedule⟩
  · exact .refl
  rcases vrFlowGetFreeEntry_eq hget with ⟨hfe, -⟩ | ⟨fe', t, hfe, hkey, hfree, hview, -⟩
  · cases hfe
  · cases hfe
    refine .head ?_ (vrFlowScheduleTransition_refines hactive hpush hschedule)
    exact take_of_writeEntry hactive (find_none_of_vrFindFlow hfind hkey) hfree (hview none)

/-! ## Deleting a flow -/

/-- The view of an entry that a request has locked, with the counters it has set. -/
theorem lock_info_view (s : FlowSys) (fe : Nat) (info : FlowTableInfo) :
    { s.modify fe lock with info := info }.view =
      { s.view.setCore fe (s.view.core fe).locked with info := info } :=
  congrArg (fun v : FlowView => { v with info := info }) (s.lock_view fe)

end FlowSys

theorem FlowView.setCore_with_info {v : FlowView} {c c' : FlowCore} :
    { v.setCore fe c with info := info }.setCore fe c' = { v.setCore fe c' with info := info } :=
  congrArg (fun v : FlowView => { v with info := info }) setCore_setCore

/-- The entry of a flow that is being deleted: it becomes invisible to lookups at once, and its
action is drop. -/
def FlowEntry.dropped (e : FlowEntry) : FlowEntry :=
  { e with feFlags := { e.feFlags with deleteMarked := true }, feAction := .drop }.vrFlowResetMirror

namespace FlowSys

/-- A flow deleted, but for the work item. -/
def deleted (s : FlowSys) (fe : Nat) : FlowSys :=
  { s.modify fe FlowEntry.dropped with
    linkLocalPorts :=
      if (s.entry fe).feFlags.linkLocal then
        (s.writeLinkLocalPort (s.entry fe).feKey false).linkLocalPorts
      else s.linkLocalPorts }

theorem vrFlowDelete_eq (s : FlowSys) (o : FlowOutcome) (req : FlowReq) (fe : Nat) :
    s.vrFlowDelete o req fe =
      (s.deleted fe).vrFlowScheduleTransition o.transition fe req.frIndex.toNat req.frFlags := by
  unfold vrFlowDelete writeLinkLocalPort
  simp only [modify_self]
  split
  · unfold deleted FlowEntry.dropped writeLinkLocalPort
    split <;> simp only [modify, update_self, update_idem, if_true, *]
  · rename_i hlinkLocal
    rw [modify_modify, deleted, if_neg hlinkLocal]
    rfl

theorem deleted_self (s : FlowSys) (fe : Nat) :
    (s.deleted fe).entry fe = (s.entry fe).dropped :=
  s.modify_self fe _

theorem deleted_view (s : FlowSys) (fe : Nat) : (s.deleted fe).view =
    s.view.setCore fe { s.view.core fe with deleteMarked := true, hold := false } :=
  s.viewWith_modify fe FlowEntry.dropped

/-- `vr_flow_delete` on an entry that has been locked. -/
theorem vrFlowDelete_refines (hvalid : s.view.valid fe = true)
    (hmodified : (s.view.core fe).modified = false)
    (hdelete : (s.view.core fe).deleteMarked = false)
    (hhold : HoldChange cfg (s.view.core fe).hold false s.info info) (hindex : req.frIndex = fe)
    (hactive : req.frFlags.active = false) (hpush : R.Admits o.transition)
    (h : { s.modify fe lock with info := info }.vrFlowDelete o req fe = some (s', ok)) :
    ReflTransGen (FlowMove cfg R) s.view s'.view := by
  rw [vrFlowDelete_eq, hindex] at h
  have hview₁ : (deleted { s.modify fe lock with info := info } fe).view =
      { s.view.setCore fe
          { s.view.core fe with deleteMarked := true, modified := true, hold := false } with
        info := info } := by
    rw [deleted_view, lock_info_view, setCore_with_info]
    rw [setCore_self]
    rfl
  generalize deleted { s.modify fe lock with info := info } fe = s₁ at h hview₁
  -- the move `delete`, with the work item if there is one
  have hmove : ∀ items : List FlowMd, items.length ≤ 1 →
      (∀ flmd ∈ items, flmd.Describes o.transition fe req.frFlags (s₁.madeForNow fe)) →
      FlowMove cfg R s.view { s₁ with works := s₁.works ++ items }.view := by
    intro items hlength hitems
    have hview : { s₁ with works := s₁.works ++ items }.view =
        { s.view.setCore fe
            { s.view.core fe with deleteMarked := true, modified := true, hold := false } with
          info := info
          works := s.view.works ++ items } := by
      have hworks : s₁.works = s.works := congrArg FlowView.works hview₁
      show { s₁.view with works := s₁.works ++ items } = _
      rw [hview₁, hworks]
      rfl
    rw [hview]
    refine .delete fe hvalid hmodified hdelete hhold hlength fun flmd hflmd => ?_
    have hdescribes := hitems flmd hflmd
    refine ⟨hdescribes.consistent, hdescribes.index, ?_, ?_, hpush _ hdescribes.takesBack⟩
    · rw [hdescribes.delete, hactive]
      rfl
    rw [hdescribes.madeFor]
    show s₁.view.madeForNow fe = s.view.madeForNow fe
    rw [hview₁]
    show _ :: ((s.view.getEntry ((s.view.setCore fe _).core fe).rflow).map _).toList = _
    rw [setCore_self]
    rfl
  rcases vrFlowScheduleTransition_eq h with ⟨-, rfl⟩ | ⟨-, flmd, rfl, hflmd, -⟩
  · have hmove := hmove [] (by simp) (by simp)
    rw [List.append_nil] at hmove
    exact .single hmove
  · refine .single (hmove [flmd] (by simp) ?_)
    simpa using hflmd

/-! ## Changing a flow -/

/-- The counters after `vr_flow_set` has looked at the action of an entry: it leaves hold with the
request, or it does not. -/
def countedInfo (s : FlowSys) (req : FlowReq) (fe : Nat) : FlowTableInfo :=
  if (s.view.core fe).hold = true ∧ (req.frAction ≠ .hold ∨ req.frFlags.active = false) then
    s.info.countAction
  else s.info

theorem countedInfo_eq (s : FlowSys) (req : FlowReq) (fe : Nat) :
    (if ((s.modify fe lock).entry fe).feAction = .hold ∧
        (req.frAction ≠ ((s.modify fe lock).entry fe).feAction ∨ (!req.frFlags.active) = true) then
      { s.modify fe lock with info := (s.modify fe lock).info.countAction }
    else s.modify fe lock) = { s.modify fe lock with info := s.countedInfo req fe } := by
  have hself : ((s.modify fe lock).entry fe).feAction = (s.entry fe).feAction := by
    rw [modify_self]
    rfl
  have hcore : (s.view.core fe).hold = true ↔ (s.entry fe).feAction = .hold := decide_eq_true_iff
  have hcond : ((s.entry fe).feAction = .hold ∧
      (req.frAction ≠ (s.entry fe).feAction ∨ (!req.frFlags.active) = true)) ↔
      (s.view.core fe).hold = true ∧ (req.frAction ≠ .hold ∨ req.frFlags.active = false) := by
    rw [hcore, Bool.not_eq_true']
    refine and_congr_right fun haction => ?_
    rw [haction]
  unfold countedInfo
  rw [hself]
  split
  · rename_i h
    rw [if_pos (hcond.mp h)]
    rfl
  · rename_i h
    rw [if_neg fun h' => h (hcond.mpr h')]
    rfl

/-- The entry as `vr_flow_set` has written and unlocked it. -/
theorem change_move {s₂ : FlowSys} (hvalid : s.view.valid fe = true)
    (hmodified : (s.view.core fe).modified = false)
    (hdelete : (s.view.core fe).deleteMarked = false) (hactive : req.frFlags.active = true)
    (hs₂ : s₂.view =
      { s.view.setCore fe (s.view.core fe).locked with info := s.countedInfo req fe }) :
    FlowMove cfg R s.view
      ((s₂.writeEntry cfg o req fe false).modify fe FlowEntry.vrFlowStopModify).view := by
  obtain ⟨c, info, hwrite, hwritten⟩ := s₂.writeEntry_view cfg o req fe false
  have hinfo : s₂.info = s.countedInfo req fe := congrArg FlowView.info hs₂
  have hcore : s₂.view.core fe = (s.view.core fe).locked := by
    rw [hs₂]
    exact setCore_self
  rw [hcore, hinfo] at hwritten
  have hview : ((s₂.writeEntry cfg o req fe false).modify fe FlowEntry.vrFlowStopModify).view =
      { s.view.setCore fe c.unlocked with info := info } := by
    have hself : (s₂.writeEntry cfg o req fe false).view.core fe = c := by
      rw [hwrite]
      exact setCore_self
    rw [view, vrFlowStopModify_view, ← view, hself, hwrite, hs₂, setCore_with_info]
    exact congrArg (fun v : FlowView => { v with info := info }) setCore_with_info
  rw [hview]
  refine .change fe c.unlocked hvalid hmodified hdelete hwritten.key
    (hwritten.active.trans hactive) rfl hwritten.evictCandidate ?_
  show HoldChange cfg (s.view.core fe).hold c.hold s.info info
  unfold countedInfo at hwritten
  cases hhold : (s.view.core fe).hold with
  | true =>
    obtain ⟨hhold', rfl⟩ := hwritten.held hhold
    rw [hhold', hactive]
    by_cases haction : req.frAction = .hold
    · rw [if_neg (by simp [haction]), decide_eq_true haction]
      exact .same
    · rw [if_pos ⟨hhold, Or.inl haction⟩, decide_eq_false haction]
      exact .leave
  | false =>
    have hchange := hwritten.free hhold
    rwa [if_neg (by simp [hhold])] at hchange

/-- `vr_flow_set` on an entry that has been locked and that the request fits. -/
theorem vrFlowSetChange_refines (hvalid : s.view.valid fe = true)
    (hmodified : (s.view.core fe).modified = false)
    (hdelete : (s.view.core fe).deleteMarked = false) (hindex : req.frIndex = fe)
    (hpush : R.Admits o.transition)
    (h : (s.modify fe lock).vrFlowSetChange cfg o req fe = some (s', result)) :
    ReflTransGen (FlowMove cfg R) s.view s'.view := by
  unfold vrFlowSetChange at h
  dsimp only at h
  rw [countedInfo_eq, modify_self] at h
  split at h
  · rename_i hactive
    rw [Bool.not_eq_true'] at hactive
    obtain ⟨⟨s₁, ok⟩, hdel, heq⟩ := Option.map_eq_some_iff.mp h
    cases heq
    refine vrFlowDelete_refines hvalid hmodified hdelete ?_ hindex hactive hpush hdel
    unfold countedInfo
    cases hhold : (s.view.core fe).hold with
    | true =>
      rw [if_pos ⟨rfl, Or.inr hactive⟩]
      exact .leave
    | false =>
      exact .same
  · rename_i hactive
    rw [Bool.not_eq_true', Bool.not_eq_false] at hactive
    split at h
    · -- no memory for the queue: the entry is unlocked, and nothing else has happened
      rename_i hqueue
      cases h
      have hhold : (s.view.core fe).hold = false := decide_eq_false hqueue.1.2.1
      have hinfo : s.countedInfo req fe = s.info := if_neg (by simp [hhold])
      rw [hinfo]
      have hview : ((s.modify fe lock).modify fe FlowEntry.vrFlowStopModify).view = s.view :=
        lock_stop_view hmodified
      exact hview ▸ .refl
    · split at h
      · cases h
      · rename_i s₃ ok hschedule
        cases h
        rw [hindex] at hschedule
        refine .head (change_move hvalid hmodified hdelete hactive ?_)
          (schedule_stop_refines hactive hpush hschedule)
        -- the queue is no part of the view
        rw [← s.lock_info_view]
        split
        · exact viewWith_modify_of_core rfl
        · rfl

/-! ## `vr_flow_set` -/

theorem deleteMarked_of_fits (h : s.vrFlowSetReqIsInvalid cfg req (some fe) = none) :
    (s.entry fe).feFlags.deleteMarked = false := by
  unfold vrFlowSetReqIsInvalid at h
  split at h
  · cases h
  rename_i hmismatch
  unfold reqMismatch at hmismatch
  dsimp only at hmismatch
  split at hmismatch
  · cases hmismatch
  · rename_i hmark
    exact Bool.eq_false_of_not_eq_true hmark

theorem lock_stop {e : FlowEntry} (hstart : (s.entry fe).vrFlowStartModify = some e) :
    (s.modify fe fun _ => e).modify fe FlowEntry.vrFlowStopModify = s := by
  obtain ⟨hmodified, rfl⟩ := vrFlowStartModify_eq_some hstart
  have hentry : FlowEntry.vrFlowStopModify (lock (s.entry fe)) = s.entry fe := by
    show { s.entry fe with feFlags := { (s.entry fe).feFlags with modified := false } } = _
    rw [← hmodified]
  unfold modify
  simp only [update_self, update_idem, hentry, update_eq_self]

/-- `vr_flow_set`: nothing happens, a flow is added, or the entry is locked, fits and is changed. -/
theorem vrFlowSet_cases (h : s.vrFlowSet cfg o req = some (s', result)) :
    s' = s ∨ s.vrFlowSetAdd cfg o req = some (s', result) ∨
      ∃ fe, s.vrFlowGetEntry req.frIndex = some fe ∧ (s.entry fe).feFlags.modified = false ∧
        (s.modify fe lock).vrFlowSetReqIsInvalid cfg req (some fe) = none ∧
        (s.modify fe lock).vrFlowSetChange cfg o req fe = some (s', result) := by
  unfold vrFlowSet at h
  split at h
  · split at h
    · cases h
      exact Or.inl rfl
    · exact Or.inr (Or.inl h)
  rename_i fe hget
  split at h
  · cases h
    exact Or.inl rfl
  rename_i e hstart
  dsimp only at h
  split at h
  · cases h
    exact Or.inl (lock_stop hstart)
  · rename_i hfits
    obtain ⟨hmodified, rfl⟩ := vrFlowStartModify_eq_some hstart
    exact Or.inr (Or.inr ⟨fe, hget, hmodified, hfits, h⟩)

theorem vrFlowSet_refines (hpush : R.Admits o.transition)
    (h : s.vrFlowSet cfg o req = some (s', result)) :
    ReflTransGen (FlowMove cfg R) s.view s'.view := by
  rcases vrFlowSet_cases h with rfl | h | ⟨fe, hget, hmodified, hfits, h⟩
  · exact .refl
  · exact vrFlowSetAdd_refines hpush h
  · refine vrFlowSetChange_refines (valid_of_getEntry hget) hmodified ?_
      (eq_of_vrFlowGetEntry hget) hpush h
    have hmark := deleteMarked_of_fits hfits
    rwa [modify_self] at hmark

end FlowSys

end VRouter
