import VRouter.Flow.Protocol

/-!
# VRouter — the source's steps as moves of the protocol

One lemma for each function of `VRouter.Flow.Step` says what it does to the view of the table:
nothing, or which move it makes. `FlowSys.step_refines` puts them together: every step is a sequence
of moves. What the surroundings promise (`FlowRules`) has to hold where a step makes the move in
question, which is `FlowSys.Meets`.
-/

namespace VRouter

open LongestMatch Relation FlowView Function

variable {cfg : FlowConfig} {R : FlowRules} {s s' : FlowSys} {o : FlowOutcome}
  {running : Option FlowItem} {fe : Nat}

/-! ## Writes the protocol does not see -/

/-- An entry with another queue. -/
def FlowEntry.withQueue (e : FlowEntry) (f : Option FlowQueue → Option FlowQueue) : FlowEntry :=
  { e with feHoldList := f e.feHoldList }

namespace FlowSys

theorem modify_apply (s : FlowSys) (i : Nat) (f : FlowEntry → FlowEntry) (j : Nat) :
    (s.modify i f).entry j = if j = i then f (s.entry j) else s.entry j := by
  show update s.entry i (f (s.entry i)) j = _
  rw [update_apply]
  split
  · rename_i hj
    rw [hj]
  · rfl

/-- What the function leaves alone in its entry is the same in all entries. -/
theorem modify_keeps {α : Type} (g : FlowEntry → α) {i : Nat} {f : FlowEntry → FlowEntry}
    (h : g (f (s.entry i)) = g (s.entry i)) :
    (fun j => g ((s.modify i f).entry j)) = fun j => g (s.entry j) := by
  funext j
  rw [modify_apply]
  split
  · rename_i hj
    rw [hj]
    exact h
  · rfl

theorem viewWith_modify (s : FlowSys) (i : Nat) (f : FlowEntry → FlowEntry) :
    (s.modify i f).viewWith running = (s.viewWith running).setCore i (f (s.entry i)).core := by
  refine FlowView.ext rfl ?_ rfl rfl rfl rfl rfl
  funext j
  show ((s.modify i f).entry j).core = update (fun j => (s.entry j).core) i _ j
  rw [modify_apply, update_apply]
  split
  · rename_i hj
    rw [hj]
  · rfl

variable {f : FlowEntry → FlowEntry}

theorem viewWith_modify_eq {i : Nat} {g : FlowCore → FlowCore}
    (h : ∀ e : FlowEntry, (f e).core = g e.core) : (s.modify i f).viewWith running =
      (s.viewWith running).setCore i (g ((s.viewWith running).core i)) := by
  rw [viewWith_modify, h]
  rfl

theorem viewWith_modify_of_core {i : Nat} (h : (f (s.entry i)).core = (s.entry i).core) :
    (s.modify i f).viewWith running = s.viewWith running := by
  rw [viewWith_modify, h]
  unfold setCore
  rw [show (s.entry i).core = (s.viewWith running).core i from rfl, update_eq_self]

/-- The TCP state machine writes TCP flags and sequence numbers only: what depends on neither stays
as it is. -/
theorem vrFlowTcpDigest_keeps {β : Type} {π : FlowSys → β}
    (hflags : ∀ s i f, π (s.setTcpFlags i f) = π s)
    (hseq : ∀ s i n, π (s.modify i fun e => { e with feTcpSeq := n }) = π s) (s : FlowSys)
    (pkt : FlowPacket) : π (s.vrFlowTcpDigest fe pkt) = π s := by
  have hreverse : ∀ (s : FlowSys) (rfe : Option Nat) (f : FlowTcpFlags → FlowTcpFlags),
      π (s.setReverseTcpFlags rfe f) = π s := by
    intro s rfe f
    cases rfe with
    | none => rfl
    | some r => exact hflags s r f
  have hclose : ∀ s : FlowSys, π (s.vrFlowInitClose fe) = π s := by
    intro s
    simp [vrFlowInitClose, hreverse, hflags]
  have hrst : ∀ s : FlowSys, π (s.digestRst fe) = π s := by
    intro s
    simp [digestRst, hclose, hreverse, hflags]
  have hsyn : ∀ (s : FlowSys) (tcp : TcpSegment), π (s.digestSyn fe tcp) = π s := by
    intro s tcp
    unfold digestSyn
    dsimp only
    split
    · simp [hflags, hseq]
    · split <;> simp [hflags, hseq]
  have hfin : ∀ (s : FlowSys) (tcp : TcpSegment), π (s.digestFin fe tcp) = π s := by
    intro s tcp
    simp [digestFin, hreverse, hflags, hseq]
  have hack : ∀ (s : FlowSys) (tcp : TcpSegment), π (s.digestAck fe tcp) = π s := by
    intro s tcp
    unfold digestAck
    dsimp only
    split
    · split
      · rfl
      · split
        · split <;> simp [hclose, hflags]
        · split <;> simp [hflags]
    · rfl
  unfold vrFlowTcpDigest
  split
  · rfl
  split
  · rfl
  split
  · rfl
  split
  · exact hrst s
  rw [hack]
  split
  · exact hsyn s _
  · split
    · exact hfin s _
    · rfl

@[simp] theorem vrFlowTcpDigest_view (s : FlowSys) (pkt : FlowPacket) :
    (s.vrFlowTcpDigest fe pkt).viewWith running = s.viewWith running :=
  vrFlowTcpDigest_keeps (π := fun s => s.viewWith running)
    (fun _ _ _ => viewWith_modify_of_core rfl) (fun _ _ _ => viewWith_modify_of_core rfl) s pkt

theorem vrEnqueueFlow_core (e : FlowEntry) (pkt : FlowPacket) (cloned : Bool) :
    (e.vrEnqueueFlow pkt cloned).core = e.core := by
  unfold FlowEntry.vrEnqueueFlow
  split
  · rfl
  · dsimp only
    split
    · rfl
    · split <;> rfl

end FlowSys

/-! ## Making work items -/

/-- What `__vr_flow_schedule_transition` puts into a work item. -/
structure FlowMd.Describes (flmd : FlowMd) (o : TransitionOutcome) (index : Nat)
    (flags : FlowFlags) (madeFor : List (Nat × Nat)) : Prop where
  consistent : flmd.Consistent
  index : flmd.item.index = index
  delete : flmd.item.delete = !flags.active
  madeFor : flmd.item.madeFor = madeFor
  takesBack : o.defer = true → o.vfdd = true → flmd.item.takesBack = false

/-- The rule about work items allows those that are made with these outcomes. -/
def FlowRules.Admits (R : FlowRules) (o : TransitionOutcome) : Prop :=
  ∀ it : FlowItem, (o.defer = true → o.vfdd = true → it.takesBack = false) → R.push it

variable {flags : FlowFlags} {c : FlowCore} {index : Nat}

namespace FlowSys

theorem vrFlowScheduleTransition_eq {o : TransitionOutcome} {ok : Bool}
    (h : s.vrFlowScheduleTransition o fe index flags = some (s', ok)) :
    (ok = false ∧ s' = s) ∨ (ok = true ∧ ∃ flmd : FlowMd,
      s' = { s with works := s.works ++ [flmd] } ∧
        flmd.Describes o index flags (s.madeForNow fe) ∧
        (flags.evictCandidate = true → (o.defer && o.vfdd) = false →
          flmd.item.takesBack = true)) := by
  unfold vrFlowScheduleTransition at h
  split at h
  · cases h
    exact Or.inl ⟨rfl, rfl⟩
  dsimp only at h
  generalize hwants : ((s.entry fe).feHoldList.isSome || flags.evictCandidate) = wants at h
  split at h
  · cases h
  split at h
  · cases h
    refine Or.inr ⟨rfl, _, rfl, ⟨?_, rfl, rfl, rfl, ?_⟩, fun hcandidate hfail => ?_⟩
    · -- the defer data is there only if it was asked for, and is filled with the same values
      intro vfdd hvfdd
      unfold FlowMd.vfdd? at hvfdd
      cases hd : wants && o.defer <;> cases hv : o.vfdd <;> simp [hd, hv] at hvfdd
      cases hvfdd
      exact ⟨rfl, rfl, rfl⟩
    · intro hdefer hvfdd
      unfold FlowMd.item
      rw [hdefer, hvfdd]
      cases hc : flags.evictCandidate with
      | false => rfl
      | true =>
        rw [hc, Bool.or_true] at hwants
        rw [← hwants]
        rfl
    · unfold FlowMd.item
      rw [hcandidate]
      cases hd : o.defer <;> cases hv : o.vfdd <;> cases wants <;> simp_all [FlowMd.vfdd?]
  · cases h
    exact Or.inl ⟨rfl, rfl⟩

theorem vrFlowScheduleTransition_ok {o : TransitionOutcome} {ok : Bool}
    (h : s.vrFlowScheduleTransition o fe index flags = some (s', ok)) :
    ok = (o.flmd && o.scheduled) := by
  unfold vrFlowScheduleTransition at h
  dsimp only at h
  split at h
  · rename_i hflmd
    cases h
    rw [(Bool.not_eq_true' _).mp hflmd, Bool.false_and]
  rename_i hflmd
  split at h
  · cases h
  rw [Bool.not_eq_true', Bool.not_eq_false] at hflmd
  rw [hflmd, Bool.true_and]
  split at h
  · rename_i hscheduled
    cases h
    exact hscheduled.symm
  · rename_i hscheduled
    cases h
    exact (Bool.eq_false_of_not_eq_true hscheduled).symm

/-! ## Eviction marks -/

/-- An entry with the modify bit taken. -/
def lock (e : FlowEntry) : FlowEntry := { e with feFlags := { e.feFlags with modified := true } }

/-- An entry with the eviction mark. -/
def markCandidate (e : FlowEntry) : FlowEntry :=
  { e with feFlags := { e.feFlags with evictCandidate := true } }

theorem vrFlowStartModify_eq_some {e e' : FlowEntry} (h : e.vrFlowStartModify = some e') :
    e.feFlags.modified = false ∧ e' = lock e := by
  unfold FlowEntry.vrFlowStartModify at h
  split at h
  · cases h
  · rename_i hflags
    cases h
    simp only [Bool.or_eq_true, not_or, Bool.not_eq_true] at hflags
    exact ⟨hflags.1.1, rfl⟩

/-- A flow is marked for the first time exactly if it is active and has no mark. -/
theorem vrFlowMarkEvictCore_eq (s : FlowSys) (fe : Nat) :
    ((s.entry fe).core.active = true ∧ (s.entry fe).core.evictCandidate = false ∧
        s.vrFlowMarkEvictCore fe = (true, s.modify fe markCandidate)) ∨
      (((s.entry fe).core.evictCandidate = true ∨ (s.entry fe).core.active = false) ∧
        (s.vrFlowMarkEvictCore fe).1 = false ∧
        ∀ running, (s.vrFlowMarkEvictCore fe).2.viewWith running = s.viewWith running) := by
  unfold vrFlowMarkEvictCore
  dsimp only
  cases ha : (s.entry fe).feFlags.active with
  | false => exact Or.inr ⟨Or.inr ha, rfl, fun _ => rfl⟩
  | true =>
    cases hc : (s.entry fe).feFlags.evictCandidate with
    | false => exact Or.inl ⟨ha, hc, rfl⟩
    | true =>
      refine Or.inr ⟨Or.inl hc, rfl, fun running => viewWith_modify_of_core ?_⟩
      unfold FlowEntry.core
      simp [hc]

end FlowSys

theorem FlowCore.locked_unlocked (h : c.modified = false) : c.locked.unlocked = c := by
  show { c with modified := false } = c
  rw [← h]

theorem FlowCore.Markable.takenBack (h : c.Markable) : c.locked.candidate.takenBack = c := by
  show { c with modified := false, evictCandidate := false } = c
  nth_rewrite 1 [← h.modified]
  rw [← h.evictCandidate]

namespace FlowView

variable {v : FlowView} {i r : Nat}

theorem setCore_setCore {c c' : FlowCore} : (v.setCore i c).setCore i c' = v.setCore i c' :=
  FlowView.ext rfl (update_idem _ _ _) rfl rfl rfl rfl rfl

theorem setCore_core : v.setCore i (v.core i) = v :=
  FlowView.ext rfl (update_eq_self _ _) rfl rfl rfl rfl rfl

theorem setCore_comm {c d : FlowCore} (h : r ≠ i) :
    (v.setCore r c).setCore i d = (v.setCore i d).setCore r c :=
  FlowView.ext rfl (update_comm h _ _ _) rfl rfl rfl rfl rfl

theorem markPair_of_none (h : v.getEntry (v.core i).rflow = none) :
    v.markPair i = v.setCore i (v.core i).marked := by
  refine FlowView.ext rfl ?_ rfl rfl rfl rfl rfl
  funext j
  show (if j = i ∨ v.getEntry (v.core i).rflow = some j then (v.core j).marked else v.core j) = _
  rw [h]
  by_cases hj : j = i <;> simp [hj]

theorem markPair_of_some (h : v.getEntry (v.core i).rflow = some r) (hr : r ≠ i) :
    v.markPair i = (v.setCore r (v.core r).marked).setCore i (v.core i).marked := by
  refine FlowView.ext rfl ?_ rfl rfl rfl rfl rfl
  funext j
  show (if j = i ∨ v.getEntry (v.core i).rflow = some j then (v.core j).marked else v.core j) = _
  rw [h]
  by_cases hj : j = i
  · simp [hj]
  · by_cases hjr : j = r
    · simp [hjr, hr]
    · simp [hj, hjr, Ne.symm hjr]

theorem markPair_madeForNow (v : FlowView) (i : Nat) :
    (v.markPair i).madeForNow i = v.madeForNow i := by
  have hrflow : ((v.markPair i).core i).rflow = (v.core i).rflow := by
    show (if i = i ∨ _ then (v.core i).marked else v.core i).rflow = _
    rw [if_pos (Or.inl rfl)]
    rfl
  unfold madeForNow
  rw [hrflow]
  rfl

/-- A packet may mark flow `i` for eviction, as far as the flow itself is concerned. -/
structure MayMark (R : FlowRules) (v : FlowView) (i : Nat) : Prop where
  valid : v.valid i = true
  active : (v.core i).active = true
  locked : (v.core i).evictCandidate = true → (v.core i).modified = true
  hold : (v.core i).hold = false
  rule : R.mark v i

theorem MayMark.markable (h : v.MayMark R i) (hmodified : (v.core i).modified = false) :
    (v.core i).Markable := by
  refine ⟨h.active, hmodified, ?_, h.hold⟩
  cases hc : (v.core i).evictCandidate with
  | false => rfl
  | true => exact (h.locked hc).symm.trans hmodified

end FlowView

namespace FlowSys

variable {key : List Octet} {pkt : FlowPacket} {result : FlowResult} {t : Htable} {s₁ : FlowSys}

section

variable (s) (i : Nat)

theorem lock_view : (s.modify i lock).viewWith running =
    (s.viewWith running).setCore i ((s.viewWith running).core i).locked :=
  viewWith_modify_eq fun _ => rfl

theorem vrFlowStopModify_view :
    (s.modify i FlowEntry.vrFlowStopModify).viewWith running =
      (s.viewWith running).setCore i ((s.viewWith running).core i).unlocked :=
  viewWith_modify_eq fun _ => rfl

theorem markCandidate_view : (s.modify i markCandidate).viewWith running =
    (s.viewWith running).setCore i ((s.viewWith running).core i).candidate :=
  viewWith_modify_eq fun _ => rfl

theorem vrFlowResetEvict_view :
    (s.modify i FlowEntry.vrFlowResetEvict).viewWith running =
      (s.viewWith running).setCore i ((s.viewWith running).core i).takenBack :=
  viewWith_modify_eq fun _ => rfl

end

theorem lock_stop_view (hmod : ((s.viewWith running).core fe).modified = false) :
    ((s.modify fe lock).modify fe FlowEntry.vrFlowStopModify).viewWith running =
      s.viewWith running := by
  rw [vrFlowStopModify_view, lock_view, setCore_self, setCore_setCore,
    FlowCore.locked_unlocked hmod, setCore_core]

theorem lock_stop_pair_view {r : Nat} (hr : r ≠ fe)
    (hs₁ : s₁.viewWith running = ((s.modify fe lock).modify r lock).viewWith running)
    (hmod : ((s.viewWith running).core fe).modified = false)
    (hmodr : ((s.viewWith running).core r).modified = false) :
    (s₁.modifyPair (some r) fe FlowEntry.vrFlowStopModify).viewWith running =
      s.viewWith running := by
  unfold modifyPair
  rw [vrFlowStopModify_view, vrFlowStopModify_view, hs₁, lock_view, lock_view]
  simp only [setCore_self, setCore_of_ne hr, setCore_of_ne hr.symm, setCore_setCore,
    setCore_comm hr, FlowCore.locked_unlocked hmod, FlowCore.locked_unlocked hmodr, setCore_core]

/-- A flow that is active and not marked gets its mark; what follows depends on the work item. -/
theorem evictForwardFlow_eq {o : TransitionOutcome} {rfe : Option Nat}
    (h : s.evictForwardFlow o fe index rfe = some s') :
    (((s.entry fe).core.evictCandidate = true ∨ (s.entry fe).core.active = false) ∧
        s' = (s.vrFlowMarkEvictCore fe).2.modifyPair rfe fe FlowEntry.vrFlowStopModify) ∨
      ((o.flmd && o.scheduled) = false ∧
        s' = (s.modify fe markCandidate).modifyPair rfe fe FlowEntry.vrFlowResetEvict) ∨
      ((o.flmd && o.scheduled) = true ∧ ∃ flmd : FlowMd,
        s' = { s.modify fe markCandidate with works := s.works ++ [flmd] } ∧
        flmd.item.delete = false ∧ flmd.Describes o index (markCandidate (s.entry fe)).feFlags
          ((s.modify fe markCandidate).madeForNow fe) ∧
        ((o.defer && o.vfdd) = false → flmd.item.takesBack = true)) := by
  unfold evictForwardFlow at h
  rcases s.vrFlowMarkEvictCore_eq fe with ⟨hactive, -, heq⟩ | ⟨hidle, hfalse, -⟩
  · rw [heq] at h
    dsimp only at h
    rw [modify_self] at h
    split at h
    · cases h
    · rename_i hsched
      cases h
      have hok := vrFlowScheduleTransition_ok hsched
      rcases vrFlowScheduleTransition_eq hsched with ⟨hfalse, -⟩ | ⟨-, flmd, rfl, hflmd, hback⟩
      · cases hfalse
      refine Or.inr (Or.inr ⟨hok.symm, flmd, rfl, ?_, hflmd, hback rfl⟩)
      rw [hflmd.delete]
      show (!(s.entry fe).core.active) = false
      rw [hactive]
      rfl
    · rename_i hsched
      cases h
      have hok := vrFlowScheduleTransition_ok hsched
      rcases vrFlowScheduleTransition_eq hsched with ⟨-, rfl⟩ | ⟨htrue, -⟩
      · exact Or.inr (Or.inl ⟨hok.symm, rfl⟩)
      · cases htrue
  · refine Or.inl ⟨hidle, ?_⟩
    generalize s.vrFlowMarkEvictCore fe = m at h hfalse
    obtain ⟨marked, s₁⟩ := m
    cases hfalse
    cases h
    rfl

/-- What `vr_flow_mark_evict` comes to: the table is as it was, or the flow has been marked (and is
locked from then on). -/
def MarkOutcome (cfg : FlowConfig) (R : FlowRules) (running : Option FlowItem) (fe : Nat)
    (s s' : FlowSys) : Prop :=
  s'.viewWith running = s.viewWith running ∨
    ((s'.entry fe).core.modified = true ∧ (s'.entry fe).core.hold = (s.entry fe).core.hold ∧
      FlowMove cfg R (s.viewWith running) (s'.viewWith running))

/-- `vr_flow_mark_evict`, whatever can be allocated: it comes to nothing, or it locks the flow and
its reverse flow, if there is one, and marks the latter first. -/
theorem vrFlowMarkEvict_eq (s : FlowSys) (fe index : Nat) :
    (∃ s₁ : FlowSys, (∀ o, s.vrFlowMarkEvict o fe index = some s₁) ∧
        ∀ running, s₁.viewWith running = s.viewWith running) ∨
      ((s.entry fe).vrFlowStartModify = some (lock (s.entry fe)) ∧
        ((s.vrFlowGetEntry (s.entry fe).feRflow = none ∧ ∀ o, s.vrFlowMarkEvict o fe index =
            (s.modify fe lock).evictForwardFlow o fe index none) ∨
          ∃ r, s.vrFlowGetEntry (s.entry fe).feRflow = some r ∧ r ≠ fe ∧
            (s.entry r).vrFlowStartModify = some (lock (s.entry r)) ∧ (s.entry r).core.Markable ∧
            ∀ o, s.vrFlowMarkEvict o fe index =
              (((s.modify fe lock).modify r lock).modify r markCandidate).evictForwardFlow o fe
                index (some r))) := by
  unfold vrFlowMarkEvict
  cases hstart : (s.entry fe).vrFlowStartModify with
  | none => exact Or.inl ⟨s, fun _ => rfl, fun _ => rfl⟩
  | some e =>
    obtain ⟨hmod, rfl⟩ := vrFlowStartModify_eq_some hstart
    dsimp only
    rw [show (s.modify fe fun _ => lock (s.entry fe)) = s.modify fe lock from rfl,
      show (s.modify fe lock).vrFlowGetEntry (lock (s.entry fe)).feRflow =
        s.vrFlowGetEntry (s.entry fe).feRflow from rfl]
    cases s.vrFlowGetEntry (s.entry fe).feRflow with
    | none => exact Or.inr ⟨rfl, Or.inl ⟨rfl, fun _ => rfl⟩⟩
    | some r =>
      dsimp only
      cases ((s.modify fe lock).entry r).feTcpFlags.dead with
      | false => exact Or.inl ⟨_, fun _ => rfl, fun _ => lock_stop_view hmod⟩
      | true =>
        cases hstartr : ((s.modify fe lock).entry r).vrFlowStartModify with
        | none => exact Or.inl ⟨_, fun _ => rfl, fun _ => lock_stop_view hmod⟩
        | some re =>
          obtain ⟨hmodr, rfl⟩ := vrFlowStartModify_eq_some hstartr
          -- a flow that is its own reverse flow has just been locked
          have hr : r ≠ fe := by
            intro hr
            rw [hr, modify_self] at hmodr
            cases hmodr
          rw [modify_of_ne _ _ _ hr] at hmodr hstartr
          simp only [if_true]
          rw [show ((s.modify fe lock).modify r fun _ => lock ((s.modify fe lock).entry r)) =
            (s.modify fe lock).modify r lock from rfl]
          split
          · rename_i hcond
            rw [modify_of_ne _ _ _ hr] at hcond
            rcases vrFlowMarkEvictCore_eq ((s.modify fe lock).modify r lock) r with
              ⟨hactive, hcandidate, heq⟩ | ⟨-, hfalse, hview⟩
            · rw [modify_self, modify_of_ne _ _ _ hr] at hactive hcandidate
              rw [heq]
              exact Or.inr ⟨trivial, Or.inr ⟨r, rfl, hr, hstartr,
                ⟨hactive, hmodr, hcandidate, decide_eq_false hcond.2⟩, fun _ => rfl⟩⟩
            generalize vrFlowMarkEvictCore ((s.modify fe lock).modify r lock) r = m at hfalse hview
            obtain ⟨marked, s₃⟩ := m
            cases hfalse
            exact Or.inl ⟨_, fun _ => rfl,
              fun running => lock_stop_pair_view hr (hview running) hmod hmodr⟩
          · exact Or.inl ⟨_, fun _ => rfl, fun _ => lock_stop_pair_view hr rfl hmod hmodr⟩

section

variable {o : TransitionOutcome} (hmay : (s.viewWith running).MayMark R fe)
  (hmod : ((s.viewWith running).core fe).modified = false) (hpush : R.Admits o)
include hmay hmod hpush

/-- The forward flow is marked last: if no work item can be made, this takes the marks back, and
otherwise it completes the move. -/
theorem evictForwardFlow_moves {rfe : Option Nat} (hself : s₁.entry fe = lock (s.entry fe))
    (hback : ((s₁.modify fe markCandidate).modifyPair rfe fe
      FlowEntry.vrFlowResetEvict).viewWith running = s.viewWith running)
    (hpair : (s₁.modify fe markCandidate).viewWith running = (s.viewWith running).markPair fe)
    (hreverse : ∀ r, (s.viewWith running).getEntry ((s.viewWith running).core fe).rflow = some r →
      r ≠ fe ∧ ((s.viewWith running).core r).Markable)
    (h : s₁.evictForwardFlow o fe fe rfe = some s') : MarkOutcome cfg R running fe s s' := by
  have hmarkable := hmay.markable hmod
  rcases evictForwardFlow_eq h with ⟨hidle, -⟩ | ⟨-, rfl⟩ | ⟨-, flmd, rfl, hdelete, hflmd, -⟩
  · rw [hself] at hidle
    rcases hidle with hidle | hidle
    · cases hmarkable.evictCandidate.symm.trans hidle
    · cases hmarkable.active.symm.trans hidle
  · exact Or.inl hback
  have hview : { s₁.modify fe markCandidate with works := s₁.works ++ [flmd] }.viewWith running =
      { (s.viewWith running).markPair fe with works := (s.viewWith running).works ++ [flmd] } := by
    have hworks : s₁.works = s.works := congrArg FlowView.works hpair
    show { (s₁.modify fe markCandidate).viewWith running with works := s₁.works ++ [flmd] } = _
    rw [hpair, hworks]
    rfl
  refine Or.inr ⟨?_, ?_, ?_⟩
  · rw [modify_self, hself]
    rfl
  · rw [modify_self, hself]
    rfl
  rw [hview]
  refine .mark fe hmay.valid hmarkable hreverse hmay.rule hflmd.consistent hflmd.index hdelete ?_
    (hpush _ hflmd.takesBack)
  rw [hflmd.madeFor, ← markPair_madeForNow, ← hpair]
  rfl

theorem evictForwardFlow_none
    (hnone : (s.viewWith running).getEntry ((s.viewWith running).core fe).rflow = none)
    (h : (s.modify fe lock).evictForwardFlow o fe fe none = some s') :
    MarkOutcome cfg R running fe s s' := by
  refine evictForwardFlow_moves hmay hmod hpush (modify_self _ _ _) ?_ ?_ ?_ h
  · unfold modifyPair
    simp only [vrFlowResetEvict_view, markCandidate_view, lock_view, setCore_self, setCore_setCore,
      (hmay.markable hmod).takenBack, setCore_core]
  · rw [markCandidate_view, lock_view, FlowView.markPair_of_none hnone]
    rw [setCore_self, setCore_setCore]
    rfl
  · intro r hr
    cases hnone.symm.trans hr

/-- Marking a flow whose reverse flow has just been marked. -/
theorem evictForwardFlow_some {r : Nat}
    (hsome : (s.viewWith running).getEntry ((s.viewWith running).core fe).rflow = some r)
    (hr : r ≠ fe) (hmarkabler : ((s.viewWith running).core r).Markable)
    (h : (((s.modify fe lock).modify r lock).modify r markCandidate).evictForwardFlow o fe fe
      (some r) = some s') : MarkOutcome cfg R running fe s s' := by
  refine evictForwardFlow_moves hmay hmod hpush ?_ ?_ ?_ ?_ h
  · rw [modify_of_ne _ _ _ hr.symm, modify_of_ne _ _ _ hr.symm, modify_self]
  · unfold modifyPair
    simp only [vrFlowResetEvict_view, markCandidate_view, lock_view, setCore_self, setCore_of_ne hr,
      setCore_of_ne hr.symm, setCore_setCore, setCore_comm hr, (hmay.markable hmod).takenBack,
      hmarkabler.takenBack, setCore_core]
  · simp only [markCandidate_view, lock_view, FlowView.markPair_of_some hsome hr, setCore_self,
      setCore_of_ne hr, setCore_of_ne hr.symm, setCore_setCore, setCore_comm hr]
    rfl
  · intro r' hr'
    cases hsome.symm.trans hr'
    exact ⟨hr, hmarkabler⟩

omit hmod in
/-- `vr_flow_mark_evict` leaves the table as it was, or marks the flow and its reverse flow. -/
theorem vrFlowMarkEvict_moves (h : s.vrFlowMarkEvict o fe fe = some s') :
    MarkOutcome cfg R running fe s s' := by
  rcases s.vrFlowMarkEvict_eq fe fe with ⟨s₁, heq, hview⟩ | ⟨hstart, hpair⟩
  · cases (heq o).symm.trans h
    exact Or.inl (hview running)
  have hmod := (vrFlowStartModify_eq_some hstart).1
  rcases hpair with ⟨hnone, heq⟩ | ⟨r, hsome, hr, -, hmarkable, heq⟩
  · rw [heq] at h
    exact evictForwardFlow_none hmay hmod hpush hnone h
  · rw [heq] at h
    exact evictForwardFlow_some hmay hmod hpush hsome hr hmarkable h

end

/-! ## Packets of a flow -/

theorem MarkOutcome.of_view (h : MarkOutcome cfg R running fe s₁ s')
    (hview : s₁.viewWith running = s.viewWith running) : MarkOutcome cfg R running fe s s' := by
  have hcore : (s₁.entry fe).core = (s.entry fe).core := congrFun (congrArg core hview) fe
  unfold MarkOutcome at h ⊢
  rwa [hview, hcore] at h

/-- The action of a flow marks it if it is dead, and changes nothing otherwise. -/
theorem vrFlowAction_cases {o : ActionOutcome}
    (h : s.vrFlowAction o fe index pkt = some (s', result)) :
    s' = s ∨ ((s.entry fe).feTcpFlags.dead = true ∧
      s.vrFlowMarkEvict o.transition fe index = some s') := by
  unfold vrFlowAction at h
  split at h
  · cases h
    exact Or.inl rfl
  · cases h
    exact Or.inl rfl
  all_goals
    split at h
    · rename_i hdead
      obtain ⟨s₁, hmark, heq⟩ := Option.map_eq_some_iff.mp h
      cases heq
      exact Or.inr ⟨hdead, hmark⟩
    · cases h
      exact Or.inl rfl

theorem vrFlowAction_moves {o : ActionOutcome}
    (hmay : (s.entry fe).feTcpFlags.dead = true → (s.viewWith running).MayMark R fe)
    (hpush : R.Admits o.transition) (h : s.vrFlowAction o fe fe pkt = some (s', result)) :
    MarkOutcome cfg R running fe s s' := by
  rcases vrFlowAction_cases h with rfl | ⟨hdead, hmark⟩
  · exact Or.inl rfl
  · exact vrFlowMarkEvict_moves (hmay hdead) hpush hmark

/-- `vr_do_flow_action` marks a flow only if it is dead and not on hold. -/
theorem vrDoFlowAction_moves (hmay : (s.entry fe).feTcpFlags.dead = true →
      (s.entry fe).core.hold = false → (s.viewWith running).MayMark R fe)
    (hpush : R.Admits (o.action 0).transition)
    (h : s.vrDoFlowAction o fe fe pkt = some (s', result)) : MarkOutcome cfg R running fe s s' := by
  unfold vrDoFlowAction at h
  dsimp only at h
  have hcount : (s.modify fe fun e => e.countPacket pkt.pktLen).viewWith running =
      s.viewWith running := viewWith_modify_of_core rfl
  split at h
  · cases h
    refine Or.inl ?_
    rw [viewWith_modify_of_core (vrEnqueueFlow_core _ _ _), hcount]
  rename_i hhold
  refine MarkOutcome.of_view (vrFlowAction_moves ?_ hpush h) hcount
  rw [modify_self] at hhold ⊢
  intro hdead
  rw [hcount]
  exact hmay hdead (decide_eq_false hhold)

theorem handlePacket_moves (hmay : ((s.vrFlowTcpDigest fe pkt).entry fe).feTcpFlags.dead = true →
      (s.entry fe).core.hold = false → (s.viewWith running).MayMark R fe)
    (hpush : R.Admits (o.action 0).transition) (h : s.handlePacket o fe pkt = some (s', result)) :
    MarkOutcome cfg R running fe s s' := by
  unfold handlePacket at h
  split at h
  · cases h
    exact Or.inl rfl
  have hdigest : (s.vrFlowTcpDigest fe pkt).viewWith running = s.viewWith running :=
    s.vrFlowTcpDigest_view pkt
  refine MarkOutcome.of_view (vrDoFlowAction_moves ?_ hpush h) hdigest
  intro hdead hhold
  rw [hdigest]
  apply hmay hdead
  have hcore := congrFun (congrArg core hdigest) fe
  exact (congrArg FlowCore.hold hcore).symm.trans hhold

/-! ## Finding and taking entries -/

theorem keyOf_length {k : List Octet} (h : keyOf t (some key) key.length = some k) : k = key := by
  unfold keyOf at h
  dsimp only at h
  generalize hsize : (if key.length = 0 then t.htKeySize else key.length) = size at h
  split at h
  · cases h
  rw [Option.some_inj] at h
  rw [← h]
  apply List.take_of_length_le
  rw [← hsize]
  split <;> omega

theorem getKey_eq (s : FlowSys) : (s.viewWith running).getKey = s.getKey := by
  funext i
  show (s.entry i).core.getKey = (s.entry i).vrFlowGetKey
  unfold FlowEntry.vrFlowGetKey FlowEntry.core
  cases (s.entry i).feFlags.active <;> cases (s.entry i).feFlags.deleteMarked <;> rfl

theorem valid_of_vrFindFlow (h : s.vrFindFlow cfg key = some (some fe)) :
    (s.viewWith running).valid fe = true := by
  unfold vrFindFlow at h
  split at h
  · cases h
  · exact (entryHolds_iff.mp (vrHtableFindHentry_some h)).1

theorem setKey_core (e : FlowEntry) (type : VpType) (key : List Octet) :
    (e.setKey type key).core = { e.core with key := key } := by
  unfold FlowEntry.setKey FlowEntry.core
  simp

theorem activate_core (e : FlowEntry) (key : List Octet) :
    { e.activate.core with key := key } = e.core.activate key := by
  unfold FlowEntry.activate FlowCore.activate
  split
  · rename_i ha
    rw [Bool.not_eq_true'] at ha
    rw [if_neg (by rw [show e.core.active = false from ha]; simp)]
    rfl
  · rename_i ha
    rw [Bool.not_eq_true', Bool.not_eq_false] at ha
    rw [if_pos (show e.core.active = true from ha)]
    split <;> rfl

/-- The queue of an entry that is taken into use. -/
def takenQueue (needHold : Bool) (fe : Nat) (old : Option FlowQueue) : Option FlowQueue :=
  if needHold then some { FlowQueue.zalloc with vfqIndex := fe } else old

/-- What `vr_flow_get_free_entry` writes to the entry it takes. -/
def takenEntry (e : FlowEntry) (fe : Nat) (type : VpType) (key : List Octet) (needHold : Bool) :
    FlowEntry :=
  (e.activate.withQueue (takenQueue needHold fe)).setKey type key

section

variable {type : VpType} {needHold : Bool} {r : Option Nat}
  (h : s.vrFlowGetFreeEntry cfg o key type needHold = some (r, s'))
include h

/-- `vr_flow_get_free_entry` finds no entry, or takes one into use. -/
theorem vrFlowGetFreeEntry_cases :
    (r = none ∧ s' = s) ∨ ∃ fe t, r = some fe ∧ keyOf s.ht.table (some key) key.length = some key ∧
      vrHtableFindFreeHentry s.ht.table (cfg.vrHash key) = some (some fe, t) ∧
      s' = { s.modify fe fun e => takenEntry e fe type key needHold with
        ht := { s.ht with table := t }
        incarnation := update s.incarnation fe (s.incarnation fe + 1) } := by
  unfold vrFlowGetFreeEntry vrFlowTableGetFreeEntry at h
  cases hkey : keyOf s.ht.table (some key) key.length with
  | none =>
    simp only [hkey] at h
    cases h
    exact Or.inl ⟨rfl, rfl⟩
  | some k =>
    obtain rfl := keyOf_length hkey
    cases hfree : vrHtableFindFreeHentry s.ht.table (cfg.vrHash k) with
    | none =>
      simp only [hkey, hfree] at h
      cases h
    | some found =>
      obtain ⟨found, t⟩ := found
      cases found with
      | none =>
        simp only [hkey, hfree] at h
        cases h
        rw [eq_of_vrHtableFindFreeHentry hfree]
        exact Or.inl ⟨rfl, rfl⟩
      | some fe =>
        simp only [hkey, hfree] at h
        refine Or.inr ⟨fe, t, ?_⟩
        -- two writes to the entry, one after the other
        have hwrite : ∀ f : FlowEntry → FlowEntry,
            { s.modify fe FlowEntry.activate with
              ht := { s.ht with table := t }
              incarnation := update s.incarnation fe (s.incarnation fe + 1) }.modify fe f =
            { s.modify fe fun e => f e.activate with
              ht := { s.ht with table := t }
              incarnation := update s.incarnation fe (s.incarnation fe + 1) } := by
          intro f
          unfold modify
          simp only [update_self, update_idem]
        split_ifs at h with hneed
        · cases h
          rw [hneed]
          exact ⟨rfl, rfl, rfl, hwrite _⟩
        · cases h
          rw [Bool.eq_false_iff.mpr hneed]
          exact ⟨rfl, rfl, rfl, hwrite _⟩

theorem vrFlowGetFreeEntry_eq :
    (r = none ∧ s' = s) ∨ ∃ fe t, r = some fe ∧ keyOf s.ht.table (some key) key.length = some key ∧
      vrHtableFindFreeHentry s.ht.table (cfg.vrHash key) = some (some fe, t) ∧
      (∀ running, s'.viewWith running =
        { (s.viewWith running).setCore fe ((s.entry fe).core.activate key) with
          ht := { s.ht with table := t }
          incarnation := update s.incarnation fe (s.incarnation fe + 1) }) ∧
      ∀ i, i ≠ fe → s'.entry i = s.entry i := by
  refine (vrFlowGetFreeEntry_cases h).imp_right ?_
  rintro ⟨fe, t, hr, hkey, hfree, rfl⟩
  refine ⟨fe, t, hr, hkey, hfree, fun running => ?_, fun i hi => update_of_ne hi _ _⟩
  -- of the queue and the key that are written, the protocol sees the key
  have hcore : (takenEntry (s.entry fe) fe type key needHold).core =
      (s.entry fe).core.activate key := by
    rw [← activate_core]
    exact setKey_core _ _ _
  have hview :
      ((s.modify fe fun e => takenEntry e fe type key needHold).viewWith running).core = _ :=
    congrArg core (s.viewWith_modify fe _)
  rw [hcore] at hview
  exact FlowView.ext rfl hview rfl rfl rfl rfl rfl

end

/-! ## `vr_flow_lookup` -/

theorem MarkOutcome.refines (h : MarkOutcome cfg R running fe s s') :
    ReflTransGen (FlowMove cfg R) (s.viewWith running) (s'.viewWith running) := by
  rcases h with h | ⟨-, -, h⟩
  · rw [h]
  · exact .single h

theorem mayMark_of_inv (hinv : FlowInv cfg (s.viewWith running))
    (hvalid : (s.viewWith running).valid fe = true) (hhold : (s.entry fe).core.hold = false)
    (hrule : R.mark (s.viewWith running) fe) : (s.viewWith running).MayMark R fe :=
  ⟨hvalid, hinv.active fe hvalid, hinv.locked fe, hhold, hrule⟩

/-- The view after an entry has been taken into use for a key. -/
def takenView (s : FlowSys) (fe : Nat) (key : List Octet) (t : Htable) : FlowView :=
  { s.view.setCore fe ((s.entry fe).core.activate key) with
    ht := { s.ht with table := t }
    incarnation := update s.incarnation fe (s.incarnation fe + 1) }

theorem vrFlowEntrySetHold_view (cfg : FlowConfig) (running : Option FlowItem) (s : FlowSys)
    (fe cpu : Nat) :
    (cfg.vrNumCpus ≤ cpu ∧ s.vrFlowEntrySetHold cfg cpu fe = s) ∨
      (cpu < cfg.vrNumCpus ∧ (s.vrFlowEntrySetHold cfg cpu fe).viewWith running =
        { (s.viewWith running).setCore fe { (s.viewWith running).core fe with hold := true } with
          info := s.info.countHold cpu }) := by
  unfold vrFlowEntrySetHold
  split
  · rename_i hcpu
    exact Or.inl ⟨hcpu, rfl⟩
  rename_i hcpu
  refine Or.inr ⟨Nat.lt_of_not_le hcpu, ?_⟩
  show { (s.modify fe fun e => { e with feAction := .hold }).viewWith running with
    info := s.info.countHold cpu } = _
  rw [viewWith_modify]
  rfl

theorem eq_of_vrFlowGetEntry {index : Int} (h : s.vrFlowGetEntry index = some fe) : index = fe := by
  unfold vrFlowGetEntry at h
  split at h
  · cases h
  · have := (vrHtableGetHentryByIndex_eq_some h).1
    omega

/-- `vr_find_flow` without a flow: no lookup of the key finds one, if it has a key at all. -/
theorem find_none_of_vrFindFlow (h : s.vrFindFlow cfg key = some none)
    (hkey : keyOf s.ht.table (some key) key.length = some key) :
    vrHtableFindHentry s.ht.table s.getKey key (cfg.vrHash key) = some none := by
  unfold vrFindFlow at h
  rwa [hkey] at h

section

variable (hfind : vrHtableFindHentry s.ht.table s.getKey key (cfg.vrHash key) = some none)
  (hfree : vrHtableFindFreeHentry s.ht.table (cfg.vrHash key) = some (some fe, t))
include hfind hfree

theorem take_move (info : FlowTableInfo) (added : Nat) (hview : s'.view =
      { (s.takenView fe key t).setCore fe c with info := { info with vftiAdded := added } })
    (hkey : c.key = key) (hactive : c.active = true)
    (hmodified : c.modified = ((s.entry fe).core.activate key).modified)
    (hcandidate : c.evictCandidate = ((s.entry fe).core.activate key).evictCandidate)
    (hhold : HoldChange cfg (s.entry fe).core.hold c.hold s.info info ∨
      (s.entry fe).core.hold = true) : FlowMove cfg R s.view s'.view := by
  have hview : s'.view =
      { s.view.setCore fe c with
        ht := { s.ht with table := t }
        info := { info with vftiAdded := added }
        incarnation := update s.incarnation fe (s.incarnation fe + 1) } := by
    rw [hview]
    refine FlowView.ext rfl ?_ rfl rfl rfl rfl rfl
    exact update_idem _ _ _
  rw [hview]
  refine .take fe c added ?_ hfree hkey hactive hmodified hcandidate hhold
  rw [show s.view.getKey = s.getKey from s.getKey_eq]
  exact hfind

/-- The move `take` for a packet: the entry is put on hold, if the CPU's number allows it. -/
theorem take_of_setHold (cpu : Nat) (hview : s₁.view = s.takenView fe key t) :
    FlowMove cfg R s.view (s₁.vrFlowEntrySetHold cfg cpu fe).view ∧
      (((s₁.vrFlowEntrySetHold cfg cpu fe).entry fe).core.hold = false →
        cfg.vrNumCpus ≤ cpu ∧ (s₁.vrFlowEntrySetHold cfg cpu fe).ht.table = t) := by
  have hinfo : s₁.info = s.info := congrArg FlowView.info hview
  have hcore : s₁.view.core fe = (s.entry fe).core.activate key := by
    rw [hview]
    exact setCore_self
  rcases s₁.vrFlowEntrySetHold_view cfg none fe cpu with
    ⟨hcpu, heq⟩ | ⟨hcpu, heq⟩
  · rw [heq]
    refine ⟨take_move hfind hfree s.info s.info.vftiAdded
      ?_ (by simp) (by simp) rfl rfl (Or.inl ?_), fun _ => ⟨hcpu, ?_⟩⟩
    · rw [hview]
      refine FlowView.ext rfl ?_ rfl rfl rfl rfl rfl
      exact (update_idem _ _ _).symm
    · rw [FlowCore.activate_hold]
      exact .same
    · exact congrArg (fun v : FlowView => v.ht.table) hview
  · have heq : (s₁.vrFlowEntrySetHold cfg cpu fe).view = _ := heq
    constructor
    · refine take_move hfind hfree (s.info.countHold cpu) (s.info.countHold cpu).vftiAdded
        (c := { (s.entry fe).core.activate key with hold := true }) ?_ (by simp) (by simp) rfl rfl
        ?_
      · rw [heq, hinfo, ← hview]
        rw [← hcore]
        rfl
      · cases hhold : (s.entry fe).core.hold with
        | false => exact Or.inl (.set hcpu)
        | true => exact Or.inr rfl
    · intro hhold
      have hhold : ((s₁.vrFlowEntrySetHold cfg cpu fe).view.core fe).hold = false := hhold
      rw [heq] at hhold
      rw [setCore_self] at hhold
      cases hhold

end

/-- `vr_flow_lookup`: nothing happens, the packet is handled by the flow of its key, or by a new one
on an entry taken into use for it. -/
theorem vrFlowLookup_cases (h : s.vrFlowLookup cfg o key pkt = some (s', result)) :
    s' = s ∨
      (∃ fe, s.vrFindFlow cfg key = some (some fe) ∧ s.handlePacket o fe pkt = some (s', result)) ∨
      ∃ fe s₁, s.vrFindFlow cfg key = some none ∧
        s.vrFlowGetFreeEntry cfg o key pkt.vpType true = some (some fe, s₁) ∧
        ((s₁.modify fe fun e => { e with feVrf := pkt.fmdDvrf % 2 ^ 16 }).vrFlowEntrySetHold cfg
          o.cpu fe).handlePacket o fe pkt = some (s', result) := by
  unfold vrFlowLookup at h
  split at h
  · cases h
  · rename_i fe hfind
    exact Or.inr (Or.inl ⟨fe, hfind, h⟩)
  rename_i hfind
  split at h
  · cases h
    exact Or.inl rfl
  split at h
  · cases h
    exact Or.inl rfl
  split at h
  · cases h
  · -- no entry is free
    rename_i hget
    cases h
    rcases vrFlowGetFreeEntry_eq hget with ⟨-, hs⟩ | ⟨fe, t, hfe, -⟩
    · exact Or.inl hs
    · cases hfe
  · rename_i fe s₁ hget
    exact Or.inr (Or.inr ⟨fe, s₁, hfind, hget, h⟩)

theorem vrFlowLookup_refines (hinv : FlowInv cfg s.view)
    (hhit : ∀ fe, s.vrFindFlow cfg key = some (some fe) →
      ((s.vrFlowTcpDigest fe pkt).entry fe).feTcpFlags.dead = true → R.mark s.view fe)
    (hmiss : cfg.vrNumCpus ≤ o.cpu → ∀ v i, R.mark v i) (hpush : R.Admits (o.action 0).transition)
    (h : s.vrFlowLookup cfg o key pkt = some (s', result)) :
    ReflTransGen (FlowMove cfg R) s.view s'.view := by
  rcases vrFlowLookup_cases h with rfl | ⟨fe, hfind, h⟩ | ⟨fe, s₁, hfind, hget, h⟩
  · exact .refl
  · refine (handlePacket_moves (fun hdead hhold => ?_) hpush h).refines
    exact mayMark_of_inv hinv (valid_of_vrFindFlow hfind) hhold (hhit fe hfind hdead)
  rcases vrFlowGetFreeEntry_eq hget with ⟨hfe, -⟩ | ⟨fe', t, hfe, hkey, hfree, hview, -⟩
  · cases hfe
  cases hfe
  -- the entry is taken into use, and then it is an entry like any other
  generalize hs₂ : (s₁.modify fe fun e => { e with feVrf := pkt.fmdDvrf % 2 ^ 16 }) = s₂ at h
  have hview₂ : s₂.view = s.takenView fe key t := by
    rw [← hs₂]
    exact (viewWith_modify_of_core rfl).trans (hview none)
  obtain ⟨htake, hheld⟩ := take_of_setHold (find_none_of_vrFindFlow hfind hkey) hfree
    o.cpu hview₂
  refine .head htake (handlePacket_moves (fun _ hhold => ?_) hpush h).refines
  obtain ⟨hcpu, hht⟩ := hheld hhold
  refine mayMark_of_inv (hinv.move htake) ?_ hhold (hmiss hcpu _ _)
  show ((s₂.vrFlowEntrySetHold cfg o.cpu fe).ht.table.hentry fe).flagValid = true
  rw [hht]
  exact (hinv.inserts hfree).valid

end FlowSys

end VRouter
