import VRouter.Flow.Frame
import VRouter.Flow.Lock

/-!
# VRouter — claimed entries and incarnations

The lock of `VRouter.Flow.Lock` seen from outside. A request or packet claims an entry when it
deletes or marks it; until the entry is released, other requests leave it as it is. And a work item
or callback releases no later incarnation of an entry than the one it was made for, if no flow is
marked that a stale item still knows of (`FlowSys.Orderly`); `stale_callback_evicts` shows what
happens otherwise.
-/

namespace VRouter

open FlowView

variable {cfg : FlowConfig} {s s' : FlowSys} {o : FlowOutcome} {req : FlowReq} {fe i : Nat}

namespace FlowSys

/-! ## What a request leaves alone -/

theorem vrFlowEntrySetHold_of_ne {cpu : Nat} (hi : i ≠ fe) :
    (s.vrFlowEntrySetHold cfg cpu fe).entry i = s.entry i := by
  unfold vrFlowEntrySetHold
  split
  · rfl
  · exact modify_of_ne s fe (fun e => { e with feAction := .hold }) hi

theorem writeEntry_of_ne {newFlow : Bool} (hi : i ≠ fe) :
    (s.writeEntry cfg o req fe newFlow).entry i = s.entry i := by
  obtain ⟨x, info, heq, -⟩ := writeEntry_eq cfg s o req fe newFlow
  rw [heq]
  exact modify_of_ne s fe (fun _ => x) hi

theorem vrFlowScheduleTransition_entry {o : TransitionOutcome} {index : Nat} {flags : FlowFlags}
    {ok : Bool} (h : s.vrFlowScheduleTransition o fe index flags = some (s', ok)) :
    s'.entry = s.entry ∧ s'.ht = s.ht := by
  rcases vrFlowScheduleTransition_eq h with ⟨-, rfl⟩ | ⟨-, flmd, rfl, -⟩ <;> exact ⟨rfl, rfl⟩

theorem vrFlowDelete_of_ne {ok : Bool} (hi : i ≠ fe)
    (h : s.vrFlowDelete o req fe = some (s', ok)) : s'.entry i = s.entry i := by
  rw [vrFlowDelete_eq] at h
  rw [(vrFlowScheduleTransition_entry h).1]
  exact modify_of_ne s fe FlowEntry.dropped hi

theorem vrFlowSetChange_of_ne {result : Option Errno × FlowReq} (hi : i ≠ fe)
    (h : s.vrFlowSetChange cfg o req fe = some (s', result)) : s'.entry i = s.entry i := by
  obtain ⟨info, ⟨-, ok, hdelete⟩ | ⟨-, rfl | ⟨s₁, ok, hschedule, rfl⟩⟩⟩ := vrFlowSetChange_cases h
  · exact vrFlowDelete_of_ne (s := { s with info := info }) hi hdelete
  · exact modify_of_ne _ _ _ hi
  rw [modify_of_ne _ _ _ hi, (vrFlowScheduleTransition_entry hschedule).1, writeEntry_of_ne hi]
  unfold attachQueue
  split
  · exact modify_of_ne _ _ _ hi
  · rfl

/-- A request changes no entry that is in use and locked. -/
theorem vrFlowSet_of_locked {result : Option Errno × FlowReq} (hinv : FlowInv cfg s.view)
    (hvalid : s.view.valid i = true) (hmodified : (s.view.core i).modified = true)
    (h : s.vrFlowSet cfg o req = some (s', result)) : s'.entry i = s.entry i := by
  rcases vrFlowSet_cases h with rfl | h | ⟨fe, hget, hfree, -, h⟩
  · rfl
  · rcases vrFlowSetAdd_cases h with rfl | ⟨fe, family, s₁, ok, -, -, hget, hschedule⟩
    · rfl
    · rcases vrFlowGetFreeEntry_eq hget with ⟨hfe, -⟩ | ⟨fe', t, hfe, -, hfree, -, hframe⟩
      · cases hfe
      · cases hfe
        -- a new flow gets an entry that is not in use
        have hi : i ≠ fe := by
          intro hi
          have hfresh : s.view.valid fe = false := (hinv.inserts hfree).fresh
          rw [← hi, hvalid] at hfresh
          cases hfresh
        rw [(vrFlowScheduleTransition_entry hschedule).1, writeEntry_of_ne hi]
        exact hframe i hi
  · have hi : i ≠ fe := by
      intro hi
      rw [hi, show (s.view.core fe).modified = false from hfree] at hmodified
      cases hmodified
    rw [vrFlowSetChange_of_ne hi h]
    exact modify_of_ne _ _ _ hi

/-! ## What a work item or callback releases -/

/-- The entry goes out of use with a step. -/
def Releases (s s' : FlowSys) (i : Nat) : Prop :=
  s.view.valid i = true ∧ s'.view.valid i = false

theorem eq_of_releases {ht : HtSys} (hreleases : s.ht.table.Releases ht.table fe)
    (hvalid : s.view.valid i = true) (hvalid' : (ht.table.hentry i).flagValid = false) :
    i = fe := by
  by_contra hi
  rw [(hreleases i).1, if_neg hi] at hvalid'
  cases hvalid.symm.trans hvalid'

section

variable (hinv : FlowInv cfg s.view)
include hinv

theorem vrFlowWork_releases {flmd : FlowMd} (hcons : flmd.Consistent)
    (h : s.vrFlowWork o flmd = some s') (hrel : s.Releases s' i) :
    flmd.item.delete = true ∧ flmd.item.index = i := by
  obtain ⟨hvalid, hvalid'⟩ := hrel
  rcases vrFlowWork_ends hinv hcons h with ⟨-, rfl⟩ | ⟨fe, s₁, hget, hlasts, hend⟩
  · cases hvalid.symm.trans hvalid'
  have hvalid₁ : s₁.view.valid i = true :=
    (congrFun (valid_of_ht (lasting_ht hlasts.lasting)) i).trans hvalid
  rcases hend with rfl | ⟨vfdd, -, -, -, rfl⟩ | ⟨hdelete, ht, hreleases, rfl⟩
  · cases hvalid₁.symm.trans hvalid'
  · cases hvalid₁.symm.trans hvalid'
  have hi := eq_of_releases hreleases hvalid₁ hvalid'
  have hindex := eq_of_vrFlowGetEntry hget
  refine ⟨?_, ?_⟩
  · show (!flmd.flmdFlags.active) = true
    rw [hdelete]
    rfl
  · show flmd.flmdIndex = i
    omega

theorem vrFlowEvictFlow_releases (h : s.vrFlowEvictFlow o fe = some s') (hrel : s.Releases s' i) :
    i = fe ∧ (s.view.core i).evictCandidate = true := by
  obtain ⟨hvalid, hvalid'⟩ := hrel
  rcases vrFlowEvictFlow_eq h with rfl | ⟨-, hcandidate, ht, hrelease, rfl⟩
  · cases hvalid.symm.trans hvalid'
  · rw [eq_of_releases (hinv.releases hrelease).2.2 hvalid hvalid']
    exact ⟨rfl, hcandidate⟩

/-- An eviction marks nothing, and the invariant holds behind it. -/
theorem vrFlowEvictFlow_keeps (h : s.vrFlowEvictFlow o fe = some s') :
    FlowInv cfg s'.view ∧
      ((s'.view.core i).evictCandidate = true → (s.view.core i).evictCandidate = true) := by
  rcases vrFlowEvictFlow_eq h with rfl | ⟨-, -, ht, hrelease, rfl⟩
  · exact ⟨hinv, id⟩
  · have hview : { s.modify fe FlowEntry.evictCore with ht := ht }.view =
        { s.view.setCore fe (s.view.core fe).evicted with ht := ht } :=
      congrArg (fun v : FlowView => { v with ht := ht }) (s.viewWith_modify fe FlowEntry.evictCore)
    rw [hview]
    refine ⟨hinv.release hrelease (FlowCore.evicted_clean _), ?_⟩
    apply candidate_of_setCore
    exact fun hc => (Bool.false_ne_true hc).elim

theorem vrFlowDeferCb_releases {vfdd : FlowDeferData} (hflushed : vfdd.Flushed)
    (h : s.vrFlowDeferCb o vfdd = some s') (hrel : s.Releases s' i) :
    (vfdd.item.delete = true ∧ vfdd.item.index = i) ∨ (s.view.core i).evictCandidate = true := by
  rcases vrFlowDeferCb_cases hflushed h with ⟨hdelete, h⟩ | ⟨-, s₁, hevict, hrest⟩
  · obtain ⟨ht, hrelease, rfl⟩ := Option.map_eq_some_iff.mp h
    exact Or.inl ⟨hdelete,
      (eq_of_releases (hinv.releases hrelease).2.2 hrel.1 hrel.2).symm⟩
  -- the flow and its reverse flow, one after the other
  right
  rcases hrest with rfl | ⟨rfe, hrest⟩
  · exact (vrFlowEvictFlow_releases hinv hevict hrel).2
  · obtain ⟨hinv₁, hcandidate⟩ := vrFlowEvictFlow_keeps hinv hevict
    cases hvalid : s₁.view.valid i with
    | false => exact (vrFlowEvictFlow_releases hinv hevict ⟨hrel.1, hvalid⟩).2
    | true => exact hcandidate (vrFlowEvictFlow_releases hinv₁ hrest ⟨hvalid, hrel.2⟩).2

end

/-! ## Claims -/

/-- A step claims an entry: it is marked for eviction, or `vr_flow_set` deletes it and returns
zero. -/
def Claims (cfg : FlowConfig) (s : FlowSys) (a : FlowStep) (s' : FlowSys) (i : Nat) : Prop :=
  ((s.entry i).feFlags.evictCandidate = false ∧ (s'.entry i).feFlags.evictCandidate = true) ∨
    ∃ req o resp, a = .request req o ∧ s.vrFlowSet cfg o req = some (s', none, resp) ∧
      req.frFlags.active = false ∧ s.vrFlowGetEntry req.frIndex = some i

/-- A deletion that returns zero is pending from then on. -/
theorem claimed_of_vrFlowSet {resp : FlowReq} (hactive : req.frFlags.active = false)
    (hget : s.vrFlowGetEntry req.frIndex = some i)
    (h : s.vrFlowSet cfg o req = some (s', none, resp)) : s'.view.Claimed i := by
  unfold vrFlowSet at h
  rw [hget] at h
  dsimp only at h
  split at h
  · cases h
  split at h
  · cases h
  unfold vrFlowSetChange at h
  rw [if_pos (by rw [hactive]; rfl)] at h
  obtain ⟨⟨s₁, ok⟩, hdelete, heq⟩ := Option.map_eq_some_iff.mp h
  have hok : ok = true := by
    cases ok with
    | true => rfl
    | false => cases heq
  subst hok
  cases heq
  rcases vrFlowScheduleTransition_eq hdelete with ⟨hok, -⟩ | ⟨-, flmd, rfl, hflmd, -⟩
  · cases hok
  refine Or.inr ⟨flmd.item, ?_, ?_, ?_⟩
  · exact List.mem_append_left _ (List.mem_append_right _
      (List.mem_map_of_mem (List.mem_append_right _ List.mem_cons_self)))
  · rw [hflmd.delete, hactive]
    rfl
  · rw [hflmd.index]
    have := eq_of_vrFlowGetEntry hget
    omega

theorem Claims.claimed {a : FlowStep} (h : s.Claims cfg a s' i) : s'.view.Claimed i := by
  rcases h with ⟨-, hcandidate⟩ | ⟨req, o, resp, -, hset, hactive, hget⟩
  · exact Or.inl hcandidate
  · exact claimed_of_vrFlowSet hactive hget hset

end FlowSys

/-! ## Runs -/

/-- Defer data can be had, if it is asked for. -/
def TransitionOutcome.HasMemory (o : TransitionOutcome) : Prop := o.defer = true ∧ o.vfdd = true

/-- A step in which defer data can be had. -/
def FlowStep.HasMemory : FlowStep → Prop
  | .packet _ _ o => (o.action 0).transition.HasMemory
  | .request _ o => o.transition.HasMemory
  | .work _ o => ∀ slot, (o.action slot).transition.HasMemory
  | .callback _ _ | .htWork _ _ | .htCallback _ | .setNotReady _ => True

/-- No pending item was made for an earlier incarnation of the entry. -/
structure FlowSys.NoStaleItem (s : FlowSys) (i : Nat) : Prop where
  works : ∀ flmd ∈ s.works, ∀ m, (i, m) ∈ flmd.madeFor → m = s.incarnation i
  callbacks : ∀ vfdd ∈ s.callbacks, ∀ m, (i, m) ∈ vfdd.madeFor → m = s.incarnation i

/-- No pending item was made for an earlier incarnation of the flow or of its reverse flow. -/
def FlowSys.FreshPair (s : FlowSys) (fe : Nat) : Prop :=
  ∀ i, i = fe ∨ s.vrFlowGetEntry (s.entry fe).feRflow = some i → s.NoStaleItem i

/-- What `vr_flow_mark_evict` can go wrong without: a packet of a flow that is dead finds no stale
item for the flow or its reverse flow, and neither do held packets that a work item flushes. Packets
of new flows are handled on a CPU that is counted. -/
def FlowSys.MarksFresh (cfg : FlowConfig) (s : FlowSys) : FlowStep → Prop
  | .packet key pkt o =>
    o.cpu < cfg.vrNumCpus ∧ ∀ fe, s.vrFindFlow cfg key = some (some fe) →
      ((s.vrFlowTcpDigest fe pkt).entry fe).feTcpFlags.dead = true → s.FreshPair fe
  | .work n _ =>
    ∀ flmd fe, s.works[n]? = some flmd → s.vrFlowGetEntry flmd.flmdIndex = some fe →
      s.FlushesDead fe → s.FreshPair fe
  | .request _ _ | .callback _ _ | .htWork _ _ | .htCallback _ | .setNotReady _ => True

/-- Defer data can be had, and marks are fresh. -/
def FlowSys.Orderly (cfg : FlowConfig) (s : FlowSys) (a : FlowStep) : Prop :=
  a.HasMemory ∧ s.MarksFresh cfg a

/-- No work item takes marks back. -/
def FlowRules.lock : FlowRules := ⟨fun _ _ => True, fun it => it.takesBack = false, fun _ => True⟩

/-- And only flows are marked that no stale item knows of. -/
def FlowRules.fresh : FlowRules :=
  ⟨fun v i => ∀ j, j = i ∨ v.getEntry (v.core i).rflow = some j → v.NoneStale j,
    fun it => it.takesBack = false, fun _ => True⟩

theorem FlowRules.lock_admits {o : TransitionOutcome} (h : o.HasMemory) : FlowRules.lock.Admits o :=
  fun _ hback => hback h.1 h.2

theorem FlowRules.fresh_admits {o : TransitionOutcome} (h : o.HasMemory) :
    FlowRules.fresh.Admits o :=
  fun _ hback => hback h.1 h.2

namespace FlowSys

variable {a : FlowStep} {n m : Nat}

theorem meets_lock (h : a.HasMemory) : s.Meets cfg .lock a := by
  cases a with
  | packet key pkt o =>
    exact ⟨fun _ _ _ => trivial, fun _ _ _ => trivial, FlowRules.lock_admits h⟩
  | request req o => exact FlowRules.lock_admits h
  | work n o =>
    exact ⟨fun slot => FlowRules.lock_admits (h slot),
      fun _ _ _ _ => ⟨fun _ => trivial, fun _ _ _ _ => trivial⟩⟩
  | callback n o => exact fun _ _ _ => trivial
  | htWork | htCallback | setNotReady => trivial

theorem NoStaleItem.noneStale (h : s.NoStaleItem i) : s.view.NoneStale i := by
  intro it hit m hm
  rcases List.mem_append.mp hit with hit | hit
  · rcases List.mem_append.mp hit with hit | hit
    · cases hit
    · obtain ⟨flmd, hflmd, rfl⟩ := List.mem_map.mp hit
      exact h.works flmd hflmd m hm
  · obtain ⟨vfdd, hvfdd, rfl⟩ := List.mem_map.mp hit
    exact h.callbacks vfdd hvfdd m hm

theorem meets_fresh (h : s.Orderly cfg a) : s.Meets cfg .fresh a := by
  obtain ⟨hmemory, hfresh⟩ := h
  cases a with
  | packet key pkt o =>
    refine ⟨?_, fun hcpu => absurd hcpu (Nat.not_le_of_lt hfresh.1), FlowRules.fresh_admits hmemory⟩
    exact fun fe hfind hdead j hj => (hfresh.2 fe hfind hdead j hj).noneStale
  | request req o => exact FlowRules.fresh_admits hmemory
  | work n o =>
    refine ⟨fun slot => FlowRules.fresh_admits (hmemory slot), ?_⟩
    refine fun flmd fe hget hfe => ⟨fun hdead j hj => ?_, fun _ _ _ _ => trivial⟩
    -- the item that runs counts among those that still have to run
    have hitems := items_work (v := s.view) hget rfl
    have hstale := (hfresh flmd fe hget hfe hdead j hj).noneStale
    exact fun it hit => hstale it (hitems.subset hit)
  | callback n o => exact fun _ _ _ => trivial
  | htWork | htCallback | setNotReady => trivial

theorem initial_lockInv (t : Htable) (notReady : Bool) : LockInv (initial t notReady).view :=
  ⟨fun _ hit => (List.not_mem_nil hit).elim, fun _ => Nat.zero_le _,
    fun _ hit => (List.not_mem_nil hit).elim⟩

theorem initial_freshInv (t : Htable) (notReady : Bool) : FreshInv (initial t notReady).view :=
  fun _ _ _ hit => (List.not_mem_nil hit).elim

section

variable (hinv : FlowInv cfg s.view) (hlock : LockInv s.view)
include hinv hlock

theorem run_lockInv {as : List FlowStep} (hmemory : ∀ a ∈ as, a.HasMemory)
    (hrun : runSteps (FlowSys.step cfg) s as = some s') : FlowInv cfg s'.view ∧ LockInv s'.view :=
  run_of_move (fun _ _ => meets_lock) (fun _ _ hinv hlock hm => hlock.move hinv hm fun _ => id)
    (stepsMeet_of_forall hmemory) hrun hinv hlock

/-- From the step that claims an entry until it is released, requests leave it as it is. -/
theorem locked_until_released {s₁ s₂ : FlowSys} {bs : List FlowStep} (ha : a.HasMemory)
    (hstep : s.step cfg a = some s₁) (hclaims : s.Claims cfg a s₁ i) (hbs : ∀ b ∈ bs, b.HasMemory)
    (hrun : runSteps (FlowSys.step cfg) s₁ bs = some s₂)
    (hinc : s₂.incarnation i = s₁.incarnation i) (hvalid : s₂.view.valid i = true) {s₃ : FlowSys}
    {result : Option Errno × FlowReq} (hset : s₂.vrFlowSet cfg o req = some (s₃, result)) :
    s₃.entry i = s₂.entry i := by
  have hone : runSteps (FlowSys.step cfg) s [a] = some s₁ := runSteps_singleton hstep
  obtain ⟨hinv₁, hlock₁⟩ := run_lockInv hinv hlock (by simpa using ha) hone
  have hsince : s₁.view.ClaimedSince i (s₁.incarnation i) :=
    Or.inr ⟨rfl, Or.inl hclaims.claimed⟩
  obtain ⟨hinv₂, hlock₂, hsince₂⟩ := run_of_move
    (I := fun v => LockInv v ∧ v.ClaimedSince i (s₁.incarnation i))
    (fun _ _ => meets_lock)
    (fun _ _ hinv h hm => ⟨h.1.move hinv hm fun _ => id, h.2.move hinv h.1 hm⟩)
    (stepsMeet_of_forall hbs) hrun hinv₁ ⟨hlock₁, hsince⟩
  rcases hsince₂ with hlater | ⟨-, hclaimed | hreleased⟩
  · exact absurd hinc (Nat.ne_of_gt hlater)
  · obtain ⟨-, hmodified⟩ := hclaimed.locked hinv₂ hlock₂
    exact vrFlowSet_of_locked hinv₂ hvalid hmodified hset
  · cases hvalid.symm.trans hreleased

theorem run_freshInv {as : List FlowStep}
    (hok : StepsMeet (FlowSys.step cfg) (FlowSys.Orderly cfg) s as)
    (hrun : runSteps (FlowSys.step cfg) s as = some s') (hfresh : FreshInv s.view) :
    FlowInv cfg s'.view ∧ LockInv s'.view ∧ FreshInv s'.view :=
  run_of_move (I := fun v => LockInv v ∧ FreshInv v) (fun _ _ => meets_fresh)
    (fun _ _ hinv h hm =>
      ⟨h.1.move hinv hm fun _ => id, h.2.move hinv (fun _ _ hrule => hrule) hm⟩)
    hok hrun hinv ⟨hlock, hfresh⟩

/-- A work item releases no other incarnation of an entry than the one it was made for. -/
theorem work_releases_own {flmd : FlowMd} (hget : s.works[n]? = some flmd)
    (hstep : s.step cfg (.work n o) = some s') (hrel : s.Releases s' i) (hm : (i, m) ∈ flmd.madeFor)
    : m = s.incarnation i := by
  obtain ⟨flmd', hget', h⟩ := step_work hstep
  rw [hget] at hget'
  cases hget'
  have hmem : flmd ∈ s.works := List.mem_of_getElem? hget
  obtain ⟨hdelete, rfl⟩ := vrFlowWork_releases (inv_eraseWork hinv n) (hinv.consistent flmd hmem) h
    hrel
  have hitem : flmd.item ∈ s.view.items := by
    refine List.mem_append_left _ (List.mem_append_right _ ?_)
    exact List.mem_map_of_mem hmem
  exact (hlock.owns flmd.item hitem hdelete).current m hm

theorem callback_releases_own {vfdd : FlowDeferData} (hfresh : FreshInv s.view)
    (hget : s.callbacks[n]? = some vfdd) (hstep : s.step cfg (.callback n o) = some s')
    (hrel : s.Releases s' i) (hm : (i, m) ∈ vfdd.madeFor) : m = s.incarnation i := by
  obtain ⟨vfdd', hget', h⟩ := step_callback hstep
  rw [hget] at hget'
  cases hget'
  have hmem : vfdd ∈ s.callbacks := List.mem_of_getElem? hget
  have hitem : vfdd.item ∈ s.view.items := List.mem_append_right _ (List.mem_map_of_mem hmem)
  rcases vrFlowDeferCb_releases (inv_eraseCallback hinv n) (hinv.flushed vfdd hmem) h hrel with
    ⟨hdelete, rfl⟩ | hcandidate
  · exact (hlock.owns vfdd.item hitem hdelete).current m hm
  · exact hfresh i hcandidate vfdd.item hitem m hm

end

end FlowSys

/-! ## The result -/

/-- Over every orderly run: from the step that claims an entry until it is released, no request
changes it; and the work items and callbacks that were made for an entry release no later
incarnation of it. -/
theorem claims_are_exclusive {entries oentries : Nat} {t : Htable}
    (ht : FlowTableCreated entries oentries t) {cfg : FlowConfig} {notReady : Bool}
    {as : List FlowStep} {s : FlowSys}
    (hok : StepsMeet (FlowSys.step cfg) (FlowSys.Orderly cfg) (.initial t notReady) as)
    (hrun : runSteps (FlowSys.step cfg) (.initial t notReady) as = some s) :
    (∀ a s₁ i bs s₂, a.HasMemory → s.step cfg a = some s₁ → s.Claims cfg a s₁ i →
      (∀ b ∈ bs, b.HasMemory) → runSteps (FlowSys.step cfg) s₁ bs = some s₂ →
      s₂.incarnation i = s₁.incarnation i → s₂.view.valid i = true →
      ∀ req o s₃ result, s₂.vrFlowSet cfg o req = some (s₃, result) → s₃.entry i = s₂.entry i) ∧
    (∀ n o flmd s₁ i m, s.works[n]? = some flmd → s.step cfg (.work n o) = some s₁ →
      s.Releases s₁ i → (i, m) ∈ flmd.madeFor → m = s.incarnation i) ∧
    ∀ n o vfdd s₁ i m, s.callbacks[n]? = some vfdd → s.step cfg (.callback n o) = some s₁ →
      s.Releases s₁ i → (i, m) ∈ vfdd.madeFor → m = s.incarnation i := by
  obtain ⟨hinv, hlock, hfresh⟩ := FlowSys.run_freshInv (ht.inv cfg notReady)
    (FlowSys.initial_lockInv t notReady) hok hrun (FlowSys.initial_freshInv t notReady)
  refine ⟨?_, ?_, ?_⟩
  · intro a s₁ i bs s₂ ha hstep hclaims hbs hrun hinc hvalid req o s₃ result hset
    exact FlowSys.locked_until_released hinv hlock ha hstep hclaims hbs hrun hinc hvalid hset
  · intro n o flmd s₁ i m hget hstep hrel hm
    exact FlowSys.work_releases_own hinv hlock hget hstep hrel hm
  · intro n o vfdd s₁ i m hget hstep hrel hm
    exact FlowSys.callback_releases_own hinv hlock hfresh hget hstep hrel hm

/-- A flow is added, and then deleted: a request that comes before the entry is reset does not
change it. -/
theorem claims_are_exclusive_deleted :
    ∃ t s s₁ s₃ result, FlowTableCreated 8 0 t ∧
      runSteps (FlowSys.step smallConfig) (.initial t false)
        [.request (tcpRequest (-1) 1 0 .forward { active := true } (-1)) allSucceed] = some s ∧
      s.Claims smallConfig (.request (tcpRequest 4 1 1 .forward {} (-1)) allSucceed) s₁ 4 ∧
      s₁.vrFlowSet smallConfig allSucceed (tcpRequest 4 1 1 .drop { active := true } (-1)) =
        some (s₃, result) ∧ s₃.entry 4 = s₁.entry 4 := by
  let as := [FlowStep.request (tcpRequest (-1) 1 0 .forward { active := true } (-1)) allSucceed]
  have hrun := smallEnd_run as rfl
  have hp : ((smallEnd as rfl).vrFlowSet smallConfig allSucceed
      (tcpRequest 4 1 1 .forward {} (-1))).any (fun r => decide (r.2.1 = none) &&
        r.1.view.valid 4 && (r.1.vrFlowSet smallConfig allSucceed
          (tcpRequest 4 1 1 .drop { active := true } (-1))).isSome) = true := by decide +kernel
  obtain ⟨⟨s₁, code, resp⟩, hset, hp⟩ := (Option.any_eq_true _ _).mp hp
  simp only [Bool.and_eq_true, decide_eq_true_iff] at hp
  obtain ⟨⟨rfl, hvalid⟩, hsome⟩ := hp
  obtain ⟨⟨s₃, result⟩, hset'⟩ := Option.isSome_iff_exists.mp hsome
  have hclaims : (smallEnd as rfl).Claims smallConfig
      (.request (tcpRequest 4 1 1 .forward {} (-1)) allSucceed) s₁ 4 :=
    Or.inr ⟨_, _, resp, rfl, hset, rfl, by decide +kernel⟩
  have hok : StepsMeet (FlowSys.step smallConfig) (FlowSys.Orderly smallConfig)
      (.initial smallTable false) as := ⟨⟨⟨rfl, rfl⟩, trivial⟩, fun _ _ => trivial⟩
  have hstep : (smallEnd as rfl).step smallConfig
      (.request (tcpRequest 4 1 1 .forward {} (-1)) allSucceed) = some s₁ :=
    Option.map_eq_some_iff.mpr ⟨_, hset, rfl⟩
  exact ⟨smallTable, _, s₁, s₃, result, smallTable_created, hrun, hclaims, hset',
    (claims_are_exclusive smallTable_created hok hrun).1
      (.request (tcpRequest 4 1 1 .forward {} (-1)) allSucceed) s₁ 4 [] s₁ ⟨rfl, rfl⟩ hstep hclaims
      (by simp) rfl rfl hvalid _ _ s₃ result hset'⟩

/-! ## Stale callbacks -/

/-- A flow is added and changed, which leaves a callback, then closed by a RST and evicted; its
entry is taken for another flow, which a RST closes as well. -/
def staleRun : List FlowStep :=
  [.packet (tcpKey 2) (tcpPacket false) allSucceed,
    .request (tcpRequest 0 2 1 .forward { active := true } (-1)) allSucceed,
    .work 0 allSucceed,
    .packet (tcpKey 2) (tcpPacket true) allSucceed,
    .work 0 allSucceed,
    .callback 1 allSucceed,
    .request (tcpRequest (-1) 4 0 .forward { active := true } (-1)) allSucceed,
    .packet (tcpKey 4) (tcpPacket true) allSucceed]

/-- The first callback was made for the first incarnation of entry 0. When it runs, after the entry
has been evicted and taken into use again, it evicts the second one. -/
theorem stale_callback_evicts :
    ∃ t s s₁ vfdd, FlowTableCreated 8 0 t ∧ (∀ a ∈ staleRun, a.HasMemory) ∧
      runSteps (FlowSys.step smallConfig) (.initial t false) staleRun = some s ∧
      s.callbacks[0]? = some vfdd ∧ (0, 1) ∈ vfdd.madeFor ∧ s.incarnation 0 = 2 ∧
      s.step smallConfig (.callback 0 allSucceed) = some s₁ ∧ s.Releases s₁ 0 := by
  refine ⟨smallTable, smallEnd staleRun rfl, _, _, smallTable_created, ?_, rfl, rfl,
    by decide +kernel, rfl, rfl, rfl, rfl⟩
  simp [staleRun, FlowStep.HasMemory, TransitionOutcome.HasMemory, allSucceed]

end VRouter
