import VRouter.Flow.RefineRequest
import VRouter.Flow.RefineStep

/-!
# VRouter — runs of the flow module

Every step of the flow module is a sequence of moves of the protocol (`FlowSys.step_refines`), so
what all moves keep holds in every state that a run reaches (`FlowSys.run_inv`).

The first result about runs is that keys are unique: `at_most_one_entry_per_key`. Entries change
hands in several ways (a packet that misses, a request, a deletion, an eviction after which the
entry is still active), and lookups pass over entries that are being deleted, so that a key can be
taken into use again while its old entry is waiting for its callback.
-/

namespace VRouter

open LongestMatch Relation

variable {cfg : FlowConfig} {R : FlowRules} {s s' : FlowSys}

/-! ## Steps -/

/-- A step meets the rules of a run: a flow is marked only where the rules allow it, work items are
made as they say, and deletions reset only what they allow. -/
def FlowSys.Meets (cfg : FlowConfig) (R : FlowRules) (s : FlowSys) : FlowStep → Prop
  | .packet key pkt o =>
    (∀ fe, s.vrFindFlow cfg key = some (some fe) →
      ((s.vrFlowTcpDigest fe pkt).entry fe).feTcpFlags.dead = true → R.mark s.view fe) ∧
    (cfg.vrNumCpus ≤ o.cpu → ∀ v i, R.mark v i) ∧ R.Admits (o.action 0).transition
  | .request _ o => R.Admits o.transition
  | .work n o =>
    (∀ slot, R.Admits (o.action slot).transition) ∧
    ∀ flmd fe, s.works[n]? = some flmd → s.vrFlowGetEntry flmd.flmdIndex = some fe →
      (s.FlushesDead fe →
        R.mark ({ s with works := s.works.eraseIdx n }.viewWith (some flmd.item)) fe) ∧
      (flmd.item.delete = true → flmd.vfdd? = none →
        ∀ c : FlowCore, c.hold = (s.entry fe).core.hold → R.reset c)
  | .callback n _ =>
    ∀ vfdd, s.callbacks[n]? = some vfdd → vfdd.vfddDelete = true →
      R.reset (s.entry vfdd.vfddFe).core
  | .htWork _ _ | .htCallback _ | .setNotReady _ => True

variable {oentries entries i : Nat} {as : List FlowStep} {key : List Octet} {a : FlowStep}
    {t : Htable}

namespace FlowSys

variable {o : FlowOutcome} {n : Nat}

theorem step_work (h : s.step cfg (.work n o) = some s') : ∃ flmd, s.works[n]? = some flmd ∧
      { s with works := s.works.eraseIdx n }.vrFlowWork o flmd = some s' := by
  simp only [step] at h
  split at h
  · cases h
  · rename_i flmd hget
    exact ⟨flmd, hget, h⟩

theorem step_callback (h : s.step cfg (.callback n o) = some s') :
    ∃ vfdd, s.callbacks[n]? = some vfdd ∧
      { s with callbacks := s.callbacks.eraseIdx n }.vrFlowDeferCb o vfdd = some s' := by
  simp only [step] at h
  split at h
  · cases h
  · rename_i vfdd hget
    exact ⟨vfdd, hget, h⟩

theorem inv_eraseWork (hinv : FlowInv cfg s.view) (n : Nat) :
    FlowInv cfg { s with works := s.works.eraseIdx n }.view :=
  hinv.of_eq rfl rfl (fun _ hmem => hinv.consistent _ (List.mem_of_mem_eraseIdx hmem)) hinv.flushed

theorem inv_eraseCallback (hinv : FlowInv cfg s.view) (n : Nat) :
    FlowInv cfg { s with callbacks := s.callbacks.eraseIdx n }.view :=
  hinv.of_eq rfl rfl hinv.consistent fun _ hmem => hinv.flushed _ (List.mem_of_mem_eraseIdx hmem)

theorem htStep_eq {a : HtStep} (h : (s.ht.step a).map (fun ht => { s with ht := ht }) = some s') :
    ∃ ht, s.ht.step a = some ht ∧ s' = { s with ht := ht } := by
  obtain ⟨ht, hht, rfl⟩ := Option.map_eq_some_iff.mp h
  exact ⟨ht, hht, rfl⟩

theorem htStep_refines {a : HtStep} (ha : a.Rests)
    (h : (s.ht.step a).map (fun ht => { s with ht := ht }) = some s') :
    ReflTransGen (FlowMove cfg R) s.view s'.view := by
  obtain ⟨ht, hht, rfl⟩ := htStep_eq h
  exact .single (.table ha hht)

theorem step_refines (hinv : FlowInv cfg s.view) (hmeets : s.Meets cfg R a)
    (h : s.step cfg a = some s') : ReflTransGen (FlowMove cfg R) s.view s'.view := by
  cases a with
  | packet key pkt o =>
    obtain ⟨⟨s₁, result⟩, hlookup, rfl⟩ := Option.map_eq_some_iff.mp h
    exact vrFlowLookup_refines hinv hmeets.1 hmeets.2.1 hmeets.2.2 hlookup
  | request req o =>
    obtain ⟨⟨s₁, result⟩, hset, rfl⟩ := Option.map_eq_some_iff.mp h
    exact vrFlowSet_refines hmeets hset
  | work n o =>
    obtain ⟨flmd, hget, h⟩ := step_work h
    -- the work item is taken off the queue, then it runs
    have hstart : FlowMove cfg R s.view
        ({ s with works := s.works.eraseIdx n }.viewWith (some flmd.item)) := .work hget rfl
    refine .head hstart (vrFlowWork_refines (hinv.move hstart) ?_ hmeets.1 ?_ ?_ h)
    · exact hinv.consistent flmd (List.mem_of_getElem? hget)
    · exact fun fe hfe => (hmeets.2 flmd fe hget hfe).1
    · exact fun fe hfe => (hmeets.2 flmd fe hget hfe).2
  | callback n o =>
    obtain ⟨vfdd, hget, h⟩ := step_callback h
    have hstart : FlowMove cfg R s.view
        ({ s with callbacks := s.callbacks.eraseIdx n }.viewWith (some vfdd.item)) :=
      .callback hget rfl
    refine .head hstart (vrFlowDeferCb_refines ?_ (hmeets vfdd hget) h)
    exact hinv.flushed vfdd (List.mem_of_getElem? hget)
  | htWork | htCallback => exact htStep_refines (by trivial) h
  | setNotReady notReady => exact htStep_refines (a := .setNotReady notReady) trivial h

end FlowSys

/-! ## Runs -/

/-- A flow table as the module makes it: fewer than 4 GB for the main entries and for the overflow
entries. -/
structure FlowTableCreated (entries oentries : Nat) (t : Htable) : Prop where
  init : vrFlowTableInit entries oentries = some t
  fit : t.EntriesFit sizeofFlowEntry

theorem FlowTableCreated.inv (h : FlowTableCreated entries oentries t) (cfg : FlowConfig)
    (notReady : Bool) : FlowInv cfg (FlowSys.initial t notReady).view := by
  have hc := (vrHtableCreate_created h.init).1
  have hlt := h.fit.lt
  have hunused : ∀ i, ¬ (FlowSys.initial t notReady).view.valid i = true := by
    intro i hi
    cases (hc.not_valid i).symm.trans hi
  have htile : t.BucketsTile := by
    have hsize : t.htBucketSize = 2 ^ 2 := (vrHtableCreate_created h.init).2.2.2.1
    exact bucketsTile_of_two_pow hsize hc.dvd hc.hentries_pos (by omega)
  exact
    { keyed :=
        ⟨(hc.keyedInv hlt cfg.vrHash notReady).inv, fun _ _ => Iff.rfl,
          fun i hi => absurd hi (hunused i), fun i hi => absurd hi (hunused i)⟩
      tile := htile
      clean := fun _ _ => ⟨rfl, rfl, rfl⟩
      active := fun i hi => absurd hi (hunused i)
      unique := fun i j hi => absurd hi (hunused i)
      locked := fun _ hi => nomatch hi
      consistent := fun _ hmem => nomatch hmem
      flushed := fun _ hmem => nomatch hmem }

/-- What all moves under some rules keep holds after every run whose steps meet these rules. -/
theorem FlowSys.run_of_move {I : FlowView → Prop} {ok : FlowSys → FlowStep → Prop}
    (hmeets : ∀ s a, ok s a → s.Meets cfg R a)
    (hmove : ∀ v v', FlowInv cfg v → I v → FlowMove cfg R v v' → I v')
    (hok : StepsMeet (FlowSys.step cfg) ok s as) (hrun : runSteps (FlowSys.step cfg) s as = some s')
    (hinv : FlowInv cfg s.view) (hI : I s.view) : FlowInv cfg s'.view ∧ I s'.view := by
  refine runSteps_invariant_of_refines view (FlowMove cfg R) (I := fun v => FlowInv cfg v ∧ I v)
    ?_ ?_ ⟨hinv, hI⟩ hok hrun
  · exact fun s a s' hinv ha hs => step_refines hinv.1 (hmeets s a ha) hs
  · exact fun v v' hinv hm => ⟨hinv.1.move hm, hmove v v' hinv.1 hinv.2 hm⟩

/-- Without rules: every step meets them. -/
def FlowRules.any : FlowRules := ⟨fun _ _ => True, fun _ => True, fun _ => True⟩

theorem FlowSys.meets_any (s : FlowSys) (a : FlowStep) : s.Meets cfg .any a := by
  have hadmits : ∀ o : TransitionOutcome, FlowRules.any.Admits o := fun _ _ _ => trivial
  cases a with
  | packet key pkt o => exact ⟨fun _ _ _ => trivial, fun _ _ _ => trivial, hadmits _⟩
  | request req o => exact hadmits _
  | work n o =>
    exact ⟨fun _ => hadmits _, fun _ _ _ _ => ⟨fun _ => trivial, fun _ _ _ _ => trivial⟩⟩
  | callback n o => exact fun _ _ _ => trivial
  | htWork | htCallback | setNotReady => trivial

theorem FlowSys.step_inv (hinv : FlowInv cfg s.view) (h : s.step cfg a = some s') :
    FlowInv cfg s'.view :=
  (step_refines hinv (s.meets_any a) h).rec hinv fun _ hmove ih => ih.move hmove

theorem FlowSys.run_inv (ht : FlowTableCreated entries oentries t) {notReady : Bool}
    (hrun : runSteps (FlowSys.step cfg) (.initial t notReady) as = some s) :
    FlowInv cfg s.view := by
  refine runSteps_invariant (I := fun s : FlowSys => FlowInv cfg s.view) ?_ (ht.inv cfg notReady)
    hrun
  exact fun _ _ _ => step_inv

/-! ## A small table

One CPU, two buckets of four entries, and a hash function that takes the bucket from the low octet
of the source port. -/

def smallConfig : FlowConfig where
  vrHash := fun k => (octet k 4).val * 4
  vrNumCpus := 1
  vrFlowHoldLimit := 0
  vrMaxVrfs := 1
  vrMaxMirrorIndices := 1
  vrNumCpus_lt := by decide

/-- Every allocation succeeds, and packets pass every check. -/
def allSucceed : FlowOutcome where
  cpu := 0
  queueAlloc := true
  cloned := true
  action := fun _ => ⟨fun _ => .valid, true, ⟨true, true, true, true⟩⟩
  vifPresent := fun _ => true
  transition := ⟨true, true, true, true⟩
  mirrorExists := fun _ => true
  jhash := 0
  htScheduled := fun _ => true

/-- A request for the TCP flow with this source port. -/
def tcpRequest (index : Int) (sport genId : Nat) (action : FlowAction) (flags : FlowFlags)
    (rindex : Int) : FlowReq where
  frIndex := index
  frRindex := rindex
  frAction := action
  frFlags := flags
  frFamily := some .inet
  frFlowIp := []
  frFlowSport := sport
  frFlowDport := 1
  frFlowProto := 6
  frFlowNhId := 1
  frFlowVrf := 0
  frFlowDvrf := 0
  frSrcNhIndex := 0
  frEcmpNhIndex := 0
  frMirId := 0
  frSecMirId := 0
  frQosId := 0
  frTtl := 0
  frDropReason := 0
  frGenId := genId
  frFlowBytes := 0
  frFlowPackets := 0
  frFlowStatsOflow := 0

/-- A TCP packet, with or without RST. -/
def tcpPacket (rst : Bool) : FlowPacket where
  pktLen := 40
  vpType := .ip
  fmdDvrf := 0
  relaxedPolicy := false
  inetAllowsNewFlow := true
  vifAllowsNewFlow := true
  tcp := some ⟨rst, false, false, false, 0, 0, 20, 5⟩

/-- The key of that flow. -/
def tcpKey (sport : Nat) : List Octet := vrInetFillFlow 1 [] 6 sport 1

def smallTable : Htable := (vrFlowTableInit 8 0).get rfl

theorem smallTable_created : FlowTableCreated 8 0 smallTable :=
  ⟨rfl, by decide, ⟨by decide, by decide⟩, ⟨by decide, by decide⟩⟩

/-- The end of a run of this table. -/
def smallEnd (as : List FlowStep)
    (h : (runSteps (FlowSys.step smallConfig) (.initial smallTable false) as).isSome) : FlowSys :=
  (runSteps (FlowSys.step smallConfig) (.initial smallTable false) as).get h

theorem smallEnd_run (as : List FlowStep)
    (h : (runSteps (FlowSys.step smallConfig) (.initial smallTable false) as).isSome) :
    runSteps (FlowSys.step smallConfig) (.initial smallTable false) as = some (smallEnd as h) :=
  (Option.some_get h).symm

/-! ## Keys are unique -/

/-- The entry is valid, active and not marked for deletion, and has this key. -/
structure FlowSys.IsLive (s : FlowSys) (key : List Octet) (i : Nat) : Prop where
  valid : (s.ht.table.hentry i).flagValid = true
  active : (s.entry i).feFlags.active = true
  deleteMarked : (s.entry i).feFlags.deleteMarked = false
  key : (s.entry i).feKey.take (s.entry i).feKeyLen = key

theorem FlowSys.IsLive.visible (h : s.IsLive key i) : (s.view.core i).visible = true := by
  show ((s.entry i).feFlags.active && !(s.entry i).feFlags.deleteMarked) = true
  rw [h.active, h.deleteMarked]
  rfl

theorem FlowSys.isLive_iff : s.IsLive key i ↔ s.view.valid i = true ∧ s.getKey i = some key := by
  have hgetKey : s.getKey i = (s.view.core i).getKey := (congrFun s.getKey_eq i).symm
  rw [hgetKey, FlowCore.getKey_eq_some]
  constructor
  · exact fun h => ⟨h.valid, h.visible, h.key⟩
  · intro ⟨hvalid, hvisible, hkey⟩
    have hvisible := Bool.and_eq_true_iff.mp hvisible
    have hdelete : (s.view.core i).deleteMarked = false := by simpa using hvisible.2
    exact ⟨hvalid, hvisible.1, hdelete, hkey⟩

/-- In every state that a run reaches there is at most one live entry for a key. -/
theorem at_most_one_entry_per_key {entries oentries : Nat} {t : Htable}
    (ht : FlowTableCreated entries oentries t) {cfg : FlowConfig} {notReady : Bool}
    {as : List FlowStep} {s : FlowSys}
    (hrun : runSteps (FlowSys.step cfg) (.initial t notReady) as = some s) (key : List Octet)
    (i j : Nat) (hi : s.IsLive key i) (hj : s.IsLive key j) : i = j := by
  have hinv := FlowSys.run_inv ht hrun
  exact hinv.unique i j hi.valid hj.valid hi.visible hj.visible (hi.key.trans hj.key.symm)

/-- A flow is deleted and, before its entry has been reset, added again. -/
def addDeleteAdd : List FlowStep :=
  [.request (tcpRequest (-1) 1 0 .forward { active := true } (-1)) allSucceed,
    .request (tcpRequest 4 1 1 .forward {} (-1)) allSucceed,
    .request (tcpRequest (-1) 1 0 .forward { active := true } (-1)) allSucceed]

/-- Entry 4 is still there with the key, but marked; the live entry is entry 5. -/
theorem at_most_one_entry_per_key_added_again :
    ∃ t s, FlowTableCreated 8 0 t ∧
      runSteps (FlowSys.step smallConfig) (.initial t false) addDeleteAdd = some s ∧
      s.IsLive (tcpKey 1) 5 ∧ ∀ i, s.IsLive (tcpKey 1) i → i = 5 := by
  have hlive : (smallEnd addDeleteAdd rfl).IsLive (tcpKey 1) 5 := ⟨rfl, rfl, rfl, rfl⟩
  have hrun := smallEnd_run addDeleteAdd rfl
  exact ⟨smallTable, _, smallTable_created, hrun, hlive,
    fun i hi => at_most_one_entry_per_key smallTable_created hrun _ i 5 hi hlive⟩

/-- **A lookup returns the live entry of its key, or nothing if there is none**, after every run. -/
theorem vrFindFlow_live (ht : FlowTableCreated entries oentries t) {notReady : Bool}
    (hrun : runSteps (FlowSys.step cfg) (.initial t notReady) as = some s) (hkey : key ≠ []) :
    ∃ r, s.vrFindFlow cfg key = some r ∧ ∀ i, r = some i ↔ s.IsLive key i := by
  have hinv := FlowSys.run_inv ht hrun
  obtain ⟨r, hr, hnone, hsome⟩ := hinv.keyed.find hinv.tile
    (fun _ _ hi hk => congrArg some (FlowSys.isLive_iff (s := s).mpr ⟨hi, hk⟩).key) key
  have hk : keyOf s.ht.table (some key) key.length = some key := by simp [keyOf, hkey]
  refine ⟨r, by rw [FlowSys.vrFindFlow, hk]; exact hr, fun i => ⟨fun h => ?_, fun hi => ?_⟩⟩
  · exact FlowSys.isLive_iff.mpr (hsome i h)
  · cases r with
    | none => exact absurd (FlowSys.isLive_iff.mp hi).2 (hnone rfl i hi.valid)
    | some e =>
      have he := FlowSys.isLive_iff.mpr (hsome e rfl)
      rw [hinv.unique e i he.valid hi.valid he.visible hi.visible (he.key.trans hi.key.symm)]

theorem vrFindFlow_live_again :
    (smallEnd addDeleteAdd rfl).vrFindFlow smallConfig (tcpKey 1) = some (some 5) := by
  obtain ⟨r, hr, h⟩ := vrFindFlow_live smallTable_created (smallEnd_run addDeleteAdd rfl)
    (show tcpKey 1 ≠ [] by decide)
  rw [hr, (h 5).mpr ⟨rfl, rfl, rfl, rfl⟩]

end VRouter
