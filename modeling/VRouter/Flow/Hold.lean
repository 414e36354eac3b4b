import VRouter.Flow.Lock

/-!
# VRouter — counting the flows on hold

A flow that goes on hold is counted on the CPU it goes on hold on, in 32 bits, and a flow that
leaves hold is counted in one 64-bit counter for all CPUs. When a CPU's counter is about to overflow
it is reduced together with the 64-bit counter. `HoldChange.balance` says that the counters follow
a flow in all cases, and `hold_counters_balance` that their difference is the number of entries on
hold in every state a run reaches, if no deletion resets an entry that is on hold
(`FlowSys.ResetsUnheld`). A deletion takes its entry off hold when it is requested and does not look
at it again; `reset_of_held_entry` is a run in which the entry has been put on hold since then.
-/

namespace VRouter

open LongestMatch Finset FlowView FlowSys Function

variable {cfg : FlowConfig} {R : FlowRules} {v v' : FlowView} {i : Nat}

/-! ## Sums -/

variable {info : FlowTableInfo} {others n : Nat} {s : FlowSys} {t : Htable}

theorem sum_range_update (hi : i < n) (f : Nat → Nat) (x : Nat) :
    ∑ j ∈ range n, update f i x j + f i = ∑ j ∈ range n, f j + x := by
  have hmem : i ∈ range n := mem_range.mpr hi
  rw [sum_update_of_mem hmem, ← add_sum_erase _ f hmem, sdiff_singleton_eq_erase]
  omega

/-! ## The counters -/

/-- What the CPUs have counted. -/
def FlowTableInfo.holds (cfg : FlowConfig) (info : FlowTableInfo) : Nat :=
  ∑ cpu ∈ range cfg.vrNumCpus, info.vftiHoldCount cpu

/-- A CPU's counter is a 32-bit number. -/
def FlowTableInfo.Small (info : FlowTableInfo) : Prop := ∀ cpu, info.vftiHoldCount cpu < 2 ^ 32

/-- Counting a flow on hold, when the others are fewer than the counters can tell. -/
theorem FlowTableInfo.countHold_balance {cpu : Nat} (hcpu : cpu < cfg.vrNumCpus)
    (hsmall : info.Small) (hothers : others + 1 < 2 ^ 32)
    (h : info.holds cfg = info.vftiActionCount + others) : (info.countHold cpu).Small ∧
      (info.countHold cpu).holds cfg = (info.countHold cpu).vftiActionCount + (others + 1) := by
  have hsum : ∀ x, ∑ j ∈ range cfg.vrNumCpus, update info.vftiHoldCount cpu x j +
      info.vftiHoldCount cpu = info.holds cfg + x := fun x => sum_range_update hcpu _ x
  have hsmall' : ∀ x, x < 2 ^ 32 → ∀ j, update info.vftiHoldCount cpu x j < 2 ^ 32 := by
    intro x hx j
    rw [update_apply]
    split
    · exact hx
    · exact hsmall j
  unfold FlowTableInfo.countHold FlowTableInfo.holds
  by_cases hfull : (info.vftiHoldCount cpu + 1) % 2 ^ 32 < info.vftiHoldCount cpu
  · simp only [if_pos hfull]
    by_cases hfold : info.vftiHoldCount cpu < info.vftiActionCount
    · simp only [if_pos hfold, update_self, update_idem]
      refine ⟨hsmall' _ (Nat.mod_lt _ (by decide)), ?_⟩
      have := hsum ((0 + 1) % 2 ^ 32)
      omega
    · simp only [if_neg hfold, update_self, update_idem]
      refine ⟨hsmall' _ (Nat.mod_lt _ (by decide)), ?_⟩
      have := hsum ((info.vftiHoldCount cpu - info.vftiActionCount + 1) % 2 ^ 32)
      -- the counter cannot be full if no flow has left hold
      omega
  · simp only [if_neg hfull]
    refine ⟨hsmall' _ (Nat.mod_lt _ (by decide)), ?_⟩
    have := hsum ((info.vftiHoldCount cpu + 1) % 2 ^ 32)
    omega

theorem FlowTableInfo.holds_lt (cfg : FlowConfig) (hsmall : info.Small) :
    info.holds cfg < 2 ^ 64 := by
  have hsum : info.holds cfg ≤ ∑ _cpu ∈ range cfg.vrNumCpus, (2 ^ 32 - 1) :=
    sum_le_sum fun cpu _ => Nat.le_sub_one_of_lt (hsmall cpu)
  rw [sum_const, card_range, smul_eq_mul] at hsum
  have hcpus := Nat.mul_le_mul_right (2 ^ 32 - 1) (Nat.le_of_lt cfg.vrNumCpus_lt)
  omega

/-- The counters follow an entry that goes on hold or leaves hold. -/
theorem HoldChange.balance {hold hold' : Bool} {info' : FlowTableInfo}
    (hchange : HoldChange cfg hold hold' info info') (hsmall : info.Small)
    (hothers : others + 1 < 2 ^ 32)
    (h : info.holds cfg = info.vftiActionCount + (others + if hold then 1 else 0)) : info'.Small ∧
      info'.holds cfg = info'.vftiActionCount + (others + if hold' then 1 else 0) := by
  cases hchange with
  | same => exact ⟨hsmall, h⟩
  | set hcpu => exact FlowTableInfo.countHold_balance hcpu hsmall hothers h
  | leave =>
    refine ⟨hsmall, ?_⟩
    have hlt := FlowTableInfo.holds_lt cfg hsmall
    have hsame : info.countAction.holds cfg = info.holds cfg := rfl
    have hcount : info.countAction.vftiActionCount = (info.vftiActionCount + 1) % 2 ^ 64 := rfl
    simp only [if_true, Bool.false_eq_true, if_false] at h ⊢
    omega

/-! ## The entries on hold -/

/-- One for a flow on hold. -/
def FlowCore.held (c : FlowCore) : Nat := if c.hold then 1 else 0

theorem FlowCore.held_le_one (c : FlowCore) : c.held ≤ 1 := by
  unfold held
  split <;> omega

/-- The number of entries, those of the overflow table included. -/
def FlowView.size (v : FlowView) : Nat := v.ht.table.htHentries + v.ht.table.htOentries

theorem FlowView.size_of_shape (hshape : v'.ht.table.shape = v.ht.table.shape) :
    v'.size = v.size := by
  obtain ⟨hE, hO, -, -⟩ := Htable.sizes_of_shape hshape
  unfold size
  rw [hE, hO]

/-- The number of entries on hold. -/
def FlowView.heldCount (v : FlowView) : Nat := ∑ i ∈ range v.size, (v.core i).held

theorem FlowView.heldCount_split (hi : i < v.size) :
    ∃ others, others + 1 ≤ v.size ∧ v.heldCount = others + (v.core i).held ∧
      ∀ c, (v.setCore i c).heldCount = others + c.held := by
  have hmem : i ∈ range v.size := mem_range.mpr hi
  refine ⟨∑ j ∈ (range v.size).erase i, (v.core j).held, ?_, ?_, ?_⟩
  · have hle : ∑ j ∈ (range v.size).erase i, (v.core j).held ≤ ∑ _j ∈ (range v.size).erase i, 1 :=
      sum_le_sum fun j _ => (v.core j).held_le_one
    rw [sum_const, card_erase_of_mem hmem, card_range, smul_eq_mul] at hle
    omega
  · exact (sum_erase_add _ _ hmem).symm
  intro c
  have hrest : ∑ j ∈ (range v.size).erase i, ((v.setCore i c).core j).held =
      ∑ j ∈ (range v.size).erase i, (v.core j).held := by
    refine sum_congr rfl fun j hj => ?_
    rw [setCore_of_ne (ne_of_mem_erase hj)]
  have hsum := sum_erase_add (range v.size) (fun j => ((v.setCore i c).core j).held) hmem
  rw [hrest, setCore_self] at hsum
  exact hsum.symm

/-- What the moves keep about the counters. -/
structure HoldInv (cfg : FlowConfig) (v : FlowView) : Prop where
  size : v.size < 2 ^ 32
  small : v.info.Small
  balance : v.info.holds cfg = v.info.vftiActionCount + v.heldCount
  unheld : ∀ i, (v.core i).evictCandidate = true → (v.core i).hold = false

namespace HoldInv

theorem of_hold (h : HoldInv cfg v) (hsize : v'.size = v.size)
    (hholds : v'.info.vftiHoldCount = v.info.vftiHoldCount)
    (haction : v'.info.vftiActionCount = v.info.vftiActionCount)
    (hhold : ∀ j, (v'.core j).hold = (v.core j).hold)
    (hunheld : ∀ j, (v'.core j).evictCandidate = true → (v.core j).hold = false) :
    HoldInv cfg v' := by
  have hcount : v'.heldCount = v.heldCount := by
    unfold heldCount FlowCore.held
    simp only [hsize, hhold]
  refine ⟨hsize ▸ h.size, ?_, ?_, fun j hj => (hhold j).trans (hunheld j hj)⟩
  · intro cpu
    rw [hholds]
    exact h.small cpu
  · unfold FlowTableInfo.holds
    rw [hholds, haction, hcount]
    exact h.balance

variable {c : FlowCore}

theorem setCore (h : HoldInv cfg v) (hi : i < v.size)
    (hchange : HoldChange cfg (v.core i).hold c.hold v.info info)
    (hunheld : c.evictCandidate = true → c.hold = false) :
    HoldInv cfg { v.setCore i c with info := info } := by
  obtain ⟨others, hothers, hcount, hset⟩ := heldCount_split hi
  have hlt := h.size
  have hbalance := h.balance
  rw [hcount] at hbalance
  obtain ⟨hsmall, hbalance⟩ := hchange.balance h.small (by omega) hbalance
  refine ⟨h.size, hsmall, hbalance.trans ?_, ?_⟩
  · exact congrArg (info.vftiActionCount + ·) (hset c).symm
  intro j hj
  rw [setCore_apply] at hj ⊢
  split
  · rw [if_pos ‹_›] at hj
    exact hunheld hj
  · rw [if_neg ‹_›] at hj
    exact h.unheld j hj

theorem release (h : HoldInv cfg v) {ht : HtSys} {running : Option FlowItem}
    (hshape : ht.table.shape = v.ht.table.shape) (hhold : (v.core i).hold = false)
    (hc : c.hold = false) (hcandidate : c.evictCandidate = false) :
    HoldInv cfg { v.setCore i c with ht := ht, running := running } := by
  refine h.of_hold (size_of_shape hshape) rfl rfl ?_ ?_
  · intro j
    rw [setCore_apply]
    split
    · rename_i hji
      rw [hji, hc, hhold]
    · rfl
  · intro j hj
    refine h.unheld j (candidate_of_setCore ?_ hj)
    rw [hcandidate]
    simp

/-- Every move keeps the balance, if deletions reset only entries that are not on hold. -/
theorem move (h : HoldInv cfg v) (hinv : FlowInv cfg v)
    (hreset : ∀ c : FlowCore, R.reset c → c.hold = false) (hm : FlowMove cfg R v v') :
    HoldInv cfg v' := by
  cases hm with
  | take i c added hfind hfree hkey hactive hmodified hcandidate hhold =>
    rw [((hinv.clean_of_free hfree).activate _).2] at hcandidate
    obtain ⟨hins, hshape, -⟩ := hinv.take hfind hfree hkey hactive hcandidate
    have hchange := hhold.resolve_right (by simp [(hinv.clean_of_free hfree).hold])
    have hset := h.setCore hins.lt hchange (by simp [hcandidate])
    exact hset.of_hold (size_of_shape hshape) rfl rfl (fun _ => rfl) hset.unheld
  | change i c hvalid hmodified _ _ _ _ hcandidate hhold =>
    refine h.setCore (hinv.keyed.bound i hvalid) hhold fun hc => ?_
    rw [hcandidate] at hc
    cases (hinv.locked i hc).symm.trans hmodified
  | delete i hvalid _ _ hhold =>
    have hset := h.setCore
      (c := { v.core i with deleteMarked := true, modified := true, hold := false })
      (hinv.keyed.bound i hvalid) hhold fun _ => rfl
    exact hset.of_hold rfl rfl rfl (fun _ => rfl) hset.unheld
  | schedule => exact h.of_hold rfl rfl rfl (fun _ => rfl) h.unheld
  | mark i _ hmark hreverse =>
    refine h.of_hold rfl rfl rfl ?_ ?_
    · intro j
      show (if j = i ∨ _ then (v.core j).marked else v.core j).hold = _
      split <;> rfl
    intro j hj
    by_cases hpair : j = i ∨ v.getEntry (v.core i).rflow = some j
    · rcases hpair with rfl | hr
      · exact hmark.hold
      · exact (hreverse j hr).2.hold
    · replace hj : (if j = i ∨ v.getEntry (v.core i).rflow = some j then (v.core j).marked
        else v.core j).evictCandidate = true := hj
      rw [if_neg hpair] at hj
      exact h.unheld j hj
  | work | callback | defer => exact h.of_hold rfl rfl rfl (fun _ => rfl) h.unheld
  | takeBack i =>
    refine h.of_hold rfl rfl rfl ?_ ?_
    · intro j
      rw [setCore_apply]
      split
      · rename_i hji
        rw [hji]
        rfl
      · rfl
    · intro j hj
      refine h.unheld j (candidate_of_setCore ?_ hj)
      exact fun hc => (Bool.false_ne_true hc).elim
  | reset _ _ hrule hrelease =>
    exact h.release (hinv.releases hrelease).2.1 (hreset _ hrule) rfl rfl
  | evict i _ _ _ hcandidate hrelease =>
    exact h.release (hinv.releases hrelease).2.1 (h.unheld i hcandidate) rfl rfl
  | finish => exact h.of_hold rfl rfl rfl (fun _ => rfl) h.unheld
  | table ha hstep =>
    exact h.of_hold (size_of_shape (hinv.table ha hstep).2.1) rfl rfl (fun _ => rfl)
      h.unheld

end HoldInv

theorem FlowMove.size (hinv : FlowInv cfg v) (hm : FlowMove cfg R v v') : v'.size = v.size := by
  cases hm with
  | take i c added _ hfree =>
    obtain ⟨place, cont, hi⟩ := hinv.keyed.inv
    obtain ⟨-, -, -, hshape, -⟩ := hi.findFree hfree
    exact size_of_shape hshape
  | reset _ _ _ hrelease => exact size_of_shape (hinv.releases hrelease).2.1
  | evict i _ _ _ _ hrelease => exact size_of_shape (hinv.releases hrelease).2.1
  | table ha hstep => exact size_of_shape (hinv.table ha hstep).2.1
  | change | delete | schedule | mark | work | callback | defer | takeBack | finish => rfl

/-! ## Runs -/

/-- No deletion resets an entry that is on hold: neither a work item without defer data nor a
callback. -/
def FlowSys.ResetsUnheld (s : FlowSys) : FlowStep → Prop
  | .work n _ =>
    ∀ flmd fe, s.works[n]? = some flmd → s.vrFlowGetEntry flmd.flmdIndex = some fe →
      flmd.flmdFlags.active = false → flmd.vfdd? = none → (s.entry fe).feAction ≠ .hold
  | .callback n _ =>
    ∀ vfdd, s.callbacks[n]? = some vfdd → vfdd.vfddDelete = true →
      (s.entry vfdd.vfddFe).feAction ≠ .hold
  | .packet _ _ _ | .request _ _ | .htWork _ _ | .htCallback _ | .setNotReady _ => True

def FlowRules.unheld : FlowRules := ⟨fun _ _ => True, fun _ => True, fun c => c.hold = false⟩

theorem FlowSys.meets_unheld {a : FlowStep} (h : s.ResetsUnheld a) : s.Meets cfg .unheld a := by
  have hadmits : ∀ o : TransitionOutcome, FlowRules.unheld.Admits o := fun _ _ _ => trivial
  cases a with
  | packet key pkt o => exact ⟨fun _ _ _ => trivial, fun _ _ _ => trivial, hadmits _⟩
  | request req o => exact hadmits _
  | work n o =>
    refine ⟨fun _ => hadmits _, fun flmd fe hget hfe => ⟨fun _ => trivial, ?_⟩⟩
    intro hdelete hnone c hc
    have hactive : flmd.flmdFlags.active = false := by simpa [FlowMd.item] using hdelete
    exact hc.trans (decide_eq_false (h flmd fe hget hfe hactive hnone))
  | callback n o => exact fun vfdd hget hdelete => decide_eq_false (h vfdd hget hdelete)
  | htWork | htCallback | setNotReady => trivial

/-- The entries of a table that are on hold. -/
def FlowSys.heldEntries (t : Htable) (s : FlowSys) : Finset Nat :=
  (range (t.htHentries + t.htOentries)).filter fun i => (s.entry i).feAction = .hold

theorem FlowSys.heldCount_eq_card (hsize : s.view.size = t.htHentries + t.htOentries) :
    s.view.heldCount = (s.heldEntries t).card := by
  unfold heldCount heldEntries
  rw [hsize, card_filter]
  refine sum_congr rfl fun i _ => ?_
  show (if decide ((s.entry i).feAction = .hold) = true then 1 else 0) = _
  simp only [decide_eq_true_iff]

theorem FlowTableCreated.holdInv {entries oentries : Nat} (h : FlowTableCreated entries oentries t)
    (cfg : FlowConfig) (notReady : Bool) : HoldInv cfg (FlowSys.initial t notReady).view := by
  refine ⟨h.fit.lt, fun _ => by simp [initial, view, viewWith], ?_, ?_⟩
  · unfold FlowTableInfo.holds heldCount
    simp [initial, view, viewWith, FlowEntry.core, FlowEntry.zeroed,
      FlowCore.held]
  · intro i hi
    rfl

/-- In every state reached by a run in which no deletion resets an entry that is on hold, the CPUs
have counted as many flows as have left hold and are on hold, and `vr_flow_table_hold_count` is the
number of the latter. -/
theorem hold_counters_balance {entries oentries : Nat} {t : Htable}
    (ht : FlowTableCreated entries oentries t) {cfg : FlowConfig} {notReady : Bool}
    {as : List FlowStep} {s : FlowSys}
    (hok : StepsMeet (FlowSys.step cfg) FlowSys.ResetsUnheld (.initial t notReady) as)
    (hrun : runSteps (FlowSys.step cfg) (.initial t notReady) as = some s) :
    ∑ cpu ∈ range cfg.vrNumCpus, s.info.vftiHoldCount cpu =
        s.info.vftiActionCount + (s.heldEntries t).card ∧
      vrFlowTableHoldCount cfg s.info = (s.heldEntries t).card := by
  obtain ⟨-, hinv, hsize⟩ := run_of_move
    (I := fun v => HoldInv cfg v ∧ v.size = t.htHentries + t.htOentries)
    (fun _ _ => meets_unheld)
    (fun _ _ hinv h hm => ⟨h.1.move hinv (fun _ => id) hm, (hm.size hinv).trans h.2⟩)
    hok hrun (ht.inv cfg notReady) ⟨ht.holdInv cfg notReady, rfl⟩
  have hbalance := hinv.balance
  rw [heldCount_eq_card hsize] at hbalance
  refine ⟨hbalance, ?_⟩
  -- the number of entries fits, so nothing is cut off
  have hlt := FlowTableInfo.holds_lt cfg hinv.small
  have hcard : (s.heldEntries t).card < 2 ^ 32 := by
    have hle := card_filter_le (range (t.htHentries + t.htOentries))
      fun i => (s.entry i).feAction = .hold
    rw [card_range] at hle
    exact lt_of_le_of_lt hle ht.fit.lt
  have hsum : ((List.range cfg.vrNumCpus).map s.info.vftiHoldCount).sum = s.info.holds cfg := rfl
  unfold vrFlowTableHoldCount
  replace hbalance : s.info.holds cfg = s.info.vftiActionCount + (s.heldEntries t).card := hbalance
  replace hlt : s.info.holds cfg < 2 ^ 64 := hlt
  rw [if_pos (by omega)]
  omega

/-- The first packet of a flow puts it on hold. -/
theorem hold_counters_balance_first_packet :
    ∃ t s, FlowTableCreated 8 0 t ∧
      runSteps (FlowSys.step smallConfig) (.initial t false)
        [.packet (tcpKey 2) (tcpPacket false) allSucceed] = some s ∧
      0 ∈ s.heldEntries t ∧ vrFlowTableHoldCount smallConfig s.info = (s.heldEntries t).card := by
  have hok : StepsMeet (step smallConfig) FlowSys.ResetsUnheld (.initial smallTable false)
      [.packet (tcpKey 2) (tcpPacket false) allSucceed] := ⟨trivial, fun _ _ => trivial⟩
  have hrun := smallEnd_run [.packet (tcpKey 2) (tcpPacket false) allSucceed] rfl
  exact ⟨smallTable, _, smallTable_created, hrun,
    mem_filter.mpr ⟨mem_range.mpr (by decide), rfl⟩,
    (hold_counters_balance smallTable_created hok hrun).2⟩

/-! ## A deletion that resets an entry on hold -/

/-- No memory for defer data when a flow is marked. -/
def noDeferData : FlowOutcome :=
  { allSucceed with action := fun _ => ⟨fun _ => .valid, true, ⟨true, false, false, true⟩⟩ }

/-- Two flows are each other's reverse flows. The work item that takes back the marks of the one
unlocks the other one while its deletion is pending; so it is deleted twice, and the second deletion
is still pending when the entry is in use again. -/
def heldRun : List FlowStep :=
  [.request (tcpRequest (-1) 1 0 .forward { active := true } (-1)) allSucceed,
    .request (tcpRequest (-1) 2 0 .forward { active := true, rflowValid := true } 4) allSucceed,
    .request (tcpRequest 4 1 1 .forward {} (-1)) allSucceed,
    .work 2 allSucceed,
    .packet (tcpKey 2) (tcpPacket true) noDeferData,
    .request (tcpRequest (-1) 1 0 .forward { active := true, rflowValid := true } 0) allSucceed,
    .request (tcpRequest 4 1 2 .forward {} (-1)) allSucceed,
    .work 2 allSucceed,
    .packet (tcpKey 2) (tcpPacket false) allSucceed,
    .work 4 allSucceed,
    .callback 0 allSucceed,
    .packet (tcpKey 1) (tcpPacket false) allSucceed,
    .work 3 allSucceed]

/-- One flow has gone on hold, none has left hold, and none is on hold. -/
theorem reset_of_held_entry :
    ∃ t s, FlowTableCreated 8 0 t ∧
      runSteps (FlowSys.step smallConfig) (.initial t false) heldRun = some s ∧
      s.info.vftiHoldCount 0 = 1 ∧ s.info.vftiActionCount = 0 ∧ s.heldEntries t = ∅ := by
  exact ⟨smallTable, smallEnd heldRun (by decide +kernel), smallTable_created, smallEnd_run _ _,
    by decide +kernel, by decide +kernel, by decide +kernel⟩

end VRouter
