import VRouter.Flow.Absent
import VRouter.Flow.Hold
import VRouter.Flow.TcpPair

/-!
# VRouter — evictions that cannot be carried out

`vr_flow_mark_evict` locks and marks a dead flow and its reverse flow and then makes a work item
with deferral data, whose callback evicts both. If the work item cannot be made, the function takes
the marks back itself. If only the deferral data or their payload are missing, the work item does it
(`vr_flow_defer`): it finds the reverse flow again through the flow's own entry.

It looks for the reverse flow only if its index is not zero, although zero is the index of the first
entry, and negative numbers stand for no reverse flow everywhere else. `marks_taken_back_iff` says
that nothing else goes wrong.
-/

namespace VRouter

open FlowSys (lock markCandidate)

variable {cfg : FlowConfig} {s s₁ s₂ : FlowSys} {fe r : Nat} {o : TransitionOutcome}

/-! ## Entries that are marked -/

/-- The entry has no eviction mark and can be locked: packets of the flow pass, and requests do not
find it busy. -/
structure FlowEntry.Released (e : FlowEntry) : Prop where
  candidate : e.feFlags.evictCandidate = false
  modified : e.feFlags.modified = false
  startModify : e.vrFlowStartModify ≠ none

theorem FlowEntry.vrFlowStartModify_eq_none_iff {e : FlowEntry} :
    e.vrFlowStartModify = none ↔
      (e.feFlags.modified = true ∨ e.feFlags.evicted = true) ∨ e.feFlags.newFlow = true := by
  unfold vrFlowStartModify
  rw [← Bool.or_eq_true, ← Bool.or_eq_true]
  split
  · rename_i hbusy
    exact iff_of_true rfl hbusy
  · rename_i hfree
    exact iff_of_false (by simp) hfree

theorem FlowEntry.released_of_startModify {e e' : FlowEntry} (h : e.vrFlowStartModify = some e')
    (hlocked : e.feFlags.evictCandidate = true → e.feFlags.modified = true) : e.Released := by
  have hmodified := (FlowSys.vrFlowStartModify_eq_some h).1
  refine ⟨?_, hmodified, by rw [h]; simp⟩
  cases hc : e.feFlags.evictCandidate with
  | false => rfl
  | true => exact (hlocked hc).symm.trans hmodified

theorem FlowEntry.Released.resetEvict {e e' : FlowEntry} (h : e.Released)
    (hflags : e'.feFlags = (markCandidate (lock e)).feFlags) : e'.vrFlowResetEvict.Released := by
  have hreset : e'.vrFlowResetEvict.feFlags =
      { e.feFlags with modified := false, evictCandidate := false } := by
    show { e'.feFlags with modified := false, evictCandidate := false } = _
    rw [hflags]
    rfl
  refine ⟨by rw [hreset], by rw [hreset], fun hbusy => h.startModify ?_⟩
  rw [vrFlowStartModify_eq_none_iff, hreset] at hbusy
  rw [vrFlowStartModify_eq_none_iff, h.modified]
  exact hbusy

/-! ## The call and its work item -/

/-- Everything an eviction needs can be allocated, and its work item scheduled. -/
def TransitionOutcome.Complete (o : TransitionOutcome) : Prop :=
  o.flmd = true ∧ o.defer = true ∧ o.vfdd = true ∧ o.scheduled = true

/-- `vr_flow_mark_evict` on `fe` puts a mark on `i`. Allocations come behind the marks, so that
whether there are any is told by the call that finds all its memory. -/
def FlowSys.MarksEvict (s : FlowSys) (fe i : Nat) : Prop :=
  (s.entry i).feFlags.evictCandidate = false ∧
    ∃ s', s.vrFlowMarkEvict ⟨true, true, true, true⟩ fe fe = some s' ∧
      (s'.entry i).feFlags.evictCandidate = true

/-- The states behind the work step of a call that led from `s` to `s₁`: the latter itself, if the
call has made no work item, and otherwise any state behind the step of that work item. Other steps
may come first, as long as they leave the flags and the link of the two entries alone. -/
inductive FlowSys.AfterWork (cfg : FlowConfig) (s s₁ : FlowSys) (fe r : Nat) : FlowSys → Prop
  | unscheduled (hworks : s₁.works = s.works) : AfterWork cfg s s₁ fe r s₁
  | ran {flmd : FlowMd} {bs : List FlowStep} {s' s₂ : FlowSys} {n : Nat} {o : FlowOutcome}
      (hworks : s₁.works = s.works ++ [flmd])
      (hrun : runSteps (FlowSys.step cfg) s₁ bs = some s')
      (hflags : (s'.entry fe).feFlags = (s₁.entry fe).feFlags)
      (hflagsr : (s'.entry r).feFlags = (s₁.entry r).feFlags)
      (hlink : (s'.entry fe).feRflow = (s₁.entry fe).feRflow)
      (hfe : s'.vrFlowGetEntry fe = some fe) (hr : s'.vrFlowGetEntry r = some r)
      (hget : s'.works[n]? = some flmd) (hstep : s'.step cfg (.work n o) = some s₂) :
      AfterWork cfg s s₁ fe r s₂

/-- A work item of an eviction that has no deferral data to hand on. -/
structure FlowMd.TakesBack (flmd : FlowMd) (fe : Nat) : Prop where
  index : flmd.flmdIndex = fe
  active : flmd.flmdFlags.active = true
  candidate : flmd.flmdFlags.evictCandidate = true
  vfdd? : flmd.vfdd? = none

namespace FlowSys

/-! ## What the work item does -/

/-- `vr_flush_entry` on a flow that is locked: its packets are let go, and nothing happens to
marks. -/
theorem vrFlushEntry_of_modified {o : FlowOutcome} {flmd flmd' : FlowMd}
    (hmodified : (s.entry fe).feFlags.modified = true)
    (h : s.vrFlushEntry o fe flmd = some (s₁, flmd')) :
    (s₁.ht = s.ht ∧ ∀ i, (s₁.entry i).feFlags = (s.entry i).feFlags ∧
      (s₁.entry i).feRflow = (s.entry i).feRflow) ∧
      flmd'.flmdFlags = flmd.flmdFlags ∧ (flmd.vfdd? = none → flmd'.vfdd? = none) := by
  rcases vrFlushEntry_cases h with ⟨-, rfl, rfl⟩ | ⟨vfq, vfq', -, -, hflush, ⟨-, hflags, -⟩, hvfdd⟩
  · exact ⟨⟨rfl, fun _ => ⟨rfl, rfl⟩⟩, rfl, id⟩
  have hs₁ : s₁ = s.modify fe fun e => { e with feHoldList := none } := by
    refine flushSlots_eq_self (fun _ _ _ _ _ _ haction => ?_) hflush
    refine vrFlowAction_of_modified ?_ haction
    rw [modify_self]
    exact hmodified
  subst hs₁
  refine ⟨⟨rfl, fun i => ?_⟩, hflags, fun hnone => ?_⟩
  · rw [modify_apply]
    split <;> exact ⟨rfl, rfl⟩
  · rw [hvfdd, hnone]
    rfl

/-- The work item of an eviction without deferral data comes down to taking back the marks. -/
theorem vrFlowWork_takesBack {flmd : FlowMd} (hflmd : flmd.TakesBack fe)
    (hfe : s.vrFlowGetEntry fe = some fe) (hmodified : (s.entry fe).feFlags.modified = true)
    (o : FlowOutcome) :
    ∃ s₁ : FlowSys, s.vrFlowWork o flmd = some (s₁.takeBackMarks fe) ∧ s₁.ht = s.ht ∧
      ∀ i, (s₁.entry i).feFlags = (s.entry i).feFlags ∧
        (s₁.entry i).feRflow = (s.entry i).feRflow := by
  obtain ⟨⟨s₁, flmd₁⟩, hflush⟩ := Option.ne_none_iff_exists'.mp (@vrFlushEntry_ne_none s o fe flmd)
  obtain ⟨⟨hht, hentry⟩, hflags, hvfdd⟩ := vrFlushEntry_of_modified hmodified hflush
  refine ⟨s₁, ?_, hht, hentry⟩
  unfold vrFlowWork
  rw [hflmd.index, hfe]
  dsimp only
  rw [hflush]
  dsimp only
  unfold vrFlowDefer
  rw [hflags, hflmd.candidate, hflmd.active]
  have hnone : flmd₁.flmdDeferData.join = none := hvfdd hflmd.vfdd?
  split
  · rename_i hsome
    rw [hsome] at hnone
    cases hnone
  · rfl

theorem takeBackMarks_entry (hrflow : s.vrFlowGetEntry (s.entry fe).feRflow = some r)
    (hr : r ≠ fe) :
    (s.takeBackMarks fe).entry fe = (s.entry fe).vrFlowResetEvict ∧
      (s.takeBackMarks fe).entry r = if r = 0 then s.entry r else (s.entry r).vrFlowResetEvict := by
  have hindex : (s.entry fe).feRflow = r := eq_of_vrFlowGetEntry hrflow
  unfold takeBackMarks
  by_cases hzero : r = 0
  · rw [if_neg (by rw [hindex, hzero]; simp), if_pos hzero]
    exact ⟨modify_self _ _ _, modify_of_ne _ _ _ hr⟩
  have hne : (s.entry fe).feRflow ≠ 0 := by omega
  rw [if_pos hne, if_neg hzero, hrflow]
  unfold modifyPair
  refine ⟨?_, ?_⟩
  · rw [modify_self, modify_of_ne _ _ _ hr.symm]
  · rw [modify_of_ne _ _ _ hr, modify_self]

/-! ## The call as a whole -/

/-- What `vr_flow_mark_evict` leaves of the pair when it has put marks on it and something cannot be
allocated: without a work item both are released, with one both are marked, and the work item is one
that takes back the marks. -/
theorem vrFlowMarkEvict_of_incomplete (hinv : FlowInv cfg s.view)
    (hfe : s.vrFlowGetEntry fe = some fe) (hrflow : s.vrFlowGetEntry (s.entry fe).feRflow = some r)
    (hmarks : s.MarksEvict fe fe ∨ s.MarksEvict fe r) (hfail : ¬ o.Complete)
    (hmark : s.vrFlowMarkEvict o fe fe = some s₁) :
    r ≠ fe ∧ (s.entry fe).Released ∧ (s.entry r).Released ∧
      (((o.flmd = false ∨ o.scheduled = false) ∧ s₁.works = s.works ∧
          (s₁.entry fe).Released ∧ (s₁.entry r).Released) ∨
        ((o.flmd = true ∧ o.scheduled = true) ∧ ∃ flmd : FlowMd, flmd.TakesBack fe ∧
          s₁.works = s.works ++ [flmd] ∧ s₁.ht = s.ht ∧
          s₁.entry fe = markCandidate (lock (s.entry fe)) ∧
          s₁.entry r = markCandidate (lock (s.entry r)))) := by
  rcases s.vrFlowMarkEvict_eq fe fe with
    ⟨s₀, heq, hview⟩ | ⟨hstart, ⟨hnone, -⟩ | ⟨r', hsome, hr, hstartr, -, heq⟩⟩
  · -- marks show in the view
    have hcandidate : ∀ i, ¬ s.MarksEvict fe i := by
      rintro i ⟨hbefore, s', hs', hbehind⟩
      cases (heq _).symm.trans hs'
      have hcore : (s₀.entry i).core = (s.entry i).core :=
        congrFun (congrArg FlowView.core (hview none)) i
      have hsame : (s₀.entry i).feFlags.evictCandidate = (s.entry i).feFlags.evictCandidate :=
        congrArg FlowCore.evictCandidate hcore
      rw [hsame, hbefore] at hbehind
      cases hbehind
    rcases hmarks with h | h
    · exact absurd h (hcandidate fe)
    · exact absurd h (hcandidate r)
  · cases hnone.symm.trans hrflow
  · cases hsome.symm.trans hrflow
    have hactive : (s.entry fe).feFlags.active = true :=
      hinv.active fe (FlowView.valid_of_getEntry hfe)
    have hreleased := FlowEntry.released_of_startModify hstart (hinv.locked fe)
    have hreleasedr := FlowEntry.released_of_startModify hstartr (hinv.locked r)
    refine ⟨hr, hreleased, hreleasedr, ?_⟩
    rw [heq o] at hmark
    generalize hs₀ : ((s.modify fe lock).modify r lock).modify r markCandidate = s₀ at hmark
    have hentry : s₀.entry fe = lock (s.entry fe) := by
      rw [← hs₀, modify_of_ne _ _ _ hr.symm, modify_of_ne _ _ _ hr.symm, modify_self]
    have hentryr : s₀.entry r = markCandidate (lock (s.entry r)) := by
      rw [← hs₀, modify_self, modify_self, modify_of_ne _ _ _ hr]
    have hworks : s₀.works = s.works := by
      rw [← hs₀]
      rfl
    have hht : s₀.ht = s.ht := by
      rw [← hs₀]
      rfl
    rcases evictForwardFlow_eq hmark with
      ⟨hidle, -⟩ | ⟨hwhy, rfl⟩ | ⟨hwhy, flmd, rfl, hdelete, hflmd, hback⟩
    · rw [hentry] at hidle
      rcases hidle with hidle | hidle
      · cases hreleased.candidate.symm.trans hidle
      · cases hactive.symm.trans hidle
    · refine Or.inl ⟨(Bool.and_eq_false_iff).mp hwhy, hworks, ?_, ?_⟩
      · unfold modifyPair
        rw [modify_self, modify_of_ne _ _ _ hr.symm, modify_self, hentry]
        exact hreleased.resetEvict rfl
      · unfold modifyPair
        rw [modify_of_ne _ _ _ hr, modify_self, modify_of_ne _ _ _ hr, hentryr]
        exact hreleasedr.resetEvict rfl
    · rw [Bool.and_eq_true] at hwhy
      -- the deferral data or their payload are missing
      have hnone : (o.defer && o.vfdd) = false := by
        rw [← Bool.not_eq_true, Bool.and_eq_true]
        exact fun hdata => hfail ⟨hwhy.1, hdata.1, hdata.2, hwhy.2⟩
      obtain ⟨hcandidate, hvfdd⟩ := (Bool.and_eq_true _ _).mp (hback hnone)
      refine Or.inr ⟨hwhy, flmd, ⟨hflmd.index, (Bool.not_eq_false' (b := _)).mp hdelete, hcandidate,
        Option.isNone_iff_eq_none.mp hvfdd⟩, by rw [hworks], hht, ?_, ?_⟩
      · rw [modify_self, hentry]
      · rw [modify_of_ne _ _ _ hr, hentryr]

theorem step_takesBack {flmd : FlowMd} {n : Nat} (hflmd : flmd.TakesBack fe) (hr : r ≠ fe)
    (hfe : s.vrFlowGetEntry fe = some fe) (hrflow : s.vrFlowGetEntry (s.entry fe).feRflow = some r)
    (hmodified : (s.entry fe).feFlags.modified = true) (hget : s.works[n]? = some flmd)
    (o : FlowOutcome) :
    ∃ (s₂ : FlowSys) (e er : FlowEntry), s.step cfg (.work n o) = some s₂ ∧
      e.feFlags = (s.entry fe).feFlags ∧ er.feFlags = (s.entry r).feFlags ∧
      s₂.entry fe = e.vrFlowResetEvict ∧
      s₂.entry r = if r = 0 then er else er.vrFlowResetEvict := by
  obtain ⟨s₁, hwork, hht, hentry⟩ := @vrFlowWork_takesBack
    { s with works := s.works.eraseIdx n } fe flmd hflmd hfe hmodified o
  have hrflow₁ : s₁.vrFlowGetEntry (s₁.entry fe).feRflow = some r := by
    rw [(hentry fe).2]
    unfold vrFlowGetEntry
    rw [hht]
    exact hrflow
  obtain ⟨hback, hbackr⟩ := takeBackMarks_entry hrflow₁ hr
  refine ⟨_, s₁.entry fe, s₁.entry r, ?_, (hentry fe).1, (hentry r).1, hback, hbackr⟩
  simp only [step, hget]
  exact hwork

end FlowSys

/-! ## The result -/

/-- A flow in use and its reverse flow are marked for eviction, and something the eviction needs
cannot be allocated. Then after the work step neither is marked or locked, and both can be locked
again, exactly if the reverse flow is not the first entry or it comes to no work item at all. The
invariant holds in every state that a run reaches. -/
theorem marks_taken_back_iff (hinv : FlowInv cfg s.view) (hfe : s.vrFlowGetEntry fe = some fe)
    (hrflow : s.vrFlowGetEntry (s.entry fe).feRflow = some r)
    (hmarks : s.MarksEvict fe fe ∨ s.MarksEvict fe r) (hfail : ¬ o.Complete)
    (hmark : s.vrFlowMarkEvict o fe fe = some s₁) :
    (∀ s₂, s.AfterWork cfg s₁ fe r s₂ → (s₂.entry fe).Released ∧ (s₂.entry r).Released) ↔
      r ≠ 0 ∨ o.flmd = false ∨ o.scheduled = false := by
  obtain ⟨hr, hreleased, hreleasedr, hcases⟩ :=
    FlowSys.vrFlowMarkEvict_of_incomplete hinv hfe hrflow hmarks hfail hmark
  rcases hcases with ⟨hwhy, hworks, hfree, hfreer⟩ | ⟨hwhy, flmd, hflmd, hworks, hht, hfe₁, hr₁⟩
  · -- no work item: the call has taken the marks back itself
    refine iff_of_true (fun s₂ hafter => ?_) (Or.inr hwhy)
    cases hafter with
    | unscheduled _ => exact ⟨hfree, hfreer⟩
    | ran hworks' => simp [hworks] at hworks'
  have hgetEntry : ∀ index, s₁.vrFlowGetEntry index = s.vrFlowGetEntry index := by
    intro index
    unfold FlowSys.vrFlowGetEntry
    rw [hht]
  have hindex : (s.entry fe).feRflow = r := FlowSys.eq_of_vrFlowGetEntry hrflow
  constructor
  · -- run the work item at once, and find the first entry as it was
    intro hback
    refine Or.inl fun hzero => ?_
    obtain ⟨s₂, e, er, hstep, -, hflagsr, -, hentryr⟩ := @FlowSys.step_takesBack cfg s₁ fe r flmd
      s.works.length hflmd hr ((hgetEntry fe).trans hfe)
      (by rw [hfe₁, hgetEntry]; exact hrflow) (by rw [hfe₁]; rfl) (by rw [hworks]; simp)
      allSucceed
    have hafter : s.AfterWork cfg s₁ fe r s₂ :=
      .ran hworks (runSteps_nil : runSteps (FlowSys.step cfg) s₁ [] = some s₁) rfl rfl rfl
        ((hgetEntry fe).trans hfe) ((hgetEntry r).trans (by rw [← hindex]; exact hrflow))
        (by rw [hworks]; simp) hstep
    have hmarked := (hback s₂ hafter).2.candidate
    rw [hentryr, if_pos hzero, hflagsr, hr₁] at hmarked
    cases hmarked
  · intro hwhen
    have hne : r ≠ 0 := by
      rcases hwhen with hne | hflmd | hscheduled
      · exact hne
      · cases hwhy.1.symm.trans hflmd
      · cases hwhy.2.symm.trans hscheduled
    intro s₂ hafter
    cases hafter with
    | unscheduled hworks' => simp [hworks] at hworks'
    | @ran flmd' bs s' _ n o' hworks' hrun hflags hflagsr hlink hfe' hr' hget hstep =>
      obtain rfl : flmd = flmd' := by simpa [hworks] using hworks'
      rw [hfe₁] at hflags hlink
      rw [hr₁] at hflagsr
      have hlink : (s'.entry fe).feRflow = r := hlink.trans hindex
      obtain ⟨s₃, e, er, hstep', he, her, hentry, hentryr⟩ := @FlowSys.step_takesBack cfg s' fe r
        flmd n hflmd hr hfe' (by rw [hlink]; exact hr') (by rw [hflags]; rfl) hget o'
      cases hstep.symm.trans hstep'
      rw [hentry, hentryr, if_neg hne]
      exact ⟨hreleased.resetEvict (he.trans hflags), hreleasedr.resetEvict (her.trans hflagsr)⟩

/-- The packet's source does not check out: its TCP flags count, but the flow is not marked yet. -/
def wrongSource : FlowOutcome :=
  { allSucceed with action := fun _ => ⟨fun _ => .invalid, true, ⟨true, true, true, true⟩⟩ }

/-- Two linked flows, dead after a reset. -/
def deadRun : List FlowStep := linkedRun ++ [.packet (tcpKey 2) (tcpPacket true) wrongSource]

instance (s : FlowSys) (fe i : Nat) : Decidable (s.MarksEvict fe i) :=
  decidable_of_iff
    ((s.entry i).feFlags.evictCandidate = false ∧
      (s.vrFlowMarkEvict ⟨true, true, true, true⟩ fe fe).any
        (fun s' => (s'.entry i).feFlags.evictCandidate) = true)
    (and_congr_right fun _ => Option.any_eq_true _ _)

theorem deadRun_isSome :
    (runSteps (FlowSys.step smallConfig) (.initial smallTable false) deadRun).isSome := by
  decide +kernel

/-- The flow of the first entry is marked without memory for the deferral data, and the work item
takes back both marks. -/
theorem marks_taken_back_iff_first :
    ∃ t s s₁, FlowTableCreated 8 0 t ∧
      runSteps (FlowSys.step smallConfig) (.initial t false) deadRun = some s ∧
      s.LinkedPair 0 4 ∧ s.MarksEvict 0 0 ∧
      s.vrFlowMarkEvict ⟨true, false, false, true⟩ 0 0 = some s₁ ∧
      ∀ s₂, s.AfterWork smallConfig s₁ 0 4 s₂ →
        (s₂.entry 0).Released ∧ (s₂.entry 4).Released := by
  have hrun := smallEnd_run deadRun deadRun_isSome
  have hpair : (smallEnd deadRun deadRun_isSome).LinkedPair 0 4 :=
    ⟨by decide, by decide +kernel, by decide +kernel, by decide +kernel, by decide +kernel⟩
  have hmarks : (smallEnd deadRun deadRun_isSome).MarksEvict 0 0 := by decide +kernel
  obtain ⟨s₁, hmark⟩ := Option.ne_none_iff_exists'.mp (@FlowSys.vrFlowMarkEvict_ne_none
    (smallEnd deadRun deadRun_isSome) 0 0 ⟨true, false, false, true⟩)
  have hfail : ¬ TransitionOutcome.Complete ⟨true, false, false, true⟩ := fun h =>
    Bool.false_ne_true h.2.1
  exact ⟨smallTable, _, s₁, smallTable_created, hrun, hpair, hmarks, hmark,
    (marks_taken_back_iff (FlowSys.run_inv smallTable_created hrun) (by decide +kernel) hpair.rflow
      (Or.inl hmarks) hfail hmark).mpr (Or.inl (by decide))⟩

/-- The other way round: a packet of the fifth entry marks both flows, the work item takes back one
mark, and the flow of the first entry stays marked and locked. Its packets are dropped, and the
agent finds it busy. -/
theorem first_entry_stays_marked :
    ∃ t s s', FlowTableCreated 8 0 t ∧
      runSteps (FlowSys.step smallConfig) (.initial t false) deadRun = some s ∧
      s.LinkedPair 4 0 ∧ s.MarksEvict 4 0 ∧ s.works.length = 3 ∧
      runSteps (FlowSys.step smallConfig) s
        [.packet (tcpKey 1) (tcpPacket false) noDeferData, .work 3 allSucceed] = some s' ∧
      (s'.entry 0).feFlags.evictCandidate = true ∧ (s'.entry 0).feFlags.modified = true ∧
      (s'.vrFlowLookup smallConfig allSucceed (tcpKey 2) (tcpPacket false)).map Prod.snd =
        some .evictDrop ∧
      (s'.vrFlowSet smallConfig allSucceed (tcpRequest 0 2 1 .forward {} (-1))).map (·.2.1) =
        some (some .EBUSY) := by
  exact ⟨smallTable, smallEnd deadRun deadRun_isSome,
    Option.get (runSteps (FlowSys.step smallConfig) (smallEnd deadRun deadRun_isSome)
      [.packet (tcpKey 1) (tcpPacket false) noDeferData, .work 3 allSucceed]) (by decide +kernel),
    smallTable_created, smallEnd_run _ _,
    ⟨by decide, by decide +kernel, by decide +kernel, by decide +kernel, by decide +kernel⟩,
    by decide +kernel, by decide +kernel, (Option.some_get _).symm, by decide +kernel,
    by decide +kernel, by decide +kernel, by decide +kernel⟩

end VRouter
