import VRouter.Flow.Refine

/-!
# VRouter — work items and callbacks as moves

A work item flushes the packets held on its entry and hands on to a callback, which resets the entry
or evicts a pair of flows. A work item without defer data takes its marks back, or resets the entry
itself.
-/

namespace VRouter

open Relation FlowView Function

variable {cfg : FlowConfig} {R : FlowRules} {s s' : FlowSys} {o : FlowOutcome}
  {running : Option FlowItem} {fe : Nat}

/-! ## Held packets -/

namespace FlowSys

variable {index : Nat} {vfq vfq' : FlowQueue} {slots : List Nat} {s₀ : FlowSys}

theorem vrFlowAction_of_modified {o : ActionOutcome} {pkt : FlowPacket}
    {result : FlowResult} (hmodified : (s.entry fe).core.modified = true)
    (h : s.vrFlowAction o fe index pkt = some (s', result)) : s' = s := by
  have hstart : (s.entry fe).vrFlowStartModify = none := by
    unfold FlowEntry.vrFlowStartModify
    rw [show (s.entry fe).feFlags.modified = true from hmodified]
    rfl
  rcases vrFlowAction_cases h with rfl | ⟨-, hmark⟩
  · rfl
  · unfold vrFlowMarkEvict at hmark
    rw [hstart] at hmark
    cases hmark
    rfl

/-- One round of the loop empties its slot. A packet that was there goes through the action of the
flow, if the interface it came in on is still there. -/
theorem vrFlowFlushPnode_cases {slot : Nat}
    (h : s.vrFlowFlushPnode o fe index slot vfq = some (s', vfq')) :
    vfq' = { vfq with vfqPnodes := update vfq.vfqPnodes slot none } ∧
      (s' = s ∨ ∃ pkt result, vfq.vfqPnodes slot = some pkt ∧
        s.vrFlowAction (o.action slot) fe index pkt = some (s', result)) := by
  unfold vrFlowFlushPnode at h
  split at h
  · rename_i hnone
    cases h
    rw [← hnone, update_eq_self]
    exact ⟨rfl, Or.inl rfl⟩
  rename_i pkt hpkt
  split at h
  · obtain ⟨⟨s₁, result⟩, haction, heq⟩ := Option.map_eq_some_iff.mp h
    cases heq
    exact ⟨rfl, Or.inr ⟨pkt, result, hpkt, haction⟩⟩
  · cases h
    exact ⟨rfl, Or.inl rfl⟩

/-- The loop empties its slots, and what the action keeps for every packet of the queue stays. -/
theorem flushSlots_keeps {P : FlowSys → Prop}
    (hP : ∀ slot ∈ slots, ∀ pkt, vfq.vfqPnodes slot = some pkt → ∀ s s' result, P s →
      s.vrFlowAction (o.action slot) fe index pkt = some (s', result) → P s')
    (hs : P s) (h : flushSlots o fe index slots s vfq = some (s', vfq')) :
    P s' ∧
      vfq' = { vfq with vfqPnodes := fun i => if i ∈ slots then none else vfq.vfqPnodes i } := by
  induction slots generalizing s vfq with
  | nil =>
    cases h
    exact ⟨hs, by simp⟩
  | cons slot slots ih =>
    unfold flushSlots at h
    split at h
    · cases h
    rename_i s₁ vfq₁ hslot
    obtain ⟨rfl, hround⟩ := vrFlowFlushPnode_cases hslot
    have hs₁ : P s₁ := by
      rcases hround with rfl | ⟨pkt, result, hpkt, haction⟩
      · exact hs
      · exact hP slot List.mem_cons_self pkt hpkt s s₁ result hs haction
    -- the packets that are left were in the queue before
    have hleft : ∀ i pkt, update vfq.vfqPnodes slot none i = some pkt →
        vfq.vfqPnodes i = some pkt := by
      intro i pkt hpkt
      rw [update_apply] at hpkt
      split at hpkt
      · cases hpkt
      · exact hpkt
    obtain ⟨hs', rfl⟩ := ih (fun i hi pkt hpkt =>
      hP i (List.mem_cons_of_mem slot hi) pkt (hleft i pkt hpkt)) hs₁ h
    refine ⟨hs', ?_⟩
    congr 1
    funext i
    by_cases hi : i = slot <;> simp [hi]

theorem flushSlots_queue (h : flushSlots o fe index slots s vfq = some (s', vfq')) :
    vfq' = { vfq with vfqPnodes := fun i => if i ∈ slots then none else vfq.vfqPnodes i } :=
  (flushSlots_keeps (P := fun _ => True) (fun _ _ _ _ _ _ _ _ _ => trivial) trivial h).2

/-- One held packet after others: the flow is marked at most once. -/
theorem flushSlots_moves (hmay : (s₀.viewWith running).MayMark R fe)
    (hpush : ∀ slot, R.Admits (o.action slot).transition) (h₀ : MarkOutcome cfg R running fe s₀ s)
    (h : flushSlots o fe fe slots s vfq = some (s', vfq')) :
    MarkOutcome cfg R running fe s₀ s' := by
  refine (flushSlots_keeps (fun slot _ pkt _ s s' result h₀ haction => ?_) h₀ h).1
  rcases h₀ with hview | hmarked
  · refine MarkOutcome.of_view (vrFlowAction_moves (fun _ => ?_) (hpush slot) haction) hview
    rw [hview]
    exact hmay
  · rw [vrFlowAction_of_modified hmarked.1 haction]
    exact Or.inr hmarked

/-- Held packets on which the flow's action does nothing change nothing. -/
theorem flushSlots_eq_self
    (hidle : ∀ slot ∈ slots, ∀ pkt, vfq.vfqPnodes slot = some pkt → ∀ s' result,
      s.vrFlowAction (o.action slot) fe index pkt = some (s', result) → s' = s)
    (h : flushSlots o fe index slots s vfq = some (s', vfq')) : s' = s := by
  refine (flushSlots_keeps (P := (· = s)) (fun slot hslot pkt hpkt s₁ s₂ result hs₁ haction => ?_)
    rfl h).1
  subst hs₁
  exact hidle slot hslot pkt hpkt s₂ result haction

/-- The work item for `fe` flushes packets of a flow that is dead. -/
def FlushesDead (s : FlowSys) (fe : Nat) : Prop :=
  (s.entry fe).feTcpFlags.dead = true ∧ (s.entry fe).feAction ≠ .hold ∧
    ∃ vfq, (s.entry fe).feHoldList = some vfq ∧
      ∃ slot, slot < vrMaxFlowQueueEntries ∧ vfq.vfqPnodes slot ≠ none

end FlowSys

/-- What `vr_flush_entry` makes of its work item: a queue without packets may have been added to the
defer data. -/
structure FlowMd.FlushedFrom (flmd' flmd : FlowMd) : Prop where
  index : flmd'.flmdIndex = flmd.flmdIndex
  flags : flmd'.flmdFlags = flmd.flmdFlags
  madeFor : flmd'.madeFor = flmd.madeFor
  vfdd? : ∃ f : FlowDeferData → FlowDeferData, flmd'.vfdd? = flmd.vfdd?.map f ∧
    ∀ vfdd, (f vfdd).vfddDelete = vfdd.vfddDelete ∧ (f vfdd).madeFor = vfdd.madeFor ∧
      ((f vfdd).vfddFlowQueue = vfdd.vfddFlowQueue ∨ (f vfdd).Flushed)

theorem FlowMd.FlushedFrom.refl (flmd : FlowMd) : flmd.FlushedFrom flmd :=
  ⟨rfl, rfl, rfl, id, by simp, fun _ => ⟨rfl, rfl, Or.inl rfl⟩⟩

namespace FlowSys

variable {flmd flmd' : FlowMd} {it : FlowItem} {vfdd : FlowDeferData}

/-- `vr_flush_entry` leaves the queue of a flow on hold where it is, and takes any other off. -/
theorem vrFlushEntry_cases (h : s.vrFlushEntry o fe flmd = some (s', flmd')) :
    (((s.entry fe).feHoldList = none ∨ (s.entry fe).feAction = .hold) ∧ s' = s ∧ flmd' = flmd) ∨
      ∃ vfq vfq', (s.entry fe).feHoldList = some vfq ∧ (s.entry fe).feAction ≠ .hold ∧
        (s.modify fe fun e => { e with feHoldList := none }).vrFlowFlushHoldQueue o fe
          flmd.flmdIndex vfq = some (s', vfq') ∧
        (flmd'.flmdIndex = flmd.flmdIndex ∧ flmd'.flmdFlags = flmd.flmdFlags ∧
          flmd'.madeFor = flmd.madeFor) ∧
        flmd'.vfdd? = flmd.vfdd?.map fun vfdd => { vfdd with vfddFlowQueue := some vfq' } := by
  unfold vrFlushEntry at h
  split at h
  · rename_i hnone
    cases h
    exact Or.inl ⟨Or.inl hnone, rfl, rfl⟩
  rename_i vfq hqueue
  split at h
  · rename_i hhold
    cases h
    exact Or.inl ⟨Or.inr hhold, rfl, rfl⟩
  rename_i hhold
  dsimp only at h
  split at h
  · cases h
  rename_i s₁ vfq' hflush
  cases h
  refine Or.inr ⟨vfq, vfq', hqueue, hhold, hflush, ⟨rfl, rfl, rfl⟩, ?_⟩
  unfold FlowMd.vfdd?
  cases flmd.flmdDeferData with
  | none | some => rfl

theorem vrFlushEntry_moves (hindex : flmd.flmdIndex = fe)
    (hmay : s.FlushesDead fe → (s.viewWith running).MayMark R fe)
    (hpush : ∀ slot, R.Admits (o.action slot).transition)
    (h : s.vrFlushEntry o fe flmd = some (s', flmd')) :
    MarkOutcome cfg R running fe s s' ∧ flmd'.FlushedFrom flmd := by
  rcases vrFlushEntry_cases h with
    ⟨-, rfl, rfl⟩ | ⟨vfq, vfq', hqueue, haction, hflush, ⟨hsame, hflags, hmade⟩, hvfdd⟩
  · exact ⟨Or.inl rfl, .refl _⟩
  have hview : (s.modify fe fun e => { e with feHoldList := none }).viewWith running =
      s.viewWith running := viewWith_modify_of_core rfl
  refine ⟨?_, hsame, hflags, hmade, _, hvfdd, fun vfdd => ⟨rfl, rfl, Or.inr ?_⟩⟩
  · by_cases hdead : s.FlushesDead fe
    · rw [hindex] at hflush
      refine MarkOutcome.of_view (flushSlots_moves ?_ hpush (Or.inl rfl) hflush) hview
      rw [hview]
      exact hmay hdead
    · -- no packet of a dead flow: nothing happens
      refine Or.inl ?_
      rw [flushSlots_eq_self (fun slot hslot pkt hpkt s₁ result haction' => ?_) hflush, hview]
      refine (vrFlowAction_cases haction').resolve_right fun hmark => hdead ?_
      have hdead := hmark.1
      rw [modify_self] at hdead
      exact ⟨hdead, haction, vfq, hqueue, slot, List.mem_range.mp hslot, by rw [hpkt]; simp⟩
  · rintro _ ⟨⟩ i hi
    rw [flushSlots_queue hflush]
    exact if_pos (List.mem_range.mpr hi)

/-! ## Resetting and evicting entries -/

theorem vrFlowResetEntry_move (hindex : it.index = fe) (hdelete : it.delete = true)
    (hrule : R.reset (s.entry fe).core) (h : s.vrFlowResetEntry o fe = some s') :
    FlowMove cfg R (s.viewWith (some it)) s'.view := by
  obtain ⟨ht, hrelease, rfl⟩ := Option.map_eq_some_iff.mp h
  subst hindex
  have hview : { s.modify it.index FlowEntry.resetAll with ht := ht }.view =
      { (s.viewWith (some it)).setCore it.index (s.entry it.index).core.cleared with
        ht := ht, running := none } := by
    show { (s.modify it.index FlowEntry.resetAll).viewWith (some it) with
      ht := ht, running := none } = _
    rw [viewWith_modify]
    rfl
  rw [hview]
  exact .reset rfl hdelete hrule hrelease

theorem vrFlowEvictFlow_eq (h : s.vrFlowEvictFlow o fe = some s') :
    s' = s ∨ ((s.entry fe).feFlags.active = true ∧ (s.entry fe).feFlags.evictCandidate = true ∧
      ∃ ht, vrHtableReleaseHentry s.ht (o.htScheduled fe) fe = some ht ∧
        s' = { s.modify fe FlowEntry.evictCore with ht := ht }) := by
  unfold vrFlowEvictFlow at h
  split at h
  · rename_i hflags
    rw [Bool.and_eq_true] at hflags
    obtain ⟨ht, hrelease, rfl⟩ := Option.map_eq_some_iff.mp h
    exact Or.inr ⟨hflags.1, hflags.2, ht, hrelease, rfl⟩
  · cases h
    exact Or.inl rfl

theorem vrFlowEvictFlow_refines (hdelete : it.delete = false)
    (h : s.vrFlowEvictFlow o fe = some s') :
    ReflTransGen (FlowMove cfg R) (s.viewWith (some it)) (s'.viewWith (some it)) := by
  rcases vrFlowEvictFlow_eq h with rfl | ⟨hactive, hcandidate, ht, hrelease, rfl⟩
  · exact .refl
  · have hview : { s.modify fe FlowEntry.evictCore with ht := ht }.viewWith (some it) =
        { (s.viewWith (some it)).setCore fe (s.entry fe).core.evicted with ht := ht } := by
      show { (s.modify fe FlowEntry.evictCore).viewWith (some it) with ht := ht } = _
      rw [viewWith_modify]
      rfl
    rw [hview]
    exact .single (.evict fe rfl hdelete hactive hcandidate hrelease)

/-! ## Work items -/

theorem takeBackMarks_refines (hback : it.takesBack = true) :
    ReflTransGen (FlowMove cfg R) (s.viewWith (some it)) ((s.takeBackMarks fe).viewWith (some it)) ∧
      ((s.takeBackMarks fe).entry fe).core.hold = (s.entry fe).core.hold := by
  have hone : ∀ (s : FlowSys) (i : Nat), FlowMove cfg R (s.viewWith (some it))
      ((s.modify i FlowEntry.vrFlowResetEvict).viewWith (some it)) := by
    intro s i
    rw [vrFlowResetEvict_view]
    exact .takeBack i rfl hback
  have hhold : ∀ (s : FlowSys) (i j : Nat),
      ((s.modify i FlowEntry.vrFlowResetEvict).entry j).core.hold = (s.entry j).core.hold := by
    intro s i j
    rw [modify_apply]
    split <;> rfl
  unfold takeBackMarks modifyPair
  dsimp only
  split
  · exact ⟨.head (hone _ _) (.single (hone _ _)), by rw [hhold, hhold]⟩
  · exact ⟨.single (hone _ _), hhold _ _ _⟩

/-- `vr_flow_defer` leaves a callback behind, or takes back marks and does at once what the callback
would do for a deletion. -/
theorem vrFlowDefer_cases (h : s.vrFlowDefer o fe flmd = some s') :
    (∃ vfdd, flmd.vfdd? = some vfdd ∧
        s' = { s with callbacks := s.callbacks ++ [{ vfdd with vfddFe := fe }] }) ∨
      (flmd.vfdd? = none ∧ ∃ s₁ : FlowSys,
        s₁ = (if flmd.flmdFlags.evictCandidate then s.takeBackMarks fe else s) ∧
        ((flmd.flmdFlags.active = true ∧ s' = s₁) ∨
          (flmd.flmdFlags.active = false ∧ s₁.vrFlowResetEntry o fe = some s'))) := by
  unfold vrFlowDefer at h
  split at h
  · rename_i vfdd hdata
    cases h
    refine Or.inl ⟨vfdd, ?_, rfl⟩
    unfold FlowMd.vfdd?
    rw [hdata]
    rfl
  rename_i hdata
  have hnone : flmd.vfdd? = none := by
    unfold FlowMd.vfdd?
    cases hd : flmd.flmdDeferData with
    | none => rfl
    | some vdd =>
      cases vdd with
      | none => rfl
      | some vfdd => exact absurd hd (hdata vfdd)
  refine Or.inr ⟨hnone, _, rfl, ?_⟩
  cases hactive : flmd.flmdFlags.active with
  | true =>
    rw [hactive] at h
    cases h
    exact Or.inl ⟨rfl, rfl⟩
  | false =>
    rw [hactive] at h
    exact Or.inr ⟨rfl, h⟩

/-- A work item with defer data hands on to its callback, one without ends here. -/
theorem vrFlowDefer_refines (hfrom : flmd'.FlushedFrom flmd) (hcons : flmd.Consistent)
    (hindex : flmd.flmdIndex = fe) (hreset : flmd.item.delete = true → flmd.vfdd? = none → ∀ c :
      FlowCore, c.hold = (s.entry fe).core.hold → R.reset c)
    (h : s.vrFlowDefer o fe flmd' = some s') :
    ReflTransGen (FlowMove cfg R) (s.viewWith (some flmd.item)) s'.view := by
  obtain ⟨f, hf, hkeeps⟩ := hfrom.vfdd?
  rcases vrFlowDefer_cases h with ⟨vfdd', hvfdd', rfl⟩ | ⟨hnone', s₁, hs₁, hend⟩
  · -- there is defer data, and it says what the work item says
    rw [hvfdd'] at hf
    obtain ⟨vfdd, hvfdd, rfl⟩ := Option.map_eq_some_iff.mp hf.symm
    obtain ⟨hdelete, hmade, hqueue⟩ := hkeeps vfdd
    obtain ⟨hdelete', hmade', hqueue'⟩ := hcons vfdd hvfdd
    refine .single (.defer rfl ?_ ?_ ?_)
    · unfold FlowMd.item
      rw [hvfdd]
      simp
    · unfold FlowDeferData.item FlowMd.item
      rw [hdelete, hdelete', hmade, hmade', hvfdd, hindex]
      simp
    rcases hqueue with hqueue | hflushed
    · intro vfq hvfq
      rw [hqueue, hqueue'] at hvfq
      cases hvfq
    · exact hflushed
  · have hnone : flmd.vfdd? = none := Option.map_eq_none_iff.mp (hf.symm.trans hnone')
    rw [hfrom.flags] at hs₁ hend
    -- first the marks, then the entry itself
    have hback : ReflTransGen (FlowMove cfg R) (s.viewWith (some flmd.item))
        (s₁.viewWith (some flmd.item)) ∧ (s₁.entry fe).core.hold = (s.entry fe).core.hold := by
      rw [hs₁]
      split
      · rename_i hcandidate
        apply takeBackMarks_refines
        unfold FlowMd.item
        rw [hcandidate, hnone]
        rfl
      · exact ⟨.refl, rfl⟩
    refine hback.1.trans ?_
    have hdelete : flmd.item.delete = !flmd.flmdFlags.active := rfl
    rcases hend with ⟨hactive, rfl⟩ | ⟨hactive, hend⟩
    · refine .single (.finish rfl fun hdelete' => ?_)
      rw [hdelete, hactive] at hdelete'
      cases hdelete'
    · rw [hactive] at hdelete
      exact .single (vrFlowResetEntry_move hindex hdelete (hreset hdelete hnone _ hback.2) hend)

theorem vrFlowWork_cases (h : s.vrFlowWork o flmd = some s') :
    (s.vrFlowGetEntry flmd.flmdIndex = none ∧ s' = s) ∨
      ∃ fe s₁ flmd₁, s.vrFlowGetEntry flmd.flmdIndex = some fe ∧
        s.vrFlushEntry o fe flmd = some (s₁, flmd₁) ∧ s₁.vrFlowDefer o fe flmd₁ = some s' := by
  unfold vrFlowWork at h
  split at h
  · rename_i hnone
    cases h
    exact Or.inl ⟨hnone, rfl⟩
  rename_i fe hget
  split at h
  · cases h
  · rename_i s₁ flmd₁ hflush
    exact Or.inr ⟨fe, s₁, flmd₁, hget, hflush, h⟩

theorem vrFlowWork_refines (hinv : FlowInv cfg (s.viewWith (some flmd.item)))
    (hcons : flmd.Consistent) (hpush : ∀ slot, R.Admits (o.action slot).transition)
    (hmark : ∀ fe, s.vrFlowGetEntry flmd.flmdIndex = some fe → s.FlushesDead fe → R.mark (s.viewWith
      (some flmd.item)) fe) (hreset : ∀ fe, s.vrFlowGetEntry flmd.flmdIndex = some fe →
      flmd.item.delete = true → flmd.vfdd? = none → ∀ c : FlowCore, c.hold = (s.entry fe).core.hold
      → R.reset c) (h : s.vrFlowWork o flmd = some s') :
    ReflTransGen (FlowMove cfg R) (s.viewWith (some flmd.item)) s'.view := by
  rcases vrFlowWork_cases h with ⟨hnone, rfl⟩ | ⟨fe, s₁, flmd₁, hget, hflush, hdefer⟩
  · refine .single (.finish rfl fun _ => ?_)
    cases hv : (s'.viewWith (some flmd.item)).valid flmd.item.index with
    | false => rfl
    | true => cases (hinv.getEntry_of_valid hv).symm.trans hnone
  have hindex : flmd.flmdIndex = fe := by
    have := eq_of_vrFlowGetEntry hget
    omega
  have hmay : s.FlushesDead fe → (s.viewWith (some flmd.item)).MayMark R fe := by
    intro hdead
    refine mayMark_of_inv hinv ?_ (decide_eq_false hdead.2.1) (hmark fe hget hdead)
    exact valid_of_getEntry hget
  have hflushed : MarkOutcome cfg R (some flmd.item) fe s s₁ ∧ flmd₁.FlushedFrom flmd :=
    vrFlushEntry_moves hindex hmay hpush hflush
  have hhold : (s₁.entry fe).core.hold = (s.entry fe).core.hold := by
    rcases hflushed.1 with hview | ⟨-, hhold, -⟩
    · exact congrArg (fun v : FlowView => (v.core fe).hold) hview
    · exact hhold
  refine hflushed.1.refines.trans (vrFlowDefer_refines hflushed.2 hcons hindex ?_ hdefer)
  rw [hhold]
  exact hreset fe hget

/-! ## Callbacks -/

/-- A callback finds its queue flushed: its work item has done that. -/
theorem flushed_eq_self (hflushed : vfdd.Flushed) (h : (match vfdd.vfddFlowQueue with
      | none => some s
      | some vfq => (s.vrFlowFlushHoldQueue o fe vfq.vfqIndex vfq).map Prod.fst) = some s') :
    s' = s := by
  split at h
  · cases h
    rfl
  rename_i vfq hqueue
  obtain ⟨⟨s₂, vfq₂⟩, hslots, heq⟩ := Option.map_eq_some_iff.mp h
  cases heq
  refine flushSlots_eq_self (fun slot hslot pkt hpkt => ?_) hslots
  rw [hflushed vfq hqueue slot (List.mem_range.mp hslot)] at hpkt
  cases hpkt

/-- A callback resets its entry if it is there to delete it. Otherwise it evicts the flow, and then
its reverse flow. -/
theorem vrFlowDeferCb_cases (hflushed : vfdd.Flushed) (h : s.vrFlowDeferCb o vfdd = some s') :
    (vfdd.vfddDelete = true ∧ s.vrFlowResetEntry o vfdd.vfddFe = some s') ∨
      (vfdd.vfddDelete = false ∧ ∃ s₁, s.vrFlowEvictFlow o vfdd.vfddFe = some s₁ ∧
        (s' = s₁ ∨ ∃ rfe, s₁.vrFlowEvictFlow o rfe = some s')) := by
  unfold vrFlowDeferCb at h
  dsimp only at h
  split at h
  · cases h
  rename_i s₁ hflush
  obtain rfl := flushed_eq_self hflushed hflush
  split at h
  · rename_i hdelete
    exact Or.inl ⟨hdelete, h⟩
  rename_i hdelete
  refine Or.inr ⟨Bool.eq_false_of_not_eq_true hdelete, ?_⟩
  split at h
  · cases h
  · rename_i hevict _
    cases h
    exact ⟨_, hevict, Or.inl rfl⟩
  · rename_i s₂ rfe hevict _
    exact ⟨s₂, hevict, Or.inr ⟨rfe, h⟩⟩

theorem vrFlowDeferCb_refines (hflushed : vfdd.Flushed)
    (hreset : vfdd.vfddDelete = true → R.reset (s.entry vfdd.vfddFe).core)
    (h : s.vrFlowDeferCb o vfdd = some s') :
    ReflTransGen (FlowMove cfg R) (s.viewWith (some vfdd.item)) s'.view := by
  rcases vrFlowDeferCb_cases hflushed h with ⟨hdelete, h⟩ | ⟨hdelete, s₁, hevict, hrest⟩
  · exact .single (vrFlowResetEntry_move rfl hdelete (hreset hdelete) h)
  have hdelete : vfdd.item.delete = false := hdelete
  have hfinish : FlowMove cfg R (s'.viewWith (some vfdd.item)) s'.view := by
    refine .finish rfl fun hdelete' => ?_
    rw [hdelete] at hdelete'
    cases hdelete'
  have hevict : ReflTransGen (FlowMove cfg R) (s.viewWith (some vfdd.item))
      (s₁.viewWith (some vfdd.item)) := vrFlowEvictFlow_refines hdelete hevict
  rcases hrest with rfl | ⟨rfe, hrest⟩
  · exact hevict.tail hfinish
  · exact (hevict.trans (vrFlowEvictFlow_refines hdelete hrest)).tail hfinish

end FlowSys

end VRouter
