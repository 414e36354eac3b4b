import VRouter.Flow.Claim

/-!
# VRouter — hold queues

A flow on hold has a queue for the packets that come until the agent has decided about it. The queue
is attached when an entry is taken into use for a packet or a request on hold, or when a request
puts an entry on hold; a work item takes it off again, flushes it and hands it on to a callback.

There is one lemma here for each function that touches a queue, and it says where the queues are
afterwards. What the other functions leave alone is in `VRouter.Flow.Frame`.
-/

namespace VRouter

open LongestMatch

variable {cfg : FlowConfig} {s s' : FlowSys} {o : FlowOutcome} {fe : Nat}

/-! ## Queueing a packet -/

/-- What `vr_enqueue_flow` makes of a queue. -/
def FlowQueue.enqueued (vfq : FlowQueue) (pkt : FlowPacket) (cloned : Bool) : FlowQueue where
  vfqIndex := vfq.vfqIndex
  vfqEntries := (vfq.vfqEntries + 1) % 2 ^ 32
  vfqPnodes :=
    if vrMaxFlowQueueEntries ≤ vfq.vfqEntries then vfq.vfqPnodes
    else Function.update vfq.vfqPnodes vfq.vfqEntries
      (if vfq.vfqEntries = 0 && !cloned then none else some pkt)

theorem FlowEntry.withQueue_lasting (e : FlowEntry) (f : Option FlowQueue → Option FlowQueue) :
    (e.withQueue f).lasting = e.lasting.withQueue f := rfl

theorem vrEnqueueFlow_lasting (e : FlowEntry) (pkt : FlowPacket) (cloned : Bool) :
    (e.vrEnqueueFlow pkt cloned).lasting =
      (e.withQueue (Option.map fun vfq => vfq.enqueued pkt cloned)).lasting := by
  unfold FlowEntry.vrEnqueueFlow FlowEntry.withQueue
  cases hqueue : e.feHoldList with
  | none =>
    show e.lasting = { e with feHoldList := none }.lasting
    rw [← hqueue]
  | some vfq =>
    unfold FlowQueue.enqueued
    by_cases hfull : vrMaxFlowQueueEntries ≤ vfq.vfqEntries
    · simp only [if_pos hfull, Option.map_some]
    · simp only [if_neg hfull, Option.map_some]
      split <;> rfl

namespace FlowSys

theorem lasting_modify_congr {i : Nat} {f g : FlowEntry → FlowEntry} {s₁ : FlowSys}
    (hs : s₁.lasting = s.lasting)
    (h : ∀ e e' : FlowEntry, e.lasting = e'.lasting → (f e).lasting = (g e').lasting) :
    (s₁.modify i f).lasting = (s.modify i g).lasting := by
  have hentry := lasting_entry hs
  have hall : (fun j => ((s₁.modify i f).entry j).lasting) =
      fun j => ((s.modify i g).entry j).lasting := by
    funext j
    rw [modify_apply, modify_apply]
    split
    · exact h _ _ (hentry j)
    · exact hentry j
  have hrest : { s₁.lasting with entry := fun j => ((s.modify i g).entry j).lasting } =
      { s.lasting with entry := fun j => ((s.modify i g).entry j).lasting } := by rw [hs]
  show { s₁.lasting with entry := fun j => ((s₁.modify i f).entry j).lasting } = _
  rw [hall]
  exact hrest

/-- The part of `vr_flow_lookup` behind the lookup queues the packet if the flow is on hold and not
marked for eviction. -/
theorem handlePacket_lasts {pkt : FlowPacket} {result : FlowResult}
    (h : s.handlePacket o fe pkt = some (s', result)) :
    (Lasts s s' ∧
        ((s.entry fe).feFlags.evictCandidate = true ∨ (s.entry fe).feAction ≠ .hold)) ∨
      ((s.entry fe).feFlags.evictCandidate = false ∧ (s.entry fe).feAction = .hold ∧
        Lasts (s.modify fe fun e =>
          e.withQueue (Option.map fun vfq => vfq.enqueued pkt o.cloned)) s') := by
  unfold handlePacket at h
  cases hcandidate : (s.entry fe).feFlags.evictCandidate with
  | true =>
    rw [hcandidate] at h
    cases h
    exact Or.inl ⟨.refl s, Or.inl rfl⟩
  | false =>
    rw [hcandidate] at h
    simp only [Bool.false_eq_true, if_false] at h
    unfold vrDoFlowAction at h
    dsimp only at h
    generalize hs₁ : ((s.vrFlowTcpDigest fe pkt).modify fe fun e => e.countPacket pkt.pktLen) = s₁
      at h
    have hlasts : Lasts s s₁ := by
      rw [← hs₁]
      exact (s.vrFlowTcpDigest_lasts fe pkt).trans (.modify rfl)
    have hworks : s₁.works = s.works := by
      rw [← hs₁]
      exact s.vrFlowTcpDigest_works fe pkt
    have haction : (s₁.entry fe).feAction = (s.entry fe).feAction :=
      FlowEntry.eq_of_lasting _ (fun _ => rfl) (lasting_entry hlasts.lasting fe)
    rw [haction] at h
    split at h
    · rename_i hhold
      cases h
      refine Or.inr ⟨rfl, hhold, .of_works (lasting_modify_congr hlasts.lasting fun e e' he => ?_)
        hworks⟩
      rw [vrEnqueueFlow_lasting, FlowEntry.withQueue_lasting, he, FlowEntry.withQueue_lasting]
    · rename_i hhold
      exact Or.inl ⟨hlasts.trans (vrFlowAction_lasts h), Or.inr hhold⟩

theorem handlePacket_frame {pkt : FlowPacket} {result : FlowResult}
    (h : s.handlePacket o fe pkt = some (s', result)) : s'.frame = s.frame := by
  rcases handlePacket_lasts h with ⟨hs, -⟩ | ⟨-, -, hs⟩
  · exact frame_of_lasting hs.lasting
  · exact (frame_of_lasting hs.lasting).trans (frame_modify rfl)

/-! ## Taking entries -/

theorem takenEntry_holdList (e : FlowEntry) (fe : Nat) (type : VpType) (key : List Octet)
    (needHold : Bool) :
    (takenEntry e fe type key needHold).feHoldList = takenQueue needHold fe e.feHoldList := by
  have hactivate : e.activate.feHoldList = e.feHoldList := by
    unfold FlowEntry.activate
    split
    · rfl
    · split <;> rfl
  rw [← hactivate]
  rfl

theorem vrFlowGetFreeEntry_some {key : List Octet} {type : VpType} {needHold : Bool}
    (h : s.vrFlowGetFreeEntry cfg o key type needHold = some (some fe, s')) :
    ∃ t, vrHtableFindFreeHentry s.ht.table (cfg.vrHash key) = some (some fe, t) ∧
      s' = { s.modify fe fun e => takenEntry e fe type key needHold with
        ht := { s.ht with table := t }
        incarnation := Function.update s.incarnation fe (s.incarnation fe + 1) } := by
  rcases vrFlowGetFreeEntry_cases h with ⟨hfe, -⟩ | ⟨fe', t, hfe, -, hfree, hs⟩ <;> cases hfe
  exact ⟨t, hfree, hs⟩

/-! ## Releasing entries -/

theorem vrFlowResetEntry_eq (h : s.vrFlowResetEntry o fe = some s') :
    ∃ ht, vrHtableReleaseHentry s.ht (o.htScheduled fe) fe = some ht ∧
      s' = { s.modify fe FlowEntry.resetAll with ht := ht } := by
  obtain ⟨ht, hrelease, rfl⟩ := Option.map_eq_some_iff.mp h
  exact ⟨ht, hrelease, rfl⟩

/-- What is in use behind an eviction was so before it, and is unchanged. -/
theorem vrFlowEvictFlow_in_use (hinv : FlowInv cfg s.view) {i : Nat}
    (h : s.vrFlowEvictFlow o fe = some s') (hvalid : s'.view.valid i = true) :
    s.view.valid i = true ∧ s'.entry i = s.entry i := by
  rcases vrFlowEvictFlow_eq h with rfl | ⟨-, -, ht, hrelease, rfl⟩
  · exact ⟨hvalid, rfl⟩
  obtain ⟨-, -, hreleases⟩ := hinv.releases hrelease
  have hvalid : (ht.table.hentry i).flagValid = true := hvalid
  rw [(hreleases i).1] at hvalid
  split at hvalid
  · cases hvalid
  · rename_i hi
    exact ⟨hvalid, modify_of_ne _ _ _ hi⟩

/-- A callback resets its entry, or evicts it and possibly one more. What each of these releases
keeps, the callback keeps. An entry that is released was not in use any more, or it is one that the
callback as a whole releases, and it has not been written before. -/
theorem step_callback_rule {P : FlowSys → Prop} (hinv : FlowInv cfg s.view) {n : Nat}
    (hstep : s.step cfg (.callback n o) = some s')
    (hs : P { s with callbacks := s.callbacks.eraseIdx n })
    (hrelease : ∀ s₁ i f ht, P s₁ →
      (f = FlowEntry.resetAll ∧ ∃ vfdd ∈ s.callbacks, vfdd.vfddDelete = true ∧ vfdd.vfddFe = i) ∨
        (f = FlowEntry.evictCore ∧ (s₁.entry i).feFlags.evictCandidate = true) →
      s₁.ht.table.Releases ht.table i →
      (s₁.view.valid i = true → s₁.entry i = s.entry i ∧ s.Releases s' i) →
      P { s₁.modify i f with ht := ht }) : P s' := by
  obtain ⟨vfdd, hget, hcallback⟩ := step_callback hstep
  have hmem := List.mem_of_getElem? hget
  have hflushed := hinv.flushed vfdd hmem
  have hinv := inv_eraseCallback hinv n
  rcases vrFlowDeferCb_cases hflushed hcallback with
    ⟨hdelete, hreset⟩ | ⟨-, s₁, hevict, hrest⟩
  · obtain ⟨ht, hht, rfl⟩ := vrFlowResetEntry_eq hreset
    obtain ⟨-, -, hreleases⟩ := hinv.releases hht
    exact hrelease _ _ _ ht hs (Or.inl ⟨rfl, vfdd, hmem, hdelete, rfl⟩) hreleases
      fun hvalid => ⟨rfl, hvalid, (hreleases _).1.trans (if_pos rfl)⟩
  have hevicted : ∀ {s₁ s₂ i}, FlowInv cfg (view s₁) → P s₁ → s₁.vrFlowEvictFlow o i = some s₂ →
      (s₁.Releases s₂ i → s₁.entry i = s.entry i ∧ s.Releases s' i) → P s₂ := by
    intro s₁ s₂ i hinv₁ hs₁ hevict hsame
    rcases vrFlowEvictFlow_eq hevict with rfl | ⟨-, hcandidate, ht, hht, rfl⟩
    · exact hs₁
    obtain ⟨-, -, hreleases⟩ := hinv₁.releases hht
    exact hrelease s₁ i _ ht hs₁ (Or.inr ⟨rfl, hcandidate⟩) hreleases
      fun hvalid => hsame ⟨hvalid, (hreleases i).1.trans (if_pos rfl)⟩
  rcases hrest with rfl | ⟨rfe, hrest⟩
  · exact hevicted hinv hs hevict fun hrel => ⟨rfl, hrel⟩
  have hinv₁ := (vrFlowEvictFlow_keeps hinv hevict (i := rfe)).1
  have hs₁ : P s₁ := by
    refine hevicted hinv hs hevict fun hrel => ⟨rfl, hrel.1, ?_⟩
    rw [← Bool.not_eq_true]
    intro hvalid
    cases hrel.2.symm.trans (vrFlowEvictFlow_in_use hinv₁ hrest hvalid).1
  refine hevicted hinv₁ hs₁ hrest fun hrel => ?_
  obtain ⟨hvalid, hentry⟩ := vrFlowEvictFlow_in_use hinv hevict hrel.1
  exact ⟨hentry, hvalid, hrel.2⟩

end FlowSys

end VRouter
