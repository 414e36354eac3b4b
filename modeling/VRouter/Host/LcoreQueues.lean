import VRouter.Lib.Run

/-!
# VRouter — the receive queues of a DPDK lcore

An lcore has its receive queues in a list, in the order of their interfaces. Whether a queue is in
the list is noted in the queue, and the lcore counts its queues for the scheduler. Transmit queues
have a list of their own, which nothing here reads.
-/

namespace VRouter

open Function List

/-- `VR_MAX_INTERFACES`. -/
abbrev vrMaxInterfaces : Nat := 256 + 4096

/-- A receive queue and the `vif_idx` of its interface. -/
structure DpdkQueue where
  id : Nat
  vifIdx : Fin vrMaxInterfaces
deriving DecidableEq

structure LcoreQueues where
  lcoreRxHead : List DpdkQueue := []
  enabled : DpdkQueue → Bool := fun _ => false
  lcoreNbRxQueues : Nat := 0

inductive LcoreStep
  | queueAdd (queue : DpdkQueue)
  | rxQueueRemove (queue : DpdkQueue)

namespace LcoreQueues

/-- `dpdk_lcore_queue_add`: in front of the first queue whose index is not smaller. -/
def dpdkLcoreQueueAdd (s : LcoreQueues) (queue : DpdkQueue) : LcoreQueues :=
  if s.enabled queue then s
  else
    { lcoreRxHead := s.lcoreRxHead.orderedInsert (fun q q' => q.vifIdx ≤ q'.vifIdx) queue
      enabled := update s.enabled queue true
      lcoreNbRxQueues := (s.lcoreNbRxQueues + 1) % 2 ^ 16 }

/-- `dpdk_lcore_rx_queue_remove`; `none` if `SLIST_REMOVE` runs off the list or the counter fails
the check behind it. -/
def dpdkLcoreRxQueueRemove (s : LcoreQueues) (queue : DpdkQueue) : Option LcoreQueues :=
  if s.enabled queue then
    let nb := (s.lcoreNbRxQueues + (2 ^ 16 - 1)) % 2 ^ 16
    if queue ∈ s.lcoreRxHead ∧ nb ≤ vrMaxInterfaces then
      some ⟨s.lcoreRxHead.erase queue, update s.enabled queue false, nb⟩
    else none
  else some s

def step (s : LcoreQueues) : LcoreStep → Option LcoreQueues
  | .queueAdd queue => some (s.dpdkLcoreQueueAdd queue)
  | .rxQueueRemove queue => s.dpdkLcoreRxQueueRemove queue

/-- No queue is added beside another one of its interface. -/
def DistinctVifs (s : LcoreQueues) : LcoreStep → Prop
  | .queueAdd queue => ∀ q ∈ s.lcoreRxHead, q.vifIdx = queue.vifIdx → q = queue
  | .rxQueueRemove _ => True

/-- List, marks and counter agree. -/
structure Listed (s : LcoreQueues) : Prop where
  ascending : (s.lcoreRxHead.map (·.vifIdx)).SortedLT
  mem_iff : ∀ queue, queue ∈ s.lcoreRxHead ↔ s.enabled queue = true
  count : s.lcoreNbRxQueues = s.lcoreRxHead.length

variable {s : LcoreQueues} {queue : DpdkQueue}

theorem length_le {l : List DpdkQueue} (h : (l.map (·.vifIdx)).SortedLT) :
    l.length ≤ 256 + 4096 := by
  have hcard := h.nodup.length_le_card
  rwa [length_map, Fintype.card_fin] at hcard

theorem Listed.dpdkLcoreQueueAdd (h : s.Listed) (hdistinct : s.DistinctVifs (.queueAdd queue)) :
    (s.dpdkLcoreQueueAdd queue).Listed := by
  unfold LcoreQueues.dpdkLcoreQueueAdd
  split
  · exact h
  rename_i hdisabled
  have hnew : queue.vifIdx ∉ s.lcoreRxHead.map (·.vifIdx) := by
    rintro hmem
    obtain ⟨q, hq, heq⟩ := mem_map.mp hmem
    exact hdisabled ((h.mem_iff queue).mp (hdistinct q hq heq ▸ hq))
  have hsorted : ((s.lcoreRxHead.orderedInsert (fun q q' => q.vifIdx ≤ q'.vifIdx) queue).map
      (·.vifIdx)).SortedLT := by
    rw [map_orderedInsert _ (· ≤ ·) _ _ _ (fun _ _ => Iff.rfl) fun _ _ => Iff.rfl]
    refine sortedLT_iff_nodup_and_sortedLE.mpr ⟨?_, ?_⟩
    · exact (perm_orderedInsert _ _ _).nodup_iff.mpr (nodup_cons.mpr ⟨hnew, h.ascending.nodup⟩)
    · exact (h.ascending.sortedLE.pairwise.orderedInsert _ _).sortedLE
  refine ⟨hsorted, fun q => ?_, ?_⟩
  · rw [mem_orderedInsert, h.mem_iff]
    by_cases hq : q = queue <;> simp [hq]
  · have hlen := length_le hsorted
    show (s.lcoreNbRxQueues + 1) % 2 ^ 16 = _
    rw [orderedInsert_length] at hlen ⊢
    rw [h.count]
    omega

/-- A removal finds its queue, and the counter passes the check. -/
theorem Listed.dpdkLcoreRxQueueRemove (h : s.Listed) (queue : DpdkQueue) :
    ∃ s', s.dpdkLcoreRxQueueRemove queue = some s' ∧ s'.Listed := by
  unfold LcoreQueues.dpdkLcoreRxQueueRemove
  split
  · rename_i henabled
    have hmem := (h.mem_iff queue).mpr henabled
    have hpos := length_pos_of_mem hmem
    have hlen := length_le h.ascending
    have hnb : (s.lcoreNbRxQueues + (2 ^ 16 - 1)) % 2 ^ 16 = s.lcoreRxHead.length - 1 := by
      rw [h.count]
      omega
    rw [hnb, if_pos ⟨hmem, (Nat.sub_le _ _).trans hlen⟩]
    refine ⟨_, rfl, ?_, fun q => ?_, (length_erase_of_mem hmem).symm⟩
    · exact (h.ascending.pairwise.sublist (erase_sublist.map _)).sortedLT
    · rw [(h.ascending.nodup.of_map _).mem_erase_iff, h.mem_iff]
      by_cases hq : q = queue <;> simp [hq]
  · exact ⟨s, rfl, h⟩

end LcoreQueues

/-- **The receive queues of an lcore.** After every sequence of adds and removals, repeated ones
among them, that lists no two queues of one interface: the list is strictly ascending, it has
exactly the queues that are marked as enabled, the counter is its length, and the next removal goes
through. -/
theorem rx_queues_listed {as : List LcoreStep} {s : LcoreQueues}
    (hdistinct : StepsMeet LcoreQueues.step LcoreQueues.DistinctVifs {} as)
    (hrun : runSteps LcoreQueues.step {} as = some s) :
    (s.lcoreRxHead.map (·.vifIdx)).SortedLT ∧
      (∀ queue, queue ∈ s.lcoreRxHead ↔ s.enabled queue = true) ∧
      s.lcoreNbRxQueues = s.lcoreRxHead.length ∧
      ∀ queue, s.step (.rxQueueRemove queue) ≠ none := by
  have hinit : LcoreQueues.Listed {} := ⟨Pairwise.nil.sortedLT, by simp, rfl⟩
  have h : s.Listed := by
    refine runSteps_invariant_of_meet (fun s a s' h hok hstep => ?_) hinit hdistinct hrun
    cases a with
    | queueAdd queue =>
      cases hstep
      exact h.dpdkLcoreQueueAdd hok
    | rxQueueRemove queue =>
      obtain ⟨s₁, hs₁, h₁⟩ := h.dpdkLcoreRxQueueRemove queue
      cases hs₁.symm.trans hstep
      exact h₁
  refine ⟨h.ascending, h.mem_iff, h.count, fun queue hnone => ?_⟩
  obtain ⟨s₁, hs₁, -⟩ := h.dpdkLcoreRxQueueRemove queue
  cases hs₁.symm.trans hnone

/-- The queue of interface 2, that of interface 1, and the first one is removed, twice. -/
theorem rx_queues_listed_two :
    ∃ s, runSteps LcoreQueues.step {} [.queueAdd ⟨0, 2⟩, .queueAdd ⟨1, 1⟩, .rxQueueRemove ⟨0, 2⟩,
        .rxQueueRemove ⟨0, 2⟩] = some s ∧
      s.lcoreRxHead = [⟨1, 1⟩] ∧ s.lcoreNbRxQueues = 1 := by
  have hdistinct : StepsMeet LcoreQueues.step LcoreQueues.DistinctVifs {} [.queueAdd ⟨0, 2⟩,
      .queueAdd ⟨1, 1⟩, .rxQueueRemove ⟨0, 2⟩, .rxQueueRemove ⟨0, 2⟩] := by
    refine ⟨nofun, fun s hs => ⟨fun q hq heq => ?_, fun _ _ => ⟨trivial, fun _ _ => ⟨trivial,
      fun _ _ => trivial⟩⟩⟩⟩
    cases hs
    obtain rfl := mem_singleton.mp hq
    cases heq
  exact ⟨_, rfl, rfl, (rx_queues_listed hdistinct rfl).2.2.1⟩

end VRouter
