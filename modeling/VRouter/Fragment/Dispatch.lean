import VRouter.Fragment.Assembler

/-!
# VRouter — the buckets of the assembler in the two host ports

`vr_linux_fragment_assembler` and `dpdk_fragment_assembler` work off a CPU's queue in the same way,
but hash different addresses: the first those that `vr_flow_fill_pnode` saved in the queue element,
the second those that the packet carries when its turn comes. The packet of a head is a clone that
shares its header with the original, which may have gone through NAT by then.

* `linux_fragmentAssembler` — the Linux port is the one of `Fragment.Assembler`;
* `fragments_share_bucket` — as long as the addresses are still the saved ones where they are read
  from the packet, the fragments of a datagram meet in one bucket, and the head flushes them.
-/

namespace VRouter

open Function

inductive HostPort where
  | linux
  | dpdk
deriving DecidableEq

/-- An element of a CPU's queue, and the addresses in its packet when its turn comes. -/
structure QueuedFragment where
  vfqe : FragmentQueueElement
  ipSaddr : BitVec 32
  ipDaddr : BitVec 32
deriving DecidableEq

/-- The packet still has the addresses that were saved. -/
def QueuedFragment.Unchanged (q : QueuedFragment) : Prop :=
  q.ipSaddr = q.vfqe.plInnerSrcIp ∧ q.ipDaddr = q.vfqe.plInnerDstIp

/-- What happens to the buckets: the loop over a queue hands in an element, or a bucket is
scanned. -/
inductive DispatchAction where
  | arrive (q : QueuedFragment) (env : AssemblerEnv)
  | scan (index : Nat) (time : Nat → BitVec 32)

/-- The elements that `dpdk_fragment_assembler` hands in still have their addresses. -/
def DispatchAction.Saved (port : HostPort) : DispatchAction → Prop
  | .arrive q _ => port = .dpdk → q.Unchanged
  | .scan _ _ => True

/-- One action on one bucket. -/
def AssemblerTable.act (table : AssemblerTable) (index : Nat) (a : AssemblerAction) :
    AssemblerTable :=
  update table index
    ((assemblerStep (table index).1 a).1, (table index).2 ++ (assemblerStep (table index).1 a).2)

namespace HostPort

/-- What the port hashes: `__vr_fragment_get_hash` with the saved addresses, or
`vr_fragment_get_hash`. -/
def hashKey (q : QueuedFragment) : HostPort → FragmentKey
  | .linux => q.vfqe.key
  | .dpdk => ⟨q.ipSaddr, q.ipDaddr, q.vfqe.ipId, q.vfqe.plVrf.setWidth 16⟩

variable (hash : FragmentKey → BitVec 32)

def bucket (port : HostPort) (q : QueuedFragment) : Nat :=
  (hash (port.hashKey q)).toNat % vrLinuxAssemblerBuckets

def step (port : HostPort) (table : AssemblerTable) : DispatchAction → AssemblerTable
  | .arrive q env => table.act (port.bucket hash q) (.arrive q.vfqe env)
  | .scan index time => table.act index (.scan time)

def run (port : HostPort) (table : AssemblerTable) (as : List DispatchAction) : AssemblerTable :=
  as.foldl (port.step hash) table

/-- `vr_linux_fragment_assembler` and `dpdk_fragment_assembler`: `queue` is the list taken off the
CPU's queue, the latest element first. -/
def fragmentAssembler (port : HostPort) (table : AssemblerTable) :
    List (QueuedFragment × AssemblerEnv) → AssemblerTable
  | [] => table
  | tail :: tailP =>
    port.run hash table ((reverseQueue [tail] tailP).map fun p => .arrive p.1 p.2)

end HostPort

variable {hash : FragmentKey → BitVec 32} {table : AssemblerTable} {port : HostPort}

theorem insertQueue_run (queue : List (QueuedFragment × AssemblerEnv)) :
    insertQueue hash table (queue.map fun p => (p.1.vfqe, p.2)) =
      HostPort.linux.run hash table (queue.map fun p => .arrive p.1 p.2) := by
  induction queue generalizing table with
  | nil => rfl
  | cons p tailN ih => exact ih

/-- The addresses in the packets make no difference on Linux. -/
theorem linux_fragmentAssembler (queue : List (QueuedFragment × AssemblerEnv)) :
    HostPort.linux.fragmentAssembler hash table queue =
      vrLinuxFragmentAssembler hash table (queue.map fun p => (p.1.vfqe, p.2)) := by
  cases queue with
  | nil => rfl
  | cons tail tailP =>
    show HostPort.linux.run hash table ((reverseQueue [tail] tailP).map _) =
      insertQueue hash table (reverseQueue [(tail.1.vfqe, tail.2)] (tailP.map _))
    rw [← insertQueue_run, reverseQueue_eq, reverseQueue_eq, List.map_append, List.map_reverse]
    rfl

/-- A head flushes what waits for it. -/
theorem Assembled.flushes {list : List VrFragment} {e : FragmentQueueElement}
    {r : List VrFragment × List FragEvent} (h : Assembled list e r) (hok : BucketOk list)
    (hhead : e.fragHead = true) {x : FragmentQueueElement} (hx : x ∈ queuedElements list)
    (hkey : x.key = e.key) : .flush x true ∈ r.2 := by
  obtain ⟨frag, hfrag, hmem⟩ := List.mem_flatMap.mp hx
  have hxkey := (hok.elem frag hfrag x hmem).1
  cases h with
  | passed ev hgone henq hdeq hnone => exact absurd (hxkey.symm.trans hkey) (hnone hhead frag hfrag)
  | joined before after frag time hlist hfkey hnot => rw [hhead] at hnot; cases hnot
  | started time hnew hnot => rw [hhead] at hnot; cases hnot
  | flushed before after found hlist hfkey _ =>
    subst hlist
    -- there is one entry for the key
    have hsame : frag = found := by
      by_contra hne
      have hother : frag ∈ before ++ after := by
        simp only [List.mem_append, List.mem_cons, hne, false_or] at hfrag ⊢
        exact hfrag
      exact hok.around.2.1 frag hother (hxkey.symm.trans (hkey.trans hfkey.symm))
    subst hsame
    exact List.mem_cons_of_mem _ (List.mem_map_of_mem hmem)

/-- What holds of the buckets: each is in order, and a fragment waits in the bucket of its key. -/
structure BucketsOk (hash : FragmentKey → BitVec 32) (table : AssemblerTable) : Prop where
  ok : ∀ index, BucketOk (table index).1
  place : ∀ index, ∀ e ∈ queuedElements (table index).1,
    (hash e.key).toNat % vrLinuxAssemblerBuckets = index

theorem HostPort.bucket_eq {q : QueuedFragment} (h : port = .dpdk → q.Unchanged) :
    port.bucket hash q = (hash q.vfqe.key).toNat % vrLinuxAssemblerBuckets := by
  cases port with
  | linux => rfl
  | dpdk =>
    obtain ⟨hsaddr, hdaddr⟩ := h rfl
    rw [HostPort.bucket, HostPort.hashKey, hsaddr, hdaddr]
    rfl

theorem BucketsOk.act (h : BucketsOk hash table) {index : Nat} {a : AssemblerAction}
    (ha : ∀ e ∈ arrivals [a], (hash e.key).toNat % vrLinuxAssemblerBuckets = index) :
    BucketsOk hash (table.act index a) := by
  refine ⟨fun i => ?_, fun i e he => ?_⟩
  all_goals by_cases hi : i = index
  · subst hi
    rw [AssemblerTable.act, update_self]
    exact (assemblerStep_accounts (h.ok i) a).ok
  · rw [AssemblerTable.act, update_of_ne hi]
    exact h.ok i
  · subst hi
    rw [AssemblerTable.act, update_self] at he
    have hmem := (assemblerStep_accounts (h.ok i) a).perm.mem_iff.mpr (List.mem_append_right _ he)
    rcases List.mem_append.mp hmem with hnew | hold
    · exact ha e hnew
    · exact h.place i e hold
  · rw [AssemblerTable.act, update_of_ne hi] at he
    exact h.place i e he

theorem BucketsOk.step (h : BucketsOk hash table) {a : DispatchAction} (ha : a.Saved port) :
    BucketsOk hash (port.step hash table a) := by
  cases a with
  | arrive q env =>
    refine h.act fun e he => ?_
    obtain rfl : q.vfqe = e := by
      simp only [arrivals, List.filterMap_cons] at he
      split at he <;> simp_all
    exact (HostPort.bucket_eq ha).symm
  | scan index time => exact h.act fun e he => by simp [arrivals] at he

theorem BucketsOk.run {as : List DispatchAction} (h : BucketsOk hash table)
    (has : ∀ a ∈ as, a.Saved port) : BucketsOk hash (port.run hash table as) := by
  induction as generalizing table with
  | nil => exact h
  | cons a as ih =>
    rw [List.forall_mem_cons] at has
    exact ih (h.step has.1) has.2

theorem bucketsOk_nil : BucketsOk hash fun _ => ([], []) :=
  ⟨fun _ => bucketOk_nil, fun _ _ he => nomatch he⟩

/-- **The fragments of a datagram are put into one bucket, and after its head none of them waits in
any bucket: those that did were flushed**, in every run that starts with empty buckets, if the
packets whose addresses are hashed still have the saved ones. -/
theorem fragments_share_bucket (port : HostPort) (hash : FragmentKey → BitVec 32)
    {as : List DispatchAction} (hsaved : ∀ a ∈ as, a.Saved port) :
    (∀ q env q' env', .arrive q env ∈ as → .arrive q' env' ∈ as → q.vfqe.key = q'.vfqe.key →
      port.bucket hash q = port.bucket hash q') ∧
    ∀ pre q env post, as = pre ++ .arrive q env :: post → q.vfqe.plPacket.isSome →
      q.vfqe.fragHead = true →
      let before := port.run hash (fun _ => ([], [])) pre
      let after := port.step hash before (.arrive q env)
      ∀ index, ofKey q.vfqe.key (queuedElements (after index).1) = [] ∧
        ∀ e ∈ ofKey q.vfqe.key (queuedElements (before index).1),
          .flush e true ∈ (after index).2 := by
  refine ⟨fun q env q' env' hq hq' hkey => ?_, fun pre q env post has hp hhead => ?_⟩
  · rw [HostPort.bucket_eq (hsaved _ hq), HostPort.bucket_eq (hsaved _ hq'), hkey]
  intro before after i
  subst has
  have hq := hsaved (.arrive q env) (by simp)
  have hbefore : BucketsOk hash before :=
    bucketsOk_nil.run fun a ha => hsaved a (List.mem_append_left _ ha)
  have hafter : BucketsOk hash after := hbefore.step hq
  obtain ⟨p, hpacket⟩ := Option.isSome_iff_exists.mp hp
  by_cases hi : i = port.bucket hash q
  · -- the bucket of the head
    subst hi
    have hassembled := vrFragmentAssembler_assembled env (hbefore.ok (port.bucket hash q)) hp
    simp only [after, HostPort.step, AssemblerTable.act, update_self, assemblerStep,
      hpacket]
    refine ⟨hassembled.head (hbefore.ok _) hhead, fun e he => List.mem_append_right _ ?_⟩
    obtain ⟨hmem, hkey⟩ := List.mem_filter.mp he
    exact hassembled.flushes (hbefore.ok _) hhead hmem (of_decide_eq_true hkey)
  · -- no other bucket has held any of them
    have hnone {t : AssemblerTable} (ht : BucketsOk hash t) :
        ofKey q.vfqe.key (queuedElements (t i).1) = [] := by
      refine List.filter_eq_nil_iff.mpr fun e he hkey => hi ?_
      rw [HostPort.bucket_eq hq, ← of_decide_eq_true hkey, ht.place i e he]
    rw [hnone hafter, hnone hbefore]
    exact ⟨rfl, fun e he => absurd he List.not_mem_nil⟩

/-- A fragment and the head of its datagram, whose packet has another source by its turn. -/
def natFragments (saddr : BitVec 32) : List (QueuedFragment × AssemblerEnv) :=
  [(⟨⟨some 1, 1, 2, 3, 4, true⟩, saddr, 3⟩, ⟨false, true, 7⟩),
    (⟨⟨some 0, 1, 2, 3, 4, false⟩, 2, 3⟩, ⟨false, true, 7⟩)]

/-- The hash is the source address. -/
def sourceHash (key : FragmentKey) : BitVec 32 := key.fkSip

theorem fragments_share_bucket_dpdk :
    let as := (natFragments 2).reverse.map fun p => DispatchAction.arrive p.1 p.2
    (∀ a ∈ as, a.Saved .dpdk) ∧
      HostPort.dpdk.fragmentAssembler sourceHash (fun _ => ([], [])) (natFragments 2) =
        HostPort.dpdk.run sourceHash (fun _ => ([], [])) as ∧
      ∀ index, ofKey ⟨2, 3, 4, 1⟩ (queuedElements
        (HostPort.dpdk.run sourceHash (fun _ => ([], [])) as index).1) = [] := by
  intro as
  have hsaved : ∀ a ∈ as, a.Saved .dpdk := by
    simp [as, natFragments, DispatchAction.Saved, QueuedFragment.Unchanged]
  refine ⟨hsaved, rfl, fun index => ?_⟩
  exact ((fragments_share_bucket .dpdk sourceHash hsaved).2 [_] _ _ [] rfl rfl rfl index).1

/-- On DPDK a head that has gone through NAT is put into another bucket, and the fragment goes on
waiting. -/
theorem natted_head_misses :
    let table := HostPort.dpdk.fragmentAssembler sourceHash (fun _ => ([], [])) (natFragments 9)
    queuedElements (table 2).1 = [⟨some 0, 1, 2, 3, 4, false⟩] ∧
      (table 9).2 = [.free ⟨some 1, 1, 2, 3, 4, true⟩ .clonedOriginal false] := by
  decide +kernel

end VRouter
