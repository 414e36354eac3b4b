import VRouter.Basic

/-!
# VRouter — the fragment assembler

Fragments that arrive before the ports of their datagram are known wait in the assembler: a bucket
is a list of `vr_fragment`s, one for each datagram, each with the queue of the fragments that wait
for its head. `vrFragmentAssembler` (`vr_fragment_assembler`) takes one fragment,
`vrAssemblerTableScan` (`vr_assembler_table_scan`) ages a bucket. What happens to each packet is
recorded as a list of `FragEvent`s.

* `assemblerRun_accounts` — every packet handed in is flushed, freed or queued, once, and the
  fragments of a datagram leave its queue in the order they came;
* `assemblerRun_head` — a head leaves no fragment of its datagram behind;
* `vrLinuxFragmentAssembler_eq` — working off a CPU's queue is such a run on every bucket.
-/

namespace VRouter

/-- `VR_ASSEMBLER_TIMEOUT_TIME`, in seconds. -/
def vrAssemblerTimeoutTime : Nat := 5

/-- `VR_MAX_FRAGMENTS_PER_ASSEMBLER_QUEUE`. -/
def vrMaxFragmentsPerAssemblerQueue : Nat := 256

/-- `struct vr_fragment_key`. -/
structure FragmentKey where
  fkSip : BitVec 32
  fkDip : BitVec 32
  fkId : BitVec 16
  fkVrf : BitVec 16
deriving DecidableEq, Repr

/-- `struct vr_fragment_queue_element`: the fields of its packet node that the assembler reads, and
the IP id it reads from the packet. -/
structure FragmentQueueElement where
  plPacket : Option Nat
  plVrf : BitVec 32
  plInnerSrcIp : BitVec 32
  plInnerDstIp : BitVec 32
  ipId : BitVec 16
  /-- `PN_FLAG_FRAGMENT_HEAD`. -/
  fragHead : Bool
deriving DecidableEq, Repr

/-- `__fragment_key`: the VRF is passed as an `unsigned short`. -/
def FragmentQueueElement.key (e : FragmentQueueElement) : FragmentKey :=
  ⟨e.plInnerSrcIp, e.plInnerDstIp, e.ipId, e.plVrf.setWidth 16⟩

/-- `struct vr_fragment`, as the assembler uses it. -/
structure VrFragment where
  fKey : FragmentKey
  fQe : List FragmentQueueElement
  fTime : Nat
  fPortInfoValid : Bool
deriving DecidableEq, Repr

/-- The reasons the assembler drops a packet for. -/
inductive FragmentDrop where
  | clonedOriginal | fragmentQueueFail | noMemory | fragments
deriving DecidableEq, Repr

/-- What is done with the packet of an element. `queued` tells the elements that come from the queue
of a datagram from those that are handled on arrival. -/
inductive FragEvent where
  | queue (e : FragmentQueueElement)
  | flush (e : FragmentQueueElement) (queued : Bool)
  | free (e : FragmentQueueElement) (reason : FragmentDrop) (queued : Bool)
deriving DecidableEq, Repr

/-! ## The assembler -/

/-- `vr_fragment_queue_element_free`: an element whose packet was passed on has none to free. -/
def vrFragmentQueueElementFree (e : FragmentQueueElement) (reason : FragmentDrop) (queued : Bool) :
    List FragEvent :=
  match e.plPacket with
  | some _ => [.free e reason queued]
  | none => []

/-- `vr_fragment_flush_queue_element`: `vr_flow_flush_pnode` takes the packet out of the node before
it sends it on, so the element is freed without it. -/
def vrFragmentFlushQueueElement (e : FragmentQueueElement) (queued : Bool) : List FragEvent :=
  match e.plPacket with
  | none => vrFragmentQueueElementFree e .clonedOriginal queued
  | some _ =>
    .flush e queued ::
      vrFragmentQueueElementFree { e with plPacket := none } .clonedOriginal queued

/-- `fragment_free_frag`. -/
def fragmentFreeFrag (frag : VrFragment) : List FragEvent :=
  frag.fQe.flatMap fun e => vrFragmentQueueElementFree e .fragments true

/-- What the surroundings decide when a fragment is handed in: whether `vr_fragment_get` knows the
ports of its datagram, whether `vr_zalloc` succeeds, and the time. -/
structure AssemblerEnv where
  fragFlow : Bool
  alloc : Bool
  sec : BitVec 32
deriving DecidableEq, Repr

/-- The end of `vr_fragment_assembler`: the element is put at the tail of the queue, or, if it is a
head, makes the ports known; a datagram whose ports are known is flushed and unlinked. `before` and
`after` are the entries of the bucket around `frag`. -/
def fragmentEnqueue (before after : List VrFragment) (frag : VrFragment)
    (e : FragmentQueueElement) : List VrFragment × List FragEvent :=
  let (frag, evs) :=
    if e.fragHead then
      ({ frag with fPortInfoValid := true }, vrFragmentQueueElementFree e .clonedOriginal false)
    else ({ frag with fQe := frag.fQe ++ [e] }, [FragEvent.queue e])
  if frag.fPortInfoValid then
    (before ++ after, evs ++
      (frag.fQe.flatMap fun e => vrFragmentFlushQueueElement e true) ++
        fragmentFreeFrag { frag with fQe := [] })
  else (before ++ frag :: after, evs)

/-- The walk of `vr_fragment_assembler` through the bucket: the entries before the one with the key,
that entry, and those after it. -/
def fragmentFind (key : FragmentKey) :
    List VrFragment → Option (List VrFragment × VrFragment × List VrFragment)
  | [] => none
  | frag :: rest =>
    if frag.fKey = key then some ([], frag, rest)
    else (fragmentFind key rest).map fun (before, found, after) => (frag :: before, found, after)

/-- `vr_fragment_assembler`. -/
def vrFragmentAssembler (env : AssemblerEnv) (list : List VrFragment) (e : FragmentQueueElement) :
    Except Errno Unit × List VrFragment × List FragEvent :=
  if !e.fragHead && env.fragFlow then (.ok (), list, vrFragmentFlushQueueElement e false)
  else
    match fragmentFind e.key list with
    | some (before, frag, after) =>
      (.ok (), fragmentEnqueue before after { frag with fTime := env.sec.toNat } e)
    | none =>
      if e.fragHead then (.ok (), list, vrFragmentQueueElementFree e .clonedOriginal false)
      else if list.length > vrMaxFragmentsPerAssemblerQueue then
        (.ok (), list, vrFragmentQueueElementFree e .fragmentQueueFail false)
      else if !env.alloc then
        (.error .ENOMEM, list, vrFragmentQueueElementFree e .noMemory false)
      else (.ok (), fragmentEnqueue [] list ⟨e.key, [], env.sec.toNat, false⟩ e)

/-- The test of `vr_assembler_table_scan`. `f_time` has 64 bits, `dest` has 32. -/
def fragmentExpired (sec : BitVec 32) (frag : VrFragment) : Bool :=
  let dest := (frag.fTime + vrAssemblerTimeoutTime) % 2 ^ 32
  if dest < frag.fTime then decide (sec.toNat < frag.fTime) && decide (dest < sec.toNat)
  else decide (sec.toNat > dest) || decide (sec.toNat < frag.fTime)

/-- `vr_assembler_table_scan`: the clock is read once for each entry, `time i` at the `i`-th. -/
def vrAssemblerTableScan (time : Nat → BitVec 32) :
    List VrFragment → List VrFragment × List FragEvent
  | [] => ([], [])
  | frag :: rest =>
    let (rest, evs) := vrAssemblerTableScan (fun i => time (i + 1)) rest
    if fragmentExpired (time 0) frag then (rest, fragmentFreeFrag frag ++ evs)
    else (frag :: rest, evs)

/-- What happens to a bucket: an element is handed in, as the loop of `vr_linux_fragment_assembler`
does, or the bucket is scanned. -/
inductive AssemblerAction where
  | arrive (e : FragmentQueueElement) (env : AssemblerEnv)
  | scan (time : Nat → BitVec 32)

/-- One action on a bucket. `vr_linux_fragment_assembler` passes over an element without a
packet. -/
def assemblerStep (list : List VrFragment) : AssemblerAction → List VrFragment × List FragEvent
  | .arrive e env =>
    match e.plPacket with
    | some _ => (vrFragmentAssembler env list e).2
    | none => (list, [])
  | .scan time => vrAssemblerTableScan time list

/-- A sequence of actions on a bucket, with all that happened to the packets. -/
def assemblerRun (list : List VrFragment) :
    List AssemblerAction → List VrFragment × List FragEvent
  | [] => (list, [])
  | a :: as =>
    ((assemblerRun (assemblerStep list a).1 as).1,
      (assemblerStep list a).2 ++ (assemblerRun (assemblerStep list a).1 as).2)

/-! ## The work function of a CPU's queue -/

/-- `VR_LINUX_ASSEMBLER_BUCKETS`. -/
def vrLinuxAssemblerBuckets : Nat := 1024

/-- The buckets, each with what happened to its packets so far. -/
abbrev AssemblerTable := Nat → List VrFragment × List FragEvent

/-- The first loop of `vr_linux_fragment_assembler`, which reverses the queue: `tail` is the part
already reversed, `tailP` the rest. -/
def reverseQueue {α : Type} (tail : List α) : List α → List α
  | [] => tail
  | e :: tailP => reverseQueue (e :: tail) tailP

/-- The second loop of `vr_linux_fragment_assembler`; with each element come the decisions of the
surroundings at its turn. -/
def insertQueue (hash : FragmentKey → BitVec 32) (table : AssemblerTable) :
    List (FragmentQueueElement × AssemblerEnv) → AssemblerTable
  | [] => table
  | (e, env) :: tailN =>
    let index := (hash e.key).toNat % vrLinuxAssemblerBuckets
    let (list, evs) := assemblerStep (table index).1 (.arrive e env)
    insertQueue hash (Function.update table index (list, (table index).2 ++ evs)) tailN

/-- `vr_linux_fragment_assembler`: `queue` is the list taken off the CPU's queue, the latest element
first. -/
def vrLinuxFragmentAssembler (hash : FragmentKey → BitVec 32) (table : AssemblerTable) :
    List (FragmentQueueElement × AssemblerEnv) → AssemblerTable
  | [] => table
  | tail :: tailP => insertQueue hash table (reverseQueue [tail] tailP)

/-! ## Where the packets are -/

/-- The element of a packet that is flushed or freed. -/
def FragEvent.gone : FragEvent → Option FragmentQueueElement
  | .queue _ => none
  | .flush e _ => some e
  | .free e _ _ => some e

/-- The element of a packet that is flushed. -/
def FragEvent.flushed : FragEvent → Option FragmentQueueElement
  | .queue _ => none
  | .flush e _ => some e
  | .free _ _ _ => none

/-- The element of a packet that is freed. -/
def FragEvent.freed : FragEvent → Option FragmentQueueElement
  | .queue _ => none
  | .flush _ _ => none
  | .free e _ _ => some e

/-- The element of a packet that is put into the queue of its datagram. -/
def FragEvent.enqueued : FragEvent → Option FragmentQueueElement
  | .queue e => some e
  | .flush _ _ => none
  | .free _ _ _ => none

/-- The element of a packet that leaves the queue of its datagram. -/
def FragEvent.dequeued : FragEvent → Option FragmentQueueElement
  | .queue _ => none
  | .flush e queued => if queued then some e else none
  | .free e _ queued => if queued then some e else none

/-- All elements queued in a bucket. -/
def queuedElements (list : List VrFragment) : List FragmentQueueElement :=
  list.flatMap (·.fQe)

/-- The elements handed in, those with a packet. -/
def arrivals (as : List AssemblerAction) : List FragmentQueueElement :=
  as.filterMap fun
    | .arrive e _ => if e.plPacket.isSome then some e else none
    | .scan _ => none

/-- The elements of a datagram. -/
def ofKey (key : FragmentKey) (es : List FragmentQueueElement) : List FragmentQueueElement :=
  es.filter fun e => e.key = key

/-- What holds of a bucket in every run: there is one entry for each datagram, it holds fragments of
that datagram with their packets, and its ports are not known yet. -/
structure BucketOk (list : List VrFragment) : Prop where
  keys : (list.map (·.fKey)).Nodup
  elem : ∀ frag ∈ list, ∀ e ∈ frag.fQe, e.key = frag.fKey ∧ e.plPacket.isSome
  ports : ∀ frag ∈ list, frag.fPortInfoValid = false

/-! ## What one call does -/

/-- All that `vr_fragment_assembler` can do with an element that has a packet: it passes the packet
on or drops it at once, queues it in the entry of its datagram or in a new one, or, for a head,
flushes the entry. -/
inductive Assembled (list : List VrFragment) (e : FragmentQueueElement) :
    List VrFragment × List FragEvent → Prop
  | passed (ev : FragEvent) (hgone : ev.gone = some e) (henq : ev.enqueued = none)
      (hdeq : ev.dequeued = none)
      (hhead : e.fragHead = true → ∀ frag ∈ list, frag.fKey ≠ e.key) : Assembled list e (list, [ev])
  | joined (before after : List VrFragment) (frag : VrFragment) (time : Nat)
      (hlist : list = before ++ frag :: after) (hkey : frag.fKey = e.key)
      (hhead : e.fragHead = false) :
      Assembled list e
        (before ++ { frag with fTime := time, fQe := frag.fQe ++ [e] } :: after, [.queue e])
  | started (time : Nat) (hnew : ∀ frag ∈ list, frag.fKey ≠ e.key) (hhead : e.fragHead = false) :
      Assembled list e (⟨e.key, [e], time, false⟩ :: list, [.queue e])
  | flushed (before after : List VrFragment) (frag : VrFragment)
      (hlist : list = before ++ frag :: after) (hkey : frag.fKey = e.key)
      (hhead : e.fragHead = true) :
      Assembled list e
        (before ++ after, .free e .clonedOriginal false :: frag.fQe.map (.flush · true))

variable {list : List VrFragment} {e : FragmentQueueElement} {key : FragmentKey}

theorem vrFragmentQueueElementFree_eq (hp : e.plPacket.isSome) (reason : FragmentDrop)
    (queued : Bool) : vrFragmentQueueElementFree e reason queued = [.free e reason queued] := by
  obtain ⟨p, hp⟩ := Option.isSome_iff_exists.mp hp
  simp [vrFragmentQueueElementFree, hp]

theorem vrFragmentFlushQueueElement_eq (hp : e.plPacket.isSome) (queued : Bool) :
    vrFragmentFlushQueueElement e queued = [.flush e queued] := by
  obtain ⟨p, hp⟩ := Option.isSome_iff_exists.mp hp
  simp [vrFragmentFlushQueueElement, vrFragmentQueueElementFree, hp]

theorem flatMap_eq_map {es : List FragmentQueueElement} {f : FragmentQueueElement → List FragEvent}
    {g : FragmentQueueElement → FragEvent} (h : ∀ e ∈ es, f e = [g e]) :
    es.flatMap f = es.map g := by
  induction es with
  | nil => rfl
  | cons e es ih =>
    rw [List.flatMap_cons, h e (by simp), ih fun x hx => h x (List.mem_cons_of_mem e hx)]
    rfl

variable {frag : VrFragment} {before after list' : List VrFragment}

theorem fragmentFreeFrag_eq (hp : ∀ e ∈ frag.fQe, e.plPacket.isSome) :
    fragmentFreeFrag frag = frag.fQe.map (.free · .fragments true) :=
  flatMap_eq_map fun e he => vrFragmentQueueElementFree_eq (hp e he) _ _

theorem fragmentFind_none (h : fragmentFind key list = none) : ∀ frag ∈ list, frag.fKey ≠ key := by
  induction list with
  | nil => simp
  | cons frag rest ih =>
    simp only [fragmentFind] at h
    split at h
    · cases h
    · rename_i hne
      rintro f (_ | ⟨_, hf⟩)
      · exact hne
      · exact ih (Option.map_eq_none_iff.mp h) f hf

theorem fragmentFind_some (h : fragmentFind key list = some (before, frag, after)) :
    list = before ++ frag :: after ∧ frag.fKey = key := by
  induction list generalizing before with
  | nil => cases h
  | cons f rest ih =>
    simp only [fragmentFind] at h
    split at h
    · cases h
      exact ⟨rfl, ‹_›⟩
    · obtain ⟨⟨before', frag', after'⟩, hfind, heq⟩ := Option.map_eq_some_iff.mp h
      cases heq
      obtain ⟨hrest, hkey⟩ := ih hfind
      exact ⟨by rw [hrest]; rfl, hkey⟩

/-- A datagram whose ports are not known is flushed by a head, and by nothing else. -/
theorem fragmentEnqueue_eq (before after : List VrFragment) (frag : VrFragment)
    (hq : ∀ x ∈ frag.fQe, x.plPacket.isSome) (hports : frag.fPortInfoValid = false)
    (hp : e.plPacket.isSome) :
    fragmentEnqueue before after frag e =
      if e.fragHead then
        (before ++ after, .free e .clonedOriginal false :: frag.fQe.map (.flush · true))
      else (before ++ { frag with fQe := frag.fQe ++ [e] } :: after, [.queue e]) := by
  cases hh : e.fragHead with
  | true =>
    have hflush : (frag.fQe.flatMap fun x => vrFragmentFlushQueueElement x true) =
        frag.fQe.map (.flush · true) :=
      flatMap_eq_map fun x hx => vrFragmentFlushQueueElement_eq (hq x hx) true
    simp [fragmentEnqueue, hh, vrFragmentQueueElementFree_eq hp, hflush, fragmentFreeFrag]
  | false => simp [fragmentEnqueue, hh, hports]

theorem vrFragmentAssembler_assembled (env : AssemblerEnv) (hok : BucketOk list)
    (hp : e.plPacket.isSome) : Assembled list e (vrFragmentAssembler env list e).2 := by
  have hflush := vrFragmentFlushQueueElement_eq hp false
  have hfree := fun reason => vrFragmentQueueElementFree_eq hp reason false
  unfold vrFragmentAssembler
  split
  · rename_i hflow
    rw [hflush]
    refine .passed _ rfl rfl rfl fun hhead => ?_
    rw [hhead] at hflow
    cases hflow
  split
  · rename_i before frag after hfind
    obtain ⟨hlist, hkey⟩ := fragmentFind_some hfind
    have hmem : frag ∈ list := by rw [hlist]; simp
    have hq : ∀ x ∈ frag.fQe, x.plPacket.isSome := fun x hx => (hok.elem frag hmem x hx).2
    rw [fragmentEnqueue_eq before after { frag with fTime := env.sec.toNat } hq
      (hok.ports frag hmem) hp]
    cases hhead : e.fragHead with
    | true => exact .flushed before after frag hlist hkey hhead
    | false => exact .joined before after frag env.sec.toNat hlist hkey hhead
  · rename_i hfind
    have hnew := fragmentFind_none hfind
    split
    · rw [hfree]
      exact .passed _ rfl rfl rfl fun _ => hnew
    rename_i hhead
    rw [Bool.not_eq_true] at hhead
    split
    · rw [hfree]
      exact .passed _ rfl rfl rfl fun _ => hnew
    split
    · rw [hfree]
      exact .passed _ rfl rfl rfl fun _ => hnew
    · rw [fragmentEnqueue_eq [] list _ (by simp) rfl hp, hhead]
      exact .started env.sec.toNat hnew hhead

/-! ## The entries of a bucket -/

@[simp] theorem queuedElements_append (l₁ l₂ : List VrFragment) :
    queuedElements (l₁ ++ l₂) = queuedElements l₁ ++ queuedElements l₂ :=
  List.flatMap_append

@[simp] theorem queuedElements_cons (frag : VrFragment) (rest : List VrFragment) :
    queuedElements (frag :: rest) = frag.fQe ++ queuedElements rest :=
  List.flatMap_cons

@[simp] theorem ofKey_append (key : FragmentKey) (es₁ es₂ : List FragmentQueueElement) :
    ofKey key (es₁ ++ es₂) = ofKey key es₁ ++ ofKey key es₂ :=
  List.filter_append es₁ es₂

theorem BucketOk.sublist (hok : BucketOk list) (hsub : list'.Sublist list) : BucketOk list' where
  keys := hok.keys.sublist (hsub.map _)
  elem := fun frag hfrag => hok.elem frag (hsub.subset hfrag)
  ports := fun frag hfrag => hok.ports frag (hsub.subset hfrag)

theorem ofKey_eq_nil {es : List FragmentQueueElement} (h : ∀ e ∈ es, e.key ≠ key) :
    ofKey key es = [] := by
  refine List.filter_eq_nil_iff.mpr fun e he => ?_
  rw [decide_eq_true_eq]
  exact h e he

/-- Elements of different datagrams can pass each other. -/
theorem ofKey_comm {es es' : List FragmentQueueElement}
    (h : ∀ e ∈ es, ∀ e' ∈ es', e'.key ≠ e.key) :
    ofKey key es ++ ofKey key es' = ofKey key es' ++ ofKey key es := by
  by_cases hk : ∃ e ∈ es, e.key = key
  · obtain ⟨e, he, rfl⟩ := hk
    rw [ofKey_eq_nil (h e he), List.append_nil, List.nil_append]
  · push Not at hk
    rw [ofKey_eq_nil hk, List.append_nil, List.nil_append]

theorem BucketOk.key_ne (hok : BucketOk list) (hkey : ∀ frag ∈ list, frag.fKey ≠ key) :
    ∀ e ∈ queuedElements list, e.key ≠ key := by
  intro e he
  obtain ⟨frag, hfrag, he⟩ := List.mem_flatMap.mp he
  rw [(hok.elem frag hfrag e he).1]
  exact hkey frag hfrag

/-- The entries around one of a bucket are of other datagrams. -/
theorem BucketOk.around (hok : BucketOk (before ++ frag :: after)) : BucketOk (before ++ after) ∧
    (∀ other ∈ before ++ after, other.fKey ≠ frag.fKey) ∧
      ∀ e ∈ queuedElements (before ++ after), e.key ≠ frag.fKey := by
  have hothers := hok.sublist ((List.sublist_cons_self frag after).append_left before)
  have hnodup := hok.keys
  rw [List.map_append, List.map_cons, List.nodup_middle, List.nodup_cons] at hnodup
  have hne : ∀ other ∈ before ++ after, other.fKey ≠ frag.fKey := by
    intro other hother heq
    apply hnodup.1
    rw [← heq, ← List.map_append]
    exact List.mem_map_of_mem hother
  exact ⟨hothers, hne, hothers.key_ne hne⟩

/-! ## One step -/

theorem BucketOk.cons (hok : BucketOk list) (hkey : ∀ other ∈ list, other.fKey ≠ frag.fKey)
    (helem : ∀ e ∈ frag.fQe, e.key = frag.fKey ∧ e.plPacket.isSome)
    (hports : frag.fPortInfoValid = false) : BucketOk (frag :: list) where
  keys := by
    refine List.nodup_cons.mpr ⟨fun hmem => ?_, hok.keys⟩
    obtain ⟨other, hother, heq⟩ := List.mem_map.mp hmem
    exact hkey other hother heq
  elem := List.forall_mem_cons.mpr ⟨helem, hok.elem⟩
  ports := List.forall_mem_cons.mpr ⟨hports, hok.ports⟩

theorem BucketOk.perm (hok : BucketOk list) (hperm : list.Perm list') : BucketOk list' where
  keys := (hperm.map _).nodup_iff.mp hok.keys
  elem := fun frag hfrag => hok.elem frag (hperm.mem_iff.mpr hfrag)
  ports := fun frag hfrag => hok.ports frag (hperm.mem_iff.mpr hfrag)

variable {r : List VrFragment × List FragEvent}

section

variable (h : Assembled list e r)
include h

/-- The packet of the element and the queued ones are the ones done with and those queued after. -/
theorem Assembled.perm :
    List.Perm (e :: queuedElements list) (r.2.filterMap FragEvent.gone ++ queuedElements r.1) := by
  cases h with
  | passed ev hgone henq hdeq hhead => simp [hgone]
  | joined before after frag time hlist hkey hhead =>
    subst hlist
    simp only [queuedElements_append, queuedElements_cons, List.filterMap_cons, FragEvent.gone,
      List.filterMap_nil, List.nil_append, List.append_assoc]
    rw [← List.append_assoc, ← List.append_assoc]
    exact List.perm_middle.symm
  | started time hnew hhead => exact List.Perm.refl _
  | flushed before after frag hlist hkey hhead =>
    subst hlist
    have hmap : (frag.fQe.map (FragEvent.flush · true)).filterMap FragEvent.gone = frag.fQe := by
      rw [List.filterMap_map]
      exact List.filterMap_some
    simp only [queuedElements_append, queuedElements_cons, List.filterMap_cons, FragEvent.gone,
      hmap, List.cons_append]
    refine List.Perm.cons e ?_
    rw [← List.append_assoc, ← List.append_assoc]
    exact List.perm_append_comm.append_right _

variable (hok : BucketOk list)
include hok

theorem Assembled.bucketOk (hp : e.plPacket.isSome) : BucketOk r.1 := by
  cases h with
  | passed ev hgone henq hdeq hhead => exact hok
  | joined before after frag time hlist hkey hhead =>
    rw [hlist] at hok
    have hfrag : frag ∈ before ++ frag :: after := by simp
    obtain ⟨hothers, hne, -⟩ := hok.around
    refine BucketOk.perm ?_ List.perm_middle.symm
    refine hothers.cons hne (fun x hx => ?_) (hok.ports frag hfrag)
    rcases List.mem_append.mp hx with hx | hx
    · exact hok.elem frag hfrag x hx
    · rw [List.mem_singleton.mp hx]
      exact ⟨hkey.symm, hp⟩
  | started time hnew hhead =>
    refine hok.cons hnew (fun x hx => ?_) rfl
    rw [List.mem_singleton.mp hx]
    exact ⟨rfl, hp⟩
  | flushed before after frag hlist hkey hhead =>
    rw [hlist] at hok
    exact hok.around.1

/-- The queue of a datagram: what leaves it, then what it holds, is what it held and what joins
it. -/
theorem Assembled.fifo (key : FragmentKey) :
    ofKey key (r.2.filterMap FragEvent.dequeued) ++ ofKey key (queuedElements r.1) =
      ofKey key (queuedElements list) ++ ofKey key (r.2.filterMap FragEvent.enqueued) := by
  cases h with
  | passed ev hgone henq hdeq hhead => simp [hdeq, henq, ofKey]
  | joined before after frag time hlist hkey hhead =>
    subst hlist
    show [] ++ ofKey key _ = ofKey key _ ++ ofKey key [e]
    -- the fragments behind this entry are of other datagrams
    have hcomm : ofKey key [e] ++ ofKey key (queuedElements after) =
        ofKey key (queuedElements after) ++ ofKey key [e] := by
      refine ofKey_comm (List.forall_mem_singleton.mpr fun x hx => ?_)
      rw [← hkey]
      exact hok.around.2.2 x (by simp [hx])
    simp only [queuedElements_append, queuedElements_cons, ofKey_append, List.nil_append,
      List.append_assoc, hcomm]
  | started time hnew hhead =>
    show ofKey key ([e] ++ queuedElements list) = ofKey key _ ++ ofKey key [e]
    rw [ofKey_append]
    exact ofKey_comm (List.forall_mem_singleton.mpr (hok.key_ne hnew))
  | flushed before after frag hlist hkey hhead =>
    subst hlist
    have hmap : (frag.fQe.map (FragEvent.flush · true)).filterMap FragEvent.dequeued =
        frag.fQe := by
      rw [List.filterMap_map]
      exact List.filterMap_some
    have henq : (frag.fQe.map (FragEvent.flush · true)).filterMap FragEvent.enqueued = [] := by
      simp [FragEvent.enqueued]
    show ofKey key ((frag.fQe.map (FragEvent.flush · true)).filterMap _) ++ _ =
      _ ++ ofKey key ((frag.fQe.map (FragEvent.flush · true)).filterMap _)
    rw [hmap, henq]
    simp only [queuedElements_append, queuedElements_cons, ofKey_append]
    -- the fragments before this entry are of other datagrams
    have hcomm : ofKey key frag.fQe ++ ofKey key (queuedElements before) =
        ofKey key (queuedElements before) ++ ofKey key frag.fQe := by
      refine ofKey_comm fun y hy x hx => ?_
      rw [(hok.elem frag (by simp) y hy).1]
      exact hok.around.2.2 x (by simp [hx])
    rw [← List.append_assoc, hcomm, List.append_assoc]
    exact (List.append_nil _).symm

theorem Assembled.head (hhead : e.fragHead = true) : ofKey e.key (queuedElements r.1) = [] := by
  cases h with
  | passed ev hgone henq hdeq hnone => exact ofKey_eq_nil (hok.key_ne (hnone hhead))
  | joined before after frag time hlist hkey hnot => rw [hhead] at hnot; cases hnot
  | started time hnew hnot => rw [hhead] at hnot; cases hnot
  | flushed before after frag hlist hkey hhead =>
    subst hlist
    rw [← hkey]
    exact ofKey_eq_nil hok.around.2.2

end

/-! ## One scan -/

theorem vrAssemblerTableScan_sublist (time : Nat → BitVec 32) :
    (vrAssemblerTableScan time list).1.Sublist list := by
  induction list generalizing time with
  | nil => exact List.Sublist.slnil
  | cons frag rest ih =>
    simp only [vrAssemblerTableScan]
    split
    · exact (ih _).cons frag
    · exact (ih _).cons_cons frag

theorem filterMap_free (f : FragEvent → Option FragmentQueueElement)
    (hf : ∀ e, f (.free e .fragments true) = some e) (es : List FragmentQueueElement) :
    (es.map (FragEvent.free · .fragments true)).filterMap f = es := by
  rw [List.filterMap_map]
  exact (List.filterMap_congr fun e _ => hf e).trans List.filterMap_some

/-- What a step or a run on a bucket makes of it and of the packets handed in: these and the queued
ones are the ones done with and those queued after, and of every datagram, what leaves its queue and
what it holds then is what it held and what joins it. -/
structure Accounts (list : List VrFragment) (handed : List FragmentQueueElement)
    (r : List VrFragment × List FragEvent) : Prop where
  ok : BucketOk r.1
  perm : List.Perm (handed ++ queuedElements list)
    (r.2.filterMap FragEvent.gone ++ queuedElements r.1)
  fifo : ∀ key, ofKey key (r.2.filterMap FragEvent.dequeued) ++ ofKey key (queuedElements r.1) =
    ofKey key (queuedElements list) ++ ofKey key (r.2.filterMap FragEvent.enqueued)

theorem Accounts.refl (hok : BucketOk list) : Accounts list [] (list, []) :=
  ⟨hok, List.Perm.refl _, fun key => by simp [ofKey]⟩

theorem Accounts.trans {handed handed' : List FragmentQueueElement}
    {r' : List VrFragment × List FragEvent} (h : Accounts list handed r)
    (h' : Accounts r.1 handed' r') : Accounts list (handed ++ handed') (r'.1, r.2 ++ r'.2) := by
  refine ⟨h'.ok, ?_, fun key => ?_⟩
  · rw [List.filterMap_append, List.append_assoc, List.append_assoc]
    refine (List.perm_append_comm_assoc _ _ _).trans ((h.perm.append_left _).trans ?_)
    exact (List.perm_append_comm_assoc _ _ _).trans (h'.perm.append_left _)
  · simp only [List.filterMap_append, ofKey_append, List.append_assoc]
    rw [h'.fifo, ← List.append_assoc, h.fifo, List.append_assoc]

section

variable (hok : BucketOk list)
include hok

theorem vrAssemblerTableScan_enqueued (time : Nat → BitVec 32) :
    (vrAssemblerTableScan time list).2.filterMap FragEvent.enqueued = [] := by
  induction list generalizing time with
  | nil => rfl
  | cons frag rest ih =>
    have ih := ih (hok.sublist (List.sublist_cons_self _ _)) fun i => time (i + 1)
    simp only [vrAssemblerTableScan]
    split
    · rw [fragmentFreeFrag_eq fun e he => (hok.elem frag (by simp) e he).2, List.filterMap_append,
        ih]
      simp [FragEvent.enqueued]
    · exact ih

theorem vrAssemblerTableScan_accounts (time : Nat → BitVec 32) :
    Accounts list [] (vrAssemblerTableScan time list) := by
  induction list generalizing time with
  | nil => exact .refl hok
  | cons frag rest ih =>
    have hrest : BucketOk rest := hok.sublist (List.sublist_cons_self _ _)
    have henq := vrAssemblerTableScan_enqueued hrest fun i => time (i + 1)
    have hsub := @vrAssemblerTableScan_sublist rest fun i => time (i + 1)
    have ih := ih hrest fun i => time (i + 1)
    simp only [vrAssemblerTableScan]
    split
    · rw [fragmentFreeFrag_eq fun e he => (hok.elem frag (by simp) e he).2]
      refine ⟨ih.ok, ?_, fun key => ?_⟩
      · rw [List.filterMap_append, filterMap_free _ (fun _ => rfl), List.append_assoc]
        exact ih.perm.append_left _
      · have hnone : (frag.fQe.map (FragEvent.free · .fragments true)).filterMap
            FragEvent.enqueued = [] := by simp [FragEvent.enqueued]
        rw [List.filterMap_append, filterMap_free _ (fun _ => rfl), queuedElements_cons,
          ofKey_append, ofKey_append, List.append_assoc, ih.fifo, List.filterMap_append, hnone,
          List.nil_append, List.append_assoc]
    refine ⟨hok.sublist (hsub.cons_cons frag), ?_, fun key => ?_⟩
    · rw [queuedElements_cons, queuedElements_cons]
      refine (ih.perm.append_left frag.fQe).trans ?_
      rw [← List.append_assoc, ← List.append_assoc]
      exact List.perm_append_comm.append_right _
    have hfifo := ih.fifo key
    rw [henq] at hfifo ⊢
    rw [queuedElements_cons, queuedElements_cons, ofKey_append, ofKey_append]
    by_cases hk : frag.fKey = key
    · -- nothing of this datagram leaves the rest of the bucket
      have hne : ∀ x ∈ queuedElements rest, x.key ≠ key :=
        hk ▸ (@BucketOk.around frag [] rest hok).2.2
      rw [ofKey_eq_nil hne] at hfifo ⊢
      obtain ⟨h1, h2⟩ := List.append_eq_nil_iff.mp hfifo
      rw [h1, h2]
      simp [ofKey]
    · rw [@ofKey_eq_nil key frag.fQe fun x hx => (hok.elem frag (by simp) x hx).1 ▸ hk,
        List.nil_append, List.nil_append, hfifo]

/-! ## Whole runs -/

theorem assemblerStep_accounts (a : AssemblerAction) :
    Accounts list (arrivals [a]) (assemblerStep list a) := by
  cases a with
  | arrive e env =>
    cases hp : e.plPacket with
    | none => simpa [assemblerStep, arrivals, hp] using Accounts.refl hok
    | some p =>
      have hsome : e.plPacket.isSome := by rw [hp]; rfl
      have harrive : arrivals [.arrive e env] = [e] := by simp [arrivals, hsome]
      have h := vrFragmentAssembler_assembled env hok hsome
      rw [harrive]
      simpa only [assemblerStep, hp] using ⟨h.bucketOk hok hsome, h.perm, h.fifo hok⟩
  | scan time => exact vrAssemblerTableScan_accounts hok time

theorem assemblerRun_accounts (as : List AssemblerAction) :
    Accounts list (arrivals as) (assemblerRun list as) := by
  induction as generalizing list with
  | nil => exact .refl hok
  | cons a as ih =>
    have hstep := assemblerStep_accounts hok a
    have hcons : arrivals (a :: as) = arrivals [a] ++ arrivals as :=
      List.filterMap_append (l := [a])
    rw [hcons]
    exact hstep.trans (ih hstep.ok)

end

theorem assemblerRun_append (as bs : List AssemblerAction) :
    assemblerRun list (as ++ bs) =
      ((assemblerRun (assemblerRun list as).1 bs).1,
        (assemblerRun list as).2 ++ (assemblerRun (assemblerRun list as).1 bs).2) := by
  induction as generalizing list with
  | nil => rfl
  | cons a as ih => simp [assemblerRun, ih]

/-- After a head, only fragments that come later are queued for its datagram. -/
theorem assemblerRun_head (hok : BucketOk list) (hp : e.plPacket.isSome)
    (hhead : e.fragHead = true) (env : AssemblerEnv) (as : List AssemblerAction) :
    let mid := (assemblerStep list (.arrive e env)).1
    ofKey e.key (queuedElements mid) = [] ∧
      ofKey e.key (queuedElements (assemblerRun mid as).1) <:+
        ofKey e.key ((assemblerRun mid as).2.filterMap FragEvent.enqueued) := by
  intro mid
  have hmid : mid = (vrFragmentAssembler env list e).2.1 := by
    obtain ⟨p, hp⟩ := Option.isSome_iff_exists.mp hp
    simp only [mid, assemblerStep, hp]
  have hnil : ofKey e.key (queuedElements mid) = [] := by
    rw [hmid]
    exact (vrFragmentAssembler_assembled env hok hp).head hok hhead
  have hfifo :=
    (assemblerRun_accounts (assemblerStep_accounts hok (.arrive e env)).ok as).fifo e.key
  rw [hnil] at hfifo
  exact ⟨hnil, _, hfifo⟩

theorem reverseQueue_eq {α : Type} (tail tailP : List α) :
    reverseQueue tail tailP = tailP.reverse ++ tail := by
  induction tailP generalizing tail with
  | nil => rfl
  | cons e tailP ih =>
    show reverseQueue (e :: tail) tailP = _
    rw [ih, List.reverse_cons, List.append_assoc]
    rfl

/-- The elements of a queue that go to a bucket. -/
def bucketArrivals (hash : FragmentKey → BitVec 32) (index : Nat)
    (queue : List (FragmentQueueElement × AssemblerEnv)) : List AssemblerAction :=
  (queue.filter fun p => (hash p.1.key).toNat % vrLinuxAssemblerBuckets = index).map
    fun p => .arrive p.1 p.2

theorem insertQueue_eq (hash : FragmentKey → BitVec 32) (table : AssemblerTable)
    (queue : List (FragmentQueueElement × AssemblerEnv)) (index : Nat) :
    insertQueue hash table queue index =
      ((assemblerRun (table index).1 (bucketArrivals hash index queue)).1,
        (table index).2 ++
          (assemblerRun (table index).1 (bucketArrivals hash index queue)).2) := by
  induction queue generalizing table with
  | nil => simp [insertQueue, bucketArrivals, assemblerRun]
  | cons p tailN ih =>
    simp only [insertQueue]
    rw [ih]
    by_cases hindex : (hash p.1.key).toNat % vrLinuxAssemblerBuckets = index
    · simp [bucketArrivals, hindex, assemblerRun]
    · simp [bucketArrivals, hindex, Function.update_of_ne (Ne.symm hindex)]

/-- Working off the queue of a CPU is, for every bucket, a run of the assembler on the elements of
that bucket, in the order they were enqueued. -/
theorem vrLinuxFragmentAssembler_eq (hash : FragmentKey → BitVec 32) (table : AssemblerTable)
    (queue : List (FragmentQueueElement × AssemblerEnv)) (index : Nat) :
    vrLinuxFragmentAssembler hash table queue index =
      ((assemblerRun (table index).1 (bucketArrivals hash index queue.reverse)).1,
        (table index).2 ++
          (assemblerRun (table index).1 (bucketArrivals hash index queue.reverse)).2) := by
  cases queue with
  | nil => exact insertQueue_eq hash table [] index
  | cons tail tailP =>
    rw [List.reverse_cons, ← reverseQueue_eq]
    exact insertQueue_eq hash table _ index

theorem gone_perm (evs : List FragEvent) : List.Perm (evs.filterMap FragEvent.gone)
      (evs.filterMap FragEvent.flushed ++ evs.filterMap FragEvent.freed) := by
  induction evs with
  | nil => exact List.Perm.refl _
  | cons ev evs ih =>
    cases ev with
    | queue e => exact ih
    | flush e queued => exact ih.cons e
    | free e reason queued => exact (ih.cons e).trans List.perm_middle.symm

theorem bucketOk_nil : BucketOk [] where
  keys := List.nodup_nil
  elem := by simp
  ports := by simp

/-- Every sequence of fragments and scans on a bucket that starts empty, with any outcome of the
allocations and of the flow lookups and at any times. Each packet handed in is flushed, freed or
queued, once. For each datagram, what has left its queue followed by what is queued now is what was
queued, in this order. When a head has been handed in, its datagram has nothing queued, and what is
queued for it at any later time came after the head. -/
theorem vrFragmentAssembler_accounts (as : List AssemblerAction) :
    List.Perm (arrivals as)
        ((assemblerRun [] as).2.filterMap FragEvent.flushed ++
          (assemblerRun [] as).2.filterMap FragEvent.freed ++
            queuedElements (assemblerRun [] as).1) ∧
      (∀ key, ofKey key ((assemblerRun [] as).2.filterMap FragEvent.dequeued) ++
          ofKey key (queuedElements (assemblerRun [] as).1) =
        ofKey key ((assemblerRun [] as).2.filterMap FragEvent.enqueued)) ∧
      ∀ pre e env post, as = pre ++ .arrive e env :: post → e.plPacket.isSome →
        e.fragHead = true →
        let mid := (assemblerRun [] (pre ++ [.arrive e env])).1
        ofKey e.key (queuedElements mid) = [] ∧
          ofKey e.key (queuedElements (assemblerRun [] as).1) <:+
            ofKey e.key ((assemblerRun mid post).2.filterMap FragEvent.enqueued) := by
  refine ⟨?_, fun key => ?_, fun pre e env post has hp hhead => ?_⟩
  · have hperm := (assemblerRun_accounts bucketOk_nil as).perm
    rw [show queuedElements [] = [] from rfl, List.append_nil] at hperm
    exact hperm.trans ((gone_perm _).append_right _)
  · exact (assemblerRun_accounts bucketOk_nil as).fifo key
  · subst has
    have hpre := (assemblerRun_accounts bucketOk_nil pre).ok
    rw [assemblerRun_append, assemblerRun_append]
    exact assemblerRun_head hpre hp hhead env post

/-- Two fragments of a datagram wait for their head, which flushes them. -/
theorem vrFragmentAssembler_accounts_two :
    let frag (p : Nat) (head : Bool) : FragmentQueueElement := ⟨some p, 1, 2, 3, 4, head⟩
    let env : AssemblerEnv := ⟨false, true, 7⟩
    let as := [.arrive (frag 0 false) env, .arrive (frag 1 false) env, .arrive (frag 2 true) env]
    (assemblerRun [] as).2 = [.queue (frag 0 false), .queue (frag 1 false),
        .free (frag 2 true) .clonedOriginal false, .flush (frag 0 false) true,
        .flush (frag 1 false) true] ∧
      List.Perm (arrivals as)
        ((assemblerRun [] as).2.filterMap FragEvent.flushed ++
          (assemblerRun [] as).2.filterMap FragEvent.freed ++
            queuedElements (assemblerRun [] as).1) ∧
      ofKey (frag 2 true).key (queuedElements (assemblerRun [] as).1) = [] :=
  ⟨by decide, (vrFragmentAssembler_accounts _).1,
    ((vrFragmentAssembler_accounts _).2.2 [_, _] _ _ [] rfl rfl rfl).1⟩

end VRouter
