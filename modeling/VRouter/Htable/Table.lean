import VRouter.Lib.LongestMatch
import VRouter.Htable.Btable

/-!
# VRouter — the hash table of `vr_htable.c`

A fixed number of main entries in buckets of `ht_bucket_size`, and overflow entries that are
chained behind the last entry of a bucket when the bucket is full. A released overflow entry is
not taken out of its chain at once: it is marked, a work item of its bucket unlinks it, and a
deferred callback puts it back on the free list once no reader can hold it any more.

An entry is named by its index, main entries first, and a pointer to an entry is that index
(`VRouter.Htable.Btable` has the ground for it). What the table shares with its surroundings is
in `HtSys`: the work items and callbacks that have been handed to the scheduler, and
`vr_not_ready`. Functions that would follow a null pointer return `none`.
-/

namespace VRouter

open LongestMatch Function

/-! ## Data model -/

/-- `VR_INVALID_HENTRY_INDEX`. -/
def vrInvalidHentryIndex : Nat := 2 ^ 32 - 1

/-- `struct vr_hentry`, its flags as one Boolean for each `VR_HENTRY_FLAG`. -/
structure Hentry where
  hentryNext : Option Nat
  hentryIndex : Nat
  hentryBucketIndex : Nat
  hentryNextIndex : Nat
  flagValid : Bool
  flagDeleteMarked : Bool
  flagDeleteProcessed : Bool
  flagInFreeList : Bool

/-- `struct vr_hentry_delete_data`. -/
structure HentryDeleteData where
  hdIndex : Nat
  hdCount : Nat
  hdScheduled : Bool

/-- `struct vr_htable`, with the memory it points to. -/
structure Htable where
  htHentries : Nat
  htOentries : Nat
  htKeySize : Nat
  htBucketSize : Nat
  htHtable : Btable
  htOtable : Option Btable
  hentry : Nat → Hentry
  deleteData : Nat → HentryDeleteData
  htFreeOentryHead : Option Nat
  htUsedOentries : Nat
  htUsedEntries : Nat

/-- The table with the scheduler's queues: the delete data of the work items that wait to be run,
and the entries of the deferred callbacks. `lost` is no part of the source's state: it records the
entries for which no deferred callback could be allocated. -/
structure HtSys where
  table : Htable
  vrNotReady : Bool
  works : List Nat
  callbacks : List Nat
  lost : List Nat

namespace Htable

/-- `hentry_next` of an entry. -/
def next (t : Htable) (i : Nat) : Option Nat := (t.hentry i).hentryNext

/-- Write to one entry. -/
@[simps -fullyApplied htHentries htOentries htBucketSize htHtable htOtable htFreeOentryHead
  htUsedOentries deleteData]
def modify (t : Htable) (i : Nat) (f : Hentry → Hentry) : Htable :=
  { t with hentry := update t.hentry i (f (t.hentry i)) }

/-- The counter of used entries changed by `k`, as an `unsigned int`. -/
@[simps -fullyApplied htHentries htOentries hentry htFreeOentryHead htUsedOentries deleteData]
def addUsedEntries (t : Htable) (k : Int) : Htable :=
  { t with htUsedEntries := ((t.htUsedEntries + k) % 2 ^ 32).toNat }

/-- A new head of the free list, and the counter of used overflow entries changed by `k`. -/
@[simps -fullyApplied htHentries htOentries hentry htFreeOentryHead htUsedOentries deleteData]
def setFreeHead (t : Htable) (head : Option Nat) (k : Int) : Htable :=
  { t with
    htFreeOentryHead := head
    htUsedOentries := ((t.htUsedOentries + k) % 2 ^ 32).toNat }

/-- Write to one piece of delete data. -/
@[simps -fullyApplied htHentries htOentries hentry htFreeOentryHead htUsedOentries]
def setDeleteData (t : Htable) (i : Nat) (data : HentryDeleteData) : Htable :=
  { t with deleteData := update t.deleteData i data }

/-- The pointer `vr_btable_get (ht_htable, index)` returns. -/
def mainEntry (t : Htable) (index : Nat) : Option Nat :=
  if (vrBtableGet t.htHtable index).isSome then some index else none

/-- The pointer `vr_btable_get (ht_otable, index)` returns. -/
def overflowEntry (t : Htable) (index : Nat) : Option Nat :=
  match t.htOtable with
  | none => none
  | some b => if (vrBtableGet b index).isSome then some (t.htHentries + index) else none

/-- What no operation changes: sizes and the memory of the entries. -/
def shape (t : Htable) : Nat × Nat × Nat × Btable × Option Btable :=
  (t.htHentries, t.htOentries, t.htBucketSize, t.htHtable, t.htOtable)

theorem mainEntry_eq (t : Htable) (index : Nat) :
    t.mainEntry index = none ∨ t.mainEntry index = some index := by
  unfold mainEntry
  split
  · exact Or.inr rfl
  · exact Or.inl rfl

/-! ### Reading back what was written -/

section

variable (t : Htable) (i : Nat) (f : Hentry → Hentry) (k : Int) (head : Option Nat)
  (data : HentryDeleteData)

@[simp] theorem modify_self : (t.modify i f).hentry i = f (t.hentry i) := by
  simp [modify]

theorem modify_of_ne {j : Nat} (h : j ≠ i) : (t.modify i f).hentry j = t.hentry j := by
  simp [modify, h]

theorem modify_modify (g : Hentry → Hentry) :
    (t.modify i f).modify i g = t.modify i fun e => g (f e) := by
  simp [modify]

theorem next_modify :
    (t.modify i f).next = update t.next i (f (t.hentry i)).hentryNext := by
  funext j
  by_cases h : j = i
  · subst h
    simp [next]
  · simp [next, modify_of_ne _ _ _ h, h]

theorem next_modify_of_eq (h : (f (t.hentry i)).hentryNext = (t.hentry i).hentryNext) :
    (t.modify i f).next = t.next := by
  rw [next_modify, h]
  exact update_eq_self i t.next

@[simp] theorem addUsedEntries_next : (t.addUsedEntries k).next = t.next := rfl

theorem addUsedEntries_modify :
    (t.addUsedEntries k).modify i f = (t.modify i f).addUsedEntries k := rfl

@[simp] theorem setFreeHead_next : (t.setFreeHead head k).next = t.next := rfl

@[simp] theorem setDeleteData_next : (t.setDeleteData i data).next = t.next := rfl

end

end Htable

/-- `__vr_htable_get_hentry_by_index`. -/
def vrHtableGetHentryByIndexCore (t : Htable) (index : Nat) : Option Nat :=
  if index < t.htHentries then t.mainEntry index
  else if index < (t.htOentries + t.htHentries) % 2 ^ 32 then
    t.overflowEntry (index - t.htHentries)
  else none

/-- `vr_htable_get_hentry_by_index`. -/
def vrHtableGetHentryByIndex (t : Htable) (index : Nat) : Option Nat :=
  match vrHtableGetHentryByIndexCore t index with
  | some ent => if (t.hentry ent).flagValid then some ent else none
  | none => none

/-! ## The free list -/

/-- `vr_htable_get_free_oentry`. -/
def vrHtableGetFreeOentry (t : Htable) : Option Nat × Htable :=
  match t.htFreeOentryHead with
  | none => (none, t)
  | some ent =>
    (some ent,
      (t.modify ent fun e => { e with hentryNext := none, flagInFreeList := false }).setFreeHead
        (t.next ent) 1)

/-- `vr_htable_put_free_oentry`. -/
def vrHtablePutFreeOentry (t : Htable) (ent : Nat) : Htable :=
  if (t.hentry ent).hentryIndex < t.htHentries then t
  else if (t.hentry ent).flagInFreeList then t
  else
    (t.modify ent fun e =>
      { e with hentryNext := t.htFreeOentryHead, flagInFreeList := true }).setFreeHead (some ent)
        (-1)

/-- `vr_htable_oentry_invalidate`. -/
def vrHtableOentryInvalidate (t : Htable) (ent : Nat) : Htable :=
  if (t.hentry ent).hentryIndex < t.htHentries then t
  else
    vrHtablePutFreeOentry
      (t.modify ent fun e =>
        { e with
          flagValid := false
          flagDeleteMarked := false
          flagDeleteProcessed := false
          hentryBucketIndex := vrInvalidHentryIndex
          hentryNextIndex := vrInvalidHentryIndex
          hentryNext := none })
      ent

/-! ## Creating a table -/

/-- `VR_HENTRIES_PER_BUCKET`. -/
def vrHentriesPerBucket : Nat := 4

/-- A zeroed entry with the fields the creation loops fill. -/
def initialHentry (entries oentries i : Nat) : Hentry where
  hentryNext := if entries ≤ i ∧ i + 1 < entries + oentries then some (i + 1) else none
  hentryIndex := i
  hentryBucketIndex := 0
  hentryNextIndex := vrInvalidHentryIndex
  flagValid := false
  flagDeleteMarked := false
  flagDeleteProcessed := false
  flagInFreeList := decide (entries ≤ i)

/-- `vr_htable_create` when memory can be had and a key function is given: `none` where it
returns the null pointer, or would write through one while it fills the entries. -/
def vrHtableCreate (entries oentries entrySize keySize bucketSize : Nat) : Option Htable :=
  if entrySize = 0 ∨ entries = 0 then none
  else
    let bucketSize := if bucketSize = 0 then vrHentriesPerBucket else bucketSize
    -- ceil to a multiple of the bucket size
    let entries := (entries + bucketSize - 1) % 2 ^ 32 / bucketSize * bucketSize
    match vrBtableAlloc entries entrySize with
    | none => none
    | some htable =>
      let otable := if oentries = 0 then none else vrBtableAlloc oentries entrySize
      if oentries ≠ 0 ∧ otable = none then none
      else
        let t : Htable :=
          { htHentries := entries
            htOentries := oentries
            htKeySize := keySize
            htBucketSize := bucketSize
            htHtable := htable
            htOtable := otable
            hentry := initialHentry entries oentries
            deleteData := fun _ => ⟨0, 0, false⟩
            htFreeOentryHead := if oentries = 0 then none else some entries
            htUsedOentries := 0
            htUsedEntries := 0 }
        if (∀ i, i < entries → t.mainEntry i = some i) ∧
            (∀ i, i < oentries → t.overflowEntry i = some (entries + i)) then some t
        else none

/-! ## Keys and buckets -/

/-- The key a caller passes by pointer and size: `none` for a null pointer or size zero. A size of
zero stands for the table's own key size. -/
def keyOf (t : Htable) (key : Option (List Octet)) (keySize : Nat) : Option (List Octet) :=
  match key with
  | none => none
  | some bytes =>
    let keySize := if keySize = 0 then t.htKeySize else keySize
    if keySize = 0 then none else some (bytes.take keySize)

/-- First entry of the bucket of a hash value: the remainder modulo the table size, with the low
bits of the bucket size masked off. -/
def bucketStart (t : Htable) (hash : Nat) : Nat :=
  (hash % t.htHentries) &&& (2 ^ 32 - 1 - (t.htBucketSize - 1))

/-! ## Taking an entry -/

/-- The bucket loop of `vr_htable_find_free_hentry`: the first entry that is not valid, or
`some none` if all are. -/
def findFreeScan (t : Htable) (start : Nat) : (left i : Nat) → Option (Option Nat)
  | 0, _ => some none
  | left + 1, i =>
    match t.mainEntry (start + i) with
    | none => none
    | some ent =>
      if (t.hentry ent).flagValid then findFreeScan t start left (i + 1) else some (some ent)

/-- The stored index of the entry a pointer leads to. -/
def indexOf (t : Htable) : Option Nat → Nat
  | some ent => (t.hentry ent).hentryIndex
  | none => vrInvalidHentryIndex

/-- Linking the overflow entry `oEnt` behind the last entry `ent` of its bucket. -/
def linkOentry (t : Htable) (ent oEnt : Nat) : Htable :=
  ((t.modify oEnt fun e =>
      { e with
        hentryBucketIndex := ent
        hentryNext := t.next ent
        hentryNextIndex := indexOf t (t.next ent)
        flagValid := true
        flagDeleteMarked := false
        flagDeleteProcessed := false
        flagInFreeList := false }).modify ent fun e =>
    { e with
      hentryNext := some oEnt
      hentryNextIndex := (t.hentry oEnt).hentryIndex }).addUsedEntries 1

/-- `vr_htable_find_free_hentry` for a key with the given hash. -/
def vrHtableFindFreeHentry (t : Htable) (hash : Nat) : Option (Option Nat × Htable) :=
  let tmpHash := bucketStart t hash
  match findFreeScan t tmpHash t.htBucketSize 0 with
  | none => none
  | some (some ent) =>
    some (some ent,
      (t.modify ent fun e =>
        { e with
          flagValid := true
          flagDeleteMarked := false
          flagDeleteProcessed := false
          flagInFreeList := false
          hentryBucketIndex := vrInvalidHentryIndex }).addUsedEntries 1)
  | some none =>
    if t.htOentries = 0 then some (none, t)
    else
      match vrHtableGetFreeOentry t with
      | (none, t) => some (none, t)
      | (some oEnt, t) => some (some oEnt, linkOentry t (tmpHash + t.htBucketSize - 1) oEnt)

/-! ## Looking a key up -/

section

variable (t : Htable) (getKey : Nat → Option (List Octet)) (key : List Octet)

/-- The entry is valid and holds the key. -/
def entryHolds (ent : Nat) : Bool := (t.hentry ent).flagValid && getKey ent == some key

/-- The bucket loop of `vr_htable_find_hentry`. -/
def findScan (start : Nat) : (left i : Nat) → Option (Option Nat)
  | 0, _ => some none
  | left + 1, i =>
    match t.mainEntry (start + i) with
    | none => none
    | some ent =>
      if entryHolds t getKey key ent then some (some ent) else findScan start left (i + 1)

/-- The chain loop of `vr_htable_find_hentry`. -/
def findChain : (fuel : Nat) → Option Nat → Option Nat
  | 0, _ => none
  | _ + 1, none => none
  | fuel + 1, some ent =>
    if entryHolds t getKey key ent then some ent else findChain fuel (t.next ent)

/-- `vr_htable_find_hentry` for a key with the given hash. `getKey` is the table's `ht_get_key`:
the key an entry holds, with its length. -/
def vrHtableFindHentry (hash : Nat) : Option (Option Nat) :=
  let tmpHash := bucketStart t hash
  match findScan t getKey key tmpHash t.htBucketSize 0 with
  | none => none
  | some (some ent) => some (some ent)
  | some none =>
    some (findChain t getKey key t.htOentries (t.next (tmpHash + t.htBucketSize - 1)))

end

/-! ## Giving an entry back -/

/-- The part of `vr_htable_release_hentry` that hands the bucket of a marked overflow entry to its
work item, unless that is waiting already. `scheduled` is the outcome of `vr_schedule_work`. -/
def scheduleDelete (s : HtSys) (scheduled : Bool) (headEnt : Nat) : HtSys :=
  let t := s.table
  let deleteIndex := (t.hentry headEnt).hentryIndex / t.htBucketSize
  let data := t.deleteData deleteIndex
  let data := { data with hdCount := (data.hdCount + 1) % 2 ^ 16 }
  if data.hdScheduled then { s with table := t.setDeleteData deleteIndex data }
  else
    let data := { data with hdIndex := (t.hentry headEnt).hentryIndex }
    if scheduled then
      { s with
        table := t.setDeleteData deleteIndex { data with hdScheduled := true }
        works := s.works ++ [deleteIndex] }
    else { s with table := t.setDeleteData deleteIndex data }

/-- `vr_htable_release_hentry`. -/
def vrHtableReleaseHentry (s : HtSys) (scheduled : Bool) (ent : Nat) : Option HtSys :=
  if ¬ (s.table.hentry ent).flagValid then some s
  else
    let t := (s.table.modify ent fun e => { e with flagValid := false }).addUsedEntries (-1)
    if (t.hentry ent).hentryIndex < t.htHentries then some { s with table := t }
    else if s.vrNotReady then some { s with table := t }
    else
      let t := t.modify ent fun e => { e with flagDeleteMarked := true }
      match vrHtableGetHentryByIndexCore t (t.hentry ent).hentryBucketIndex with
      | none => none
      | some headEnt => some (scheduleDelete { s with table := t } scheduled headEnt)

/-- `vr_htable_hentry_defer_delete`, the deferred callback. -/
def vrHtableHentryDeferDelete (t : Htable) (hdIndex : Nat) : Htable :=
  match vrHtableGetHentryByIndexCore t hdIndex with
  | none => t
  | some ent => vrHtableOentryInvalidate t ent

/-- Taking `ent` out of its chain behind `prev`. -/
def unlinkOentry (t : Htable) (prev ent : Nat) : Htable :=
  (t.modify prev fun e =>
    { e with
      hentryNext := t.next ent
      hentryNextIndex := indexOf t (t.next ent) }).modify ent fun e =>
    { e with
      flagDeleteMarked := false
      flagDeleteProcessed := true }

/-- The loop of `vr_htable_hentry_scheduled_delete`. `alloc ent` tells whether the deferred
callback of `ent` can be allocated; if not, nothing refers to the entry any more. -/
def scheduledDeleteLoop (alloc : Nat → Bool) :
    (fuel prev : Nat) → Option Nat → (count : Nat) → HtSys → HtSys
  | 0, _, _, _, s => s
  | _ + 1, _, none, _, s => s
  | _ + 1, _, some _, 0, s => s
  | fuel + 1, prev, some ent, count + 1, s =>
    let marked := (s.table.hentry ent).flagDeleteMarked
    let s := if marked then { s with table := unlinkOentry s.table prev ent } else s
    let count := if marked then count else count + 1
    let next := s.table.next ent
    let e := s.table.hentry ent
    if e.flagDeleteProcessed then
      if s.vrNotReady then
        scheduledDeleteLoop alloc fuel prev next count
          { s with table := vrHtableOentryInvalidate s.table ent }
      else
        scheduledDeleteLoop alloc fuel prev next count
          (if alloc ent then { s with callbacks := s.callbacks ++ [ent] }
          else { s with lost := s.lost ++ [ent] })
    else
      scheduledDeleteLoop alloc fuel (if e.flagDeleteMarked then prev else ent) next count s

/-- `vr_htable_hentry_scheduled_delete`, the work item of one piece of delete data. A chain has at
most `ht_oentries` entries, which bounds the loop. -/
def vrHtableHentryScheduledDelete (s : HtSys) (alloc : Nat → Bool) (deleteIndex : Nat) : HtSys :=
  let data := s.table.deleteData deleteIndex
  match vrHtableGetHentryByIndexCore s.table data.hdIndex with
  | none => s
  | some headEnt =>
    let t := s.table.setDeleteData deleteIndex { data with hdScheduled := false, hdCount := 0 }
    scheduledDeleteLoop alloc t.htOentries headEnt (t.next headEnt) data.hdCount
      { s with table := t }

/-! ## Reset -/

/-- Clearing `VR_HENTRY_FLAG_VALID` in `vr_htable_reset`. -/
def resetValid (t : Htable) (ent : Nat) : Htable :=
  if (t.hentry ent).flagValid then
    (t.modify ent fun e => { e with flagValid := false }).addUsedEntries (-1)
  else t

/-- The chain loop of `vr_htable_reset`. -/
def resetChain : (fuel : Nat) → Option Nat → Htable → Htable
  | 0, _, t => t
  | _ + 1, none, t => t
  | fuel + 1, some ent, t =>
    resetChain fuel (t.next ent) (vrHtableOentryInvalidate (resetValid t ent) ent)

/-- One round of `vr_htable_reset`. `release i` tells whether the caller's callback releases
entry `i`, which is all that the callbacks of this table do to it. -/
def resetEntry (scheduled : Bool) (release : Nat → Bool) (i : Nat) (s : HtSys) : Option HtSys :=
  match (if release i then vrHtableReleaseHentry s scheduled i else some s) with
  | none => none
  | some s =>
    let t := resetValid s.table i
    match (if i < t.htHentries then t.next i else none) with
    | none => some { s with table := t }
    | some ent =>
      let t := t.modify i fun e =>
        { e with hentryNext := none, hentryNextIndex := vrInvalidHentryIndex }
      some { s with table := resetChain t.htOentries (some ent) t }

/-- `vr_htable_reset`. -/
def vrHtableReset (s : HtSys) (scheduled : Bool) (release : Nat → Bool) : Option HtSys :=
  (List.range ((s.table.htHentries + s.table.htOentries) % 2 ^ 32)).foldl
    (fun s i => s.bind (resetEntry scheduled release i)) (some s)

end VRouter
