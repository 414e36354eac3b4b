import VRouter.Mtrie.Delete
import VRouter.Lib.RefCount

/-!
# VRouter — the references a route table holds

Every slot that holds a nexthop holds a reference to it. The functions of `vr_ip_mtrie.c` take and
give up references as they go, slot by slot. For each of them, `…Ops` is what it does to the counts,
in order, and a lemma says that it holds the references of the slots before and after.

Buckets that are no longer part of the tree keep their references until they are freed, which is
deferred: `mtrieAddEffect` and `mtrieDeleteEffect` return them beside the new tree.

* `mtrieAddEffect_moves`, `mtrieDeleteEffect_moves` — what an operation holds before and after;
* `mtrieAddEffect_eq`, `mtrieDeleteEffect_eq` — the trees are those of the route table's model;
* `mtrieFreeEntry_moves` — freeing a bucket gives up all its references.
-/

namespace VRouter

open RefCount Finset

/-- The references held by the slots of a tree. -/
def slotRefs : IpBucketEntry → Multiset Nexthop
  | .nexthop nh _ => refOf nh
  | .nullBucket _ => 0
  | .bucket bkt _ => ∑ i, slotRefs (bkt i)

/-- The references held by buckets that wait to be freed. -/
def pendingRefs (pending : List IpBucketEntry) : Multiset Nexthop := (pending.map slotRefs).sum

@[simp] theorem pendingRefs_nil : pendingRefs [] = 0 := rfl

@[simp] theorem pendingRefs_append (l₁ l₂ : List IpBucketEntry) :
    pendingRefs (l₁ ++ l₂) = pendingRefs l₁ + pendingRefs l₂ := by
  simp [pendingRefs]

theorem pendingRefs_singleton (ent : IpBucketEntry) : pendingRefs [ent] = slotRefs ent := by
  simp [pendingRefs]

/-! ## Slots -/

/-- `set_entry_to_nh`, for an entry that held `old`: the nexthop is looked up again by its id, and
what is found instead is given back. -/
def setEntryToNhOps (tbl : NexthopTable) (old : Option Nexthop) :
    Option Nexthop → List (RefOp Nexthop)
  | none => putOf old
  | some nh =>
    (match tbl.get nh.nhId with
      | some tmp =>
        if tmp = nh then [.get nh] else [.get tmp, .put tmp] ++ getOf (tbl.get nhDiscardId)
      | none => getOf (tbl.get nhDiscardId)) ++ putOf old

theorem setEntryToNhOps_moves (tbl : NexthopTable) (old nh : Option Nexthop) :
    Moves (setEntryToNhOps tbl old nh) (refOf old) (refOf (setEntryToNh tbl nh)) := by
  have hput : ∀ A, Moves (putOf old) (A + refOf old) A := by
    intro A
    rw [add_comm]
    exact moves_putOf old A
  cases nh with
  | none => exact zero_add (refOf old) ▸ hput 0
  | some nh =>
    have hdiscard := moves_getOf (tbl.get nhDiscardId) (refOf old)
    cases hget : tbl.get nh.nhId with
    | none =>
      simp only [setEntryToNhOps, setEntryToNh, hget]
      exact hdiscard.append (hput _)
    | some tmp =>
      by_cases htmp : tmp = nh
      · simp only [setEntryToNhOps, setEntryToNh, hget, htmp]
        exact (moves_get nh _).append (hput _)
      · simp only [setEntryToNhOps, setEntryToNh, hget, htmp, Option.some.injEq]
        exact (((moves_get tmp _).append (moves_put tmp _)).append hdiscard).append (hput _)

/-- `mtrie_alloc_bucket`. -/
def mtrieAllocBucketOps (tbl : NexthopTable) (parentNh : Option Nexthop) : List (RefOp Nexthop) :=
  (List.finRange 256).flatMap fun _ => setEntryToNhOps tbl none parentNh

theorem moves_slots (f : Fin 256 → List (RefOp Nexthop)) (a b : Fin 256 → Multiset Nexthop)
    (h : ∀ i, Moves (f i) (a i) (b i)) :
    Moves ((List.finRange 256).flatMap f) (∑ i, a i) (∑ i, b i) := by
  have hsum := Moves.sum f a b h (List.finRange 256) (List.nodup_finRange 256)
  rwa [List.toFinset_finRange] at hsum

theorem mtrieAllocBucketOps_moves (tbl : NexthopTable) (nh : Option Nexthop) (info : EntryInfo) :
    Moves (mtrieAllocBucketOps tbl nh) 0
      (slotRefs (.bucket (mtrieAllocBucket tbl nh info) info)) := by
  have hslots := moves_slots (fun _ => setEntryToNhOps tbl none nh) (fun _ => 0)
    (fun _ => refOf (setEntryToNh tbl nh)) fun _ => setEntryToNhOps_moves tbl none nh
  rwa [sum_const_zero] at hslots

/-! ## Adding -/

/-- `add_to_tree`. -/
def addToTreeOps (tbl : NexthopTable) (rt : RouteReq) :
    Nat → IpBucketEntry → List (RefOp Nexthop)
  | _, .nexthop nh info =>
    if rt.rtrPrefixLen < info.entryPrefixLen then [] else setEntryToNhOps tbl nh rt.rtrNh
  | _, .nullBucket _ => []
  | level, .bucket bkt info =>
    if rt.rtrPrefixLen < info.entryPrefixLen then []
    else if ipBktGetMaxLevel rt.rtrFamily - 1 ≤ level then []
    else (List.finRange 256).flatMap fun i => addToTreeOps tbl rt (level + 1) (bkt i)

theorem addToTreeOps_moves (tbl : NexthopTable) (rt : RouteReq) (ent : IpBucketEntry)
    (level : Nat) : Moves (addToTreeOps tbl rt level ent) (slotRefs ent)
      (slotRefs (addToTree tbl rt level ent)) := by
  induction ent generalizing level with
  | nexthop nh info =>
    unfold addToTreeOps addToTree
    split
    · exact .nil _
    · exact setEntryToNhOps_moves tbl nh rt.rtrNh
  | nullBucket info => exact .nil _
  | bucket bkt info ih =>
    unfold addToTreeOps addToTree
    split
    · exact .nil _
    · split
      · exact .nil _
      · exact moves_slots _ _ _ fun i => ih i (level + 1)

/-- The loop of `__mtrie_add` over the slots a route covers. -/
def addSlotsOps (visit : IpBucketEntry → IpBucketEntry)
    (ops : IpBucketEntry → List (RefOp Nexthop)) :
    Nat → Fin 256 → (Fin 256 → IpBucketEntry) → List (RefOp Nexthop)
  | 0, _, _ => []
  | fin + 1, i, bkt =>
    ops (bkt i) ++
      addSlotsOps visit ops fin (i + 1) (fun j => if j = i then visit (bkt i) else bkt j)

theorem moves_slot {ops : List (RefOp Nexthop)} {bkt : Fin 256 → IpBucketEntry} {i : Fin 256}
    {ent : IpBucketEntry} {C : Multiset Nexthop}
    (h : Moves ops (slotRefs (bkt i)) (slotRefs ent + C)) : Moves ops (∑ j, slotRefs (bkt j))
      (∑ j, slotRefs (if j = i then ent else bkt j) + C) := by
  have hothers : ∑ j ∈ univ.erase i, slotRefs (if j = i then ent else bkt j) =
      ∑ j ∈ univ.erase i, slotRefs (bkt j) := by
    refine sum_congr rfl fun j hj => ?_
    rw [if_neg (ne_of_mem_erase hj)]
  rw [← add_sum_erase univ _ (mem_univ i),
    ← add_sum_erase univ (fun j => slotRefs (if j = i then ent else bkt j))
      (mem_univ i), hothers, if_pos rfl, add_right_comm]
  exact h.frame _

theorem addSlotsOps_moves {visit : IpBucketEntry → IpBucketEntry}
    {ops : IpBucketEntry → List (RefOp Nexthop)}
    (hvisit : ∀ ent, Moves (ops ent) (slotRefs ent) (slotRefs (visit ent))) (fin : Nat)
    (i : Fin 256) (bkt : Fin 256 → IpBucketEntry) :
    Moves (addSlotsOps visit ops fin i bkt) (∑ j, slotRefs (bkt j))
      (∑ j, slotRefs (addSlots visit fin i bkt j)) := by
  induction fin generalizing i bkt with
  | zero => exact .nil _
  | succ fin ih =>
    have hslot : Moves (ops (bkt i)) (slotRefs (bkt i)) (slotRefs (visit (bkt i)) + 0) := by
      rw [add_zero]
      exact hvisit (bkt i)
    have hslots := moves_slot hslot
    rw [add_zero] at hslots
    exact hslots.append (ih (i + 1) _)

/-- The descent of `__mtrie_add` as it goes, without the rollback at the end: the entry as the loop
leaves it, which on failure ends in an entry for a null bucket. -/
def mtrieAddRaw (tbl : NexthopTable) (alloc : Nat → Bool) (rt : RouteReq) :
    (fuel level : Nat) → IpBucketEntry →
      Except Errno Unit × IpBucketEntry × List (RefOp Nexthop)
  | 0, _, ent => (.ok (), ent, [])
  | fuel + 1, level, ent =>
    let visitBucket (bkt : Fin 256 → IpBucketEntry) (info : EntryInfo) :
        Except Errno Unit × IpBucketEntry × List (RefOp Nexthop) :=
      let index := rtToIndex rt level
      if (mtrieIpBktInfoInit level).biPfxLen < rt.rtrPrefixLen then
        let (ret, child, ops) := mtrieAddRaw tbl alloc rt fuel (level + 1) (bkt index)
        (ret, .bucket (fun j => if j = index then child else bkt j) info, ops)
      else
        (.ok (), .bucket (addSlots (addToTree tbl rt level) (slotCount level rt.rtrPrefixLen)
          index bkt) info,
          addSlotsOps (addToTree tbl rt level) (addToTreeOps tbl rt level)
            (slotCount level rt.rtrPrefixLen) index bkt)
    match ent with
    | .bucket bkt info => visitBucket bkt info
    | .nullBucket info => (.error .ENOMEM, .nullBucket info, [])
    | .nexthop nh info =>
      if alloc level then
        let (ret, ent, ops) := visitBucket (mtrieAllocBucket tbl nh info) info
        -- the bucket is filled before `set_entry_to_bucket` releases what the entry held
        (ret, ent, mtrieAllocBucketOps tbl nh ++ putOf nh ++ ops)
      else (.error .ENOMEM, .nullBucket info, putOf nh)

/-- What an operation on a tree does: its result, the tree, what it does to the counts, and the
buckets it has taken out of the tree. -/
structure TreeEffect where
  ret : Except Errno Unit
  ent : IpBucketEntry
  ops : List (RefOp Nexthop)
  detached : List IpBucketEntry

/-- The descent of `__mtrie_add` with the rollback: `mtrie_reset_entry` gives the first entry that
was turned into a bucket its nexthop back and takes what was built there out of the tree. -/
def mtrieAddEffect (tbl : NexthopTable) (alloc : Nat → Bool) (rt : RouteReq) :
    (fuel level : Nat) → IpBucketEntry → TreeEffect
  | 0, _, ent => ⟨.ok (), ent, [], []⟩
  | fuel + 1, level, .bucket bkt info =>
    let index := rtToIndex rt level
    if (mtrieIpBktInfoInit level).biPfxLen < rt.rtrPrefixLen then
      let r := mtrieAddEffect tbl alloc rt fuel (level + 1) (bkt index)
      { r with ent := .bucket (fun j => if j = index then r.ent else bkt j) info }
    else
      ⟨.ok (), .bucket (addSlots (addToTree tbl rt level) (slotCount level rt.rtrPrefixLen)
        index bkt) info,
        addSlotsOps (addToTree tbl rt level) (addToTreeOps tbl rt level)
          (slotCount level rt.rtrPrefixLen) index bkt, []⟩
  | _ + 1, _, .nullBucket info => ⟨.error .ENOMEM, .nullBucket info, [], []⟩
  | fuel + 1, level, .nexthop nh info =>
    match mtrieAddRaw tbl alloc rt (fuel + 1) level (.nexthop nh info) with
    | (.ok (), ent, ops) => ⟨.ok (), ent, ops, []⟩
    | (.error e, built, ops) =>
      ⟨.error e, .nexthop (setEntryToNh tbl nh) info, ops ++ setEntryToNhOps tbl none nh,
        [built]⟩

/-! ### What the descent holds -/

section

variable {tbl : NexthopTable} {alloc : Nat → Bool} {rt : RouteReq}

/-- What `visitBucket` does to a bucket, in the descent without the rollback. -/
def rawBucket (tbl : NexthopTable) (alloc : Nat → Bool) (rt : RouteReq) (fuel level : Nat)
    (bkt : Fin 256 → IpBucketEntry) (info : EntryInfo) :
    Except Errno Unit × IpBucketEntry × List (RefOp Nexthop) :=
  mtrieAddRaw tbl alloc rt (fuel + 1) level (.bucket bkt info)

theorem mtrieAddRaw_nexthop (fuel level : Nat) (nh : Option Nexthop) (info : EntryInfo) :
    mtrieAddRaw tbl alloc rt (fuel + 1) level (.nexthop nh info) =
      if alloc level then
        let r := rawBucket tbl alloc rt fuel level (mtrieAllocBucket tbl nh info) info
        (r.1, r.2.1, mtrieAllocBucketOps tbl nh ++ putOf nh ++ r.2.2)
      else (.error .ENOMEM, .nullBucket info, putOf nh) := rfl

theorem rawBucket_eq (fuel level : Nat) (bkt : Fin 256 → IpBucketEntry) (info : EntryInfo) :
    rawBucket tbl alloc rt fuel level bkt info =
      if (mtrieIpBktInfoInit level).biPfxLen < rt.rtrPrefixLen then
        let r := mtrieAddRaw tbl alloc rt fuel (level + 1) (bkt (rtToIndex rt level))
        (r.1, .bucket (fun j => if j = rtToIndex rt level then r.2.1 else bkt j) info, r.2.2)
      else
        (.ok (), .bucket (addSlots (addToTree tbl rt level) (slotCount level rt.rtrPrefixLen)
          (rtToIndex rt level) bkt) info,
          addSlotsOps (addToTree tbl rt level) (addToTreeOps tbl rt level)
            (slotCount level rt.rtrPrefixLen) (rtToIndex rt level) bkt) := rfl

theorem mtrieAddRaw_moves (fuel level : Nat) (ent : IpBucketEntry) :
    Moves (mtrieAddRaw tbl alloc rt fuel level ent).2.2 (slotRefs ent)
      (slotRefs (mtrieAddRaw tbl alloc rt fuel level ent).2.1) := by
  induction fuel generalizing level ent with
  | zero => exact .nil _
  | succ fuel ih =>
    have hbucket : ∀ bkt info, Moves (rawBucket tbl alloc rt fuel level bkt info).2.2
        (∑ i, slotRefs (bkt i)) (slotRefs (rawBucket tbl alloc rt fuel level bkt info).2.1) := by
      intro bkt info
      rw [rawBucket_eq]
      split
      · have hchild := ih (level + 1) (bkt (rtToIndex rt level))
        rw [← add_zero (slotRefs (mtrieAddRaw _ _ _ _ _ _).2.1)] at hchild
        have hslots := moves_slot hchild
        rwa [add_zero] at hslots
      · exact addSlotsOps_moves (fun ent => addToTreeOps_moves tbl rt ent level) _ _ _
    cases ent with
    | bucket bkt info => exact hbucket bkt info
    | nullBucket info => exact .nil _
    | nexthop nh info =>
      rw [mtrieAddRaw_nexthop]
      split
      · -- the slots of the new bucket are filled while the entry still holds its nexthop
        have halloc := (mtrieAllocBucketOps_moves tbl nh info).frame (refOf nh)
        rw [zero_add] at halloc
        have hput := moves_putOf nh (slotRefs (.bucket (mtrieAllocBucket tbl nh info) info))
        rw [add_comm] at hput
        exact (halloc.append hput).append (hbucket _ info)
      · exact moves_putOf_all nh

/-- What an operation does to the counts takes what `ent` held to what the new tree and the buckets
taken out of it hold. -/
def TreeEffect.MovesFrom (r : TreeEffect) (ent : IpBucketEntry) : Prop :=
  Moves r.ops (slotRefs ent) (slotRefs r.ent + pendingRefs r.detached)

theorem TreeEffect.MovesFrom.keep {ret : Except Errno Unit} (ent : IpBucketEntry) :
    MovesFrom ⟨ret, ent, [], []⟩ ent := by
  rw [MovesFrom, pendingRefs_nil, add_zero]
  exact .nil _

theorem mtrieAddEffect_moves (fuel level : Nat) (ent : IpBucketEntry) :
    (mtrieAddEffect tbl alloc rt fuel level ent).MovesFrom ent := by
  induction fuel generalizing level ent with
  | zero => exact .keep ent
  | succ fuel ih =>
    cases ent with
    | bucket bkt info =>
      simp only [mtrieAddEffect]
      split
      · exact moves_slot (ih (level + 1) (bkt (rtToIndex rt level)))
      · rw [TreeEffect.MovesFrom, pendingRefs_nil, add_zero]
        exact addSlotsOps_moves (fun ent => addToTreeOps_moves tbl rt ent level) _ _ _
    | nullBucket info => exact .keep _
    | nexthop nh info =>
      have hraw := @mtrieAddRaw_moves tbl alloc rt (fuel + 1) level (.nexthop nh info)
      simp only [mtrieAddEffect]
      split
      · rename_i hret
        rw [hret] at hraw
        rw [TreeEffect.MovesFrom, pendingRefs_nil, add_zero]
        exact hraw
      rename_i e built ops hret
      rw [hret] at hraw
      have hback := (setEntryToNhOps_moves tbl none nh).frame (slotRefs built)
      rw [refOf_none, zero_add] at hback
      rw [TreeEffect.MovesFrom, pendingRefs_singleton]
      exact hraw.append hback

/-! ### The trees are those of the route table's model -/

theorem mtrieAddLevels_no_memory {level : Nat} (halloc : alloc level = false) (fuel : Nat)
    (nh : Option Nexthop) (info : EntryInfo) :
    mtrieAddLevels tbl alloc rt (fuel + 1) level (.nexthop nh info) =
      (.error .ENOMEM, .nexthop (setEntryToNh tbl nh) info) := by
  simp only [mtrieAddLevels, halloc, Bool.false_eq_true, if_false]

/-- An entry that was turned into a bucket gets its nexthop back on failure. -/
theorem mtrieAddLevels_rollback {fuel level : Nat} {nh : Option Nexthop} {info : EntryInfo}
    {e : Errno}
    (h : (mtrieAddLevels tbl alloc rt (fuel + 1) level (.nexthop nh info)).1 = .error e) :
    (mtrieAddLevels tbl alloc rt (fuel + 1) level (.nexthop nh info)).2 =
      .nexthop (setEntryToNh tbl nh) info := by
  cases halloc : alloc level with
  | true =>
    rw [mtrieAddLevels_nexthop halloc] at h ⊢
    split
    · rename_i hok
      rw [hok] at h
      cases h
    · rfl
  | false => rw [mtrieAddLevels_no_memory halloc]

/-- Without the rollback the result is the same, and so is the tree if nothing has to be undone. -/
def RawOf (raw : Except Errno Unit × IpBucketEntry × List (RefOp Nexthop))
    (r : Except Errno Unit × IpBucketEntry) : Prop :=
  raw.1 = r.1 ∧ (r.1 = .ok () → raw.2.1 = r.2)

theorem mtrieAddRaw_eq (fuel level : Nat) (ent : IpBucketEntry) :
    RawOf (mtrieAddRaw tbl alloc rt fuel level ent)
      (mtrieAddLevels tbl alloc rt fuel level ent) := by
  induction fuel generalizing level ent with
  | zero => exact ⟨rfl, fun _ => rfl⟩
  | succ fuel ih =>
    have hbucket : ∀ bkt info, RawOf (rawBucket tbl alloc rt fuel level bkt info)
        (mtrieAddLevels tbl alloc rt (fuel + 1) level (.bucket bkt info)) := by
      intro bkt info
      obtain ⟨hret, hent⟩ := ih (level + 1) (bkt (rtToIndex rt level))
      rw [rawBucket_eq, biPfxLen_eq, mtrieAddLevels_bucket]
      split
      · refine ⟨hret, fun hok => ?_⟩
        simp only [hent hok]
      · exact ⟨rfl, fun _ => rfl⟩
    cases ent with
    | bucket bkt info => exact hbucket bkt info
    | nullBucket info => exact ⟨rfl, fun h => nomatch h⟩
    | nexthop nh info =>
      obtain ⟨hret, hent⟩ := hbucket (mtrieAllocBucket tbl nh info) info
      rw [mtrieAddRaw_nexthop]
      cases halloc : alloc level with
      | true =>
        rw [mtrieAddLevels_nexthop halloc]
        rcases hlevels : mtrieAddLevels tbl alloc rt (fuel + 1) level
            (.bucket (mtrieAllocBucket tbl nh info) info) with ⟨⟨⟩ | ⟨⟩, ent⟩
        · rw [hlevels] at hret
          exact ⟨hret, fun h => nomatch h⟩
        · rw [hlevels] at hret hent
          exact ⟨hret, fun _ => hent rfl⟩
      | false =>
        rw [mtrieAddLevels_no_memory halloc]
        exact ⟨rfl, fun h => nomatch h⟩

theorem mtrieAddEffect_eq (fuel level : Nat) (ent : IpBucketEntry) :
    ((mtrieAddEffect tbl alloc rt fuel level ent).ret,
      (mtrieAddEffect tbl alloc rt fuel level ent).ent) =
        mtrieAddLevels tbl alloc rt fuel level ent := by
  induction fuel generalizing level ent with
  | zero => rfl
  | succ fuel ih =>
    cases ent with
    | bucket bkt info =>
      rw [mtrieAddLevels_bucket]
      simp only [mtrieAddEffect, biPfxLen_eq]
      split
      · rw [← ih]
      · rfl
    | nullBucket info => rfl
    | nexthop nh info =>
      have heq := @mtrieAddRaw_eq tbl alloc rt (fuel + 1) level (.nexthop nh info)
      simp only [mtrieAddEffect]
      rcases hraw : mtrieAddRaw tbl alloc rt (fuel + 1) level (.nexthop nh info) with
        ⟨e | ⟨⟩, built, ops⟩
      · rw [hraw] at heq
        exact Prod.ext heq.1 (mtrieAddLevels_rollback heq.1.symm).symm
      · rw [hraw] at heq
        exact Prod.ext heq.1 (heq.2 heq.1.symm)

end

/-! ## Deleting -/

/-- A slot that is left alone. -/
def TreeEffect.keep (ent : IpBucketEntry) : TreeEffect := ⟨.ok (), ent, [], []⟩

/-- `__mtrie_delete`. A bucket whose slots compare equal in the end is taken out of the tree by
`mtrie_delete_bkt`, with the references of its slots. -/
def mtrieDeleteEffect (tbl : NexthopTable) (rt : RouteReq) :
    IpBucketEntry → (level : Nat) → (relabel : Bool) → TreeEffect
  | .nexthop nh info, _, _ => ⟨.error .ENOENT, .nexthop nh info, [], []⟩
  | .nullBucket info, _, _ => ⟨.error .ENOENT, .nullBucket info, [], []⟩
  | .bucket bkt info, level, relabel =>
    let index := rtToIndex rt level
    let slot : Fin 256 → TreeEffect := fun i =>
      if (mtrieIpBktInfoInit level).biPfxLen < rt.rtrPrefixLen then
        if i = index then mtrieDeleteEffect tbl rt (bkt i) (level + 1) false else .keep (bkt i)
      else if deleteStart level rt.rtrPrefixLen index ≤ i.val ∧
          i.val < deleteEnd level rt.rtrPrefixLen index ∧
          (bkt i).info.entryPrefixLen = rt.rtrPrefixLen then
        match bkt i with
        | .nexthop nh _ =>
          ⟨.ok (), .nexthop (setEntryToNh tbl rt.rtrNh) (reqInfo rt rt.rtrReplacePlen),
            setEntryToNhOps tbl nh rt.rtrNh, []⟩
        | _ => mtrieDeleteEffect tbl rt (bkt i) (level + 1) true
      else .keep (bkt i)
    let bkt' : Fin 256 → IpBucketEntry := fun i => (slot i).ent
    let ops := (List.finRange 256).flatMap fun i => (slot i).ops
    let detached := (List.finRange 256).flatMap fun i => (slot i).detached
    if bucketUniform bkt' then
      ⟨.ok (), mtrieDeleteBkt tbl rt (relabelledInfo rt relabel info),
        ops ++ setEntryToNhOps tbl none rt.rtrNh,
        detached ++ [.bucket bkt' (relabelledInfo rt relabel info)]⟩
    else ⟨.ok (), .bucket bkt' (relabelledInfo rt relabel info), ops, detached⟩

section

variable {tbl : NexthopTable} {rt : RouteReq}

/-- What the loop of `__mtrie_delete` does to slot `i` of a bucket. -/
def deletedSlotEffect (tbl : NexthopTable) (rt : RouteReq) (bkt : Fin 256 → IpBucketEntry)
    (level : Nat) (i : Fin 256) : TreeEffect :=
  if (mtrieIpBktInfoInit level).biPfxLen < rt.rtrPrefixLen then
    if i = rtToIndex rt level then mtrieDeleteEffect tbl rt (bkt i) (level + 1) false
    else .keep (bkt i)
  else if deleteStart level rt.rtrPrefixLen (rtToIndex rt level) ≤ i.val ∧
      i.val < deleteEnd level rt.rtrPrefixLen (rtToIndex rt level) ∧
      (bkt i).info.entryPrefixLen = rt.rtrPrefixLen then
    match bkt i with
    | .nexthop nh _ =>
      ⟨.ok (), .nexthop (setEntryToNh tbl rt.rtrNh) (reqInfo rt rt.rtrReplacePlen),
        setEntryToNhOps tbl nh rt.rtrNh, []⟩
    | _ => mtrieDeleteEffect tbl rt (bkt i) (level + 1) true
  else .keep (bkt i)

theorem mtrieDeleteEffect_bucket (bkt : Fin 256 → IpBucketEntry) (info : EntryInfo) (level : Nat)
    (relabel : Bool) :
    mtrieDeleteEffect tbl rt (.bucket bkt info) level relabel =
      let slot := deletedSlotEffect tbl rt bkt level
      let ops := (List.finRange 256).flatMap fun i => (slot i).ops
      let detached := (List.finRange 256).flatMap fun i => (slot i).detached
      if bucketUniform fun i => (slot i).ent then
        ⟨.ok (), mtrieDeleteBkt tbl rt (relabelledInfo rt relabel info),
          ops ++ setEntryToNhOps tbl none rt.rtrNh,
          detached ++ [.bucket (fun i => (slot i).ent) (relabelledInfo rt relabel info)]⟩
      else
        ⟨.ok (), .bucket (fun i => (slot i).ent) (relabelledInfo rt relabel info), ops,
          detached⟩ := by
  rfl

theorem pendingRefs_slots (f : Fin 256 → List IpBucketEntry) :
    pendingRefs ((List.finRange 256).flatMap f) = ∑ i, pendingRefs (f i) := by
  have hlist : ∀ l : List (Fin 256),
      pendingRefs (l.flatMap f) = (l.map fun i => pendingRefs (f i)).sum := by
    intro l
    induction l with
    | nil => rfl
    | cons i l ih => rw [List.flatMap_cons, pendingRefs_append, ih, List.map_cons, List.sum_cons]
  rw [hlist, Fin.sum_univ_def]

/-- The references a delete moves: those of the slots it rewrites, and those of the buckets it
takes out of the tree. -/
theorem mtrieDeleteEffect_moves (ent : IpBucketEntry) (level : Nat) (relabel : Bool) :
    (mtrieDeleteEffect tbl rt ent level relabel).MovesFrom ent := by
  induction ent generalizing level relabel with
  | nexthop nh info => exact .keep _
  | nullBucket info => exact .keep _
  | bucket bkt info ih =>
    have hslot : ∀ i, (deletedSlotEffect tbl rt bkt level i).MovesFrom (bkt i) := by
      intro i
      have ihi := ih i (level + 1)
      unfold deletedSlotEffect
      split
      · split
        · exact ihi false
        · exact .keep _
      split
      · cases hb : bkt i with
        | nexthop nh inf =>
          show Moves _ (refOf nh) (refOf _ + 0)
          rw [add_zero]
          exact setEntryToNhOps_moves tbl nh rt.rtrNh
        | nullBucket | bucket =>
          rw [hb] at ihi
          exact ihi true
      · exact .keep _
    have hloop := moves_slots _ _ _ hslot
    rw [sum_add_distrib, ← pendingRefs_slots] at hloop
    rw [mtrieDeleteEffect_bucket]
    simp only [TreeEffect.MovesFrom]
    split
    · -- the entry takes its own reference; the bucket goes with those of its slots
      have hent := (setEntryToNhOps_moves tbl none rt.rtrNh).frame
        (∑ i, slotRefs (deletedSlotEffect tbl rt bkt level i).ent +
          pendingRefs ((List.finRange 256).flatMap fun i =>
            (deletedSlotEffect tbl rt bkt level i).detached))
      rw [refOf_none, zero_add] at hent
      rw [pendingRefs_append, pendingRefs_singleton, add_comm (pendingRefs _)]
      exact hloop.append hent
    · exact hloop

end

/-! ## Freeing a bucket -/

/-- `mtrie_free_entry`, and `mtrie_free_bkt` for the bucket of an entry: every slot gives up its
nexthop, those of further buckets in turn; an entry for a null bucket has none. -/
def mtrieFreeEntry : IpBucketEntry → List (RefOp Nexthop)
  | .nexthop nh _ => putOf nh
  | .nullBucket _ => []
  | .bucket bkt _ => (List.finRange 256).flatMap fun i => mtrieFreeEntry (bkt i)

theorem mtrieFreeEntry_moves (ent : IpBucketEntry) :
    Moves (mtrieFreeEntry ent) (slotRefs ent) 0 := by
  induction ent with
  | nexthop nh info => exact moves_putOf_all nh
  | nullBucket info => exact .nil 0
  | bucket bkt info ih =>
    have hslots := moves_slots (fun i => mtrieFreeEntry (bkt i)) _ (fun _ => 0) ih
    rwa [sum_const_zero] at hslots

theorem mtrieFreeEntries_moves (pending : List IpBucketEntry) :
    Moves (pending.flatMap mtrieFreeEntry) (pendingRefs pending) 0 := by
  induction pending with
  | nil => exact .nil 0
  | cons ent pending ih =>
    have hfree := (mtrieFreeEntry_moves ent).frame (pendingRefs pending)
    rw [zero_add] at hfree
    exact hfree.append ih

end VRouter
