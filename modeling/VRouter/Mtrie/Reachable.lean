import VRouter.Mtrie.Run

/-!
# VRouter — the route tables any requests can make

`RouteRun` follows the well-formed requests on one table, because the answers of the table are
about the routes those amount to. Here all requests are followed: any sequence of adds and
deletes, in any VRF and family, with nexthops that come and go in between and allocations that
fail. What survives all of them is the shape of the trees (`Filled`): every slot that is not a
bucket holds a nexthop, no bucket pointer is null, and no bucket hangs below the last level.
-/

namespace VRouter

/-! ## The shape of a tree -/

/-- Every slot of the tree holds a nexthop or a bucket, with at most `levels` buckets on the way
to a slot. -/
def Filled : (levels : Nat) → IpBucketEntry → Prop
  | _, .nexthop nh _ => nh ≠ none
  | _, .nullBucket _ => False
  | levels, .bucket bkt _ => 0 < levels ∧ ∀ i, Filled (levels - 1) (bkt i)

section

variable {tbl : NexthopTable} {rt : RouteReq} {levels : Nat}

theorem setEntryToNh_ne_none {nh : Option Nexthop} (h : nh ≠ none) :
    setEntryToNh tbl nh ≠ none := by
  cases nh with
  | none => exact absurd rfl h
  | some nh =>
    show (if tbl.get nh.nhId = some nh then some nh else tbl.get nhDiscardId) ≠ none
    split
    · exact Option.some_ne_none nh
    · rw [tbl.get_discard]
      exact Option.some_ne_none _

variable {ent : IpBucketEntry}

theorem Filled.addToTree (hnh : rt.rtrNh ≠ none) (h : Filled levels ent) (level : Nat) :
    Filled levels (addToTree tbl rt level ent) := by
  induction ent generalizing levels level with
  | nexthop nh info =>
    unfold VRouter.addToTree
    split
    · exact h
    · exact setEntryToNh_ne_none hnh
  | nullBucket info => exact h
  | bucket bkt info ih =>
    unfold VRouter.addToTree
    split
    · exact h
    · split
      · exact h
      · exact ⟨h.1, fun i => ih i (h.2 i) (level + 1)⟩

/-- The descent of an add keeps the shape. Induction on the levels left. -/
theorem Filled.mtrieAddLevels (alloc : Nat → Bool) (hnh : rt.rtrNh ≠ none) {fuel : Nat}
    (h : Filled fuel ent) (level : Nat) :
    Filled fuel (mtrieAddLevels tbl alloc rt fuel level ent).2 := by
  induction fuel generalizing level ent with
  | zero => exact h
  | succ fuel ih =>
    have hbucket : ∀ bkt info, Filled (fuel + 1) (.bucket bkt info) →
        Filled (fuel + 1)
          (VRouter.mtrieAddLevels tbl alloc rt (fuel + 1) level (.bucket bkt info)).2 := by
      rintro bkt info ⟨-, hslots⟩
      rw [mtrieAddLevels_bucket]
      split
      · refine ⟨Nat.succ_pos _, fun j => ?_⟩
        show Filled fuel (if j = rtToIndex rt level then _ else bkt j)
        split
        · exact ih (hslots _) (level + 1)
        · exact hslots j
      · refine ⟨Nat.succ_pos _, fun j => ?_⟩
        rw [addSlots_apply _ _ (slotCount_le _ _)]
        split
        · exact Filled.addToTree hnh (hslots j) level
        · exact hslots j
    cases ent with
    | bucket bkt info => exact hbucket bkt info h
    | nullBucket info => exact h.elim
    | nexthop nh info =>
      cases halloc : alloc level with
      | false =>
        simp only [VRouter.mtrieAddLevels, halloc]
        exact setEntryToNh_ne_none h
      | true =>
        rw [mtrieAddLevels_nexthop halloc]
        have hnew := hbucket (mtrieAllocBucket tbl nh info) info
          ⟨Nat.succ_pos _, fun _ => setEntryToNh_ne_none h⟩
        split
        · rename_i heq
          rwa [heq] at hnew
        · exact setEntryToNh_ne_none h

theorem Filled.mtrieDeleteCore (hnh : rt.rtrNh ≠ none) (h : Filled levels ent) (level : Nat)
    (relabel : Bool) : Filled levels (mtrieDeleteCore tbl rt ent level relabel).2 := by
  induction ent generalizing levels level relabel with
  | nexthop | nullBucket => exact h
  | bucket bkt info ih =>
    rw [mtrieDeleteCore_bucket]
    split
    · exact setEntryToNh_ne_none hnh
    refine ⟨h.1, fun i => ?_⟩
    unfold deletedSlot
    have hslot := h.2 i
    split
    · split
      · exact ih i hslot (level + 1) false
      · exact hslot
    split
    · split
      · exact setEntryToNh_ne_none hnh
      · exact ih i hslot (level + 1) true
    · exact hslot

end

/-! ## Reachable tables -/

/-- The tables that requests can make, from tables of which none has been allocated. The
surroundings, with the nexthops installed and the bridge table, are those of the moment. -/
inductive RouteTables.Reachable : RouteTables → Prop where
  | start (vrVrfs : Nat) : Reachable ⟨vrVrfs, fun _ _ => none⟩
  | add {st : RouteTables} (h : Reachable st) (env : RouteEnv) (alloc : MtrieAlloc)
      {rt : RouteReq} (hcan : Canonical rt) : Reachable (mtrieAdd env alloc rt st).2
  | delete {st : RouteTables} (h : Reachable st) (env : RouteEnv) {rt : RouteReq}
      (hcan : Canonical rt) : Reachable (mtrieDelete env rt st).2

/-- All trees of the tables have their shape. -/
def RouteTables.AllFilled (st : RouteTables) : Prop :=
  ∀ family vrf root, st.vnRtable family vrf = some root → Filled (ipBktGetMaxLevel family) root

variable {st : RouteTables} {root : IpBucketEntry} {family : Family} {vrf : Nat}

theorem RouteTables.AllFilled.setRoot (h : st.AllFilled)
    (hroot : Filled (ipBktGetMaxLevel family) root) : (st.setRoot vrf family root).AllFilled := by
  intro family' vrf' root' heq
  unfold RouteTables.setRoot at heq
  simp only at heq
  split at heq
  · rename_i hsame
    cases heq
    rwa [hsame.1]
  · exact h family' vrf' root' heq

theorem RouteTables.AllFilled.vrfidToMtrie (h : st.AllFilled)
    (hroot : vrfidToMtrie st vrf family = some root) : Filled (ipBktGetMaxLevel family) root := by
  unfold VRouter.vrfidToMtrie at hroot
  split at hroot
  · cases hroot
  · exact h family vrf root hroot

theorem RouteTables.AllFilled.addRoot (h : st.AllFilled) {env : RouteEnv} {alloc : MtrieAlloc}
    {rt : RouteReq} (hroot : addRoot env alloc rt st = some root) :
    Filled (ipBktGetMaxLevel rt.rtrFamily) root := by
  unfold VRouter.addRoot at hroot
  cases hown : VRouter.vrfidToMtrie st rt.rtrVrfId rt.rtrFamily with
  | some own =>
    rw [hown] at hroot
    cases hroot
    exact h.vrfidToMtrie hown
  | none =>
    rw [hown] at hroot
    split at hroot
    · cases hroot
      unfold mtrieAllocVrf
      rw [env.nexthops.get_discard]
      exact Option.some_ne_none _
    · cases hroot

/-- **Shape of the trees.** In all tables that requests can make, every slot holds a nexthop or a
bucket, and buckets end with the last level of the family. -/
theorem RouteTables.Reachable.allFilled (h : st.Reachable) : st.AllFilled := by
  induction h with
  | start vrVrfs =>
    intro family vrf root hroot
    cases hroot
  | @add st _ env alloc rt _ ih =>
    rcases mtrieAdd_cases env alloc rt st with
      ⟨-, heq⟩ | ⟨root, hroot, ⟨e, heq⟩ | ⟨nh, index, -, heq⟩⟩
    · rw [heq]
      exact ih
    · rw [heq]
      exact ih.setRoot (ih.addRoot hroot)
    · rw [heq]
      refine (ih.setRoot (ih.addRoot hroot)).setRoot ?_
      exact Filled.mtrieAddLevels alloc.bucket (Option.some_ne_none nh) (ih.addRoot hroot) 0
  | @delete st _ env rt _ ih =>
    rcases mtrieDelete_cases env rt st with ⟨e, heq⟩ | ⟨root, nh, index, hroot, -, heq⟩
    · rw [heq]
      exact ih
    · rw [heq]
      refine ih.setRoot ?_
      exact Filled.mtrieDeleteCore (Option.some_ne_none nh) (ih.vrfidToMtrie hroot) 0 false

end VRouter
