import VRouter.Mtrie.Absent
import VRouter.Mtrie.References

/-!
# VRouter — adds that run out of memory

`__mtrie_add` links the buckets it creates into the tree as it goes. When an allocation fails
further down, `mtrie_reset_entry` puts the nexthop back into the first entry that was turned into a
bucket, and frees what hangs below. The tree is then as it was, as long as its nexthops are still
installed, and so are the references (`mtrieAdd_alloc_failure`).
-/

namespace VRouter

open RefCount

/-- The levels at which the descent of `__mtrie_add` wants a bucket: those below the entry on its
path that holds a nexthop, down to the level where the route ends. -/
def bucketsWanted (rt : RouteReq) : (fuel level : Nat) → IpBucketEntry → List Nat
  | 0, _, _ => []
  | fuel + 1, level, .bucket bkt _ =>
    if (mtrieIpBktInfoInit level).biPfxLen < rt.rtrPrefixLen then
      bucketsWanted rt fuel (level + 1) (bkt (rtToIndex rt level))
    else []
  | _ + 1, _, .nullBucket _ => []
  | fuel + 1, level, .nexthop nh info =>
    level ::
      if (mtrieIpBktInfoInit level).biPfxLen < rt.rtrPrefixLen then
        bucketsWanted rt fuel (level + 1) (.nexthop nh info)
      else []

section

variable {tbl : NexthopTable} {alloc : Nat → Bool} {rt : RouteReq}

theorem bucketsWanted_nexthop (fuel level : Nat) (nh nh' : Option Nexthop)
    (info info' : EntryInfo) :
    bucketsWanted rt fuel level (.nexthop nh info) =
      bucketsWanted rt fuel level (.nexthop nh' info') := by
  induction fuel generalizing level with
  | zero => rfl
  | succ fuel ih => simp only [bucketsWanted, ih (level + 1)]

theorem mtrieAddLevels_of_alloc_failure {fuel level : Nat} {ent : IpBucketEntry}
    (hfail : ∃ l ∈ bucketsWanted rt fuel level ent, alloc l = false) :
    (mtrieAddLevels tbl alloc rt fuel level ent).1 = .error .ENOMEM := by
  induction fuel generalizing level ent with
  | zero =>
    obtain ⟨l, hl, -⟩ := hfail
    cases hl
  | succ fuel ih =>
    have hbucket : ∀ bkt info, (∃ l ∈ bucketsWanted rt (fuel + 1) level (.bucket bkt info),
        alloc l = false) →
        (mtrieAddLevels tbl alloc rt (fuel + 1) level (.bucket bkt info)).1 = .error .ENOMEM := by
      intro bkt info hfail
      simp only [bucketsWanted, biPfxLen_eq] at hfail
      rw [mtrieAddLevels_bucket]
      split at hfail
      · rename_i hlonger
        rw [if_pos hlonger]
        exact ih hfail
      · obtain ⟨l, hl, -⟩ := hfail
        cases hl
    cases ent with
    | bucket bkt info => exact hbucket bkt info hfail
    | nullBucket info => rfl
    | nexthop nh info =>
      cases halloc : alloc level with
      | false => rw [mtrieAddLevels_no_memory halloc]
      | true =>
        obtain ⟨l, hl, hlfail⟩ := hfail
        rcases List.mem_cons.mp hl with rfl | hl
        · rw [halloc] at hlfail
          cases hlfail
        have hnew := hbucket (mtrieAllocBucket tbl nh info) info ⟨l, by
          simp only [bucketsWanted, mtrieAllocBucket]
          rwa [bucketsWanted_nexthop fuel (level + 1) _ nh _ info], hlfail⟩
        rw [mtrieAddLevels_nexthop halloc]
        split
        · rename_i hok
          rw [hok] at hnew
          cases hnew
        · rename_i herror
          rw [herror] at hnew
          exact hnew

theorem setEntryToNh_of_installed {nh : Option Nexthop}
    (h : ∀ n ∈ refOf nh, tbl.get n.nhId = some n) : setEntryToNh tbl nh = nh := by
  cases nh with
  | none => rfl
  | some n => exact setEntryToNh_of_get (h n (by simp))

/-- A failed descent leaves the tree as it was if the nexthops in it are installed. -/
theorem mtrieAddLevels_eq_of_error {fuel level : Nat} {ent : IpBucketEntry} {e : Errno}
    (hinstalled : ∀ nh ∈ slotRefs ent, tbl.get nh.nhId = some nh)
    (herror : (mtrieAddLevels tbl alloc rt fuel level ent).1 = .error e) :
    (mtrieAddLevels tbl alloc rt fuel level ent).2 = ent := by
  induction fuel generalizing level ent with
  | zero => rfl
  | succ fuel ih =>
    cases ent with
    | bucket bkt info =>
      rw [mtrieAddLevels_bucket] at herror ⊢
      split
      · rename_i hlonger
        rw [if_pos hlonger] at herror
        have hchild := ih (fun nh hnh => hinstalled nh
          (Multiset.mem_sum.mpr ⟨rtToIndex rt level, Finset.mem_univ _, hnh⟩)) herror
        simp only [hchild]
        congr 1
        funext j
        split
        · rename_i hj
          rw [hj]
        · rfl
      · rename_i hlonger
        rw [if_neg hlonger] at herror
        cases herror
    | nullBucket info => rfl
    | nexthop nh info =>
      rw [mtrieAddLevels_rollback herror, setEntryToNh_of_installed hinstalled]

end

/-- An add for which a bucket cannot be allocated, at any level: `__mtrie_add` returns `-ENOMEM`,
every lookup returns what it returned before, each nexthop is in as many slots as before, and once
the buckets taken out of the tree have been freed, as many references to it have been given up as
were taken. -/
theorem mtrieAdd_alloc_failure (env : RouteEnv) (alloc : Nat → Bool) (rt : RouteReq)
    (st : RouteTables) (root : IpBucketEntry)
    (hroot : vrfidToMtrie st rt.rtrVrfId rt.rtrFamily = some root)
    (hinstalled : ∀ nh ∈ slotRefs root, env.nexthops.get nh.nhId = some nh)
    (hfail : ∃ level ∈ bucketsWanted rt (ipBktGetMaxLevel rt.rtrFamily) 0 root,
      alloc level = false) :
    let r := mtrieAddEffect env.nexthops alloc rt (ipBktGetMaxLevel rt.rtrFamily) 0 root
    mtrieAddCore env.nexthops alloc rt root = (.error .ENOMEM, r.ent) ∧
      (∀ q, mtrieLookup env (st.setRoot rt.rtrVrfId rt.rtrFamily r.ent) rt.rtrVrfId q =
        mtrieLookup env st rt.rtrVrfId q) ∧
      ∀ nh, (slotRefs r.ent).count nh = (slotRefs root).count nh ∧
        gets nh (r.ops ++ r.detached.flatMap mtrieFreeEntry) =
          puts nh (r.ops ++ r.detached.flatMap mtrieFreeEntry) := by
  intro r
  have herror : (mtrieAddCore env.nexthops alloc rt root).1 = .error .ENOMEM :=
    mtrieAddLevels_of_alloc_failure hfail
  have hcore : (r.ret, r.ent) = mtrieAddCore env.nexthops alloc rt root := mtrieAddEffect_eq _ _ _
  have hsame : r.ent = root :=
    (congrArg Prod.snd hcore).trans (mtrieAddLevels_eq_of_error hinstalled herror)
  have hrow : st.vnRtable rt.rtrFamily rt.rtrVrfId = some root := by
    unfold vrfidToMtrie at hroot
    split at hroot
    · cases hroot
    · exact hroot
  refine ⟨?_, fun q => ?_, fun nh => ⟨by rw [hsame], ?_⟩⟩
  · rw [← hcore] at herror ⊢
    exact Prod.ext herror rfl
  · rw [hsame, setRoot_eq_self hrow]
  -- the operation starts and ends with the references of the same tree
  have hadd : Moves r.ops (slotRefs root) (slotRefs r.ent + pendingRefs r.detached) :=
    mtrieAddEffect_moves _ _ _
  have hfree := (mtrieFreeEntries_moves r.detached).frame_left (slotRefs r.ent)
  have hcount := (hadd.append hfree).count nh
  rw [add_zero, hsame] at hcount
  omega

/-- An add of `1.2.3.0/24` to an empty table fails at the third bucket. -/
theorem mtrieAdd_alloc_failure_third :
    let root := mtrieAllocVrf sampleNexthops
    let st := sampleTables.setRoot 0 .inet root
    let alloc : Nat → Bool := fun level => level != 2
    let rt := sampleResolved [1, 2, 3, 0] 24 5 0
    let r := mtrieAddEffect sampleEnv.nexthops alloc rt (ipBktGetMaxLevel .inet) 0 root
    bucketsWanted rt (ipBktGetMaxLevel .inet) 0 root = [0, 1, 2] ∧
      mtrieAddCore sampleEnv.nexthops alloc rt root = (.error .ENOMEM, r.ent) ∧
      ∀ q, mtrieLookup sampleEnv (st.setRoot 0 .inet r.ent) 0 q = mtrieLookup sampleEnv st 0 q := by
  intro root st alloc rt r
  have h := mtrieAdd_alloc_failure sampleEnv alloc rt st root rfl (fun nh _ => ?_)
    ⟨2, by decide, rfl⟩
  · exact ⟨by decide, h.1, h.2.1⟩
  · rename_i hnh
    have hnh : nh ∈ ({sampleNh nhDiscardId} : Multiset Nexthop) := hnh
    rw [Multiset.mem_singleton.mp hnh]
    rfl

end VRouter
