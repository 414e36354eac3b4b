import VRouter.Lib.BlockCount
import VRouter.Mtrie.Reachable
import VRouter.Mtrie.Lookup
import VRouter.Mtrie.InetRoute

/-!
# VRouter — the slot count of a lookup

At every bucket it works on, `__mtrie_lookup` computes the number of slots the query covers as
`1 << (bi_pfx_len - rtr_prefix_len)`, a shift of an `int`. `lookupVisits` is the list of those
computations, in the order in which the search makes them, and `lookupLimitInt` is what each of
them yields: nothing once the shift amount reaches the width of the type.

`lookupShift_lt_iff` says for which query lengths all shifts of all lookups are defined. The
search goes down along the octets of the query whatever its length, so one long route is enough
to bring a short query to the last level.
-/

namespace VRouter

open LongestMatch

/-! ## The shift -/

/-- The shift amount `__mtrie_lookup` computes at a level, unless the query is longer than the
level and it takes the size of the bucket. -/
def lookupShift (level plen : Nat) : Option Nat :=
  if (mtrieIpBktInfoInit level).biPfxLen < plen then none
  else some ((mtrieIpBktInfoInit level).biPfxLen - plen)

/-- `limit` in `__mtrie_lookup`, `none` where the shift of the 32-bit `1` is undefined. -/
def lookupLimitInt (level plen : Nat) : Option Nat :=
  match lookupShift level plen with
  | none => some (mtrieIpBktInfoInit level).biSize
  | some k => if k < 32 then some (2 ^ k) else none

/-- What the limit stands for: the number of slots of `level` inside the query, or the whole
bucket when the query is longer than the level. A slot of `level` is named by `level + 1`
octets. -/
noncomputable def slotsCovered (level : Nat) (p : List Octet) (n : Nat) : Nat :=
  if 8 * (level + 1) < n then 256 else (blocksIn p n (level + 1)).ncard

theorem lookupShift_eq (level plen : Nat) :
    lookupShift level plen = if 8 * (level + 1) < plen then none else
      some (8 * (level + 1) - plen) := by
  simp only [lookupShift, biPfxLen_eq]

variable {bkt : Fin 256 → IpBucketEntry} {level plen : Nat}

/-- A shift amount below 32 gives the number of slots covered. -/
theorem lookupLimitInt_eq_slotsCovered (p : List Octet)
    (h : ∀ k, lookupShift level plen = some k → k < 32) :
    lookupLimitInt level plen = some (slotsCovered level p plen) := by
  unfold lookupLimitInt slotsCovered
  rw [lookupShift_eq] at h ⊢
  split
  · rename_i hnone
    rw [if_pos (by by_contra hle; rw [if_neg hle] at hnone; cases hnone), biSize_eq]
  rename_i k hsome
  by_cases hlt : 8 * (level + 1) < plen
  · rw [if_pos hlt] at hsome
    cases hsome
  · rw [if_neg hlt] at h hsome ⊢
    cases hsome
    rw [if_pos (h _ rfl), ncard_blocksIn _ _ _ (by omega)]

theorem lookupLimitInt_eq_lookupLimit (h : ∀ k, lookupShift level plen = some k → k < 32) :
    lookupLimitInt level plen = some (lookupLimit level plen) := by
  unfold lookupLimitInt lookupLimit
  unfold lookupShift at h ⊢
  by_cases hlt : (mtrieIpBktInfoInit level).biPfxLen < plen
  · simp only [if_pos hlt]
  · simp only [if_neg hlt] at h ⊢
    rw [if_pos (h _ rfl)]

/-! ## The buckets a lookup works on -/

/-- A bucket `__mtrie_lookup` works on: the level it takes it for, and the length the request has
by then. -/
structure LookupVisit where
  level : Nat
  plen : Nat
  deriving DecidableEq, Repr

/-- The buckets that the scan of one bucket leads to, in the order of `lookupScan`. -/
def scanVisits
    (search : (Fin 256 → IpBucketEntry) → RouteReq → Option Nexthop × RouteReq)
    (visits : (Fin 256 → IpBucketEntry) → RouteReq → List LookupVisit)
    (index : Fin 256) (limit : Nat) :
    (left i : Nat) → (Fin 256 → IpBucketEntry) → RouteReq → List LookupVisit
  | 0, _, _, _ => []
  | left + 1, i, bkt, rt =>
    match bkt (index + Fin.ofNat 256 i) with
    | .nexthop _ info =>
      if limit ≤ i ∧ rt.rtrPrefixLen ≤ info.entryPrefixLen then
        scanVisits search visits index limit left (i + 1) bkt rt
      else if rt.rtrPrefixLen < info.entryPrefixLen then
        scanVisits search visits index limit left (i + 1) bkt rt
      else []
    | .nullBucket _ => []
    | .bucket inner _ =>
      visits inner rt ++
        match search inner rt with
        | (some _, _) => []
        | (none, rt) => scanVisits search visits index limit left (i + 1) inner rt

/-- The buckets `__mtrie_lookup` works on, as `mtrieLookupLevels` does. -/
def lookupVisits : (levels : Nat) → RouteReq → (Fin 256 → IpBucketEntry) → (level : Nat) →
    List LookupVisit
  | 0, _, _, _ => []
  | levels + 1, rt, bkt, level =>
    ⟨level, rt.rtrPrefixLen⟩ ::
      scanVisits (fun inner rt => mtrieLookupLevels levels rt inner (level + 1))
        (fun inner rt => lookupVisits levels rt inner (level + 1))
        (rtToIndex rt level) (lookupLimit level rt.rtrPrefixLen)
        (mtrieIpBktInfoInit level).biSize 0 bkt rt

/-- The buckets `mtrie_lookup` works on. -/
def mtrieLookupVisits (st : RouteTables) (vrfId : Nat) (rt : RouteReq) : List LookupVisit :=
  match vrfidToMtrie st vrfId rt.rtrFamily with
  | some (.bucket bkt _) => lookupVisits (ipBktGetMaxLevel rt.rtrFamily) rt bkt 0
  | _ => []

section

variable {search : (Fin 256 → IpBucketEntry) → RouteReq → Option Nexthop × RouteReq}
  {visits : (Fin 256 → IpBucketEntry) → RouteReq → List LookupVisit}
  {index : Fin 256} {limit : Nat} {rt : RouteReq}

/-- All slots of a bucket have the shape of slots. -/
def BktFilled (bkt : Fin 256 → IpBucketEntry) : Prop := ∃ levels, ∀ i, Filled levels (bkt i)

variable {info : EntryInfo} {levels left : Nat} {i : Fin 256}

theorem BktFilled.nexthop (h : BktFilled bkt) {nh : Option Nexthop} (hi : bkt i = .nexthop nh info)
    : ∃ n, nh = some n := by
  obtain ⟨levels, hl⟩ := h
  have := hl i
  rw [hi] at this
  exact Option.ne_none_iff_exists'.mp this

theorem BktFilled.inner {inner : Fin 256 → IpBucketEntry} (h : BktFilled bkt)
    (hi : bkt i = .bucket inner info) : BktFilled inner := by
  obtain ⟨levels, hl⟩ := h
  have := hl i
  rw [hi] at this
  exact ⟨_, this.2⟩

theorem lookupScan_none
    (hsearch : ∀ inner, BktFilled inner → (search inner rt).1 = none → (search inner rt).2 = rt)
    {i : Nat} (h : BktFilled bkt) (hnone : (lookupScan search index limit left i bkt rt).1 = none) :
    (lookupScan search index limit left i bkt rt).2 = rt := by
  induction left generalizing i bkt with
  | zero => rfl
  | succ left ih =>
    unfold lookupScan at hnone ⊢
    cases hslot : bkt (index + Fin.ofNat 256 i) with
    | nexthop nh info =>
      obtain ⟨n, rfl⟩ := h.nexthop hslot
      simp only [hslot] at hnone ⊢
      split at hnone
      · rw [if_pos ‹_›]
        exact ih h hnone
      rw [if_neg ‹_›]
      split at hnone
      · rw [if_pos ‹_›]
        exact ih h hnone
      · cases hnone
    | nullBucket info => rfl
    | bucket inner info =>
      have hinner := h.inner hslot
      simp only [hslot] at hnone ⊢
      have hkept := hsearch inner hinner
      rcases hres : search inner rt with ⟨_ | nh, rt'⟩
      · rw [hres] at hkept hnone
        obtain rfl : rt' = rt := hkept rfl
        exact ih hinner hnone
      · rw [hres] at hnone
        cases hnone

theorem mtrieLookupLevels_none (h : BktFilled bkt)
    (hnone : (mtrieLookupLevels levels rt bkt level).1 = none) :
    (mtrieLookupLevels levels rt bkt level).2 = rt := by
  induction levels generalizing level bkt with
  | zero => rfl
  | succ levels ih =>
    exact lookupScan_none (fun inner hinner => ih hinner) h hnone

theorem scanVisits_forall {Q : LookupVisit → Prop}
    (hsearch : ∀ inner, BktFilled inner → (search inner rt).1 = none → (search inner rt).2 = rt)
    (hvisits : ∀ inner, BktFilled inner → ∀ v ∈ visits inner rt, Q v) {i : Nat} (h : BktFilled bkt)
    : ∀ v ∈ scanVisits search visits index limit left i bkt rt, Q v := by
  induction left generalizing i bkt with
  | zero => simp [scanVisits]
  | succ left ih =>
    unfold scanVisits
    cases hslot : bkt (index + Fin.ofNat 256 i) with
    | nexthop nh info =>
      simp only
      split
      · exact ih h
      · split
        · exact ih h
        · simp
    | nullBucket info => simp
    | bucket inner info =>
      have hinner := h.inner hslot
      have hkept := hsearch inner hinner
      simp only [List.mem_append]
      rintro v (hv | hv)
      · exact hvisits inner hinner v hv
      rcases hres : search inner rt with ⟨_ | nh, rt'⟩
      · rw [hres] at hkept hv
        obtain rfl : rt' = rt := hkept rfl
        exact ih hinner v hv
      · rw [hres] at hv
        cases hv

/-- The search never works on a level past the last one, and keeps the length of the query. -/
theorem mem_lookupVisits (h : BktFilled bkt) {v : LookupVisit}
    (hv : v ∈ lookupVisits levels rt bkt level) :
    v.plen = rt.rtrPrefixLen ∧ v.level < level + levels := by
  induction levels generalizing level bkt v with
  | zero => cases hv
  | succ levels ih =>
    rcases List.mem_cons.mp hv with rfl | hv
    · exact ⟨rfl, by show level < _; omega⟩
    refine scanVisits_forall
      (Q := fun v => v.plen = rt.rtrPrefixLen ∧ v.level < level + (levels + 1))
      (fun inner hinner => mtrieLookupLevels_none hinner) (fun inner hinner v hv => ?_) h v hv
    have := ih hinner hv
    exact ⟨this.1, by omega⟩

end

/-! ## A query that goes down to the last level -/

/-- The tree has a bucket at each of the first `k` levels of the block of zeros. -/
def ZeroPath : (k : Nat) → IpBucketEntry → Prop
  | 0, _ => True
  | k + 1, ent => ∃ bkt info, ent = .bucket bkt info ∧ ZeroPath k (bkt 0)

section

variable (tbl : NexthopTable) {rt : RouteReq}

/-- An add of the address zero makes all buckets on its way. -/
theorem mtrieAddLevels_zeroPath (hzero : ∀ l, rtToIndex rt l = 0) (fuel level : Nat)
    (hlen : rt.rtrPrefixLen = 8 * (level + fuel)) (nh : Option Nexthop) (info : EntryInfo) :
    ∃ ent, mtrieAddLevels tbl (fun _ => true) rt fuel level (.nexthop nh info) = (.ok (), ent) ∧
      ZeroPath fuel ent := by
  induction fuel generalizing level nh info with
  | zero => exact ⟨_, rfl, trivial⟩
  | succ fuel ih =>
    rw [mtrieAddLevels_nexthop rfl, mtrieAddLevels_bucket]
    cases fuel with
    | zero =>
      rw [if_neg (by omega)]
      exact ⟨_, rfl, _, _, rfl, trivial⟩
    | succ fuel =>
      rw [if_pos (by omega)]
      obtain ⟨ent, heq, hpath⟩ := ih (level + 1) (by omega) (setEntryToNh tbl nh) info
      rw [show mtrieAllocBucket tbl nh info (rtToIndex rt level) =
        .nexthop (setEntryToNh tbl nh) info from rfl, heq]
      refine ⟨_, rfl, _, _, rfl, ?_⟩
      rw [hzero]
      exact hpath

/-- A query for zeros enters the buckets of such a path one after the other. -/
theorem lookupVisits_zeroPath (hzero : ∀ l, rtToIndex rt l = 0) {k : Nat} (h : ZeroPath k (bkt 0))
    (level : Nat) : ⟨level + k, rt.rtrPrefixLen⟩ ∈ lookupVisits (k + 1) rt bkt level := by
  induction k generalizing level bkt with
  | zero => exact List.mem_cons_self
  | succ k ih =>
    obtain ⟨inner, info, hinner, hpath⟩ := h
    rw [lookupVisits, biSize_eq]
    refine List.mem_cons_of_mem _ ?_
    unfold scanVisits
    rw [hzero, show (0 : Fin 256) + Fin.ofNat 256 0 = 0 from rfl, hinner]
    refine List.mem_append_left _ ?_
    rw [show level + (k + 1) = level + 1 + k from by omega]
    exact ih hpath (level + 1)

end

/-- The address zero of a family. -/
def zeroAddr (family : Family) : List Octet := List.replicate (ipBktGetMaxLevel family) 0

theorem octet_zeroAddr (family : Family) (l : Nat) : octet (zeroAddr family) l = 0 := by
  rw [octet, zeroAddr, List.getD_eq_getElem?_getD, List.getElem?_replicate]
  split <;> rfl

/-- The request to add the address zero. -/
def zeroReq (family : Family) : RouteReq :=
  prefixReq family (zeroAddr family) (ipPrefixLen family)

theorem zeroReq_canonical (family : Family) : Canonical (zeroReq family) := by
  refine ⟨le_refl _, fun k _ => ?_⟩
  show (octet (zeroAddr family) (k / 8)).val.testBit (7 - k % 8) = false
  rw [octet_zeroAddr]
  exact Nat.zero_testBit _

/-- The tables with one VRF after an add of the address zero. -/
def zeroTables (family : Family) : RouteTables :=
  (mtrieAdd sampleEnv .all (zeroReq family) sampleTables).2

theorem zeroTables_reachable (family : Family) : (zeroTables family).Reachable :=
  .add (.start 1) sampleEnv .all (zeroReq_canonical family)

/-- The root of such a table starts a path of zeros through all levels. -/
theorem zeroTables_root (family : Family) :
    ∃ root, vrfidToMtrie (zeroTables family) 0 family = some root ∧
      ZeroPath (ipBktGetMaxLevel family) root := by
  have hzero : ∀ l, rtToIndex (resolved (zeroReq family) (sampleNh 0) vrBeInvalidIndex) l = 0 :=
    octet_zeroAddr family
  obtain ⟨root, heq, hpath⟩ := mtrieAddLevels_zeroPath sampleNexthops hzero
    (ipBktGetMaxLevel family) 0 ((ipPrefixLen_eq family).trans (by omega))
    (sampleNexthops.get nhDiscardId) ⟨0, 0, 0xFFFFF, vrBeInvalidIndex⟩
  refine ⟨root, ?_, hpath⟩
  have hroot : (mtrieAddCore sampleNexthops (fun _ => true)
      (resolved (zeroReq family) (sampleNh 0) vrBeInvalidIndex)
      (mtrieAllocVrf sampleNexthops)).2 = root := congrArg Prod.snd heq
  rw [← hroot]
  cases family <;> rfl

/-- A query of any length for zeros comes to the last level of such a table. -/
theorem zeroTables_visits (family : Family) (n : Nat) :
    ⟨ipBktGetMaxLevel family - 1, n⟩ ∈
      mtrieLookupVisits (zeroTables family) 0 (prefixReq family (zeroAddr family) n) := by
  obtain ⟨root, hroot, hpath⟩ := zeroTables_root family
  have hlevels : ipBktGetMaxLevel family = ipBktGetMaxLevel family - 1 + 1 := by
    cases family <;> rfl
  rw [hlevels] at hpath
  obtain ⟨bkt, info, rfl, hinner⟩ := hpath
  unfold mtrieLookupVisits
  rw [show (prefixReq family (zeroAddr family) n).rtrFamily = family from rfl, hroot]
  rw [hlevels]
  have hzero : ∀ l, rtToIndex (prefixReq family (zeroAddr family) n) l = 0 :=
    octet_zeroAddr family
  have hlast := lookupVisits_zeroPath hzero hinner 0
  rwa [Nat.zero_add] at hlast

/-! ## When the shift is defined -/

/-- **Slot counts of a lookup.** The lookups with query length `n` shift by less than 32 at every
level they come to, in all tables requests can make and for all query prefixes, and so work with
the true number of slots covered, exactly if `n` is less than 32 bits short of an address. -/
theorem lookupShift_lt_iff (family : Family) (n : Nat) :
    (∀ st : RouteTables, st.Reachable → ∀ vrf rt, rt.rtrFamily = family → rt.rtrPrefixLen = n →
      ∀ v ∈ mtrieLookupVisits st vrf rt, (∀ k, lookupShift v.level v.plen = some k → k < 32) ∧
        lookupLimitInt v.level v.plen = some (slotsCovered v.level rt.rtrPrefix n)) ↔
      ipPrefixLen family < n + 32 := by
  constructor
  · intro h
    have hlast := (h _ (zeroTables_reachable family) 0 (prefixReq family (zeroAddr family) n) rfl
      rfl _ (zeroTables_visits family n)).1
    have hlevels := ipPrefixLen_eq family
    by_contra hge
    have hshift : lookupShift (ipBktGetMaxLevel family - 1) n =
        some (8 * (ipBktGetMaxLevel family - 1 + 1) - n) := by
      rw [lookupShift_eq, if_neg (by omega)]
    have := hlast _ hshift
    omega
  · intro hn st hst vrf rt hfam hlen v hv
    unfold mtrieLookupVisits at hv
    split at hv
    · rename_i bkt info hroot
      have hfilled := hst.allFilled.vrfidToMtrie hroot
      obtain ⟨hplen, hlevel⟩ := mem_lookupVisits ⟨_, hfilled.2⟩ hv
      have hlt : ∀ k, lookupShift v.level v.plen = some k → k < 32 := by
        intro k hk
        rw [lookupShift_eq] at hk
        split at hk
        · cases hk
        · cases hk
          have := ipPrefixLen_eq family
          rw [hfam] at hlevel
          omega
      refine ⟨hlt, ?_⟩
      rw [lookupLimitInt_eq_slotsCovered rt.rtrPrefix hlt, hplen, hlen]
    · cases hv

/-- `0.0.0.0/0` looked up once the route `0.0.0.0/32` is there: at the last level the shift amount
is 32, and the limit has no defined value. -/
theorem lookupShift_default_route :
    ∃ st : RouteTables, st.Reachable ∧
      ∃ v ∈ mtrieLookupVisits st 0 (prefixReq .inet [0, 0, 0, 0] 0),
        lookupShift v.level v.plen = some 32 ∧ lookupLimitInt v.level v.plen = none :=
  ⟨zeroTables .inet, zeroTables_reachable .inet, ⟨3, 0⟩, zeroTables_visits .inet 0, rfl, rfl⟩

end VRouter
