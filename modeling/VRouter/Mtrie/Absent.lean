import VRouter.Mtrie.Lookup

/-!
# VRouter — deletes of routes that are not there

`__mtrie_delete` does not stop when it finds nothing to delete: on the way back up it still turns
every visited bucket with 256 equal slots into a nexthop entry that takes the request's nexthop.
An untouched bucket can look like that (`0.0.0.0/1` and `128.0.0.0/1` with the same nexthop and
label). And a delete of the default route takes slots that no route covers for slots of the default
route, since both record length zero.

`AbsentSafe` rules the two cases out. A delete of an absent route that meets it leaves the tables
exactly as they were (`TableFor.mtrieDelete_absent`).
-/

namespace VRouter

open LongestMatch

/-! ## The buckets a delete visits -/

/-- One of the buckets that a delete of `rt` visits on its way down has 256 equal slots. -/
def UniformOnPath (rt : RouteReq) : IpBucketEntry → (level : Nat) → Prop
  | .nexthop _ _, _ => False
  | .nullBucket _, _ => False
  | .bucket bkt _, level =>
    bucketUniform bkt = true ∨
      ((mtrieIpBktInfoInit level).biPfxLen < rt.rtrPrefixLen ∧
        UniformOnPath rt (bkt (rtToIndex rt level)) (level + 1))

/-- When a delete of `rt`, a route that is absent, leaves the table alone: it visits no bucket
with 256 equal slots, and it is not for the default route of a table with a bucket at its root. -/
def AbsentSafe (st : RouteTables) (rt : RouteReq) : Prop :=
  ∀ root, vrfidToMtrie st rt.rtrVrfId rt.rtrFamily = some root →
    ¬ UniformOnPath rt root 0 ∧ (rt.rtrPrefixLen = 0 → ∀ bkt info, root ≠ .bucket bkt info)

/-- The path depends on the prefix only, which a request keeps when it is resolved. -/
theorem uniformOnPath_resolved (rt : RouteReq) (nh : Nexthop) (index : Nat)
    (ent : IpBucketEntry) (level : Nat) :
    UniformOnPath (resolved rt nh index) ent level ↔ UniformOnPath rt ent level := by
  induction ent generalizing level with
  | nexthop | nullBucket => exact Iff.rfl
  | bucket bkt info ih => exact or_congr_right (and_congr_right fun _ => ih _ _)

section

variable {tbl : NexthopTable} {flagsKept : Prop} {levels : Nat} {R : Set IpRoute}
  {q : List Octet} {rt : RouteReq}

/-- A slot inside `p/n` that records length `n` is owned by a route for `p/n`. -/
theorem Represents.plen_ne_of_absent {ent : IpBucketEntry}
    (h : Represents tbl flagsKept levels R ent q) {p : List Octet} {n : Nat}
    (habsent : ∀ r ∈ R, ¬ r.IsFor p n) (hn : n ≠ 0) (hcov : Covers p n q) :
    ent.info.entryPrefixLen ≠ n := by
  intro hplen
  obtain ⟨o, ho, hlen⟩ := h.plen
  cases o with
  | none => exact hn (hplen.symm.trans hlen)
  | some r =>
    have hrn : r.len = n := hlen.symm.trans hplen
    have hrq : Covers r.octets r.len q := ho.1.2.2
    rw [hrn] at hrq
    exact habsent r ho.1.1 ⟨hrn, hcov.trans hrq.symm⟩

/-- A delete of an absent route that meets no bucket with equal slots does nothing. Induction on
the tree: at the level where the prefix ends no slot records its length, and above it the delete
changes one slot at most, by the induction hypothesis. -/
theorem Represents.mtrieDeleteCore_absent {ent : IpBucketEntry} (rt : RouteReq)
    (h : Represents tbl flagsKept levels R ent q)
    (habsent : ∀ r ∈ R, ¬ r.IsFor rt.rtrPrefix rt.rtrPrefixLen) (hn : rt.rtrPrefixLen ≠ 0)
    (hcov : Covers rt.rtrPrefix (min rt.rtrPrefixLen (8 * q.length)) q)
    (hpath : ¬ UniformOnPath rt ent q.length) :
    (VRouter.mtrieDeleteCore tbl rt ent q.length false).2 = ent := by
  induction ent generalizing q with
  | nexthop | nullBucket => rfl
  | bucket bkt info ih =>
    obtain ⟨-, -, hslots⟩ := h
    rw [UniformOnPath, not_or, biPfxLen_eq] at hpath
    have hkept : deletedSlot tbl rt bkt q.length = bkt := by
      funext i
      have hsub : (q ++ [i]).length = q.length + 1 := by simp
      rw [deletedSlot, biPfxLen_eq]
      by_cases hdeep : 8 * (q.length + 1) < rt.rtrPrefixLen
      · rw [if_pos hdeep]
        by_cases hi : i = rtToIndex rt q.length
        · rw [if_pos hi]
          have hcov' := covers_index hcov
          rw [← hi] at hcov' hpath
          have := ih i (hslots i) (by rwa [hsub]) (by rw [hsub]; exact fun h => hpath.2 ⟨hdeep, h⟩)
          rwa [hsub] at this
        · rw [if_neg hi]
      · rw [if_neg hdeep, if_neg]
        rintro ⟨hstart, hend, hplen⟩
        have hin := (delete_range_iff hcov (Nat.le_of_not_lt hdeep) i).mp ⟨hstart, hend⟩
        exact (hslots i).plen_ne_of_absent habsent hn hin hplen
    rw [mtrieDeleteCore_bucket, hkept, if_neg hpath.1]
    rfl

end

/-! ## Runs -/

section

variable {tbl : NexthopTable} {flagsKept : Prop} {family : Family} {vrf : Nat}
  {st st' : RouteTables} {R : Set IpRoute} {rt : RouteReq}
  {bridgeLookup : Nat → List Octet → Option Nat}

theorem setRoot_eq_self {root : IpBucketEntry} (h : st.vnRtable family vrf = some root) :
    st.setRoot vrf family root = st := by
  unfold RouteTables.setRoot
  congr 1
  funext f v
  by_cases hfv : f = family ∧ v = vrf
  · rw [if_pos hfv, hfv.1, hfv.2]
    exact h.symm
  · rw [if_neg hfv]

theorem TableFor.mtrieDelete_absent (h : TableFor tbl flagsKept family vrf st R)
    (hvrf : rt.rtrVrfId = vrf) (hfam : rt.rtrFamily = family)
    (habsent : ∀ r ∈ R, ¬ r.IsFor rt.rtrPrefix rt.rtrPrefixLen) (hsafe : AbsentSafe st rt) :
    (mtrieDelete ⟨tbl, bridgeLookup⟩ rt st).2 = st := by
  rcases mtrieDelete_cases ⟨tbl, bridgeLookup⟩ rt st with
    ⟨e, heq⟩ | ⟨root, nh, index, hroot, -, heq⟩
  · rw [heq]
  rw [heq]
  obtain ⟨hpath, hzero⟩ := hsafe root hroot
  cases hvrf
  cases hfam
  rw [h.vrfidToMtrie] at hroot
  have hcore : (mtrieDeleteCore tbl (resolved rt nh index) root 0 false).2 = root := by
    by_cases hn : rt.rtrPrefixLen = 0
    · cases root with
      | nexthop | nullBucket => rfl
      | bucket bkt info => exact absurd rfl (hzero hn bkt info)
    · refine (h.present root hroot).mtrieDeleteCore_absent (resolved rt nh index) habsent hn
        ((covers_zero _ _).mono (Nat.min_le_right _ _)) ?_
      rwa [List.length_nil, uniformOnPath_resolved]
  rw [hcore]
  exact setRoot_eq_self hroot

/-- The nexthop table may change as long as the nexthops of the routes stay installed. -/
theorem TableFor.nexthops (h : TableFor tbl flagsKept family vrf st R) {tbl' : NexthopTable}
    (hkept : ∀ r ∈ R, tbl'.get r.val.nh.nhId = some r.val.nh)
    (hdefault : tbl'.ip4DefaultNh = tbl.ip4DefaultNh) :
    TableFor tbl' flagsKept family vrf st R := by
  have hrep : ∀ {levels : Nat} {ent : IpBucketEntry} {q : List Octet},
      Represents tbl flagsKept levels R ent q → Represents tbl' flagsKept levels R ent q := by
    intro levels ent
    induction ent with
    | nexthop nh info =>
      rintro q ⟨⟨o, ho, hs⟩, hnone⟩
      refine ⟨⟨o, ho, ?_⟩, hnone⟩
      cases o with
      | none => exact ⟨hs.1.trans (congrArg some hdefault.symm), hs.2⟩
      | some r => exact ⟨hs.1, hkept r ho.1.1, hs.2.2⟩
    | nullBucket info => exact id
    | bucket bkt info ih => exact fun hb => ⟨hb.1, hb.2.1, fun i => ih i (hb.2.2 i)⟩
  exact ⟨h.vrf_lt, h.functional, h.absent, fun root hroot => hrep (h.present root hroot)⟩

/-- Runs on the table of `vrf` and `family` as in `RouteRun`, with deletes of absent routes among
the requests, and with changes of the nexthop table that keep the nexthops in use. Deletes of
routes that are present are `DeleteSafe`, deletes of absent routes `AbsentSafe`. -/
inductive TableRun (family : Family) (vrf : Nat) :
    NexthopTable → RouteTables → Set IpRoute → Prop where
  | start {tbl : NexthopTable} {st : RouteTables} (hvrf : vrf < st.vrVrfs)
      (hempty : st.vnRtable family vrf = none ∨
        st.vnRtable family vrf = some (mtrieAllocVrf tbl)) :
      TableRun family vrf tbl st ∅
  | nexthops {tbl tbl' : NexthopTable} {st : RouteTables} {R : Set IpRoute}
      (hrun : TableRun family vrf tbl st R)
      (hkept : ∀ r ∈ R, tbl'.get r.val.nh.nhId = some r.val.nh)
      (hdefault : tbl'.ip4DefaultNh = tbl.ip4DefaultNh) : TableRun family vrf tbl' st R
  | add {tbl : NexthopTable} {st st' : RouteTables} {R : Set IpRoute} {rt : RouteReq}
      {nh : Nexthop} {bridgeLookup : Nat → List Octet → Option Nat} {alloc : MtrieAlloc}
      (hrun : TableRun family vrf tbl st R)
      (hvrf : rt.rtrVrfId = vrf) (hfam : rt.rtrFamily = family) (hcan : Canonical rt)
      (hnh : tbl.get rt.rtrNhId = some nh)
      (hadd : mtrieAdd ⟨tbl, bridgeLookup⟩ alloc rt st = (.ok (), st')) :
      TableRun family vrf tbl st' (addRoute R (reqRoute rt nh))
  | addFail {tbl : NexthopTable} {st st' : RouteTables} {R : Set IpRoute} {rt : RouteReq}
      {e : Errno} {bridgeLookup : Nat → List Octet → Option Nat} {alloc : MtrieAlloc}
      (hrun : TableRun family vrf tbl st R)
      (hvrf : rt.rtrVrfId = vrf) (hfam : rt.rtrFamily = family) (hcan : Canonical rt)
      (hadd : mtrieAdd ⟨tbl, bridgeLookup⟩ alloc rt st = (.error e, st')) :
      TableRun family vrf tbl st' R
  | delete {tbl : NexthopTable} {st st' : RouteTables} {R : Set IpRoute} {rt : RouteReq}
      {o : Option IpRoute} {bridgeLookup : Nat → List Octet → Option Nat}
      (hrun : TableRun family vrf tbl st R)
      (hvrf : rt.rtrVrfId = vrf) (hfam : rt.rtrFamily = family) (hcan : Canonical rt)
      (hpresent : ∃ r ∈ R, r.IsFor rt.rtrPrefix rt.rtrPrefixLen)
      (hlongest : IsLongest (removeRoute R rt.rtrPrefix rt.rtrPrefixLen) rt.rtrPrefixLen
        rt.rtrPrefix o)
      (hcarries : Carries tbl rt o) (hsafe : DeleteSafe st R rt)
      (hdel : mtrieDelete ⟨tbl, bridgeLookup⟩ rt st = (.ok (), st')) :
      TableRun family vrf tbl st' (removeRoute R rt.rtrPrefix rt.rtrPrefixLen)
  | deleteAbsent {tbl : NexthopTable} {st st' : RouteTables} {R : Set IpRoute} {rt : RouteReq}
      {bridgeLookup : Nat → List Octet → Option Nat} (hrun : TableRun family vrf tbl st R)
      (hvrf : rt.rtrVrfId = vrf) (hfam : rt.rtrFamily = family)
      (habsent : ∀ r ∈ R, ¬ r.IsFor rt.rtrPrefix rt.rtrPrefixLen) (hsafe : AbsentSafe st rt)
      (hdel : mtrieDelete ⟨tbl, bridgeLookup⟩ rt st = (.ok (), st')) :
      TableRun family vrf tbl st' R
  | deleteFail {tbl : NexthopTable} {st st' : RouteTables} {R : Set IpRoute} {rt : RouteReq}
      {e : Errno} {bridgeLookup : Nat → List Octet → Option Nat}
      (hrun : TableRun family vrf tbl st R)
      (hdel : mtrieDelete ⟨tbl, bridgeLookup⟩ rt st = (.error e, st')) :
      TableRun family vrf tbl st' R
  | other {tbl : NexthopTable} {st : RouteTables} {R : Set IpRoute} {rt : RouteReq}
      {env : RouteEnv} {alloc : MtrieAlloc} (hrun : TableRun family vrf tbl st R)
      (hother : rt.rtrVrfId ≠ vrf ∨ rt.rtrFamily ≠ family) (isAdd : Bool) :
      TableRun family vrf tbl
        (if isAdd then (mtrieAdd env alloc rt st).2 else (mtrieDelete env rt st).2) R

/-- A run without absent deletes and with one nexthop table. -/
theorem RouteRun.tableRun {allowed : RouteTables → Set IpRoute → RouteReq → Prop}
    (hallowed : ∀ st R rt, allowed st R rt → DeleteSafe st R rt)
    (hrun : RouteRun tbl family vrf allowed st R) : TableRun family vrf tbl st R := by
  induction hrun with
  | start hvrf hempty => exact .start hvrf hempty
  | add _ hvrf hfam hcan hnh hadd ih => exact .add ih hvrf hfam hcan hnh hadd
  | addFail _ hvrf hfam hcan hadd ih => exact .addFail ih hvrf hfam hcan hadd
  | delete _ hvrf hfam hcan hpresent hlongest hcarries hsafe hdel ih =>
    exact .delete ih hvrf hfam hcan hpresent hlongest hcarries (hallowed _ _ _ hsafe) hdel
  | deleteFail _ hdel ih => exact .deleteFail ih hdel
  | other _ hother isAdd ih => exact .other ih hother isAdd

/-- The table represents the routes present, in every state of a run. -/
theorem TableRun.represents (hrun : TableRun family vrf tbl st R) :
    TableFor tbl False family vrf st R := by
  induction hrun with
  | @start tbl st hvrf hempty =>
    have hrun : RouteRun tbl family vrf (fun _ _ _ => False) st ∅ := .start hvrf hempty
    exact hrun.represents fun _ _ _ h => h.elim
  | nexthops _ hkept hdefault ih => exact ih.nexthops hkept hdefault
  | add _ hvrf hfam hcan hnh hadd ih => exact (ih.mtrieAdd hvrf hfam hcan hadd).1 _ rfl hnh
  | addFail _ hvrf hfam hcan hadd ih => exact (ih.mtrieAdd hvrf hfam hcan hadd).2 _ rfl
  | delete _ hvrf hfam hcan hpresent hlongest hcarries hsafe hdel ih =>
    exact ih.mtrieDelete_ok hvrf hfam hcan id hpresent hlongest hcarries hsafe hdel
  | @deleteAbsent tbl st st' R rt bridgeLookup _ hvrf hfam habsent hsafe hdel ih =>
    have hsame : (mtrieDelete ⟨tbl, bridgeLookup⟩ rt st).2 = st :=
      ih.mtrieDelete_absent hvrf hfam habsent hsafe
    rw [hdel] at hsame
    cases hsame
    exact ih
  | @deleteFail tbl st st' R rt e bridgeLookup _ hdel ih =>
    rcases mtrieDelete_cases ⟨tbl, bridgeLookup⟩ rt st with ⟨e, heq⟩ | ⟨_, _, _, _, _, heq⟩
    · rw [heq] at hdel
      cases hdel
      exact ih
    · rw [heq] at hdel
      cases hdel
  | other _ hother isAdd ih => exact ih.other hother isAdd

end

/-! ## Sample runs -/

end VRouter
