import VRouter.Mtrie.Delete

/-!
# VRouter — runs of adds and deletes

The route table of one VRF and family, followed over any sequence of `mtrie_add` and
`mtrie_delete` requests (`RouteRun`), together with the set of routes the requests amount to.
`mtrieAdd_cases` and `mtrieDelete_cases` say once what a request can do to the tables; from them
each request keeps the invariant `TableFor`, and `RouteRun.represents` carries it over the run.

The add requests need no condition. A delete has to be `DeleteSafe`; `mtrieDelete_root_nexthop`
is one thing that goes wrong otherwise.
-/

namespace VRouter

open LongestMatch

/-! ## Requests on the tables -/

@[simp] theorem setRoot_self (st : RouteTables) (vrf : Nat) (family : Family)
    (root : IpBucketEntry) : (st.setRoot vrf family root).vnRtable family vrf = some root := by
  simp [RouteTables.setRoot]

variable {family' : Family} {vrf' : Nat}

theorem setRoot_other (st : RouteTables) {vrf : Nat} {family : Family}
    (root : IpBucketEntry) (h : vrf' ≠ vrf ∨ family' ≠ family) :
    (st.setRoot vrf' family' root).vnRtable family vrf = st.vnRtable family vrf := by
  simp only [RouteTables.setRoot]
  rw [if_neg]
  rintro ⟨rfl, rfl⟩
  exact h.elim (· rfl) (· rfl)

/-- What a call of `mtrie_add` can do: fail before there is a table, fail with a table but before
the tree is touched, or add the resolved request to the tree. -/
theorem mtrieAdd_cases (env : RouteEnv) (alloc : MtrieAlloc) (rt : RouteReq) (st : RouteTables) :
    (addRoot env alloc rt st = none ∧ mtrieAdd env alloc rt st = (.error .ENOMEM, st)) ∨
      ∃ root, addRoot env alloc rt st = some root ∧
        ((∃ e, mtrieAdd env alloc rt st =
            (.error e, st.setRoot rt.rtrVrfId rt.rtrFamily root)) ∨
          ∃ nh index, env.nexthops.get rt.rtrNhId = some nh ∧
            mtrieAdd env alloc rt st =
              ((mtrieAddCore env.nexthops alloc.bucket (resolved rt nh index) root).1,
                (st.setRoot rt.rtrVrfId rt.rtrFamily root).setRoot rt.rtrVrfId rt.rtrFamily
                  (mtrieAddCore env.nexthops alloc.bucket (resolved rt nh index) root).2)) := by
  unfold mtrieAdd
  cases hroot : addRoot env alloc rt st with
  | none => exact Or.inl ⟨rfl, rfl⟩
  | some root =>
    refine Or.inr ⟨root, rfl, ?_⟩
    cases hnh : env.nexthops.get rt.rtrNhId with
    | none => exact Or.inl ⟨.ENOENT, rfl⟩
    | some nh =>
      simp only
      by_cases htun : rt.rtrLabelFlags &&& vrRtLabelValidFlag = 0 ∧ nh.nhType = .tunnel
      · exact Or.inl ⟨.EINVAL, by rw [if_pos htun]⟩
      · rw [if_neg htun]
        cases hidx : reqBridgeIndex env rt with
        | none => exact Or.inl ⟨.ENOENT, rfl⟩
        | some index => exact Or.inr ⟨nh, index, rfl, rfl⟩

theorem mtrieDelete_cases (env : RouteEnv) (rt : RouteReq) (st : RouteTables) :
    (∃ e, mtrieDelete env rt st = (.error e, st)) ∨
      ∃ root nh index, vrfidToMtrie st rt.rtrVrfId rt.rtrFamily = some root ∧
        env.nexthops.get rt.rtrNhId = some nh ∧
        mtrieDelete env rt st = (.ok (), st.setRoot rt.rtrVrfId rt.rtrFamily
          (mtrieDeleteCore env.nexthops (resolved rt nh index) root 0 false).2) := by
  unfold mtrieDelete
  cases hroot : vrfidToMtrie st rt.rtrVrfId rt.rtrFamily with
  | none => exact Or.inl ⟨.ENOENT, rfl⟩
  | some root =>
    cases hnh : env.nexthops.get rt.rtrNhId with
    | none => exact Or.inl ⟨.ENOENT, rfl⟩
    | some nh =>
      cases hidx : reqBridgeIndex env rt with
      | none => exact Or.inl ⟨.ENOENT, rfl⟩
      | some index => exact Or.inr ⟨root, nh, index, rfl, rfl, rfl⟩

/-! ## Runs -/

/-- The prefix of a request is canonical: no longer than an address, host bits zero. -/
structure Canonical (rt : RouteReq) : Prop where
  len_le : rt.rtrPrefixLen ≤ ipPrefixLen rt.rtrFamily
  hostBitsZero : HostBitsZero rt.rtrPrefix rt.rtrPrefixLen

/-- The route an add request amounts to: its prefix, with the nexthop it names, the label
`mtrie_add` makes of it, and the four bits of its label flags that an entry has room for. -/
def reqRoute (rt : RouteReq) (nh : Nexthop) : IpRoute where
  octets := rt.rtrPrefix
  len := rt.rtrPrefixLen
  val := { nh := nh, label := reqLabel rt, labelFlags := rt.rtrLabelFlags % 2 ^ 4 }

/-- A delete request carries nexthop, label and length of `o`, or the discard nexthop with length
zero. -/
def Carries (tbl : NexthopTable) (rt : RouteReq) : Option IpRoute → Prop
  | some r => tbl.get rt.rtrNhId = some r.val.nh ∧ reqLabel rt = r.val.label ∧
      rt.rtrReplacePlen = r.len
  | none => rt.rtrNhId = nhDiscardId ∧ rt.rtrReplacePlen = 0

/-- Runs of requests on the table of `vrf` and `family`, from a VRF without a table or with an
empty one, with the routes present at their end. Requests may fail, allocations may fail, the
bridge table may change from one request to the next, and the other tables are used at the same
time. Every delete names a route that is present, carries the longest remaining route that
contains it, and meets `allowed`. -/
inductive RouteRun (tbl : NexthopTable) (family : Family) (vrf : Nat)
    (allowed : RouteTables → Set IpRoute → RouteReq → Prop) :
    RouteTables → Set IpRoute → Prop where
  | start {st : RouteTables} (hvrf : vrf < st.vrVrfs)
      (hempty : st.vnRtable family vrf = none ∨
        st.vnRtable family vrf = some (mtrieAllocVrf tbl)) :
      RouteRun tbl family vrf allowed st ∅
  | add {st st' : RouteTables} {R : Set IpRoute} {rt : RouteReq} {nh : Nexthop}
      {bridgeLookup : Nat → List Octet → Option Nat} {alloc : MtrieAlloc}
      (hrun : RouteRun tbl family vrf allowed st R)
      (hvrf : rt.rtrVrfId = vrf) (hfam : rt.rtrFamily = family) (hcan : Canonical rt)
      (hnh : tbl.get rt.rtrNhId = some nh)
      (hadd : mtrieAdd ⟨tbl, bridgeLookup⟩ alloc rt st = (.ok (), st')) :
      RouteRun tbl family vrf allowed st' (addRoute R (reqRoute rt nh))
  | addFail {st st' : RouteTables} {R : Set IpRoute} {rt : RouteReq} {e : Errno}
      {bridgeLookup : Nat → List Octet → Option Nat} {alloc : MtrieAlloc}
      (hrun : RouteRun tbl family vrf allowed st R)
      (hvrf : rt.rtrVrfId = vrf) (hfam : rt.rtrFamily = family) (hcan : Canonical rt)
      (hadd : mtrieAdd ⟨tbl, bridgeLookup⟩ alloc rt st = (.error e, st')) :
      RouteRun tbl family vrf allowed st' R
  | delete {st st' : RouteTables} {R : Set IpRoute} {rt : RouteReq} {o : Option IpRoute}
      {bridgeLookup : Nat → List Octet → Option Nat}
      (hrun : RouteRun tbl family vrf allowed st R)
      (hvrf : rt.rtrVrfId = vrf) (hfam : rt.rtrFamily = family) (hcan : Canonical rt)
      (hpresent : ∃ r ∈ R, r.IsFor rt.rtrPrefix rt.rtrPrefixLen)
      (hlongest : IsLongest (removeRoute R rt.rtrPrefix rt.rtrPrefixLen) rt.rtrPrefixLen
        rt.rtrPrefix o)
      (hcarries : Carries tbl rt o) (hallowed : allowed st R rt)
      (hdel : mtrieDelete ⟨tbl, bridgeLookup⟩ rt st = (.ok (), st')) :
      RouteRun tbl family vrf allowed st' (removeRoute R rt.rtrPrefix rt.rtrPrefixLen)
  | deleteFail {st st' : RouteTables} {R : Set IpRoute} {rt : RouteReq} {e : Errno}
      {bridgeLookup : Nat → List Octet → Option Nat}
      (hrun : RouteRun tbl family vrf allowed st R)
      (hdel : mtrieDelete ⟨tbl, bridgeLookup⟩ rt st = (.error e, st')) :
      RouteRun tbl family vrf allowed st' R
  | other {st : RouteTables} {R : Set IpRoute} {rt : RouteReq} {env : RouteEnv}
      {alloc : MtrieAlloc} (hrun : RouteRun tbl family vrf allowed st R)
      (hother : rt.rtrVrfId ≠ vrf ∨ rt.rtrFamily ≠ family) (isAdd : Bool) :
      RouteRun tbl family vrf allowed
        (if isAdd then (mtrieAdd env alloc rt st).2 else (mtrieDelete env rt st).2) R

/-- When a delete of `rt` from a table that represents `R` is handled correctly: no bucket it
works on is left with 256 equal routes more specific than itself, and a delete of the default
route finds a bucket at the root. -/
def DeleteSafe (st : RouteTables) (R : Set IpRoute) (rt : RouteReq) : Prop :=
  CollapseSafe (ipBktGetMaxLevel rt.rtrFamily) R rt.rtrPrefix rt.rtrPrefixLen ∧
    (rt.rtrPrefixLen = 0 →
      ∃ bkt info, vrfidToMtrie st rt.rtrVrfId rt.rtrFamily = some (.bucket bkt info))

/-! ## The invariant of a run -/

/-- The table of `vrf` and `family` represents `R`; a VRF without a table has no routes. -/
structure TableFor (tbl : NexthopTable) (flagsKept : Prop) (family : Family) (vrf : Nat)
    (st : RouteTables) (R : Set IpRoute) : Prop where
  vrf_lt : vrf < st.vrVrfs
  functional : Functional R
  absent : st.vnRtable family vrf = none → R = ∅
  present : ∀ root, st.vnRtable family vrf = some root →
    Represents tbl flagsKept (ipBktGetMaxLevel family) R root []

section

variable {tbl : NexthopTable} {flagsKept : Prop} {family : Family} {vrf : Nat}
  {st st' : RouteTables} {R : Set IpRoute} {rt : RouteReq} {nh : Nexthop}
  {bridgeLookup : Nat → List Octet → Option Nat} {alloc : MtrieAlloc}

variable {root : IpBucketEntry} {o : Option IpRoute}

theorem reqLabel_lt (rt : RouteReq) : reqLabel rt < 2 ^ 20 := by
  unfold reqLabel
  split
  · decide
  · exact lt_of_le_of_lt Nat.and_le_right (by decide)

theorem requestFor_resolved (hcan : Canonical rt) (hnh : tbl.get rt.rtrNhId = some nh)
    (index : Nat) : RequestFor tbl flagsKept (resolved rt nh index) (reqRoute rt nh) where
  octets := rfl
  len := rfl
  len_le := hcan.len_le
  hostBitsZero := hcan.hostBitsZero
  shows := by
    have hget := tbl.get_nhId hnh
    exact ⟨setEntryToNh_of_get hget, hget, plen_mod hcan.len_le,
      Nat.mod_eq_of_lt (reqLabel_lt rt), fun _ => rfl⟩

/-- A route with a proper prefix forces a bucket at the root. -/
theorem Represents.root_bucket {levels : Nat} (hrep : Represents tbl flagsKept levels R root [])
    {r : IpRoute} (hr : r ∈ R) (hlen : 0 < r.len) : ∃ bkt info, root = .bucket bkt info := by
  cases root with
  | nexthop nh info => exact absurd (covers_zero _ _) (hrep.2 r hr hlen)
  | nullBucket info => exact hrep.elim
  | bucket bkt info => exact ⟨bkt, info, rfl⟩

theorem represents_mtrieAllocVrf (levels : Nat) :
    Represents tbl flagsKept levels ∅ (mtrieAllocVrf tbl) [] :=
  ⟨⟨none, fun _ hr => hr.elim, tbl.get_discard, rfl⟩, fun _ hr => hr.elim⟩

section

variable (h : TableFor tbl flagsKept family vrf st R)
include h

theorem TableFor.vrfidToMtrie : vrfidToMtrie st vrf family = st.vnRtable family vrf :=
  if_neg (Nat.not_le_of_lt h.vrf_lt)

theorem TableFor.setRoot {R' : Set IpRoute}
    (hfun : Functional R') (hrep : Represents tbl flagsKept (ipBktGetMaxLevel family) R' root []) :
    TableFor tbl flagsKept family vrf (st.setRoot vrf family root) R' where
  vrf_lt := h.vrf_lt
  functional := hfun
  absent := fun hnone => by rw [setRoot_self] at hnone; cases hnone
  present := fun root' hroot => by
    rw [setRoot_self] at hroot
    cases hroot
    exact hrep

theorem TableFor.setRoot_other (hother : vrf' ≠ vrf ∨ family' ≠ family) (root : IpBucketEntry) :
    TableFor tbl flagsKept family vrf (st.setRoot vrf' family' root) R where
  vrf_lt := h.vrf_lt
  functional := h.functional
  absent := fun hnone => h.absent (VRouter.setRoot_other st root hother ▸ hnone)
  present := fun root' hroot => h.present root' (VRouter.setRoot_other st root hother ▸ hroot)

theorem TableFor.addRoot (hvrf : rt.rtrVrfId = vrf)
    (hfam : rt.rtrFamily = family) (hroot : addRoot ⟨tbl, bridgeLookup⟩ alloc rt st = some root) :
    Represents tbl flagsKept (ipBktGetMaxLevel family) R root [] := by
  rw [VRouter.addRoot, hvrf, hfam, h.vrfidToMtrie] at hroot
  cases hst : st.vnRtable family vrf with
  | none =>
    rw [hst] at hroot
    cases hv : alloc.vrf <;> rw [hv] at hroot <;> cases hroot
    rw [h.absent hst]
    exact represents_mtrieAllocVrf _
  | some root' =>
    rw [hst] at hroot
    cases hroot
    exact h.present root hst

/-! ## One request keeps the invariant -/

theorem TableFor.other {env : RouteEnv} (hother : rt.rtrVrfId ≠ vrf ∨ rt.rtrFamily ≠ family)
    (isAdd : Bool) :
    TableFor tbl flagsKept family vrf
      (if isAdd then (mtrieAdd env alloc rt st).2 else (mtrieDelete env rt st).2) R := by
  cases isAdd with
  | true =>
    rcases mtrieAdd_cases env alloc rt st with ⟨-, heq⟩ | ⟨root, -, ⟨e, heq⟩ | ⟨nh, i, -, heq⟩⟩ <;>
      rw [heq]
    · exact h
    · exact h.setRoot_other hother root
    · exact (h.setRoot_other hother root).setRoot_other hother _
  | false =>
    rcases mtrieDelete_cases env rt st with ⟨e, heq⟩ | ⟨root, nh, i, -, -, heq⟩ <;> rw [heq]
    · exact h
    · exact h.setRoot_other hother _

variable (hvrf : rt.rtrVrfId = vrf) (hfam : rt.rtrFamily = family) (hcan : Canonical rt)
include hvrf hfam hcan

/-- An add that succeeds adds its route, and one that fails leaves the routes as they are. -/
theorem TableFor.mtrieAdd {ret : Except Errno Unit}
    (hadd : mtrieAdd ⟨tbl, bridgeLookup⟩ alloc rt st = (ret, st')) :
    (∀ nh, ret = .ok () → tbl.get rt.rtrNhId = some nh →
      TableFor tbl flagsKept family vrf st' (addRoute R (reqRoute rt nh))) ∧
    ∀ e, ret = .error e → TableFor tbl flagsKept family vrf st' R := by
  rcases mtrieAdd_cases ⟨tbl, bridgeLookup⟩ alloc rt st with ⟨-, heq⟩ | ⟨root, hroot, hcases⟩
  · cases heq.symm.trans hadd
    exact ⟨nofun, fun _ _ => h⟩
  have hrep := h.addRoot hvrf hfam hroot
  cases hvrf
  cases hfam
  have hroots := h.setRoot h.functional hrep
  rcases hcases with ⟨e, heq⟩ | ⟨nh, index, hnh, heq⟩
  · cases heq.symm.trans hadd
    exact ⟨nofun, fun _ _ => hroots⟩
  cases heq.symm.trans hadd
  rcases Represents.mtrieAddCore alloc.bucket (requestFor_resolved hcan hnh index) hrep with
    ⟨hok, hrep'⟩ | ⟨hfail, -, hrep'⟩
  · rw [hok]
    refine ⟨fun nh' _ hnh' => ?_, nofun⟩
    cases Option.some.inj (hnh.symm.trans hnh')
    exact hroots.setRoot (h.functional.add _) hrep'
  · rw [hfail]
    exact ⟨nofun, fun _ _ => hroots.setRoot h.functional hrep'⟩

variable (hflags : ¬ flagsKept) (hpresent : ∃ r ∈ R, r.IsFor rt.rtrPrefix rt.rtrPrefixLen)
  (hlongest : IsLongest (removeRoute R rt.rtrPrefix rt.rtrPrefixLen) rt.rtrPrefixLen
    rt.rtrPrefix o) (hcarries : Carries tbl rt o)
include hflags hpresent hlongest hcarries

omit h hvrf hfam in
theorem deleteFor_resolved (hnh : tbl.get rt.rtrNhId = some nh) (index : Nat) :
    DeleteFor tbl flagsKept R (resolved rt nh index) o where
  present := hpresent
  longest := hlongest
  shows := by
    have hget := tbl.get_nhId hnh
    have hset : setEntryToNh tbl (resolved rt nh index).rtrNh = some nh := setEntryToNh_of_get hget
    have hle : matchLen o ≤ ipPrefixLen rt.rtrFamily := le_trans hlongest.matchLen_le hcan.len_le
    cases o with
    | none =>
      refine ⟨hset.trans (hnh.symm.trans ?_), ?_⟩
      · rw [hcarries.1]
        exact tbl.get_discard
      · simp [reqInfo, resolved, hcarries.2]
    | some r =>
      obtain ⟨hrnh, hlabel, hlen⟩ := hcarries
      cases Option.some.inj (hnh.symm.trans hrnh)
      refine ⟨hset, hget, ?_, ?_, fun hf => absurd hf hflags⟩
      · change rt.rtrReplacePlen % 2 ^ 8 = r.len
        rw [hlen]
        exact plen_mod hle
      · change reqLabel rt % 2 ^ 20 = r.val.label
        rw [Nat.mod_eq_of_lt (reqLabel_lt rt), hlabel]

theorem TableFor.mtrieDelete_ok (hsafe : DeleteSafe st R rt)
    (hdel : mtrieDelete ⟨tbl, bridgeLookup⟩ rt st = (.ok (), st')) :
    TableFor tbl flagsKept family vrf st' (removeRoute R rt.rtrPrefix rt.rtrPrefixLen) := by
  rcases mtrieDelete_cases ⟨tbl, bridgeLookup⟩ rt st with
    ⟨e, heq⟩ | ⟨root, nh, index, hroot, hnh, heq⟩
  · rw [heq] at hdel; cases hdel
  rw [heq] at hdel
  cases hvrf
  cases hfam
  cases hdel
  have hrep := h.present root (h.vrfidToMtrie ▸ hroot)
  have hbkt : ∃ bkt info, root = .bucket bkt info := by
    rcases Nat.eq_zero_or_pos rt.rtrPrefixLen with h0 | hpos
    · obtain ⟨bkt, info, hb⟩ := hsafe.2 h0
      exact ⟨bkt, info, Option.some.inj (hroot.symm.trans hb)⟩
    · obtain ⟨r, hr, hfor⟩ := hpresent
      exact hrep.root_bucket hr (hfor.1 ▸ hpos)
  obtain ⟨bkt, info, rfl⟩ := hbkt
  have hdel := deleteFor_resolved hcan hflags hpresent hlongest hcarries hnh index
  -- the walk starts at the root, which every prefix leads through
  have hvisits : DeleteVisits R rt.rtrPrefix rt.rtrPrefixLen [] :=
    ⟨(covers_zero _ _).mono (Nat.min_le_right _ _), fun r _ hr _ => le_trans hr (Nat.zero_le _)⟩
  have hcore := hrep.mtrieDeleteCore hdel hsafe.1 hvisits (Or.inr ⟨rfl, rfl⟩)
  exact h.setRoot (h.functional.remove _ _) hcore

end

/-- The table represents the routes present, in every state of a run whose deletes are all
`DeleteSafe`. Label flags are kept as well when there are no deletes: a delete request brings its
own. -/
theorem RouteRun.represents {allowed : RouteTables → Set IpRoute → RouteReq → Prop}
    (hsafe : ∀ st R rt, allowed st R rt → DeleteSafe st R rt ∧ ¬ flagsKept)
    (hrun : RouteRun tbl family vrf allowed st R) : TableFor tbl flagsKept family vrf st R := by
  induction hrun with
  | start hvrf hempty =>
    refine ⟨hvrf, Functional.empty, fun _ => rfl, fun root hroot => ?_⟩
    rcases hempty with hnone | hsome
    · rw [hnone] at hroot; cases hroot
    · rw [hsome] at hroot
      cases hroot
      exact represents_mtrieAllocVrf _
  | add _ hvrf hfam hcan hnh hadd ih => exact (ih.mtrieAdd hvrf hfam hcan hadd).1 _ rfl hnh
  | addFail _ hvrf hfam hcan hadd ih => exact (ih.mtrieAdd hvrf hfam hcan hadd).2 _ rfl
  | delete _ hvrf hfam hcan hpresent hlongest hcarries hallowed hdel ih =>
    obtain ⟨hds, hflags⟩ := hsafe _ _ _ hallowed
    exact ih.mtrieDelete_ok hvrf hfam hcan hflags hpresent hlongest hcarries hds hdel
  | @deleteFail _ _ _ rt _ bridgeLookup _ hdel ih =>
    rcases mtrieDelete_cases ⟨tbl, bridgeLookup⟩ rt _ with ⟨e, heq⟩ | ⟨_, _, _, _, _, heq⟩
    · rw [heq] at hdel
      cases hdel
      exact ih
    · rw [heq] at hdel; cases hdel
  | other _ hother isAdd ih => exact ih.other hother isAdd

end

end VRouter
