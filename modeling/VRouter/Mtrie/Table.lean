import VRouter.Basic

/-!
# VRouter — the route table of `vr_ip_mtrie.c`

A VRF's routes are kept in a tree of 256-way buckets, one level for each octet of the address
(4 levels for IPv4, 16 for IPv6). A slot of a bucket holds a nexthop or a further bucket, and
with either a recorded prefix length, label flags, a label and a bridge index. Routes are pushed
down: adding `p/n` rewrites every slot below `p/n` that no longer route owns.

The model keeps a bucket inside the slot that points to it: a bucket has one owner, so the tree
of values and the tree of pointers are the same thing. The loops of the source over the 256
slots of a bucket touch one slot each, and become functions on slots; the two loops with a moving
index (`addSlots`, `lookupScan`) are kept as loops. `vr_zalloc` is an oracle: `alloc level` says
whether the bucket wanted at `level` can be had. Reference counts are not part of this module.
-/

namespace VRouter

open LongestMatch

/-! ## Data model -/

/-- The bit-fields and the bridge index of a `struct ip_bucket_entry`. -/
structure EntryInfo where
  entryPrefixLen : Nat
  entryLabelFlags : Nat
  entryLabel : Nat
  entryBridgeIndex : Nat
  deriving DecidableEq, Repr

/-- `struct ip_bucket_entry`: the low bit of `entry_long_i` tells a nexthop pointer from a
bucket pointer. `nullBucket` is the value `0x1` that `set_entry_to_bucket` stores when the bucket
allocation failed. -/
inductive IpBucketEntry where
  | nexthop (nh : Option Nexthop) (info : EntryInfo)
  | nullBucket (info : EntryInfo)
  | bucket (bktData : Fin 256 → IpBucketEntry) (info : EntryInfo)

def IpBucketEntry.info : IpBucketEntry → EntryInfo
  | .nexthop _ info => info
  | .nullBucket info => info
  | .bucket _ info => info

/-- `VR_BE_INVALID_INDEX`. -/
def vrBeInvalidIndex : Nat := 2 ^ 32 - 1

/-- `struct vr_route_req`: the sandesh request with the nexthop it resolved to. The bytes of
`rtr_prefix` and `rtr_mac` come with their length, `rtr_prefix_size` and `rtr_mac_size`. -/
structure RouteReq where
  rtrVrfId : Nat
  rtrFamily : Family
  rtrPrefix : List Octet
  rtrPrefixLen : Nat
  rtrLabelFlags : Nat
  rtrLabel : Nat
  rtrNhId : Nat
  rtrMac : List Octet
  rtrReplacePlen : Nat
  rtrIndex : Nat
  rtrNh : Option Nexthop

/-- The root entries of `vn_rtable`, by family and VRF, with the size of the two tables. -/
structure RouteTables where
  vrVrfs : Nat
  vnRtable : Family → Nat → Option IpBucketEntry

/-- What the route table uses of its surroundings: the nexthop table, and the bridge index
`vr_bridge_lookup` finds for a MAC address in a VRF (`none` when it returns no nexthop). -/
structure RouteEnv where
  nexthops : NexthopTable
  bridgeLookup : Nat → List Octet → Option Nat

/-! ## Bucket geometry -/

/-- `IPBUCKET_LEVEL_BITS`. -/
def ipbucketLevelBits : Nat := 8

/-- `IPBUCKET_LEVEL_SIZE`. -/
def ipbucketLevelSize : Nat := 2 ^ ipbucketLevelBits

/-- `IP4_PREFIX_LEN` and `IP6_PREFIX_LEN`. -/
def ipPrefixLen : Family → Nat
  | .inet => 32
  | .inet6 => 128

/-- `ip_bkt_get_max_level`. -/
def ipBktGetMaxLevel (family : Family) : Nat := ipPrefixLen family / ipbucketLevelBits

/-- The fields of `struct mtrie_bkt_info` that the table reads. -/
structure MtrieBktInfo where
  biBits : Nat
  biPfxLen : Nat
  biSize : Nat

/-- `mtrie_ip_bkt_info_init`, as the array it fills. Both families get the same values for the
fields kept here; `bi_shift`, which differs, is never read. -/
def mtrieIpBktInfoInit : Nat → MtrieBktInfo
  | 0 => ⟨ipbucketLevelBits, ipbucketLevelBits, ipbucketLevelSize⟩
  | level + 1 =>
    ⟨ipbucketLevelBits, (mtrieIpBktInfoInit level).biPfxLen + ipbucketLevelBits,
      ipbucketLevelSize⟩

@[simp] theorem biPfxLen_eq (level : Nat) :
    (mtrieIpBktInfoInit level).biPfxLen = 8 * (level + 1) := by
  induction level with
  | zero => rfl
  | succ level ih =>
    simp only [mtrieIpBktInfoInit, ipbucketLevelBits]
    omega

@[simp] theorem biBits_eq (level : Nat) : (mtrieIpBktInfoInit level).biBits = 8 := by
  cases level <;> rfl

@[simp] theorem biSize_eq (level : Nat) : (mtrieIpBktInfoInit level).biSize = 256 := by
  cases level <;> rfl

theorem ipPrefixLen_eq (family : Family) : ipPrefixLen family = 8 * ipBktGetMaxLevel family := by
  cases family <;> rfl

/-- `rt_to_index`. -/
def rtToIndex (rt : RouteReq) (level : Nat) : Fin 256 := octet rt.rtrPrefix level

/-- `vrfid_to_mtrie`. -/
def vrfidToMtrie (st : RouteTables) (vrfId : Nat) (family : Family) : Option IpBucketEntry :=
  if st.vrVrfs ≤ vrfId then none else st.vnRtable family vrfId

/-! ## Entries -/

/-- The pointer `set_entry_to_nh` ends up storing for `nh`: `nh` itself while it is still
installed, the discard nexthop once it has been deleted or replaced. -/
def setEntryToNh (tbl : NexthopTable) : Option Nexthop → Option Nexthop
  | some nh => if tbl.get nh.nhId = some nh then some nh else tbl.get nhDiscardId
  | none => none

theorem setEntryToNh_of_get {tbl : NexthopTable} {nh : Nexthop} (h : tbl.get nh.nhId = some nh) :
    setEntryToNh tbl (some nh) = some nh := if_pos h

/-- The fields a route request puts into an entry next to its nexthop. The bit-fields of the
entry are 8, 4 and 20 bits wide. -/
def reqInfo (rt : RouteReq) (plen : Nat) : EntryInfo where
  entryPrefixLen := plen % 2 ^ 8
  entryLabelFlags := rt.rtrLabelFlags % 2 ^ 4
  entryLabel := rt.rtrLabel % 2 ^ 20
  entryBridgeIndex := rt.rtrIndex

/-- `mtrie_alloc_bucket`: every slot of the new bucket inherits the parent's route. -/
def mtrieAllocBucket (tbl : NexthopTable) (parentNh : Option Nexthop) (parent : EntryInfo) :
    Fin 256 → IpBucketEntry :=
  fun _ => .nexthop (setEntryToNh tbl parentNh) parent

/-! ## Adding a route -/

/-- `add_to_tree`. The pruning test reads the recorded length of buckets as well as of routes. -/
def addToTree (tbl : NexthopTable) (rt : RouteReq) : Nat → IpBucketEntry → IpBucketEntry
  | _, .nexthop nh info =>
    if rt.rtrPrefixLen < info.entryPrefixLen then .nexthop nh info
    else .nexthop (setEntryToNh tbl rt.rtrNh) (reqInfo rt rt.rtrPrefixLen)
  -- the source would follow the null pointer here; no table ever keeps such an entry
  | _, .nullBucket info => .nullBucket info
  | level, .bucket bkt info =>
    if rt.rtrPrefixLen < info.entryPrefixLen then .bucket bkt info
    else if ipBktGetMaxLevel rt.rtrFamily - 1 ≤ level then
      .bucket bkt { info with entryPrefixLen := rt.rtrPrefixLen % 2 ^ 8 }
    else
      .bucket (fun i => addToTree tbl rt (level + 1) (bkt i))
        { info with entryPrefixLen := rt.rtrPrefixLen % 2 ^ 8 }

/-- The loop of `__mtrie_add` over the slots a route covers: `fin` slots from `i` on, with `i`
an `unsigned char` (it wraps past slot 255, where the test `i <= bi_size - 1` stays true). -/
def addSlots (visit : IpBucketEntry → IpBucketEntry) :
    Nat → Fin 256 → (Fin 256 → IpBucketEntry) → (Fin 256 → IpBucketEntry)
  | 0, _, bkt => bkt
  | fin + 1, i, bkt =>
    addSlots visit fin (i + 1) (fun j => if j = i then visit (bkt i) else bkt j)

/-- Number of slots `__mtrie_add` and `__mtrie_delete` work on at the level where the route
ends. -/
def slotCount (level plen : Nat) : Nat :=
  let info := mtrieIpBktInfoInit level
  if info.biPfxLen - info.biBits < plen ∧ plen ≤ info.biPfxLen then
    2 ^ (info.biPfxLen - plen)
  else info.biSize

/-- The descent of `__mtrie_add`, from `level` on, with `fuel` levels left. The first bucket the
descent had to create is where a later allocation failure is undone (`mtrie_reset_entry` with
`err_ent`): that entry gets its nexthop back and keeps its other fields. -/
def mtrieAddLevels (tbl : NexthopTable) (alloc : Nat → Bool) (rt : RouteReq) :
    (fuel level : Nat) → IpBucketEntry → Except Errno Unit × IpBucketEntry
  | 0, _, ent => (.ok (), ent)
  | fuel + 1, level, ent =>
    let visitBucket (bkt : Fin 256 → IpBucketEntry) (info : EntryInfo) :
        Except Errno Unit × IpBucketEntry :=
      let index := rtToIndex rt level
      if (mtrieIpBktInfoInit level).biPfxLen < rt.rtrPrefixLen then
        let (ret, child) := mtrieAddLevels tbl alloc rt fuel (level + 1) (bkt index)
        (ret, .bucket (fun j => if j = index then child else bkt j) info)
      else
        (.ok (), .bucket (addSlots (addToTree tbl rt level) (slotCount level rt.rtrPrefixLen)
          index bkt) info)
    match ent with
    | .bucket bkt info => visitBucket bkt info
    | .nullBucket info => (.error .ENOMEM, .nullBucket info)
    | .nexthop nh info =>
      if alloc level then
        match visitBucket (mtrieAllocBucket tbl nh info) info with
        | (.ok (), ent') => (.ok (), ent')
        | (.error e, _) => (.error e, .nexthop (setEntryToNh tbl nh) info)
      else (.error .ENOMEM, .nexthop (setEntryToNh tbl nh) info)

/-- `__mtrie_add`. -/
def mtrieAddCore (tbl : NexthopTable) (alloc : Nat → Bool) (rt : RouteReq)
    (root : IpBucketEntry) : Except Errno Unit × IpBucketEntry :=
  mtrieAddLevels tbl alloc rt (ipBktGetMaxLevel rt.rtrFamily) 0 root

/-- `VR_RT_LABEL_VALID_FLAG`. -/
def vrRtLabelValidFlag : Nat := 0x1

/-- The label as `mtrie_add` and `mtrie_delete` normalise it before they touch the tree. -/
def reqLabel (rt : RouteReq) : Nat :=
  if rt.rtrLabelFlags &&& vrRtLabelValidFlag = 0 then 0xFFFFF else rt.rtrLabel &&& 0xFFFFF

/-- `VR_ETHER_ALEN`. -/
def vrEtherAlen : Nat := 6

/-- The bridge index of a request: the index of its MAC address in the bridge table when it
carries one, `VR_BE_INVALID_INDEX` otherwise, and no result when the MAC is not found. -/
def reqBridgeIndex (env : RouteEnv) (rt : RouteReq) : Option Nat :=
  if rt.rtrMac.length = vrEtherAlen ∧ ¬ (∀ b ∈ rt.rtrMac, b = 0) then
    env.bridgeLookup rt.rtrVrfId rt.rtrMac
  else some vrBeInvalidIndex

/-- Outcomes of the allocations of one `mtrie_add`: the VRF's table, and the buckets by level. -/
structure MtrieAlloc where
  vrf : Bool
  bucket : Nat → Bool

/-- All allocations succeed. -/
def MtrieAlloc.all : MtrieAlloc := ⟨true, fun _ => true⟩

/-- The root entry `mtrie_alloc_vrf` sets up. -/
def mtrieAllocVrf (tbl : NexthopTable) : IpBucketEntry :=
  .nexthop (tbl.get nhDiscardId)
    { entryPrefixLen := 0, entryLabelFlags := 0, entryLabel := 0xFFFFF,
      entryBridgeIndex := vrBeInvalidIndex }

def RouteTables.setRoot (st : RouteTables) (vrfId : Nat) (family : Family)
    (root : IpBucketEntry) : RouteTables :=
  { st with
    vnRtable := fun f v => if f = family ∧ v = vrfId then some root else st.vnRtable f v }

/-- The root entry `mtrie_add` starts from: the VRF's own, or a new one. -/
def addRoot (env : RouteEnv) (alloc : MtrieAlloc) (rt : RouteReq) (st : RouteTables) :
    Option IpBucketEntry :=
  (vrfidToMtrie st rt.rtrVrfId rt.rtrFamily).or
    (if alloc.vrf then some (mtrieAllocVrf env.nexthops) else none)

/-- The request `mtrie_add` and `mtrie_delete` work with once nexthop and bridge index are
known. -/
def resolved (rt : RouteReq) (nh : Nexthop) (index : Nat) : RouteReq :=
  { rt with rtrNh := some nh, rtrIndex := index, rtrLabel := reqLabel rt }

/-- `mtrie_add`. -/
def mtrieAdd (env : RouteEnv) (alloc : MtrieAlloc) (rt : RouteReq) (st : RouteTables) :
    Except Errno Unit × RouteTables :=
  match addRoot env alloc rt st with
  | none => (.error .ENOMEM, st)
  | some root =>
    -- from here on the VRF has a table, whatever the outcome of the request
    let st := st.setRoot rt.rtrVrfId rt.rtrFamily root
    match env.nexthops.get rt.rtrNhId with
    | none => (.error .ENOENT, st)
    | some nh =>
      if rt.rtrLabelFlags &&& vrRtLabelValidFlag = 0 ∧ nh.nhType = .tunnel then
        (.error .EINVAL, st)
      else
        match reqBridgeIndex env rt with
        | none => (.error .ENOENT, st)
        | some index =>
          let (ret, root) := mtrieAddCore env.nexthops alloc.bucket (resolved rt nh index) root
          (ret, st.setRoot rt.rtrVrfId rt.rtrFamily root)

/-! ## Deleting a route -/

/-- `memcmp` of two slots of one bucket. Two buckets hanging off different slots are different
objects, so their slots never compare equal. -/
def entrySame : IpBucketEntry → IpBucketEntry → Bool
  | .nexthop nh info, .nexthop nh' info' => nh = nh' && info = info'
  | .nullBucket info, .nullBucket info' => info = info'
  | _, _ => false

/-- The test at the end of `__mtrie_delete`: all slots compare equal to slot 0. -/
def bucketUniform (bkt : Fin 256 → IpBucketEntry) : Bool :=
  (List.finRange 256).all fun i => i = 0 || entrySame (bkt i) (bkt 0)

/-- `mtrie_delete_bkt` on an entry that holds a bucket: the entry takes the request's nexthop,
label and bridge index, and keeps its recorded prefix length. -/
def mtrieDeleteBkt (tbl : NexthopTable) (rt : RouteReq) (info : EntryInfo) : IpBucketEntry :=
  .nexthop (setEntryToNh tbl rt.rtrNh) (reqInfo rt info.entryPrefixLen)

/-- First slot `__mtrie_delete` works on at the level where the route ends: the request's own
slot, aligned down to the size of the range. -/
def deleteStart (level plen : Nat) (index : Fin 256) : Nat :=
  if (mtrieIpBktInfoInit level).biPfxLen - (mtrieIpBktInfoInit level).biBits < plen ∧
      plen ≤ (mtrieIpBktInfoInit level).biPfxLen then
    index.val - index.val % slotCount level plen
  else 0

/-- One past the last slot `__mtrie_delete` works on. -/
def deleteEnd (level plen : Nat) (index : Fin 256) : Nat :=
  min (deleteStart level plen index + slotCount level plen) (mtrieIpBktInfoInit level).biSize

/-- The fields of an entry when `__mtrie_delete` gets to it. `relabel` tells that the caller has
just given the entry the request's label and replacement length, which it does before it recurses
into a bucket the deleted route covers. -/
def relabelledInfo (rt : RouteReq) (relabel : Bool) (info : EntryInfo) : EntryInfo :=
  if relabel then
    { info with
      entryLabelFlags := rt.rtrLabelFlags % 2 ^ 4
      entryLabel := rt.rtrLabel % 2 ^ 20
      entryPrefixLen := rt.rtrReplacePlen % 2 ^ 8 }
  else info

/-- `__mtrie_delete` on an entry of `level`. -/
def mtrieDeleteCore (tbl : NexthopTable) (rt : RouteReq) :
    IpBucketEntry → (level : Nat) → (relabel : Bool) → Except Errno Unit × IpBucketEntry
  | .nexthop nh info, _, _ => (.error .ENOENT, .nexthop nh info)
  | .nullBucket info, _, _ => (.error .ENOENT, .nullBucket info)
  | .bucket bkt info, level, relabel =>
    let index := rtToIndex rt level
    let bkt' : Fin 256 → IpBucketEntry := fun i =>
      if (mtrieIpBktInfoInit level).biPfxLen < rt.rtrPrefixLen then
        if i = index then (mtrieDeleteCore tbl rt (bkt i) (level + 1) false).2 else bkt i
      else if deleteStart level rt.rtrPrefixLen index ≤ i.val ∧
          i.val < deleteEnd level rt.rtrPrefixLen index ∧
          (bkt i).info.entryPrefixLen = rt.rtrPrefixLen then
        match bkt i with
        | .nexthop _ _ => .nexthop (setEntryToNh tbl rt.rtrNh) (reqInfo rt rt.rtrReplacePlen)
        | _ => (mtrieDeleteCore tbl rt (bkt i) (level + 1) true).2
      else bkt i
    (.ok (),
      if bucketUniform bkt' then mtrieDeleteBkt tbl rt (relabelledInfo rt relabel info)
      else .bucket bkt' (relabelledInfo rt relabel info))

/-- `mtrie_delete`. The result of `__mtrie_delete` is ignored. -/
def mtrieDelete (env : RouteEnv) (rt : RouteReq) (st : RouteTables) :
    Except Errno Unit × RouteTables :=
  match vrfidToMtrie st rt.rtrVrfId rt.rtrFamily with
  | none => (.error .ENOENT, st)
  | some root =>
    match env.nexthops.get rt.rtrNhId with
    | none => (.error .ENOENT, st)
    | some nh =>
      match reqBridgeIndex env rt with
      | none => (.error .ENOENT, st)
      | some index =>
        (.ok (), st.setRoot rt.rtrVrfId rt.rtrFamily
          (mtrieDeleteCore env.nexthops (resolved rt nh index) root 0 false).2)

/-! ## Looking a route up -/

/-- The request after a hit on a slot. -/
def lookupHit (rt : RouteReq) (nh : Option Nexthop) (info : EntryInfo) : RouteReq :=
  { rt with
    rtrLabelFlags := info.entryLabelFlags
    rtrLabel := info.entryLabel
    rtrPrefixLen := info.entryPrefixLen
    rtrIndex := info.entryBridgeIndex
    rtrNh := nh }

/-- The scan of `__mtrie_lookup` over the 256 slots of a bucket, starting at `index` and
wrapping. `search` is the recursive call. The variable that holds the bucket is also the one the
bucket of a slot is read into: once `search` has found nothing there, the scan goes on with the
slots of that inner bucket and does not come back to the bucket it started in. -/
def lookupScan
    (search : (Fin 256 → IpBucketEntry) → RouteReq → Option Nexthop × RouteReq)
    (index : Fin 256) (limit : Nat) :
    (left i : Nat) → (Fin 256 → IpBucketEntry) → RouteReq → Option Nexthop × RouteReq
  | 0, _, _, rt => (none, rt)
  | left + 1, i, bkt, rt =>
    match bkt (index + Fin.ofNat 256 i) with
    | .nexthop nh info =>
      if limit ≤ i ∧ rt.rtrPrefixLen ≤ info.entryPrefixLen then
        lookupScan search index limit left (i + 1) bkt rt
      else if rt.rtrPrefixLen < info.entryPrefixLen then
        lookupScan search index limit left (i + 1) bkt rt
      else (nh, lookupHit rt nh info)
    -- the source would go on with the null pointer; no table ever keeps such an entry
    | .nullBucket _ => (none, rt)
    | .bucket inner _ =>
      match search inner rt with
      | (some nh, rt) => (some nh, rt)
      | (none, rt) => lookupScan search index limit left (i + 1) inner rt

/-- Number of slots of `level` a query of length `plen` covers. The shift of the source is
undefined from 32 on. -/
def lookupLimit (level plen : Nat) : Nat :=
  if (mtrieIpBktInfoInit level).biPfxLen < plen then (mtrieIpBktInfoInit level).biSize
  else 2 ^ ((mtrieIpBktInfoInit level).biPfxLen - plen)

/-- `__mtrie_lookup` on a bucket of `level`, with `levels` levels left. -/
def mtrieLookupLevels : (levels : Nat) → RouteReq → (Fin 256 → IpBucketEntry) → (level : Nat) →
    Option Nexthop × RouteReq
  | 0, rt, _, _ => (none, rt)
  | levels + 1, rt, bkt, level =>
    lookupScan (fun inner rt => mtrieLookupLevels levels rt inner (level + 1))
      (rtToIndex rt level) (lookupLimit level rt.rtrPrefixLen)
      (mtrieIpBktInfoInit level).biSize 0 bkt rt

/-- `__mtrie_lookup`: a level past the last one of the family has no buckets. -/
def mtrieLookupCore (rt : RouteReq) (bkt : Fin 256 → IpBucketEntry) (level : Nat) :
    Option Nexthop × RouteReq :=
  mtrieLookupLevels (ipBktGetMaxLevel rt.rtrFamily - level) rt bkt level

/-- `mtrie_lookup`: the nexthop, and the request as the caller gets it back. -/
def mtrieLookup (env : RouteEnv) (st : RouteTables) (vrfId : Nat) (rt : RouteReq) :
    Nexthop × RouteReq :=
  let defaultNh := env.nexthops.ip4DefaultNh
  let ret (nh : Option Nexthop) (rt : RouteReq) : Nexthop × RouteReq :=
    (nh.getD defaultNh, { rt with rtrNh := some (nh.getD defaultNh) })
  match vrfidToMtrie st vrfId rt.rtrFamily with
  | none => ret none rt
  | some (.nexthop none _) => ret none rt
  | some (.nexthop (some nh) info) => ret (some nh) (lookupHit rt (some nh) info)
  | some (.nullBucket _) => ret none rt
  | some (.bucket bkt _) =>
    let (nh, rt) := mtrieLookupCore rt bkt 0
    ret nh rt

end VRouter
