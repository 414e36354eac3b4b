import VRouter.Mtrie.References
import VRouter.Mtrie.InetRoute
import VRouter.Mtrie.Run
import VRouter.Itable.Refine

/-!
# VRouter — the tables that hold nexthops

Route tables, the bridge table, MPLS labels, VXLAN ids and mirrors keep pointers to nexthops, each
with a reference. A request takes a reference to the nexthop it names, looks at what else it needs,
and then passes the reference on to the table or gives it back. For each request, `RefEffect` has
what it returns, the table it leaves, and what it does to the counts, in order; the `_moves` lemma
says that it holds the references of the table before and after, also where it fails.

Two requests fail without giving their reference back. `mtrie_add` and `mtrie_delete` do so if the
MAC address of the request is not in the bridge table, and `vr_vxlan_add` if the index table has no
memory. The lemmas of these requests exclude it.

The type of a nexthop that `mtrie_add` and `bridge_table_add` look at is the one it was created
with. Host callbacks (`hos_add_mpls`, `hos_del_mpls`) are left out.
-/

namespace VRouter

open LongestMatch RefCount Function

/-- What a request does to a table: its result, the table, and what it does to the counts. -/
structure RefEffect (T : Type) where
  ret : Except Errno Unit
  tab : T
  ops : List (RefOp Nexthop)

/-- A request that is refused before it does anything. -/
def RefEffect.fail {T : Type} (e : Errno) (tab : T) : RefEffect T := ⟨.error e, tab, []⟩

/-- What a request does to the counts takes the references of the table to those it leaves. -/
def RefEffect.MovesFrom {T : Type} (e : RefEffect T) (refs : T → Multiset Nexthop) (t : T) : Prop :=
  Moves e.ops (refs t) (refs e.tab)

/-! ## Routes -/

/-- The route tables, with the buckets that wait to be freed. -/
structure RouteStore where
  tables : RouteTables
  pending : List IpBucketEntry

/-- The references of a VRF's tree. -/
def rootRefs : Option IpBucketEntry → Multiset Nexthop
  | none => 0
  | some root => slotRefs root

def tablesRefs (st : RouteTables) : Multiset Nexthop :=
  ∑ v ∈ Finset.range st.vrVrfs,
    (rootRefs (st.vnRtable .inet v) + rootRefs (st.vnRtable .inet6 v))

def RouteStore.refs (r : RouteStore) : Multiset Nexthop :=
  tablesRefs r.tables + pendingRefs r.pending

/-- What `mtrie_alloc_vrf` does, where it is called. -/
def allocVrfOps (env : RouteEnv) (rt : RouteReq) (st : RouteTables) : List (RefOp Nexthop) :=
  match vrfidToMtrie st rt.rtrVrfId rt.rtrFamily with
  | some _ => []
  | none => getOf (env.nexthops.get nhDiscardId)

/-- `mtrie_add`. -/
def mtrieAddRefs (env : RouteEnv) (alloc : MtrieAlloc) (rt : RouteReq) (r : RouteStore) :
    RefEffect RouteStore :=
  match addRoot env alloc rt r.tables with
  | none => .fail .ENOMEM r
  | some root =>
    let allocOps := allocVrfOps env rt r.tables
    let r := { r with tables := r.tables.setRoot rt.rtrVrfId rt.rtrFamily root }
    match env.nexthops.get rt.rtrNhId with
    | none => ⟨.error .ENOENT, r, allocOps⟩
    | some nh =>
      if rt.rtrLabelFlags &&& vrRtLabelValidFlag = 0 ∧ nh.nhType = .tunnel then
        ⟨.error .EINVAL, r, allocOps ++ [.get nh, .put nh]⟩
      else
        match reqBridgeIndex env rt with
        -- returns without `vrouter_put_nexthop`
        | none => ⟨.error .ENOENT, r, allocOps ++ [.get nh]⟩
        | some index =>
          let e := mtrieAddEffect env.nexthops alloc.bucket (resolved rt nh index)
            (ipBktGetMaxLevel rt.rtrFamily) 0 root
          ⟨e.ret, ⟨r.tables.setRoot rt.rtrVrfId rt.rtrFamily e.ent, r.pending ++ e.detached⟩,
            allocOps ++ ([.get nh] ++ e.ops ++ [.put nh])⟩

/-- `mtrie_delete`. -/
def mtrieDeleteRefs (env : RouteEnv) (rt : RouteReq) (r : RouteStore) : RefEffect RouteStore :=
  match vrfidToMtrie r.tables rt.rtrVrfId rt.rtrFamily with
  | none => .fail .ENOENT r
  | some root =>
    match env.nexthops.get rt.rtrNhId with
    | none => .fail .ENOENT r
    | some nh =>
      match reqBridgeIndex env rt with
      -- returns without `vrouter_put_nexthop`
      | none => ⟨.error .ENOENT, r, [.get nh]⟩
      | some index =>
        let e := mtrieDeleteEffect env.nexthops (resolved rt nh index) root 0 false
        ⟨.ok (), ⟨r.tables.setRoot rt.rtrVrfId rt.rtrFamily e.ent, r.pending ++ e.detached⟩,
          [.get nh] ++ e.ops ++ [.put nh]⟩

/-- `inet_route_add`. -/
def inetRouteAddRefs (shifted : Nat) (env : RouteEnv) (alloc : MtrieAlloc) (rt : RouteReq)
    (r : RouteStore) : RefEffect RouteStore :=
  if rt.rtrPrefix.length = 0 then .fail .EINVAL r
  else if r.tables.vrVrfs ≤ rt.rtrVrfId ∨ rtIpAddrSize rt.rtrFamily * 8 < rt.rtrPrefixLen then
    .fail .EINVAL r
  else mtrieAddRefs env alloc { rt with rtrPrefix := inetMaskPrefix shifted rt } r

/-- `inet_route_del`. -/
def inetRouteDelRefs (env : RouteEnv) (rt : RouteReq) (r : RouteStore) : RefEffect RouteStore :=
  if rtIpAddrSize rt.rtrFamily * 8 < rt.rtrPrefixLen ∨ r.tables.vrVrfs ≤ rt.rtrVrfId then
    .fail .EINVAL r
  else mtrieDeleteRefs env rt r

/-- `mtrie_free_bkt_cb`, for the bucket that has waited longest. -/
def mtrieFreeBktCb (r : RouteStore) : RefEffect RouteStore :=
  match r.pending with
  | [] => ⟨.ok (), r, []⟩
  | bkt :: pending => ⟨.ok (), { r with pending := pending }, mtrieFreeEntry bkt⟩

/-! ### The requests are those of the route table's model -/

variable {ops : List (RefOp Nexthop)} {t : VrItbl Nexthop} {m : Nat → Option Nexthop}
    {alloc : Nat → Bool} {nh : Option Nexthop} {label vnid : Nat}

section

variable {env : RouteEnv} {alloc : MtrieAlloc} {rt : RouteReq} {r : RouteStore}

/-! ### What the requests hold -/

variable {root : IpBucketEntry} {family : Family} {st : RouteTables} {v : Nat}

theorem moves_setRoot {C : Multiset Nexthop} (hv : v < st.vrVrfs)
    (h : Moves ops (rootRefs (st.vnRtable family v)) (slotRefs root + C)) :
    Moves ops (tablesRefs st) (tablesRefs (st.setRoot v family root) + C) := by
  have hothers : ∀ w, w ≠ v → rootRefs (st.vnRtable .inet w) + rootRefs (st.vnRtable .inet6 w) =
      rootRefs ((st.setRoot v family root).vnRtable .inet w) +
        rootRefs ((st.setRoot v family root).vnRtable .inet6 w) := by
    intro w hw
    rw [setRoot_other st root (.inl (Ne.symm hw)), setRoot_other st root (.inl (Ne.symm hw))]
  refine Moves.cell_add ?_ hv hothers
  cases family with
  | inet =>
    rw [setRoot_self, add_right_comm]
    exact h.frame _
  | inet6 =>
    rw [setRoot_self, add_assoc]
    exact h.frame_left _

theorem rootRefs_of_vrfidToMtrie (hv : v < st.vrVrfs) :
    rootRefs (st.vnRtable family v) = rootRefs (vrfidToMtrie st v family) := by
  rw [vrfidToMtrie, if_neg (Nat.not_le_of_lt hv)]

/-- A request holds its reference while it works on the tree. -/
theorem moves_around {A B : Multiset Nexthop} (nh : Nexthop) (h : Moves ops A B) :
    Moves ([.get nh] ++ ops ++ [.put nh]) A B :=
  ((moves_get nh A).append (h.frame_left {nh})).append (moves_put nh B)

section

variable (hvrf : rt.rtrVrfId < r.tables.vrVrfs)
include hvrf

theorem allocVrfOps_moves (hroot : addRoot env alloc rt r.tables = some root) :
    Moves (allocVrfOps env rt r.tables) (tablesRefs r.tables)
      (tablesRefs (r.tables.setRoot rt.rtrVrfId rt.rtrFamily root)) := by
  have hset : Moves (allocVrfOps env rt r.tables)
      (rootRefs (r.tables.vnRtable rt.rtrFamily rt.rtrVrfId)) (slotRefs root + 0) := by
    rw [rootRefs_of_vrfidToMtrie hvrf]
    unfold addRoot at hroot
    unfold allocVrfOps
    cases hold : vrfidToMtrie r.tables rt.rtrVrfId rt.rtrFamily with
    | some old =>
      rw [hold] at hroot
      cases hroot
      rw [add_zero]
      exact .nil _
    | none =>
      rw [hold] at hroot
      split at hroot
      · cases hroot
        exact moves_getOf (env.nexthops.get nhDiscardId) 0
      · cases hroot
  have hmoves := moves_setRoot hvrf hset
  rwa [add_zero] at hmoves

theorem moves_tree {e : TreeEffect} (hroot : r.tables.vnRtable rt.rtrFamily rt.rtrVrfId = some root)
    (h : e.MovesFrom root) :
    Moves e.ops r.refs (RouteStore.refs
      ⟨r.tables.setRoot rt.rtrVrfId rt.rtrFamily e.ent, r.pending ++ e.detached⟩) := by
  have hset : Moves e.ops (tablesRefs r.tables)
      (tablesRefs (r.tables.setRoot rt.rtrVrfId rt.rtrFamily e.ent) + pendingRefs e.detached) :=
    moves_setRoot hvrf (hroot ▸ h)
  have hpending := hset.frame (pendingRefs r.pending)
  show Moves e.ops (_ + _) (tablesRefs _ + pendingRefs (_ ++ _))
  rw [pendingRefs_append, add_comm (pendingRefs r.pending), ← add_assoc]
  exact hpending

theorem mtrieAddRefs_moves (hmac : (reqBridgeIndex env rt).isSome) :
    (mtrieAddRefs env alloc rt r).MovesFrom RouteStore.refs r := by
  unfold mtrieAddRefs
  cases hroot : addRoot env alloc rt r.tables with
  | none => exact .nil _
  | some root =>
    have halloc := (allocVrfOps_moves hvrf hroot).frame (pendingRefs r.pending)
    cases env.nexthops.get rt.rtrNhId with
    | none => exact halloc
    | some nh =>
      simp only
      split
      · exact halloc.append ((moves_get nh _).append (moves_put nh _))
      obtain ⟨index, hindex⟩ := Option.isSome_iff_exists.mp hmac
      simp only [hindex]
      refine halloc.append (moves_around nh ?_)
      exact moves_tree (r := ⟨r.tables.setRoot rt.rtrVrfId rt.rtrFamily root, r.pending⟩) hvrf
        (setRoot_self _ _ _ _) (mtrieAddEffect_moves _ _ _)

theorem mtrieDeleteRefs_moves (hmac : (reqBridgeIndex env rt).isSome) :
    (mtrieDeleteRefs env rt r).MovesFrom RouteStore.refs r := by
  unfold mtrieDeleteRefs
  cases hroot : vrfidToMtrie r.tables rt.rtrVrfId rt.rtrFamily with
  | none => exact .nil _
  | some root =>
    cases env.nexthops.get rt.rtrNhId with
    | none => exact .nil _
    | some nh =>
      obtain ⟨index, hindex⟩ := Option.isSome_iff_exists.mp hmac
      simp only [hindex]
      rw [vrfidToMtrie, if_neg (Nat.not_le_of_lt hvrf)] at hroot
      exact moves_around nh (moves_tree hvrf hroot (mtrieDeleteEffect_moves root 0 false))

end

theorem inetRouteAddRefs_moves (shifted : Nat) (hmac : (reqBridgeIndex env rt).isSome) :
    (inetRouteAddRefs shifted env alloc rt r).MovesFrom RouteStore.refs r := by
  unfold inetRouteAddRefs
  split
  · exact .nil _
  · split
    · exact .nil _
    · exact mtrieAddRefs_moves (by dsimp only; omega) hmac

theorem inetRouteDelRefs_moves (hmac : (reqBridgeIndex env rt).isSome) :
    (inetRouteDelRefs env rt r).MovesFrom RouteStore.refs r := by
  unfold inetRouteDelRefs
  split
  · exact .nil _
  · exact mtrieDeleteRefs_moves (by omega) hmac

theorem mtrieFreeBktCb_moves (r : RouteStore) :
    (mtrieFreeBktCb r).MovesFrom RouteStore.refs r := by
  obtain ⟨tables, pending⟩ := r
  cases pending with
  | nil => exact .nil _
  | cons bkt pending =>
    have hfree := (mtrieFreeEntry_moves bkt).frame (tablesRefs tables + pendingRefs pending)
    rw [zero_add, ← add_assoc, add_comm (slotRefs bkt), add_assoc] at hfree
    exact hfree

end

/-! ## Bridge entries -/

/-- `VR_BE_VALID_FLAG` and `VR_BE_LABEL_VALID_FLAG`. -/
def vrBeValidFlag : Nat := 0x01

def vrBeLabelValidFlag : Nat := 0x02

/-- `struct vr_bridge_entry`. -/
structure BridgeEntry where
  beVrfId : Nat
  beMac : List Octet
  beNh : Option Nexthop
  beLabel : Nat
  beFlags : Nat
  deriving DecidableEq, Repr

/-- The bridge table as its functions see it: `vr_bridge_entries + vr_bridge_oentries` entries by
index. Which entry a key hashes to is the hash table's business; there is at most one in use. -/
structure BridgeTable where
  entries : Nat
  entry : Nat → BridgeEntry

def BridgeTable.refs (t : BridgeTable) : Multiset Nexthop :=
  ∑ i ∈ Finset.range t.entries, refOf (t.entry i).beNh

/-- `vr_find_bridge_entry`: the entry in use for a key. -/
def vrFindBridgeEntry (t : BridgeTable) (vrfId : Nat) (mac : List Octet) : Option Nat :=
  (List.range t.entries).find? fun i =>
    (t.entry i).beFlags &&& vrBeValidFlag ≠ 0 ∧ (t.entry i).beVrfId = vrfId ∧
      (t.entry i).beMac = mac

/-- `vr_find_free_bridge_entry`: `free` is the entry the hash table would take, if it is free. -/
def vrFindFreeBridgeEntry (t : BridgeTable) (free : Option Nat) : Option Nat :=
  free.filter fun i => i < t.entries ∧ (t.entry i).beFlags &&& vrBeValidFlag = 0

/-- `bridge_table_lookup` by MAC address, as `mtrie_add` calls it: the index of the entry, if the
entry has a nexthop. -/
def bridgeTableLookup (t : BridgeTable) (vrfId : Nat) (mac : List Octet) : Option Nat :=
  (vrFindBridgeEntry t vrfId mac).filter fun i => (t.entry i).beNh.isSome

/-- The end of `__bridge_table_add`, on the entry with the request's key. -/
def bridgeEntrySet (tbl : NexthopTable) (rt : RouteReq) (nh : Nexthop) (i : Nat) (be : BridgeEntry)
    (t : BridgeTable) : RefEffect BridgeTable :=
  -- `rtr_label_flags &= ~VR_BE_VALID_FLAG`
  let flags := rt.rtrLabelFlags ^^^ (rt.rtrLabelFlags &&& vrBeValidFlag)
  let newNh := if be.beNh = some nh then be.beNh else tbl.get rt.rtrNhId
  let be' : BridgeEntry :=
    { be with
      beNh := newNh
      beLabel := if flags &&& vrBeLabelValidFlag = 0 then be.beLabel else rt.rtrLabel
      beFlags := ((be.beFlags &&& vrBeValidFlag) ||| flags) % 2 ^ 16 }
  ⟨.ok (), { t with entry := update t.entry i be' },
    if be.beNh = some nh then [] else getOf (tbl.get rt.rtrNhId) ++ putOf be.beNh⟩

/-- `__bridge_table_add`. -/
def bridgeTableAddCore (tbl : NexthopTable) (free : Option Nat) (rt : RouteReq) (nh : Nexthop)
    (t : BridgeTable) : RefEffect BridgeTable :=
  match vrFindBridgeEntry t rt.rtrVrfId rt.rtrMac with
  | some i => bridgeEntrySet tbl rt nh i (t.entry i) t
  | none =>
    match vrFindFreeBridgeEntry t free with
    | none => .fail .ENOMEM t
    | some i =>
      bridgeEntrySet tbl rt nh i
        { t.entry i with
          beVrfId := rt.rtrVrfId, beMac := rt.rtrMac, beFlags := vrBeValidFlag } t

/-- `bridge_table_add`. -/
def bridgeTableAdd (tbl : NexthopTable) (free : Option Nat) (rt : RouteReq) (t : BridgeTable) :
    RefEffect BridgeTable :=
  if rt.rtrMac.length ≠ vrEtherAlen then .fail .EINVAL t
  else if ∀ b ∈ rt.rtrMac, b = 0 then .fail .EINVAL t
  else
    match tbl.get rt.rtrNhId with
    | none => .fail .ENOENT t
    | some nh =>
      if rt.rtrLabelFlags &&& vrBeLabelValidFlag = 0 ∧ nh.nhType = .tunnel then
        ⟨.error .EINVAL, t, [.get nh, .put nh]⟩
      else
        let r := bridgeTableAddCore tbl free rt nh t
        { r with ops := [.get nh] ++ r.ops ++ [.put nh] }

/-- `bridge_table_entry_free`. -/
def bridgeTableEntryFree (i : Nat) (t : BridgeTable) : RefEffect BridgeTable :=
  let be := t.entry i
  ⟨.ok (), { t with
      entry := update t.entry i
        { be with
          beNh := none, beFlags := be.beFlags ^^^ (be.beFlags &&& vrBeValidFlag) } },
    putOf be.beNh⟩

/-- `bridge_table_delete`. -/
def bridgeTableDelete (rt : RouteReq) (t : BridgeTable) : RefEffect BridgeTable :=
  if rt.rtrMac.length ≠ vrEtherAlen then .fail .EINVAL t
  else
    match vrFindBridgeEntry t rt.rtrVrfId rt.rtrMac with
    | none => .fail .ENOENT t
    | some i => bridgeTableEntryFree i t

/-- `bridge_entry_add`; the test of the MAC's size is made again by `bridge_table_add`. -/
def bridgeEntryAdd (rtbMaxVrfs : Nat) (tbl : NexthopTable) (free : Option Nat) (rt : RouteReq)
    (t : BridgeTable) : RefEffect BridgeTable :=
  if rtbMaxVrfs ≤ rt.rtrVrfId ∨ rt.rtrMac.length ≠ vrEtherAlen then .fail .EINVAL t
  else bridgeTableAdd tbl free rt t

/-- `bridge_entry_del`. -/
def bridgeEntryDel (rtbMaxVrfs : Nat) (rt : RouteReq) (t : BridgeTable) : RefEffect BridgeTable :=
  if 6 < rt.rtrMac.length ∨ rtbMaxVrfs ≤ rt.rtrVrfId then .fail .EINVAL t
  else bridgeTableDelete rt t

section

variable {tbl : NexthopTable} {rt : RouteReq} {t : BridgeTable}

variable {i : Nat} {be : BridgeEntry}

theorem lt_of_vrFindBridgeEntry {vrfId : Nat} {mac : List Octet}
    (h : vrFindBridgeEntry t vrfId mac = some i) : i < t.entries :=
  List.mem_range.mp (List.mem_of_find?_eq_some h)

theorem lt_of_vrFindFreeBridgeEntry {free : Option Nat} (h : vrFindFreeBridgeEntry t free = some i)
    : i < t.entries :=
  (of_decide_eq_true (Option.filter_eq_some_iff.mp h).2).1

theorem moves_bridgeEntry (hi : i < t.entries)
    (h : Moves ops (refOf (t.entry i).beNh) (refOf be.beNh)) :
    Moves ops t.refs (BridgeTable.refs { t with entry := update t.entry i be }) :=
  Moves.update (fun be : BridgeEntry => refOf be.beNh) h hi

theorem bridgeEntrySet_moves {nh : Nexthop} (hi : i < t.entries) (hbe : be.beNh = (t.entry i).beNh)
    : (bridgeEntrySet tbl rt nh i be t).MovesFrom BridgeTable.refs t := by
  refine moves_bridgeEntry hi ?_
  rw [← hbe]
  show Moves (if be.beNh = some nh then _ else _) _
    (refOf (if be.beNh = some nh then be.beNh else tbl.get rt.rtrNhId))
  split
  · exact .nil _
  · -- the new reference is taken before the old one is given up
    have hput := moves_putOf be.beNh (refOf (tbl.get rt.rtrNhId))
    rw [add_comm] at hput
    exact (moves_getOf (tbl.get rt.rtrNhId) (refOf be.beNh)).append hput

theorem bridgeTableAddCore_moves (free : Option Nat) (nh : Nexthop) :
    (bridgeTableAddCore tbl free rt nh t).MovesFrom BridgeTable.refs t := by
  unfold bridgeTableAddCore
  split
  · rename_i hfind
    exact bridgeEntrySet_moves (lt_of_vrFindBridgeEntry hfind) rfl
  · split
    · exact .nil _
    · rename_i hfree
      exact bridgeEntrySet_moves (lt_of_vrFindFreeBridgeEntry hfree) rfl

theorem bridgeTableAdd_moves (free : Option Nat) :
    (bridgeTableAdd tbl free rt t).MovesFrom BridgeTable.refs t := by
  unfold bridgeTableAdd
  split
  · exact .nil _
  split
  · exact .nil _
  cases tbl.get rt.rtrNhId with
  | none => exact .nil _
  | some nh =>
    simp only
    split
    · exact (moves_get nh _).append (moves_put nh _)
    · exact moves_around nh (bridgeTableAddCore_moves free nh)

theorem bridgeTableDelete_moves :
    (bridgeTableDelete rt t).MovesFrom BridgeTable.refs t := by
  unfold bridgeTableDelete
  split
  · exact .nil _
  · split
    · exact .nil _
    · rename_i hfind
      exact moves_bridgeEntry (lt_of_vrFindBridgeEntry hfind) (moves_putOf_all _)

theorem bridgeEntryAdd_moves (rtbMaxVrfs : Nat) (free : Option Nat) :
    (bridgeEntryAdd rtbMaxVrfs tbl free rt t).MovesFrom BridgeTable.refs t := by
  unfold bridgeEntryAdd
  split
  · exact .nil _
  · exact bridgeTableAdd_moves free

theorem bridgeEntryDel_moves (rtbMaxVrfs : Nat) :
    (bridgeEntryDel rtbMaxVrfs rt t).MovesFrom BridgeTable.refs t := by
  unfold bridgeEntryDel
  split
  · exact .nil _
  · exact bridgeTableDelete_moves

end

/-! ## MPLS labels -/

/-- `vr_ilm`, with its size. -/
structure LabelTable where
  vrMaxLabels : Nat
  vrIlm : Nat → Option Nexthop

def LabelTable.refs (t : LabelTable) : Multiset Nexthop :=
  ∑ i ∈ Finset.range t.vrMaxLabels, refOf (t.vrIlm i)

/-- `__vrouter_set_label`. -/
def LabelTable.set (t : LabelTable) (label : Nat) (nh : Option Nexthop) : LabelTable :=
  { t with vrIlm := update t.vrIlm label nh }

/-- `__vr_mpls_del`. -/
def vrMplsDelCore (label : Nat) (t : LabelTable) : RefEffect LabelTable :=
  ⟨.ok (), t.set label none, putOf (t.vrIlm label)⟩

/-- `vr_mpls_del`. -/
def vrMplsDel (label : Nat) (t : LabelTable) : RefEffect LabelTable :=
  if t.vrMaxLabels ≤ label then .fail .EINVAL t else vrMplsDelCore label t

/-- `vr_mpls_add`: the label is cleared first, and stays so if there is no such nexthop. -/
def vrMplsAdd (tbl : NexthopTable) (label nhid : Nat) (t : LabelTable) : RefEffect LabelTable :=
  if t.vrMaxLabels ≤ label then .fail .EINVAL t
  else
    let r := vrMplsDelCore label t
    match tbl.get nhid with
    | none => { r with ret := .error .EINVAL }
    | some nh => ⟨.ok (), r.tab.set label (some nh), r.ops ++ [.get nh]⟩

theorem moves_label {t : LabelTable} (hlabel : label < t.vrMaxLabels)
    (h : Moves ops (refOf (t.vrIlm label)) (refOf nh)) : Moves ops t.refs (t.set label nh).refs :=
  Moves.update refOf h hlabel

theorem vrMplsDelCore_moves {t : LabelTable} (hlabel : label < t.vrMaxLabels) :
    (vrMplsDelCore label t).MovesFrom LabelTable.refs t :=
  moves_label hlabel (moves_putOf_all _)

theorem vrMplsDel_moves (label : Nat) (t : LabelTable) :
    (vrMplsDel label t).MovesFrom LabelTable.refs t := by
  unfold vrMplsDel
  split
  · exact .nil _
  · exact vrMplsDelCore_moves (by omega)

theorem vrMplsAdd_moves (tbl : NexthopTable) (label nhid : Nat) (t : LabelTable) :
    (vrMplsAdd tbl label nhid t).MovesFrom LabelTable.refs t := by
  unfold vrMplsAdd
  split
  · exact .nil _
  rename_i hlabel
  have hdel := vrMplsDelCore_moves (Nat.lt_of_not_le hlabel)
  cases tbl.get nhid with
  | none => exact hdel
  | some nh =>
    have hcleared : (vrMplsDelCore label t).tab.vrIlm label = none := update_self ..
    refine hdel.append (moves_label (Nat.lt_of_not_le hlabel) ?_)
    rw [hcleared]
    exact moves_get nh 0

/-- **A refused `vr_mpls_add` leaves the labels and the counts alone exactly when its label is out
of range or had no nexthop**: the label is cleared before the new nexthop is looked for. -/
theorem mpls_add_failed {tbl : NexthopTable} {label nhid : Nat} {t : LabelTable} {e : Errno}
    (hfail : (vrMplsAdd tbl label nhid t).ret = .error e) :
    ((∀ l, (vrMplsAdd tbl label nhid t).tab.vrIlm l = t.vrIlm l) ∧
      (vrMplsAdd tbl label nhid t).ops = []) ↔
    t.vrMaxLabels ≤ label ∨ t.vrIlm label = none := by
  unfold vrMplsAdd at hfail ⊢
  split at hfail
  · next hrange =>
    exact iff_of_true (by rw [if_pos hrange]; exact ⟨fun _ => rfl, rfl⟩) (.inl hrange)
  next hrange =>
  cases hget : tbl.get nhid with
  | some nh =>
    rw [hget] at hfail
    cases hfail
  | none =>
    simp only [hrange, if_false, false_or, vrMplsDelCore, LabelTable.set]
    constructor
    · rintro ⟨hlabels, -⟩
      rw [← hlabels label, update_self]
    · intro hnone
      exact ⟨fun l => by rw [← hnone, update_eq_self], by rw [hnone]; rfl⟩

/-- The discard nexthop as the only one. -/
def discardTable : NexthopTable where
  get i := if i = nhDiscardId then some ⟨0, nhDiscardId, .discard⟩ else none
  ip4DefaultNh := ⟨0, nhDiscardId, .discard⟩
  nhId_of_get i nh h := by
    obtain ⟨rfl, h⟩ := Option.ite_none_right_eq_some.mp h
    cases h
    rfl
  get_discard := rfl

/-- A label of its own that never had a nexthop. -/
theorem mpls_add_failed_unused :
    (∀ l, (vrMplsAdd discardTable 3 7 ⟨8, fun _ => none⟩).tab.vrIlm l = none) ∧
      (vrMplsAdd discardTable 3 7 ⟨8, fun _ => none⟩).ops = [] :=
  (mpls_add_failed (e := .EINVAL) rfl).mpr (.inr rfl)

/-- Label 3 is lost, with its reference, to a request for a nexthop that does not exist. -/
theorem mpls_add_clears_label :
    let t : LabelTable := ⟨8, fun _ => some discardTable.ip4DefaultNh⟩
    (vrMplsAdd discardTable 3 7 t).ret = .error .EINVAL ∧
      (vrMplsAdd discardTable 3 7 t).tab.vrIlm 3 = none ∧
      (vrMplsAdd discardTable 3 7 t).ops = [.put discardTable.ip4DefaultNh] :=
  ⟨rfl, rfl, rfl⟩

/-! ## VXLAN ids -/

/-- The references of `vr_vxlan_table`, an index table of 24 bits. -/
def vxlanRefs (t : VrItbl Nexthop) : Multiset Nexthop :=
  ∑ i ∈ Finset.range (2 ^ 24), refOf (vrItableGet t i)

/-- `vr_vxlan_add`. -/
def vrVxlanAdd (tbl : NexthopTable) (alloc : Nat → Bool) (vnid nhid : Nat) (t : VrItbl Nexthop) :
    RefEffect (VrItbl Nexthop) :=
  match tbl.get nhid with
  | none => .fail .EINVAL t
  | some nh =>
    match vrItableSet t alloc vnid (some nh) with
    -- `VR_ITABLE_ERR_PTR`: returns without `vrouter_put_nexthop`
    | (.error _, t) => ⟨.error .EINVAL, t, [.get nh]⟩
    | (.ok old, t) => ⟨.ok (), t, [.get nh] ++ putOf old⟩

/-- `vr_vxlan_del`. -/
def vrVxlanDel (vnid : Nat) (t : VrItbl Nexthop) : RefEffect (VrItbl Nexthop) :=
  ⟨.ok (), (vrItableDel t vnid).2, putOf (vrItableDel t vnid).1⟩

/-- The index table stands for a map from VXLAN ids. -/
def VxlanOk (t : VrItbl Nexthop) : Prop := ∃ m, IsMap 24 t m

theorem IsMap.vxlanRefs_eq (h : IsMap 24 t m) :
    vxlanRefs t = ∑ i ∈ Finset.range (2 ^ 24), refOf (m i) := by
  refine Finset.sum_congr rfl fun i hi => ?_
  rw [h.get, Nat.mod_eq_of_lt (Finset.mem_range.mp hi)]

theorem moves_vxlan {t' : VrItbl Nexthop} (h : IsMap 24 t m)
    (h' : IsMap 24 t' (update m (vnid % 2 ^ 24) nh))
    (hmoves : Moves ops (refOf (m (vnid % 2 ^ 24))) (refOf nh)) :
    Moves ops (vxlanRefs t) (vxlanRefs t') := by
  rw [h.vxlanRefs_eq, h'.vxlanRefs_eq]
  exact Moves.update refOf hmoves (Nat.mod_lt vnid (Nat.two_pow_pos 24))

theorem itableSet_ok {α : Type} (halloc : ∀ i, alloc i = true) :
    ∀ (ss : List StrideInfo) (i : Nat) (ptr : Option (Strides α ss)) (index : Nat)
      (data : Option α), ∃ old, (itableSet alloc ss i ptr index data).1 = .ok old := by
  intro ss
  induction ss with
  | nil => exact fun i ptr index data => ⟨ptr, rfl⟩
  | cons s ss ih =>
    intro i ptr index data
    cases ptr with
    | some ptr => exact ih (i + 1) (ptr.at (s.id index)) index data
    | none =>
      simp only [itableSet, halloc i]
      exact ih (i + 1) _ index data

theorem vrVxlanAdd_moves {tbl : NexthopTable} {nhid : Nat} (hok : VxlanOk t)
    (halloc : ∀ i, alloc i = true) : (vrVxlanAdd tbl alloc vnid nhid t).MovesFrom vxlanRefs t ∧
      VxlanOk (vrVxlanAdd tbl alloc vnid nhid t).tab := by
  obtain ⟨m, hm⟩ := hok
  unfold vrVxlanAdd
  cases tbl.get nhid with
  | none => exact ⟨.nil _, m, hm⟩
  | some nh =>
    obtain ⟨old, hold⟩ := itableSet_ok halloc t.strides 0 t.data vnid (some nh)
    have hset : vrItableSet t alloc vnid (some nh) =
        (.ok old, (vrItableSet t alloc vnid (some nh)).2) := Prod.ext hold rfl
    obtain ⟨rfl, hm'⟩ := hm.set hset
    simp only
    rw [hset]
    refine ⟨moves_vxlan hm hm' ?_, _, hm'⟩
    have hput := moves_putOf (m (vnid % 2 ^ 24)) {nh}
    rw [add_comm] at hput
    exact (moves_get nh _).append hput

theorem vrVxlanDel_moves (vnid : Nat) (hok : VxlanOk t) :
    (vrVxlanDel vnid t).MovesFrom vxlanRefs t ∧
      VxlanOk (vrVxlanDel vnid t).tab := by
  obtain ⟨m, hm⟩ := hok
  obtain ⟨hold, hm'⟩ := hm.del vnid
  refine ⟨moves_vxlan hm hm' ?_, _, hm'⟩
  show Moves (putOf (vrItableDel t vnid).1) _ _
  rw [hold]
  exact moves_putOf_all _

/-! ## Mirrors -/

/-- `struct vr_mirror_entry`. -/
structure MirrorEntry where
  mirNh : Nexthop
  mirFlags : Nat
  mirVni : Nat
  deriving DecidableEq, Repr

/-- `vr_mirrors`, with its size. -/
structure MirrorTable where
  vrMaxMirrorIndices : Nat
  vrMirrors : Nat → Option MirrorEntry

/-- The reference of a mirror. -/
def mirrorNh (mirror : Option MirrorEntry) : Option Nexthop := mirror.map (·.mirNh)

def MirrorTable.refs (t : MirrorTable) : Multiset Nexthop :=
  ∑ i ∈ Finset.range t.vrMaxMirrorIndices, refOf (mirrorNh (t.vrMirrors i))

/-- `vr_mirror_req`. -/
structure MirrorReq where
  mirrIndex : Nat
  mirrNhid : Nat
  mirrFlags : Nat
  mirrVni : Nat

def MirrorTable.set (t : MirrorTable) (index : Nat) (mirror : Option MirrorEntry) : MirrorTable :=
  { t with vrMirrors := update t.vrMirrors index mirror }

/-- `vr_mirror_add`; `alloc` says whether a new entry can be had. -/
def vrMirrorAdd (tbl : NexthopTable) (alloc : Bool) (req : MirrorReq) (t : MirrorTable) :
    RefEffect MirrorTable :=
  if t.vrMaxMirrorIndices ≤ req.mirrIndex then .fail .EINVAL t
  else
    match tbl.get req.mirrNhid with
    | none => .fail .EINVAL t
    | some nh =>
      let old := t.vrMirrors req.mirrIndex
      if old.isNone ∧ alloc = false then ⟨.error .ENOMEM, t, [.get nh, .put nh]⟩
      else
        ⟨.ok (), t.set req.mirrIndex (some ⟨nh, req.mirrFlags, req.mirrVni⟩),
          [.get nh] ++ putOf (mirrorNh old)⟩

/-- `__vr_mirror_del`. -/
def vrMirrorDel (index : Nat) (t : MirrorTable) : RefEffect MirrorTable :=
  if t.vrMaxMirrorIndices ≤ index then .fail .EINVAL t
  else
    match t.vrMirrors index with
    | none => .fail .EINVAL t
    | some mirror => ⟨.ok (), t.set index none, [.put mirror.mirNh]⟩

theorem moves_mirror {t : MirrorTable} {index : Nat} {mirror : Option MirrorEntry}
    (hindex : index < t.vrMaxMirrorIndices)
    (h : Moves ops (refOf (mirrorNh (t.vrMirrors index))) (refOf (mirrorNh mirror))) :
    Moves ops t.refs (t.set index mirror).refs :=
  Moves.update (fun mirror => refOf (mirrorNh mirror)) h hindex

theorem vrMirrorAdd_moves (tbl : NexthopTable) (alloc : Bool) (req : MirrorReq) (t : MirrorTable) :
    (vrMirrorAdd tbl alloc req t).MovesFrom MirrorTable.refs t := by
  unfold vrMirrorAdd
  split
  · exact .nil _
  cases tbl.get req.mirrNhid with
  | none => exact .nil _
  | some nh =>
    simp only
    split
    · exact (moves_get nh _).append (moves_put nh _)
    · refine moves_mirror (by omega) ?_
      have hput := moves_putOf (mirrorNh (t.vrMirrors req.mirrIndex)) {nh}
      rw [add_comm] at hput
      exact (moves_get nh _).append hput

theorem vrMirrorDel_moves (index : Nat) (t : MirrorTable) :
    (vrMirrorDel index t).MovesFrom MirrorTable.refs t := by
  unfold vrMirrorDel
  split
  · exact .nil _
  cases hmirror : t.vrMirrors index with
  | none => exact .nil _
  | some mirror =>
    refine moves_mirror (by omega) ?_
    rw [hmirror]
    exact moves_put mirror.mirNh 0

end VRouter
