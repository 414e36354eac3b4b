import VRouter.Nexthop.Holders

/-!
# VRouter — nexthops and their user counts

A nexthop is created by the first request for its id and installed in the nexthop table; later
requests change it in place. `nh_users` counts the references to it. A composite nexthop refers to
its components, and gives them up when its own count reaches zero (`vrouter_put_nexthop`), which is
what `release` of `Lib/RefCount` does.

The objects are in `objs`, by address. A request that creates a nexthop gets an address from the
allocator, which hands out only memory that is not in use. The per-type data of a nexthop is a
union in the source; of it only the components of a composite nexthop are modelled, so a change of
type is not modelled beyond the type itself. `nh_users` is a natural number here, and 32 bits wide
in the source.

* `nhCompositeAdd_balanced` — changing the components keeps the counts right;
* `vrNexthopAdd_inv`, `vrNexthopDelete_inv` — and so do the requests for nexthops, under `Fits`.

Taking the discard nexthop out of the table is outside the model: the table always has it.
-/

namespace VRouter

open RefCount Function Multiset

/-! ## Data model -/

/-- The fields of a `struct vr_nexthop` that requests change in place. -/
structure NhData where
  nhType : NhType
  nhFlags : Nat
  nhDataSize : Nat
  deriving DecidableEq, Repr

/-- Nexthops of this type give up their components when they go. -/
def isComposite (d : NhData) : Bool := d.nhType = .composite

/-- Nexthops by address: `nh_users`, the components, and the other fields. -/
abbrev NhHeap := Nexthop → Object Nexthop NhData

/-- The nexthops, and the table that has the installed ones. `created` are the addresses nexthops
were ever created at. -/
structure NexthopStore where
  objs : NhHeap
  created : Finset Nexthop
  vrMaxNexthops : Nat
  nexthops : NexthopTable

/-- The references of the nexthop table itself. -/
def NexthopStore.refs (s : NexthopStore) : Multiset Nexthop :=
  ∑ i ∈ Finset.range s.vrMaxNexthops, refOf (s.nexthops.get i)

/-- The flags of a nexthop that the functions here test. -/
def nhFlagValid : Nat := 0x00001

def nhFlagTunnelUdp : Nat := 0x00010

def nhFlagMcast : Nat := 0x00020

def nhFlagTunnelVxlan : Nat := 0x00080

def nhFlagCompositeFabric : Nat := 0x00200

def nhFlagCompositeEcmp : Nat := 0x00400

def nhFlagCompositeL2 : Nat := 0x00800

def nhFlagCompositeEvpn : Nat := 0x01000

def nhFlagCompositeEncap : Nat := 0x02000

def nhFlagCompositeTor : Nat := 0x04000

/-- `vr_nexthop_req`, with the fields of composite nexthops. -/
structure NexthopReq where
  nhrId : Nat
  nhrType : NhType
  nhrFlags : Nat
  nhrEncapSize : Nat
  nhrNhList : List Nat
  nhrLabelListSize : Nat

/-- What a request gets from its surroundings: the memory for a new nexthop, for the components and
for the active components, and what `nh_encap_add`, `nh_tunnel_add` and `nh_rcv_add` return, which
depends on interfaces. -/
structure NexthopAlloc where
  nexthop : Option Nat
  component : Bool
  ecmp : Bool
  other : Except Errno Unit

/-! ## The table -/

/-- `__vrouter_set_nexthop` with a null pointer. -/
def NexthopTable.clear (tbl : NexthopTable) (id : Nat) (h : id ≠ nhDiscardId) : NexthopTable where
  get := update tbl.get id none
  ip4DefaultNh := tbl.ip4DefaultNh
  nhId_of_get := by
    intro i nh hget
    rw [update_apply] at hget
    split at hget
    · cases hget
    · exact tbl.nhId_of_get i nh hget
  get_discard := by
    rw [update_of_ne (Ne.symm h)]
    exact tbl.get_discard

/-- `__vrouter_set_nexthop` of a nexthop whose id is not taken. -/
def NexthopTable.install (tbl : NexthopTable) (nh : Nexthop) (h : tbl.get nh.nhId = none) :
    NexthopTable where
  get := update tbl.get nh.nhId (some nh)
  ip4DefaultNh := tbl.ip4DefaultNh
  nhId_of_get := by
    intro i nh' hget
    rw [update_apply] at hget
    split at hget
    · rename_i hi
      cases hget
      exact hi.symm
    · exact tbl.nhId_of_get i nh' hget
  get_discard := by
    have hne : nhDiscardId ≠ nh.nhId := by
      intro heq
      rw [← heq, tbl.get_discard] at h
      cases h
    rw [update_of_ne hne]
    exact tbl.get_discard

/-! ## Requests -/

/-- `vrouter_add_nexthop`. -/
def vrouterAddNexthop (nh : Nexthop) (s : NexthopStore) : NexthopStore :=
  if h : s.nexthops.get nh.nhId = none then
    { s with
      nexthops := s.nexthops.install nh h
      objs := execOp isComposite s.created s.objs (.get nh) }
  -- a change has nothing to install
  else s

/-- `nh_del`, the destructor of every nexthop. -/
def nhDel (nh : Nexthop) (s : NexthopStore) : Option NexthopStore :=
  if h : nh.nhId = nhDiscardId then none
  else some
    { s with
      nexthops := s.nexthops.clear nh.nhId h
      objs := execOp isComposite s.created s.objs (.put nh) }

/-- The first loop of `nh_composite_mcast_validate`. -/
def fabricComponentOk (flags : Nat) (d : NhData) : Bool :=
  d.nhType = .tunnel ∧ d.nhFlags &&& nhFlagTunnelUdp = 0 ∧
    (flags &&& nhFlagCompositeTor = 0 ∨ d.nhFlags &&& nhFlagTunnelVxlan ≠ 0)

/-- The second loop: components for L2 and for L3 do not mix. -/
def encapComponentsOk : (l2Seen l3Seen : Bool) → List NhData → Bool
  | _, _, [] => true
  | l2Seen, l3Seen, d :: ds =>
    if d.nhType ≠ .encap then false
    else if d.nhFlags &&& nhFlagCompositeL2 ≠ 0 then
      if d.nhFlags &&& nhFlagMcast ≠ 0 ∨ l3Seen = true then false
      else encapComponentsOk true l3Seen ds
    else if l2Seen = true then false
    else encapComponentsOk l2Seen true ds

/-- The third loop. -/
def l2ComponentOk (d : NhData) : Bool :=
  d.nhType = .composite ∧
    d.nhFlags &&& (nhFlagCompositeFabric ||| nhFlagCompositeEvpn ||| nhFlagCompositeTor |||
      nhFlagCompositeEncap) ≠ 0

/-- `nh_composite_mcast_validate`, on the components that are there. -/
def nhCompositeMcastValidate (flags : Nat) (cs : List NhData) : Bool :=
  (flags &&& (nhFlagCompositeFabric ||| nhFlagCompositeEvpn ||| nhFlagCompositeTor) = 0 ||
      cs.all (fabricComponentOk flags)) &&
    (flags &&& nhFlagCompositeEncap = 0 || encapComponentsOk false false cs) &&
    (flags &&& nhFlagCompositeL2 = 0 ||
      (flags &&& nhFlagMcast ≠ 0 && cs.all l2ComponentOk))

/-- The array of active components is wanted, and cannot be had. -/
def ecmpAllocFails (alloc : NexthopAlloc) (flags : Nat) (cs : List Nexthop) : Bool :=
  flags &&& nhFlagCompositeL2 = 0 ∧ flags &&& nhFlagCompositeEcmp ≠ 0 ∧ cs ≠ [] ∧
    alloc.ecmp = false

/-- `nh_composite_add`. The number of components is kept in 16 bits. -/
def nhCompositeAdd (alloc : NexthopAlloc) (tbl : NexthopTable) (created : Finset Nexthop)
    (req : NexthopReq) (nh : Nexthop) (objs : NhHeap) : Except Errno Unit × NhHeap :=
  let objs := execOps isComposite created
    (update objs nh { objs nh with owns := [] }) ((objs nh).owns.map .put)
  if req.nhrNhList.length ≠ req.nhrLabelListSize then (.error .EINVAL, objs)
  else if req.nhrNhList = [] then (.ok (), objs)
  else if alloc.component = false then (.error .ENOMEM, objs)
  else
    let cs := req.nhrNhList.filterMap tbl.get
    let objs := execOps isComposite created objs (cs.map .get)
    if nhCompositeMcastValidate req.nhrFlags (cs.map fun c => (objs c).data) = false ∨
        ecmpAllocFails alloc req.nhrFlags cs = true then
      (.error .EINVAL, execOps isComposite created objs (cs.map .put))
    else
      let kept := (req.nhrNhList.take (req.nhrNhList.length % 2 ^ 16)).filterMap tbl.get
      (.ok (), update objs nh { objs nh with owns := kept })

/-- The switch of `vr_nexthop_add`. -/
def nhTypeAdd (alloc : NexthopAlloc) (req : NexthopReq) (nh : Nexthop) (s : NexthopStore) :
    Except Errno Unit × NhHeap :=
  match req.nhrType with
  | .encap | .tunnel | .rcv => (alloc.other, s.objs)
  | .l2Rcv | .resolve | .discard | .vrfTranslate => (.ok (), s.objs)
  | .composite => nhCompositeAdd alloc s.nexthops s.created req nh s.objs
  | .dead => (.error .EINVAL, s.objs)

/-- The second half of `vr_nexthop_add`, for a nexthop that has its type and flags. -/
def vrNexthopCook (alloc : NexthopAlloc) (req : NexthopReq) (nh : Nexthop) (s : NexthopStore) :
    Option (Except Errno Unit × NexthopStore) :=
  if req.nhrFlags &&& nhFlagValid = 0 then some (.ok (), vrouterAddNexthop nh s)
  else
    match nhTypeAdd alloc req nh s with
    | (.error e, objs) => (nhDel nh { s with objs := objs }).map fun s => (.error e, s)
    | (.ok (), objs) => some (.ok (), vrouterAddNexthop nh { s with objs := objs })

/-- `vr_nexthop_size`, without the size of the structure itself. -/
def vrNexthopDataSize (req : NexthopReq) : Nat :=
  if req.nhrType = .encap ∨ req.nhrType = .tunnel then req.nhrEncapSize else 0

/-- `vr_nexthop_valid_change`. -/
def vrNexthopValidChange (req : NexthopReq) (d : NhData) : Bool :=
  req.nhrFlags &&& nhFlagValid = 0 ∨
    (req.nhrType = d.nhType ∧ (req.nhrEncapSize = 0 ∨ req.nhrEncapSize = d.nhDataSize))

/-- `vr_nexthop_add`. The valid flag is set last on a change to valid, but nothing reads it
before. -/
def vrNexthopAdd (alloc : NexthopAlloc) (req : NexthopReq) (s : NexthopStore) :
    Option (Except Errno Unit × NexthopStore) :=
  if s.vrMaxNexthops ≤ req.nhrId then some (.error .EINVAL, s)
  else
    match s.nexthops.get req.nhrId with
    | none =>
      match alloc.nexthop with
      | none => some (.error .ENOMEM, s)
      | some ptr =>
        let nh : Nexthop := ⟨ptr, req.nhrId, req.nhrType⟩
        if (s.objs nh).users = 0 ∧ (s.objs nh).owns = [] then
          vrNexthopCook alloc req nh
            { s with
              created := insert nh s.created
              objs := update s.objs nh
                ⟨0, [], ⟨req.nhrType, req.nhrFlags, vrNexthopDataSize req⟩⟩ }
        -- no allocator hands out memory that is in use
        else none
    | some nh =>
      if vrNexthopValidChange req (s.objs nh).data = false then some (.error .EINVAL, s)
      else
        vrNexthopCook alloc req nh
          { s with
            objs := update s.objs nh
              { s.objs nh with
                data := { (s.objs nh).data with
                  nhType := req.nhrType, nhFlags := req.nhrFlags } } }

/-- `vr_nexthop_delete`. -/
def vrNexthopDelete (id : Nat) (s : NexthopStore) : Option (Except Errno Unit × NexthopStore) :=
  match s.nexthops.get id with
  | none => some (.error .EINVAL, s)
  | some nh =>
    (nhDel nh { s with objs := execOps isComposite s.created s.objs [.get nh, .put nh] }).map
      fun s => (.ok (), s)

/-! ## The counts -/

/-- Every count is right, with the references `A` held by other tables, the installed nexthops are
real, and nexthops without users have no components. -/
structure StoreInv (s : NexthopStore) (A : Multiset Nexthop) : Prop where
  balanced : Balanced isComposite s.created s.objs (s.refs + A)
  installed : ∀ i nh, s.nexthops.get i = some nh → nh ∈ s.created ∧ i < s.vrMaxNexthops
  idle : ∀ q, (s.objs q).users = 0 → (s.objs q).owns = []

/-- While `nh` is set up, it may have components and no user yet. -/
structure Cooking (nh : Nexthop) (s : NexthopStore) (A : Multiset Nexthop) : Prop where
  balanced : Balanced isComposite s.created s.objs (s.refs + A)
  installed : ∀ i nh, s.nexthops.get i = some nh → nh ∈ s.created ∧ i < s.vrMaxNexthops
  idle : ∀ q, q ≠ nh → (s.objs q).users = 0 → (s.objs q).owns = []

/-- A change that keeps the type, with a component list whose length fits the 16 bits there are for
it. -/
def Fits (req : NexthopReq) (s : NexthopStore) : Prop :=
  req.nhrNhList.length < 2 ^ 16 ∧
    ∀ nh, s.nexthops.get req.nhrId = some nh → (s.objs nh).data.nhType = req.nhrType

section

variable {s : NexthopStore} {A : Multiset Nexthop} {nh : Nexthop} {req : NexthopReq}
  {alloc : NexthopAlloc}

theorem StoreInv.cooking (h : StoreInv s A) (nh : Nexthop) : Cooking nh s A :=
  ⟨h.balanced, h.installed, fun q _ => h.idle q⟩

theorem Cooking.inv (h : Cooking nh s A) (hnh : (s.objs nh).users = 0 → (s.objs nh).owns = []) :
    StoreInv s A := by
  refine ⟨h.balanced, h.installed, fun q => ?_⟩
  by_cases hq : q = nh
  · rw [hq]
    exact hnh
  · exact h.idle q hq

theorem StoreInv.setData (h : StoreInv s A) {d : NhData}
    (htype : d.nhType = (s.objs nh).data.nhType) :
    Cooking nh { s with objs := update s.objs nh { s.objs nh with data := d } } A := by
  refine ⟨h.balanced.setData ?_, h.installed, fun q hq => ?_⟩
  · rw [isComposite, isComposite, htype]
  · dsimp only
    rw [update_of_ne hq]
    exact h.idle q

theorem Cooking.users_ne_zero (h : Cooking nh s A) (hget : s.nexthops.get nh.nhId = some nh) :
    (s.objs nh).users ≠ 0 := by
  have hmem : nh ∈ s.refs := by
    refine mem_sum.mpr ⟨nh.nhId, ?_, ?_⟩
    · exact Finset.mem_range.mpr (h.installed _ nh hget).2
    · rw [hget]
      exact mem_singleton_self nh
  have hcount := h.balanced.count nh
  have hpos := count_pos.mpr hmem
  rw [count_add, count_add] at hcount
  omega

theorem moves_clear {h : nh.nhId ≠ nhDiscardId} (hlt : nh.nhId < s.vrMaxNexthops)
    (hget : s.nexthops.get nh.nhId = some nh) (objs : NhHeap) :
    Moves [.put nh] s.refs
      (NexthopStore.refs { s with nexthops := s.nexthops.clear nh.nhId h, objs := objs }) := by
  refine Moves.update refOf ?_ hlt
  rw [hget]
  exact moves_put nh 0

theorem moves_install {h : s.nexthops.get nh.nhId = none} (hlt : nh.nhId < s.vrMaxNexthops)
    (objs : NhHeap) :
    Moves [.get nh] s.refs
      (NexthopStore.refs { s with nexthops := s.nexthops.install nh h, objs := objs }) := by
  refine Moves.update refOf ?_ hlt
  rw [h]
  exact moves_get nh 0

/-! ### Components -/

/-- The nexthops after `nh_composite_add` has given up the old components of `nh`. -/
def componentsDropped (created : Finset Nexthop) (nh : Nexthop) (objs : NhHeap) : NhHeap :=
  execOps isComposite created (update objs nh { objs nh with owns := [] })
    ((objs nh).owns.map .put)

variable {s' : NexthopStore} {ret : Except Errno Unit} {tbl : NexthopTable} {id : Nat} {q : Nexthop}
    {e : Errno}

section

variable {created : Finset Nexthop} {objs : NhHeap}

theorem componentsDropped_owns : (componentsDropped created nh objs nh).owns = [] := by
  refine execOps_owns_nil ?_
  rw [update_self]

theorem componentsDropped_cases (q : Nexthop) :
    (componentsDropped created nh objs q).data = (objs q).data ∧
      ((componentsDropped created nh objs q).owns = (objs q).owns ∨
        (componentsDropped created nh objs q).owns = []) := by
  obtain ⟨hdata, howns⟩ : (componentsDropped created nh objs q).data = _ ∧ _ :=
    execOps_cases _ _ q
  by_cases hq : q = nh
  · rw [hq] at hdata ⊢
    rw [hdata, update_self]
    exact ⟨rfl, .inr componentsDropped_owns⟩
  · rw [update_of_ne hq] at hdata howns
    exact ⟨hdata, howns⟩

variable (hlen : req.nhrNhList.length < 2 ^ 16)
include hlen

variable (nh alloc tbl created objs) in
/-- What `nh_composite_add` leaves: the nexthops without the old components, or these after the new
components were taken and given back, or after they were taken and kept. -/
theorem nhCompositeAdd_cases :
    (nhCompositeAdd alloc tbl created req nh objs).2 = componentsDropped created nh objs ∨
      (∃ cs : List Nexthop, ∃ e,
        nhCompositeAdd alloc tbl created req nh objs =
          (.error e, execOps isComposite created
            (execOps isComposite created (componentsDropped created nh objs) (cs.map .get))
            (cs.map .put))) ∨
      ∃ cs : List Nexthop, ∃ objs',
        objs' = execOps isComposite created (componentsDropped created nh objs) (cs.map .get) ∧
        nhCompositeAdd alloc tbl created req nh objs =
          (.ok (), update objs' nh { objs' nh with owns := cs }) := by
  unfold nhCompositeAdd
  simp only
  split
  · exact .inl rfl
  split
  · exact .inl rfl
  split
  · exact .inl rfl
  · split
    · exact .inr (.inl ⟨_, _, rfl⟩)
    · rw [Nat.mod_eq_of_lt hlen, List.take_length]
      exact .inr (.inr ⟨_, _, rfl, rfl⟩)

theorem nhCompositeAdd_error (h : (nhCompositeAdd alloc tbl created req nh objs).1 = .error e)
    (q : Nexthop) :
    ((nhCompositeAdd alloc tbl created req nh objs).2 q).owns = (objs q).owns ∨
      ((nhCompositeAdd alloc tbl created req nh objs).2 q).owns = [] := by
  have hmore : ∀ (objs' : NhHeap) ops, ((objs' q).owns = (objs q).owns ∨ (objs' q).owns = []) →
      (execOps isComposite created objs' ops q).owns = (objs q).owns ∨
        (execOps isComposite created objs' ops q).owns = [] := by
    intro objs' ops hobjs
    have hcases : (execOps isComposite created objs' ops q).owns = _ ∨ _ :=
      (execOps_cases ops objs' q).2
    rcases hcases with heq | heq
    · rw [heq]
      exact hobjs
    · exact .inr heq
  rcases nhCompositeAdd_cases nh alloc tbl created objs hlen with
    heq | ⟨cs, e, heq⟩ | ⟨cs, objs', -, heq⟩
  · rw [heq]
    exact (componentsDropped_cases q).2
  · rw [heq]
    exact hmore _ _ (hmore _ _ (componentsDropped_cases q).2)
  · rw [heq] at h
    cases h

theorem nhCompositeAdd_data (q : Nexthop) :
    ((nhCompositeAdd alloc tbl created req nh objs).2 q).data = (objs q).data := by
  have hdrop : (componentsDropped created nh objs q).data = (objs q).data :=
    (componentsDropped_cases q).1
  rcases nhCompositeAdd_cases nh alloc tbl created objs hlen with
    heq | ⟨cs, e, heq⟩ | ⟨cs, objs', hobjs', heq⟩
  · rw [heq, hdrop]
  · rw [heq]
    exact (execOps_cases _ _ q).1.trans ((execOps_cases _ _ q).1.trans hdrop)
  have hobj : (objs' q).data = (objs q).data := by
    rw [hobjs']
    exact (execOps_cases _ _ q).1.trans hdrop
  rw [heq]
  show (update objs' nh _ q).data = _
  rw [update_apply]
  split
  · rename_i hq
    rw [← hobj, hq]
  · exact hobj

variable (hb : Balanced isComposite created objs A) (hnh : nh ∈ created)
  (htype : isComposite (objs nh).data = true)
include hb hnh htype

omit hlen in
theorem componentsDropped_balanced :
    Balanced isComposite created (componentsDropped created nh objs) A := by
  refine execOps_balanced (moves_puts _ A) (Balanced.setOwns ?_ hnh htype)
  rw [coe_nil, zero_add]
  exact hb

/-- `nh_composite_add` changes no count for good: what the nexthop gives up and takes is in its
components. -/
theorem nhCompositeAdd_balanced :
    Balanced isComposite created (nhCompositeAdd alloc tbl created req nh objs).2 A := by
  have hdrop := componentsDropped_balanced hb hnh htype
  rcases nhCompositeAdd_cases nh alloc tbl created objs hlen with
    heq | ⟨cs, e, heq⟩ | ⟨cs, objs', hobjs', heq⟩
  · rw [heq]
    exact hdrop
  · rw [heq]
    exact execOps_balanced (moves_puts cs A) (execOps_balanced (moves_gets cs A) hdrop)
  have hget : Balanced isComposite created objs' ((cs : Multiset Nexthop) + A) :=
    hobjs' ▸ execOps_balanced (moves_gets cs A) hdrop
  have hobj : (objs' nh).data = (objs nh).data ∧ (objs' nh).owns = [] := by
    rw [hobjs']
    exact ⟨(execOps_cases _ _ nh).1.trans (componentsDropped_cases nh).1,
      execOps_owns_nil componentsDropped_owns⟩
  have hown := hget.setOwns hnh (hobj.1 ▸ htype)
  rw [hobj.2, coe_nil, zero_add] at hown
  rw [heq]
  exact hown

theorem nhCompositeAdd_idle (hq : q ≠ nh) (hidle : (objs q).users = 0 → (objs q).owns = []) :
    ((nhCompositeAdd alloc tbl created req nh objs).2 q).users = 0 →
      ((nhCompositeAdd alloc tbl created req nh objs).2 q).owns = [] := by
  have hdrop := componentsDropped_balanced hb hnh htype
  have hdropIdle : (componentsDropped created nh objs q).users = 0 →
      (componentsDropped created nh objs q).owns = [] := by
    refine execOps_idle _ _ (fun p hp => ?_) q ?_
    · by_cases hpn : p = nh
      · rw [hpn, update_self] at hp
        exact absurd rfl hp
      · rw [update_of_ne hpn] at hp ⊢
        exact hb.lets p hp
    · rw [update_of_ne hq]
      exact hidle
  rcases nhCompositeAdd_cases nh alloc tbl created objs hlen with
    heq | ⟨cs, e, heq⟩ | ⟨cs, objs', hobjs', heq⟩
  · rw [heq]
    exact hdropIdle
  · rw [heq]
    exact execOps_idle _ _ (execOps_balanced (moves_gets cs A) hdrop).lets q
      (execOps_idle _ _ hdrop.lets q hdropIdle)
  · rw [heq]
    show (update objs' nh _ q).users = 0 → (update objs' nh _ q).owns = []
    rw [update_of_ne hq, hobjs']
    exact execOps_idle _ _ hdrop.lets q hdropIdle

end

/-! ### One request -/

theorem vrouterAddNexthop_inv (h : Cooking nh s A) (hnh : nh ∈ s.created)
    (hlt : nh.nhId < s.vrMaxNexthops)
    (hget : s.nexthops.get nh.nhId = none ∨ s.nexthops.get nh.nhId = some nh) :
    StoreInv (vrouterAddNexthop nh s) A := by
  unfold vrouterAddNexthop
  split
  · refine ⟨execOps_balanced ((moves_install hlt _).frame A) h.balanced, fun i nh' hi => ?_,
      fun q => ?_⟩
    · change update s.nexthops.get nh.nhId (some nh) i = some nh' at hi
      rw [update_apply] at hi
      split at hi
      · rename_i hid
        cases hi
        exact ⟨hnh, hid ▸ hlt⟩
      · exact h.installed i nh' hi
    · show (update s.objs nh _ q).users = 0 → (update s.objs nh _ q).owns = []
      rw [update_apply]
      split
      · exact fun hzero => absurd hzero (Nat.succ_ne_zero _)
      · rename_i hq
        exact h.idle q hq
  · rename_i hsome
    rcases hget with hget | hget
    · exact absurd hget hsome
    · exact h.inv fun hzero => absurd hzero (h.users_ne_zero hget)

theorem get_of_clear {i : Nat} {h : id ≠ nhDiscardId} (hget : (tbl.clear id h).get i = some nh) :
    tbl.get i = some nh := by
  change update tbl.get id none i = some nh at hget
  rw [update_apply] at hget
  split at hget
  · cases hget
  · exact hget

theorem nhDel_inv (hc : Cooking nh s A) (hget : s.nexthops.get nh.nhId = some nh)
    (h : nhDel nh s = some s') : StoreInv s' A := by
  have hinv := hc.inv fun hzero => absurd hzero (hc.users_ne_zero hget)
  unfold nhDel at h
  split at h
  · cases h
  rename_i hid
  cases h
  have hlt := (hc.installed _ nh hget).2
  exact ⟨execOps_balanced ((moves_clear hlt hget _).frame A) hc.balanced,
    fun i nh' hi => hc.installed i nh' (get_of_clear (h := hid) hi),
    fun q => execOps_idle [.put nh] s.objs hc.balanced.lets q (hinv.idle q)⟩

/-- The destructor of a nexthop that was not installed finds nothing to give up. -/
theorem nhDel_inv_of_new (hc : Cooking nh s A) (hget : s.nexthops.get nh.nhId = none)
    (hobj : (s.objs nh).users = 0 ∧ (s.objs nh).owns = []) (h : nhDel nh s = some s') :
    StoreInv s' A := by
  have hinv := hc.inv fun _ => hobj.2
  unfold nhDel at h
  split at h
  · cases h
  rename_i hid
  cases h
  have hsame : update s.nexthops.get nh.nhId none = s.nexthops.get := by
    rw [← hget]
    exact update_eq_self _ _
  rw [execOp_put_of_zero hobj]
  refine ⟨?_, fun i nh' hi => hc.installed i nh' (get_of_clear (h := hid) hi), hinv.idle⟩
  show Balanced _ _ _ (∑ i ∈ Finset.range s.vrMaxNexthops,
    refOf (update s.nexthops.get nh.nhId none i) + A)
  rw [hsame]
  exact hc.balanced

theorem vrouterAddNexthop_data (nh : Nexthop) (s : NexthopStore) (q : Nexthop) :
    ((vrouterAddNexthop nh s).objs q).data = (s.objs q).data ∧
      (vrouterAddNexthop nh s).nexthops.ip4DefaultNh = s.nexthops.ip4DefaultNh := by
  unfold vrouterAddNexthop
  split
  · have hdata : (execOps isComposite s.created s.objs [.get nh] q).data = _ :=
      (execOps_cases _ _ q).1
    exact ⟨hdata, rfl⟩
  · exact ⟨rfl, rfl⟩

theorem nhDel_data (h : nhDel nh s = some s') (q : Nexthop) :
    (s'.objs q).data = (s.objs q).data ∧ s'.nexthops.ip4DefaultNh = s.nexthops.ip4DefaultNh := by
  unfold nhDel at h
  split at h
  · cases h
  · cases h
    have hdata : (execOps isComposite s.created s.objs [.put nh] q).data = _ :=
      (execOps_cases _ _ q).1
    exact ⟨hdata, rfl⟩

section

variable (hlen : req.nhrNhList.length < 2 ^ 16)
include hlen

theorem nhTypeAdd_error (h : (nhTypeAdd alloc req nh s).1 = .error e) (q : Nexthop) :
    ((nhTypeAdd alloc req nh s).2 q).owns = (s.objs q).owns ∨
      ((nhTypeAdd alloc req nh s).2 q).owns = [] := by
  unfold nhTypeAdd at h ⊢
  split
  case h_8 heq =>
    simp only [heq] at h
    exact nhCompositeAdd_error hlen h q
  all_goals exact .inl rfl

theorem nhTypeAdd_data (q : Nexthop) :
    ((nhTypeAdd alloc req nh s).2 q).data = (s.objs q).data := by
  unfold nhTypeAdd
  split
  case h_8 => exact nhCompositeAdd_data hlen q
  all_goals rfl

variable (h : vrNexthopCook alloc req nh s = some (ret, s'))
include h

omit hlen in
/-- The nexthop is installed, or what its type did is undone. -/
theorem vrNexthopCook_cases :
    (∃ objs, (objs = s.objs ∨ objs = (nhTypeAdd alloc req nh s).2) ∧
        s' = vrouterAddNexthop nh { s with objs := objs }) ∨
      ∃ e, (nhTypeAdd alloc req nh s).1 = .error e ∧
        nhDel nh { s with objs := (nhTypeAdd alloc req nh s).2 } = some s' := by
  unfold vrNexthopCook at h
  split at h
  · cases h
    exact .inl ⟨s.objs, .inl rfl, rfl⟩
  rcases htypeAdd : nhTypeAdd alloc req nh s with ⟨e | ⟨⟩, objs⟩
  · rw [htypeAdd] at h
    obtain ⟨s₁, hdel, ⟨⟩⟩ := Option.map_eq_some_iff.mp h
    exact .inr ⟨e, rfl, hdel⟩
  · rw [htypeAdd] at h
    cases h
    exact .inl ⟨objs, .inr rfl, rfl⟩

theorem vrNexthopCook_data (q : Nexthop) :
    (s'.objs q).data = (s.objs q).data ∧ s'.nexthops.ip4DefaultNh = s.nexthops.ip4DefaultNh := by
  have htype : ((nhTypeAdd alloc req nh s).2 q).data = (s.objs q).data := nhTypeAdd_data hlen q
  rcases vrNexthopCook_cases h with ⟨objs, hobjs, rfl⟩ | ⟨e, -, hdel⟩
  · have hadd := vrouterAddNexthop_data nh { s with objs := objs } q
    rcases hobjs with rfl | rfl
    · exact hadd
    · exact ⟨hadd.1.trans htype, hadd.2⟩
  · obtain ⟨hdata, htbl⟩ := nhDel_data hdel q
    exact ⟨hdata.trans htype, htbl⟩

variable (hc : Cooking nh s A) (htype : (s.objs nh).data.nhType = req.nhrType)
include hc htype

omit h in
theorem nhTypeAdd_cooking (hnh : nh ∈ s.created) :
    Cooking nh { s with objs := (nhTypeAdd alloc req nh s).2 } A := by
  unfold nhTypeAdd
  split
  case h_8 heq =>
    have hcomposite : isComposite (s.objs nh).data = true := by
      rw [isComposite, htype, heq]
      rfl
    exact ⟨nhCompositeAdd_balanced hlen hc.balanced hnh hcomposite, hc.installed,
      fun q hq => nhCompositeAdd_idle hlen hc.balanced hnh hcomposite hq (hc.idle q hq)⟩
  all_goals exact hc

theorem vrNexthopCook_inv_of_new (hnh : nh ∈ s.created)
    (hlt : nh.nhId < s.vrMaxNexthops) (hget : s.nexthops.get nh.nhId = none)
    (hobj : (s.objs nh).users = 0 ∧ (s.objs nh).owns = []) :
    StoreInv s' A := by
  have hadd : Cooking nh { s with objs := (nhTypeAdd alloc req nh s).2 } A :=
    nhTypeAdd_cooking hlen hc htype hnh
  rcases vrNexthopCook_cases h with ⟨_, rfl | rfl, rfl⟩ | ⟨e, herr, hdel⟩
  · exact vrouterAddNexthop_inv hc hnh hlt (.inl hget)
  · exact vrouterAddNexthop_inv hadd hnh hlt (.inl hget)
  · have howns := nhTypeAdd_error hlen herr
    generalize (nhTypeAdd alloc req nh s).2 = objs at hadd howns hdel
    have hnil : (objs nh).owns = [] := by
      rcases howns nh with ho | ho
      · exact ho.trans hobj.2
      · exact ho
    -- nothing referred to the nexthop, and nothing does now
    have hzero : (objs nh).users = 0 := by
      have hbefore := hc.balanced.count nh
      have hafter : (objs nh).users = _ := hadd.balanced.count nh
      have hle : (owned s.created objs).count nh ≤ _ := owned_count_le howns nh
      rw [count_add] at hbefore
      rw [hafter, count_add]
      show count nh (s.refs + A) + count nh (owned s.created objs) = 0
      omega
    exact nhDel_inv_of_new hadd hget ⟨hzero, hnil⟩ hdel

theorem vrNexthopCook_inv_of_change (hget : s.nexthops.get nh.nhId = some nh) :
    StoreInv s' A := by
  obtain ⟨hnh, hlt⟩ := hc.installed _ nh hget
  rcases vrNexthopCook_cases h with ⟨_, rfl | rfl, rfl⟩ | ⟨e, -, hdel⟩
  · exact vrouterAddNexthop_inv hc hnh hlt (.inr hget)
  · exact vrouterAddNexthop_inv (nhTypeAdd_cooking hlen hc htype hnh) hnh hlt (.inr hget)
  · exact nhDel_inv (nhTypeAdd_cooking hlen hc htype hnh) hget hdel

end

/-- `vr_nexthop_add` keeps the counts right, also where it fails half-way. -/
theorem vrNexthopAdd_inv (hinv : StoreInv s A) (hfits : Fits req s)
    (h : vrNexthopAdd alloc req s = some (ret, s')) : StoreInv s' A := by
  unfold vrNexthopAdd at h
  split at h
  · cases h
    exact hinv
  rename_i hid
  have hlt := Nat.lt_of_not_le hid
  split at h
  · rename_i hget
    split at h
    · cases h
      exact hinv
    dsimp only at h
    split at h
    · rename_i hfree
      have hnew := hinv.balanced.create hfree ⟨req.nhrType, req.nhrFlags, vrNexthopDataSize req⟩
      refine vrNexthopCook_inv_of_new hfits.1 h ⟨hnew, fun i nh hi => ?_, fun q hq => ?_⟩ ?_
        (Finset.mem_insert_self _ _) hlt hget ?_
      · obtain ⟨hmem, hi⟩ := hinv.installed i nh hi
        exact ⟨Finset.mem_insert_of_mem hmem, hi⟩
      · dsimp only
        rw [update_of_ne hq]
        exact hinv.idle q
      · simp only [update_self]
      · simp only [update_self, and_self]
    · cases h
  · rename_i nh hget
    have htype := hfits.2 nh hget
    split at h
    · cases h
      exact hinv
    · refine vrNexthopCook_inv_of_change hfits.1 h (hinv.setData htype.symm) ?_
        (s.nexthops.get_nhId hget)
      simp only [update_self]

theorem vrNexthopDelete_inv (hinv : StoreInv s A) (h : vrNexthopDelete id s = some (ret, s')) :
    StoreInv s' A := by
  unfold vrNexthopDelete at h
  split at h
  · cases h
    exact hinv
  · rename_i nh hget
    obtain ⟨s₁, hdel, ⟨⟩⟩ := Option.map_eq_some_iff.mp h
    have hboth : Moves [.get nh, .put nh] (s.refs + A) (s.refs + A) :=
      (moves_get nh _).append (moves_put nh _)
    have hc : Cooking nh
        { s with objs := execOps isComposite s.created s.objs [.get nh, .put nh] } A :=
      ⟨execOps_balanced hboth hinv.balanced, hinv.installed,
        fun q _ => execOps_idle _ _ hinv.balanced.lets q (hinv.idle q)⟩
    exact nhDel_inv hc (s.nexthops.get_nhId hget) hdel

/-! ### The discard nexthop stays -/

theorem vrNexthopAdd_keeps (hfits : Fits req s) (h : vrNexthopAdd alloc req s = some (ret, s'))
    (hq : (s.objs q).users ≠ 0) : (s'.objs q).data.nhType = (s.objs q).data.nhType ∧
      s'.nexthops.ip4DefaultNh = s.nexthops.ip4DefaultNh := by
  unfold vrNexthopAdd at h
  split at h
  · cases h
    exact ⟨rfl, rfl⟩
  split at h
  · split at h
    · cases h
      exact ⟨rfl, rfl⟩
    rename_i ptr _
    dsimp only at h
    split at h
    · rename_i hfree
      obtain ⟨hdata, htbl⟩ := vrNexthopCook_data hfits.1 h q
      have hne : q ≠ ⟨ptr, req.nhrId, req.nhrType⟩ := fun heq => hq (heq ▸ hfree.1)
      simp only [update_of_ne hne] at hdata
      exact ⟨congrArg NhData.nhType hdata, htbl⟩
    · cases h
  · rename_i nh hget
    split at h
    · cases h
      exact ⟨rfl, rfl⟩
    obtain ⟨hdata, htbl⟩ := vrNexthopCook_data hfits.1 h q
    refine ⟨(congrArg NhData.nhType hdata).trans ?_, htbl⟩
    simp only [update_apply]
    split
    · rename_i hqn
      rw [hqn]
      exact (hfits.2 nh hget).symm
    · rfl

theorem vrNexthopDelete_keeps (h : vrNexthopDelete id s = some (ret, s')) (q : Nexthop) :
    (s'.objs q).data = (s.objs q).data ∧ s'.nexthops.ip4DefaultNh = s.nexthops.ip4DefaultNh := by
  unfold vrNexthopDelete at h
  split at h
  · cases h
    exact ⟨rfl, rfl⟩
  · obtain ⟨s₁, hdel, ⟨⟩⟩ := Option.map_eq_some_iff.mp h
    obtain ⟨hdata, htbl⟩ := nhDel_data hdel q
    exact ⟨hdata.trans (execOps_cases _ _ q).1, htbl⟩

end

end VRouter
