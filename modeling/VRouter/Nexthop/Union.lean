import VRouter.Lib.Run
import VRouter.Nexthop.Store

/-!
# VRouter — the per-type data of a nexthop

`VRouter.Nexthop.Store` follows the references of all nexthops. This module follows one id and
looks inside the nexthop there: the union `nh_u`, which every type of nexthop uses in its own way,
and the encapsulation that `nh_data` has room for. Nothing in a nexthop says which variant of the
union was written last; `vrouter_free_nexthop`, `nh_composite_add`, `nh_tunnel_add` and
`vr_nexthop_make_req` go by the type, the flags and the family. A request without `NH_FLAG_VALID`
sets these three and leaves the union alone.

An access that the memory does not allow is a `Fault`. Of the union the model has the lengths and
the pointers; tunnel addresses, ports and the family of an encapsulation are numbers that nothing
here depends on.

* `NhObject.nhTypeAdd_safe`, `NhSlot.step_sound` — what one request does to the union;
* `union_variant_kept` — over every run of requests that keep the variant, nothing is read as
  another variant, nothing leaks and no length is too large.
-/

namespace VRouter

/-! ## Data model -/

/-- What is wrong with an access: it reads bytes that were written as another variant of a union, it
goes through a null pointer, or it leaves the memory it was meant for. -/
inductive Fault where
  | variant
  | null
  | bounds
  deriving DecidableEq, Repr

/-- `AF_INET`, `AF_INET6`, and any other `nh_family`. -/
inductive AddressFamily where
  | inet
  | inet6
  | other
  deriving DecidableEq, Repr

/-- `struct vr_component_nh`. -/
structure ComponentNh where
  cnhLabel : Int
  cnhEcmpIndex : Int
  cnh : Option Nexthop
  deriving DecidableEq, Repr

/-- `nh_composite`. The arrays are `none` for null pointers. -/
structure NhComposite where
  cnt : Nat
  ecmpCnt : Nat
  component : Option (List ComponentNh)
  ecmpActive : Option (List ComponentNh)
  deriving DecidableEq, Repr

/-- `nh_u`, by the variant that was written last. `zero` is memory as `vr_zalloc` returns it. -/
inductive NhUnion where
  | zero
  | encap (encapLen : Nat)
  | greTun (tunEncapLen : Nat)
  | udpTun (tunEncapLen : Nat)
  /-- Whether there is memory for each of the addresses. -/
  | udpTun6 (sip dip : Bool) (tunEncapLen : Nat)
  | composite (c : NhComposite)
  deriving DecidableEq, Repr

/-- The variants of `nh_u`. -/
inductive NhKind where
  | none | encap | greTun | udpTun | udpTun6 | composite
  deriving DecidableEq, Repr

/-- A `struct vr_nexthop`. `nhData` is the memory there is for `nh_data`, of which `nh_data_size`
has the low 16 bits; `live` counts the arrays that were allocated for the union and not freed. -/
structure NhObject where
  nhType : NhType
  nhFlags : Nat
  nhFamily : AddressFamily
  nhDataSize : Nat
  nhData : Nat
  nhU : NhUnion
  live : Nat
  deriving DecidableEq, Repr

/-- `NH_FLAG_ENCAP_L2`. -/
def nhFlagEncapL2 : Nat := 0x00004

def nhFlagTunnelGre : Nat := 0x00008

def nhFlagTunnelUdpMpls : Nat := 0x00040

/-- `vr_nexthop_req`, with the fields the union is filled from. Pointers are `false` when null. -/
structure UnionReq extends NexthopReq where
  nhrFamily : AddressFamily
  nhrEncap : Bool
  nhrLabelList : Nat → Int
  nhrTunSip : Nat
  nhrTunDip : Nat
  nhrTunSip6 : Bool
  nhrTunDip6 : Bool

/-- What a request meets: which allocations succeed, whether the interface exists, and the nexthops
there are. -/
structure NhEnv where
  nexthop : Bool
  component : Bool
  ecmp : Bool
  sip6 : Bool
  dip6 : Bool
  vif : Bool
  get : Nat → Option Nexthop
  data : Nexthop → NhData

/-- One id of the nexthop table. `removed` are the nexthops that were installed there, or were to
be; whoever refers to them goes on using them. -/
structure NhSlot where
  installed : Option NhObject
  removed : List NhObject
  deriving DecidableEq, Repr

/-! ## Reading the union -/

def NhUnion.kind : NhUnion → NhKind
  | .zero => .none
  | .encap _ => .encap
  | .greTun _ => .greTun
  | .udpTun _ => .udpTun
  | .udpTun6 _ _ _ => .udpTun6
  | .composite _ => .composite

/-- The encapsulation length of the variant. -/
def NhUnion.encapLen : NhUnion → Nat
  | .encap len | .greTun len | .udpTun len | .udpTun6 _ _ len => len
  | .zero | .composite _ => 0

/-- How many arrays the variant has pointers to. -/
def NhUnion.owned : NhUnion → Nat
  | .udpTun6 sip dip _ => sip.toNat + dip.toNat
  | .composite c => c.component.isSome.toNat + c.ecmpActive.isSome.toNat
  | _ => 0

def NhUnion.asComposite : NhUnion → Except Fault NhComposite
  | .zero => .ok ⟨0, 0, none, none⟩
  | .composite c => .ok c
  | _ => .error .variant

def NhUnion.asUdpTun6 : NhUnion → Except Fault (Bool × Bool × Nat)
  | .zero => .ok (false, false, 0)
  | .udpTun6 sip dip len => .ok (sip, dip, len)
  | _ => .error .variant

/-- The first `n` elements of an array. -/
def readArray (a : Option (List ComponentNh)) (n : Nat) : Except Fault (List ComponentNh) :=
  if n = 0 then .ok []
  else
    match a with
    | none => .error .null
    | some l => if n ≤ l.length then .ok (l.take n) else .error .bounds

/-- The variant that a type, flags and a family stand for, as `nh_tunnel_add` and
`vr_nexthop_make_req` test them. -/
def nhKind (type : NhType) (flags : Nat) (family : AddressFamily) : NhKind :=
  match type with
  | .encap => .encap
  | .composite => .composite
  | .tunnel =>
    if flags &&& nhFlagTunnelGre ≠ 0 then .greTun
    else if flags &&& nhFlagTunnelUdp ≠ 0 then
      match family with
      | .inet => .udpTun
      | .inet6 => .udpTun6
      | .other => .none
    else if flags &&& nhFlagTunnelUdpMpls ≠ 0 ∨ flags &&& nhFlagTunnelVxlan ≠ 0 then .udpTun
    else .none
  | _ => .none

def NhObject.kind (nh : NhObject) : NhKind := nhKind nh.nhType nh.nhFlags nh.nhFamily

namespace UnionReq

/-- The components that a request names, as `nh_composite_add` writes them. -/
def components (req : UnionReq) (env : NhEnv) : List ComponentNh :=
  req.nhrNhList.zipIdx.map fun (id, i) =>
    ⟨req.nhrLabelList i, if req.nhrFlags &&& nhFlagCompositeEcmp ≠ 0 then i else -1, env.get id⟩

/-- The components that are there. -/
def active (req : UnionReq) (env : NhEnv) : List ComponentNh :=
  (req.components env).filter (·.cnh.isSome)

/-- The components pass `nh_composite_mcast_validate`. -/
def mcastValid (req : UnionReq) (env : NhEnv) : Bool :=
  nhCompositeMcastValidate req.nhrFlags ((req.components env).filterMap (·.cnh.map env.data))

/-- `vr_nexthop_size`, without the size of the structure itself. -/
def vrNexthopSize (req : UnionReq) : Nat :=
  if (req.nhrType = .encap ∨ req.nhrType = .tunnel) ∧ req.nhrEncap = true then req.nhrEncapSize
  else 0

def kind (req : UnionReq) : NhKind := nhKind req.nhrType req.nhrFlags req.nhrFamily

end UnionReq

namespace NhObject

/-! ## Freeing and reporting -/

/-- `vrouter_put_nexthop` of the last user, and `vrouter_free_nexthop`: how many arrays of the
nexthop are left when it is gone. -/
def vrouterFreeNexthop (nh : NhObject) : Except Fault Nat :=
  if nh.nhType = .composite then do
    let c ← nh.nhU.asComposite
    let _ ← readArray c.component c.cnt
    return nh.live - c.component.isSome.toNat - c.ecmpActive.isSome.toNat
  else if nh.nhType = .tunnel ∧ nh.nhFlags &&& nhFlagTunnelUdp ≠ 0 ∧ nh.nhFamily = .inet6 then do
    let (sip, dip, _) ← nh.nhU.asUdpTun6
    return nh.live - sip.toNat - dip.toNat
  else return nh.live

/-- `VR_NEXTHOP_COMPONENT_DUMP_LIMIT`. -/
def vrNexthopComponentDumpLimit : Nat := 16

/-- `vr_nexthop_make_req`: the length of the encapsulation and the components that are reported.
The addresses of a tunnel over IPv6 are copied from where the union says they are. -/
def vrNexthopMakeReq (dump : Bool) (nh : NhObject) : Except Fault (Nat × List ComponentNh) :=
  match nh.kind with
  | .none => return (0, [])
  | .composite => do
    let c ← nh.nhU.asComposite
    let size := if dump ∧ vrNexthopComponentDumpLimit < c.cnt then vrNexthopComponentDumpLimit
      else c.cnt
    return (0, ← readArray c.component size)
  | .udpTun6 => do
    let (sip, dip, len) ← nh.nhU.asUdpTun6
    if sip = false ∨ dip = false then throw .null
    else if nh.nhData < len then throw .bounds
    else return (len, [])
  | kind =>
    if nh.nhU ≠ .zero ∧ nh.nhU.kind ≠ kind then throw .variant
    else if nh.nhData < nh.nhU.encapLen then throw .bounds
    else return (nh.nhU.encapLen, [])

/-! ## Filling the union -/

/-- The copy of `nhr_encap` to `nh_data`. -/
def copyEncap (req : UnionReq) (size : Nat) (nh : NhObject) :
    Except Fault (Except Errno Unit × NhObject) :=
  if size = 0 then return (.ok (), nh)
  else if nh.nhData < size then throw .bounds
  else if req.nhrEncap = false then throw .null
  else return (.ok (), nh)

/-- `nh_encap_add`. -/
def nhEncapAdd (env : NhEnv) (req : UnionReq) (nh : NhObject) :
    Except Fault (Except Errno Unit × NhObject) :=
  if env.vif = false then return (.error .ENODEV, nh)
  else if req.nhrFlags &&& nhFlagEncapL2 ≠ 0 ∧ req.nhrEncapSize < 6 then
    return (.error .EINVAL, nh)
  else
    let len := req.nhrEncapSize % 2 ^ 16
    copyEncap req len { nh with nhU := .encap len }

/-- `nh_tunnel_add`. Memory that an earlier request got for the addresses is used again. -/
def nhTunnelAdd (env : NhEnv) (req : UnionReq) (nh : NhObject) :
    Except Fault (Except Errno Unit × NhObject) :=
  let len := req.nhrEncapSize % 2 ^ 16
  if (req.nhrFamily = .inet6 ∧ (req.nhrTunSip6 = false ∨ req.nhrTunDip6 = false)) ∨
      (req.nhrFamily ≠ .inet6 ∧ (req.nhrTunSip = 0 ∨ req.nhrTunDip = 0)) then
    return (.error .EINVAL, nh)
  else
    match nhKind .tunnel nh.nhFlags req.nhrFamily with
    | .greTun =>
      if env.vif = false then return (.error .ENODEV, nh)
      else copyEncap req req.nhrEncapSize { nh with nhU := .greTun len }
    | .udpTun =>
      -- `NH_FLAG_TUNNEL_UDP` does without an interface
      if nh.nhFlags &&& nhFlagTunnelUdp = 0 ∧ env.vif = false then return (.error .ENODEV, nh)
      else copyEncap req req.nhrEncapSize { nh with nhU := .udpTun len }
    | .udpTun6 => do
      let (sip, dip, old) ← nh.nhU.asUdpTun6
      if sip = false ∧ env.sip6 = false then return (.error .ENOMEM, nh)
      else if dip = false ∧ env.dip6 = false then
        return (.error .ENOMEM,
          { nh with nhU := .udpTun6 true dip old, live := nh.live + (!sip).toNat })
      else
        copyEncap req req.nhrEncapSize
          { nh with
            nhU := .udpTun6 true true len
            live := nh.live + (!sip).toNat + (!dip).toNat }
    | _ => return (.error .EINVAL, nh)

/-- The end of `nh_composite_add`, with the memory for the components at hand. -/
def nhCompositeFill (env : NhEnv) (req : UnionReq) (c : NhComposite) (nh : NhObject) :
    Except Errno Unit × NhObject :=
  let cs := req.components env
  let active := req.active env
  let c := { c with component := some cs, cnt := req.nhrNhList.length % 2 ^ 16 }
  -- the label `error`, with both arrays freed
  let undone := { c with component := none, cnt := 0, ecmpActive := none }
  if req.mcastValid env = false then
    (.error .EINVAL,
      { nh with nhU := .composite undone, live := nh.live - c.ecmpActive.isSome.toNat })
  else if req.nhrFlags &&& nhFlagCompositeL2 ≠ 0 ∨ req.nhrFlags &&& nhFlagCompositeEcmp = 0 ∨
      active = [] then
    (.ok (), { nh with nhU := .composite c, live := nh.live + 1 })
  else if env.ecmp = false then (.error .EINVAL, { nh with nhU := .composite undone })
  else
    (.ok (), { nh with
      nhU := .composite
        { c with ecmpActive := some active, ecmpCnt := active.length % 2 ^ 16 }
      live := nh.live + 2 })

/-- The start of `nh_composite_add`: the components of before go. The count of the active ones
stays. -/
def dropComponents (c : NhComposite) (nh : NhObject) :
    Except Fault (NhComposite × NhObject) :=
  if c.cnt ≠ 0 ∧ c.component.isSome then do
    let _ ← readArray c.component c.cnt
    let gone := { c with component := none, cnt := 0, ecmpActive := none }
    let live := nh.live - 1 - c.ecmpActive.isSome.toNat
    return (gone, { nh with nhU := .composite gone, live := live })
  else return (c, nh)

/-- The rest of `nh_composite_add`. -/
def replaceComponents (env : NhEnv) (req : UnionReq) (c : NhComposite) (nh : NhObject) :
    Except Errno Unit × NhObject :=
  if req.nhrNhList.length ≠ req.nhrLabelListSize then (.error .EINVAL, nh)
  else if req.nhrNhList = [] then (.ok (), nh)
  else if env.component = false then
    (.error .ENOMEM, { nh with nhU := .composite { c with component := none } })
  else nhCompositeFill env req c nh

/-- `nh_composite_add`. -/
def nhCompositeAdd (env : NhEnv) (req : UnionReq) (nh : NhObject) :
    Except Fault (Except Errno Unit × NhObject) := do
  let c ← nh.nhU.asComposite
  let (c, nh) ← dropComponents c nh
  return replaceComponents env req c nh

/-- The switch of `vr_nexthop_add`. -/
def nhTypeAdd (env : NhEnv) (req : UnionReq) (nh : NhObject) :
    Except Fault (Except Errno Unit × NhObject) :=
  match nh.nhType with
  | .encap => nh.nhEncapAdd env req
  | .tunnel => nh.nhTunnelAdd env req
  | .composite => nh.nhCompositeAdd env req
  | .rcv => return (if env.vif = false then .error .ENODEV else .ok (), nh)
  | .l2Rcv | .resolve | .discard | .vrfTranslate => return (.ok (), nh)
  | .dead => return (.error .EINVAL, nh)

/-- `vr_nexthop_valid_change`. -/
def vrNexthopValidChange (req : UnionReq) (nh : NhObject) : Bool :=
  req.nhrFlags &&& nhFlagValid = 0 ∨
    (req.nhrType = nh.nhType ∧ (req.nhrEncapSize = 0 ∨ req.nhrEncapSize = nh.nhDataSize))

/-- What `vr_nexthop_add` sets for every type. -/
def retype (req : UnionReq) (nh : NhObject) : NhObject :=
  { nh with nhType := req.nhrType, nhFlags := req.nhrFlags, nhFamily := req.nhrFamily }

end NhObject

namespace NhSlot

/-- The second half of `vr_nexthop_add`. A nexthop that cannot be set up is taken out of the table
(`nh_del`). -/
def cook (env : NhEnv) (req : UnionReq) (nh : NhObject) (s : NhSlot) : Except Fault NhSlot :=
  if req.nhrFlags &&& nhFlagValid = 0 then return { s with installed := some nh }
  else do
    match ← nh.nhTypeAdd env req with
    | (.ok (), nh) => return { s with installed := some nh }
    | (.error _, nh) => return ⟨none, nh :: s.removed⟩

/-- `vr_nexthop_add`, for an id and a type within range. -/
def vrNexthopAdd (env : NhEnv) (req : UnionReq) (s : NhSlot) : Except Fault NhSlot :=
  match s.installed with
  | none =>
    let size := req.vrNexthopSize
    if env.nexthop = false then return s
    else s.cook env req
      ⟨req.nhrType, req.nhrFlags, req.nhrFamily, size % 2 ^ 16, size, .zero, 0⟩
  | some nh =>
    if nh.vrNexthopValidChange req = false then return s else s.cook env req (nh.retype req)

/-- The nexthops there are, installed or not. -/
def nexthops (s : NhSlot) : List NhObject := s.installed.toList ++ s.removed

end NhSlot

/-- What can happen to an id. -/
inductive NhAction where
  | add (env : NhEnv) (req : UnionReq)
  | delete

/-- What an action does, unless it faults. -/
def NhSlot.step (s : NhSlot) : NhAction → Option NhSlot
  | .add env req => (s.vrNexthopAdd env req).toOption
  | .delete => some ⟨none, s.nexthops⟩

/-! ## What a change makes of a composite nexthop -/

/-- The number of components is recorded, and without components none are active. -/
structure NhComposite.Whole (c : NhComposite) : Prop where
  length : (c.component.getD []).length = c.cnt
  present : c.component.isSome = true ↔ 0 < c.cnt
  active : c.component = none → c.ecmpActive = none

/-- A request for an ECMP nexthop puts active components in place. -/
def UnionReq.InstallsActive (req : UnionReq) (env : NhEnv) : Prop :=
  req.nhrNhList.length = req.nhrLabelListSize ∧ env.component = true ∧ env.ecmp = true ∧
    req.mcastValid env = true ∧ req.active env ≠ []

/-- What `nh_composite_add` can make of a composite nexthop that counts `k` active components. -/
inductive CompositeFilled (env : NhEnv) (req : UnionReq) (k : Nat) : NhComposite → Prop
  | emptied : ¬ req.InstallsActive env → CompositeFilled env req k ⟨0, k, none, none⟩
  | plain : (req.nhrFlags &&& nhFlagCompositeL2 ≠ 0 ∨ req.nhrFlags &&& nhFlagCompositeEcmp = 0 ∨
        req.active env = []) → req.nhrNhList ≠ [] →
      CompositeFilled env req k ⟨req.nhrNhList.length % 2 ^ 16, k, some (req.components env), none⟩
  | active : req.active env ≠ [] → req.nhrNhList ≠ [] →
      CompositeFilled env req k ⟨req.nhrNhList.length % 2 ^ 16, (req.active env).length % 2 ^ 16,
        some (req.components env), some (req.active env)⟩

section

variable {env : NhEnv} {req : UnionReq} {nh : NhObject} {c : NhComposite} {k : Nat}

@[simp] theorem UnionReq.components_length :
    (req.components env).length = req.nhrNhList.length := by
  simp [UnionReq.components]

theorem NhComposite.Whole.readArray_ok {c : NhComposite} (hw : c.Whole) {n : Nat}
    (hn : n ≤ c.cnt) : ∃ l, readArray c.component n = .ok l := by
  unfold readArray
  split_ifs with hzero
  · exact ⟨[], rfl⟩
  cases hcomp : c.component with
  | none =>
    have hpos := hw.present.mpr (by omega)
    rw [hcomp] at hpos
    cases hpos
  | some l =>
    have hlength := hw.length
    rw [hcomp] at hlength
    exact ⟨l.take n, if_pos (hlength ▸ hn)⟩

namespace NhObject

theorem nhCompositeFill_filled (hlive : nh.live = 0) (hne : req.nhrNhList ≠ []) :
    ∃ r c', nhCompositeFill env req ⟨0, k, none, none⟩ nh =
        (r, { nh with nhU := .composite c', live := (NhUnion.composite c').owned }) ∧
      CompositeFilled env req k c' := by
  dsimp only [nhCompositeFill]
  rw [hlive]
  split_ifs with hvalid hplain hecmp
  · exact ⟨_, _, rfl, .emptied fun h => by simp [h.2.2.2.1] at hvalid⟩
  · exact ⟨_, _, rfl, .plain hplain hne⟩
  · exact ⟨_, _, rfl, .emptied fun h => by simp [h.2.2.1] at hecmp⟩
  · exact ⟨_, _, rfl, .active (fun h => hplain (.inr (.inr h))) hne⟩

/-- The components of before are gone, and so is all that was allocated for them. -/
theorem dropComponents_eq (hu : nh.nhU.asComposite = .ok c) (hw : c.Whole)
    (hlive : nh.live = nh.nhU.owned) :
    ∃ u : NhUnion, u.asComposite = .ok ⟨0, c.ecmpCnt, none, none⟩ ∧ u.owned = 0 ∧
      dropComponents c nh =
        .ok (⟨0, c.ecmpCnt, none, none⟩, { nh with nhU := u, live := 0 }) := by
  unfold dropComponents
  split_ifs with hgone
  · obtain ⟨l, hl⟩ := hw.readArray_ok le_rfl
    refine ⟨.composite ⟨0, c.ecmpCnt, none, none⟩, rfl, rfl, ?_⟩
    have howned : nh.nhU.owned = 1 + c.ecmpActive.isSome.toNat := by
      cases hnhu : nh.nhU <;> rw [hnhu] at hu <;> cases hu
      · exact absurd rfl hgone.1
      · rw [NhUnion.owned, hgone.2]
        rfl
    rw [hl, hlive, howned, Nat.add_sub_cancel_left, Nat.sub_self]
    rfl
  · have hnone : c.component = none := by
      by_contra hsome
      have hpos := hw.present.mp (Option.isSome_iff_ne_none.mpr hsome)
      exact hgone ⟨by omega, Option.isSome_iff_ne_none.mpr hsome⟩
    have hlength := hw.length
    have hactive := hw.active hnone
    obtain ⟨cnt, k, component, ecmpActive⟩ := c
    cases hnone
    cases hactive
    cases hlength
    have howned : nh.nhU.owned = 0 := by
      cases hnhu : nh.nhU <;> rw [hnhu] at hu <;> cases hu <;> rfl
    have hnh : nh = { nh with nhU := nh.nhU, live := 0 } := by rw [← howned, ← hlive]
    exact ⟨nh.nhU, hu, howned, congrArg (fun nh => Except.ok (_, nh)) hnh⟩

theorem replaceComponents_filled (hu : nh.nhU.asComposite = .ok ⟨0, k, none, none⟩)
    (howned : nh.nhU.owned = 0) (hlive : nh.live = 0) :
    ∃ r u c', replaceComponents env req ⟨0, k, none, none⟩ nh =
        (r, { nh with nhU := u, live := u.owned }) ∧
      u.asComposite = .ok c' ∧ CompositeFilled env req k c' := by
  have hnh : nh = { nh with nhU := nh.nhU, live := nh.nhU.owned } := by rw [howned, ← hlive]
  unfold replaceComponents
  split_ifs with hsize hnil hcomp
  · exact ⟨_, nh.nhU, _, congrArg _ hnh, hu, .emptied fun h => hsize h.1⟩
  · refine ⟨_, nh.nhU, _, congrArg _ hnh, hu, .emptied fun h => h.2.2.2.2 ?_⟩
    rw [UnionReq.active, UnionReq.components, hnil]
    rfl
  · refine ⟨.error .ENOMEM, .composite ⟨0, k, none, none⟩, _, ?_, rfl, .emptied fun h => ?_⟩
    · rw [hlive]
      rfl
    · simp [h.2.1] at hcomp
  · obtain ⟨r, c', heq, hfilled⟩ := nhCompositeFill_filled hlive hnil
    exact ⟨r, _, c', heq, rfl, hfilled⟩

/-- **`nh_composite_add` on a nexthop with its components in order.** It never faults, and what is
allocated afterwards is what the union has pointers to. -/
theorem nhCompositeAdd_filled (hu : nh.nhU.asComposite = .ok c) (hw : c.Whole)
    (hlive : nh.live = nh.nhU.owned) :
    ∃ r u c', nh.nhCompositeAdd env req = .ok (r, { nh with nhU := u, live := u.owned }) ∧
      u.asComposite = .ok c' ∧ CompositeFilled env req c.ecmpCnt c' := by
  obtain ⟨u, hu', howned, hdrop⟩ := dropComponents_eq hu hw hlive
  obtain ⟨r, u', c', heq, hc', hfilled⟩ :=
    @replaceComponents_filled env req { nh with nhU := u, live := 0 } _ hu' howned rfl
  refine ⟨r, u', c', ?_, hc', hfilled⟩
  rw [nhCompositeAdd, hu]
  show (dropComponents c nh >>= _) = _
  rw [hdrop]
  exact congrArg Except.ok heq

end NhObject

theorem CompositeFilled.whole (h : CompositeFilled env req k c)
    (hlen : req.nhrNhList.length < 2 ^ 16) : c.Whole := by
  have hmod := Nat.mod_eq_of_lt hlen
  cases h with
  | emptied => exact ⟨rfl, by simp, fun _ => rfl⟩
  | plain _ hne | active _ hne =>
    refine ⟨UnionReq.components_length.trans hmod.symm, ?_, nofun⟩
    rw [hmod]
    exact iff_of_true rfl (List.length_pos_iff.mpr hne)

/-! ## What requests that keep the variant preserve -/

/-- The type, flags and family say which variant was written last, what was allocated for it is what
it has pointers to, and `nh_data` has room for the encapsulation. -/
structure NhObject.Sound (nh : NhObject) : Prop where
  kind : nh.nhU = .zero ∨ nh.nhU.kind = nh.kind
  tunnel : nh.nhFlags &&& nhFlagTunnelGre = 0 ∨ nh.nhFlags &&& nhFlagTunnelUdp = 0
  live : nh.live = nh.nhU.owned
  encapLen : nh.nhU.encapLen ≤ nh.nhData
  dataSize : nh.nhDataSize ≤ nh.nhData
  components : ∀ c, nh.nhU.asComposite = .ok c → c.Whole

/-- What comes out meets the condition, or a null pointer was followed. -/
def Safe {α : Type} (P : α → Prop) : Except Fault α → Prop
  | .error f => f = .null
  | .ok a => P a

/-- The nexthop that a change returns is sound. -/
def SoundAfter (r : Except Errno Unit × NhObject) : Prop := r.2.Sound

namespace NhObject

section

variable (h : nh.Sound)
include h

theorem Sound.asComposite (hkind : nh.kind = .composite) : ∃ c, nh.nhU.asComposite = .ok c := by
  rcases h.kind with hu | hu
  · exact ⟨_, by rw [hu]; rfl⟩
  · rw [hkind] at hu
    cases hnhu : nh.nhU <;> rw [hnhu] at hu <;> cases hu
    exact ⟨_, rfl⟩

theorem Sound.asUdpTun6 (hkind : nh.kind = .udpTun6) :
    ∃ sip dip len, nh.nhU.asUdpTun6 = .ok (sip, dip, len) ∧ nh.live = sip.toNat + dip.toNat ∧
      len ≤ nh.nhData := by
  have hlive := h.live
  have hlen := h.encapLen
  rcases h.kind with hu | hu
  · rw [hu] at hlive
    exact ⟨false, false, 0, by rw [hu]; rfl, hlive, Nat.zero_le _⟩
  · rw [hkind] at hu
    cases hnhu : nh.nhU <;> rw [hnhu] at hu hlive hlen <;> cases hu
    exact ⟨_, _, _, rfl, hlive, hlen⟩

theorem Sound.write {u : NhUnion} (hu : u.kind = nh.kind)
    (hkind : u.kind = .encap ∨ u.kind = .greTun ∨ u.kind = .udpTun)
    (hlen : u.encapLen ≤ nh.nhData) : { nh with nhU := u }.Sound := by
  have hplain : ∀ v : NhUnion, v = .zero ∨ v.kind = u.kind → v.owned = 0 := by
    rintro v (rfl | hv)
    · rfl
    · rw [← hv] at hkind
      cases v <;> simp [NhUnion.kind] at hkind <;> rfl
  refine ⟨.inr hu, h.tunnel, ?_, hlen, h.dataSize, fun c hc => ?_⟩
  · rw [hplain u (.inr rfl)]
    exact h.live.trans (hplain nh.nhU (hu ▸ h.kind))
  · cases u <;> simp [NhUnion.kind] at hkind <;> cases hc

theorem Sound.writeTun6 (hkind : nh.kind = .udpTun6) {sip dip : Bool} {len : Nat}
    (hlen : len ≤ nh.nhData) :
    { nh with nhU := .udpTun6 sip dip len, live := sip.toNat + dip.toNat }.Sound :=
  ⟨.inr hkind.symm, h.tunnel, rfl, hlen, h.dataSize, nofun⟩

theorem copyEncap_safe {size : Nat} (hsize : size ≤ nh.nhData) :
    Safe SoundAfter (copyEncap req size nh) := by
  unfold copyEncap
  split_ifs with hzero hlt hnull
  · exact h
  · omega
  · rfl
  · exact h

theorem nhEncapAdd_safe (hkind : nh.kind = .encap)
    (hfit : req.nhrEncapSize ≤ nh.nhData) : Safe SoundAfter (nh.nhEncapAdd env req) := by
  have hlen := (Nat.mod_le req.nhrEncapSize (2 ^ 16)).trans hfit
  unfold nhEncapAdd
  split_ifs
  · exact h
  · exact h
  · exact copyEncap_safe (h.write (u := .encap _) hkind.symm (.inl rfl) hlen) hlen

theorem nhTunnelAdd_safe (htype : nh.nhType = .tunnel) (hfamily : req.nhrFamily = nh.nhFamily)
    (hfit : req.nhrEncapSize ≤ nh.nhData) : Safe SoundAfter (nh.nhTunnelAdd env req) := by
  have hlen := (Nat.mod_le req.nhrEncapSize (2 ^ 16)).trans hfit
  have hkind : nhKind .tunnel nh.nhFlags req.nhrFamily = nh.kind := by
    rw [kind, htype, hfamily]
  dsimp only [nhTunnelAdd]
  rw [hkind]
  split
  · exact h
  cases hk : nh.kind with
  | greTun =>
    dsimp only
    split_ifs
    · exact h
    · exact copyEncap_safe (h.write (u := .greTun _) hk.symm (.inr (.inl rfl)) hlen) hfit
  | udpTun =>
    dsimp only
    split_ifs
    · exact h
    · exact copyEncap_safe (h.write (u := .udpTun _) hk.symm (.inr (.inr rfl)) hlen) hfit
  | udpTun6 =>
    obtain ⟨sip, dip, old, hu, hlive, hold⟩ := h.asUdpTun6 hk
    rw [hu]
    have hcount : ∀ b : Bool, b.toNat + (!b).toNat = 1 := by decide
    show Safe _ (if _ then _ else _)
    split_ifs with hsip hdip
    · exact h
    · have hlive' : nh.live + (!sip).toNat = true.toNat + dip.toNat := by
        rw [hlive, Nat.add_right_comm, hcount]
        rfl
      rw [hlive']
      exact h.writeTun6 hk hold
    · have hlive' : nh.live + (!sip).toNat + (!dip).toNat = true.toNat + true.toNat := by
        rw [hlive, Nat.add_right_comm sip.toNat, hcount, Nat.add_assoc, hcount]
        rfl
      rw [hlive']
      exact copyEncap_safe (h.writeTun6 hk hlen) hfit
  | none | encap | composite => exact h

theorem nhCompositeAdd_safe (htype : nh.nhType = .composite)
    (hlist : req.nhrNhList.length < 2 ^ 16) : Safe SoundAfter (nh.nhCompositeAdd env req) := by
  have hkind : nh.kind = .composite := by
    rw [kind, htype]
    rfl
  obtain ⟨c, hc⟩ := h.asComposite hkind
  obtain ⟨r, u, c', heq, hc', hfilled⟩ :=
    @nhCompositeAdd_filled env req nh c hc (h.components c hc) h.live
  rw [heq]
  have hzero : u.encapLen = 0 ∧ (u = .zero ∨ u.kind = .composite) := by
    cases u <;> cases hc' <;> simp [NhUnion.encapLen, NhUnion.kind]
  refine ⟨hkind ▸ hzero.2, h.tunnel, rfl, hzero.1 ▸ Nat.zero_le _, h.dataSize, fun c hu => ?_⟩
  have heq : c' = c := Except.ok.inj (hc'.symm.trans hu)
  exact heq ▸ hfilled.whole hlist

/-- **A valid request keeps the nexthop sound.** -/
theorem nhTypeAdd_safe (hfamily : req.nhrFamily = nh.nhFamily)
    (hlist : req.nhrNhList.length < 2 ^ 16)
    (hfit : nh.nhType = .encap ∨ nh.nhType = .tunnel → req.nhrEncapSize ≤ nh.nhData) :
    Safe SoundAfter (nh.nhTypeAdd env req) := by
  unfold nhTypeAdd
  split
  · rename_i htype
    exact nhEncapAdd_safe h (by rw [kind, htype]; rfl) (hfit (.inl htype))
  · rename_i htype
    exact nhTunnelAdd_safe h htype hfamily (hfit (.inr htype))
  · rename_i htype
    exact nhCompositeAdd_safe h htype hlist
  all_goals exact h

end

/-- The two kinds that have pointers are the two that `vrouter_free_nexthop` looks for. -/
theorem type_of_kind (h : nh.kind = .composite ∨ nh.kind = .udpTun6) :
    nh.nhType = .composite ∨
      nh.nhType = .tunnel ∧ nh.nhFlags &&& nhFlagTunnelUdp ≠ 0 ∧ nh.nhFamily = .inet6 := by
  unfold NhObject.kind nhKind at h
  grind

/-- All that was allocated for a nexthop goes with it. -/
theorem Sound.vrouterFreeNexthop (h : nh.Sound) : nh.vrouterFreeNexthop = .ok 0 := by
  have hlive := h.live
  unfold NhObject.vrouterFreeNexthop
  split_ifs with hcomp htun
  · obtain ⟨c, hc⟩ := h.asComposite (by rw [NhObject.kind, hcomp]; rfl)
    obtain ⟨l, hl⟩ := (h.components c hc).readArray_ok le_rfl
    have howned : nh.nhU.owned = c.component.isSome.toNat + c.ecmpActive.isSome.toNat := by
      cases hu : nh.nhU <;> rw [hu] at hc <;> cases hc <;> rfl
    rw [hc]
    show (readArray c.component c.cnt >>= _) = _
    rw [hl]
    exact congrArg Except.ok (by omega)
  · have hgre := h.tunnel.resolve_right htun.2.1
    have hkind : nh.kind = .udpTun6 := by
      simp [NhObject.kind, nhKind, htun, hgre]
    obtain ⟨sip, dip, len, hu, hlive, -⟩ := h.asUdpTun6 hkind
    rw [hu]
    exact congrArg Except.ok (by omega)
  · rcases h.kind with hu | hu
    · rw [hlive, hu]
      rfl
    have hnot : ¬ (nh.kind = .composite ∨ nh.kind = .udpTun6) :=
      fun hkind => (type_of_kind hkind).elim hcomp htun
    rw [← hu] at hnot
    rw [hlive]
    cases hnhu : nh.nhU <;> rw [hnhu] at hnot <;> simp [NhUnion.kind] at hnot <;> rfl

/-- A report stops at nothing but the missing addresses of a tunnel that was never valid. -/
theorem Sound.vrNexthopMakeReq (h : nh.Sound) {dump : Bool} {f : Fault}
    (hf : nh.vrNexthopMakeReq dump = .error f) : f = .null := by
  have hlen : ¬ nh.nhData < nh.nhU.encapLen := Nat.not_lt.mpr h.encapLen
  unfold NhObject.vrNexthopMakeReq at hf
  split at hf
  · cases hf
  · rename_i hkind
    obtain ⟨c, hc⟩ := h.asComposite hkind
    have hsize : (if dump ∧ vrNexthopComponentDumpLimit < c.cnt then vrNexthopComponentDumpLimit
        else c.cnt) ≤ c.cnt := by
      split <;> omega
    obtain ⟨l, hl⟩ := (h.components c hc).readArray_ok hsize
    rw [hc] at hf
    change (readArray c.component _ >>= _) = _ at hf
    rw [hl] at hf
    cases hf
  · rename_i hkind
    obtain ⟨sip, dip, len, hu, -, hlen⟩ := h.asUdpTun6 hkind
    rw [hu] at hf
    change (if _ then _ else if _ then _ else _) = _ at hf
    rw [if_neg (Nat.not_lt.mpr hlen)] at hf
    split_ifs at hf
    · cases hf
      rfl
    · cases hf
  · rw [if_neg, if_neg hlen] at hf
    · cases hf
    · rintro ⟨hne, hkind⟩
      exact hkind (h.kind.resolve_left hne)

/-- The union of a nexthop that keeps its kind is named by what it is changed to. -/
theorem Sound.retype (h : nh.Sound) (hk : nh.nhU = .zero ∨ nh.kind = req.kind)
    (htun : req.nhrFlags &&& nhFlagTunnelGre = 0 ∨ req.nhrFlags &&& nhFlagTunnelUdp = 0) :
    (nh.retype req).Sound where
  kind := by
    rcases hk with hzero | hk
    · exact .inl hzero
    · exact h.kind.imp_right fun hu => hu.trans hk
  tunnel := htun
  live := h.live
  encapLen := h.encapLen
  dataSize := h.dataSize
  components := h.components

end NhObject

namespace NhSlot

def Sound (s : NhSlot) : Prop := ∀ nh ∈ s.nexthops, nh.Sound

/-- A request keeps the variant of the nexthop that is installed, unless no variant was written yet.
Its flags are for one tunnel, the bytes of the encapsulation come with their number, and the number
of components fits 16 bits. -/
def KeepsVariant (s : NhSlot) : NhAction → Prop
  | .delete => True
  | .add _ req =>
    (∀ nh, s.installed = some nh → nh.nhU = .zero ∨ nh.kind = req.kind) ∧
      (req.nhrFlags &&& nhFlagTunnelGre = 0 ∨ req.nhrFlags &&& nhFlagTunnelUdp = 0) ∧
      (req.nhrEncapSize ≠ 0 → req.nhrEncap = true) ∧ req.nhrNhList.length < 2 ^ 16

variable {s s' : NhSlot}

theorem cook_sound (hs : ∀ nh ∈ s.removed, nh.Sound) (hnh : nh.Sound)
    (htype : req.nhrType = nh.nhType) (hfamily : req.nhrFamily = nh.nhFamily)
    (hlist : req.nhrNhList.length < 2 ^ 16)
    (hfit : req.nhrFlags &&& nhFlagValid ≠ 0 → req.nhrType = .encap ∨ req.nhrType = .tunnel →
      req.nhrEncapSize ≤ nh.nhData) : Safe Sound (s.cook env req nh) := by
  unfold cook
  split_ifs with hvalid
  · exact List.forall_mem_cons.mpr ⟨hnh, hs⟩
  have hsafe : Safe SoundAfter (nh.nhTypeAdd env req) :=
    NhObject.nhTypeAdd_safe hnh hfamily hlist (htype ▸ hfit hvalid)
  generalize nh.nhTypeAdd env req = r at hsafe ⊢
  rcases r with f | ⟨⟨e⟩ | ⟨⟩, nh'⟩
  · exact hsafe
  · exact List.forall_mem_cons.mpr ⟨hsafe, hs⟩
  · exact List.forall_mem_cons.mpr ⟨hsafe, hs⟩

/-- **What one request does.** It faults at null pointers only, and leaves every nexthop sound. -/
theorem vrNexthopAdd_sound (h : s.Sound) (hk : s.KeepsVariant (.add env req)) :
    Safe Sound (s.vrNexthopAdd env req) := by
  obtain ⟨hkeep, htun, hencap, hlist⟩ := hk
  have hremoved : ∀ nh ∈ s.removed, nh.Sound := fun nh hnh => h nh (List.mem_append_right _ hnh)
  unfold vrNexthopAdd
  cases hinst : s.installed with
  | none =>
    dsimp only
    split
    · exact h
    refine cook_sound hremoved ⟨.inl rfl, htun, rfl, Nat.zero_le _, Nat.mod_le _ _, ?_⟩ rfl rfl
      hlist fun _ htype => ?_
    · rintro c ⟨⟩
      exact ⟨rfl, by simp, fun _ => rfl⟩
    · by_cases hzero : req.nhrEncapSize = 0
      · rw [hzero]
        exact Nat.zero_le _
      · exact (if_pos ⟨htype, hencap hzero⟩).ge
  | some nh =>
    have hnh : nh.Sound := h nh (by simp [nexthops, hinst])
    dsimp only
    split_ifs with hchange
    · exact h
    refine cook_sound hremoved (hnh.retype (hkeep nh hinst) htun) rfl rfl hlist
      fun hvalid _ => ?_
    have hsize : req.nhrEncapSize = 0 ∨ req.nhrEncapSize = nh.nhDataSize := by
      simp [NhObject.vrNexthopValidChange, hvalid] at hchange
      exact or_iff_not_imp_left.mpr hchange.2
    have := hnh.dataSize
    show req.nhrEncapSize ≤ nh.nhData
    omega

theorem step_sound {a : NhAction} (h : s.Sound) (hk : s.KeepsVariant a)
    (hstep : s.step a = some s') : s'.Sound := by
  cases a with
  | delete =>
    cases hstep
    exact h
  | add env req =>
    have hsafe := vrNexthopAdd_sound h hk
    simp only [step] at hstep
    cases hadd : s.vrNexthopAdd env req <;> rw [hadd] at hstep hsafe <;> cases hstep
    exact hsafe

end NhSlot

/-- **Requests that keep the variant of the union.** Along every run of them, what a nexthop is
freed, changed and reported as is what was written last: nothing is read as another variant, all
arrays are freed with the nexthop, and no encapsulation is longer than the memory there is for
it. -/
theorem union_variant_kept {as : List NhAction} {s : NhSlot}
    (hok : StepsMeet NhSlot.step NhSlot.KeepsVariant ⟨none, []⟩ as)
    (hrun : runSteps NhSlot.step ⟨none, []⟩ as = some s) :
    (∀ nh ∈ s.nexthops, (nh.nhU = .zero ∨ nh.nhU.kind = nh.kind) ∧ nh.live = nh.nhU.owned ∧
      nh.vrouterFreeNexthop = .ok 0 ∧ nh.nhU.encapLen ≤ nh.nhData ∧
      ∀ dump f, nh.vrNexthopMakeReq dump = .error f → f ≠ .variant ∧ f ≠ .bounds) ∧
    ∀ env req f, s.KeepsVariant (.add env req) → s.vrNexthopAdd env req = .error f →
      f ≠ .variant ∧ f ≠ .bounds := by
  have hs : s.Sound := runSteps_invariant_of_meet
    (fun s a s' h hk hstep => NhSlot.step_sound h hk hstep)
    (by simp [NhSlot.Sound, NhSlot.nexthops]) hok hrun
  refine ⟨fun nh hnh => ?_, fun env req f hk hf => ?_⟩
  · have h := hs nh hnh
    refine ⟨h.kind, h.live, h.vrouterFreeNexthop, h.encapLen, fun dump f hf => ?_⟩
    rw [h.vrNexthopMakeReq hf]
    exact ⟨nofun, nofun⟩
  · have hsafe := NhSlot.vrNexthopAdd_sound hs hk
    rw [hf] at hsafe
    cases hsafe
    exact ⟨nofun, nofun⟩

/-- An environment in which every allocation succeeds and nexthop 1 is an encapsulation. -/
def unionEnv : NhEnv where
  nexthop := true
  component := true
  ecmp := true
  sip6 := true
  dip6 := true
  vif := true
  get := fun id => if id = 1 then some ⟨1, 1, .encap⟩ else none
  data := fun nh => ⟨nh.nhType, nhFlagValid, 0⟩

/-- A request of a type, with some flags, family, size of the encapsulation and components. -/
def unionReq (type : NhType) (flags : Nat) (family : AddressFamily) (encapSize : Nat)
    (list : List Nat) : UnionReq where
  nhrId := 5
  nhrType := type
  nhrFlags := flags
  nhrEncapSize := encapSize
  nhrNhList := list
  nhrLabelListSize := list.length
  nhrFamily := family
  nhrEncap := true
  nhrLabelList := fun i => 100 + i
  nhrTunSip := 0x0a000001
  nhrTunDip := 0x0a000002
  nhrTunSip6 := true
  nhrTunDip6 := true

/-- A GRE tunnel, which is then marked invalid. -/
def greActions : List NhAction :=
  [.add unionEnv (unionReq .tunnel (nhFlagValid ||| nhFlagTunnelGre) .inet 14 []),
    .add unionEnv (unionReq .tunnel nhFlagTunnelGre .inet 14 [])]

theorem union_variant_kept_gre :
    ∃ s, runSteps NhSlot.step ⟨none, []⟩ greActions = some s ∧
      ∀ nh ∈ s.nexthops, nh.vrouterFreeNexthop = .ok 0 := by
  refine ⟨_, rfl, fun nh hnh => ((@union_variant_kept greActions _ ?_ rfl).1 nh hnh).2.2.1⟩
  refine stepsMeet_cons rfl ⟨nofun, by decide, fun _ => rfl, by decide⟩ ?_
  refine stepsMeet_cons rfl ⟨fun nh hnh => .inr ?_, by decide, fun _ => rfl, by decide⟩ trivial
  cases hnh
  rfl

/-- Requests without `NH_FLAG_VALID` make another type of a nexthop. The bytes of a GRE tunnel are
then taken for the components of a composite nexthop, and the arrays of a composite nexthop are
nobody's. A valid request that makes a tunnel over IPv6 of a GRE tunnel takes its addresses for
pointers. -/
theorem union_variant_mixed :
    let after := fun reqs => runSteps NhSlot.step ⟨none, []⟩ (reqs.map (.add unionEnv))
    let free := fun s : NhSlot => s.nexthops.map NhObject.vrouterFreeNexthop
    let gre := unionReq .tunnel (nhFlagValid ||| nhFlagTunnelGre) .inet 14 []
    let ecmp := unionReq .composite (nhFlagValid ||| nhFlagCompositeEcmp) .inet 0 [1]
    let udp6 := unionReq .tunnel (nhFlagValid ||| nhFlagTunnelUdp) .inet6 14 []
    (after [gre, unionReq .composite 0 .inet 0 []]).map free = some [.error .variant] ∧
      (after [ecmp, unionReq .rcv 0 .inet 0 []]).map free = some [.ok 2] ∧
      (after [gre]).map (·.vrNexthopAdd unionEnv udp6) = some (.error .variant) :=
  ⟨rfl, rfl, rfl⟩

end

end VRouter
