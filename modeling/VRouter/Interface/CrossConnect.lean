import VRouter.Interface.Service

/-!
# VRouter — cross-connect links

A host interface is linked with the interface named by its request, and each of the two points to
the other (`vif_bridge`). `vrouter_add_interface` writes both pointers without a look at the old
ones, and `vrouter_del_interface` clears them for host and physical interfaces only.

* `cross_connects_symmetric` — the links are symmetric and never dangling, if host interfaces are
  added on a host or physical interface without a partner.
-/

namespace VRouter

open Function

/-- The types whose links `vrouter_del_interface` clears. -/
abbrev VifType.CrossConnects (type : VifType) : Prop := type = .host ∨ type = .physical

/-- The fields of `struct vr_interface` that do not change. -/
structure LinkVif where
  vifType : VifType
  vifIdx : Nat
  vifOsIdx : BitVec 32

/-- The interface table. Interfaces are named by their address, and `next` is that of the next one
allocated. -/
structure LinkRouter where
  vrMaxInterfaces : Nat
  vrInterfaces : Nat → Option Nat := fun _ => none
  vif : Nat → LinkVif := fun _ => ⟨.host, 0, 0⟩
  vifBridge : Nat → Option Nat := fun _ => none
  freed : Nat → Bool := fun _ => false
  next : Nat := 0

/-- A `vr_interface_req`, and how the rest of `vr_interface_add` ends: `prepared` if all before
`vrouter_add_interface` succeeds, or `vr_interface_change` for an installed interface. -/
structure LinkReq where
  vifrType : VifType
  vifrIdx : Nat
  vifrOsIdx : BitVec 32
  vifrCrossConnectIdx : BitVec 32
  prepared : Bool
  drvAdd : Bool

namespace LinkRouter

/-- `__vrouter_get_interface_os`. -/
def vrouterGetInterfaceOs (r : LinkRouter) (osIdx : BitVec 32) : Option Nat :=
  (List.range r.vrMaxInterfaces).findSome? fun i =>
    (r.vrInterfaces i).filter fun a => (r.vif a).vifOsIdx == osIdx

/-- `vrouter_add_interface`, for the new interface `vif`. -/
def vrouterAddInterface (r : LinkRouter) (vif : LinkVif) (crossConnectIdx : BitVec 32) :
    LinkRouter × Except Errno Unit :=
  let a := r.next
  let r' := { r with
    vrInterfaces := update r.vrInterfaces vif.vifIdx (some a)
    vif := update r.vif a vif
    next := a + 1 }
  if (r.vrInterfaces vif.vifIdx).isSome then (r, .error .EEXIST)
  else if vif.vifType = .host then
    if crossConnectIdx.toInt < 0 then (r, .error .EINVAL)
    else
      match r.vrouterGetInterfaceOs crossConnectIdx with
      | none => (r, .error .ENODEV)
      | some eth =>
        let bridge := update (update r.vifBridge a (some eth)) eth (some a)
        ({ r' with vifBridge := bridge }, .ok ())
  else (r', .ok ())

/-- `vrouter_del_interface`. -/
def vrouterDelInterface (r : LinkRouter) (a : Nat) : LinkRouter :=
  let vif := r.vif a
  let r' := { r with vrInterfaces := update r.vrInterfaces vif.vifIdx none }
  if vif.vifIdx ≥ r.vrMaxInterfaces ∨ r.vrInterfaces vif.vifIdx ≠ some a then r
  else if vif.vifType.CrossConnects then
    match r.vifBridge a with
    | some b =>
      { r' with vifBridge := update (update r.vifBridge b none) a none }
    | none => r'
  else r'

/-- `vr_interface_add`. -/
def vrInterfaceAdd (r : LinkRouter) (req : LinkReq) : LinkRouter :=
  if req.vifrIdx ≥ r.vrMaxInterfaces then r
  else
    match r.vrInterfaces req.vifrIdx with
    | some a =>
      -- an interface whose change fails is freed and stays in the table
      if req.prepared then r
      else { r with freed := update r.freed a true }
    | none =>
      if !req.prepared then r
      else
        let osIdx := if req.vifrOsIdx = -1 then 0 else req.vifrOsIdx
        match r.vrouterAddInterface ⟨req.vifrType, req.vifrIdx, osIdx⟩ req.vifrCrossConnectIdx with
        | (r', .error _) => r'
        | (r', .ok _) => if req.drvAdd then r' else r'.vrouterDelInterface r.next

/-- `vr_interface_delete`. -/
def vrInterfaceDelete (r : LinkRouter) (idx : Nat) : LinkRouter :=
  match r.vrInterfaces idx with
  | some a => r.vrouterDelInterface a
  | none => r

end LinkRouter

/-- Adds, which change an interface that is installed, and deletes. -/
inductive LinkAction where
  | add (req : LinkReq)
  | delete (idx : Nat)

namespace LinkRouter

def step (r : LinkRouter) : LinkAction → LinkRouter
  | .add req => r.vrInterfaceAdd req
  | .delete idx => r.vrInterfaceDelete idx

def Installed (r : LinkRouter) (a : Nat) : Prop := r.vrInterfaces (r.vif a).vifIdx = some a

/-- No change fails, and a host interface is added on a host or physical interface that has no
partner. -/
def Allowed (r : LinkRouter) : LinkAction → Prop
  | .delete _ => True
  | .add req => ((r.vrInterfaces req.vifrIdx).isSome = true → req.prepared = true) ∧
      (req.vifrType = .host → ∀ eth ∈ r.vrouterGetInterfaceOs req.vifrCrossConnectIdx,
        r.vifBridge eth = none ∧ (r.vif eth).vifType.CrossConnects)

/-- Every action of a run is allowed when its turn comes. -/
def AllAllowed : LinkRouter → List LinkAction → Prop
  | _, [] => True
  | r, a :: as => r.Allowed a ∧ (r.step a).AllAllowed as

/-! ## The invariant -/

/-- A partner is installed and linked back, and the links are cleared with either of the two. -/
structure Inv (r : LinkRouter) : Prop where
  entry : ∀ i a, r.vrInterfaces i = some a →
    (r.vif a).vifIdx = i ∧ i < r.vrMaxInterfaces ∧ a < r.next ∧ r.freed a = false
  link : ∀ a b, r.Installed a → r.vifBridge a = some b →
    r.Installed b ∧ r.vifBridge b = some a ∧ (r.vif a).vifType.CrossConnects
  unused : ∀ a, r.next ≤ a → r.vifBridge a = none ∧ r.freed a = false

variable {r : LinkRouter} {a : Nat}

theorem Inv.installed (h : r.Inv) {i : Nat} (ha : r.vrInterfaces i = some a) : r.Installed a := by
  rw [Installed, (h.entry i a ha).1, ha]

/-- A link is cleared on both sides. -/
theorem Inv.delete (h : r.Inv) (ha : r.Installed a) :
    (r.vrouterDelInterface a).Inv ∧ ¬ (r.vrouterDelInterface a).Installed a := by
  obtain ⟨hentry, hlink, hunused⟩ := h
  unfold vrouterDelInterface
  rw [if_neg (by grind [Installed])]
  cases hbridge : r.vifBridge a with
  | none =>
    simp only [ite_self]
    refine ⟨⟨?_, ?_, hunused⟩, ?_⟩ <;> grind [update_apply, Installed]
  | some b =>
    rw [if_pos (hlink a b ha hbridge).2.2]
    refine ⟨⟨?_, ?_, ?_⟩, ?_⟩ <;> grind [update_apply, Installed]

/-- A new interface is linked with its partner, which was not linked before, or has none. -/
theorem Inv.add (h : r.Inv) {vif : LinkVif} (hmax : vif.vifIdx < r.vrMaxInterfaces)
    (hfree : r.vrInterfaces vif.vifIdx = none) {x : BitVec 32}
    (hhost : vif.vifType = .host → ∀ eth ∈ r.vrouterGetInterfaceOs x,
      r.vifBridge eth = none ∧ (r.vif eth).vifType.CrossConnects) :
    ∃ r' ret, r.vrouterAddInterface vif x = (r', ret) ∧ r'.Inv ∧
      (ret = .ok () → r'.Installed r.next) := by
  unfold vrouterAddInterface
  rw [if_neg (by rw [hfree]; decide)]
  split
  · next htype =>
    split
    · exact ⟨r, _, rfl, h, nofun⟩
    split
    · exact ⟨r, _, rfl, h, nofun⟩
    next eth heth =>
    obtain ⟨i, -, hi⟩ := List.exists_of_findSome?_eq_some heth
    have hin := h.installed (Option.filter_eq_some_iff.mp hi).1
    obtain ⟨hentry, hlink, hunused⟩ := h
    refine ⟨_, _, rfl, ⟨?_, ?_, ?_⟩, fun _ => ?_⟩ <;> grind [update_apply, Installed]
  · obtain ⟨hentry, hlink, hunused⟩ := h
    refine ⟨_, _, rfl, ⟨?_, ?_, ?_⟩, fun _ => ?_⟩ <;> grind [update_apply, Installed]

theorem Inv.step (h : r.Inv) {act : LinkAction} (hact : r.Allowed act) : (r.step act).Inv := by
  cases act with
  | delete idx =>
    unfold LinkRouter.step vrInterfaceDelete
    dsimp only
    split
    · next a ha => exact (h.delete (h.installed ha)).1
    · exact h
  | add req =>
    unfold LinkRouter.step vrInterfaceAdd
    dsimp only
    split
    · exact h
    next hmax =>
    split
    · next a ha =>
      rw [if_pos (hact.1 (by rw [ha]; rfl))]
      exact h
    next hfree =>
    split
    · exact h
    obtain ⟨r', ret, heq, hinv, hself⟩ :=
      @Inv.add r h ⟨req.vifrType, req.vifrIdx, _⟩ (Nat.not_le.mp hmax) hfree _ hact.2
    rw [heq]
    cases ret with
    | error e => exact hinv
    | ok _ =>
      dsimp only
      split
      · exact hinv
      · exact (hinv.delete (hself rfl)).1

theorem Inv.run (h : r.Inv) {as : List LinkAction} (hall : r.AllAllowed as) :
    (as.foldl LinkRouter.step r).Inv := by
  induction as generalizing r with
  | nil => exact h
  | cons act as ih => exact ih (h.step hall.1) hall.2

end LinkRouter

/-- **The links of interfaces are symmetric and never dangling in every run of adds, changes and
deletes, and no interface points to a deleted one**, if no change fails and host interfaces are
added on host or physical interfaces without a partner. -/
theorem cross_connects_symmetric (n : Nat) {as : List LinkAction}
    (hall : LinkRouter.AllAllowed { vrMaxInterfaces := n } as) :
    let r := as.foldl LinkRouter.step { vrMaxInterfaces := n }
    (∀ a b, r.Installed a → r.vifBridge a = some b →
      r.Installed b ∧ r.freed b = false ∧ r.vifBridge b = some a) ∧
      ∀ idx a, r.vrInterfaces idx = some a → ∀ c, (r.vrInterfaceDelete idx).Installed c →
        (r.vrInterfaceDelete idx).vifBridge c ≠ some a := by
  intro r
  have hnew : LinkRouter.Inv { vrMaxInterfaces := n } := ⟨nofun, nofun, fun _ _ => ⟨rfl, rfl⟩⟩
  have hinv : r.Inv := hnew.run hall
  refine ⟨fun a b ha hab => ?_, fun idx a ha c hc hca => ?_⟩
  · obtain ⟨hin, hback, -⟩ := hinv.link a b ha hab
    exact ⟨hin, (hinv.entry _ b hin).2.2.2, hback⟩
  · have hdel := hinv.delete (hinv.installed ha)
    rw [LinkRouter.vrInterfaceDelete, ha] at hc hca
    exact hdel.2 (hdel.1.link c a hc hca).1

/-- A physical interface and host interfaces that are added on it. -/
def linkAdds (hosts : List Nat) : List LinkAction :=
  .add ⟨.physical, 0, 7, 0, true, true⟩ ::
    hosts.map fun i => .add ⟨.host, i, 8, 7, true, true⟩

theorem cross_connects_symmetric_one :
    let r := (linkAdds [1]).foldl LinkRouter.step { vrMaxInterfaces := 4 }
    r.vifBridge 1 = some 0 ∧ r.Installed 0 ∧ r.freed 0 = false ∧ r.vifBridge 0 = some 1 :=
  ⟨rfl, (@cross_connects_symmetric 4 (linkAdds [1])
    ⟨⟨nofun, nofun⟩, ⟨nofun, fun _ => by decide +kernel⟩, trivial⟩).1 1 0 rfl rfl⟩

/-- With a second host interface the first one is linked with an interface that is not linked back
and, once this is deleted, not there any more. -/
theorem cross_connect_dangles :
    let r := (linkAdds [1, 2]).foldl LinkRouter.step { vrMaxInterfaces := 4 }
    r.vifBridge 1 = some 0 ∧ r.vifBridge 0 = some 2 ∧
      (r.vrInterfaceDelete 0).vrInterfaces 0 = none ∧
      (r.vrInterfaceDelete 0).vrInterfaces 1 = some 1 ∧
      (r.vrInterfaceDelete 0).vifBridge 1 = some 0 := by
  decide +kernel

end VRouter
