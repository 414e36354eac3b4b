import VRouter.Basic

/-!
# VRouter — service interfaces

A service interface assigns a VRF to each VLAN. Its table is made by `vr_interface_service_enable`
and by the first VRF-assign request, outlives the service flag as long as a VLAN has a VRF, and is
freed by `vr_interface_service_disable` or by the last request. The same two functions change the
receive handler, which deletes and the shutdown of the module set to the discarding one.

* `vrf_table_consistent` — the count of users, the table and the handler agree in every run, and a
  request that is refused changes nothing, unless it makes an interface a service interface first;
* `deleted_interface_discards` — an interface that is deleted or shut down discards what it
  receives, if it is not a service interface.
-/

namespace VRouter

inductive VifType where
  | host | agent | physical | virtual | xenLlHost | gateway | virtualVlan | stats | vlan
  | monitoring
deriving DecidableEq, Repr

/-- The drivers. -/
inductive VifDriver where
  | vhost | agent | eth | vlan
deriving DecidableEq

/-- `vif_drivers`. -/
def VifType.driver : VifType → Option VifDriver
  | .host | .xenLlHost | .gateway | .monitoring => some .vhost
  | .agent => some .agent
  | .physical | .virtual | .stats => some .eth
  | .virtualVlan => some .vlan
  | .vlan => none

/-- The receive handlers; `none` is the handler of an interface that was not added yet. -/
inductive VifRx where
  | none | vifDiscardRx | vmRx | ethRx | vmSrx | tunRx | vhostRx | agentRx | vlanRx
deriving DecidableEq, Repr

/-- `VIF_VRF_TABLE_ENTRIES`. -/
def vifVrfTableEntries : Nat := 1024

structure VrVrfAssign where
  vaVrf : Int
  vaNhId : Nat

/-- The fields of `struct vr_interface` that have to do with the VRF table. -/
structure VrInterface where
  vifType : VifType
  vifFlags : BitVec 32
  vifRx : VifRx := .none
  vifVrfTable : Option (Nat → VrVrfAssign) := none
  vifVrfTableUsers : Nat := 0

/-- What the surroundings decide: whether `vr_malloc`, `hif_add` and `hif_add_tap` succeed, and
whether `hif_get_encap` is `VIF_ENCAP_TYPE_L3`. -/
structure VifOutcome where
  malloc : Bool
  hifAdd : Bool
  hifAddTap : Bool
  l3 : Bool

namespace VrInterface

/-- `VIF_FLAG_SERVICE_IF`. -/
def isService (vif : VrInterface) : Bool := vif.vifFlags.getLsbD 2

def isVirtual (vif : VrInterface) : Bool :=
  vif.vifType == .virtual || vif.vifType == .virtualVlan

/-! ## The functions -/

/-- `vr_interface_service_enable`. -/
def vrInterfaceServiceEnable (malloc : Bool) (vif : VrInterface) :
    VrInterface × Except Errno Unit :=
  match vif.vifVrfTable with
  | some _ => ({ vif with vifRx := .vmSrx }, .ok ())
  | none =>
    if !malloc then (vif, .error .ENOMEM)
    else
      ({ vif with vifRx := .vmSrx, vifVrfTable := some fun _ => ⟨-1, 0⟩, vifVrfTableUsers := 0 },
        .ok ())

/-- `vr_interface_service_disable`. -/
def vrInterfaceServiceDisable (vif : VrInterface) : VrInterface :=
  { vif with
    vifRx := if vif.isVirtual then .vmRx else .ethRx
    vifVrfTable := if vif.vifVrfTableUsers = 0 then none else vif.vifVrfTable }

/-- `vif_set_flags`. -/
def vifSetFlags (vif : VrInterface) (vifrFlags : BitVec 32) : VrInterface :=
  let flags := (vif.vifFlags &&& 0x20020) ||| (vifrFlags &&& ~~~0x20020)
  { vif with vifFlags := if flags &&& 0xC0 = 0 then flags ||| 0xC0 else flags }

/-- `vr_interface_change`, up to the fields that are not modelled. -/
def vrInterfaceChange (malloc : Bool) (vifrFlags : BitVec 32) (vif : VrInterface) :
    VrInterface × Except Errno Unit :=
  if vifrFlags.getLsbD 2 && !vif.isService then
    match vif.vrInterfaceServiceEnable malloc with
    | (vif, .error e) => (vif, .error e)
    | (vif, .ok _) => (vif.vifSetFlags vifrFlags, .ok ())
  else if vif.isService && !vifrFlags.getLsbD 2 then
    (vif.vrInterfaceServiceDisable.vifSetFlags vifrFlags, .ok ())
  else (vif.vifSetFlags vifrFlags, .ok ())

/-- The end of `vif_vrf_table_set`, where there is a table. -/
def vrfTableStore (vif : VrInterface) (table : Nat → VrVrfAssign) (vlan : Nat) (vrf : Int)
    (nhId : Nat) : VrInterface × Except Errno Unit :=
  if vlan ≥ vifVrfTableEntries then (vif, .error .EINVAL)
  else
    let users :=
      if (table vlan).vaVrf < 0 then
        if vrf ≥ 0 then (vif.vifVrfTableUsers + 1) % 2 ^ 16 else vif.vifVrfTableUsers
      else if vrf < 0 then (vif.vifVrfTableUsers + (2 ^ 16 - 1)) % 2 ^ 16
      else vif.vifVrfTableUsers
    let table := Function.update table vlan ⟨vrf, nhId⟩
    ({ vif with
      vifVrfTable := if !vif.isService && users == 0 then none else some table
      vifVrfTableUsers := users }, .ok ())

/-- `vif_vrf_table_set`. -/
def vifVrfTableSet (malloc : Bool) (vlan : Nat) (vrf : Int) (nhId : Nat) (vif : VrInterface) :
    VrInterface × Except Errno Unit :=
  match vif.vifVrfTable with
  | some table => vif.vrfTableStore table vlan vrf nhId
  | none =>
    if vif.isService || !malloc then (vif, .error .ENOMEM)
    else
      let vif := { (vif.vrInterfaceServiceEnable true).1 with vifFlags := vif.vifFlags ||| 4 }
      vif.vrfTableStore (fun _ => ⟨-1, 0⟩) vlan vrf nhId

/-- `exit_add` of `eth_drv_add`. -/
def ethExitAdd (vif : VrInterface) (ok : Bool) : VrInterface :=
  if !ok && vif.isService then vif.vrInterfaceServiceDisable else vif

/-- `eth_drv_add` up to `hif_add`: the handler, and the service of a service interface. -/
def ethHandler (vif : VrInterface) : VrInterface :=
  if vif.vifType = .stats then vif
  else { vif with vifRx := if vif.isVirtual then .vmRx else .ethRx }

def ethService (malloc : Bool) (vif : VrInterface) : VrInterface × Except Errno Unit :=
  if vif.isService then vif.vrInterfaceServiceEnable malloc else (vif, .ok ())

/-- `eth_drv_add`. -/
def ethDrvAdd (o : VifOutcome) (vif : VrInterface) : VrInterface :=
  match vif.ethHandler.ethService o.malloc with
  | (vif, .error _) => vif.ethExitAdd false
  | (vif, .ok _) =>
    if !o.hifAdd then vif.ethExitAdd false
    else if vif.vifType = .physical ∧ o.l3 then
      ({ vif with vifRx := .tunRx } : VrInterface).ethExitAdd o.hifAddTap
    else vif.ethExitAdd o.hifAddTap

/-- `drv_add` of the interface's driver. -/
def drvAdd (o : VifOutcome) (vif : VrInterface) : VrInterface :=
  match vif.vifType.driver with
  | some .eth => vif.ethDrvAdd o
  | some .agent => if o.hifAdd then { vif with vifRx := .agentRx } else vif
  | some .vlan => { vif with vifRx := .vlanRx }
  | some .vhost => { vif with vifRx := .vhostRx }
  | none => vif

/-- `eth_drv_del`. -/
def ethDrvDel (vif : VrInterface) : VrInterface :=
  let vif := { vif with vifRx := .vifDiscardRx }
  if vif.isService then vif.vrInterfaceServiceDisable else vif

/-- `drv_delete` of the interface's driver. -/
def drvDelete (vif : VrInterface) : VrInterface :=
  match vif.vifType.driver with
  | some .eth => vif.ethDrvDel
  | some .agent | some .vhost => { vif with vifRx := .vifDiscardRx }
  | some .vlan | none => vif

/-- The body of the loop of `vr_interface_shut`. -/
def shut (vif : VrInterface) : VrInterface :=
  { ({ vif with vifRx := .vifDiscardRx } : VrInterface).drvDelete with vifFlags := 0 }

end VrInterface

/-- What takes an interface down. -/
inductive DownAction where
  | drvDelete
  | shut

/-- What happens to an interface. -/
inductive VifAction where
  | drvAdd (o : VifOutcome)
  | change (malloc : Bool) (vifrFlags : BitVec 32)
  | assign (malloc : Bool) (vlan : Nat) (vrf : Int) (nhId : Nat)
  | down (d : DownAction)

def DownAction.apply (vif : VrInterface) : DownAction → VrInterface
  | .drvDelete => vif.drvDelete
  | .shut => vif.shut

def VrInterface.step (vif : VrInterface) : VifAction → VrInterface
  | .drvAdd o => vif.drvAdd o
  | .change malloc vifrFlags => (vif.vrInterfaceChange malloc vifrFlags).1
  | .assign malloc vlan vrf nhId => (vif.vifVrfTableSet malloc vlan vrf nhId).1
  | .down d => d.apply vif

/-! ## The invariant -/

/-- The VLANs of a table that have a VRF. -/
def vlansInUse (table : Nat → VrVrfAssign) : Finset Nat :=
  (Finset.range vifVrfTableEntries).filter fun vlan => 0 ≤ (table vlan).vaVrf

namespace VrInterface

/-- The number of VLANs with a VRF. -/
def vlanCount (vif : VrInterface) : Nat := (vif.vifVrfTable.elim ∅ vlansInUse).card

/-- The users are counted, and only a service interface with a table has the service handler. -/
structure Inv (vif : VrInterface) : Prop where
  users : vif.vifVrfTableUsers = vif.vlanCount
  srx : vif.vifRx = .vmSrx → vif.isService = true ∧ vif.vifVrfTable.isSome = true

variable {vif : VrInterface}

/-- A handler other than the service handler changes nothing. -/
theorem Inv.rx (h : vif.Inv) {rx : VifRx} (hrx : rx ≠ .vmSrx) : { vif with vifRx := rx }.Inv :=
  ⟨h.users, fun heq => absurd heq hrx⟩

theorem card_vlansInUse_le (table : Nat → VrVrfAssign) : (vlansInUse table).card ≤ 1024 :=
  (Finset.card_filter_le _ _).trans (Finset.card_range _).le

theorem vlansInUse_update {table : Nat → VrVrfAssign} {vlan : Nat} (hvlan : vlan < 1024)
    (a : VrVrfAssign) : vlansInUse (Function.update table vlan a) =
      if 0 ≤ a.vaVrf then insert vlan (vlansInUse table) else (vlansInUse table).erase vlan := by
  ext v
  by_cases hv : v = vlan
  · split <;> simp_all [vlansInUse, vifVrfTableEntries]
  · split <;> simp [vlansInUse, hv]

/-- All that `vr_interface_service_enable` can do. -/
theorem Inv.enable_cases (h : vif.Inv) (malloc : Bool) :
    vif.vrInterfaceServiceEnable malloc = (vif, .error .ENOMEM) ∨
      ∃ vif', vif.vrInterfaceServiceEnable malloc = (vif', .ok ()) ∧
        vif'.vifVrfTableUsers = vif'.vlanCount ∧ vif'.vifFlags = vif.vifFlags ∧
        vif'.vifVrfTable.isSome = true := by
  unfold vrInterfaceServiceEnable
  split
  · next table htable => exact .inr ⟨_, rfl, h.users, rfl, by simp [htable]⟩
  · split
    · exact .inl rfl
    · exact .inr ⟨_, rfl, by simp [vlanCount, vlansInUse], rfl, rfl⟩

theorem disable_rx (vif : VrInterface) : vif.vrInterfaceServiceDisable.vifRx ≠ .vmSrx := by
  unfold vrInterfaceServiceDisable
  dsimp only
  split <;> decide

theorem Inv.disable (h : vif.Inv) : vif.vrInterfaceServiceDisable.Inv := by
  refine ⟨?_, fun hrx => absurd hrx vif.disable_rx⟩
  show _ = ((if vif.vifVrfTableUsers = 0 then none else vif.vifVrfTable).elim ∅ vlansInUse).card
  split
  · assumption
  · exact h.users

@[simp] theorem vifSetFlags_isService (vif : VrInterface) (vifrFlags : BitVec 32) :
    (vif.vifSetFlags vifrFlags).isService = vifrFlags.getLsbD 2 := by
  unfold vifSetFlags isService
  dsimp only
  split <;> simp

section

variable (h : vif.Inv)
include h

theorem Inv.change (malloc : Bool) (vifrFlags : BitVec 32) :
    (vif.vrInterfaceChange malloc vifrFlags).1.Inv := by
  unfold vrInterfaceChange
  split
  · next hflags =>
    rw [Bool.and_eq_true] at hflags
    rcases h.enable_cases malloc with heq | ⟨vif', heq, husers, -, hsome⟩
    · rw [heq]
      exact h
    · rw [heq]
      exact ⟨husers, fun _ => ⟨(vif'.vifSetFlags_isService vifrFlags).trans hflags.1, hsome⟩⟩
  · split
    · exact ⟨h.disable.users, fun hrx => absurd hrx vif.disable_rx⟩
    · -- the flag stays as it is
      next hset hclear =>
      refine ⟨h.users, fun hrx => ⟨(vif.vifSetFlags_isService vifrFlags).trans ?_, (h.srx hrx).2⟩⟩
      simpa [(h.srx hrx).1] using hclear

/-- A table is put into place with its users counted, and dropped if nothing keeps it. -/
theorem Inv.stored {table : Nat → VrVrfAssign} {users : Nat}
    (husers : users = (vlansInUse table).card) :
    ({ vif with
      vifVrfTable := if !vif.isService && users == 0 then none else some table
      vifVrfTableUsers := users } : VrInterface).Inv := by
  cases hfree : !vif.isService && users == 0 with
  | true =>
    rw [Bool.and_eq_true, beq_iff_eq, Bool.not_eq_true'] at hfree
    refine ⟨hfree.2, fun hrx => ?_⟩
    cases hfree.1.symm.trans (h.srx hrx).1
  | false => exact ⟨husers, fun hrx => ⟨(h.srx hrx).1, rfl⟩⟩

theorem Inv.store {table : Nat → VrVrfAssign} (htable : vif.vifVrfTable = some table)
    (vlan : Nat) (vrf : Int) (nhId : Nat) : (vif.vrfTableStore table vlan vrf nhId).1.Inv := by
  unfold vrfTableStore
  split
  · exact h
  next hvlan =>
  have hvlan : vlan < 1024 := Nat.not_le.mp hvlan
  have husers : vif.vifVrfTableUsers = (vlansInUse table).card := by
    rw [h.users, vlanCount, htable]
    rfl
  have hle := card_vlansInUse_le table
  have hmem : vlan ∈ vlansInUse table ↔ 0 ≤ (table vlan).vaVrf := by
    simp [vlansInUse, vifVrfTableEntries, hvlan]
  -- the count follows the sign of the old and of the new VRF
  refine h.stored ?_
  rw [vlansInUse_update hvlan, husers]
  by_cases hold : (table vlan).vaVrf < 0 <;> by_cases hnew : 0 ≤ vrf
  · rw [if_pos hold, if_pos hnew, if_pos hnew,
      Finset.card_insert_of_notMem (hmem.not.mpr (by omega))]
    omega
  · rw [if_pos hold, if_neg hnew, if_neg hnew,
      Finset.erase_eq_of_notMem (hmem.not.mpr (by omega))]
  · rw [if_neg hold, if_neg (by omega), if_pos hnew,
      Finset.insert_eq_of_mem (hmem.mpr (by omega))]
  · have hin := hmem.mpr (by omega)
    have hpos := Finset.card_pos.mpr ⟨vlan, hin⟩
    rw [if_neg hold, if_pos (by omega), if_neg hnew, Finset.card_erase_of_mem hin]
    omega

theorem Inv.assign (malloc : Bool) (vlan : Nat) (vrf : Int) (nhId : Nat) :
    (vif.vifVrfTableSet malloc vlan vrf nhId).1.Inv := by
  unfold vifVrfTableSet
  split
  · next table htable => exact h.store htable vlan vrf nhId
  next htable =>
  split
  · exact h
  · refine Inv.store ⟨?_, fun _ => ⟨?_, ?_⟩⟩ ?_ vlan vrf nhId
    all_goals simp [vrInterfaceServiceEnable, htable, vlanCount, vlansInUse, isService]

theorem Inv.exitAdd (ok : Bool) : (vif.ethExitAdd ok).Inv := by
  unfold ethExitAdd
  split
  · exact h.disable
  · exact h

theorem Inv.service (malloc : Bool) : (vif.ethService malloc).1.Inv := by
  unfold ethService
  split
  · next hservice =>
    rcases h.enable_cases malloc with heq | ⟨vif', heq, husers, hflags, hsome⟩
    · rw [heq]
      exact h
    · rw [heq]
      exact ⟨husers, fun _ => ⟨by rw [isService, hflags]; exact hservice, hsome⟩⟩
  · exact h

theorem Inv.ethDrvAdd (o : VifOutcome) : (vif.ethDrvAdd o).Inv := by
  have hhandler : vif.ethHandler.Inv := by
    unfold ethHandler
    split
    · exact h
    · exact h.rx (by split <;> decide)
  have hservice := hhandler.service o.malloc
  unfold VrInterface.ethDrvAdd
  split
  · next heq =>
    rw [heq] at hservice
    exact hservice.exitAdd false
  next heq =>
  rw [heq] at hservice
  split
  · exact hservice.exitAdd false
  · split
    · exact Inv.exitAdd (hservice.rx (by decide)) _
    · exact hservice.exitAdd _

end

/-- All that `drv_delete` can do. -/
theorem drvDelete_cases (vif : VrInterface) :
    vif.drvDelete = vif ∧ vif.vifType.driver ≠ some .eth ∨
      vif.drvDelete = { vif with vifRx := .vifDiscardRx } ∨
      vif.drvDelete = vrInterfaceServiceDisable { vif with vifRx := .vifDiscardRx } ∧
        vif.vifType.driver = some .eth ∧ vif.isService = true := by
  unfold VrInterface.drvDelete ethDrvDel
  split
  · next hdriver =>
    dsimp only
    split
    · next hservice => exact .inr (.inr ⟨rfl, hdriver, hservice⟩)
    · exact .inr (.inl rfl)
  all_goals simp_all

theorem Inv.drvDelete (h : vif.Inv) : vif.drvDelete.Inv := by
  rcases vif.drvDelete_cases with ⟨heq, -⟩ | heq | ⟨heq, -⟩ <;> rw [heq]
  · exact h
  · exact h.rx (by decide)
  · exact (h.rx (by decide)).disable

theorem drvDelete_rx (hrx : vif.vifRx ≠ .vmSrx) : vif.drvDelete.vifRx ≠ .vmSrx := by
  rcases vif.drvDelete_cases with ⟨heq, -⟩ | heq | ⟨heq, -⟩ <;> rw [heq]
  · exact hrx
  · exact VifRx.noConfusion
  · exact disable_rx _

theorem Inv.step (h : vif.Inv) (a : VifAction) : (vif.step a).Inv := by
  cases a with
  | drvAdd o =>
    simp only [VrInterface.step, VrInterface.drvAdd]
    split
    · exact h.ethDrvAdd o
    · split
      · exact h.rx (by decide)
      · exact h
    all_goals first | exact h | exact h.rx (by decide)
  | change malloc vifrFlags => exact h.change malloc vifrFlags
  | assign malloc vlan vrf nhId => exact h.assign malloc vlan vrf nhId
  | down d =>
    cases d with
    | drvDelete => exact h.drvDelete
    | shut =>
      have hdiscard : Inv { vif with vifRx := .vifDiscardRx } := h.rx (by decide)
      exact ⟨hdiscard.drvDelete.users, fun hrx => absurd hrx (drvDelete_rx VifRx.noConfusion)⟩

/-- A request that is refused leaves the interface as it was, unless the VLAN is out of range and
there was no table. -/
theorem vifVrfTableSet_refused {malloc : Bool} {vlan : Nat} {vrf : Int} {nhId : Nat}
    (hvlan : vlan < vifVrfTableEntries ∨ vif.isService = true ∨ vif.vifVrfTable.isSome = true)
    (hret : (vif.vifVrfTableSet malloc vlan vrf nhId).2 ≠ .ok ()) :
    (vif.vifVrfTableSet malloc vlan vrf nhId).1 = vif := by
  unfold vifVrfTableSet at hret ⊢
  split at hret
  · unfold vrfTableStore at hret ⊢
    split at hret
    · next hrange => rw [if_pos hrange]
    · exact absurd rfl hret
  next htable =>
  split at hret
  · next hnone => rw [if_pos hnone]
  next henable =>
  rw [Bool.or_eq_true, not_or, Bool.not_eq_true] at henable
  rcases hvlan with hlt | hservice | hsome
  · -- with a table, a VLAN in range is not refused
    unfold vrfTableStore at hret
    rw [if_neg (Nat.not_le.mpr hlt)] at hret
    exact absurd rfl hret
  · cases henable.1.symm.trans hservice
  · rw [htable] at hsome
    cases hsome

end VrInterface

/-- **In every run the users of the table are the VLANs with a VRF, there is a table whenever it has
users or the service handler is in place, and a VRF-assign request that is refused changes
nothing**, if its VLAN is in range or the interface is a service interface or has a table. -/
theorem vrf_table_consistent (type : VifType) (flags : BitVec 32) (as : List VifAction) :
    let vif := as.foldl VrInterface.step ⟨type, flags, .none, none, 0⟩
    vif.vifVrfTableUsers = vif.vlanCount ∧
      (0 < vif.vlanCount ∨ vif.vifRx = .vmSrx → vif.vifVrfTable.isSome = true) ∧
      ∀ malloc vlan vrf nhId,
        (vlan < vifVrfTableEntries ∨ vif.isService = true ∨ vif.vifVrfTable.isSome = true) →
        (vif.vifVrfTableSet malloc vlan vrf nhId).2 ≠ .ok () →
          (vif.vifVrfTableSet malloc vlan vrf nhId).1 = vif := by
  intro vif
  have hinv : vif.Inv := List.foldlRecOn as VrInterface.step ⟨rfl, nofun⟩ fun _ h a _ => h.step a
  refine ⟨hinv.users, ?_, fun malloc vlan vrf nhId hvlan hret =>
    VrInterface.vifVrfTableSet_refused hvlan hret⟩
  rintro (hpos | hrx)
  · cases htable : vif.vifVrfTable with
    | some table => rfl
    | none =>
      rw [VrInterface.vlanCount, htable] at hpos
      exact absurd hpos (Nat.lt_irrefl 0)
  · exact (hinv.srx hrx).2

/-- An interface gets a VRF for VLAN 5 and becomes a service interface; a request for VLAN 2000 is
refused. -/
theorem vrf_table_consistent_refused :
    let vif := [VifAction.drvAdd ⟨true, true, true, false⟩, .assign true 5 3 0].foldl
      VrInterface.step ⟨.virtual, 0xC0, .none, none, 0⟩
    vif.vifVrfTableUsers = 1 ∧ vif.vifRx = .vmSrx ∧
      (vif.vifVrfTableSet true 2000 3 0).2 ≠ .ok () ∧
      (vif.vifVrfTableSet true 2000 3 0).1 = vif := by
  intro vif
  have hret : (vif.vifVrfTableSet true 2000 3 0).2 ≠ .ok () := nofun
  exact ⟨rfl, rfl, hret, (vrf_table_consistent .virtual 0xC0 _).2.2 true 2000 3 0 (.inr (.inr rfl))
    hret⟩

/-- Without the first request, the refused one makes the interface a service interface. -/
theorem refused_vlan_enables_service :
    let vif := [VifAction.drvAdd ⟨true, true, true, false⟩].foldl
      VrInterface.step ⟨.virtual, 0xC0, .none, none, 0⟩
    let vif' := (vif.vifVrfTableSet true 2000 3 0).1
    (vif.vifVrfTableSet true 2000 3 0).2 = .error .EINVAL ∧ vif.vifRx = .vmRx ∧
      vif'.vifRx = .vmSrx ∧ vif'.vifFlags ≠ vif.vifFlags ∧ vif.vifVrfTable.isSome = false ∧
      vif'.vifVrfTable.isSome = true := by
  decide +kernel

/-! ## Deleted interfaces -/

namespace VrInterface

variable {vif : VrInterface}

/-- Not a service interface with the driver of `eth_drv_del`. -/
def Plain (vif : VrInterface) : Prop := vif.vifType.driver = some .eth → vif.isService = false

theorem Plain.drvDelete (h : vif.Plain)
    (hrx : vif.vifRx = .vifDiscardRx ∨ vif.vifType.driver = some .eth) :
    vif.drvDelete.vifRx = .vifDiscardRx ∧ vif.drvDelete.Plain := by
  rcases vif.drvDelete_cases with ⟨heq, hne⟩ | heq | ⟨-, hdriver, hservice⟩
  · rw [heq]
    exact ⟨hrx.resolve_right hne, h⟩
  · rw [heq]
    exact ⟨rfl, h⟩
  · cases (h hdriver).symm.trans hservice

theorem Plain.shut (h : vif.Plain) : vif.shut.vifRx = .vifDiscardRx ∧ vif.shut.Plain := by
  have hplain : Plain { vif with vifRx := .vifDiscardRx } := h
  exact ⟨(hplain.drvDelete (.inl rfl)).1, fun _ => by simp [VrInterface.shut, isService]⟩

end VrInterface

/-- **An interface discards all it receives once `eth_drv_del` or `vr_interface_shut` is done with
it**, through any further deletes and shutdowns, unless it is a service interface with the driver
of `eth_drv_del`. -/
theorem deleted_interface_discards {vif : VrInterface} {d : DownAction}
    (hfirst : vif.vifType.driver = some .eth ∨ d = .shut)
    (hservice : vif.vifType.driver = some .eth → vif.isService = false) (ds : List DownAction) :
    (ds.foldl DownAction.apply (d.apply vif)).vifRx = .vifDiscardRx := by
  have hplain : vif.Plain := hservice
  have hdone : (d.apply vif).vifRx = .vifDiscardRx ∧ (d.apply vif).Plain := by
    cases d with
    | drvDelete => exact hplain.drvDelete (.inr (hfirst.resolve_right nofun))
    | shut => exact hplain.shut
  refine (List.foldlRecOn (motive := fun vif => vif.vifRx = .vifDiscardRx ∧ vif.Plain) ds
    DownAction.apply hdone fun vif h a _ => ?_).1
  cases a with
  | drvDelete => exact h.2.drvDelete (.inl h.1)
  | shut => exact h.2.shut

theorem deleted_interface_discards_twice :
    ([DownAction.shut, .drvDelete].foldl DownAction.apply
      (DownAction.drvDelete.apply ⟨.virtual, 0xC0, .vmRx, none, 0⟩)).vifRx = .vifDiscardRx :=
  deleted_interface_discards (.inl rfl) (fun _ => by decide) _

/-- Deleted or shut down, a service interface passes its packets to forwarding again. -/
theorem deleted_service_receives :
    let vif : VrInterface := ⟨.virtual, 0xC4, .vmSrx, some fun _ => ⟨-1, 0⟩, 0⟩
    (DownAction.drvDelete.apply vif).vifRx = .vmRx ∧ (DownAction.shut.apply vif).vifRx = .vmRx := by
  decide +kernel

end VRouter
