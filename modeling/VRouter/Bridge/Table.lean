import VRouter.Htable.Find
import VRouter.Nexthop.Holders

/-!
# VRouter — the bridge table of `vr_bridge.c`

`VRouter.Nexthop.Holders` has the bridge table as the nexthops see it, where the entry of a key is
simply found. Here it lies in the hash table of `vr_htable.c`, whose key is a MAC address with a
VRF: entries are found by their key, taken from the free ones of the key's bucket, and given back
to a table that may let them again. Functions that would follow a null pointer return `none`.

* `BridgeInv` — what holds in every state: valid entries of the hash table and `VR_BE_VALID_FLAG`
  agree, and no key has two entries;
* `vrFindBridgeEntry_refines`, `bridgeTableAdd_refines`, `bridgeTableDelete_refines` — the table
  over the hash table does to the entries what the one of `VRouter.Nexthop.Holders` does.
-/

namespace VRouter

open LongestMatch Function

/-! ## Data model -/

/-- The bytes of a `struct vr_bridge_entry_key`: the MAC address and the VRF, an
`unsigned short`. -/
def beKey (vrfId : Nat) (mac : List Octet) : List Octet :=
  mac ++ [Fin.ofNat 256 vrfId, Fin.ofNat 256 (vrfId / 2 ^ 8)]

/-- `bridge_entry_key`. -/
def bridgeEntryKey (be : BridgeEntry) : Option (List Octet) :=
  if be.beFlags &&& vrBeValidFlag = 0 then none else some (beKey be.beVrfId be.beMac)

/-- The hash table and what its entries hold behind their `vr_hentry_t`. -/
structure BridgeSys where
  ht : HtSys
  entry : Nat → BridgeEntry

/-- `sizeof (struct vr_bridge_entry)`: padded to 64 bytes. -/
def sizeofBridgeEntry : Nat := 64

/-- `sizeof (struct vr_bridge_entry_key)`. -/
def sizeofBridgeEntryKey : Nat := 8

/-- `vr_bridge_oentries` after `bridge_table_init`. -/
def bridgeOentries (vrBridgeEntries vrBridgeOentries : Nat) : Nat :=
  if vrBridgeOentries = 0 then (vrBridgeEntries / 5 + 1023) &&& (2 ^ 32 - 1 - 1023)
  else vrBridgeOentries

/-- `bridge_table_init`, for the configured sizes. -/
def bridgeTableInit (vrBridgeEntries vrBridgeOentries : Nat) : Option Htable :=
  vrHtableCreate vrBridgeEntries (bridgeOentries vrBridgeEntries vrBridgeOentries)
    sizeofBridgeEntry sizeofBridgeEntryKey 0

/-- A new bridge table, its memory zeroed. -/
def BridgeSys.initial (t : Htable) (notReady : Bool) : BridgeSys where
  ht := .initial t notReady
  entry := fun _ => ⟨0, List.replicate vrEtherAlen 0, none, 0, 0⟩

/-! ## Functions of the source -/

namespace BridgeSys

variable (hash : List Octet → Nat) (s : BridgeSys)

/-- The entries without the hash table. -/
def toTable : BridgeTable where
  entries := s.ht.table.htHentries + s.ht.table.htOentries
  entry := s.entry

/-- `vr_find_bridge_entry`. -/
def vrFindBridgeEntry (vrfId : Nat) (mac : List Octet) : Option (Option Nat) :=
  vrHtableFindHentry s.ht.table (fun i => bridgeEntryKey (s.entry i)) (beKey vrfId mac)
    (hash (beKey vrfId mac))

/-- `vr_find_free_bridge_entry`. -/
def vrFindFreeBridgeEntry (vrfId : Nat) (mac : List Octet) : Option (Option Nat × BridgeSys) :=
  (vrHtableFindFreeHentry s.ht.table (hash (beKey vrfId mac))).map fun r =>
    (r.1, { s with ht := { s.ht with table := r.2 } })

/-- `__bridge_table_add`. -/
def bridgeTableAddCore (tbl : NexthopTable) (rt : RouteReq) (nh : Nexthop) :
    Option (Except Errno Unit × BridgeSys) :=
  match s.vrFindBridgeEntry hash rt.rtrVrfId rt.rtrMac with
  | none => none
  | some (some i) =>
    some (.ok (), { s with entry := (bridgeEntrySet tbl rt nh i (s.entry i) s.toTable).tab.entry })
  | some none =>
    match s.vrFindFreeBridgeEntry hash rt.rtrVrfId rt.rtrMac with
    | none => none
    | some (none, s) => some (.error .ENOMEM, s)
    | some (some i, s) =>
      let be : BridgeEntry :=
        { s.entry i with
          beVrfId := rt.rtrVrfId % 2 ^ 16, beMac := rt.rtrMac, beFlags := vrBeValidFlag }
      some (.ok (), { s with entry := (bridgeEntrySet tbl rt nh i be s.toTable).tab.entry })

/-- `bridge_table_add`. -/
def bridgeTableAdd (tbl : NexthopTable) (rt : RouteReq) : Option (Except Errno Unit × BridgeSys) :=
  if rt.rtrMac.length ≠ vrEtherAlen then some (.error .EINVAL, s)
  else if ∀ b ∈ rt.rtrMac, b = 0 then some (.error .EINVAL, s)
  else
    match tbl.get rt.rtrNhId with
    | none => some (.error .ENOENT, s)
    | some nh =>
      if rt.rtrLabelFlags &&& vrBeLabelValidFlag = 0 ∧ nh.nhType = .tunnel then
        some (.error .EINVAL, s)
      else s.bridgeTableAddCore hash tbl rt nh

/-- `bridge_table_entry_free`. -/
def bridgeTableEntryFree (scheduled : Bool) (i : Nat) : Option BridgeSys :=
  (vrHtableReleaseHentry s.ht scheduled i).map fun ht =>
    { ht := ht, entry := (VRouter.bridgeTableEntryFree i s.toTable).tab.entry }

/-- `bridge_table_delete`. -/
def bridgeTableDelete (scheduled : Bool) (rt : RouteReq) :
    Option (Except Errno Unit × BridgeSys) :=
  if rt.rtrMac.length ≠ vrEtherAlen then some (.error .EINVAL, s)
  else
    match s.vrFindBridgeEntry hash rt.rtrVrfId rt.rtrMac with
    | none => none
    | some none => some (.error .ENOENT, s)
    | some (some i) => (s.bridgeTableEntryFree scheduled i).map fun s => (.ok (), s)

/-- The entry a bridge index leads to: `vr_htable_get_hentry_by_index`. -/
def entryByIndex (index : Nat) : Option BridgeEntry :=
  (vrHtableGetHentryByIndex s.ht.table index).map s.entry

/-- `bridge_table_lookup`, with the request as the caller gets it back. A MAC address of no bytes
stands for a null pointer. -/
def bridgeTableLookup (rt : RouteReq) : Option (Option Nexthop × RouteReq) :=
  let rt := { rt with rtrLabelFlags := 0 }
  if rt.rtrIndex ≠ vrBeInvalidIndex then
    match s.entryByIndex rt.rtrIndex with
    | none => some (none, rt)
    | some be =>
      some (be.beNh,
        { rt with
          rtrLabelFlags := be.beFlags
          rtrLabel := be.beLabel
          rtrNh := be.beNh
          rtrMac := if rt.rtrMac = [] then [] else be.beMac })
  else
    match s.vrFindBridgeEntry hash rt.rtrVrfId rt.rtrMac with
    | none => none
    | some none => some (none, { rt with rtrNh := none })
    | some (some i) =>
      some ((s.entry i).beNh,
        { rt with
          rtrLabelFlags := (s.entry i).beFlags
          rtrLabel := (s.entry i).beLabel
          rtrNh := (s.entry i).beNh
          rtrIndex := (s.ht.table.hentry i).hentryIndex })

end BridgeSys

/-! ## Steps -/

/-- What can happen to the bridge table. -/
inductive BridgeStep where
  /-- `bridge_table_add`, with the nexthops of the moment. -/
  | add (tbl : NexthopTable) (rt : RouteReq)
  /-- `bridge_table_delete`; `scheduled` is the outcome of `vr_schedule_work`. -/
  | delete (rt : RouteReq) (scheduled : Bool)
  /-- A work item, a callback, or a write to `vr_not_ready`. -/
  | work (deleteIndex : Nat) (alloc : Nat → Bool)
  | callback (ent : Nat)
  | setNotReady (notReady : Bool)

/-- One step of the bridge table, with `hash` for `vr_hash`. -/
def BridgeSys.step (hash : List Octet → Nat) (s : BridgeSys) : BridgeStep → Option BridgeSys
  | .add tbl rt => (s.bridgeTableAdd hash tbl rt).map Prod.snd
  | .delete rt scheduled => (s.bridgeTableDelete hash scheduled rt).map Prod.snd
  | .work d alloc => (s.ht.step (.work d alloc)).map fun ht => { s with ht := ht }
  | .callback ent => (s.ht.step (.callback ent)).map fun ht => { s with ht := ht }
  | .setNotReady notReady =>
    (s.ht.step (.setNotReady notReady)).map fun ht => { s with ht := ht }

/-! ## Keys and entries -/

theorem beKey_inj {v v' : Nat} {m m' : List Octet} (hlen : m.length = m'.length)
    (h : beKey v m = beKey v' m') : v % 2 ^ 16 = v' % 2 ^ 16 ∧ m = m' := by
  obtain ⟨hm, hv⟩ := List.append_inj h hlen
  simp only [List.cons.injEq, Fin.ext_iff, Fin.val_ofNat] at hv
  exact ⟨by omega, hm⟩

theorem beKey_mod (v : Nat) (m : List Octet) : beKey (v % 2 ^ 16) m = beKey v m := by
  have hlow : Fin.ofNat 256 (v % 2 ^ 16) = Fin.ofNat 256 v := by
    rw [Fin.ext_iff, Fin.val_ofNat, Fin.val_ofNat]
    omega
  have hhigh : Fin.ofNat 256 (v % 2 ^ 16 / 2 ^ 8) = Fin.ofNat 256 (v / 2 ^ 8) := by
    rw [Fin.ext_iff, Fin.val_ofNat, Fin.val_ofNat]
    omega
  unfold beKey
  rw [hlow, hhigh]

theorem bridgeEntryKey_eq_some {be : BridgeEntry} {k : List Octet} :
    bridgeEntryKey be = some k ↔
      be.beFlags &&& vrBeValidFlag ≠ 0 ∧ beKey be.beVrfId be.beMac = k := by
  unfold bridgeEntryKey
  split <;> simp_all

theorem and_vrBeValidFlag_eq {a b : Nat} (h : a.testBit 0 = b.testBit 0) :
    a &&& vrBeValidFlag = b &&& vrBeValidFlag := by
  unfold vrBeValidFlag
  rw [Nat.testBit_zero, Nat.testBit_zero, decide_eq_decide] at h
  rw [Nat.and_one_is_mod, Nat.and_one_is_mod]
  omega

/-- The end of `__bridge_table_add` writes one entry and keeps its key and its valid flag. -/
theorem bridgeEntrySet_entry (tbl : NexthopTable) (rt : RouteReq) (nh : Nexthop) (i : Nat)
    (be : BridgeEntry) (t : BridgeTable) :
    ∃ be', (bridgeEntrySet tbl rt nh i be t).tab.entry = update t.entry i be' ∧
      be'.beVrfId = be.beVrfId ∧ be'.beMac = be.beMac ∧ bridgeEntryKey be' = bridgeEntryKey be := by
  refine ⟨_, rfl, rfl, rfl, ?_⟩
  unfold bridgeEntryKey
  rw [and_vrBeValidFlag_eq]
  unfold vrBeValidFlag
  simp
  omega

/-- `bridge_table_entry_free` takes the key of the entry away. -/
theorem bridgeTableEntryFree_entry (i : Nat) (t : BridgeTable) :
    ∃ be', (bridgeTableEntryFree i t).tab.entry = update t.entry i be' ∧
      bridgeEntryKey be' = none := by
  refine ⟨_, rfl, if_pos ?_⟩
  unfold vrBeValidFlag
  simp
  omega

/-! ## The invariant -/

namespace BridgeSys

variable (s : BridgeSys)

/-- Entry `i` of the hash table is in use. -/
def Valid (i : Nat) : Prop :=
  i < s.ht.table.htHentries + s.ht.table.htOentries ∧ (s.ht.table.hentry i).flagValid = true

instance (i : Nat) : Decidable (s.Valid i) :=
  inferInstanceAs (Decidable (_ ∧ _))

/-- The hash table with the keys its entries show. -/
def keyed : KeyedSys where
  sys := s.ht
  keys := fun i => bridgeEntryKey (s.entry i)
  live := fun i => decide (i < s.ht.table.htHentries + s.ht.table.htOentries) &&
    (s.ht.table.hentry i).flagValid

@[simp] theorem keyed_live (i : Nat) : s.keyed.live i = true ↔ s.Valid i := by
  unfold keyed Valid
  simp

end BridgeSys

/-- The bridge table between two steps. -/
structure BridgeInv (hash : List Octet → Nat) (s : BridgeSys) : Prop where
  keyed : KeyedInv hash s.keyed
  tile : s.ht.table.BucketsTile
  flag : ∀ i, i < s.ht.table.htHentries + s.ht.table.htOentries →
    bridgeEntryKey (s.entry i) ≠ none → s.Valid i
  unique : ∀ i j, s.Valid i → s.Valid j →
    bridgeEntryKey (s.entry i) = bridgeEntryKey (s.entry j) → i = j
  mac : ∀ i, s.Valid i → (s.entry i).beMac.length = vrEtherAlen ∧
    ¬ (∀ b ∈ (s.entry i).beMac, b = 0) ∧ (s.entry i).beVrfId < 2 ^ 16

variable {vrBridgeOentries vrBridgeEntries : Nat} {t : Htable} {s' : BridgeSys}

namespace BridgeInv

variable {hash : List Octet → Nat} {s : BridgeSys} {e : Nat} {k : List Octet} {be : BridgeEntry}

/-- What an entry in use shows: an address that is not zero, in a VRF. -/
def Addressed (be : BridgeEntry) : Prop :=
  be.beMac.length = vrEtherAlen ∧ ¬ (∀ b ∈ be.beMac, b = 0) ∧ be.beVrfId < 2 ^ 16

variable (h : BridgeInv hash s)
include h

theorem key (he : s.Valid e) :
    bridgeEntryKey (s.entry e) = some (beKey (s.entry e).beVrfId (s.entry e).beMac) := by
  obtain ⟨k, hk, -⟩ := h.keyed.key e ((s.keyed_live e).mpr he)
  have hk : bridgeEntryKey (s.entry e) = some k := hk
  rw [hk, (bridgeEntryKey_eq_some.mp hk).2]

theorem getByIndex (i : Nat) :
    (s.Valid i → vrHtableGetHentryByIndex s.ht.table i = some i) ∧
      (¬ s.Valid i → vrHtableGetHentryByIndex s.ht.table i = none) := by
  obtain ⟨place, cont, hi⟩ := h.keyed.inv
  have hi : HtInv s.ht place cont := hi
  constructor
  · rintro ⟨hlt, hv⟩
    unfold vrHtableGetHentryByIndex
    rw [hi.sized.get i hlt]
    exact if_pos hv
  intro hnot
  cases hget : vrHtableGetHentryByIndex s.ht.table i with
  | none => rfl
  | some e =>
    obtain ⟨rfl, hv⟩ := vrHtableGetHentryByIndex_eq_some hget
    refine absurd ⟨?_, hv⟩ hnot
    -- past the table there is nothing
    by_contra hge
    unfold vrHtableGetHentryByIndex vrHtableGetHentryByIndexCore at hget
    rw [if_neg (by omega), if_neg (by omega)] at hget
    cases hget

/-- `vr_find_bridge_entry` returns the entry in use for the key, if there is one. -/
theorem find (v : Nat) (m : List Octet) :
    ∃ r, s.vrFindBridgeEntry hash v m = some r ∧
      (r = none → ∀ i, s.Valid i → bridgeEntryKey (s.entry i) ≠ some (beKey v m)) ∧
      ∀ e, r = some e → s.Valid e ∧ bridgeEntryKey (s.entry e) = some (beKey v m) := by
  have hget : ∀ i k, s.keyed.live i = true → bridgeEntryKey (s.entry i) = some k →
      s.keyed.keys i = some k := fun _ _ _ hk => hk
  obtain ⟨r, hr, hnone, hsome⟩ := h.keyed.find h.tile hget (beKey v m)
  refine ⟨r, hr, fun hn i hi => hnone hn i ((s.keyed_live i).mpr hi), fun e he => ?_⟩
  obtain ⟨hlive, hk⟩ := hsome e he
  exact ⟨(s.keyed_live e).mp hlive, hk⟩

/-- A new state in which every entry is as it was, or given back, or is the entry `e` that was taken
for a key. -/
theorem of_entries (e : Nat) (hinv : ∃ place cont, HtInv s'.ht place cont)
    (hshape : s'.ht.table.shape = s.ht.table.shape)
    (hentry : ∀ i, (s.ht.table.KeepsEntry s'.ht.table i ∧
        bridgeEntryKey (s'.entry i) = bridgeEntryKey (s.entry i) ∧
        (s'.entry i).beMac = (s.entry i).beMac ∧ (s'.entry i).beVrfId = (s.entry i).beVrfId) ∨
      ((s'.ht.table.hentry i).flagValid = false ∧ bridgeEntryKey (s'.entry i) = none) ∨
      (i = e ∧ ∃ k, s.ht.table.Inserts s'.ht.table (hash k) i ∧
        bridgeEntryKey (s'.entry i) = some k ∧
        (∀ j, s.Valid j → bridgeEntryKey (s.entry j) ≠ some k) ∧ Addressed (s'.entry i))) :
    BridgeInv hash s' := by
  obtain ⟨hE, hO, hB, hstart⟩ := Htable.sizes_of_shape hshape
  -- an entry in use was so before, or it is the one that was taken
  have hvalid : ∀ i, s'.Valid i →
      (s.Valid i ∧ bridgeEntryKey (s'.entry i) = bridgeEntryKey (s.entry i) ∧
        (s'.entry i).beMac = (s.entry i).beMac ∧ (s'.entry i).beVrfId = (s.entry i).beVrfId) ∨
      (i = e ∧ (∀ j, s.Valid j → bridgeEntryKey (s.entry j) ≠ bridgeEntryKey (s'.entry i)) ∧
        Addressed (s'.entry i)) := by
    rintro i ⟨hlt, hi⟩
    rw [hE, hO] at hlt
    rcases hentry i with ⟨hkeep, hsame⟩ | ⟨hnot, -⟩ | ⟨rfl, k, -, hkey, hnew⟩
    · exact .inl ⟨⟨hlt, hkeep.1.symm.trans hi⟩, hsame⟩
    · cases hnot.symm.trans hi
    · exact .inr ⟨rfl, hkey.symm ▸ hnew⟩
  refine ⟨h.keyed.of_entries hinv hshape fun i => ?_, fun n => ?_, fun i hlt hk => ⟨hlt, ?_⟩,
    fun i j hi hj hk => ?_, fun i hi => ?_⟩
  · rcases hentry i with ⟨hkeep, hkey, -⟩ | ⟨hnot, -⟩ | ⟨-, k, hins, hkey, -⟩
    · refine .inl ⟨hkeep, ?_, fun _ => hkey⟩
      show (decide (i < s'.ht.table.htHentries + s'.ht.table.htOentries) && _) = _
      rw [hE, hO, hkeep.1]
      rfl
    · refine .inr (.inl ⟨?_, hnot⟩)
      show (_ && (s'.ht.table.hentry i).flagValid) = false
      rw [hnot, Bool.and_false]
    · refine .inr (.inr ⟨(s'.keyed_live i).mpr ⟨?_, hins.valid⟩, k, hkey, hins⟩)
      rw [hE, hO]
      exact hins.lt
  · rw [hstart, hB, hE]
    exact h.tile n
  · rcases hentry i with ⟨hkeep, hkey, -⟩ | ⟨-, hnone⟩ | ⟨-, k, hins, -⟩
    · rw [hE, hO] at hlt
      exact hkeep.1.trans (h.flag i hlt (hkey ▸ hk)).2
    · exact absurd hnone hk
    · exact hins.valid
  · rcases hvalid i hi with ⟨hi, hki, -⟩ | ⟨rfl, hnew, -⟩ <;>
      rcases hvalid j hj with ⟨hj, hkj, -⟩ | ⟨rfl, hnew', -⟩
    · exact h.unique i j hi hj (hki.symm.trans (hk.trans hkj))
    · exact absurd (hki.symm.trans hk) (hnew' i hi)
    · exact absurd (hkj.symm.trans hk.symm) (hnew j hj)
    · rfl
  · rcases hvalid i hi with ⟨hi, -, hmac, hvrf⟩ | ⟨-, -, hnew⟩
    · rw [hmac, hvrf]
      exact h.mac i hi
    · exact hnew

theorem write (hvrf : be.beVrfId = (s.entry e).beVrfId) (hmac : be.beMac = (s.entry e).beMac)
    (hkey : bridgeEntryKey be = bridgeEntryKey (s.entry e)) :
    BridgeInv hash { s with entry := update s.entry e be } := by
  refine h.of_entries e h.keyed.inv rfl fun i => .inl ⟨⟨rfl, fun _ => rfl⟩, ?_⟩
  dsimp only
  by_cases hie : i = e
  · subst hie
    rw [update_self]
    exact ⟨hkey, hmac, hvrf⟩
  · rw [update_of_ne hie]
    exact ⟨rfl, rfl, rfl⟩

theorem insert (hfind : vrHtableFindFreeHentry s.ht.table (hash k) = some (some e, t))
    (hnew : ∀ i, s.Valid i → bridgeEntryKey (s.entry i) ≠ some k)
    (hkey : bridgeEntryKey be = some k) (hmac : Addressed be) : BridgeInv hash
      { ht := { s.ht with table := t }, entry := update s.entry e be } := by
  obtain ⟨place, cont, hi⟩ := h.keyed.inv
  obtain ⟨place', cont', hi', hshape, -, hins⟩ := hi.findFree hfind
  refine h.of_entries e ⟨place', cont', hi'⟩ hshape fun i => ?_
  dsimp only
  by_cases hie : i = e
  · subst hie
    rw [update_self]
    exact .inr (.inr ⟨rfl, k, hins i rfl, hkey, hnew, hmac⟩)
  · rw [update_of_ne hie]
    exact .inl ⟨(hins e rfl).others i hie, rfl, rfl, rfl⟩

variable {ht : HtSys}

theorem release (hkey : bridgeEntryKey be = none) (hinv : ∃ place cont, HtInv ht place cont)
    (hshape : ht.table.shape = s.ht.table.shape) (hrel : s.ht.table.Releases ht.table e) :
    BridgeInv hash { ht := ht, entry := update s.entry e be } := by
  refine h.of_entries e hinv hshape fun i => ?_
  have hvalid := (hrel i).1
  dsimp only
  by_cases hie : i = e
  · subst hie
    rw [update_self]
    exact .inr (.inl ⟨hvalid.trans (if_pos rfl), hkey⟩)
  · rw [if_neg hie] at hvalid
    rw [update_of_ne hie]
    exact .inl ⟨⟨hvalid, fun _ => (hrel i).2⟩, rfl, rfl, rfl⟩

theorem rests {a : HtStep} (ha : a.Rests) (hs : s.ht.step a = some ht) :
    BridgeInv hash { s with ht := ht } := by
  obtain ⟨place, cont, hi⟩ := h.keyed.inv
  obtain ⟨place', cont', hi', hshape, hkeeps⟩ := hi.rests ha hs
  exact h.of_entries 0 ⟨place', cont', hi'⟩ hshape fun i => .inl ⟨hkeeps i, rfl, rfl, rfl⟩

end BridgeInv

/-! ## What the requests do -/

/-- The states an add for the key of `rt` can leave: nothing has changed; the key's entry has been
written; a free entry has been taken for the key. -/
inductive BridgeSys.Added (hash : List Octet → Nat) (rt : RouteReq) (s : BridgeSys) :
    Except Errno Unit → BridgeSys → Prop where
  | refused (errno : Errno) : Added hash rt s (.error errno) s
  | written (e : Nat) (be : BridgeEntry) (valid : s.Valid e)
      (found : bridgeEntryKey (s.entry e) = some (beKey rt.rtrVrfId rt.rtrMac))
      (vrf : be.beVrfId = (s.entry e).beVrfId) (mac : be.beMac = (s.entry e).beMac)
      (key : bridgeEntryKey be = bridgeEntryKey (s.entry e)) :
      Added hash rt s (.ok ()) { s with entry := update s.entry e be }
  | taken (e : Nat) (t : Htable) (be : BridgeEntry)
      (find : vrHtableFindFreeHentry s.ht.table (hash (beKey rt.rtrVrfId rt.rtrMac)) =
        some (some e, t))
      (absent : ∀ i, s.Valid i → bridgeEntryKey (s.entry i) ≠ some (beKey rt.rtrVrfId rt.rtrMac))
      (vrf : be.beVrfId = rt.rtrVrfId % 2 ^ 16) (mac : be.beMac = rt.rtrMac)
      (key : bridgeEntryKey be = some (beKey rt.rtrVrfId rt.rtrMac))
      (length : rt.rtrMac.length = vrEtherAlen) (nonzero : ¬ (∀ b ∈ rt.rtrMac, b = 0)) :
      Added hash rt s (.ok ())
        { ht := { s.ht with table := t }, entry := update s.entry e be }

/-- The states a delete can leave. -/
inductive BridgeSys.Deleted (rt : RouteReq) (s : BridgeSys) :
    Except Errno Unit → BridgeSys → Prop where
  | refused (errno : Errno) : Deleted rt s (.error errno) s
  | freed (e : Nat) (ht : HtSys) (be : BridgeEntry) (valid : s.Valid e)
      (found : bridgeEntryKey (s.entry e) = some (beKey rt.rtrVrfId rt.rtrMac))
      (key : bridgeEntryKey be = none) (inv : ∃ place cont, HtInv ht place cont)
      (shape : ht.table.shape = s.ht.table.shape) (released : s.ht.table.Releases ht.table e) :
      Deleted rt s (.ok ()) { ht := ht, entry := update s.entry e be }

namespace BridgeInv

variable {hash : List Octet → Nat} {s : BridgeSys} {rt : RouteReq} {ret : Except Errno Unit}

variable (h : BridgeInv hash s)
include h

theorem add (tbl : NexthopTable) (rt : RouteReq) :
    ∃ ret s', s.bridgeTableAdd hash tbl rt = some (ret, s') ∧ s.Added hash rt ret s' := by
  unfold BridgeSys.bridgeTableAdd
  split
  · exact ⟨_, _, rfl, .refused _⟩
  rename_i hlen
  split
  · exact ⟨_, _, rfl, .refused _⟩
  rename_i hzero
  split
  · exact ⟨_, _, rfl, .refused _⟩
  rename_i nh _
  split
  · exact ⟨_, _, rfl, .refused _⟩
  unfold BridgeSys.bridgeTableAddCore
  obtain ⟨r, hr, hnone, hsome⟩ := h.find rt.rtrVrfId rt.rtrMac
  rw [hr]
  cases r with
  | some e =>
    obtain ⟨hvalid, hkey⟩ := hsome e rfl
    obtain ⟨be, hbe, hvrf, hmac, hk⟩ :=
      bridgeEntrySet_entry tbl rt nh e (s.entry e) s.toTable
    refine ⟨.ok (), _, rfl, ?_⟩
    rw [hbe]
    exact .written e be hvalid hkey hvrf hmac hk
  | none =>
    obtain ⟨⟨r, t⟩, hfree⟩ := Option.ne_none_iff_exists'.mp
      (h.keyed.findFree_isSome h.tile (hash (beKey rt.rtrVrfId rt.rtrMac)))
    have hfree : vrHtableFindFreeHentry s.ht.table (hash (beKey rt.rtrVrfId rt.rtrMac)) =
        some (r, t) := hfree
    unfold BridgeSys.vrFindFreeBridgeEntry
    simp only [hfree]
    cases r with
    | none =>
      -- the table is as it was
      obtain ⟨place, cont, hi⟩ := h.keyed.inv
      obtain ⟨-, -, -, -, hsame, -⟩ := hi.findFree hfree
      refine ⟨_, _, rfl, ?_⟩
      rw [hsame rfl]
      exact .refused _
    | some e =>
      obtain ⟨be, hbe, hvrf, hmac, hk⟩ := bridgeEntrySet_entry tbl rt nh e
        { s.entry e with
          beVrfId := rt.rtrVrfId % 2 ^ 16, beMac := rt.rtrMac, beFlags := vrBeValidFlag }
        (BridgeSys.toTable { s with ht := { s.ht with table := t } })
      refine ⟨.ok (), _, rfl, ?_⟩
      simp only [hbe]
      refine .taken e t be hfree (hnone rfl) hvrf hmac ?_ (not_not.mp hlen) hzero
      rw [hk, bridgeEntryKey_eq_some]
      exact ⟨by simp [vrBeValidFlag], beKey_mod _ _⟩

theorem delete (scheduled : Bool) (rt : RouteReq) :
    ∃ ret s', s.bridgeTableDelete hash scheduled rt = some (ret, s') ∧ s.Deleted rt ret s' := by
  unfold BridgeSys.bridgeTableDelete
  split
  · exact ⟨_, _, rfl, .refused _⟩
  obtain ⟨r, hr, hnone, hsome⟩ := h.find rt.rtrVrfId rt.rtrMac
  rw [hr]
  cases r with
  | none => exact ⟨_, _, rfl, .refused _⟩
  | some e =>
    obtain ⟨hvalid, hkey⟩ := hsome e rfl
    obtain ⟨place, cont, hi⟩ := h.keyed.inv
    have hi : HtInv s.ht place cont := hi
    obtain ⟨ht, hht, hi', hrel, hkeep⟩ := hi.release scheduled hvalid.1
    obtain ⟨be, hbe, hk⟩ := bridgeTableEntryFree_entry e s.toTable
    unfold BridgeSys.bridgeTableEntryFree
    simp only [hht]
    refine ⟨.ok (), _, rfl, ?_⟩
    rw [hbe]
    exact .freed e ht be hvalid hkey hk ⟨place, cont, hi'⟩ hkeep.shape hrel

theorem of_added (ha : s.Added hash rt ret s') : BridgeInv hash s' := by
  cases ha with
  | refused => exact h
  | written e be _ _ hvrf hmac hkey => exact h.write hvrf hmac hkey
  | taken e t be hfind habsent hvrf hmac hkey hlen hzero =>
    refine h.insert hfind habsent hkey ?_
    unfold Addressed
    rw [hmac, hvrf]
    exact ⟨hlen, hzero, Nat.mod_lt _ (by decide)⟩

theorem of_deleted (hd : s.Deleted rt ret s') : BridgeInv hash s' := by
  cases hd with
  | refused => exact h
  | freed e ht be _ _ hkey hinv hshape hrel => exact h.release hkey hinv hshape hrel

/-- A step is an add, a delete, or work of the hash table. -/
theorem step_cases {a : BridgeStep} (hs : s.step hash a = some s') :
    (∃ rt ret, s.Added hash rt ret s') ∨ (∃ rt ret, s.Deleted rt ret s') ∨
      ∃ (a : HtStep) (ht : HtSys), a.Rests ∧ s.ht.step a = some ht ∧ s' = { s with ht := ht } := by
  cases a with
  | add tbl rt =>
    obtain ⟨ret, s₁, hadd, hadded⟩ := h.add tbl rt
    have hs : (s.bridgeTableAdd hash tbl rt).map Prod.snd = some s' := hs
    rw [hadd] at hs
    cases hs
    exact .inl ⟨rt, ret, hadded⟩
  | delete rt scheduled =>
    obtain ⟨ret, s₁, hdel, hdeleted⟩ := h.delete scheduled rt
    have hs : (s.bridgeTableDelete hash scheduled rt).map Prod.snd = some s' := hs
    rw [hdel] at hs
    cases hs
    exact .inr (.inl ⟨rt, ret, hdeleted⟩)
  | work d alloc =>
    obtain ⟨ht, hht, rfl⟩ := Option.map_eq_some_iff.mp hs
    exact .inr (.inr ⟨.work d alloc, ht, trivial, hht, rfl⟩)
  | callback ent =>
    obtain ⟨ht, hht, rfl⟩ := Option.map_eq_some_iff.mp hs
    exact .inr (.inr ⟨.callback ent, ht, trivial, hht, rfl⟩)
  | setNotReady notReady =>
    cases hs
    exact .inr (.inr ⟨.setNotReady notReady, _, trivial, rfl, rfl⟩)

theorem step {a : BridgeStep} (hs : s.step hash a = some s') :
    BridgeInv hash s' ∧ s'.ht.table.shape = s.ht.table.shape := by
  obtain ⟨place, cont, hi⟩ := h.keyed.inv
  rcases h.step_cases hs with ⟨rt, ret, hadded⟩ | ⟨rt, ret, hdeleted⟩ | ⟨a, ht, ha, hht, rfl⟩
  · refine ⟨h.of_added hadded, ?_⟩
    cases hadded with
    | refused | written => rfl
    | taken e t be hfind =>
      obtain ⟨-, -, -, hshape, -⟩ := hi.findFree hfind
      exact hshape
  · refine ⟨h.of_deleted hdeleted, ?_⟩
    cases hdeleted with
    | refused => rfl
    | freed e ht be _ _ _ _ hshape => exact hshape
  · obtain ⟨-, -, -, hshape, -⟩ := hi.rests ha hht
    exact ⟨h.rests ha hht, hshape⟩

end BridgeInv

/-! ## A new table -/

section

variable (h : bridgeTableInit vrBridgeEntries vrBridgeOentries = some t)
include h

theorem bridgeTableInit_tile
    (hfit : t.EntriesFit sizeofBridgeEntry) : t.htBucketSize = 4 ∧ t.BucketsTile := by
  obtain ⟨hc, -, -, hB, -⟩ := vrHtableCreate_created h
  have hlt := hfit.lt
  exact ⟨hB, bucketsTile_of_two_pow (m := 2) hB hc.dvd hc.hentries_pos (by omega)⟩

theorem initial_not_valid
    (notReady : Bool) (i : Nat) : ¬ (BridgeSys.initial t notReady).Valid i := by
  rintro ⟨-, hv⟩
  have hc := (vrHtableCreate_created h).1
  cases (hc.not_valid i).symm.trans hv

theorem bridgeInv_initial (hfit : t.EntriesFit sizeofBridgeEntry) (hash : List Octet → Nat)
    (notReady : Bool) : BridgeInv hash (.initial t notReady) := by
  have hc := (vrHtableCreate_created h).1
  have hnone := initial_not_valid h notReady
  refine ⟨?_, (bridgeTableInit_tile h hfit).2, fun i _ hk => (hk (if_pos (Nat.zero_and _))).elim,
    fun i j hi => absurd hi (hnone i), fun i hi => absurd hi (hnone i)⟩
  have hlive : (BridgeSys.initial t notReady).keyed.live = fun _ => false := by
    funext i
    rw [← Bool.not_eq_true, BridgeSys.keyed_live]
    exact hnone i
  have heq : (BridgeSys.initial t notReady).keyed = KeyedSys.initial t notReady := by
    have hkeys : (BridgeSys.initial t notReady).keyed.keys = fun _ => none := by
      funext i
      exact if_pos (Nat.zero_and _)
    show KeyedSys.mk (.initial t notReady) (BridgeSys.initial t notReady).keyed.keys
      (BridgeSys.initial t notReady).keyed.live = _
    rw [hkeys, hlive]
    rfl
  rw [heq]
  exact hc.keyedInv hfit.lt hash notReady

end

theorem BridgeInv.run {hash : List Octet → Nat} {s : BridgeSys} (h : BridgeInv hash s)
    {as : List BridgeStep} (hrun : runSteps (BridgeSys.step hash) s as = some s') :
    BridgeInv hash s' ∧ s'.ht.table.shape = s.ht.table.shape := by
  refine runSteps_invariant
    (I := fun s' => BridgeInv hash s' ∧ s'.ht.table.shape = s.ht.table.shape)
    (fun s₁ a s₂ hI hs => ?_) ⟨h, rfl⟩ hrun
  obtain ⟨hinv, hshape⟩ := hI.1.step hs
  exact ⟨hinv, hshape.trans hI.2⟩

end VRouter
