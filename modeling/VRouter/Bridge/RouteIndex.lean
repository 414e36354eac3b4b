import VRouter.Bridge.Dump
import VRouter.Mtrie.Dump

/-!
# VRouter — the bridge index of a route

A route that is added with a MAC address keeps the index of the bridge entry of its VRF and that
address. The index is the number of a slot of the hash table: the bridge entry can be deleted and
the slot taken for another key, and nothing tells the route. `bridgeIndex_resolves` says that this
is the only way in which the index of a route can lead to another MAC address;
`bridgeIndex_resolves_to_other` that it does happen.

To say which add a slot of the route table belongs to, `SlotHistory` keeps a second route table to
which the same routes are added with numbers in place of bridge indices. `mtrie_add` does not look
at the index, so the two tables have the same slots (`SlotsAgree`).
-/

namespace VRouter

open LongestMatch Function

/-! ## Route tables that differ in their bridge indices -/

/-- The fields of two entries; `P` relates the bridge indices. -/
structure InfoAgree (P : Nat → Nat → Prop) (info info' : EntryInfo) : Prop where
  plen : info'.entryPrefixLen = info.entryPrefixLen
  index : P info.entryBridgeIndex info'.entryBridgeIndex

/-- Two trees with the same buckets and nexthops, whose bridge indices `P` relates. -/
inductive SlotsAgree (P : Nat → Nat → Prop) : IpBucketEntry → IpBucketEntry → Prop where
  | nexthop (nh : Option Nexthop) {info info' : EntryInfo} (h : InfoAgree P info info') :
      SlotsAgree P (.nexthop nh info) (.nexthop nh info')
  | nullBucket {info info' : EntryInfo} (h : InfoAgree P info info') :
      SlotsAgree P (.nullBucket info) (.nullBucket info')
  | bucket {bkt bkt' : Fin 256 → IpBucketEntry} {info info' : EntryInfo}
      (h : InfoAgree P info info') (slots : ∀ i, SlotsAgree P (bkt i) (bkt' i)) :
      SlotsAgree P (.bucket bkt info) (.bucket bkt' info')

namespace SlotsAgree

variable {P Q : Nat → Nat → Prop} {ent ent' : IpBucketEntry} {tbl : NexthopTable} {rt : RouteReq}
  {index : Nat}

theorem info (h : SlotsAgree P ent ent') : InfoAgree P ent.info ent'.info := by
  cases h with
  | nexthop nh h => exact h
  | nullBucket h => exact h
  | bucket h => exact h

theorem mono (hPQ : ∀ i i', P i i' → Q i i') (h : SlotsAgree P ent ent') :
    SlotsAgree Q ent ent' := by
  have hinfo : ∀ {info info'}, InfoAgree P info info' → InfoAgree Q info info' :=
    fun h => ⟨h.plen, hPQ _ _ h.index⟩
  induction h with
  | nexthop nh h => exact .nexthop nh (hinfo h)
  | nullBucket h => exact .nullBucket (hinfo h)
  | bucket h _ ih => exact .bucket (hinfo h) ih

theorem slotAt (h : SlotsAgree P ent ent') {path : List Octet} {slot : IpBucketEntry}
    (hslot : VRouter.slotAt ent path = some slot) :
    ∃ slot', VRouter.slotAt ent' path = some slot' ∧ SlotsAgree P slot slot' := by
  induction path generalizing ent ent' with
  | nil =>
    rw [slotAt_nil] at hslot
    cases hslot
    exact ⟨ent', slotAt_nil ent', h⟩
  | cons i path ih =>
    cases h with
    | nexthop | nullBucket => cases hslot
    | bucket h slots => exact ih (slots i) hslot

theorem reqInfo (hindex : P rt.rtrIndex index) (plen : Nat) :
    InfoAgree P (VRouter.reqInfo rt plen) (VRouter.reqInfo { rt with rtrIndex := index } plen) :=
  ⟨rfl, hindex⟩

theorem addToTree (hindex : P rt.rtrIndex index) (h : SlotsAgree P ent ent') (level : Nat) :
    SlotsAgree P (VRouter.addToTree tbl rt level ent)
      (VRouter.addToTree tbl { rt with rtrIndex := index } level ent') := by
  induction h generalizing level with
  | nexthop nh h =>
    unfold VRouter.addToTree
    simp only [h.plen]
    split
    · exact .nexthop nh h
    · exact .nexthop _ (reqInfo hindex _)
  | nullBucket h => exact .nullBucket h
  | bucket h slots ih =>
    unfold VRouter.addToTree
    simp only [h.plen]
    split
    · exact .bucket h slots
    · split
      · exact .bucket ⟨rfl, h.index⟩ slots
      · exact .bucket ⟨rfl, h.index⟩ fun i => ih i (level + 1)

theorem addSlots {visit visit' : IpBucketEntry → IpBucketEntry}
    (hvisit : ∀ e e', SlotsAgree P e e' → SlotsAgree P (visit e) (visit' e')) (fin : Nat)
    {i : Fin 256} {bkt bkt' : Fin 256 → IpBucketEntry} (h : ∀ j, SlotsAgree P (bkt j) (bkt' j))
    (j : Fin 256) :
    SlotsAgree P (VRouter.addSlots visit fin i bkt j) (VRouter.addSlots visit' fin i bkt' j) := by
  induction fin generalizing i bkt bkt' with
  | zero => exact h j
  | succ fin ih =>
    refine ih fun k => ?_
    split
    · exact hvisit _ _ (h i)
    · exact h k

/-- What a descent returns in two trees. -/
def Results (P : Nat → Nat → Prop) (x x' : Except Errno Unit × IpBucketEntry) : Prop :=
  x'.1 = x.1 ∧ SlotsAgree P x.2 x'.2

/-- The descent of an add goes the same way in both trees. Induction on the levels left. -/
theorem mtrieAddLevels (alloc : Nat → Bool) (hindex : P rt.rtrIndex index) (fuel level : Nat)
    (h : SlotsAgree P ent ent') :
    Results P (VRouter.mtrieAddLevels tbl alloc rt fuel level ent)
      (VRouter.mtrieAddLevels tbl alloc { rt with rtrIndex := index } fuel level ent') := by
  induction fuel generalizing level ent ent' with
  | zero => exact ⟨rfl, h⟩
  | succ fuel ih =>
    have hbucket : ∀ {bkt bkt' info info'}, InfoAgree P info info' →
        (∀ i, SlotsAgree P (bkt i) (bkt' i)) →
        Results P (VRouter.mtrieAddLevels tbl alloc rt (fuel + 1) level (.bucket bkt info))
          (VRouter.mtrieAddLevels tbl alloc { rt with rtrIndex := index } (fuel + 1) level
            (.bucket bkt' info')) := by
      intro bkt bkt' info info' hinfo hslots
      rw [mtrieAddLevels_bucket, mtrieAddLevels_bucket]
      split
      · obtain ⟨hret, hchild⟩ := ih (level + 1) (hslots (rtToIndex rt level))
        refine ⟨hret, .bucket hinfo fun j => ?_⟩
        show SlotsAgree P (if j = rtToIndex rt level then _ else bkt j)
          (if j = rtToIndex rt level then _ else bkt' j)
        split
        · exact hchild
        · exact hslots j
      · exact ⟨rfl, .bucket hinfo
          (addSlots (fun e e' he => he.addToTree hindex level) _ hslots)⟩
    cases h with
    | bucket hinfo hslots => exact hbucket hinfo hslots
    | nullBucket hinfo => exact ⟨rfl, .nullBucket hinfo⟩
    | nexthop nh hinfo =>
      cases halloc : alloc level with
      | false =>
        simp only [VRouter.mtrieAddLevels, halloc, Bool.false_eq_true, if_false]
        exact ⟨rfl, .nexthop _ hinfo⟩
      | true =>
        have hnew := @hbucket (mtrieAllocBucket tbl nh _) (mtrieAllocBucket tbl nh _) _ _
          hinfo fun _ => .nexthop _ hinfo
        rw [mtrieAddLevels_nexthop halloc, mtrieAddLevels_nexthop halloc]
        generalize VRouter.mtrieAddLevels tbl alloc rt (fuel + 1) level _ = x at hnew
        generalize VRouter.mtrieAddLevels tbl alloc { rt with rtrIndex := index } (fuel + 1) level _
          = x' at hnew
        obtain ⟨ret, e⟩ := x
        obtain ⟨ret', e'⟩ := x'
        obtain ⟨⟨⟩, hnew⟩ := hnew
        cases ret with
        | ok => exact ⟨rfl, hnew⟩
        | error err => exact ⟨rfl, .nexthop _ hinfo⟩

end SlotsAgree

/-- The tables of all VRFs. -/
structure TablesAgree (P : Nat → Nat → Nat → Prop) (st st' : RouteTables) : Prop where
  vrfs : st'.vrVrfs = st.vrVrfs
  roots : ∀ family vrfId,
    Option.Rel (SlotsAgree (P vrfId)) (st.vnRtable family vrfId) (st'.vnRtable family vrfId)

namespace TablesAgree

variable {P Q : Nat → Nat → Nat → Prop} {st st' : RouteTables} {vrfId : Nat} {family : Family}

theorem mono (hPQ : ∀ v i i', P v i i' → Q v i i') (h : TablesAgree P st st') :
    TablesAgree Q st st' := by
  refine ⟨h.vrfs, fun family vrfId => ?_⟩
  have hroot := h.roots family vrfId
  generalize st.vnRtable family vrfId = r at hroot
  generalize st'.vnRtable family vrfId = r' at hroot
  cases hroot with
  | none => exact .none
  | some hroot => exact .some (hroot.mono (hPQ vrfId))

section

variable (h : TablesAgree P st st')
include h

theorem vrfidToMtrie (vrfId : Nat) (family : Family) :
    Option.Rel (SlotsAgree (P vrfId)) (VRouter.vrfidToMtrie st vrfId family)
      (VRouter.vrfidToMtrie st' vrfId family) := by
  unfold VRouter.vrfidToMtrie
  rw [h.vrfs]
  split
  · exact .none
  · exact h.roots family vrfId

theorem setRoot {root root' : IpBucketEntry} (hroot : SlotsAgree (P vrfId) root root') :
    TablesAgree P (st.setRoot vrfId family root) (st'.setRoot vrfId family root') := by
  refine ⟨h.vrfs, fun f v => ?_⟩
  show Option.Rel _ (if f = family ∧ v = vrfId then _ else _)
    (if f = family ∧ v = vrfId then _ else _)
  split
  · rename_i hfv
    rw [hfv.2]
    exact .some hroot
  · exact h.roots f v

theorem addRoot (hinvalid : ∀ v, P v vrBeInvalidIndex vrBeInvalidIndex)
    (env : RouteEnv) (lookup : Nat → List Octet → Option Nat) (alloc : MtrieAlloc) (rt : RouteReq) :
    Option.Rel (SlotsAgree (P rt.rtrVrfId)) (VRouter.addRoot env alloc rt st)
      (VRouter.addRoot ⟨env.nexthops, lookup⟩ alloc rt st') := by
  unfold VRouter.addRoot
  have hroot := h.vrfidToMtrie rt.rtrVrfId rt.rtrFamily
  generalize VRouter.vrfidToMtrie st rt.rtrVrfId rt.rtrFamily = r at hroot
  generalize VRouter.vrfidToMtrie st' rt.rtrVrfId rt.rtrFamily = r' at hroot
  cases hroot with
  | some hroot => exact .some hroot
  | none =>
    cases alloc.vrf with
    | false => exact .none
    | true => exact .some (.nexthop _ ⟨rfl, hinvalid _⟩)

/-- An add keeps the tables together if the indices of the request are related. -/
theorem mtrieAdd (hinvalid : ∀ v, P v vrBeInvalidIndex vrBeInvalidIndex)
    {tbl : NexthopTable} {lookup lookup' : Nat → List Octet → Option Nat} (alloc : MtrieAlloc)
    {rt : RouteReq} (hindex : Option.Rel (P rt.rtrVrfId) (reqBridgeIndex ⟨tbl, lookup⟩ rt)
      (reqBridgeIndex ⟨tbl, lookup'⟩ rt)) :
    TablesAgree P (VRouter.mtrieAdd ⟨tbl, lookup⟩ alloc rt st).2
      (VRouter.mtrieAdd ⟨tbl, lookup'⟩ alloc rt st').2 := by
  unfold VRouter.mtrieAdd
  have hroot := h.addRoot hinvalid ⟨tbl, lookup⟩ lookup' alloc rt
  generalize VRouter.addRoot ⟨tbl, lookup⟩ alloc rt st = r at hroot
  generalize VRouter.addRoot ⟨tbl, lookup'⟩ alloc rt st' = r' at hroot
  cases hroot with
  | none => exact h
  | some hroot =>
    cases tbl.get rt.rtrNhId with
    | none => exact h.setRoot hroot
    | some nh =>
      simp only
      split
      · exact h.setRoot hroot
      generalize reqBridgeIndex ⟨tbl, lookup⟩ rt = r at hindex
      generalize reqBridgeIndex ⟨tbl, lookup'⟩ rt = r' at hindex
      cases hindex with
      | none => exact h.setRoot hroot
      | @some i i' hindex =>
        exact (h.setRoot hroot).setRoot (hroot.mtrieAddLevels alloc.bucket hindex _ 0).2

end

end TablesAgree

/-! ## Routes and bridge entries together -/

/-- The route tables and the bridge table. -/
structure RouteBridge where
  tables : RouteTables
  bridge : BridgeSys

/-- What can happen: a route add with the outcomes of its allocations and the nexthops of the
moment, or a step of the bridge table. -/
inductive RouteBridgeStep where
  | routeAdd (tbl : NexthopTable) (alloc : MtrieAlloc) (rt : RouteReq)
  | bridge (a : BridgeStep)

/-- The request `mtrie_add` makes of `vr_bridge_lookup`. -/
def bridgeReq (vrfId : Nat) (mac : List Octet) : RouteReq where
  rtrVrfId := vrfId
  rtrFamily := .inet
  rtrPrefix := []
  rtrPrefixLen := 0
  rtrLabelFlags := 0
  rtrLabel := 0
  rtrNhId := 0
  rtrMac := mac
  rtrReplacePlen := 0
  rtrIndex := vrBeInvalidIndex
  rtrNh := none

/-- The bridge index `mtrie_add` gets from `vr_bridge_lookup`. -/
def BridgeSys.bridgeIndex (hash : List Octet → Nat) (s : BridgeSys) (vrfId : Nat)
    (mac : List Octet) : Option Nat :=
  match s.bridgeTableLookup hash (bridgeReq vrfId mac) with
  | some (some _, rt) => some rt.rtrIndex
  | _ => none

def RouteBridge.step (hash : List Octet → Nat) (s : RouteBridge) :
    RouteBridgeStep → Option RouteBridge
  | .routeAdd tbl alloc rt =>
    some { s with tables := (mtrieAdd ⟨tbl, s.bridge.bridgeIndex hash⟩ alloc rt s.tables).2 }
  | .bridge a => (s.bridge.step hash a).map fun b => { s with bridge := b }

/-- No routes and a new bridge table. -/
def RouteBridge.initial (vrfs : Nat) (t : Htable) (notReady : Bool) : RouteBridge where
  tables := ⟨vrfs, fun _ _ => none⟩
  bridge := .initial t notReady

/-! ## The history of the slots -/

/-- A route add: its VRF and MAC address, the index found for them, and how many keys had taken that
slot of the bridge table by then. -/
structure RouteOrigin where
  vrfId : Nat
  mac : List Octet
  index : Nat
  since : Nat

/-- What a state does not tell: the route tables with the number of the add in place of the index,
the adds, and for each slot of the bridge table the keys that have taken it, in their order. -/
structure SlotHistory where
  origin : RouteTables
  adds : List RouteOrigin
  takers : Nat → List (Nat × List Octet)

/-- The number of an add; it is not a bridge index. -/
def stamp (k : Nat) : Nat := 2 ^ 32 + k

def SlotHistory.initial (vrfs : Nat) : SlotHistory := ⟨⟨vrfs, fun _ _ => none⟩, [], fun _ => []⟩

/-- What a step from `s` to `s'` adds to the history. -/
def SlotHistory.record (hash : List Octet → Nat) (H : SlotHistory) (s s' : RouteBridge) :
    RouteBridgeStep → SlotHistory
  | .routeAdd tbl alloc rt =>
    let index := (reqBridgeIndex ⟨tbl, s.bridge.bridgeIndex hash⟩ rt).getD vrBeInvalidIndex
    { H with
      origin := (mtrieAdd ⟨tbl, fun v m => (s.bridge.bridgeIndex hash v m).map fun _ =>
        stamp H.adds.length⟩ alloc rt H.origin).2
      adds := H.adds ++ [⟨rt.rtrVrfId, rt.rtrMac, index, (H.takers index).length⟩] }
  | .bridge _ =>
    { H with
      takers := fun i =>
        if ¬ s.bridge.Valid i ∧ s'.bridge.Valid i then
          H.takers i ++ [((s'.bridge.entry i).beVrfId, (s'.bridge.entry i).beMac)]
        else H.takers i }

/-- A step with its record. -/
def RouteBridge.recorded (hash : List Octet → Nat) (x : RouteBridge × SlotHistory)
    (a : RouteBridgeStep) : Option (RouteBridge × SlotHistory) :=
  (x.1.step hash a).map fun s' => (s', x.2.record hash x.1 s' a)

/-- The index in a slot of VRF `v` and the number in the same slot of `origin`. -/
def SlotHistory.Stamped (H : SlotHistory) (v index number : Nat) : Prop :=
  (index = vrBeInvalidIndex ∧ number = vrBeInvalidIndex) ∨
    ∃ k a, number = stamp k ∧ H.adds[k]? = some a ∧ a.vrfId = v ∧ a.index = index

/-- The slot at the end of a path was written by add number `k`. -/
def SlotHistory.WrittenBy (H : SlotHistory) (family : Family) (v : Nat) (path : List Octet)
    (k : Nat) : Prop :=
  ∃ root slot, vrfidToMtrie H.origin v family = some root ∧ slotAt root path = some slot ∧
    slot.info.entryBridgeIndex = stamp k

/-- The history of a state. -/
structure Recorded (hash : List Octet → Nat) (s : RouteBridge) (H : SlotHistory) : Prop where
  bridge : BridgeInv hash s.bridge
  slots : TablesAgree H.Stamped s.tables H.origin
  last : ∀ i, s.bridge.Valid i →
    (H.takers i).getLast? = some ((s.bridge.entry i).beVrfId, (s.bridge.entry i).beMac)
  since : ∀ a ∈ H.adds, a.index ≠ vrBeInvalidIndex → a.since ≤ (H.takers a.index).length ∧
    ((H.takers a.index).take a.since).getLast? = some (a.vrfId % 2 ^ 16, a.mac)

namespace BridgeInv

variable {hash : List Octet → Nat} {s s' : BridgeSys}

/-- An entry that is in use before and after a step keeps its key. -/
theorem step_entry (h : BridgeInv hash s) {a : BridgeStep} (hs : s.step hash a = some s') {i : Nat}
    (hi : s.Valid i) (hi' : s'.Valid i) :
    (s'.entry i).beVrfId = (s.entry i).beVrfId ∧ (s'.entry i).beMac = (s.entry i).beMac := by
  rcases h.step_cases hs with ⟨rt, ret, hadded⟩ | ⟨rt, ret, hdeleted⟩ | ⟨a, ht, -, -, rfl⟩
  · cases hadded with
    | refused => exact ⟨rfl, rfl⟩
    | written e be _ _ hvrf hmac =>
      by_cases hie : i = e
      · subst hie
        simp only [update_self]
        exact ⟨hvrf, hmac⟩
      · simp only [update_of_ne hie]
        exact ⟨trivial, trivial⟩
    | taken e t be hfind =>
      -- the entry was not in use
      obtain ⟨place, cont, hht⟩ := h.keyed.inv
      have hht : HtInv s.ht place cont := hht
      obtain ⟨-, -, -, -, -, hinserts⟩ := hht.findFree hfind
      have hie : i ≠ e := by
        rintro rfl
        have := (hinserts i rfl).fresh
        rw [hi.2] at this
        cases this
      simp only [update_of_ne hie]
      exact ⟨trivial, trivial⟩
  · cases hdeleted with
    | refused => exact ⟨rfl, rfl⟩
    | freed e ht be _ _ _ _ _ hrel =>
      -- the entry is no longer in use
      have hie : i ≠ e := by
        rintro rfl
        have hgone := (hrel i).1
        rw [if_pos rfl] at hgone
        have hin : (ht.table.hentry i).flagValid = true := hi'.2
        rw [hgone] at hin
        cases hin
      simp only [update_of_ne hie]
      exact ⟨trivial, trivial⟩
  · exact ⟨rfl, rfl⟩

theorem bridgeIndex_eq_some (h : BridgeInv hash s) {v i : Nat} {m : List Octet}
    (hm : m.length = vrEtherAlen) (hindex : s.bridgeIndex hash v m = some i) :
    s.Valid i ∧ (s.entry i).beVrfId = v % 2 ^ 16 ∧ (s.entry i).beMac = m := by
  obtain ⟨r, hr, -, hsome⟩ := h.find v m
  unfold BridgeSys.bridgeIndex BridgeSys.bridgeTableLookup at hindex
  simp only [bridgeReq, hr] at hindex
  cases r with
  | none => cases hindex
  | some e =>
    obtain ⟨hvalid, hkey⟩ := hsome e rfl
    obtain ⟨place, cont, hi⟩ := h.keyed.inv
    have hi : HtInv s.ht place cont := hi
    have hie : e = i := by
      cases hnh : (s.entry e).beNh with
      | none =>
        simp only [hnh] at hindex
        cases hindex
      | some nh =>
        simp only [hnh, hi.owned.index e hvalid.1] at hindex
        exact Option.some.inj hindex
    subst hie
    obtain ⟨hlen, -, hvrf⟩ := h.mac e hvalid
    obtain ⟨hv, hmac⟩ := beKey_inj (hlen.trans hm.symm) (bridgeEntryKey_eq_some.mp hkey).2
    exact ⟨hvalid, by omega, hmac⟩

end BridgeInv

namespace Recorded

variable {hash : List Octet → Nat} {s s' : RouteBridge} {H : SlotHistory}

theorem initial {entries oentries : Nat} {t : Htable}
    (hinit : bridgeTableInit entries oentries = some t) (hfit : t.EntriesFit sizeofBridgeEntry)
    (hash : List Octet → Nat) (vrfs : Nat) (notReady : Bool) :
    Recorded hash (.initial vrfs t notReady) (.initial vrfs) := by
  refine ⟨bridgeInv_initial hinit hfit hash notReady, ⟨rfl, fun _ _ => .none⟩, ?_, nofun⟩
  exact fun i hi => absurd hi (initial_not_valid hinit notReady i)

/-- A route add writes the index of the entry that is in use for its key. -/
theorem routeAdd (h : Recorded hash s H) (tbl : NexthopTable) (alloc : MtrieAlloc) (rt : RouteReq)
    (hs : s.step hash (.routeAdd tbl alloc rt) = some s') :
    Recorded hash s' (H.record hash s s' (.routeAdd tbl alloc rt)) := by
  cases hs
  generalize hH : H.record hash s _ (.routeAdd tbl alloc rt) = H'
  generalize hindex : reqBridgeIndex ⟨tbl, s.bridge.bridgeIndex hash⟩ rt = found
  have hadds : H'.adds = H.adds ++ [⟨rt.rtrVrfId, rt.rtrMac, found.getD vrBeInvalidIndex,
      (H.takers (found.getD vrBeInvalidIndex)).length⟩] := by
    rw [← hH, ← hindex]
    rfl
  have htakers : H'.takers = H.takers := by
    rw [← hH]
    rfl
  have horigin : H'.origin = (mtrieAdd ⟨tbl, fun v m => (s.bridge.bridgeIndex hash v m).map
      fun _ => stamp H.adds.length⟩ alloc rt H.origin).2 := by
    rw [← hH]
    rfl
  -- what has been recorded stays
  have hmono : ∀ v i n, H.Stamped v i n → H'.Stamped v i n := by
    rintro v i n (hinvalid | ⟨k, a, hn, ha, hv, hi⟩)
    · exact Or.inl hinvalid
    · refine Or.inr ⟨k, a, hn, ?_, hv, hi⟩
      rw [hadds, List.getElem?_append_left (List.getElem?_eq_some_iff.mp ha).1, ha]
  refine ⟨h.bridge, ?_, ?_, ?_⟩
  · rw [horigin]
    refine (h.slots.mono hmono).mtrieAdd (fun _ => Or.inl ⟨rfl, rfl⟩) alloc ?_
    rw [hindex]
    unfold reqBridgeIndex at hindex ⊢
    split at hindex
    · rename_i hcarried
      rw [if_pos hcarried]
      have hindex : s.bridge.bridgeIndex hash rt.rtrVrfId rt.rtrMac = found := hindex
      simp only [hindex]
      cases found with
      | none => exact .none
      | some i =>
        refine .some (Or.inr ⟨H.adds.length, ⟨rt.rtrVrfId, rt.rtrMac, i, (H.takers i).length⟩, rfl,
          ?_, rfl, rfl⟩)
        rw [hadds, List.getElem?_concat_length]
        rfl
    · rename_i hcarried
      rw [if_neg hcarried, ← hindex]
      exact .some (Or.inl ⟨rfl, rfl⟩)
  · rw [htakers]
    exact h.last
  · intro a ha hne
    rw [htakers]
    rw [hadds, List.mem_append, List.mem_singleton] at ha
    rcases ha with ha | rfl
    · exact h.since a ha hne
    -- the slot has been found by the key, which is the last that took it
    simp only [List.take_length, le_refl, true_and]
    unfold reqBridgeIndex at hindex
    split at hindex
    · rename_i hcarried
      cases found with
      | none => exact absurd rfl hne
      | some i =>
        obtain ⟨hvalid, hvrf, hmac⟩ := h.bridge.bridgeIndex_eq_some hcarried.1 hindex
        rw [Option.getD_some, h.last i hvalid, hvrf, hmac]
    · rw [← hindex] at hne
      exact absurd rfl hne

theorem bridgeStep (h : Recorded hash s H) (a : BridgeStep)
    (hs : s.step hash (.bridge a) = some s') :
    Recorded hash s' (H.record hash s s' (.bridge a)) := by
  obtain ⟨b, hb, rfl⟩ := Option.map_eq_some_iff.mp hs
  have htakers : ∀ i, ∃ l, (H.record hash s { s with bridge := b } (.bridge a)).takers i =
      H.takers i ++ l := by
    intro i
    show ∃ l, (if ¬ s.bridge.Valid i ∧ b.Valid i then _ else H.takers i) = _
    split
    · exact ⟨_, rfl⟩
    · exact ⟨[], (List.append_nil _).symm⟩
  refine ⟨(h.bridge.step hb).1, h.slots, fun i hi => ?_, fun a ha hne => ?_⟩
  · show (if ¬ s.bridge.Valid i ∧ b.Valid i then _ else H.takers i).getLast? = _
    split
    · rw [List.getLast?_concat]
    rename_i hnot
    have hbefore : s.bridge.Valid i := by
      by_contra hbefore
      exact hnot ⟨hbefore, hi⟩
    obtain ⟨hvrf, hmac⟩ := h.bridge.step_entry hb hbefore hi
    rw [h.last i hbefore]
    simp only [hvrf, hmac]
  · obtain ⟨hle, hlast⟩ := h.since a ha hne
    obtain ⟨l, hl⟩ := htakers a.index
    rw [hl, List.take_append_of_le_length hle, List.length_append]
    exact ⟨by omega, hlast⟩

theorem run (h : Recorded hash s H) {as : List RouteBridgeStep} {x : RouteBridge × SlotHistory}
    (hrun : runSteps (RouteBridge.recorded hash) (s, H) as = some x) : Recorded hash x.1 x.2 := by
  refine runSteps_invariant (I := fun x => Recorded hash x.1 x.2) (fun x a x' hx hs => ?_) h hrun
  obtain ⟨s', hs', rfl⟩ := Option.map_eq_some_iff.mp hs
  cases a with
  | routeAdd tbl alloc rt => exact hx.routeAdd tbl alloc rt hs'
  | bridge a => exact hx.bridgeStep a hs'

/-- An entry in the slot a route's index names has the key of the route, or another key has taken
the slot since the route was added. -/
theorem entryByIndex_of_add (h : Recorded hash s H) {a : RouteOrigin} (ha : a ∈ H.adds)
    (hne : a.index ≠ vrBeInvalidIndex) {be : BridgeEntry}
    (hbe : s.bridge.entryByIndex a.index = some be) :
    (be.beVrfId = a.vrfId % 2 ^ 16 ∧ be.beMac = a.mac) ∨
      ∃ key ∈ (H.takers a.index).drop a.since, key ≠ (a.vrfId % 2 ^ 16, a.mac) := by
  obtain ⟨e, hget, rfl⟩ := Option.map_eq_some_iff.mp hbe
  have hvalid : s.bridge.Valid a.index := by
    by_contra hnot
    rw [(h.bridge.getByIndex a.index).2 hnot] at hget
    cases hget
  rw [(h.bridge.getByIndex a.index).1 hvalid] at hget
  cases hget
  have hlast := h.last a.index hvalid
  obtain ⟨-, hthen⟩ := h.since a ha hne
  -- the last key is one of those since the add, or the one the add found
  rw [← List.take_append_drop a.since (H.takers a.index), List.getLast?_append, hthen] at hlast
  cases hnew : ((H.takers a.index).drop a.since).getLast? with
  | none =>
    rw [hnew] at hlast
    have hkey := Option.some.inj hlast
    exact Or.inl ⟨(congrArg Prod.fst hkey).symm, (congrArg Prod.snd hkey).symm⟩
  | some key =>
    rw [hnew] at hlast
    have hkey : key = _ := Option.some.inj hlast
    by_cases hown : key = (a.vrfId % 2 ^ 16, a.mac)
    · rw [hkey] at hown
      exact Or.inl ⟨congrArg Prod.fst hown, congrArg Prod.snd hown⟩
    · exact Or.inr ⟨key, List.mem_of_getLast? hnew, hown⟩

end Recorded

/-- Over every interleaving of route adds, bridge adds, bridge deletes and the hash table's work:
a slot of a route table with a bridge index was written by a route add of its VRF which found the
index for its MAC address, and `vr_bridge_lookup` with the index yields nothing, or the VRF and the
MAC address of that add, unless the slot of the bridge table has been taken by another key since. -/
theorem bridgeIndex_resolves {entries oentries : Nat} {t : Htable}
    (hinit : bridgeTableInit entries oentries = some t) (hfit : t.EntriesFit sizeofBridgeEntry)
    {hash : List Octet → Nat} {vrfs : Nat} {notReady : Bool} {as : List RouteBridgeStep}
    {s : RouteBridge} {H : SlotHistory}
    (hrun : runSteps (RouteBridge.recorded hash) (.initial vrfs t notReady, .initial vrfs) as =
      some (s, H))
    {family : Family} {v : Nat} {root slot : IpBucketEntry} {path : List Octet}
    (hroot : vrfidToMtrie s.tables v family = some root) (hslot : slotAt root path = some slot)
    (hindex : slot.info.entryBridgeIndex ≠ vrBeInvalidIndex) :
    ∃ k a, H.adds[k]? = some a ∧ H.WrittenBy family v path k ∧ a.vrfId = v ∧
      a.index = slot.info.entryBridgeIndex ∧
      ∀ rq : RouteReq, rq.rtrIndex = slot.info.entryBridgeIndex → rq.rtrMac ≠ [] →
        ∃ nh rq', s.bridge.bridgeTableLookup hash rq = some (nh, rq') ∧
          ((nh = none ∧ rq'.rtrMac = rq.rtrMac) ∨
            (∃ be, s.bridge.entryByIndex rq.rtrIndex = some be ∧ nh = be.beNh ∧
              be.beVrfId = v % 2 ^ 16 ∧ be.beMac = a.mac ∧ rq'.rtrMac = a.mac) ∨
            ∃ key ∈ (H.takers a.index).drop a.since, key ≠ (v % 2 ^ 16, a.mac)) := by
  have h : Recorded hash s H := (Recorded.initial hinit hfit hash vrfs notReady).run hrun
  have hroots := h.slots.vrfidToMtrie v family
  rw [hroot] at hroots
  generalize hroot' : vrfidToMtrie H.origin v family = r at hroots
  cases hroots with
  | @some _ root' hagree =>
    obtain ⟨slot', hslot', hagree'⟩ := hagree.slotAt hslot
    rcases hagree'.info.index with ⟨hinvalid, -⟩ | ⟨k, a, hk, ha, hv, hi⟩
    · exact absurd hinvalid hindex
    refine ⟨k, a, ha, ⟨root', slot', hroot', hslot', hk⟩, hv, hi, fun rq hrq hmac => ?_⟩
    rw [← hrq] at hi hindex
    unfold BridgeSys.bridgeTableLookup
    simp only [if_pos hindex, if_neg hmac]
    cases hbe : s.bridge.entryByIndex rq.rtrIndex with
    | none => exact ⟨_, _, rfl, Or.inl ⟨rfl, rfl⟩⟩
    | some be =>
      refine ⟨_, _, rfl, Or.inr ?_⟩
      rw [← hi] at hindex hbe
      have hkey := h.entryByIndex_of_add (List.mem_of_getElem? ha) hindex hbe
      rw [hv] at hkey
      exact hkey.imp_left fun ⟨hvrf, hown⟩ => ⟨be, rfl, rfl, hvrf, hown, hown⟩

/-- A route add of `1.0.0.0/8` with MAC address number `k` in VRF 0. -/
def routeNumber (k : Nat) : RouteBridgeStep :=
  .routeAdd sampleNexthops .all
    { sampleReq [1, 0, 0, 0] 8 nhDiscardId 0 with rtrMac := macNumber k }

/-- The index in the slot of `1.0.0.0/8`. -/
def RouteBridge.slotIndex (s : RouteBridge) : Option Nat :=
  ((vrfidToMtrie s.tables 0 .inet).bind fun root => slotAt root [1]).map fun slot =>
    slot.info.entryBridgeIndex

/-- A bridge entry, and a route with its MAC address. -/
theorem bridgeIndex_resolves_own :
    ∃ t s H, bridgeTableInit 4 4 = some t ∧
      runSteps (RouteBridge.recorded fun _ => 0) (.initial 1 t false, .initial 1)
        [.bridge (.add sampleNexthops (addNumber 0)), routeNumber 0] = some (s, H) ∧
      ∃ k a, H.adds[k]? = some a ∧ H.WrittenBy .inet 0 [1] k ∧ a.vrfId = 0 ∧
        s.slotIndex = some a.index := by
  have hinit : bridgeTableInit 4 4 = some ((bridgeTableInit 4 4).get rfl) := rfl
  have hfit : ((bridgeTableInit 4 4).get rfl).EntriesFit sizeofBridgeEntry :=
    ⟨by decide, ⟨by decide, by decide⟩, ⟨by decide, by decide⟩⟩
  have hrun : (runSteps (RouteBridge.recorded fun _ => 0)
      (.initial 1 ((bridgeTableInit 4 4).get rfl) false, .initial 1)
      [.bridge (.add sampleNexthops (addNumber 0)), routeNumber 0]).any
        (fun x => decide (x.1.slotIndex = some 0)) = true := by decide +kernel
  obtain ⟨⟨s, H⟩, hs, hindex⟩ := (Option.any_eq_true _ _).mp hrun
  have hindex := of_decide_eq_true hindex
  obtain ⟨slot, hslot, h0⟩ := Option.map_eq_some_iff.mp hindex
  obtain ⟨root, hroot, hslot⟩ := Option.bind_eq_some_iff.mp hslot
  obtain ⟨k, a, ha, hwritten, hv, hi, -⟩ :=
    bridgeIndex_resolves hinit hfit hs hroot hslot (by rw [h0]; decide)
  exact ⟨_, s, H, hinit, hs, k, a, ha, hwritten, hv, by rw [hi, h0]; exact hindex⟩

/-- The bridge entry of a route's MAC address is deleted and its slot taken for another address:
`vr_bridge_lookup` with the route's index yields the other one. -/
theorem bridgeIndex_resolves_to_other :
    ∃ t s, bridgeTableInit 4 4 = some t ∧ t.EntriesFit sizeofBridgeEntry ∧
      runSteps (RouteBridge.step fun _ => 0) (.initial 1 t false)
        [.bridge (.add sampleNexthops (addNumber 0)), routeNumber 0,
          .bridge (.delete (addNumber 0) true), .bridge (.add sampleNexthops (addNumber 1))] =
        some s ∧
      s.slotIndex = some 0 ∧
      (s.bridge.bridgeTableLookup (fun _ => 0)
        { bridgeReq 0 (List.replicate vrEtherAlen 0) with rtrIndex := 0 }).map
          (fun r => r.2.rtrMac) = some (macNumber 1) ∧
      macNumber 1 ≠ macNumber 0 := by
  exact ⟨_, _, rfl, ⟨by decide, ⟨by decide, by decide⟩, ⟨by decide, by decide⟩⟩,
    (Option.some_get (by decide +kernel)).symm, by decide +kernel, by decide +kernel, by decide⟩

end VRouter
