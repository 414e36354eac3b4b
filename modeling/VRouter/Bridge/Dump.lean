import VRouter.Bridge.Table
import VRouter.Htable.Settle
import VRouter.Lib.Paging
import VRouter.Mtrie.Lookup

/-!
# VRouter — dumping the bridge table

A dump lists the entries of one VRF in the order of their indices, in pages; the next page is asked
for with the MAC address of the last entry received. The loop of `__bridge_table_dump` runs over the
*configured* number of entries, while `vr_htable_create` rounds the number of main entries up to
whole buckets of four. `bridgeTableDump_complete_iff` says that this is harmless exactly if the
configured number is a multiple of four: otherwise the last entries of the overflow part, or of the
only bucket, are never listed.
-/

namespace VRouter

open LongestMatch BridgeSys

/-! ## Functions of the source -/

/-- What `bridge_entry_make_req` tells of an entry. -/
structure BridgeResp where
  rtrMac : List Octet
  rtrVrfId : Nat
  rtrNhId : Nat
  rtrLabel : Nat
  rtrLabelFlags : Nat
  rtrIndex : Nat
  deriving DecidableEq, Repr

/-- `struct vr_message_dumper`: whether the loop is past the marker, and the buffer. -/
structure BridgeDumper where
  dumpBeenToMarker : Bool
  dumpBuffer : Paging.Buffer BridgeResp

namespace BridgeSys

variable (s : BridgeSys)

/-- `bridge_entry_make_req`, if the MAC address can be allocated. -/
def bridgeEntryMakeReq (i : Nat) : BridgeResp where
  rtrMac := (s.entry i).beMac
  rtrVrfId := (s.entry i).beVrfId
  rtrNhId := match (s.entry i).beNh with
    | some nh => nh.nhId
    | none => 0
  rtrLabel := (s.entry i).beLabel
  rtrLabelFlags := (s.entry i).beFlags
  rtrIndex := (s.ht.table.hentry i).hentryIndex

/-- The loop of `__bridge_table_dump` from index `i` on. `alloc i` tells whether the response for
entry `i` can be allocated; if not, the entry is passed over. -/
def bridgeDumpLoop (alloc : Nat → Bool) (vrfId : Nat) (mac : List Octet) :
    (left i : Nat) → BridgeDumper → BridgeDumper
  | 0, _, d => d
  | left + 1, i, d =>
    match vrHtableGetHentryByIndex s.ht.table i with
    | none => bridgeDumpLoop alloc vrfId mac left (i + 1) d
    | some e =>
      if (s.entry e).beFlags &&& vrBeValidFlag = 0 ∨ (s.entry e).beVrfId ≠ vrfId then
        bridgeDumpLoop alloc vrfId mac left (i + 1) d
      else if d.dumpBeenToMarker = false then
        bridgeDumpLoop alloc vrfId mac left (i + 1)
          (if (s.entry e).beMac = mac then { d with dumpBeenToMarker := true } else d)
      else if alloc e then
        match d.dumpBuffer.put (s.bridgeEntryMakeReq e) with
        | (true, buffer) => { d with dumpBuffer := buffer }
        | (false, buffer) =>
          bridgeDumpLoop alloc vrfId mac left (i + 1) { d with dumpBuffer := buffer }
      else bridgeDumpLoop alloc vrfId mac left (i + 1) d

/-- `bridge_table_dump`: one page, and whether the loop came to its end. A dump starts with a MAC
address of zeros. -/
def bridgeTableDump (vrBridgeEntries vrBridgeOentries : Nat) (alloc : Nat → Bool) (vrfId : Nat)
    (marker : Option (List Octet)) (room : Nat) : List BridgeResp × Bool :=
  let mac := marker.getD (List.replicate vrEtherAlen 0)
  let bound := (vrBridgeEntries + bridgeOentries vrBridgeEntries vrBridgeOentries) % 2 ^ 32
  let d := s.bridgeDumpLoop alloc vrfId mac bound 0
    ⟨decide (∀ b ∈ mac, b = 0), ⟨room, false, []⟩⟩
  (d.dumpBuffer.items, !d.dumpBuffer.full)

/-! ## The entries of a VRF -/

/-- Entry `i` is a valid bridge entry of the VRF. -/
def IsEntryOf (vrfId i : Nat) : Prop :=
  s.Valid i ∧ (s.entry i).beFlags &&& vrBeValidFlag ≠ 0 ∧ (s.entry i).beVrfId = vrfId

instance (vrfId i : Nat) : Decidable (s.IsEntryOf vrfId i) :=
  inferInstanceAs (Decidable (s.Valid i ∧ _ ∧ _))

/-- The valid entries of the VRF among `left` entries from `i` on. -/
def vrfEntries (vrfId i left : Nat) : List Nat :=
  (List.range' i left).filter fun i => s.IsEntryOf vrfId i

end BridgeSys

namespace BridgeInv

variable {hash : List Octet → Nat} {s : BridgeSys} {alloc : Nat → Bool} {vrfId : Nat}
  {mac : List Octet} {d : BridgeDumper}

variable (h : BridgeInv hash s)
include h

theorem bridgeDumpLoop_succ (left i : Nat) :
    s.bridgeDumpLoop alloc vrfId mac (left + 1) i d =
      if s.IsEntryOf vrfId i then
        if d.dumpBeenToMarker = false then
          s.bridgeDumpLoop alloc vrfId mac left (i + 1)
            (if (s.entry i).beMac = mac then { d with dumpBeenToMarker := true } else d)
        else if alloc i then
          match d.dumpBuffer.put (s.bridgeEntryMakeReq i) with
          | (true, buffer) => { d with dumpBuffer := buffer }
          | (false, buffer) =>
            s.bridgeDumpLoop alloc vrfId mac left (i + 1) { d with dumpBuffer := buffer }
        else s.bridgeDumpLoop alloc vrfId mac left (i + 1) d
      else s.bridgeDumpLoop alloc vrfId mac left (i + 1) d := by
  obtain ⟨hsome, hnone⟩ := h.getByIndex i
  conv_lhs => unfold bridgeDumpLoop
  by_cases hv : s.Valid i
  · rw [hsome hv]
    simp only
    by_cases hskip : (s.entry i).beFlags &&& vrBeValidFlag = 0 ∨ (s.entry i).beVrfId ≠ vrfId
    · rw [if_pos hskip, if_neg]
      rintro ⟨-, hflag, hvrf⟩
      rcases hskip with hskip | hskip
      · exact hflag hskip
      · exact hskip hvrf
    · rw [not_or, not_not] at hskip
      have hentry : s.IsEntryOf vrfId i := ⟨hv, hskip.1, hskip.2⟩
      rw [if_neg (by tauto), if_pos hentry]
  · rw [hnone hv]
    rw [if_neg fun hentry => hv hentry.1]

/-- Past the marker the loop puts every entry of the VRF into the buffer. -/
theorem bridgeDumpLoop_all (halloc : ∀ i, alloc i = true) (left : Nat)
    {i : Nat} (hbeen : d.dumpBeenToMarker = true) :
    (s.bridgeDumpLoop alloc vrfId mac left i d).dumpBuffer =
      d.dumpBuffer.putAll ((s.vrfEntries vrfId i left).map s.bridgeEntryMakeReq) := by
  induction left generalizing i d with
  | zero => rfl
  | succ left ih =>
    rw [h.bridgeDumpLoop_succ]
    unfold vrfEntries
    rw [List.range'_succ, List.filter_cons]
    by_cases hentry : s.IsEntryOf vrfId i
    · rw [if_pos hentry, if_neg (by simp [hbeen]), if_pos (halloc i),
        if_pos (decide_eq_true hentry), List.map_cons, Paging.Buffer.putAll]
      cases d.dumpBuffer.put (s.bridgeEntryMakeReq i) with
      | mk failed buffer =>
        cases failed with
        | true => rfl
        | false => exact ih hbeen
    · rw [if_neg hentry, if_neg (by simpa using hentry)]
      exact ih hbeen

/-- Before the marker the loop looks for the entry with the marker's MAC address, and lists what
comes behind it. -/
theorem bridgeDumpLoop_marker (halloc : ∀ i, alloc i = true) (left : Nat)
    {i x : Nat} {A B : List Nat} (hbeen : d.dumpBeenToMarker = false)
    (hsplit : s.vrfEntries vrfId i left = A ++ x :: B) (hx : (s.entry x).beMac = mac)
    (hA : ∀ a ∈ A, (s.entry a).beMac ≠ mac) :
    (s.bridgeDumpLoop alloc vrfId mac left i d).dumpBuffer =
      d.dumpBuffer.putAll (B.map s.bridgeEntryMakeReq) := by
  induction left generalizing i A with
  | zero =>
    have := congrArg List.length hsplit
    simp [vrfEntries] at this
  | succ left ih =>
    rw [h.bridgeDumpLoop_succ]
    unfold vrfEntries at hsplit
    rw [List.range'_succ, List.filter_cons] at hsplit
    by_cases hentry : s.IsEntryOf vrfId i
    · rw [if_pos (decide_eq_true hentry)] at hsplit
      rw [if_pos hentry, if_pos hbeen]
      cases A with
      | nil =>
        -- the marker itself
        obtain ⟨rfl, hB⟩ := List.cons.inj hsplit
        rw [if_pos hx, ← hB]
        exact h.bridgeDumpLoop_all halloc left rfl
      | cons a A =>
        obtain ⟨rfl, hrest⟩ := List.cons.inj hsplit
        rw [if_neg (hA i (by simp))]
        exact ih hrest fun a ha => hA a (List.mem_cons_of_mem i ha)
    · rw [if_neg (by simpa using hentry)] at hsplit
      rw [if_neg hentry]
      exact ih hsplit hA

theorem eq_of_beMac_eq {i j : Nat} (hi : s.IsEntryOf vrfId i)
    (hj : s.IsEntryOf vrfId j) (hmac : (s.entry i).beMac = (s.entry j).beMac) : i = j := by
  apply h.unique i j hi.1 hj.1
  rw [h.key hi.1, h.key hj.1, hi.2.2, hj.2.2, hmac]

/-- A dump reads the entries of the VRF below the loop's bound, page by page. -/
theorem bridgeTableDump_resumes (halloc : ∀ i, alloc i = true) (entries oentries : Nat) :
    Paging.Resumes
      ((s.vrfEntries vrfId 0 ((entries + bridgeOentries entries oentries) % 2 ^ 32)).map
        s.bridgeEntryMakeReq)
      BridgeResp.rtrMac (s.bridgeTableDump entries oentries alloc vrfId) := by
  generalize hbound : (entries + bridgeOentries entries oentries) % 2 ^ 32 = bound
  have hpage : ∀ (room : Nat) (l : List BridgeResp),
      ((Paging.Buffer.putAll ⟨room, false, []⟩ l).items,
        !(Paging.Buffer.putAll ⟨room, false, []⟩ l).full) =
      (l.take room, decide (l.length ≤ room)) := by
    intro room l
    rw [(Paging.Buffer.putAll_eq _ l).1, (Paging.Buffer.putAll_eq _ l).2]
    simp [← decide_not]
  constructor
  · intro room
    unfold bridgeTableDump
    simp only [hbound]
    rw [h.bridgeDumpLoop_all halloc bound (by simp)]
    exact hpage room _
  intro L₁ resp L₂ hL room
  obtain ⟨A, C, hAC, -, hC⟩ := List.map_eq_append_iff.mp hL
  obtain ⟨x, B, rfl, rfl, rfl⟩ := List.map_eq_cons_iff.mp hC
  have hmem : ∀ i ∈ A ++ x :: B, s.IsEntryOf vrfId i := by
    intro i hi
    rw [← hAC] at hi
    exact of_decide_eq_true (List.mem_filter.mp hi).2
  have hx := hmem x (by simp)
  have hnd : (A ++ x :: B).Nodup := by
    rw [← hAC]
    exact List.Nodup.filter _ List.nodup_range'
  unfold bridgeTableDump
  simp only [hbound, Option.getD_some]
  -- the MAC address of an entry is not zero, so the loop looks for it
  have hbeen : decide (∀ b ∈ (s.entry x).beMac, b = 0) = false :=
    decide_eq_false (h.mac x hx.1).2.1
  have hmac : (s.bridgeEntryMakeReq x).rtrMac = (s.entry x).beMac := rfl
  rw [hmac, hbeen, h.bridgeDumpLoop_marker halloc bound (by rfl) hAC rfl]
  · exact hpage room _
  · intro a ha hmac
    have hax := h.eq_of_beMac_eq (hmem a (by simp [ha])) hx hmac
    subst hax
    exact absurd ha (List.disjoint_of_nodup_append hnd · (by simp))

end BridgeInv

/-! ## Entries behind the bound of the loop -/

/-- MAC addresses, numbered. -/
def macNumber (k : Nat) : List Octet :=
  [2, 0, Fin.ofNat 256 k, Fin.ofNat 256 (k / 2 ^ 8), Fin.ofNat 256 (k / 2 ^ 16),
    Fin.ofNat 256 (k / 2 ^ 24)]

theorem macNumber_inj {k k' : Nat} (hk : k < 2 ^ 32) (hk' : k' < 2 ^ 32)
    (h : macNumber k = macNumber k') : k = k' := by
  unfold macNumber at h
  simp only [List.cons.injEq, Fin.ext_iff, Fin.val_ofNat] at h
  omega

/-- An add of MAC address number `k` to VRF 0. -/
def addNumber (k : Nat) : RouteReq :=
  { sampleReq [] 0 nhDiscardId 0 with rtrMac := macNumber k }

/-- The valid entries have keys of VRF 0 and numbers below `k`. -/
def BridgeSys.NumberedBelow (s : BridgeSys) (k : Nat) : Prop :=
  ∀ i, s.Valid i → ∃ j < k, bridgeEntryKey (s.entry i) = some (beKey 0 (macNumber j))

namespace BridgeInv

variable {s : BridgeSys} {k n : Nat} {ht' : HtSys}

/-- An accepted add of a key that is not in the table does to the hash table what an insertion
does. -/
theorem bridgeTableAdd_absent {hash : List Octet → Nat} (h : BridgeInv hash s) (tbl : NexthopTable)
    (rt : RouteReq) {nh : Nexthop} {r : Option Nat} {t : Htable}
    (hlen : rt.rtrMac.length = vrEtherAlen) (hzero : ¬ (∀ b ∈ rt.rtrMac, b = 0))
    (hnh : tbl.get rt.rtrNhId = some nh) (htype : nh.nhType ≠ .tunnel)
    (habsent : ∀ i, s.Valid i → bridgeEntryKey (s.entry i) ≠ some (beKey rt.rtrVrfId rt.rtrMac))
    (hfree : vrHtableFindFreeHentry s.ht.table (hash (beKey rt.rtrVrfId rt.rtrMac)) = some (r, t)) :
    ∃ ret s', s.bridgeTableAdd hash tbl rt = some (ret, s') ∧ s'.ht = { s.ht with table := t } := by
  unfold BridgeSys.bridgeTableAdd
  rw [if_neg (not_not.mpr hlen), if_neg hzero, hnh]
  simp only
  rw [if_neg fun htunnel => htype htunnel.2]
  obtain ⟨found, hfind, -, hfound⟩ := h.find rt.rtrVrfId rt.rtrMac
  unfold BridgeSys.bridgeTableAddCore BridgeSys.vrFindFreeBridgeEntry
  cases found with
  | some e => exact absurd (hfound e rfl).2 (habsent e (hfound e rfl).1)
  | none =>
    simp only [hfind, hfree]
    cases r with
    | none | some => exact ⟨_, _, rfl, rfl⟩

theorem addNumber_step (h : BridgeInv (fun _ => 0) s) (hk : k < 2 ^ 32) (hbelow : s.NumberedBelow k)
    (hins : s.ht.step (.findFree 0) = some ht') :
    ∃ s', s.step (fun _ => 0) (.add sampleNexthops (addNumber k)) = some s' ∧ s'.ht = ht' ∧
      s'.NumberedBelow (k + 1) := by
  have habsent : ∀ i, s.Valid i → bridgeEntryKey (s.entry i) ≠ some (beKey 0 (macNumber k)) := by
    intro i hi hkey
    obtain ⟨j, hj, hkey'⟩ := hbelow i hi
    rw [hkey] at hkey'
    have hlen : (macNumber k).length = (macNumber j).length := rfl
    have hsame := (beKey_inj hlen (Option.some.inj hkey')).2
    exact Nat.ne_of_gt hj (macNumber_inj hk (by omega) hsame)
  have hzero : ¬ (∀ b ∈ macNumber k, b = 0) := by
    intro hzero
    cases hzero 2 (by simp [macNumber])
  obtain ⟨⟨r, t⟩, hfree, hht⟩ := Option.map_eq_some_iff.mp hins
  obtain ⟨ret, s', hadd, hs'⟩ := h.bridgeTableAdd_absent sampleNexthops (addNumber k) rfl hzero rfl
    nofun habsent hfree
  refine ⟨s', ?_, hs'.trans hht, ?_⟩
  · simp only [BridgeSys.step, hadd, Option.map_some]
  obtain ⟨ret', s'', hadd', hadded⟩ := h.add sampleNexthops (addNumber k)
  rw [hadd] at hadd'
  cases hadd'
  intro i hi
  cases hadded with
  | refused =>
    obtain ⟨j, hj, hkey⟩ := hbelow i hi
    exact ⟨j, by omega, hkey⟩
  | written e be hvalid hfound => exact absurd hfound (habsent e hvalid)
  | taken e t be hfind _ _ _ hkey =>
    by_cases hie : i = e
    · subst hie
      refine ⟨k, by omega, ?_⟩
      simp only [Function.update_self]
      exact hkey
    -- the other entries are as they were
    obtain ⟨place, cont, hht⟩ := h.keyed.inv
    obtain ⟨-, -, -, hshape, -, hinserts⟩ := hht.findFree hfind
    obtain ⟨hE, hO, -, -⟩ := Htable.sizes_of_shape hshape
    have hv : s.Valid i := by
      obtain ⟨hlt, hvalid⟩ := hi
      rw [hE, hO] at hlt
      rw [((hinserts e rfl).others i hie).1] at hvalid
      exact ⟨hlt, hvalid⟩
    obtain ⟨j, hj, hkey⟩ := hbelow i hv
    simp only [Function.update_of_ne hie]
    exact ⟨j, by omega, hkey⟩

/-- Every run of insertions into one bucket is one of adds. -/
theorem addNumber_run (h : BridgeInv (fun _ => 0) s) (hk : k + n ≤ 2 ^ 32)
    (hbelow : s.NumberedBelow k) (hrun : s.ht.InsertRun 0 n ht') :
    ∃ as s', runSteps (BridgeSys.step fun _ => 0) s as = some s' ∧ s'.ht = ht' ∧
      s'.NumberedBelow (k + n) := by
  induction n generalizing s k with
  | zero =>
    cases hrun
    exact ⟨[], s, rfl, rfl, hbelow⟩
  | succ n ih =>
    obtain ⟨ht₁, hstep, hrest⟩ := runSteps_cons.mp hrun
    obtain ⟨s₁, hadd, rfl, hbelow₁⟩ := h.addNumber_step (by omega) hbelow hstep
    obtain ⟨as, s', has, hht, hbelow'⟩ := ih (h.step hadd).1 (by omega) hbelow₁ hrest
    refine ⟨.add sampleNexthops (addNumber k) :: as, s', runSteps_cons.mpr ⟨s₁, hadd, has⟩, hht, ?_⟩
    rwa [Nat.add_right_comm, Nat.add_assoc] at hbelow'

end BridgeInv

/-- Insertions into the first bucket take the last entry of the table in the end, if there are
overflow entries or there is no other bucket. -/
theorem Created.take_last {t : Htable} (hc : Created t)
    (hdata : ∀ d, t.deleteData d = ⟨0, 0, false⟩) (hlt : t.htHentries + t.htOentries < 2 ^ 32)
    (honly : t.htOentries = 0 → t.htHentries = t.htBucketSize) :
    ∃ n s, n ≤ t.htBucketSize + t.htOentries ∧ (HtSys.initial t false).InsertRun 0 n s ∧
      (s.table.hentry (t.htHentries + t.htOentries - 1)).flagValid = true := by
  have hpos := hc.hentries_pos
  have hle := Nat.le_of_dvd hpos hc.dvd
  obtain ⟨hstart, hinside⟩ := hc.firstBucket
  obtain ⟨n₁, s₁, hn₁, hrun₁, hu₁, hfull₁, -⟩ := (hc.unreleased hdata hlt).fillBucket hinside
  obtain ⟨hE, hO, hB, hstart₁⟩ := Htable.sizes_of_shape hu₁.shape
  by_cases hzero : t.htOentries = 0
  · refine ⟨n₁, s₁, by omega, hrun₁, ?_⟩
    have := hfull₁ (t.htBucketSize - 1) (by omega)
    rwa [hstart₁, hstart, Nat.zero_add, ← honly hzero, ← Nat.add_zero t.htHentries, ← hzero] at this
  have hfree : initialContents t .free = List.range' t.htHentries t.htOentries ++ [] := by
    rw [List.append_nil]
    rfl
  obtain ⟨s₂, -, -, hrun₂, -, -, hlinked, -⟩ := hu₁.takeAll hinside _ hfull₁ hfree
  rw [List.length_range'] at hrun₂
  refine ⟨n₁ + t.htOentries, s₂, by omega, hrun₁.trans hrun₂, (hlinked _ ?_).valid⟩
  rw [List.mem_range'_1]
  omega

/-! ## The configured sizes -/

/-- A dump of the VRF lists its entries: their responses come once each, in one order whatever the
pages, and the dump ends exactly if there was room for all of them. -/
def BridgeSys.DumpsVrf (s : BridgeSys) (vrBridgeEntries vrBridgeOentries vrfId : Nat) : Prop :=
  ∃ L : List Nat, L.Nodup ∧ (∀ i, i ∈ L ↔ s.IsEntryOf vrfId i) ∧
    ∀ rooms, Paging.pages BridgeResp.rtrMac
        (s.bridgeTableDump vrBridgeEntries vrBridgeOentries (fun _ => true) vrfId) rooms none =
      ((L.map s.bridgeEntryMakeReq).take rooms.sum,
        decide (rooms ≠ [] ∧ L.length ≤ rooms.sum))

namespace BridgeInv

variable {hash : List Octet → Nat} {s : BridgeSys} {entries oentries vrfId : Nat}

/-- If the bound of the loop covers the table, a dump lists the entries of the VRF. -/
theorem dumpsVrf (h : BridgeInv hash s) (hbound : s.ht.table.htHentries + s.ht.table.htOentries ≤
      (entries + bridgeOentries entries oentries) % 2 ^ 32) :
    s.DumpsVrf entries oentries vrfId := by
  refine ⟨s.vrfEntries vrfId 0 ((entries + bridgeOentries entries oentries) % 2 ^ 32),
    List.Nodup.filter _ List.nodup_range', fun i => ?_, fun rooms => ?_⟩
  · unfold vrfEntries
    rw [List.mem_filter, decide_eq_true_iff, List.mem_range'_1]
    refine ⟨fun hi => hi.2, fun hi => ⟨⟨Nat.zero_le i, ?_⟩, hi⟩⟩
    have := hi.1.1
    omega
  · rw [(h.bridgeTableDump_resumes (fun _ => rfl) entries oentries).pages_eq, List.length_map]

theorem not_dumpsVrf (h : BridgeInv hash s) {x : Nat} (hx : s.IsEntryOf vrfId x)
    (hbound : (entries + bridgeOentries entries oentries) % 2 ^ 32 ≤ x) :
    ¬ s.DumpsVrf entries oentries vrfId := by
  rintro ⟨L, -, hL, hpages⟩
  -- one page with room for everything
  have hpage := hpages [L.length]
  rw [(h.bridgeTableDump_resumes (fun _ => rfl) entries oentries).pages_eq] at hpage
  have hlist := congrArg Prod.fst hpage
  simp only [List.sum_singleton, ← List.map_take, List.take_length] at hlist
  have hmem := List.mem_map_of_mem (f := s.bridgeEntryMakeReq) ((hL x).mpr hx)
  rw [← hlist] at hmem
  obtain ⟨y, hy, heq⟩ := List.mem_map.mp hmem
  obtain ⟨hrange, hentry⟩ := List.mem_filter.mp (List.mem_of_mem_take hy)
  have hyx := h.eq_of_beMac_eq (of_decide_eq_true hentry) hx (congrArg BridgeResp.rtrMac heq)
  rw [List.mem_range'_1] at hrange
  omega

end BridgeInv

/-- The default of `vr_bridge_oentries` is zero for a few entries only. -/
theorem bridgeOentries_eq_zero {entries oentries : Nat} (he : entries < 2 ^ 32)
    (h : bridgeOentries entries oentries = 0) : entries < 5 := by
  unfold bridgeOentries at h
  split at h
  · have hmask := and_mask_eq (r := entries / 5 + 1023) (m := 10) (by omega) (by decide)
    have hmask : (entries / 5 + 1023) &&& (2 ^ 32 - 1 - 1023) = 2 ^ 10 * _ := hmask
    omega
  · omega

/-- The sizes of a new bridge table, and the bound of the loop of a dump. -/
theorem bridgeTableInit_sizes {entries oentries : Nat} {t : Htable} (he : entries < 2 ^ 32)
    (hinit : bridgeTableInit entries oentries = some t) (hfit : t.EntriesFit sizeofBridgeEntry) :
    entries ≤ t.htHentries ∧ t.htHentries < entries + 4 ∧ 4 ∣ t.htHentries ∧
      (entries + bridgeOentries entries oentries) % 2 ^ 32 = entries + t.htOentries := by
  obtain ⟨hB, -⟩ := bridgeTableInit_tile hinit hfit
  have hc := (vrHtableCreate_created hinit).1
  obtain ⟨-, -, -, -, hE, hO, -⟩ := vrHtableCreate_created hinit
  have hpos := hc.hentries_pos
  have hdvd := hc.dvd
  have hlt := hfit.lt
  rw [hB] at hE hdvd
  refine ⟨by omega, by omega, hdvd, ?_⟩
  rw [← hO]
  exact Nat.mod_eq_of_lt (by omega)

/-- For every configured number of bridge entries and overflow entries for which the table can be
made: in every state of every run a dump of every VRF lists each valid entry of the VRF exactly
once, whatever the pages, if and only if the number of bridge entries is a multiple of four. -/
theorem bridgeTableDump_complete_iff {entries oentries : Nat} {t : Htable} (he : entries < 2 ^ 32)
    (hinit : bridgeTableInit entries oentries = some t) (hfit : t.EntriesFit sizeofBridgeEntry) :
    (∀ hash notReady as s,
      runSteps (BridgeSys.step hash) (.initial t notReady) as = some s →
      ∀ vrfId, s.DumpsVrf entries oentries vrfId) ↔ 4 ∣ entries := by
  obtain ⟨hle, hlt, hdvd, hbound⟩ := bridgeTableInit_sizes he hinit hfit
  have hfits := hfit.lt
  constructor
  · intro hall
    by_contra hnot
    -- the table has an entry behind the bound of the loop; adds fill the first bucket's chain
    -- until it is taken
    have hc := (vrHtableCreate_created hinit).1
    obtain ⟨hB, -⟩ := bridgeTableInit_tile hinit hfit
    obtain ⟨-, -, -, -, -, hO, -, hdata⟩ := vrHtableCreate_created hinit
    have hinv := bridgeInv_initial hinit hfit (fun _ => 0) false
    have honly : t.htOentries = 0 → t.htHentries = t.htBucketSize := by
      intro hzero
      rw [hO] at hzero
      have hsmall := bridgeOentries_eq_zero he hzero
      omega
    obtain ⟨n, ht, hn, hrun, hvalid⟩ := hc.take_last hdata hfits honly
    have hstart : (initial t false).NumberedBelow 0 :=
      fun i hi => absurd hi (initial_not_valid hinit false i)
    obtain ⟨as, s, has, rfl, hbelow⟩ := hinv.addNumber_run (by omega) hstart hrun
    obtain ⟨hinv', hshape⟩ := hinv.run has
    obtain ⟨hE, hO', -, -⟩ := Htable.sizes_of_shape hshape
    have hE : s.ht.table.htHentries = t.htHentries := hE
    have hO' : s.ht.table.htOentries = t.htOentries := hO'
    have hx : s.Valid (t.htHentries + t.htOentries - 1) := ⟨by omega, hvalid⟩
    obtain ⟨j, -, hkey⟩ := hbelow _ hx
    obtain ⟨hflag, hkey⟩ := bridgeEntryKey_eq_some.mp hkey
    obtain ⟨hlen, -, hvrf⟩ := hinv'.mac _ hx
    have hvrf' := (beKey_inj hlen hkey).1
    have hentry : s.IsEntryOf 0 (t.htHentries + t.htOentries - 1) := ⟨hx, hflag, by omega⟩
    exact hinv'.not_dumpsVrf hentry (by omega) (hall _ _ as s has 0)
  · intro hfour hash notReady as s hrun vrfId
    obtain ⟨hinv, hshape⟩ := (bridgeInv_initial hinit hfit hash notReady).run hrun
    obtain ⟨hE, hO, -, -⟩ := Htable.sizes_of_shape hshape
    have hE : s.ht.table.htHentries = t.htHentries := hE
    have hO : s.ht.table.htOentries = t.htOentries := hO
    apply hinv.dumpsVrf
    omega

/-- One bucket of four entries and four overflow entries. -/
theorem bridgeTableDump_complete_four :
    ∃ t, bridgeTableInit 4 4 = some t ∧ t.EntriesFit sizeofBridgeEntry ∧
      ∀ hash notReady as s,
        runSteps (BridgeSys.step hash) (.initial t notReady) as = some s →
        ∀ vrfId, s.DumpsVrf 4 4 vrfId := by
  obtain ⟨t, ht, hfit⟩ : ∃ t, bridgeTableInit 4 4 = some t ∧ t.EntriesFit sizeofBridgeEntry :=
    ⟨_, rfl, ⟨by decide, ⟨by decide, by decide⟩, ⟨by decide, by decide⟩⟩⟩
  exact ⟨t, ht, hfit, (bridgeTableDump_complete_iff (by decide) ht hfit).mpr (by decide)⟩

/-- Five bridge entries are two buckets. With three adds to the second bucket, the dump of the VRF
comes to its end and has told of two entries. -/
theorem bridgeTableDump_leaves_out :
    ∃ t s, bridgeTableInit 5 1 = some t ∧ t.EntriesFit sizeofBridgeEntry ∧
      runSteps (BridgeSys.step fun _ => 4) (.initial t false)
        [.add sampleNexthops (addNumber 0), .add sampleNexthops (addNumber 1),
          .add sampleNexthops (addNumber 2)] = some s ∧
      s.IsEntryOf 0 4 ∧ s.IsEntryOf 0 5 ∧ s.IsEntryOf 0 6 ∧
      Paging.pages BridgeResp.rtrMac (s.bridgeTableDump 5 1 (fun _ => true) 0) [10] none =
        ([s.bridgeEntryMakeReq 4, s.bridgeEntryMakeReq 5], true) := by
  exact ⟨_, _, rfl, ⟨by decide, ⟨by decide, by decide⟩, ⟨by decide, by decide⟩⟩,
    (Option.some_get (by decide +kernel)).symm, by decide +kernel, by decide +kernel,
    by decide +kernel, by decide +kernel⟩

end VRouter
