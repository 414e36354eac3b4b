import VRouter.Fragment.Assembler
import VRouter.Lib.Run

/-!
# VRouter — the fragment table

The head of a fragmented datagram carries the ports. `vr_fragment_add` notes them in the fragment
table under VRF, addresses and IP id, for the fragments that follow (`vr_inet_fragment_flow`). An
entry is in use as long as its destination address is not zero: `vr_fragment_del` and the scanners
give an entry back by writing zero there, and nothing else of it changes.

An add takes the first free entry and a lookup returns the first entry with the key, both in the
order of `fragmentSlots`: the four entries of a bucket, then the overflow table from one entry on.

* `FragmentTable.step_entry`: all that a step can do to an entry;
* `fragment_get_latest`: an entry is found with the ports it was added with, if no entry for its key
  comes before it.

`fragment_get_stale` shows what happens if one does: an add does not look for an entry of its key,
and the ports of the first one are found.
-/

namespace VRouter

/-- `FRAG_TABLE_ENTRIES`, the number of buckets. -/
def fragTableEntries : Nat := 1024

/-- `FRAG_TABLE_BUCKETS`, the number of entries in a bucket. -/
def fragTableBuckets : Nat := 4

/-- `FRAG_OTABLE_ENTRIES`. -/
def fragOtableEntries : Nat := 512

/-- `ENTRIES_PER_SCAN`. -/
def entriesPerScan : Nat := 64

/-! ## Headers -/

/-- What the fragment table reads of an IP header, in host byte order where the source converts. -/
structure FragmentHeader where
  /-- `vr_ip_is_ip4`. -/
  isIp4 : Bool
  ipHl : BitVec 4
  ipLen : BitVec 16
  ipId : BitVec 16
  ipFragOff : BitVec 16
  ipSaddr : BitVec 32
  ipDaddr : BitVec 32
deriving DecidableEq, Repr

namespace FragmentHeader

/-- `fragment_key`. -/
def key (iph : FragmentHeader) (vrf : BitVec 16) : FragmentKey :=
  ⟨iph.ipSaddr, iph.ipDaddr, iph.ipId, vrf⟩

/-- `VR_IP_MF`. -/
def more (iph : FragmentHeader) : Bool := iph.ipFragOff.getLsbD 13

/-- The offset of the fragment, in units of eight bytes (`VR_IP_FRAG_OFFSET_MASK`). -/
def offset (iph : FragmentHeader) : BitVec 16 := iph.ipFragOff &&& 0x1FFF

/-- The bytes behind the header, as the sums of the source take them. -/
def payload (iph : FragmentHeader) : BitVec 16 := iph.ipLen - iph.ipHl.setWidth 16 * 4

/-- `vr_ip_fragment_tail`. -/
def vrIpFragmentTail (iph : FragmentHeader) : Bool :=
  iph.isIp4 && !iph.more && iph.offset != 0

end FragmentHeader

/-! ## Entries -/

/-- `struct vr_fragment`, as the fragment table uses it. -/
structure FragmentEntry where
  fKey : FragmentKey
  fSport : BitVec 16
  fDport : BitVec 16
  fTime : Nat
  fExpected : BitVec 16
  fReceived : BitVec 16
deriving DecidableEq, Repr

/-- An entry of the bucket table or of the overflow table. -/
inductive FragmentSlot where
  | table (index : Nat)
  | otable (index : Nat)
deriving DecidableEq, Repr

namespace FragmentEntry

/-- `f_dip` tells whether an entry is in use. -/
def inUse (fe : FragmentEntry) : Bool := fe.fKey.fkDip != 0

/-- `fragment_entry_set`. -/
def fragmentEntrySet (vrf : BitVec 16) (iph : FragmentHeader) (sport dport : BitVec 16)
    (sec : BitVec 32) : FragmentEntry :=
  ⟨iph.key vrf, sport, dport, sec.toNat, 0, 0⟩

/-- `vr_fragment_del`. -/
def vrFragmentDel (fe : FragmentEntry) : FragmentEntry :=
  { fe with fKey := { fe.fKey with fkDip := 0 } }

/-- A fragment is counted. -/
def counted (fe : FragmentEntry) (iph : FragmentHeader) : FragmentEntry :=
  { fe with
    fReceived := fe.fReceived + iph.payload
    fExpected := if iph.vrIpFragmentTail then iph.offset * 8 + iph.payload else fe.fExpected }

/-- What `vr_inet_fragment_flow` does to the entry it has found. -/
def received (fe : FragmentEntry) (iph : FragmentHeader) : FragmentEntry :=
  let fe := fe.counted iph
  if fe.fReceived = fe.fExpected then fe.vrFragmentDel else fe

/-- The test of `fragment_reap`; `f_time` has 64 bits. -/
def reaped (fe : FragmentEntry) (sec : BitVec 32) : FragmentEntry :=
  if fe.inUse && decide (fe.fTime + 1 < sec.toNat) then fe.vrFragmentDel else fe

end FragmentEntry

/-! ## The table -/

/-- What happens to the table: a head comes, an entry is looked up, another fragment of a datagram
comes, or one of the two scanners runs (`fragment_table_scanner`). -/
inductive FragmentStep where
  | head (vrf : BitVec 16) (iph : FragmentHeader) (sport dport : BitVec 16) (sec : BitVec 32)
  | lookup (vrf : BitVec 16) (iph : FragmentHeader) (sec : BitVec 32)
  | fragment (vrf : BitVec 16) (iph : FragmentHeader) (sec : BitVec 32)
  | scan (sec : BitVec 32)
  | oscan (sec : BitVec 32)

/-- Both tables, and where each of their scanners was last (`sp_last_scanned_entry`). -/
structure FragmentTable where
  entry : FragmentSlot → FragmentEntry
  lastScanned : Int
  olastScanned : Int

/-- The entries of a bucket. -/
def bucketSlots (hash : BitVec 32) : List FragmentSlot :=
  (List.range fragTableBuckets).map fun i =>
    .table (hash.toNat % fragTableEntries * fragTableBuckets + i)

/-- The entries of the overflow table, in the order they are looked at. -/
def overflowSlots (hash : BitVec 32) : List FragmentSlot :=
  (List.range fragOtableEntries).map fun i =>
    .otable ((hash.toNat % fragOtableEntries + i) % fragOtableEntries)

/-- All entries an add or a lookup looks at. -/
def fragmentSlots (hash : BitVec 32) : List FragmentSlot := bucketSlots hash ++ overflowSlots hash

namespace FragmentTable

/-- A table as `vr_btable_alloc` gives it, with scanners that have not run. -/
def init : FragmentTable := ⟨fun _ => ⟨⟨0, 0, 0, 0⟩, 0, 0, 0, 0, 0⟩, -1, -1⟩

def set (t : FragmentTable) (slot : FragmentSlot) (fe : FragmentEntry) : FragmentTable :=
  { t with entry := Function.update t.entry slot fe }

variable (hash : FragmentKey → BitVec 32)

/-- The entry an add takes: the first that is free in the bucket, or else in the overflow table. -/
def addSlot (t : FragmentTable) (key : FragmentKey) : Option FragmentSlot :=
  match (bucketSlots (hash key)).find? fun slot => !(t.entry slot).inUse with
  | some slot => some slot
  | none => (overflowSlots (hash key)).find? fun slot => !(t.entry slot).inUse

/-- `vr_fragment_add`. -/
def vrFragmentAdd (t : FragmentTable) (vrf : BitVec 16) (iph : FragmentHeader)
    (sport dport : BitVec 16) (sec : BitVec 32) : Except Errno Unit × FragmentTable :=
  match t.addSlot hash (iph.key vrf) with
  | none => (.error .ENOMEM, t)
  | some slot =>
    let fe := FragmentEntry.fragmentEntrySet vrf iph sport dport sec
    (.ok (), t.set slot { fe with fReceived := fe.fReceived + iph.payload })

/-- The entry a lookup finds. -/
def getSlot (t : FragmentTable) (key : FragmentKey) : Option FragmentSlot :=
  match (bucketSlots (hash key)).find? fun slot => (t.entry slot).fKey == key with
  | some slot => some slot
  | none => (overflowSlots (hash key)).find? fun slot => (t.entry slot).fKey == key

/-- `vr_fragment_get`: the entry that is found is touched. -/
def vrFragmentGet (t : FragmentTable) (vrf : BitVec 16) (iph : FragmentHeader)
    (sec : BitVec 32) : FragmentTable × Option FragmentSlot :=
  match t.getSlot hash (iph.key vrf) with
  | none => (t, none)
  | some slot => (t.set slot { t.entry slot with fTime := sec.toNat }, some slot)

/-- `vr_inet_fragment_flow`, as far as the table goes, with the ports for the flow key. -/
def vrInetFragmentFlow (t : FragmentTable) (vrf : BitVec 16) (iph : FragmentHeader)
    (sec : BitVec 32) : FragmentTable × Option (BitVec 16 × BitVec 16) :=
  match t.vrFragmentGet hash vrf iph sec with
  | (t, none) => (t, none)
  | (t, some slot) =>
    let fe := t.entry slot
    (t.set slot (fe.received iph), some (fe.fSport, fe.fDport))

/-- `fragment_reap` looks at 64 entries from `start` on. -/
def fragmentReap (t : FragmentTable) (slot : Nat → FragmentSlot) (numEntries start : Nat)
    (sec : BitVec 32) : FragmentTable :=
  (List.range entriesPerScan).foldl (fun t i =>
    let slot := slot ((start + i) % numEntries)
    t.set slot ((t.entry slot).reaped sec)) t

/-- Where a scanner goes on from. -/
def nextScanned (last : Int) (numEntries : Nat) : Int := (last + entriesPerScan) % numEntries

/-- One step. -/
def step (t : FragmentTable) : FragmentStep → FragmentTable
  | .head vrf iph sport dport sec => (t.vrFragmentAdd hash vrf iph sport dport sec).2
  | .lookup vrf iph sec => (t.vrFragmentGet hash vrf iph sec).1
  | .fragment vrf iph sec => (t.vrInetFragmentFlow hash vrf iph sec).1
  | .scan sec =>
    let num := fragTableEntries * fragTableBuckets
    { t.fragmentReap .table num (t.lastScanned + 1).toNat sec with
      lastScanned := nextScanned t.lastScanned num }
  | .oscan sec =>
    { t.fragmentReap .otable fragOtableEntries (t.olastScanned + 1).toNat sec with
      olastScanned := nextScanned t.olastScanned fragOtableEntries }

/-- The ports a lookup gives for a key. -/
def ports (t : FragmentTable) (key : FragmentKey) : Option (BitVec 16 × BitVec 16) :=
  (t.getSlot hash key).map fun slot => ((t.entry slot).fSport, (t.entry slot).fDport)

end FragmentTable

/-! ## What a step does to an entry -/

theorem FragmentEntry.inUse_iff {fe : FragmentEntry} : fe.inUse = true ↔ fe.fKey.fkDip ≠ 0 :=
  bne_iff_ne

/-- The entry has kept its ports, and its key unless it was given back. -/
structure FragmentEntry.Stays (fe fe' : FragmentEntry) : Prop where
  sport : fe'.fSport = fe.fSport
  dport : fe'.fDport = fe.fDport
  key : fe'.fKey = fe.fKey ∨ fe'.fKey = { fe.fKey with fkDip := 0 }

namespace FragmentEntry.Stays

variable {fe fe' fe'' : FragmentEntry}

theorem refl (fe : FragmentEntry) : fe.Stays fe := ⟨rfl, rfl, Or.inl rfl⟩

theorem trans (h : fe.Stays fe') (h' : fe'.Stays fe'') : fe.Stays fe'' := by
  refine ⟨h'.sport.trans h.sport, h'.dport.trans h.dport, ?_⟩
  rcases h.key with hkey | hkey
  · rcases h'.key with hkey' | hkey'
    · exact Or.inl (hkey'.trans hkey)
    · exact Or.inr (by rw [hkey', hkey])
  · rcases h'.key with hkey' | hkey'
    · exact Or.inr (hkey'.trans hkey)
    · exact Or.inr (by rw [hkey', hkey])

theorem del (fe : FragmentEntry) : fe.Stays fe.vrFragmentDel := ⟨rfl, rfl, Or.inr rfl⟩

theorem received (fe : FragmentEntry) (iph : FragmentHeader) : fe.Stays (fe.received iph) := by
  have hcounted : fe.Stays (fe.counted iph) := ⟨rfl, rfl, Or.inl rfl⟩
  unfold FragmentEntry.received
  dsimp only
  split
  · exact hcounted.trans (del _)
  · exact hcounted

theorem reaped (fe : FragmentEntry) (sec : BitVec 32) : fe.Stays (fe.reaped sec) := by
  unfold FragmentEntry.reaped
  split
  · exact del fe
  · exact refl fe

theorem key_of_inUse (h : fe.Stays fe') (huse : fe'.inUse = true) : fe'.fKey = fe.fKey := by
  refine h.key.resolve_right fun hkey => ?_
  exact inUse_iff.mp huse (congrArg FragmentKey.fkDip hkey)

end FragmentEntry.Stays

namespace FragmentTable

variable {hash : FragmentKey → BitVec 32} {t : FragmentTable} {key : FragmentKey}
  {slot : FragmentSlot}

@[simp] theorem set_self (t : FragmentTable) (slot : FragmentSlot) (fe : FragmentEntry) :
    (t.set slot fe).entry slot = fe :=
  Function.update_self _ _ _

theorem set_of_ne {slot' : FragmentSlot} (h : slot' ≠ slot) (fe : FragmentEntry) :
    (t.set slot fe).entry slot' = t.entry slot' :=
  Function.update_of_ne h _ _

theorem set_stays {fe : FragmentEntry} (h : (t.entry slot).Stays fe) (slot' : FragmentSlot) :
    (t.entry slot').Stays ((t.set slot fe).entry slot') := by
  by_cases hslot : slot' = slot
  · rw [hslot, set_self]
    exact h
  · rw [set_of_ne hslot]
    exact .refl _

theorem addSlot_eq : t.addSlot hash key =
    (fragmentSlots (hash key)).find? fun slot => !(t.entry slot).inUse := by
  unfold addSlot fragmentSlots
  rw [List.find?_append]
  generalize (bucketSlots (hash key)).find? _ = inBucket
  generalize (overflowSlots (hash key)).find? _ = inOverflow
  cases inBucket with
  | none | some => rfl

theorem getSlot_eq : t.getSlot hash key =
    (fragmentSlots (hash key)).find? fun slot => (t.entry slot).fKey == key := by
  unfold getSlot fragmentSlots
  rw [List.find?_append]
  generalize (bucketSlots (hash key)).find? _ = inBucket
  generalize (overflowSlots (hash key)).find? _ = inOverflow
  cases inBucket with
  | none | some => rfl

theorem not_inUse_of_addSlot (h : t.addSlot hash key = some slot) :
    (t.entry slot).inUse = false := by
  rw [addSlot_eq] at h
  simpa using List.find?_some h

theorem key_of_getSlot (h : t.getSlot hash key = some slot) : (t.entry slot).fKey = key := by
  rw [getSlot_eq] at h
  simpa using List.find?_some h

theorem fragmentReap_stays (slots : Nat → FragmentSlot) (num start : Nat) (sec : BitVec 32)
    (slot : FragmentSlot) :
    (t.entry slot).Stays ((t.fragmentReap slots num start sec).entry slot) := by
  unfold fragmentReap
  induction List.range entriesPerScan generalizing t with
  | nil => exact .refl _
  | cons i is ih => exact (set_stays (.reaped _ sec) slot).trans ih

variable {vrf : BitVec 16} {iph : FragmentHeader} {sport dport : BitVec 16} {sec : BitVec 32}

theorem vrFragmentGet_stays (slot : FragmentSlot) :
    (t.entry slot).Stays ((t.vrFragmentGet hash vrf iph sec).1.entry slot) := by
  unfold vrFragmentGet
  split
  · exact .refl _
  · refine set_stays ?_ slot
    exact ⟨rfl, rfl, Or.inl rfl⟩

theorem step_head (h : t.addSlot hash (iph.key vrf) = some slot) :
    t.step hash (.head vrf iph sport dport sec) =
      t.set slot { FragmentEntry.fragmentEntrySet vrf iph sport dport sec with
        fReceived := 0 + iph.payload } := by
  simp only [step, vrFragmentAdd, h]
  rfl

/-- **All that a step can do to an entry.** It keeps its ports and its key, is given back, or is
taken by an add. -/
theorem step_entry (a : FragmentStep) (slot : FragmentSlot) :
    (t.entry slot).Stays ((t.step hash a).entry slot) ∨
      ∃ vrf iph sport dport sec, a = .head vrf iph sport dport sec ∧
        t.addSlot hash (iph.key vrf) = some slot ∧
        ((t.step hash a).entry slot).fKey = iph.key vrf := by
  cases a with
  | head vrf iph sport dport sec =>
    cases hadd : t.addSlot hash (iph.key vrf) with
    | none =>
      simp only [step, vrFragmentAdd, hadd]
      exact Or.inl (.refl _)
    | some taken =>
      rw [step_head hadd]
      by_cases hslot : slot = taken
      · refine Or.inr ⟨vrf, iph, sport, dport, sec, rfl, hslot ▸ hadd, ?_⟩
        rw [hslot, set_self]
        rfl
      · rw [set_of_ne hslot]
        exact Or.inl (.refl _)
  | lookup vrf iph sec => exact Or.inl (vrFragmentGet_stays slot)
  | fragment vrf iph sec =>
    refine Or.inl ?_
    have hget : (t.entry slot).Stays ((t.vrFragmentGet hash vrf iph sec).1.entry slot) :=
      vrFragmentGet_stays slot
    unfold step vrInetFragmentFlow
    dsimp only
    revert hget
    cases t.vrFragmentGet hash vrf iph sec with
    | mk t₁ found =>
      intro hget
      cases found with
      | none => exact hget
      | some found => exact hget.trans (set_stays (.received _ iph) slot)
  | scan sec =>
    exact Or.inl (fragmentReap_stays _ _ _ sec slot)
  | oscan sec =>
    simp only [step]
    exact Or.inl (fragmentReap_stays _ _ _ sec slot)

/-- A step makes no entry for a key, except a successful add for that key. -/
theorem step_key (hdip : key.fkDip ≠ 0) {a : FragmentStep}
    (hadd : ∀ vrf iph sport dport sec, a = .head vrf iph sport dport sec →
      t.addSlot hash (iph.key vrf) = some slot → iph.key vrf ≠ key)
    (h : ((t.step hash a).entry slot).fKey = key) : (t.entry slot).fKey = key := by
  rcases step_entry a slot with hstays | ⟨vrf, iph, sport, dport, sec, rfl, hslot, hkey⟩
  · refine (hstays.key_of_inUse (FragmentEntry.inUse_iff.mpr ?_)).symm.trans h
    rwa [h]
  · exact absurd (hkey.symm.trans h) (hadd vrf iph sport dport sec rfl hslot)

theorem getSlot_of_first (hmem : slot ∈ fragmentSlots (hash key)) (hkey : (t.entry slot).fKey = key)
    (hfirst : ∀ x ∈ (fragmentSlots (hash key)).takeWhile (· != slot), (t.entry x).fKey ≠ key) :
    t.getSlot hash key = some slot := by
  rw [getSlot_eq]
  generalize fragmentSlots (hash key) = slots at hmem hfirst ⊢
  induction slots with
  | nil => cases hmem
  | cons x slots ih =>
    by_cases hx : x = slot
    · rw [List.find?_cons_of_pos (by rw [hx]; exact beq_iff_eq.mpr hkey), hx]
    have hpass : (x != slot) = true := bne_iff_ne.mpr hx
    rw [List.takeWhile_cons_of_pos (p := fun x => x != slot) hpass] at hfirst
    have hother : ¬((t.entry x).fKey == key) = true :=
      fun h => hfirst x List.mem_cons_self (beq_iff_eq.mp h)
    rw [List.find?_cons_of_neg (p := fun slot => (t.entry slot).fKey == key) hother]
    exact ih ((List.mem_cons.mp hmem).resolve_left (Ne.symm hx))
      fun y hy => hfirst y (List.mem_cons_of_mem x hy)

/-! ## Runs -/

/-- The entry stays in use, and no add for its key succeeds. -/
def Undisturbed (hash : FragmentKey → BitVec 32) (key : FragmentKey) (slot : FragmentSlot)
    (t : FragmentTable) (a : FragmentStep) : Prop :=
  ((t.step hash a).entry slot).inUse = true ∧
    ∀ vrf iph sport dport sec, a = .head vrf iph sport dport sec → iph.key vrf = key →
      t.addSlot hash key = none

end FragmentTable

open FragmentTable in
/-- **An entry is found with its ports.** An add for a key with a destination other than zero has
succeeded, and none of the entries that a lookup sees before the new one was for that key. Then, as
long as the entry is not given back and no other add for the key succeeds, a lookup of the key gives
the ports of that add. -/
theorem fragment_get_latest {hash : FragmentKey → BitVec 32} {t t' : FragmentTable}
    {vrf : BitVec 16} {iph : FragmentHeader} {sport dport : BitVec 16} {sec : BitVec 32}
    {slot : FragmentSlot} {as : List FragmentStep} (hdip : iph.ipDaddr ≠ 0)
    (hslot : t.addSlot hash (iph.key vrf) = some slot)
    (hfirst : ∀ x ∈ (fragmentSlots (hash (iph.key vrf))).takeWhile (· != slot),
      (t.entry x).fKey ≠ iph.key vrf)
    (hok : StepsMeet (fun t a => some (t.step hash a)) (Undisturbed hash (iph.key vrf) slot)
      (t.step hash (.head vrf iph sport dport sec)) as)
    (hrun : runSteps (fun t a => some (t.step hash a))
      (t.step hash (.head vrf iph sport dport sec)) as = some t') :
    t'.ports hash (iph.key vrf) = some (sport, dport) := by
  generalize hkey : iph.key vrf = key at *
  have hdip : key.fkDip ≠ 0 := by
    rw [← hkey]
    exact hdip
  -- what holds along the run: the entry has key and ports, and none before it has the key
  let I : FragmentTable → Prop := fun t =>
    (t.entry slot).fKey = key ∧ (t.entry slot).fSport = sport ∧ (t.entry slot).fDport = dport ∧
      ∀ x ∈ (fragmentSlots (hash key)).takeWhile (· != slot), (t.entry x).fKey ≠ key
  have hinit : I (t.step hash (.head vrf iph sport dport sec)) := by
    rw [step_head (hkey ▸ hslot)]
    refine ⟨by rw [set_self]; exact hkey, by rw [set_self]; rfl, by rw [set_self]; rfl, ?_⟩
    intro x hx
    have hne : x ≠ slot := bne_iff_ne.mp (List.all_eq_true.mp List.all_takeWhile x hx)
    rw [set_of_ne hne]
    exact hfirst x hx
  have hI : I t' := by
    refine runSteps_invariant_of_meet (fun t a t₁ hI hok hstep => ?_) hinit hok hrun
    cases hstep
    obtain ⟨hentry, hsport, hdport, hbefore⟩ := hI
    have huse : (t.entry slot).inUse = true := FragmentEntry.inUse_iff.mpr (hentry ▸ hdip)
    rcases step_entry a slot with hstays | ⟨vrf, iph, sport, dport, sec, -, htaken, -⟩
    · refine ⟨(hstays.key_of_inUse hok.1).trans hentry, hstays.sport.trans hsport,
        hstays.dport.trans hdport, fun x hx hxkey => hbefore x hx ?_⟩
      refine step_key hdip (fun vrf iph sport dport sec ha htaken hsame => ?_) hxkey
      -- an add for the key does not succeed
      rw [hsame, hok.2 vrf iph sport dport sec ha hsame] at htaken
      cases htaken
    · -- an entry in use is not taken
      rw [not_inUse_of_addSlot htaken] at huse
      cases huse
  obtain ⟨hentry, hsport, hdport, hbefore⟩ := hI
  have hmem : slot ∈ fragmentSlots (hash key) := by
    rw [addSlot_eq] at hslot
    exact List.mem_of_find?_eq_some hslot
  unfold ports
  rw [getSlot_of_first hmem hentry hbefore]
  show some ((t'.entry slot).fSport, (t'.entry slot).fDport) = _
  rw [hsport, hdport]

/-- The head of a datagram of two fragments. -/
def twoFragmentHead : FragmentHeader := ⟨true, 5, 28, 7, 0x2000, 1, 2⟩

/-- A head in a new table, and a lookup. -/
theorem fragment_get_latest_init :
    let t := FragmentTable.init.step (fun _ => 0) (.head 3 twoFragmentHead 10 20 0)
    (t.step (fun _ => 0) (.lookup 3 twoFragmentHead 5)).ports (fun _ => 0)
      (twoFragmentHead.key 3) = some (10, 20) := by
  intro t
  refine @fragment_get_latest (fun _ => 0) .init _ 3 twoFragmentHead 10 20 0 (.table 0)
    [.lookup 3 twoFragmentHead 5] (by decide) rfl ?_ ?_ rfl
  · intro x hx
    cases hx
  · refine ⟨⟨by decide, ?_⟩, fun _ _ => trivial⟩
    rintro _ _ _ _ _ ⟨⟩

open FragmentTable in
/-- **The ports of an earlier add are found.** Two heads with the same key, the second with other
ports: both adds succeed, and the entry of the second stays in use, but a lookup sees that of the
first. And an entry for the destination `0.0.0.0` is never in use: the next head of its bucket takes
it. -/
theorem fragment_get_stale : (∀ hash : FragmentKey → BitVec 32,
      let t₁ := FragmentTable.init.step hash (.head 3 twoFragmentHead 10 20 0)
      let t₂ := t₁.step hash (.head 3 twoFragmentHead 30 40 0)
      (∃ slot, t₁.addSlot hash (twoFragmentHead.key 3) = some slot ∧
        (t₂.entry slot).inUse = true) ∧
      t₂.ports hash (twoFragmentHead.key 3) = some (10, 20)) ∧
    let toZero := { twoFragmentHead with ipDaddr := 0 }
    let t₁ := FragmentTable.init.step (fun _ => 0) (.head 3 toZero 10 20 0)
    let t₂ := t₁.step (fun _ => 0) (.head 3 twoFragmentHead 30 40 0)
    t₁.ports (fun _ => 0) (toZero.key 3) = some (10, 20) ∧
      t₂.ports (fun _ => 0) (toZero.key 3) = none := by
  refine ⟨?_, by decide +kernel⟩
  intro hash t₁ t₂
  let n := (hash (twoFragmentHead.key 3)).toNat % fragTableEntries * fragTableBuckets
  let fe := FragmentEntry.fragmentEntrySet 3 twoFragmentHead
  have hne : FragmentSlot.table (n + 1) ≠ .table (n + 0) := by simp
  have ht₁ : t₁ = FragmentTable.init.set (.table (n + 0))
      { fe 10 20 0 with fReceived := 0 + twoFragmentHead.payload } := rfl
  have hbucket : bucketSlots (hash (twoFragmentHead.key 3)) =
      [.table (n + 0), .table (n + 1), .table (n + 2), .table (n + 3)] := rfl
  -- the first entry of the bucket is in use now, the second is not
  have hadd : t₁.addSlot hash (twoFragmentHead.key 3) = some (.table (n + 1)) := by
    have hused : ¬(!(t₁.entry (.table (n + 0))).inUse) = true := by
      rw [ht₁, set_self]
      decide
    have hfree : (!(t₁.entry (.table (n + 1))).inUse) = true := by
      rw [ht₁, set_of_ne hne]
      rfl
    unfold addSlot
    rw [hbucket, List.find?_cons_of_neg (p := fun slot => !(t₁.entry slot).inUse) hused,
      List.find?_cons_of_pos (p := fun slot => !(t₁.entry slot).inUse) hfree]
  have ht₂ : t₂ = t₁.set (.table (n + 1))
      { fe 30 40 0 with fReceived := 0 + twoFragmentHead.payload } := step_head hadd
  have hget : t₂.getSlot hash (twoFragmentHead.key 3) = some (.table (n + 0)) := by
    unfold getSlot
    rw [hbucket, List.find?_cons_of_pos]
    rw [ht₂, set_of_ne hne.symm, ht₁, set_self]
    exact beq_iff_eq.mpr rfl
  refine ⟨⟨_, hadd, ?_⟩, ?_⟩
  · rw [ht₂, set_self]
    rfl
  · unfold ports
    rw [hget, ht₂, ht₁, Option.map_some, set_of_ne hne.symm, set_self]
    rfl

end VRouter
