import VRouter.Fragment.Table
import VRouter.Lib.Intervals

/-!
# VRouter — when the fragments of a datagram are complete

`vr_inet_fragment_flow` adds up the bytes of the fragments that came, and learns from the fragment
without the MF bit how many there are. When the two numbers are the same it gives the entry of the
datagram back. Both have 16 bits.

* `Fragmented`: the headers of a datagram's fragments, in any order.
* `Fragmented.counted_iff`: the sum of some of them is what is expected exactly if none is missing.
* `FragmentTable.Tracks`: an entry counts the fragments of a datagram. Packets of other datagrams
  leave it alone (`step_other`).
* `fragment_entry_removed_last`: the entry is given back with the last fragment and not before.

To a destination of zero an entry cannot be given back, since zero is how that is done
(`fragment_entry_kept`).
-/

namespace VRouter

open Function

/-! ## Fragments -/

namespace FragmentHeader

/-- `vr_ip_fragment_head`. -/
def vrIpFragmentHead (iph : FragmentHeader) : Bool := iph.isIp4 && iph.more && iph.offset == 0

/-- The first byte of the fragment in the datagram. -/
def start (iph : FragmentHeader) : Nat := 8 * iph.offset.toNat

/-- The bytes it carries. -/
def size (iph : FragmentHeader) : Nat := iph.ipLen.toNat - 4 * iph.ipHl.toNat

/-- The first byte behind it. -/
def stop (iph : FragmentHeader) : Nat := iph.start + iph.size

variable {iph : FragmentHeader}

theorem payload_eq (h : 4 * iph.ipHl.toNat < iph.ipLen.toNat) :
    iph.payload = BitVec.ofNat 16 iph.size := by
  apply BitVec.eq_of_toNat_eq
  unfold payload size
  simp only [BitVec.toNat_sub, BitVec.toNat_mul, BitVec.toNat_setWidth, BitVec.toNat_ofNat,
    show (4 : BitVec 16).toNat = 4 from rfl]
  omega

theorem expected_eq (h : 4 * iph.ipHl.toNat < iph.ipLen.toNat) :
    iph.offset * 8 + iph.payload = BitVec.ofNat 16 iph.stop := by
  rw [payload_eq h]
  apply BitVec.eq_of_toNat_eq
  unfold stop start
  simp only [BitVec.toNat_add, BitVec.toNat_mul, BitVec.toNat_ofNat,
    show (8 : BitVec 16).toNat = 8 from rfl]
  omega

end FragmentHeader

open FragmentHeader in
/-- The fragments of a datagram that has `bytes` bytes behind its header: they carry data, cut the
datagram, and all but the last have the MF bit. A datagram with its header of at least 20 bytes has
at most 65535. -/
structure Fragmented (bytes : Nat) (frags : List FragmentHeader) : Prop where
  legal : bytes + 20 ≤ 65535
  ip4 : ∀ f ∈ frags, f.isIp4 = true
  data : ∀ f ∈ frags, 4 * f.ipHl.toNat < f.ipLen.toNat
  pieces : Pieces start stop bytes frags
  more : ∀ f ∈ frags, (f.more = true ↔ f.stop ≠ bytes)

/-- The bytes of some fragments. -/
def sizes (frags : List FragmentHeader) : Nat := (frags.map FragmentHeader.size).sum

/-- The number of bytes expected when some fragments have come. -/
def expectedBytes (bytes : Nat) (frags : List FragmentHeader) : BitVec 16 :=
  if frags.any fun f => !f.more then BitVec.ofNat 16 bytes else 0

namespace Fragmented

variable {bytes : Nat} {f : FragmentHeader} {frags done rest : List FragmentHeader}

theorem size_pos (h : Fragmented bytes frags) (hf : f ∈ frags) : 0 < f.size := by
  have hdata := h.data f hf
  unfold FragmentHeader.size
  omega

theorem sizes_eq (h : Fragmented bytes frags) : sizes frags = bytes := by
  have hsum := h.pieces.sum_length
  have hsize : (fun f : FragmentHeader => f.stop - f.start) = FragmentHeader.size := by
    funext f
    exact Nat.add_sub_cancel_left f.start f.size
  rw [hsize] at hsum
  exact hsum

theorem sizes_append (done rest : List FragmentHeader) :
    sizes (done ++ rest) = sizes done + sizes rest := by
  unfold sizes
  rw [List.map_append, List.sum_append]

theorem sizes_pos (h : Fragmented bytes frags) (hsub : done ⊆ frags) (hne : done ≠ []) :
    0 < sizes done := by
  obtain ⟨f, done, rfl⟩ := List.exists_cons_of_ne_nil hne
  have hf := h.size_pos (hsub List.mem_cons_self)
  unfold sizes
  rw [List.map_cons, List.sum_cons]
  omega

/-- **No premature equality.** What has come adds up to what is expected exactly if nothing is
missing: without the last fragment nothing is expected, and with it every byte is. -/
theorem counted_iff (h : Fragmented bytes (done ++ rest)) (hdone : done ≠ []) :
    BitVec.ofNat 16 (sizes done) = expectedBytes bytes done ↔ rest = [] := by
  have hsum : sizes done + sizes rest = bytes := by rw [← sizes_append, h.sizes_eq]
  have hpos : 0 < sizes done := h.sizes_pos (List.subset_append_left _ _) hdone
  have hlegal := h.legal
  unfold expectedBytes
  split
  · -- the last fragment has come
    rw [← BitVec.toNat_inj, BitVec.toNat_ofNat, BitVec.toNat_ofNat,
      Nat.mod_eq_of_lt (by omega), Nat.mod_eq_of_lt (by omega)]
    constructor
    · intro heq
      by_contra hrest
      have := h.sizes_pos (List.subset_append_right _ _) hrest
      omega
    · rintro rfl
      exact hsum
  · -- the last fragment is among the rest
    rename_i hany
    obtain ⟨f, hf, hstop⟩ := h.pieces.exists_last (by omega)
    have hmore : f.more = false := by
      rw [← Bool.not_eq_true, h.more f hf]
      exact not_not_intro hstop
    constructor
    · intro heq
      rw [← BitVec.toNat_inj, BitVec.toNat_ofNat, Nat.mod_eq_of_lt (by omega)] at heq
      exact absurd heq hpos.ne'
    · rintro rfl
      rw [List.append_nil] at hf
      exact absurd (List.any_eq_true.mpr ⟨f, hf, by rw [hmore]; rfl⟩) hany

theorem offset_ne_zero {head : FragmentHeader} (h : Fragmented bytes (head :: rest))
    (hhead : head.offset = 0) (hf : f ∈ rest) : f.offset ≠ 0 := by
  intro hzero
  have hapart := (List.pairwise_cons.mp h.pieces.apart).1 f hf
  have hsize := h.size_pos (List.mem_cons_of_mem _ hf)
  have hheadSize := h.size_pos List.mem_cons_self
  unfold FragmentHeader.stop FragmentHeader.start at hapart
  rw [hzero, hhead] at hapart
  omega

end Fragmented

/-! ## Steps between the fragments -/

namespace FragmentStep

/-- The header of a fragment that is counted for the key. -/
def fragmentFor (key : FragmentKey) : FragmentStep → Option FragmentHeader
  | .fragment vrf iph _ => if iph.key vrf = key then some iph else none
  | .head _ _ _ _ _ | .lookup _ _ _ | .scan _ | .oscan _ => none

/-- Neither another head with the key nor a scanner. -/
def Between (key : FragmentKey) : FragmentStep → Prop
  | .head vrf iph _ _ _ => iph.key vrf ≠ key
  | .lookup _ _ _ | .fragment _ _ _ => True
  | .scan _ | .oscan _ => False

theorem eq_of_fragmentFor {key : FragmentKey} {a : FragmentStep} {iph : FragmentHeader}
    (h : a.fragmentFor key = some iph) :
    ∃ vrf sec, a = .fragment vrf iph sec ∧ iph.key vrf = key := by
  cases a with
  | fragment vrf iph' sec =>
    simp only [fragmentFor, Option.ite_none_right_eq_some, Option.some.injEq] at h
    obtain ⟨hkey, rfl⟩ := h
    exact ⟨vrf, sec, rfl, hkey⟩
  | head | lookup | scan | oscan => cases h

end FragmentStep

namespace FragmentTable

/-- The entry counts these fragments, and no other is for the key. -/
structure Tracks (hash : FragmentKey → BitVec 32) (key : FragmentKey) (slot : FragmentSlot)
    (bytes : Nat) (done : List FragmentHeader) (t : FragmentTable) : Prop where
  mem : slot ∈ fragmentSlots (hash key)
  fKey : (t.entry slot).fKey = key
  received : (t.entry slot).fReceived = BitVec.ofNat 16 (sizes done)
  expected : (t.entry slot).fExpected = expectedBytes bytes done
  only : ∀ x ∈ fragmentSlots (hash key), x ≠ slot → (t.entry x).fKey ≠ key

variable {hash : FragmentKey → BitVec 32} {t : FragmentTable} {key : FragmentKey}
  {slot : FragmentSlot} {bytes : Nat} {done : List FragmentHeader} {a : FragmentStep}

variable {vrf : BitVec 16} {sec : BitVec 32} {iph : FragmentHeader}

theorem getSlot_eq_none : t.getSlot hash key = none ↔
    ∀ x ∈ fragmentSlots (hash key), (t.entry x).fKey ≠ key := by
  rw [getSlot_eq, List.find?_eq_none]
  simp only [beq_iff_eq]

theorem Tracks.getSlot (h : Tracks hash key slot bytes done t) :
    t.getSlot hash key = some slot := by
  refine getSlot_of_first h.mem h.fKey fun x hx => h.only x ?_ ?_
  · exact (List.takeWhile_sublist _).subset hx
  · exact bne_iff_ne.mp (List.all_eq_true.mp List.all_takeWhile x hx)

theorem step_fragment (hget : t.getSlot hash (iph.key vrf) = some slot) :
    (t.step hash (.fragment vrf iph sec)).entry =
      update t.entry slot
        ({ t.entry slot with fTime := sec.toNat }.received iph) := by
  simp only [step, vrInetFragmentFlow, vrFragmentGet, hget, set, update_idem,
    update_self]

theorem step_fragment_none (hget : t.getSlot hash (iph.key vrf) = none) :
    t.step hash (.fragment vrf iph sec) = t := by
  simp only [step, vrInetFragmentFlow, vrFragmentGet, hget]

/-- Packets of other datagrams, and lookups, leave the counts of an entry alone. -/
theorem step_other (hdip : key.fkDip ≠ 0) (hkey : (t.entry slot).fKey = key)
    (hbetween : a.Between key) (hother : a.fragmentFor key = none) :
    ∃ time, (t.step hash a).entry slot = { t.entry slot with fTime := time } := by
  cases a with
  | head vrf iph sport dport sec =>
    refine ⟨(t.entry slot).fTime, ?_⟩
    simp only [step, vrFragmentAdd]
    split
    · rfl
    rename_i taken htaken
    -- the entry is in use, so another one is taken
    refine set_of_ne (fun hslot => ?_) _
    have hfree := not_inUse_of_addSlot htaken
    rw [← hslot, FragmentEntry.inUse_iff.mpr (hkey ▸ hdip)] at hfree
    cases hfree
  | lookup vrf iph sec =>
    simp only [step, vrFragmentGet]
    split
    · exact ⟨_, rfl⟩
    rename_i found hfound
    by_cases hslot : slot = found
    · rw [hslot, set_self]
      exact ⟨_, rfl⟩
    · rw [set_of_ne hslot]
      exact ⟨_, rfl⟩
  | fragment vrf iph sec =>
    refine ⟨(t.entry slot).fTime, ?_⟩
    have hne : iph.key vrf ≠ key := by
      intro h
      simp [FragmentStep.fragmentFor, h] at hother
    cases hget : t.getSlot hash (iph.key vrf) with
    | none => rw [step_fragment_none hget]
    | some found =>
      rw [step_fragment hget]
      refine update_of_ne (fun hslot => hne ?_) _ _
      rw [← key_of_getSlot hget, ← hslot, hkey]
  | scan | oscan => cases hbetween

theorem step_between (hdip : key.fkDip ≠ 0) (hbetween : a.Between key) {x : FragmentSlot}
    (hx : (t.entry x).fKey ≠ key) : ((t.step hash a).entry x).fKey ≠ key := by
  intro h
  refine hx (step_key hdip (fun vrf iph sport dport sec ha _ => ?_) h)
  subst ha
  exact hbetween

theorem Tracks.other (h : Tracks hash key slot bytes done t) (hdip : key.fkDip ≠ 0)
    (hbetween : a.Between key) (hother : a.fragmentFor key = none) :
    Tracks hash key slot bytes done (t.step hash a) := by
  obtain ⟨time, hentry⟩ := @step_other hash t key slot a hdip h.fKey hbetween hother
  refine ⟨h.mem, ?_, ?_, ?_, fun x hx hne => step_between hdip hbetween (h.only x hx hne)⟩
  · rw [hentry]
    exact h.fKey
  · rw [hentry]
    exact h.received
  · rw [hentry]
    exact h.expected

/-- **One fragment.** It is counted; the entry is given back if it was the last one missing. -/
theorem Tracks.fragment {rest : List FragmentHeader} (h : Tracks hash key slot bytes done t)
    (hfrags : Fragmented bytes (done ++ iph :: rest)) (hoffset : iph.offset ≠ 0)
    (hdip : key.fkDip ≠ 0) (hkey : iph.key vrf = key) :
    if rest = [] then (t.step hash (.fragment vrf iph sec)).getSlot hash key = none
    else Tracks hash key slot bytes (done ++ [iph]) (t.step hash (.fragment vrf iph sec)) := by
  have hmem : iph ∈ done ++ iph :: rest := by simp
  have hdata := hfrags.data iph hmem
  have hstep := @step_fragment hash t slot vrf sec iph (hkey ▸ h.getSlot)
  have hfrags' : Fragmented bytes ((done ++ [iph]) ++ rest) := by rwa [List.append_assoc]
  -- the sums with this fragment
  let fe := { t.entry slot with fTime := sec.toNat }.counted iph
  have hreceived : fe.fReceived = BitVec.ofNat 16 (sizes (done ++ [iph])) := by
    show (t.entry slot).fReceived + iph.payload = _
    rw [h.received, FragmentHeader.payload_eq hdata, Fragmented.sizes_append, BitVec.ofNat_add]
    rfl
  have hexpected : fe.fExpected = expectedBytes bytes (done ++ [iph]) := by
    have htail : iph.vrIpFragmentTail = !iph.more := by
      unfold FragmentHeader.vrIpFragmentTail
      rw [hfrags.ip4 iph hmem, bne_iff_ne.mpr hoffset, Bool.true_and, Bool.and_true]
    show (if iph.vrIpFragmentTail then iph.offset * 8 + iph.payload else _) = _
    rw [htail, FragmentHeader.expected_eq hdata, h.expected]
    unfold expectedBytes
    cases hmore : iph.more with
    | true => simp [hmore]
    | false =>
      have hstop : iph.stop = bytes := by
        by_contra hne
        rw [(hfrags.more iph hmem).mpr hne] at hmore
        cases hmore
      simp [hmore, hstop]
  have hcomplete : fe.fReceived = fe.fExpected ↔ rest = [] := by
    rw [hreceived, hexpected]
    exact hfrags'.counted_iff (by simp)
  have hentry : (t.step hash (.fragment vrf iph sec)).entry slot =
      if rest = [] then fe.vrFragmentDel else fe := by
    rw [hstep, update_self]
    show (if fe.fReceived = fe.fExpected then fe.vrFragmentDel else fe) = _
    by_cases hrest : rest = []
    · rw [if_pos (hcomplete.mpr hrest), if_pos hrest]
    · rw [if_neg (mt hcomplete.mp hrest), if_neg hrest]
  have hothers : ∀ x ∈ fragmentSlots (hash key), x ≠ slot →
      ((t.step hash (.fragment vrf iph sec)).entry x).fKey ≠ key := by
    intro x hx hne
    rw [hstep, update_of_ne hne]
    exact h.only x hx hne
  split
  · rename_i hrest
    rw [if_pos hrest] at hentry
    refine getSlot_eq_none.mpr fun x hx => ?_
    by_cases hne : x = slot
    · rw [hne, hentry]
      intro hkey'
      exact hdip (congrArg FragmentKey.fkDip hkey').symm
    · exact hothers x hx hne
  · rename_i hrest
    rw [if_neg hrest] at hentry
    refine ⟨h.mem, ?_, ?_, ?_, hothers⟩
    · rw [hentry]
      exact h.fKey
    · rw [hentry, hreceived]
    · rw [hentry, hexpected]

theorem tracks_head {head : FragmentHeader} {sport dport : BitVec 16}
    (hdata : 4 * head.ipHl.toNat < head.ipLen.toNat) (hmore : head.more = true)
    (hnone : t.getSlot hash (head.key vrf) = none)
    (hslot : t.addSlot hash (head.key vrf) = some slot) :
    Tracks hash (head.key vrf) slot bytes [head]
      (t.step hash (.head vrf head sport dport sec)) := by
  rw [step_head hslot]
  refine ⟨?_, by rw [set_self]; rfl, ?_, ?_, fun x hx hne => ?_⟩
  · rw [addSlot_eq] at hslot
    exact List.mem_of_find?_eq_some hslot
  · rw [set_self]
    rw [FragmentHeader.payload_eq hdata]
    exact BitVec.zero_add _
  · rw [set_self]
    show 0 = expectedBytes bytes [head]
    simp [expectedBytes, hmore]
  · rw [set_of_ne hne]
    exact getSlot_eq_none.mp hnone x hx

end FragmentTable

/-! ## The whole datagram -/

open FragmentTable in
/-- What holds after some of the fragments: the entry counts them, or it was given back since none
is missing. -/
theorem run_tracks {hash : FragmentKey → BitVec 32} {key : FragmentKey} {slot : FragmentSlot}
    {bytes : Nat} {done rest : List FragmentHeader} {as : List FragmentStep}
    {t t' : FragmentTable} (hdip : key.fkDip ≠ 0) (hfrags : Fragmented bytes (done ++ rest))
    (hoffset : ∀ f ∈ rest, f.offset ≠ 0)
    (ht : if rest = [] then t.getSlot hash key = none else Tracks hash key slot bytes done t)
    (hbetween : ∀ a ∈ as, a.Between key)
    (hprocessed : as.filterMap (FragmentStep.fragmentFor key) <+: rest)
    (hrun : runSteps (fun t a => some (t.step hash a)) t as = some t') :
    t'.getSlot hash key = none ↔ as.filterMap (FragmentStep.fragmentFor key) = rest := by
  induction as generalizing t done rest with
  | nil =>
    cases hrun
    by_cases hrest : rest = []
    · rw [if_pos hrest] at ht
      exact iff_of_true ht hrest.symm
    · rw [if_neg hrest] at ht
      refine iff_of_false ?_ (Ne.symm hrest)
      rw [ht.getSlot]
      exact Option.some_ne_none slot
  | cons a as ih =>
    obtain ⟨t₁, hstep, hrun⟩ := runSteps_cons.mp hrun
    cases hstep
    have ha : a.Between key := hbetween a List.mem_cons_self
    have has : ∀ b ∈ as, b.Between key := fun b hb => hbetween b (List.mem_cons_of_mem a hb)
    cases hfor : a.fragmentFor key with
    | none =>
      rw [List.filterMap_cons_none hfor] at hprocessed ⊢
      refine ih hfrags hoffset ?_ has hprocessed hrun
      split
      · rename_i hrest
        rw [if_pos hrest] at ht
        exact getSlot_eq_none.mpr fun x hx =>
          step_between hdip ha (getSlot_eq_none.mp ht x hx)
      · rename_i hrest
        rw [if_neg hrest] at ht
        exact ht.other hdip ha hfor
    | some iph =>
      rw [List.filterMap_cons_some hfor] at hprocessed ⊢
      -- the fragment is the next of those that are missing
      obtain ⟨rest, rfl⟩ : ∃ rest', rest = iph :: rest' := by
        obtain ⟨more, hmore⟩ := hprocessed
        exact ⟨_, hmore.symm⟩
      obtain ⟨vrf, sec, rfl, hkey⟩ := FragmentStep.eq_of_fragmentFor hfor
      rw [if_neg (List.cons_ne_nil _ _)] at ht
      have ht₁ := @Tracks.fragment hash t key slot bytes done vrf sec iph rest ht hfrags
        (hoffset iph List.mem_cons_self) hdip hkey
      rw [List.cons_prefix_cons] at hprocessed
      rw [List.cons.injEq, and_iff_right rfl]
      refine ih ?_ (fun f hf => hoffset f (List.mem_cons_of_mem iph hf)) ht₁ has hprocessed.2 hrun
      rwa [List.append_assoc]

open FragmentTable in
/-- **The entry is removed with the last fragment.** A datagram to a destination other than zero is
fragmented; the head comes first and gets an entry in a table without one for the key. Other packets
may come between the fragments, but no scanner runs. Then the entry is gone exactly if all other
fragments, in whatever order, have come. -/
theorem fragment_entry_removed_last {hash : FragmentKey → BitVec 32} {t t' : FragmentTable}
    {vrf : BitVec 16} {bytes : Nat} {head : FragmentHeader} {others : List FragmentHeader}
    {sport dport : BitVec 16} {sec : BitVec 32} {slot : FragmentSlot} {as : List FragmentStep}
    (hfrags : Fragmented bytes (head :: others)) (hhead : head.vrIpFragmentHead = true)
    (hdip : head.ipDaddr ≠ 0) (hnone : t.getSlot hash (head.key vrf) = none)
    (hslot : t.addSlot hash (head.key vrf) = some slot)
    (hbetween : ∀ a ∈ as, a.Between (head.key vrf))
    (hprocessed : as.filterMap (FragmentStep.fragmentFor (head.key vrf)) <+: others)
    (hrun : runSteps (fun t a => some (t.step hash a))
      (t.step hash (.head vrf head sport dport sec)) as = some t') :
    t'.getSlot hash (head.key vrf) = none ↔
      as.filterMap (FragmentStep.fragmentFor (head.key vrf)) = others := by
  simp only [FragmentHeader.vrIpFragmentHead, Bool.and_eq_true, beq_iff_eq] at hhead
  have hmore : head.more = true := hhead.1.2
  have hmem : head ∈ head :: others := List.mem_cons_self
  -- a head is not the last fragment
  have hothers : others ≠ [] := by
    rintro rfl
    obtain ⟨f, hf, hstop⟩ := hfrags.pieces.exists_last (by
      have := hfrags.sizes_pos (List.Subset.refl _) (List.cons_ne_nil _ _)
      rwa [hfrags.sizes_eq] at this)
    rw [List.mem_singleton.mp hf] at hstop
    exact (hfrags.more head hmem).mp hmore hstop
  have htracks : if others = [] then
        (t.step hash (.head vrf head sport dport sec)).getSlot hash (head.key vrf) = none
      else Tracks hash (head.key vrf) slot bytes [head]
        (t.step hash (.head vrf head sport dport sec)) := by
    rw [if_neg hothers]
    exact tracks_head (hfrags.data head hmem) hmore hnone hslot
  rw [← List.singleton_append] at hfrags
  exact run_tracks hdip hfrags (fun f hf => hfrags.offset_ne_zero hhead.2 hf) htracks hbetween
    hprocessed hrun

/-- The second and last fragment of the datagram that `twoFragmentHead` is the head of. -/
def twoFragmentTail : FragmentHeader := { twoFragmentHead with ipFragOff := 1 }

theorem twoFragments_fragmented (daddr : BitVec 32) : Fragmented 16
    [{ twoFragmentHead with ipDaddr := daddr }, { twoFragmentTail with ipDaddr := daddr }] where
  legal := by decide
  ip4 := by simp [twoFragmentHead, twoFragmentTail]
  data := by simp [twoFragmentHead, twoFragmentTail]
  pieces := by
    constructor
    · rw [List.pairwise_pair]
      show twoFragmentHead.stop ≤ twoFragmentTail.start ∨ _
      exact Or.inl (by decide)
    intro k
    have hcover : k < 16 ↔
        (twoFragmentHead.start ≤ k ∧ k < twoFragmentHead.stop) ∨
          twoFragmentTail.start ≤ k ∧ k < twoFragmentTail.stop := by
      rw [show twoFragmentHead.start = 0 from rfl, show twoFragmentHead.stop = 8 from rfl,
        show twoFragmentTail.start = 8 from rfl, show twoFragmentTail.stop = 16 from rfl]
      omega
    rw [hcover, List.exists_mem_cons_iff]
    simp only [List.mem_singleton, exists_eq_left]
    exact Iff.rfl
  more := by
    refine List.forall_mem_cons.mpr ⟨?_, List.forall_mem_singleton.mpr ?_⟩
    · show twoFragmentHead.more = true ↔ twoFragmentHead.stop ≠ 16
      decide
    · show twoFragmentTail.more = true ↔ twoFragmentTail.stop ≠ 16
      decide

theorem fragment_entry_removed_last_two :
    let t := FragmentTable.init.step (fun _ => 0) (.head 3 twoFragmentHead 10 20 0)
    (t.step (fun _ => 0) (.fragment 3 twoFragmentTail 0)).getSlot (fun _ => 0)
      (twoFragmentHead.key 3) = none := by
  intro t
  refine (@fragment_entry_removed_last (fun _ => 0) .init _ 3 16 twoFragmentHead [twoFragmentTail]
    10 20 0 (.table 0) [.fragment 3 twoFragmentTail 0] (twoFragments_fragmented 2) (by decide)
    (by decide) (by decide +kernel) rfl (by simp [FragmentStep.Between]) (by decide) rfl).mpr ?_
  decide

/-- **An entry that is not given back.** The same datagram to the destination `0.0.0.0`: both of its
fragments have come, and its entry is still found. -/
theorem fragment_entry_kept :
    let head := { twoFragmentHead with ipDaddr := 0 }
    let tail := { twoFragmentTail with ipDaddr := 0 }
    let t := FragmentTable.init.step (fun _ => 0) (.head 3 head 10 20 0)
    Fragmented 16 [head, tail] ∧ head.vrIpFragmentHead = true ∧
      FragmentTable.init.getSlot (fun _ => 0) (head.key 3) = none ∧
      (t.step (fun _ => 0) (.fragment 3 tail 0)).getSlot (fun _ => 0) (head.key 3) ≠ none :=
  ⟨twoFragments_fragmented 0, by decide, by decide +kernel, by decide⟩

end VRouter
