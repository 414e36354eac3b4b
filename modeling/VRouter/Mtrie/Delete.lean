import VRouter.Mtrie.Add

/-!
# VRouter — `__mtrie_delete` removes one route

Deleting `p/n` gives every slot that `p/n` owns the replacement the request carries, and then
turns each visited bucket whose 256 slots compare equal back into a nexthop entry. The first half
always removes the route. The second half is right only when the equal slots inherited their
route: if the equal slots are more specific routes in their own right, the nexthop entry made of
them records the bucket's own prefix length. `CollapseSafe` is the condition on the routes that
rules this out, and under it `Represents.mtrieDeleteCore` holds for every visited bucket.
-/

namespace VRouter

open LongestMatch

variable {tbl : NexthopTable} {flagsKept : Prop} {levels : Nat} {R : Set IpRoute}
  {q : List Octet} {rt : RouteReq}

/-! ## The request and the condition -/

/-- The resolved request `rt` deletes a route of `R` and carries the replacement `o`: the longest
remaining route that contains the deleted prefix. -/
structure DeleteFor (tbl : NexthopTable) (flagsKept : Prop) (R : Set IpRoute) (rt : RouteReq)
    (o : Option IpRoute) : Prop where
  present : ∃ r ∈ R, r.IsFor rt.rtrPrefix rt.rtrPrefixLen
  longest : IsLongest (removeRoute R rt.rtrPrefix rt.rtrPrefixLen) rt.rtrPrefixLen rt.rtrPrefix o
  shows : Shows tbl flagsKept (setEntryToNh tbl rt.rtrNh) (reqInfo rt rt.rtrReplacePlen) o

/-- The block `q` is divided into more specific routes of one length that all have the same
nexthop and label: every address of the block has such a route as its longest match. -/
def Homogeneous (levels : Nat) (R : Set IpRoute) (q : List Octet) : Prop :=
  ∃ nh label len, 8 * q.length < len ∧
    ∀ a, Covers q (8 * q.length) a →
      ∃ r, IsLongest R (8 * levels) a (some r) ∧ r.len = len ∧ r.val.nh = nh ∧
        r.val.label = label

/-- A delete of `p/n` works on the bucket at block `q`: the block overlaps `p/n`, and no route
longer than `p/n` contains it. -/
def DeleteVisits (R : Set IpRoute) (p : List Octet) (n : Nat) (q : List Octet) : Prop :=
  Covers p (min n (8 * q.length)) q ∧ ∀ r ∈ R, r.len ≤ 8 * q.length → r.Covers q → r.len ≤ n

/-- The delete of `p/n` from `R` leaves no homogeneous block among those it works on. -/
def CollapseSafe (levels : Nat) (R : Set IpRoute) (p : List Octet) (n : Nat) : Prop :=
  ∀ q, q.length < levels → DeleteVisits R p n q → ¬ Homogeneous levels (removeRoute R p n) q

/-! ## Equal slots -/

variable {bkt : Fin 256 → IpBucketEntry} {info : EntryInfo} {nh : Option Nexthop} {relabel : Bool}

/-- A bucket whose slots compare equal holds one and the same nexthop entry 256 times. -/
theorem Represents.uniform (h : ∀ i, Represents tbl flagsKept levels R (bkt i) (q ++ [i]))
    (hu : bucketUniform bkt) : ∃ nh info, ∀ i, bkt i = .nexthop nh info := by
  have hsame : ∀ i, i ≠ 0 → entrySame (bkt i) (bkt 0) = true := by
    intro i hi
    have := List.all_eq_true.mp hu i (List.mem_finRange i)
    simpa [hi] using this
  cases h0 : bkt 0 with
  | nexthop nh info =>
    refine ⟨nh, info, fun i => ?_⟩
    by_cases hi : i = 0
    · rw [hi, h0]
    have hs := hsame i hi
    rw [h0] at hs
    cases hb : bkt i with
    | nexthop nh' info' =>
      rw [hb] at hs
      simp only [entrySame, Bool.and_eq_true, decide_eq_true_eq] at hs
      rw [hs.1, hs.2]
    | nullBucket | bucket => rw [hb] at hs; cases hs
  | nullBucket info =>
    have := h 0
    rw [h0] at this
    exact this.elim
  | bucket bkt' info =>
    -- slots 0 and 1 would point to the same bucket
    have hs := hsame 1 (by decide)
    rw [h0] at hs
    cases hb : bkt 1 <;> rw [hb] at hs <;> cases hs

/-- Equal slots that record more than the bucket's depth make the block homogeneous. -/
theorem homogeneous_of_uniform (hq : q.length < levels)
    (h : ∀ i, Represents tbl flagsKept levels R (.nexthop nh info) (q ++ [i]))
    (hlen : 8 * q.length < info.entryPrefixLen) : Homogeneous levels R q := by
  have hmatch : ∀ a, Covers q (8 * q.length) a →
      ∃ r, IsLongest R (8 * levels) a (some r) ∧ Shows tbl flagsKept nh info (some r) := by
    intro a ha
    have hslot : Covers (q ++ [octet a q.length]) (8 * (q.length + 1)) a :=
      (covers_append_iff _ _ _).mpr ⟨ha, rfl⟩
    obtain ⟨o, ho, hs⟩ := (h (octet a q.length)).leaf_looksUp (by simp; omega)
      (by simpa using hslot)
    cases o with
    | none => exact absurd hs.2 (by omega)
    | some r => exact ⟨r, ho, hs⟩
  obtain ⟨r₀, -, hs₀⟩ := hmatch q (Covers.refl q _)
  refine ⟨r₀.val.nh, info.entryLabel, info.entryPrefixLen, hlen, fun a ha => ?_⟩
  obtain ⟨r, hr, hs⟩ := hmatch a ha
  refine ⟨r, hr, hs.2.2.1.symm, ?_, hs.2.2.2.1.symm⟩
  exact Option.some.inj (hs.1.symm.trans hs₀.1)

/-- Equal slots that record at most the bucket's depth are one nexthop entry for the block. -/
theorem represents_of_uniform
    (h : ∀ i, Represents tbl flagsKept levels R (.nexthop nh info) (q ++ [i]))
    (hlen : info.entryPrefixLen ≤ 8 * q.length) :
    Represents tbl flagsKept levels R (.nexthop nh info) q := by
  have hsub : ∀ i : Octet, (q ++ [i]).length = q.length + 1 := fun i => by simp
  constructor
  · obtain ⟨o, ho, hs⟩ := (h 0).1
    refine ⟨o, ?_, hs⟩
    have hshort := ho.shallow (by rw [hsub]; omega) (hs.plen ▸ hlen)
    exact hshort.congr (covers_append q 0).symm
  intro r hr hrlen hcov
  have hslot : Covers (q ++ [octet r.octets q.length]) (8 * (q.length + 1)) r.octets :=
    (covers_append_iff _ _ _).mpr ⟨hcov, rfl⟩
  obtain ⟨⟨o, ho, hs⟩, hnone⟩ := h (octet r.octets q.length)
  rw [hsub] at ho
  rcases Nat.lt_or_ge (8 * (q.length + 1)) r.len with hlt | hge
  · exact hnone r hr (by rw [hsub]; exact hlt) (by rw [hsub]; exact hslot)
  · -- the route would be the match of its own slot
    have hle := ho.len_le hr hge (hslot.symm.mono hge)
    rw [← hs.plen] at hle
    omega

/-! ## The slots a delete works on -/

theorem delete_range_iff (hcov : Covers rt.rtrPrefix (min rt.rtrPrefixLen (8 * q.length)) q)
    (hhi : rt.rtrPrefixLen ≤ 8 * (q.length + 1)) (i : Fin 256) :
    (deleteStart q.length rt.rtrPrefixLen (rtToIndex rt q.length) ≤ i.val ∧
        i.val < deleteEnd q.length rt.rtrPrefixLen (rtToIndex rt q.length)) ↔
      Covers rt.rtrPrefix rt.rtrPrefixLen (q ++ [i]) := by
  simp only [deleteEnd, deleteStart, biPfxLen_eq, biBits_eq, biSize_eq]
  rcases Nat.lt_or_ge (8 * q.length) rt.rtrPrefixLen with hlo | hge
  · rw [min_eq_right (le_of_lt hlo)] at hcov
    rw [covers_slot_iff hlo hhi hcov.symm, slotCount_of_lt hlo hhi, if_pos ⟨by omega, hhi⟩]
    change _ ↔ i.val / _ = (rtToIndex rt q.length).val / _
    have hs : 8 * (q.length + 1) - rt.rtrPrefixLen ≤ 8 := by omega
    generalize 8 * (q.length + 1) - rt.rtrPrefixLen = s at hs ⊢
    interval_cases s <;> omega
  rw [min_eq_left hge] at hcov
  rw [if_neg (by omega)]
  have hcount : slotCount q.length rt.rtrPrefixLen = 256 := by
    simp only [slotCount, biPfxLen_eq, biBits_eq, biSize_eq]
    rw [if_neg (by omega)]
  exact iff_of_true (by omega) ((covers_append_short i hge).mpr hcov)

/-- Slot `i` of a bucket after the loop of `__mtrie_delete`. -/
def deletedSlot (tbl : NexthopTable) (rt : RouteReq) (bkt : Fin 256 → IpBucketEntry)
    (level : Nat) (i : Fin 256) : IpBucketEntry :=
  if (mtrieIpBktInfoInit level).biPfxLen < rt.rtrPrefixLen then
    if i = rtToIndex rt level then (mtrieDeleteCore tbl rt (bkt i) (level + 1) false).2 else bkt i
  else if deleteStart level rt.rtrPrefixLen (rtToIndex rt level) ≤ i.val ∧
      i.val < deleteEnd level rt.rtrPrefixLen (rtToIndex rt level) ∧
      (bkt i).info.entryPrefixLen = rt.rtrPrefixLen then
    match bkt i with
    | .nexthop _ _ => .nexthop (setEntryToNh tbl rt.rtrNh) (reqInfo rt rt.rtrReplacePlen)
    | _ => (mtrieDeleteCore tbl rt (bkt i) (level + 1) true).2
  else bkt i

theorem mtrieDeleteCore_bucket (bkt : Fin 256 → IpBucketEntry) (info : EntryInfo) (level : Nat)
    (relabel : Bool) :
    (mtrieDeleteCore tbl rt (.bucket bkt info) level relabel).2 =
      if bucketUniform (deletedSlot tbl rt bkt level) then
        mtrieDeleteBkt tbl rt (relabelledInfo rt relabel info)
      else .bucket (deletedSlot tbl rt bkt level) (relabelledInfo rt relabel info) := by
  rfl

/-- The nexthop entries a delete leaves where it has been. -/
def IsReplacement (tbl : NexthopTable) (rt : RouteReq) (ent : IpBucketEntry) : Prop :=
  ∃ plen, ent = .nexthop (setEntryToNh tbl rt.rtrNh) (reqInfo rt plen)

/-- A bucket is still a bucket after a delete, or has become a replacement entry. -/
theorem mtrieDeleteCore_leaf {info' : EntryInfo} {level : Nat}
    (h : (mtrieDeleteCore tbl rt (.bucket bkt info) level relabel).2 = .nexthop nh info') :
    IsReplacement tbl rt (.nexthop nh info') := by
  rw [mtrieDeleteCore_bucket] at h
  split at h
  · exact ⟨_, h.symm⟩
  · cases h

theorem covers_index (hcov : Covers rt.rtrPrefix (min rt.rtrPrefixLen (8 * q.length)) q) :
    Covers rt.rtrPrefix (min rt.rtrPrefixLen (8 * (q.length + 1)))
      (q ++ [rtToIndex rt q.length]) := by
  rcases Nat.lt_or_ge (8 * q.length) rt.rtrPrefixLen with hlo | hge
  · rw [min_eq_right (le_of_lt hlo)] at hcov
    have hsub : Covers (q ++ [rtToIndex rt q.length]) (8 * (q.length + 1)) rt.rtrPrefix :=
      (covers_append_iff _ _ _).mpr ⟨hcov.symm, rfl⟩
    exact hsub.symm.mono (min_le_right _ _)
  · rw [min_eq_left hge] at hcov
    rw [min_eq_left (by omega)]
    exact (covers_append_short _ hge).mpr hcov

/-- What a delete does to one slot: nothing, where the deleted route is not seen; the replacement,
where it owned a nexthop entry; and a delete of its own on a bucket. -/
theorem deletedSlot_cases {o : Option IpRoute} (hdel : DeleteFor tbl flagsKept R rt o)
    (hslots : ∀ i, Represents tbl flagsKept levels R (bkt i) (q ++ [i]))
    (hv : DeleteVisits R rt.rtrPrefix rt.rtrPrefixLen q) (i : Fin 256) :
    (deletedSlot tbl rt bkt q.length i = bkt i ∧
        Untouched R rt.rtrPrefix rt.rtrPrefixLen (q ++ [i])) ∨
      (deletedSlot tbl rt bkt q.length i =
          .nexthop (setEntryToNh tbl rt.rtrNh) (reqInfo rt rt.rtrReplacePlen) ∧
        (∃ nh info, bkt i = .nexthop nh info) ∧ rt.rtrPrefixLen ≤ 8 * (q.length + 1) ∧
        Covers rt.rtrPrefix rt.rtrPrefixLen (q ++ [i]) ∧
        (bkt i).info.entryPrefixLen = rt.rtrPrefixLen) ∨
      (deletedSlot tbl rt bkt q.length i =
          (mtrieDeleteCore tbl rt (bkt i) (q.length + 1)
            (rt.rtrPrefixLen ≤ 8 * (q.length + 1))).2 ∧
        (∃ b info, bkt i = .bucket b info) ∧
        DeleteVisits R rt.rtrPrefix rt.rtrPrefixLen (q ++ [i])) := by
  have hsub : (q ++ [i]).length = q.length + 1 := by simp
  obtain ⟨r, hr, hfor⟩ := hdel.present
  rw [deletedSlot, biPfxLen_eq]
  by_cases hdeep : 8 * (q.length + 1) < rt.rtrPrefixLen
  · rw [if_pos hdeep]
    have hnle : ¬ rt.rtrPrefixLen ≤ 8 * (q.length + 1) := Nat.not_le_of_lt hdeep
    have hcov := covers_index hv.1
    rw [min_eq_right (le_of_lt hdeep)] at hcov
    by_cases hi : i = rtToIndex rt q.length
    · rw [← hi] at hcov ⊢
      refine Or.inr (Or.inr ⟨by simp [hnle], ?_, ?_⟩)
      · -- the deleted route lies inside the slot's block, so the slot holds a bucket
        have hrep := hslots i
        cases hb : bkt i with
        | nexthop nh info =>
          rw [hb] at hrep
          refine absurd ?_ (hrep.2 r hr (by rw [hsub, hfor.1]; exact hdeep))
          rw [hsub]
          exact hcov.symm.trans (hfor.2.mono (le_of_lt hdeep))
        | nullBucket info => rw [hb] at hrep; exact hrep.elim
        | bucket b info => exact ⟨b, info, rfl⟩
      · rw [DeleteVisits, hsub, min_eq_right (le_of_lt hdeep)]
        exact ⟨hcov, fun s _ hs _ => le_trans hs (le_of_lt hdeep)⟩
    · rw [if_neg hi]
      refine Or.inl ⟨rfl, fun _ hc => hi ?_, fun hle => absurd (hsub ▸ hle) hnle⟩
      rw [hsub] at hc
      exact ((covers_append_iff q i rt.rtrPrefix).mp hc).2.symm
  · rw [if_neg hdeep]
    have hle : rt.rtrPrefixLen ≤ 8 * (q.length + 1) := Nat.le_of_not_lt hdeep
    have hrange := delete_range_iff hv.1 hle i
    obtain ⟨m, hm, hplen⟩ := (hslots i).plen
    by_cases hown : Covers rt.rtrPrefix rt.rtrPrefixLen (q ++ [i]) ∧
        (bkt i).info.entryPrefixLen = rt.rtrPrefixLen
    · rw [if_pos (and_assoc.mp ⟨hrange.mpr hown.1, hown.2⟩)]
      have hrep := hslots i
      cases hb : bkt i with
      | nexthop nh info => exact Or.inr (Or.inl ⟨rfl, ⟨nh, info, rfl⟩, hle, hown.1, hb ▸ hown.2⟩)
      | nullBucket info => rw [hb] at hrep; exact hrep.elim
      | bucket b info =>
        refine Or.inr (Or.inr ⟨by simp [hle], ⟨b, info, rfl⟩, ?_⟩)
        rw [DeleteVisits, hsub, min_eq_left hle]
        refine ⟨hown.1, fun s hs hsl hsc => ?_⟩
        rw [← hown.2, hplen]
        exact hm.len_le hs (hsub ▸ hsl) hsc
    · rw [if_neg fun h => hown ⟨hrange.mp (and_assoc.mpr h).1, h.2.2⟩]
      refine Or.inl ⟨rfl, fun hlt => absurd (hsub ▸ hlt) hdeep, fun hle' hc => ?_⟩
      -- the deleted route contains the block but is not its match, so the match is longer
      have hge := hm.len_le hr (hfor.1 ▸ hle') (hfor.covers hc)
      rw [hfor.1] at hge
      have hne : matchLen m ≠ rt.rtrPrefixLen := fun h => hown ⟨hc, hplen.trans h⟩
      exact (untouched_of_lt hm hle' (by omega)).2 hle' hc

/-! ## One bucket -/

variable {o : Option IpRoute}

variable (hdel : DeleteFor tbl flagsKept R rt o)
include hdel

/-- Equal slots that record at most the bucket's depth are replacement entries: the slot on the
way to the deleted prefix was not left alone. -/
theorem isReplacement_of_uniform
    (hslots : ∀ i, Represents tbl flagsKept levels R (bkt i) (q ++ [i]))
    (hv : DeleteVisits R rt.rtrPrefix rt.rtrPrefixLen q)
    (hall : ∀ i, deletedSlot tbl rt bkt q.length i = .nexthop nh info)
    (hlen : info.entryPrefixLen ≤ 8 * q.length) : IsReplacement tbl rt (.nexthop nh info) := by
  have hcov := covers_index hv.1
  have hsub : (q ++ [rtToIndex rt q.length]).length = q.length + 1 := by simp
  rcases deletedSlot_cases hdel hslots hv (rtToIndex rt q.length) with
    ⟨hkept, hu⟩ | ⟨hrepl, -⟩ | ⟨hrec, ⟨b, binfo, hb⟩, -⟩
  · rw [Untouched, hsub] at hu
    have hle : rt.rtrPrefixLen ≤ 8 * (q.length + 1) := by
      by_contra hlt
      rw [min_eq_right (by omega)] at hcov
      exact hu.1 (by omega) hcov.symm
    rw [min_eq_left hle] at hcov
    obtain ⟨s, hs, hsl, hsc, hns⟩ := hu.2 hle hcov
    have hrep := hslots (rtToIndex rt q.length)
    rw [← hkept, hall] at hrep
    obtain ⟨⟨m, hm, hshow⟩, -⟩ := hrep
    have hlong := hm.len_le hs (hsub ▸ hsl) hsc
    -- the slot's match is longer than the deleted route and contains the bucket's whole block
    cases m with
    | none => exact absurd hlong (by rw [matchLen_none]; omega)
    | some t =>
      rw [matchLen_some] at hlong
      have htl : t.len ≤ 8 * q.length := hshow.2.2.1 ▸ hlen
      have := hv.2 t hm.1.1 htl ((covers_append_short _ htl).mp hm.1.2.2)
      omega
  · exact ⟨_, (hall _).symm.trans hrepl⟩
  · rw [hall, hb] at hrec
    exact mtrieDeleteCore_leaf hrec.symm

/-- The match of a block the delete works on, after the delete, is the length its bucket entry
records by then. -/
theorem delete_own (hown : ∃ m, IsLongest R (8 * q.length) q m ∧ info.entryPrefixLen = matchLen m)
    (hv : DeleteVisits R rt.rtrPrefix rt.rtrPrefixLen q)
    (hrel : relabel = decide (rt.rtrPrefixLen ≤ 8 * q.length) ∨ relabel = false ∧ q = []) :
    ∃ m, IsLongest (removeRoute R rt.rtrPrefix rt.rtrPrefixLen) (8 * q.length) q m ∧
      (relabelledInfo rt relabel info).entryPrefixLen = matchLen m := by
  obtain ⟨m, hm, hlen⟩ := hown
  by_cases hle : rt.rtrPrefixLen ≤ 8 * q.length
  · -- the deleted route is the block's match, and the replacement takes its place
    have hcov := hv.1
    rw [min_eq_left hle] at hcov
    obtain ⟨r, hr, hfor⟩ := hdel.present
    have hge := hm.len_le hr (hfor.1 ▸ hle) (hfor.covers hcov)
    have hmn : matchLen m = rt.rtrPrefixLen := by
      refine le_antisymm ?_ (hfor.1 ▸ hge)
      cases m with
      | none => exact Nat.zero_le _
      | some t => exact hv.2 t hm.1.1 hm.1.2.1 hm.1.2.2
    have hlong := hm.remove_hit hmn hle hcov hdel.longest
    refine ⟨o, hlong, ?_⟩
    rcases hrel with hrel | ⟨hrel, rfl⟩
    · rw [hrel, decide_eq_true hle]
      exact hdel.shows.plen
    -- the root block: all lengths involved are zero
    have h0 := hlong.matchLen_le
    have h0' := hm.matchLen_le
    simp only [List.length_nil] at h0 h0'
    rw [hrel, relabelledInfo, if_neg (by simp)]
    omega
  · have hfalse : relabel = false := by
      rcases hrel with hrel | ⟨hrel, -⟩
      · rw [hrel, decide_eq_false hle]
      · exact hrel
    refine ⟨m, hm.remove_other ?_, by rw [hfalse]; exact hlen⟩
    rintro t rfl hfor
    exact hle (hfor.1 ▸ hm.1.2.1)

/-- `__mtrie_delete` on a bucket it works on. Induction on the tree; the slots are settled by
`deletedSlot_cases`, and what is left is the collapse of a bucket with equal slots. -/
theorem Represents.mtrieDeleteCore (hsafe : CollapseSafe levels R rt.rtrPrefix rt.rtrPrefixLen)
    (h : Represents tbl flagsKept levels R (.bucket bkt info) q)
    (hv : DeleteVisits R rt.rtrPrefix rt.rtrPrefixLen q)
    (hrel : relabel = decide (rt.rtrPrefixLen ≤ 8 * q.length) ∨ relabel = false ∧ q = []) :
    Represents tbl flagsKept levels (removeRoute R rt.rtrPrefix rt.rtrPrefixLen)
      (VRouter.mtrieDeleteCore tbl rt (.bucket bkt info) q.length relabel).2 q := by
  generalize hent : IpBucketEntry.bucket bkt info = ent at h ⊢
  induction ent generalizing q bkt info relabel with
  | nexthop | nullBucket => cases hent
  | bucket bkt info ih =>
    cases hent
    obtain ⟨hq, hown, hslots⟩ := h
    have hown' := delete_own hdel hown hv hrel
    have hslots' : ∀ i, Represents tbl flagsKept levels
        (removeRoute R rt.rtrPrefix rt.rtrPrefixLen) (deletedSlot tbl rt bkt q.length i)
        (q ++ [i]) := by
      intro i
      have hsub : (q ++ [i]).length = q.length + 1 := by simp
      rcases deletedSlot_cases hdel hslots hv i with
        ⟨hkept, hu⟩ | ⟨hrepl, ⟨nh, inf, hb⟩, hle, hcov, hplen⟩ | ⟨hrec, ⟨b, inf, hb⟩, hvi⟩
      · rw [hkept]
        exact (hslots i).frame_remove hu
      · have hrep := hslots i
        rw [hb] at hrep hplen
        obtain ⟨⟨m, hm, hs⟩, hnone⟩ := hrep
        rw [hrepl]
        refine ⟨⟨o, hm.remove_hit (hs.plen ▸ hplen) (hsub ▸ hle) hcov hdel.longest,
          hdel.shows⟩, fun s hs => hnone s hs.1⟩
      · rw [hrec]
        have := ih i hvi (Or.inl (by rw [hsub])) hb.symm (hslots i)
        rwa [hsub] at this
    rw [mtrieDeleteCore_bucket]
    by_cases hu : bucketUniform (deletedSlot tbl rt bkt q.length) = true
    · rw [if_pos hu]
      obtain ⟨nh, u, hall⟩ := Represents.uniform hslots' hu
      have hleaf : ∀ i, Represents tbl flagsKept levels
          (removeRoute R rt.rtrPrefix rt.rtrPrefixLen) (.nexthop nh u) (q ++ [i]) :=
        fun i => hall i ▸ hslots' i
      have hshort : u.entryPrefixLen ≤ 8 * q.length := by
        by_contra hlt
        exact hsafe q hq hv (homogeneous_of_uniform hq hleaf (Nat.lt_of_not_le hlt))
      have hrep := represents_of_uniform hleaf hshort
      obtain ⟨plen, hpl⟩ := isReplacement_of_uniform hdel hslots hv hall hshort
      -- the entry's own length and that of its slots are the length of one match
      obtain ⟨m, hm, hmlen⟩ := hown'
      obtain ⟨⟨m', hm', hs'⟩, -⟩ := id hrep
      have heq : (relabelledInfo rt relabel info).entryPrefixLen = u.entryPrefixLen :=
        hmlen.trans ((hm.matchLen_eq hm').trans hs'.plen.symm)
      cases hpl
      have hmod : reqInfo rt (relabelledInfo rt relabel info).entryPrefixLen =
          reqInfo rt plen := by
        rw [heq]
        simp only [reqInfo, Nat.mod_mod]
      rw [mtrieDeleteBkt, hmod]
      exact hrep
    · rw [if_neg hu]
      exact ⟨hq, hown', hslots'⟩

end VRouter
