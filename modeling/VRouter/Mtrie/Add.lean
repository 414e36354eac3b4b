import VRouter.Mtrie.Invariant

/-!
# VRouter — `__mtrie_add` adds one route

Adding the route `p/n` turns a tree that represents `R` into one that represents `R` with `p/n`.
The proof follows the code: `add_to_tree` on one covered slot (`Represents.addToTree`), the loop
over the slots the route covers (`addSlots_apply`, `slot_in_range_iff`), and the descent to the
level where the route ends (`Represents.mtrieAddLevels`). A descent that runs out of memory
leaves the represented routes as they were (`AddOutcome`).
-/

namespace VRouter

open LongestMatch

/-! ## The request and its route -/

/-- The resolved request `rt` asks for the route `r`: a canonical prefix of the family's length
at most, whose entry shows `r`. -/
structure RequestFor (tbl : NexthopTable) (flagsKept : Prop) (rt : RouteReq) (r : IpRoute) :
    Prop where
  octets : r.octets = rt.rtrPrefix
  len : r.len = rt.rtrPrefixLen
  len_le : rt.rtrPrefixLen ≤ ipPrefixLen rt.rtrFamily
  hostBitsZero : HostBitsZero rt.rtrPrefix rt.rtrPrefixLen
  shows : Shows tbl flagsKept (setEntryToNh tbl rt.rtrNh) (reqInfo rt rt.rtrPrefixLen) (some r)

variable {n : Nat}

theorem plen_mod {family : Family} (h : n ≤ ipPrefixLen family) : n % 2 ^ 8 = n := by
  cases family <;> simp [ipPrefixLen] at h <;> omega

section

variable {tbl : NexthopTable} {flagsKept : Prop} {levels : Nat} {R : Set IpRoute}
  {q : List Octet} {rt : RouteReq} {r : IpRoute}

/-! ## One covered slot -/

variable {alloc : Nat → Bool} {level : Nat} {ent : IpBucketEntry} {o : Option IpRoute}
    {p : List Octet}

/-- A block whose match is longer than `n` does not see the route for `p/n`. -/
theorem untouched_of_lt (ho : IsLongest R (8 * q.length) q o) (hn : n ≤ 8 * q.length)
    (hlt : n < matchLen o) : Untouched R p n q := by
  refine ⟨fun h => absurd h (by omega), fun _ _ => ?_⟩
  cases o with
  | none => exact absurd hlt (Nat.not_lt_zero n)
  | some s => exact ⟨s, ho.1.1, ho.1.2.1, ho.1.2.2, hlt⟩

theorem Represents.addToTree (hreq : RequestFor tbl flagsKept rt r)
    (h : Represents tbl flagsKept (ipBktGetMaxLevel rt.rtrFamily) R ent q)
    (hq : q.length = level + 1) (hn : rt.rtrPrefixLen ≤ 8 * q.length)
    (hcov : Covers rt.rtrPrefix rt.rtrPrefixLen q) :
    Represents tbl flagsKept (ipBktGetMaxLevel rt.rtrFamily) (addRoute R r)
      (addToTree tbl rt level ent) q := by
  have hrq : r.Covers q := by rw [Route.Covers, hreq.octets, hreq.len]; exact hcov
  have hrn : r.len ≤ 8 * q.length := hreq.len ▸ hn
  -- a slot with a longer match is left as it is, whatever it holds
  have hprune : rt.rtrPrefixLen < ent.info.entryPrefixLen →
      Represents tbl flagsKept (ipBktGetMaxLevel rt.rtrFamily) (addRoute R r) ent q := by
    intro hlt
    obtain ⟨o, ho, hlen⟩ := h.plen
    exact h.frame_add (untouched_of_lt ho hrn (by rw [hreq.len]; omega))
  induction ent generalizing q level with
  | nexthop nh info =>
    rw [VRouter.addToTree]
    by_cases hlt : rt.rtrPrefixLen < info.entryPrefixLen
    · rw [if_pos hlt]
      exact hprune hlt
    rw [if_neg hlt]
    obtain ⟨⟨o, ho, hs⟩, hnone⟩ := h
    refine ⟨⟨some r, ho.add_cover hrn hrq ?_, hreq.shows⟩, ?_⟩
    · rw [← hs.plen, hreq.len]
      exact Nat.le_of_not_lt hlt
    · rintro s (rfl | ⟨hs, -⟩) hslen
      · exact absurd hslen (by omega)
      · exact hnone s hs hslen
  | nullBucket info => exact h.elim
  | bucket bkt info ih =>
    rw [VRouter.addToTree]
    by_cases hlt : rt.rtrPrefixLen < info.entryPrefixLen
    · rw [if_pos hlt]
      exact hprune hlt
    obtain ⟨hql, ⟨o, ho, hlen⟩, hslots⟩ := h
    rw [if_neg hlt, if_neg (by omega)]
    refine ⟨hql, ⟨some r, ho.add_cover hrn hrq (by rw [hreq.len]; omega), ?_⟩, fun i => ?_⟩
    · simp only [matchLen_some, hreq.len, plen_mod hreq.len_le]
    have hsub : (q ++ [i]).length = q.length + 1 := by simp
    have hcov' := (covers_append_short i hn).mpr hcov
    have hn' : rt.rtrPrefixLen ≤ 8 * (q ++ [i]).length := by omega
    have hrq' : r.Covers (q ++ [i]) := by
      rw [Route.Covers, hreq.octets, hreq.len]
      exact hcov'
    refine ih i (hslots i) (by omega) hn' hcov' hrq' (by omega) fun hlt' => ?_
    obtain ⟨o', ho', hlen'⟩ := (hslots i).plen
    exact (hslots i).frame_add (untouched_of_lt ho' (by omega) (by rw [hreq.len]; omega))

/-! ## The slots a route covers -/

/-- The loop visits each of the `fin` slots from `i` on once, and no other slot. -/
theorem addSlots_apply (visit : IpBucketEntry → IpBucketEntry) (fin : Nat) (hfin : fin ≤ 256)
    (i j : Fin 256) (bkt : Fin 256 → IpBucketEntry) :
    addSlots visit fin i bkt j = if (j - i).val < fin then visit (bkt j) else bkt j := by
  induction fin generalizing i bkt with
  | zero => simp [addSlots]
  | succ fin ih =>
    rw [addSlots, ih (by omega)]
    by_cases hji : j = i
    · -- the slot just visited is 255 slots away from its successor
      subst hji
      rw [if_neg (by omega), if_pos rfl, if_pos (by omega)]
    · rw [if_neg hji]
      by_cases hlt : (j - i).val < fin + 1
      · rw [if_pos hlt, if_pos (by omega)]
      · rw [if_neg hlt, if_neg (by omega)]

theorem slotCount_le (level plen : Nat) : slotCount level plen ≤ 256 := by
  simp only [slotCount, biPfxLen_eq, biBits_eq, biSize_eq]
  split
  · calc 2 ^ (8 * (level + 1) - plen) ≤ 2 ^ 8 := Nat.pow_le_pow_right (by decide) (by omega)
      _ = 256 := rfl
  · exact le_refl _

/-- The route covers all slots of the root bucket when it has length zero, and otherwise the
slots whose index has the route's leading bits. -/
theorem slotCount_of_lt (hlo : 8 * level < n) (hhi : n ≤ 8 * (level + 1)) :
    slotCount level n = 2 ^ (8 * (level + 1) - n) := by
  simp only [slotCount, biPfxLen_eq, biBits_eq]
  rw [if_pos ⟨by omega, hhi⟩]

theorem fin_sub_lt_iff (i j : Fin 256) {s : Nat} (hs : s ≤ 8) (hi : i.val % 2 ^ s = 0) :
    (j - i).val < 2 ^ s ↔ i.val ≤ j.val ∧ j.val < i.val + 2 ^ s := by
  interval_cases s <;> omega

/-- The slots of the bucket at block `q` inside `p/n`, for a prefix that ends at this level. -/
theorem covers_slot_iff (hlo : 8 * q.length < n) (hhi : n ≤ 8 * (q.length + 1))
    (hpath : Covers q (8 * q.length) p) (j : Octet) : Covers p n (q ++ [j]) ↔
      j.val / 2 ^ (8 * (q.length + 1) - n) =
        (octet p q.length).val / 2 ^ (8 * (q.length + 1) - n) := by
  obtain ⟨k, rfl⟩ := Nat.exists_eq_add_of_le (le_of_lt hlo)
  rw [covers_split_octet p _ q.length k (by omega), octet_append_self,
    show 8 * (q.length + 1) - (8 * q.length + k) = 8 - k from by omega]
  exact and_iff_right (hpath.symm.trans (covers_append q j))

theorem slot_in_range_iff (hz : HostBitsZero rt.rtrPrefix rt.rtrPrefixLen)
    (hlo : 8 * q.length < rt.rtrPrefixLen ∨ rt.rtrPrefixLen = 0)
    (hhi : rt.rtrPrefixLen ≤ 8 * (q.length + 1)) (hpath : Covers q (8 * q.length) rt.rtrPrefix)
    (j : Fin 256) :
    (j - rtToIndex rt q.length).val < slotCount q.length rt.rtrPrefixLen ↔
      Covers rt.rtrPrefix rt.rtrPrefixLen (q ++ [j]) := by
  rcases hlo with hlo | h0
  · rw [covers_slot_iff hlo hhi hpath, slotCount_of_lt hlo hhi]
    obtain ⟨k, hk⟩ := Nat.exists_eq_add_of_le (le_of_lt hlo)
    have halign : (octet rt.rtrPrefix q.length).val % 2 ^ (8 * (q.length + 1) - rt.rtrPrefixLen)
        = 0 := by
      rw [hk] at hz
      rw [show 8 * (q.length + 1) - rt.rtrPrefixLen = 8 - k from by omega]
      exact hz.octet_mod (by omega)
    rw [octet_interval _ _ _ halign]
    exact fin_sub_lt_iff _ _ (by omega) halign
  · rw [h0]
    simp only [slotCount, biSize_eq]
    exact iff_of_true (Fin.isLt _) (covers_zero _ _)

/-! ## The descent -/

theorem mtrieAddLevels_bucket (alloc : Nat → Bool) (fuel level : Nat)
    (bkt : Fin 256 → IpBucketEntry) (info : EntryInfo) :
    mtrieAddLevels tbl alloc rt (fuel + 1) level (.bucket bkt info) =
      if 8 * (level + 1) < rt.rtrPrefixLen then
        ((mtrieAddLevels tbl alloc rt fuel (level + 1) (bkt (rtToIndex rt level))).1,
          .bucket (fun j => if j = rtToIndex rt level then
            (mtrieAddLevels tbl alloc rt fuel (level + 1) (bkt (rtToIndex rt level))).2
            else bkt j) info)
      else
        (.ok (), .bucket (addSlots (VRouter.addToTree tbl rt level)
          (slotCount level rt.rtrPrefixLen) (rtToIndex rt level) bkt) info) := by
  simp only [mtrieAddLevels, biPfxLen_eq]

theorem mtrieAddLevels_nexthop (halloc : alloc level = true) (fuel : Nat) (nh : Option Nexthop)
    (info : EntryInfo) : mtrieAddLevels tbl alloc rt (fuel + 1) level (.nexthop nh info) =
      match mtrieAddLevels tbl alloc rt (fuel + 1) level
          (.bucket (mtrieAllocBucket tbl nh info) info) with
      | (.ok (), ent) => (.ok (), ent)
      | (.error e, _) => (.error e, .nexthop (setEntryToNh tbl nh) info) := by
  conv_lhs => rw [mtrieAddLevels]
  rw [if_pos halloc]
  rfl

/-- What `__mtrie_add` may leave at block `q`: the route added, or, when a bucket could not be
allocated, an entry that represents what it did before. -/
def AddOutcome (tbl : NexthopTable) (flagsKept : Prop) (levels : Nat) (alloc : Nat → Bool)
    (R : Set IpRoute) (r : IpRoute) (q : List Octet)
    (res : Except Errno Unit × IpBucketEntry) : Prop :=
  (res.1 = .ok () ∧ Represents tbl flagsKept levels (addRoute R r) res.2 q) ∨
    (res.1 = .error .ENOMEM ∧ (∃ level, alloc level = false) ∧
      Represents tbl flagsKept levels R res.2 q)

/-- The length a bucket above the route's last level records stays right: the route is longer
than the bucket's block, or both have length zero. -/
theorem isLongest_add_above (ho : IsLongest R (8 * q.length) q o)
    (hlo : 8 * q.length < r.len ∨ r.len = 0 ∧ q = []) :
    ∃ o', IsLongest (addRoute R r) (8 * q.length) q o' ∧ matchLen o = matchLen o' := by
  rcases hlo with hlo | ⟨h0, rfl⟩
  · exact ⟨o, ho.add_other fun hle => absurd hle (by omega), rfl⟩
  · have hmax := ho.matchLen_le
    simp only [List.length_nil] at hmax
    have hcov : r.Covers [] := by rw [Route.Covers, h0]; exact covers_zero _ _
    exact ⟨some r, ho.add_cover (by omega) hcov (by omega), by rw [matchLen_some]; omega⟩

/-- One bucket of the descent, given the descent below it. -/
theorem Represents.addBucket (hreq : RequestFor tbl flagsKept rt r) (fuel : Nat)
    {bkt : Fin 256 → IpBucketEntry} {info : EntryInfo}
    (h : Represents tbl flagsKept (ipBktGetMaxLevel rt.rtrFamily) R (.bucket bkt info) q)
    (hlo : 8 * q.length < rt.rtrPrefixLen ∨ rt.rtrPrefixLen = 0 ∧ q = [])
    (hpath : Covers q (8 * q.length) rt.rtrPrefix) (hrec : 8 * (q.length + 1) < rt.rtrPrefixLen →
      AddOutcome tbl flagsKept (ipBktGetMaxLevel rt.rtrFamily) alloc R r
        (q ++ [rtToIndex rt q.length])
        (mtrieAddLevels tbl alloc rt fuel (q.length + 1) (bkt (rtToIndex rt q.length)))) :
    AddOutcome tbl flagsKept (ipBktGetMaxLevel rt.rtrFamily) alloc R r q
      (mtrieAddLevels tbl alloc rt (fuel + 1) q.length (.bucket bkt info)) := by
  obtain ⟨hql, ⟨o, ho, hlen⟩, hslots⟩ := h
  obtain ⟨o', ho', hoo'⟩ := isLongest_add_above ho (hreq.len.symm ▸ hlo)
  have hown := (⟨o', ho', hlen.trans hoo'⟩ : ∃ o, IsLongest (addRoute R r) (8 * q.length) q o ∧
    info.entryPrefixLen = matchLen o)
  rw [mtrieAddLevels_bucket]
  by_cases hdeep : 8 * (q.length + 1) < rt.rtrPrefixLen
  · rw [if_pos hdeep]
    rcases hrec hdeep with ⟨hret, hrep⟩ | ⟨hret, hfail, hrep⟩
    · refine Or.inl ⟨hret, hql, hown, fun j => ?_⟩
      simp only
      by_cases hj : j = rtToIndex rt q.length
      · rw [if_pos hj, hj]
        exact hrep
      -- another slot: the prefix continues with a different octet
      rw [if_neg hj]
      refine (hslots j).frame_add ⟨fun _ hcov => hj ?_, fun hle => ?_⟩
      · rw [List.length_append, hreq.octets] at hcov
        exact ((covers_append_iff q j rt.rtrPrefix).mp hcov).2.symm
      · rw [List.length_append, List.length_singleton, hreq.len] at hle
        omega
    · refine Or.inr ⟨hret, hfail, hql, ⟨o, ho, hlen⟩, fun j => ?_⟩
      simp only
      by_cases hj : j = rtToIndex rt q.length
      · rw [if_pos hj, hj]
        exact hrep
      · rw [if_neg hj]
        exact hslots j
  · rw [if_neg hdeep]
    refine Or.inl ⟨rfl, hql, hown, fun j => ?_⟩
    have hhi : rt.rtrPrefixLen ≤ 8 * (q.length + 1) := Nat.le_of_not_lt hdeep
    have hrange := slot_in_range_iff hreq.hostBitsZero (hlo.imp id And.left) hhi hpath j
    have hsub : (q ++ [j]).length = q.length + 1 := by simp
    rw [addSlots_apply _ _ (slotCount_le _ _)]
    by_cases hj : (j - rtToIndex rt q.length).val < slotCount q.length rt.rtrPrefixLen
    · rw [if_pos hj]
      exact (hslots j).addToTree hreq hsub (by omega) (hrange.mp hj)
    rw [if_neg hj]
    refine (hslots j).frame_add ⟨fun hlt => ?_, fun _ hcov => ?_⟩
    · rw [hreq.len] at hlt
      omega
    · rw [hreq.octets, hreq.len] at hcov
      exact absurd (hrange.mpr hcov) hj

/-- The descent of `__mtrie_add`. Induction on the levels left; the block `q` is the part of the
prefix already followed, and the route is longer than it except at the root. -/
theorem Represents.mtrieAddLevels (hreq : RequestFor tbl flagsKept rt r) (fuel : Nat)
    (h : Represents tbl flagsKept (ipBktGetMaxLevel rt.rtrFamily) R ent q)
    (hfuel : q.length + fuel = ipBktGetMaxLevel rt.rtrFamily)
    (hlo : 8 * q.length < rt.rtrPrefixLen ∨ rt.rtrPrefixLen = 0 ∧ q = [])
    (hpath : Covers q (8 * q.length) rt.rtrPrefix) :
    AddOutcome tbl flagsKept (ipBktGetMaxLevel rt.rtrFamily) alloc R r q
      (VRouter.mtrieAddLevels tbl alloc rt fuel q.length ent) := by
  have hmax := hreq.len_le
  rw [ipPrefixLen_eq] at hmax
  induction fuel generalizing q ent with
  | zero =>
    -- the route would have to end below the last level
    rcases hlo with hlo | ⟨-, rfl⟩
    · omega
    · exact absurd hfuel (by cases rt.rtrFamily <;> decide)
  | succ fuel ih =>
    have hbucket : ∀ {bkt info},
        Represents tbl flagsKept (ipBktGetMaxLevel rt.rtrFamily) R (.bucket bkt info) q →
        AddOutcome tbl flagsKept (ipBktGetMaxLevel rt.rtrFamily) alloc R r q
          (VRouter.mtrieAddLevels tbl alloc rt (fuel + 1) q.length (.bucket bkt info)) := by
      intro bkt info hb
      refine hb.addBucket hreq fuel hlo hpath fun hdeep => ?_
      have hsub : (q ++ [rtToIndex rt q.length]).length = q.length + 1 := by simp
      have hpath' : Covers (q ++ [rtToIndex rt q.length]) (8 * (q.length + 1)) rt.rtrPrefix :=
        (covers_append_iff _ _ _).mpr ⟨hpath, rfl⟩
      have := ih (hb.2.2 (rtToIndex rt q.length)) (by omega) (Or.inl (by omega))
        (hsub ▸ hpath')
      rwa [hsub] at this
    cases ent with
    | nexthop nh info =>
      obtain ⟨o, -, hs⟩ := h.1
      cases halloc : alloc q.length with
      | true =>
        rw [mtrieAddLevels_nexthop halloc]
        rcases hbucket (h.alloc (by omega)) with hok | ⟨hret, hfail, -⟩
        · split
          · rename_i heq
            rw [heq] at hok
            exact Or.inl hok
          · rename_i heq
            rw [heq] at hok
            cases hok.1
        · -- a later allocation failed: the entry gets its nexthop back
          split
          · rename_i heq
            rw [heq] at hret
            cases hret
          rename_i heq
          rw [heq] at hret
          refine Or.inr ⟨hret, hfail, ?_⟩
          rw [hs.setEntryToNh]
          exact h
      | false =>
        refine Or.inr ⟨?_, ⟨_, halloc⟩, ?_⟩
        · simp [VRouter.mtrieAddLevels, halloc]
        · simp only [VRouter.mtrieAddLevels, halloc]
          rw [hs.setEntryToNh]
          exact h
    | nullBucket info => exact h.elim
    | bucket bkt info => exact hbucket h

theorem Represents.mtrieAddCore (alloc : Nat → Bool) (hreq : RequestFor tbl flagsKept rt r)
    {root : IpBucketEntry}
    (h : Represents tbl flagsKept (ipBktGetMaxLevel rt.rtrFamily) R root []) :
    AddOutcome tbl flagsKept (ipBktGetMaxLevel rt.rtrFamily) alloc R r []
      (VRouter.mtrieAddCore tbl alloc rt root) := by
  refine h.mtrieAddLevels hreq _ (Nat.zero_add _) ?_ (covers_zero _ _)
  rcases Nat.eq_zero_or_pos rt.rtrPrefixLen with h0 | hpos
  · exact Or.inr ⟨h0, rfl⟩
  · exact Or.inl hpos

end

end VRouter
