import VRouter.Mtrie.Table

/-!
# VRouter — what a route tree represents

The invariant that ties a tree of buckets to a set of routes. A slot is reached by a string of
octets, its block; `Represents R q ent` says that the tree `ent`, hanging at block `q`, answers
for the routes `R`:

* a nexthop slot shows the longest route of `R` among those that contain the whole block, and no
  route of `R` is more specific than the block and inside it;
* a bucket records the length of that longest route, and its 256 slots represent `R` at the 256
  sub-blocks.

The results here are about one tree and are used by both the add and the delete proofs:

* `Represents.alloc` — splitting a nexthop slot into a bucket changes nothing;
* `Represents.frame_add`, `Represents.frame_remove` — a tree is left correct by a change of the
  route set that no address of its block can notice (`Untouched`);
* `Represents.lookupBucket` — a full-length lookup ends in the longest match.
-/

namespace VRouter

open LongestMatch

/-! ## What an entry shows -/

/-- What the table stores with a prefix. -/
structure RouteVal where
  nh : Nexthop
  label : Nat
  labelFlags : Nat

abbrev IpRoute := Route RouteVal

/-- A nexthop entry shows a match: it holds the route's nexthop, which is installed, with the
route's length and label, and with its label flags where `flagsKept` asks for them. Without a
match it holds the discard nexthop with length zero. -/
def Shows (tbl : NexthopTable) (flagsKept : Prop) (nh : Option Nexthop) (info : EntryInfo) :
    Option IpRoute → Prop
  | some r => nh = some r.val.nh ∧ tbl.get r.val.nh.nhId = some r.val.nh ∧
      info.entryPrefixLen = r.len ∧ info.entryLabel = r.val.label ∧
      (flagsKept → info.entryLabelFlags = r.val.labelFlags)
  | none => nh = some tbl.ip4DefaultNh ∧ info.entryPrefixLen = 0

section

variable {tbl : NexthopTable} {flagsKept : Prop} {nh : Option Nexthop} {info : EntryInfo}
  {o : Option IpRoute}

variable (h : Shows tbl flagsKept nh info o)
include h

theorem Shows.plen : info.entryPrefixLen = matchLen o := by
  cases o with
  | none => exact h.2
  | some r => exact h.2.2.1

/-- The nexthop of an entry is installed, so that copying the entry copies the nexthop. -/
theorem Shows.setEntryToNh : setEntryToNh tbl nh = nh := by
  cases o with
  | none =>
    rw [h.1]
    exact setEntryToNh_of_get (tbl.get_nhId tbl.get_discard)
  | some r =>
    rw [h.1]
    exact setEntryToNh_of_get h.2.1

theorem Shows.exists_nh : ∃ n, nh = some n := by
  cases o with
  | none | some => exact ⟨_, h.1⟩

end

/-! ## The invariant -/

/-- No route of `R` lies strictly inside the block `q`. -/
def NoneInside (R : Set IpRoute) (q : List Octet) : Prop :=
  ∀ r ∈ R, 8 * q.length < r.len → ¬ Covers q (8 * q.length) r.octets

/-- The tree `ent`, hanging at block `q` of a table of `levels` levels, represents `R`. -/
def Represents (tbl : NexthopTable) (flagsKept : Prop) (levels : Nat) (R : Set IpRoute) :
    IpBucketEntry → List Octet → Prop
  | .nexthop nh info, q =>
    (∃ o, IsLongest R (8 * q.length) q o ∧ Shows tbl flagsKept nh info o) ∧ NoneInside R q
  | .nullBucket _, _ => False
  | .bucket bkt info, q =>
    q.length < levels ∧
      (∃ o, IsLongest R (8 * q.length) q o ∧ info.entryPrefixLen = matchLen o) ∧
      ∀ i, Represents tbl flagsKept levels R (bkt i) (q ++ [i])

variable {tbl : NexthopTable} {flagsKept : Prop} {levels : Nat} {R : Set IpRoute}
  {q : List Octet}

variable {p a : List Octet} {ent : IpBucketEntry} {info : EntryInfo} {bkt : Fin 256 → IpBucketEntry}
    {nh : Option Nexthop} {n : Nat} {o : Option IpRoute} {rt : RouteReq}

theorem Represents.plen (h : Represents tbl flagsKept levels R ent q) :
    ∃ o, IsLongest R (8 * q.length) q o ∧ ent.info.entryPrefixLen = matchLen o := by
  cases ent with
  | nexthop nh info =>
    obtain ⟨⟨o, ho, hs⟩, -⟩ := h
    exact ⟨o, ho, hs.plen⟩
  | nullBucket info => exact h.elim
  | bucket bkt info => exact h.2.1

/-- The entry at the end of a path of octets. -/
def slotAt : IpBucketEntry → List Octet → Option IpBucketEntry
  | ent, [] => some ent
  | .bucket bkt _, i :: t => slotAt (bkt i) t
  | .nexthop _ _, _ :: _ => none
  | .nullBucket _, _ :: _ => none

@[simp] theorem slotAt_nil (ent : IpBucketEntry) : slotAt ent [] = some ent := by
  cases ent <;> rfl

theorem Represents.slotAt {root : IpBucketEntry} {t : List Octet}
    (h : Represents tbl flagsKept levels R root q) (hslot : slotAt root t = some ent) :
    Represents tbl flagsKept levels R ent (q ++ t) := by
  induction t generalizing root q with
  | nil =>
    rw [slotAt_nil] at hslot
    cases hslot
    rwa [List.append_nil]
  | cons i t ih =>
    cases root with
    | nexthop | nullBucket => cases hslot
    | bucket bkt info =>
      rw [List.append_cons]
      exact ih (h.2.2 i) hslot

/-! ## Blocks and sub-blocks -/

/-- A route longer than a block that contains one of its sub-blocks lies inside the block. -/
theorem covers_of_covers_append {i : Octet} (hn : 8 * q.length < n) (h : Covers p n (q ++ [i])) :
    Covers q (8 * q.length) p :=
  (covers_append q i).trans (h.symm.mono (le_of_lt hn))

theorem covers_append_short (i : Octet) (hn : n ≤ 8 * q.length) :
    Covers p n (q ++ [i]) ↔ Covers p n q :=
  ((covers_append q i).congr hn).symm

theorem NoneInside.append (h : NoneInside R q) (i : Octet) : NoneInside R (q ++ [i]) := by
  intro r hr hlen hcov
  rw [List.length_append] at hlen hcov
  exact h r hr (by omega) ((covers_append_iff q i r.octets).mp hcov).1

/-- The match of a block that has nothing inside is the match of each of its sub-blocks. -/
theorem NoneInside.isLongest_append (h : NoneInside R q) (i : Octet)
    (ho : IsLongest R (8 * q.length) q o) : IsLongest R (8 * (q ++ [i]).length) (q ++ [i]) o := by
  have hle : 8 * q.length ≤ 8 * (q ++ [i]).length := by
    rw [List.length_append]
    omega
  refine (ho.congr (covers_append q i)).deepen hle ?_
  intro s hs hlen _ hcov
  exact h s hs hlen (covers_of_covers_append hlen hcov)

/-! ## Splitting a slot -/

theorem Represents.alloc (h : Represents tbl flagsKept levels R (.nexthop nh info) q)
    (hq : q.length < levels) :
    Represents tbl flagsKept levels R (.bucket (mtrieAllocBucket tbl nh info) info) q := by
  obtain ⟨⟨o, ho, hs⟩, hnone⟩ := h
  refine ⟨hq, ⟨o, ho, hs.plen⟩, fun i => ⟨⟨o, hnone.isLongest_append i ho, ?_⟩, hnone.append i⟩⟩
  rw [hs.setEntryToNh]
  exact hs

/-! ## Frame -/

/-- No address of block `q` sees a change of the route for `p/n`: the prefix is disjoint from the
block, or the block lies in a longer route of `R`. -/
def Untouched (R : Set IpRoute) (p : List Octet) (n : Nat) (q : List Octet) : Prop :=
  (8 * q.length < n → ¬ Covers q (8 * q.length) p) ∧
    (n ≤ 8 * q.length → Covers p n q → ∃ s ∈ R, s.len ≤ 8 * q.length ∧ s.Covers q ∧ n < s.len)

theorem Untouched.append (h : Untouched R p n q) (i : Octet) : Untouched R p n (q ++ [i]) := by
  have hlen : (q ++ [i]).length = q.length + 1 := by simp
  rw [Untouched, hlen]
  constructor
  · intro hn hcov
    exact h.1 (by omega) ((covers_append_iff q i p).mp hcov).1
  intro _ hcov
  rcases Nat.lt_or_ge (8 * q.length) n with hlt | hge
  · exact absurd (covers_of_covers_append hlt hcov) (h.1 hlt)
  · obtain ⟨s, hs, hsl, hsq, hns⟩ := h.2 hge ((covers_append_short i hge).mp hcov)
    exact ⟨s, hs, by omega, (covers_append_short i hsl).mpr hsq, hns⟩

theorem Untouched.lt_matchLen (h : Untouched R p n q) (ho : IsLongest R (8 * q.length) q o)
    (hn : n ≤ 8 * q.length) (hcov : Covers p n q) : n < matchLen o := by
  obtain ⟨s, hs, hsl, hsq, hns⟩ := h.2 hn hcov
  exact lt_of_lt_of_le hns (ho.len_le hs hsl hsq)

/-- A change of the route set carries over from the slots to the whole tree. `hmatch` moves the
match of a block and `hnone` the absence of routes inside it. -/
theorem Represents.frame {R' : Set IpRoute}
    (hmatch : ∀ q o, Untouched R p n q → IsLongest R (8 * q.length) q o →
      IsLongest R' (8 * q.length) q o)
    (hnone : ∀ q, Untouched R p n q → NoneInside R q → NoneInside R' q)
    (h : Represents tbl flagsKept levels R ent q) (hu : Untouched R p n q) :
    Represents tbl flagsKept levels R' ent q := by
  induction ent generalizing q with
  | nexthop nh info =>
    obtain ⟨⟨o, ho, hs⟩, hin⟩ := h
    exact ⟨⟨o, hmatch q o hu ho, hs⟩, hnone q hu hin⟩
  | nullBucket info => exact h.elim
  | bucket bkt info ih =>
    obtain ⟨hq, ⟨o, ho, hlen⟩, hslots⟩ := h
    exact ⟨hq, ⟨o, hmatch q o hu ho, hlen⟩, fun i => ih i (hslots i) (hu.append i)⟩

theorem Represents.frame_add {r : IpRoute} (h : Represents tbl flagsKept levels R ent q)
    (hu : Untouched R r.octets r.len q) : Represents tbl flagsKept levels (addRoute R r) ent q := by
  refine h.frame (fun q o hu ho => ?_) (fun q hu hin => ?_) hu
  · exact ho.add_other fun hlen hcov => hu.lt_matchLen ho hlen hcov
  · rintro s (rfl | ⟨hs, -⟩) hlen
    · exact hu.1 hlen
    · exact hin s hs hlen

theorem Represents.frame_remove (h : Represents tbl flagsKept levels R ent q)
    (hu : Untouched R p n q) : Represents tbl flagsKept levels (removeRoute R p n) ent q := by
  refine h.frame (fun q o hu ho => ?_) (fun q _ hin s hs => hin s hs.1) hu
  refine ho.remove_other ?_
  rintro t rfl hfor
  -- the match is for `p/n` itself, so `p/n` contains the block
  have hcov : Covers p n q := hfor.2.trans (hfor.1 ▸ ho.1.2.2)
  have hlt := hu.lt_matchLen ho (hfor.1 ▸ ho.1.2.1) hcov
  rw [matchLen_some, hfor.1] at hlt
  exact lt_irrefl n hlt

/-! ## Lookup -/

/-- The entry and the match a full-length lookup of `a` ends with: an installed nexthop that
shows the longest route containing `a`. -/
def LooksUp (tbl : NexthopTable) (flagsKept : Prop) (levels : Nat) (R : Set IpRoute)
    (a : List Octet) (nh : Option Nexthop) (info : EntryInfo) : Prop :=
  ∃ o, IsLongest R (8 * levels) a o ∧ Shows tbl flagsKept nh info o

/-- The search has ended at an entry with the nexthop `nh` and the fields `info`. -/
def FoundWith (rt : RouteReq) (P : Nexthop → EntryInfo → Prop)
    (res : Option Nexthop × RouteReq) : Prop :=
  ∃ nh info, res = (some nh, lookupHit rt (some nh) info) ∧ P nh info

/-- A scan sees nothing but nexthop slots before the slot at distance `d`, and that slot has
something to offer. -/
structure ScanEnds (search : (Fin 256 → IpBucketEntry) → RouteReq → Option Nexthop × RouteReq)
    (rt : RouteReq) (bkt : Fin 256 → IpBucketEntry) (index : Fin 256) (d : Nat)
    (P : Nexthop → EntryInfo → Prop) : Prop where
  before : ∀ e, e < d → ∃ nh info, bkt (index + Fin.ofNat 256 e) = .nexthop (some nh) info ∧
    (info.entryPrefixLen ≤ rt.rtrPrefixLen → P nh info)
  slot : (∃ nh info, bkt (index + Fin.ofNat 256 d) = .nexthop (some nh) info ∧
      info.entryPrefixLen ≤ rt.rtrPrefixLen ∧ P nh info) ∨
    ∃ inner info, bkt (index + Fin.ofNat 256 d) = .bucket inner info ∧
      FoundWith rt P (search inner rt)

/-- If that slot is within its limit, the scan ends with one of those before it or with what it has
to offer. -/
theorem ScanEnds.lookupScan_found (h : ScanEnds search rt bkt index d P) (hd : d < limit)
    {left i : Nat} (hi : i ≤ d) (hleft : d < i + left) :
    FoundWith rt P (lookupScan search index limit left i bkt rt) := by
  induction left generalizing i with
  | zero => omega
  | succ left ih =>
    unfold lookupScan
    rcases Nat.lt_or_eq_of_le hi with hlt | rfl
    · obtain ⟨nh, info, hslot, hP⟩ := h.before i hlt
      simp only [hslot]
      rw [if_neg (by omega)]
      by_cases hlen : rt.rtrPrefixLen < info.entryPrefixLen
      · rw [if_pos hlen]
        exact ih (by omega) (by omega)
      · rw [if_neg hlen]
        exact ⟨nh, info, rfl, hP (by omega)⟩
    · rcases h.slot with ⟨nh, info, hslot, hlen, hP⟩ | ⟨inner, info, hslot, nh, info', hsearch, hP⟩
      · simp only [hslot]
        rw [if_neg (by omega), if_neg (by omega)]
        exact ⟨nh, info, rfl, hP⟩
      · simp only [hslot, hsearch]
        exact ⟨nh, info', rfl, hP⟩

theorem lookupLimit_pos (level plen : Nat) : 0 < lookupLimit level plen := by
  unfold lookupLimit
  split
  · simp
  · exact Nat.two_pow_pos _

/-- The leaf case of a lookup: the slot's match is the match of every address in its block. -/
theorem Represents.leaf_looksUp (h : Represents tbl flagsKept levels R (.nexthop nh info) q)
    (hq : q.length ≤ levels) (ha : Covers q (8 * q.length) a) :
    LooksUp tbl flagsKept levels R a nh info := by
  obtain ⟨⟨o, ho, hs⟩, hnone⟩ := h
  refine ⟨o, (ho.congr ha).deepen (by omega) fun s hs hlen _ hcov => ?_, hs⟩
  exact hnone s hs hlen (ha.trans (hcov.mono (le_of_lt hlen)).symm)

theorem LooksUp.plen_le (h : LooksUp tbl flagsKept levels R a nh info) :
    info.entryPrefixLen ≤ 8 * levels := by
  obtain ⟨o, ho, hs⟩ := h
  rw [hs.plen]
  exact ho.matchLen_le

/-- A full-length lookup in a bucket of its own path ends with the longest match of the address.
Induction on the tree: the bucket is entered through the slot of the next octet, which is the
first one the scan looks at. -/
theorem Represents.lookupBucket (h : Represents tbl flagsKept levels R (.bucket bkt info) q)
    (hlen : rt.rtrPrefixLen = 8 * levels) (ha : Covers q (8 * q.length) rt.rtrPrefix) :
    FoundWith rt (fun nh info => LooksUp tbl flagsKept levels R rt.rtrPrefix (some nh) info)
      (mtrieLookupLevels (levels - q.length) rt bkt q.length) := by
  generalize hent : IpBucketEntry.bucket bkt info = ent at h
  induction ent generalizing q bkt info with
  | nexthop | nullBucket => cases hent
  | bucket bkt' info' ih =>
    cases hent
    obtain ⟨hlt, -, hslots⟩ := h
    have hslot : Covers (q ++ [rtToIndex rt q.length]) (8 * (q ++ [rtToIndex rt q.length]).length)
        rt.rtrPrefix := by
      rw [List.length_append]
      exact (covers_append_iff _ _ _).mpr ⟨ha, rfl⟩
    have hrep := hslots (rtToIndex rt q.length)
    have hfirst : rtToIndex rt q.length + Fin.ofNat 256 0 = rtToIndex rt q.length :=
      Fin.add_zero _
    rw [show levels - q.length = levels - (q.length + 1) + 1 from by omega, mtrieLookupLevels,
      biSize_eq]
    refine ScanEnds.lookupScan_found ⟨fun e he => absurd he (Nat.not_lt_zero e), ?_⟩
      (lookupLimit_pos _ _) (Nat.zero_le 0) (by omega)
    rw [hfirst]
    cases hb : bkt' (rtToIndex rt q.length) with
    | nexthop nh info =>
      rw [hb] at hrep
      have hl := hrep.leaf_looksUp (by simp; omega) hslot
      obtain ⟨o, ho, hs⟩ := id hl
      obtain ⟨n, rfl⟩ := hs.exists_nh
      exact Or.inl ⟨n, info, rfl, hlen ▸ hl.plen_le, hl⟩
    | nullBucket info =>
      rw [hb] at hrep
      exact hrep.elim
    | bucket inner info =>
      refine Or.inr ⟨inner, info, rfl, ?_⟩
      have := ih (rtToIndex rt q.length) hslot hb.symm hrep
      rwa [List.length_append, List.length_singleton] at this

end VRouter
