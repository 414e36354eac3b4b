import VRouter.Mtrie.Run

/-!
# VRouter — longest-prefix match

A full-length `mtrie_lookup` answers with the longest match of the routes a run of requests
amounts to:

* `mtrieLookup_after_adds` — for runs of adds, including label and label flags;
* `mtrieLookup_after_run` — for runs with deletes that are `DeleteSafe`.

The sample runs at the end use a table with every nexthop index installed.
`mtrieDelete_collapse_loses_length` is a run whose last delete is not `DeleteSafe`: it makes a
bucket of equal specific routes into one entry that records length zero.
-/

namespace VRouter

open LongestMatch

section

variable {tbl : NexthopTable} {flagsKept : Prop} {family : Family} {vrf : Nat}
  {st : RouteTables} {R : Set IpRoute} {rt : RouteReq}
  {bridgeLookup : Nat → List Octet → Option Nat}

/-! ## Lookup in a represented table -/

theorem mtrieLookup_of_represents (env : RouteEnv) {root : IpBucketEntry}
    (hroot : VRouter.vrfidToMtrie st vrf rt.rtrFamily = some root)
    (hrep : Represents tbl flagsKept (ipBktGetMaxLevel rt.rtrFamily) R root [])
    (hlen : rt.rtrPrefixLen = ipPrefixLen rt.rtrFamily) :
    ∃ nh info, (mtrieLookup env st vrf rt) =
        (nh, { lookupHit rt (some nh) info with rtrNh := some nh }) ∧
      LooksUp tbl flagsKept (ipBktGetMaxLevel rt.rtrFamily) R rt.rtrPrefix (some nh) info := by
  rw [mtrieLookup, hroot]
  cases root with
  | nexthop nh info =>
    have hl := hrep.leaf_looksUp (Nat.zero_le _) (covers_zero _ rt.rtrPrefix)
    obtain ⟨o, ho, hs⟩ := id hl
    obtain ⟨n, rfl⟩ := hs.exists_nh
    exact ⟨n, info, rfl, hl⟩
  | nullBucket info => exact hrep.elim
  | bucket bkt info =>
    obtain ⟨nh, info', heq, hl⟩ := hrep.lookupBucket (hlen.trans (ipPrefixLen_eq _))
      (covers_zero _ rt.rtrPrefix)
    refine ⟨nh, info', ?_, hl⟩
    simp only [mtrieLookupCore]
    rw [List.length_nil] at heq
    rw [heq]
    rfl

/-- A full-length lookup in a VRF of a run: the longest match if the VRF has a table, and the
default nexthop with no routes at all if it has none. -/
theorem TableFor.lookup (h : TableFor tbl flagsKept rt.rtrFamily vrf st R)
    (hlen : rt.rtrPrefixLen = ipPrefixLen rt.rtrFamily) :
    ∃ o, IsLongest R (ipPrefixLen rt.rtrFamily) rt.rtrPrefix o ∧
      ((∃ nh info, mtrieLookup ⟨tbl, bridgeLookup⟩ st vrf rt =
            (nh, { lookupHit rt (some nh) info with rtrNh := some nh }) ∧
          Shows tbl flagsKept (some nh) info o) ∨
        (o = none ∧ VRouter.vrfidToMtrie st vrf rt.rtrFamily = none ∧
          (mtrieLookup ⟨tbl, bridgeLookup⟩ st vrf rt).1 = tbl.ip4DefaultNh)) := by
  cases hroot : st.vnRtable rt.rtrFamily vrf with
  | none =>
    have hlook : VRouter.vrfidToMtrie st vrf rt.rtrFamily = none := h.vrfidToMtrie.trans hroot
    refine ⟨none, ?_, Or.inr ⟨rfl, hlook, ?_⟩⟩
    · rw [h.absent hroot]
      exact fun _ hs => hs.elim
    · rw [mtrieLookup, hlook]
      rfl
  | some root =>
    obtain ⟨nh, info, heq, o, ho, hs⟩ := mtrieLookup_of_represents ⟨tbl, bridgeLookup⟩
      (h.vrfidToMtrie.trans hroot) (h.present root hroot) hlen
    rw [ipPrefixLen_eq]
    exact ⟨o, ho, Or.inl ⟨nh, info, heq, hs⟩⟩

/-- **Longest-prefix match after adds.** After any run of adds, a lookup of a full-length address
returns the nexthop, label, label flags and length of the longest route added that contains it,
a later add for the same prefix replacing an earlier one; where there is none it returns the
discard nexthop, with length zero once the VRF has a table. -/
theorem mtrieLookup_after_adds
    (hrun : RouteRun tbl family vrf (fun _ _ _ => False) st R)
    (bridgeLookup : Nat → List Octet → Option Nat) (rt : RouteReq)
    (hfam : rt.rtrFamily = family) (hlen : rt.rtrPrefixLen = ipPrefixLen family) :
    ∃ o, IsLongest R (ipPrefixLen family) rt.rtrPrefix o ∧
      match o with
      | some r =>
        (mtrieLookup ⟨tbl, bridgeLookup⟩ st vrf rt).1 = r.val.nh ∧
          (mtrieLookup ⟨tbl, bridgeLookup⟩ st vrf rt).2.rtrLabel = r.val.label ∧
          (mtrieLookup ⟨tbl, bridgeLookup⟩ st vrf rt).2.rtrLabelFlags = r.val.labelFlags ∧
          (mtrieLookup ⟨tbl, bridgeLookup⟩ st vrf rt).2.rtrPrefixLen = r.len
      | none =>
        (mtrieLookup ⟨tbl, bridgeLookup⟩ st vrf rt).1 = tbl.ip4DefaultNh ∧
          (vrfidToMtrie st vrf family ≠ none →
            (mtrieLookup ⟨tbl, bridgeLookup⟩ st vrf rt).2.rtrPrefixLen = 0) := by
  have htable : TableFor tbl True family vrf st R :=
    hrun.represents fun _ _ _ h => h.elim
  cases hfam
  obtain ⟨o, ho, ⟨nh, info, heq, hs⟩ | ⟨rfl, habsent, hnh⟩⟩ := htable.lookup hlen
  · refine ⟨o, ho, ?_⟩
    rw [heq]
    cases o with
    | none => exact ⟨Option.some.inj hs.1, fun _ => hs.2⟩
    | some r => exact ⟨Option.some.inj hs.1, hs.2.2.2.1, hs.2.2.2.2 trivial, hs.2.2.1⟩
  · exact ⟨none, ho, hnh, fun h => absurd habsent h⟩

/-- **What the slots record after adds.** The length recorded in a slot ends within the block of the
slot. It is zero or that of a route added, and that route contains every address of the block. The
slots of a bucket record no shorter length than the entry of the bucket. -/
theorem recorded_lengths_after_adds
    (hrun : RouteRun tbl family vrf (fun _ _ _ => False) st R) {root ent : IpBucketEntry}
    (hroot : st.vnRtable family vrf = some root) {q : List Octet}
    (hslot : slotAt root q = some ent) :
    ent.info.entryPrefixLen ≤ 8 * q.length ∧
      (ent.info.entryPrefixLen = 0 ∨ ∃ r ∈ R, r.len = ent.info.entryPrefixLen ∧
        ∀ a, Covers q (8 * q.length) a → r.Covers a) ∧
      ∀ i slot, slotAt root (q ++ [i]) = some slot →
        ent.info.entryPrefixLen ≤ slot.info.entryPrefixLen := by
  have htable : TableFor tbl True family vrf st R :=
    hrun.represents fun _ _ _ h => h.elim
  have hroot := htable.present root hroot
  obtain ⟨o, ho, hlen⟩ := (hroot.slotAt hslot).plen
  rw [List.nil_append] at ho
  rw [hlen]
  refine ⟨ho.matchLen_le, ?_, fun i slot hbelow => ?_⟩
  · cases o with
    | none => exact Or.inl rfl
    | some r =>
      exact Or.inr ⟨r, ho.1.1, rfl, fun a ha => ho.1.2.2.trans (ha.mono ho.1.2.1)⟩
  · -- the match of a block is one of the candidates for its sub-blocks
    obtain ⟨o', ho', hlen'⟩ := (hroot.slotAt hbelow).plen
    rw [List.nil_append] at ho'
    rw [hlen']
    cases o with
    | none => exact Nat.zero_le _
    | some r =>
      have hle := ho.1.2.1
      refine ho'.len_le ho.1.1 ?_ ((covers_append_short i hle).mpr ho.1.2.2)
      rw [List.length_append]
      omega

/-- **Longest-prefix match after adds and deletes.** In every run whose deletes are all
`DeleteSafe`, a lookup of a full-length address returns the nexthop, label and length of the
longest route still present that contains it, and the discard nexthop where there is none. -/
theorem mtrieLookup_after_run (hrun : RouteRun tbl family vrf DeleteSafe st R)
    (bridgeLookup : Nat → List Octet → Option Nat) (rt : RouteReq)
    (hfam : rt.rtrFamily = family) (hlen : rt.rtrPrefixLen = ipPrefixLen family) :
    ∃ o, IsLongest R (ipPrefixLen family) rt.rtrPrefix o ∧
      match o with
      | some r =>
        (mtrieLookup ⟨tbl, bridgeLookup⟩ st vrf rt).1 = r.val.nh ∧
          (mtrieLookup ⟨tbl, bridgeLookup⟩ st vrf rt).2.rtrLabel = r.val.label ∧
          (mtrieLookup ⟨tbl, bridgeLookup⟩ st vrf rt).2.rtrPrefixLen = r.len
      | none => (mtrieLookup ⟨tbl, bridgeLookup⟩ st vrf rt).1 = tbl.ip4DefaultNh := by
  have htable : TableFor tbl False family vrf st R :=
    hrun.represents fun _ _ _ h => ⟨h, id⟩
  cases hfam
  obtain ⟨o, ho, ⟨nh, info, heq, hs⟩ | ⟨rfl, -, hnh⟩⟩ := htable.lookup hlen
  · refine ⟨o, ho, ?_⟩
    rw [heq]
    cases o with
    | none => exact Option.some.inj hs.1
    | some r => exact ⟨Option.some.inj hs.1, hs.2.2.2.1, hs.2.2.1⟩
  · exact ⟨none, ho, hnh⟩

end

/-! ## Sample runs -/

def sampleNh (nhId : Nat) : Nexthop :=
  ⟨nhId, nhId, if nhId = nhDiscardId then .discard else .encap⟩

/-- A nexthop table with every index in use. -/
def sampleNexthops : NexthopTable where
  get i := some (sampleNh i)
  ip4DefaultNh := sampleNh nhDiscardId
  nhId_of_get i nh h := by cases h; rfl
  get_discard := rfl

def sampleEnv : RouteEnv := ⟨sampleNexthops, fun _ _ => none⟩

/-- A request on the IPv4 table of VRF 0. -/
def sampleReq (p : List Octet) (n nhId replacePlen : Nat) : RouteReq where
  rtrVrfId := 0
  rtrFamily := .inet
  rtrPrefix := p
  rtrPrefixLen := n
  rtrLabelFlags := 0
  rtrLabel := 0
  rtrNhId := nhId
  rtrMac := []
  rtrReplacePlen := replacePlen
  rtrIndex := 0
  rtrNh := none

/-- One VRF, without tables. -/
def sampleTables : RouteTables := ⟨1, fun _ _ => none⟩

/-- An add of `1.0.0.0/8` with label 7 and label flags `0x10`, and a lookup inside it: the entry
has no room for the flag, and without `VR_RT_LABEL_VALID_FLAG` the label is not kept either. -/
theorem mtrieAdd_drops_label_flags :
    let rt := { sampleReq [1, 0, 0, 0] 8 5 0 with rtrLabelFlags := 0x10, rtrLabel := 7 }
    let added := mtrieAdd sampleEnv .all rt sampleTables
    let found := (mtrieLookup sampleEnv added.2 0 (sampleReq [1, 2, 3, 4] 32 0 0)).2
    Canonical rt ∧ added.1 = .ok () ∧ found.rtrPrefixLen = rt.rtrPrefixLen ∧
      found.rtrLabelFlags ≠ rt.rtrLabelFlags ∧ found.rtrLabel ≠ rt.rtrLabel :=
  ⟨⟨by decide, by decide⟩, rfl, by decide, by decide, by decide⟩

/-- A sample request as `mtrie_add` and `mtrie_delete` pass it on. -/
def sampleResolved (p : List Octet) (n nhId replacePlen : Nat) : RouteReq :=
  resolved (sampleReq p n nhId replacePlen) (sampleNh nhId) vrBeInvalidIndex

def sampleRoute (p : List Octet) (n nhId : Nat) : IpRoute :=
  reqRoute (sampleReq p n nhId 0) (sampleNh nhId)

/-- The tables after adds of the listed routes, the latest first. -/
def sampleAdds : List (List Octet × Nat × Nat) → RouteTables
  | [] => ⟨1, fun _ _ => some (mtrieAllocVrf sampleNexthops)⟩
  | (p, n, nhId) :: l => (mtrieAdd sampleEnv .all (sampleReq p n nhId 0) (sampleAdds l)).2

theorem eq_of_fst_ok {x : Except Errno Unit × RouteTables} (h : x.1 = .ok ()) : x = (.ok (), x.2) :=
  Prod.ext h rfl

/-- A run of adds on the sample tables. -/
def SampleRun (l : List (List Octet × Nat × Nat)) (R : Set IpRoute) : Prop :=
  ∀ allowed, RouteRun sampleNexthops .inet 0 allowed (sampleAdds l) R

theorem SampleRun.start : SampleRun [] ∅ := fun _ => .start Nat.one_pos (.inr rfl)

theorem SampleRun.add {l : List (List Octet × Nat × Nat)} {R : Set IpRoute} (h : SampleRun l R)
    {p : List Octet} {n nhId : Nat} (hcan : Canonical (sampleReq p n nhId 0))
    (hok : (mtrieAdd sampleEnv .all (sampleReq p n nhId 0) (sampleAdds l)).1 = .ok ()) :
    SampleRun ((p, n, nhId) :: l) (addRoute R (sampleRoute p n nhId)) :=
  fun allowed => .add (h allowed) rfl rfl hcan rfl (eq_of_fst_ok hok)

theorem sampleRun_one_eight :
    SampleRun [([1, 0, 0, 0], 8, 5)] (addRoute ∅ (sampleRoute [1, 0, 0, 0] 8 5)) :=
  SampleRun.start.add ⟨by decide, by decide⟩ rfl

/-- `1.2.3.4` after an add of `1.0.0.0/8` with nexthop 5. -/
theorem mtrieLookup_after_adds_one_eight :
    ∃ st, RouteRun sampleNexthops .inet 0 (fun _ _ _ => False) st
        (addRoute ∅ (sampleRoute [1, 0, 0, 0] 8 5)) ∧
      (mtrieLookup sampleEnv st 0 (sampleReq [1, 2, 3, 4] 32 0 0)).1 = sampleNh 5 ∧
      (mtrieLookup sampleEnv st 0 (sampleReq [1, 2, 3, 4] 32 0 0)).2.rtrPrefixLen = 8 := by
  have hrun := sampleRun_one_eight fun _ _ _ => False
  obtain ⟨o, ho, hres⟩ := mtrieLookup_after_adds hrun sampleEnv.bridgeLookup
    (sampleReq [1, 2, 3, 4] 32 0 0) rfl rfl
  have hcov : (sampleRoute [1, 0, 0, 0] 8 5).Covers [1, 2, 3, 4] :=
    (by decide : Covers [1, 0, 0, 0] 8 [1, 2, 3, 4])
  cases o with
  | none => exact absurd hcov (ho _ (Or.inl rfl) (by decide))
  | some r =>
    obtain rfl | ⟨hr, -⟩ := ho.1.1
    · exact ⟨_, hrun, hres.1, hres.2.2.2⟩
    · exact hr.elim

/-- The slot of `1.0.0.0/8` after that add. -/
theorem recorded_lengths_after_adds_one_eight :
    ∃ st R root ent, RouteRun sampleNexthops .inet 0 (fun _ _ _ => False) st R ∧
      st.vnRtable .inet 0 = some root ∧ slotAt root [1] = some ent ∧
      ∃ r ∈ R, r.len = ent.info.entryPrefixLen ∧ ∀ a, Covers [1] 8 a → r.Covers a := by
  refine ⟨_, _, _, _, sampleRun_one_eight _, rfl, rfl, ?_⟩
  exact (recorded_lengths_after_adds (sampleRun_one_eight _) rfl rfl).2.1.resolve_left (by decide)

/-- `1.2.3.4` after the same add and a delete of `1.0.0.0/8` that carries the discard nexthop. -/
theorem mtrieLookup_after_run_one_eight :
    ∃ st, RouteRun sampleNexthops .inet 0 DeleteSafe st
        (removeRoute (addRoute ∅ (sampleRoute [1, 0, 0, 0] 8 5)) [1, 0, 0, 0] 8) ∧
      (mtrieLookup sampleEnv st 0 (sampleReq [1, 2, 3, 4] 32 0 0)).1 = sampleNh nhDiscardId := by
  -- nothing is left after the delete, so no block is homogeneous
  have hgone : ∀ r, r ∉ removeRoute (addRoute ∅ (sampleRoute [1, 0, 0, 0] 8 5)) [1, 0, 0, 0] 8 := by
    rintro r ⟨rfl | ⟨hr, -⟩, hne⟩
    · exact hne ⟨rfl, Covers.refl _ _⟩
    · exact hr
  have hsafe : DeleteSafe (sampleAdds [([1, 0, 0, 0], 8, 5)])
      (addRoute ∅ (sampleRoute [1, 0, 0, 0] 8 5)) (sampleReq [1, 0, 0, 0] 8 0 0) := by
    refine ⟨?_, fun h => absurd h (by decide)⟩
    rintro q - - ⟨nh, label, len, -, hall⟩
    obtain ⟨r, hr, -⟩ := hall q (Covers.refl _ _)
    exact hgone r hr.1.1
  have hrun : RouteRun sampleNexthops .inet 0 DeleteSafe
      (mtrieDelete sampleEnv (sampleReq [1, 0, 0, 0] 8 0 0) (sampleAdds [([1, 0, 0, 0], 8, 5)])).2
      (removeRoute (addRoute ∅ (sampleRoute [1, 0, 0, 0] 8 5)) [1, 0, 0, 0] 8) :=
    @RouteRun.delete _ _ _ _ _ _ _ (sampleReq [1, 0, 0, 0] 8 0 0) none _
      (sampleRun_one_eight DeleteSafe) rfl rfl ⟨by decide, by decide⟩
      ⟨_, Or.inl rfl, rfl, Covers.refl _ _⟩ (fun s hs => absurd hs (hgone s)) ⟨rfl, rfl⟩ hsafe
      (eq_of_fst_ok (by decide +kernel))
  obtain ⟨o, ho, hres⟩ := mtrieLookup_after_run hrun sampleEnv.bridgeLookup
    (sampleReq [1, 2, 3, 4] 32 0 0) rfl rfl
  cases o with
  | none => exact ⟨_, hrun, hres⟩
  | some r => exact absurd ho.1.1 (hgone r)

/-- `0.0.0.0/1` and `128.0.0.0/1`, both with nexthop 5. -/
theorem sampleRun_halves :
    SampleRun [([128, 0, 0, 0], 1, 5), ([0, 0, 0, 0], 1, 5)]
      (addRoute (addRoute ∅ (sampleRoute [0, 0, 0, 0] 1 5)) (sampleRoute [128, 0, 0, 0] 1 5)) :=
  (SampleRun.start.add ⟨by decide, by decide⟩ (by decide +kernel)).add ⟨by decide, by decide⟩
    (by decide +kernel)

/-- The two halves of the address space with one nexthop, a `/9` in the first of them, and the
delete of that `/9` with `0.0.0.0/1` as its replacement. The routes left contain every address in
a route of length 1, but the lookup reports length 0. -/
theorem mtrieDelete_collapse_loses_length :
    ∃ st R, RouteRun sampleNexthops .inet 0 (fun _ _ _ => True) st R ∧
      IsLongest R (ipPrefixLen .inet) [1, 2, 3, 4] (some (sampleRoute [0, 0, 0, 0] 1 5)) ∧
      (mtrieLookup sampleEnv st 0 (sampleReq [1, 2, 3, 4] 32 0 0)).2.rtrPrefixLen ≠
        (sampleRoute [0, 0, 0, 0] 1 5).len := by
  generalize hR : removeRoute (addRoute (addRoute (addRoute ∅ (sampleRoute [0, 0, 0, 0] 1 5))
    (sampleRoute [128, 0, 0, 0] 1 5)) (sampleRoute [1, 0, 0, 0] 9 6)) [1, 0, 0, 0] 9 = R
  have hleft : ∀ s ∈ R, s.len ≤ 1 := by
    rw [← hR]
    rintro s ⟨rfl | ⟨rfl | ⟨rfl | ⟨hs, -⟩, -⟩, -⟩, hne⟩
    · exact absurd ⟨rfl, Covers.refl _ _⟩ hne
    · exact le_refl 1
    · exact le_refl 1
    · exact hs.elim
  have hmem : sampleRoute [0, 0, 0, 0] 1 5 ∈ R := by
    rw [← hR]
    refine ⟨Or.inr ⟨Or.inr ⟨Or.inl rfl, ?_⟩, ?_⟩, ?_⟩ <;> rintro ⟨hlen, hcov⟩
    · exact absurd hcov (by decide : ¬ Covers [128, 0, 0, 0] 1 [0, 0, 0, 0])
    · exact absurd hlen (by decide)
    · exact absurd hlen (by decide)
  have hlongest : ∀ {d a}, 1 ≤ d → Covers [0, 0, 0, 0] 1 a →
      IsLongest R d a (some (sampleRoute [0, 0, 0, 0] 1 5)) :=
    fun hd ha => ⟨⟨hmem, hd, ha⟩, fun s hs _ _ => hleft s hs⟩
  have hrun : SampleRun [([1, 0, 0, 0], 9, 6), ([128, 0, 0, 0], 1, 5), ([0, 0, 0, 0], 1, 5)] _ :=
    sampleRun_halves.add ⟨by decide, by decide⟩ (by decide +kernel)
  have hdel : ∀ st, mtrieDelete sampleEnv (sampleReq [1, 0, 0, 0] 9 5 1) (sampleAdds
      [([1, 0, 0, 0], 9, 6), ([128, 0, 0, 0], 1, 5), ([0, 0, 0, 0], 1, 5)]) = (.ok (), st) →
      RouteRun sampleNexthops .inet 0 (fun _ _ _ => True) st R := by
    subst hR
    intro st hst
    exact @RouteRun.delete _ _ _ _ _ _ _ (sampleReq [1, 0, 0, 0] 9 5 1) _ _ (hrun _) rfl rfl
      ⟨by decide, by decide⟩ ⟨_, Or.inl rfl, rfl, Covers.refl _ _⟩
      (hlongest (by decide) (by decide)) ⟨rfl, rfl, rfl⟩ trivial hst
  exact ⟨_, R, hdel _ (eq_of_fst_ok (by decide +kernel)), hlongest (by decide) (by decide),
    by decide +kernel⟩

end VRouter
