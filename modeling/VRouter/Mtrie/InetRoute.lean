import VRouter.Mtrie.Delete

/-!
# VRouter — `inet_route_add` and `inet_route_del`

The entry points of `vr_route.c` for IPv4 and IPv6 routes. `inet_route_add` clears host bits of
the request's prefix before it hands the request to `mtrie_add`; `inet_route_del` hands the
request on as it is, and relies on `__mtrie_delete` aligning its first slot.

* `inetMaskPrefix` — the masking, byte by byte as the source does it
* `inetMaskPrefix_bits` — what it does to each bit, where the source's assumptions hold
* `mtrieDeleteCore_congr` — a delete reads only the bits of its prefix
* `addedSlots` / `deletedSlots` — the slots the two loops go over

Router and route table exist once the module is initialised, so the two tests for them are left
out.
-/

namespace VRouter

open LongestMatch

/-! ## Data model -/

/-- `RT_IP_ADDR_SIZE`. -/
def rtIpAddrSize : Family → Nat
  | .inet => 4
  | .inet6 => 16

/-- `pmask` before the loop, in 32 bits. For an IPv4 prefix of length zero the source shifts an
`int` by 32, which C leaves undefined: `shifted` stands for whatever comes out. For IPv6 the source
notes "Assume V6 prefix length will be multiple of 8". -/
def inetPmask (shifted : Nat) : Family → (plen : Nat) → Nat
  | .inet, 0 => shifted
  | .inet, plen + 1 => 2 ^ 32 - 2 ^ (32 - (plen + 1))
  | .inet6, _ => 0

/-- The loop of `inet_route_add`: `left` bytes from `i` on are cleared, and the mask loses as many
bytes. -/
def inetMaskLoop : (left i : Nat) → List Octet → (pmask : Nat) → List Octet × Nat
  | 0, _, p, pmask => (p, pmask)
  | left + 1, i, p, pmask => inetMaskLoop left (i + 1) (p.set i 0) (pmask >>> 8)

/-- The prefix `inet_route_add` passes on. -/
def inetMaskPrefix (shifted : Nat) (rt : RouteReq) : List Octet :=
  let pmaskByte := rt.rtrPrefixLen / 8
  if pmaskByte < rtIpAddrSize rt.rtrFamily - 1 then
    let (p, pmask) := inetMaskLoop (rtIpAddrSize rt.rtrFamily - (pmaskByte + 1)) (pmaskByte + 1)
      rt.rtrPrefix (inetPmask shifted rt.rtrFamily rt.rtrPrefixLen)
    p.set pmaskByte (Fin.ofNat 256 ((octet p pmaskByte).val &&& (pmask &&& 0xff)))
  else rt.rtrPrefix

/-- `inet_route_add`; `rtbMaxVrfs` is `fs->rtb_max_vrfs`. -/
def inetRouteAdd (rtbMaxVrfs shifted : Nat) (env : RouteEnv) (alloc : MtrieAlloc) (rt : RouteReq)
    (st : RouteTables) : Except Errno Unit × RouteTables :=
  if rt.rtrPrefix.length = 0 then (.error .EINVAL, st)
  else if rtbMaxVrfs ≤ rt.rtrVrfId ∨ rtIpAddrSize rt.rtrFamily * 8 < rt.rtrPrefixLen then
    (.error .EINVAL, st)
  else mtrieAdd env alloc { rt with rtrPrefix := inetMaskPrefix shifted rt } st

/-- `inet_route_del`. -/
def inetRouteDel (rtbMaxVrfs : Nat) (env : RouteEnv) (rt : RouteReq) (st : RouteTables) :
    Except Errno Unit × RouteTables :=
  if rtIpAddrSize rt.rtrFamily * 8 < rt.rtrPrefixLen ∨ rtbMaxVrfs ≤ rt.rtrVrfId then
    (.error .EINVAL, st)
  else mtrieDelete env rt st

theorem rtIpAddrSize_eq (family : Family) : rtIpAddrSize family = ipBktGetMaxLevel family := by
  cases family <;> rfl

/-! ## The masking, octet by octet -/

theorem inetMaskLoop_length (left i : Nat) (p : List Octet) (pmask : Nat) :
    (inetMaskLoop left i p pmask).1.length = p.length := by
  induction left generalizing i p pmask with
  | zero => rfl
  | succ left ih => rw [inetMaskLoop, ih, List.length_set]

/-- The loop clears the octets it goes over and leaves the others. -/
theorem octet_inetMaskLoop (left i j : Nat) (p : List Octet) (pmask : Nat) :
    octet (inetMaskLoop left i p pmask).1 j = if i ≤ j ∧ j < i + left then 0 else octet p j := by
  induction left generalizing i p pmask with
  | zero =>
    rw [if_neg (by omega)]
    rfl
  | succ left ih =>
    rw [inetMaskLoop, ih, octet_set]
    by_cases hj : j = i
    · -- the octet just cleared; past the end of the list it reads zero anyway
      rw [if_neg (by omega), if_pos (c := i ≤ j ∧ j < i + (left + 1)) (by omega)]
      by_cases hlen : j < p.length
      · rw [if_pos ⟨hj, hlen⟩]
      · rw [if_neg (fun h => hlen h.2), octet_of_length_le (Nat.le_of_not_lt hlen)]
    · rw [if_neg (c := j = i ∧ j < p.length) (fun h => hj h.1)]
      exact if_congr (by omega) rfl rfl

theorem inetMaskLoop_pmask (left i : Nat) (p : List Octet) (pmask : Nat) :
    (inetMaskLoop left i p pmask).2 = pmask >>> (8 * left) := by
  induction left generalizing i p pmask with
  | zero => rfl
  | succ left ih =>
    rw [inetMaskLoop, ih, ← Nat.shiftRight_add]
    congr 1
    omega

theorem inetMaskPrefix_length (shifted : Nat) (rt : RouteReq) :
    (inetMaskPrefix shifted rt).length = rt.rtrPrefix.length := by
  unfold inetMaskPrefix
  dsimp only
  split
  · rw [List.length_set, inetMaskLoop_length]
  · rfl

variable {rt : RouteReq} (shifted : Nat)

theorem inetMaskPrefix_last (h : rtIpAddrSize rt.rtrFamily - 1 ≤ rt.rtrPrefixLen / 8) :
    inetMaskPrefix shifted rt = rt.rtrPrefix :=
  if_neg (Nat.not_lt_of_le h)

/-- The mask left for the octet the prefix ends in. -/
def inetByteMask (shifted : Nat) (rt : RouteReq) : Nat :=
  inetPmask shifted rt.rtrFamily rt.rtrPrefixLen >>>
    (8 * (rtIpAddrSize rt.rtrFamily - (rt.rtrPrefixLen / 8 + 1))) &&& 0xff

/-- Octet by octet: kept before the octet the prefix ends in, masked there, cleared after it. -/
theorem octet_inetMaskPrefix (hsize : rt.rtrPrefix.length = rtIpAddrSize rt.rtrFamily)
    (h : rt.rtrPrefixLen / 8 < rtIpAddrSize rt.rtrFamily - 1) (j : Nat) :
    (octet (inetMaskPrefix shifted rt) j).val =
      if j < rt.rtrPrefixLen / 8 then (octet rt.rtrPrefix j).val
      else if j = rt.rtrPrefixLen / 8 then
        (octet rt.rtrPrefix j).val &&& inetByteMask shifted rt
      else 0 := by
  have hbyte : ∀ x y : Nat, x < 256 → x &&& y < 256 := fun x y hx =>
    lt_of_le_of_lt Nat.and_le_left hx
  unfold inetMaskPrefix
  rw [if_pos h, octet_set, inetMaskLoop_length, octet_inetMaskLoop, octet_inetMaskLoop,
    inetMaskLoop_pmask]
  rcases Nat.lt_trichotomy j (rt.rtrPrefixLen / 8) with hj | hj | hj
  · rw [if_neg (by omega), if_neg (by omega), if_pos hj]
  · rw [if_pos ⟨hj, by omega⟩, if_neg (by omega), if_neg (by omega), if_pos hj]
    rw [inetByteMask, ← hj]
    exact Nat.mod_eq_of_lt (hbyte _ _ (octet rt.rtrPrefix j).isLt)
  rw [if_neg (by omega), if_neg (c := j < _) (by omega),
    if_neg (c := j = _) (by omega)]
  by_cases hlt : j < rtIpAddrSize rt.rtrFamily
  · rw [if_pos (by omega)]
    rfl
  · rw [if_neg (by omega), octet_of_length_le (by omega)]
    rfl

/-! ## The masking, bit by bit -/

/-- The requests whose prefix comes out canonical: the mask is right for the octet the prefix ends
in, or there is nothing to clear. For IPv6 this needs the length the source assumes. -/
def MaskExact (rt : RouteReq) : Prop :=
  match rt.rtrFamily with
  | .inet => (1 ≤ rt.rtrPrefixLen ∧ rt.rtrPrefixLen ≤ 23) ∨
      HostBitsZero rt.rtrPrefix rt.rtrPrefixLen
  | .inet6 => (8 ∣ rt.rtrPrefixLen ∧ rt.rtrPrefixLen < 120) ∨
      (HostBitsZero rt.rtrPrefix rt.rtrPrefixLen ∧
        (8 ∣ rt.rtrPrefixLen ∨ 120 ≤ rt.rtrPrefixLen))

/-- For an IPv4 prefix of length 1 to 23 the mask of the last octet keeps the prefix's bits of that
octet. -/
theorem inetByteMask_inet (hfam : rt.rtrFamily = .inet) (h1 : 1 ≤ rt.rtrPrefixLen)
    (h2 : rt.rtrPrefixLen ≤ 23) {i : Nat} (hi : i < 8) :
    (inetByteMask shifted rt).testBit (7 - i) = decide (i < rt.rtrPrefixLen % 8) := by
  unfold inetByteMask
  rw [hfam]
  have hall : ∀ m : Fin 23, ∀ i : Fin 8,
      ((2 ^ 32 - 2 ^ (32 - (m.val + 1))) >>> (8 * (4 - ((m.val + 1) / 8 + 1))) &&& 0xff).testBit
        (7 - i.val) = decide (i.val < (m.val + 1) % 8) := by decide
  obtain ⟨m, hm⟩ := Nat.exists_eq_add_of_le' h1
  rw [hm]
  exact hall ⟨m, by omega⟩ ⟨i, hi⟩

/-- With IPv6, and with a mask that is not used, the octet the prefix ends in is cleared. -/
theorem inetByteMask_inet6 (hfam : rt.rtrFamily = .inet6) : inetByteMask shifted rt = 0 := by
  unfold inetByteMask
  rw [hfam]
  simp [inetPmask]

/-- The bits that come out when the octet the prefix ends in is masked as it should be. -/
theorem bit_inetMaskPrefix (hsize : rt.rtrPrefix.length = rtIpAddrSize rt.rtrFamily)
    (h : rt.rtrPrefixLen / 8 < rtIpAddrSize rt.rtrFamily - 1) (hmask : ∀ i, i < 8 →
      ((octet rt.rtrPrefix (rt.rtrPrefixLen / 8)).val.testBit (7 - i) &&
          (inetByteMask shifted rt).testBit (7 - i)) =
        ((octet rt.rtrPrefix (rt.rtrPrefixLen / 8)).val.testBit (7 - i) &&
          decide (i < rt.rtrPrefixLen % 8))) (k : Nat) : bit (inetMaskPrefix shifted rt) k =
      if k < rt.rtrPrefixLen then bit rt.rtrPrefix k else false := by
  unfold bit
  rw [octet_inetMaskPrefix shifted hsize h]
  rcases Nat.lt_trichotomy (k / 8) (rt.rtrPrefixLen / 8) with hj | hj | hj
  · rw [if_pos hj, if_pos (by omega)]
  · rw [if_neg (by omega), if_pos hj, Nat.testBit_and, hj, hmask _ (Nat.mod_lt _ (by decide))]
    by_cases hk : k < rt.rtrPrefixLen
    · rw [if_pos hk, decide_eq_true (by omega : k % 8 < rt.rtrPrefixLen % 8), Bool.and_true]
    · rw [if_neg hk, decide_eq_false (by omega : ¬ k % 8 < rt.rtrPrefixLen % 8), Bool.and_false]
  · rw [if_neg (by omega), if_neg (by omega), if_neg (by omega), Nat.zero_testBit]

/-- **What the masking does to each bit**, for a request that meets `MaskExact`: the prefix's own
bits are kept and all others are zero. -/
theorem inetMaskPrefix_bits (hsize : rt.rtrPrefix.length = rtIpAddrSize rt.rtrFamily)
    (hexact : MaskExact rt) (k : Nat) :
    bit (inetMaskPrefix shifted rt) k =
      if k < rt.rtrPrefixLen then bit rt.rtrPrefix k else false := by
  -- with no host bits set, passing the prefix on unchanged is right as well
  have hkept : HostBitsZero rt.rtrPrefix rt.rtrPrefixLen →
      rtIpAddrSize rt.rtrFamily - 1 ≤ rt.rtrPrefixLen / 8 →
      bit (inetMaskPrefix shifted rt) k =
        if k < rt.rtrPrefixLen then bit rt.rtrPrefix k else false := by
    intro hz hlast
    rw [inetMaskPrefix_last shifted hlast]
    split
    · rfl
    · exact hz k (by omega)
  cases hfam : rt.rtrFamily with
  | inet =>
    have hsz : rtIpAddrSize rt.rtrFamily = 4 := by rw [hfam]; rfl
    have hcond : (1 ≤ rt.rtrPrefixLen ∧ rt.rtrPrefixLen ≤ 23) ∨
        HostBitsZero rt.rtrPrefix rt.rtrPrefixLen := by
      rw [MaskExact, hfam] at hexact
      exact hexact
    by_cases hmid : 1 ≤ rt.rtrPrefixLen ∧ rt.rtrPrefixLen ≤ 23
    · refine bit_inetMaskPrefix shifted hsize (by omega) (fun i hi => ?_) k
      rw [inetByteMask_inet shifted hfam hmid.1 hmid.2 hi]
    have hz := hcond.resolve_left hmid
    by_cases h0 : rt.rtrPrefixLen = 0
    · -- whatever the undefined shift gives, it masks a zero octet
      refine bit_inetMaskPrefix shifted hsize (by omega) (fun i hi => ?_) k
      rw [hz.octet_eq_zero (by omega)]
      simp
    · exact hkept hz (by omega)
  | inet6 =>
    have hsz : rtIpAddrSize rt.rtrFamily = 16 := by rw [hfam]; rfl
    have hcond : (8 ∣ rt.rtrPrefixLen ∧ rt.rtrPrefixLen < 120) ∨
        (HostBitsZero rt.rtrPrefix rt.rtrPrefixLen ∧
          (8 ∣ rt.rtrPrefixLen ∨ 120 ≤ rt.rtrPrefixLen)) := by
      rw [MaskExact, hfam] at hexact
      exact hexact
    by_cases hlt : rt.rtrPrefixLen < 120
    · have hdvd : rt.rtrPrefixLen % 8 = 0 := by omega
      refine bit_inetMaskPrefix shifted hsize (by omega) (fun i hi => ?_) k
      rw [inetByteMask_inet6 shifted hfam, hdvd]
      simp
    · exact hkept (hcond.resolve_left fun h => hlt h.2).1 (by omega)

/-! ## A delete reads only the bits of its prefix -/

section

variable {tbl : NexthopTable} {c : List Octet}

section

variable (hcov : Covers rt.rtrPrefix rt.rtrPrefixLen c)
include hcov

/-- Two prefixes that agree on `n` bits have the same slot on the way to `p/n`. -/
theorem rtToIndex_congr {level : Nat} (hlt : 8 * (level + 1) ≤ rt.rtrPrefixLen) :
    rtToIndex { rt with rtrPrefix := c } level = rtToIndex rt level :=
  ((covers_octets _ _ _).mp (hcov.mono hlt)) level (Nat.lt_succ_self _)

/-- Where `p/n` ends, they have the same aligned range of slots. -/
theorem deleteStart_congr (level : Nat) :
    deleteStart level rt.rtrPrefixLen (rtToIndex { rt with rtrPrefix := c } level) =
      deleteStart level rt.rtrPrefixLen (rtToIndex rt level) := by
  unfold deleteStart
  split
  · rename_i h
    simp only [biPfxLen_eq, biBits_eq] at h
    obtain ⟨r, hr⟩ := Nat.exists_eq_add_of_le (by omega : 8 * level ≤ rt.rtrPrefixLen)
    rw [hr] at hcov
    have hdiv := ((covers_split_octet _ _ level r (by omega)).mp hcov).2
    have hcount : slotCount level rt.rtrPrefixLen = 2 ^ (8 - r) := by
      rw [slotCount_of_lt (by omega) h.2]
      congr 1
      omega
    rw [hcount]
    have hstart : ∀ x : Nat, x - x % 2 ^ (8 - r) = 2 ^ (8 - r) * (x / 2 ^ (8 - r)) := by
      intro x
      have := Nat.div_add_mod x (2 ^ (8 - r))
      omega
    rw [hstart, hstart]
    exact congrArg (2 ^ (8 - r) * ·) hdiv
  · rfl

variable (rt) in
/-- Two delete requests for the same `p/n` do the same to every tree. -/
theorem mtrieDeleteCore_congr (ent : IpBucketEntry) (level : Nat) (relabel : Bool) :
    mtrieDeleteCore tbl { rt with rtrPrefix := c } ent level relabel =
      mtrieDeleteCore tbl rt ent level relabel := by
  induction ent generalizing level relabel with
  | nexthop | nullBucket => rfl
  | bucket bkt info ih =>
    have hslots : deletedSlot tbl { rt with rtrPrefix := c } bkt level =
        deletedSlot tbl rt bkt level := by
      unfold deletedSlot deleteEnd
      simp only [deleteStart_congr hcov, ih]
      split
      · rename_i hlt
        rw [biPfxLen_eq] at hlt
        rw [rtToIndex_congr hcov (le_of_lt hlt)]
      · rfl
    refine Prod.ext ?_ ?_
    · rw [mtrieDeleteCore, mtrieDeleteCore]
    · rw [mtrieDeleteCore_bucket, hslots]
      rfl

theorem mtrieDelete_congr (env : RouteEnv) (st : RouteTables) :
    mtrieDelete env { rt with rtrPrefix := c } st = mtrieDelete env rt st := by
  have hcore : ∀ nh index root,
      mtrieDeleteCore env.nexthops (resolved { rt with rtrPrefix := c } nh index) root 0 false =
        mtrieDeleteCore env.nexthops (resolved rt nh index) root 0 false :=
    fun nh index root => mtrieDeleteCore_congr (resolved rt nh index) hcov root 0 false
  unfold mtrieDelete
  simp only [hcore]
  rfl

end

/-! ## The slots of the two loops -/

/-- The bucket reached through the slots `q` is the one where the route of `rt` ends. -/
def EndBucket (rt : RouteReq) (q : List Octet) : Prop :=
  (∀ l, l < q.length →
    (mtrieIpBktInfoInit l).biPfxLen < rt.rtrPrefixLen ∧ octet q l = rtToIndex rt l) ∧
  rt.rtrPrefixLen ≤ (mtrieIpBktInfoInit q.length).biPfxLen

/-- The slots the loop of `__mtrie_add` goes over (`addSlots_apply`), each with the path to its
bucket. -/
def addedSlots (rt : RouteReq) : Set (List Octet × Fin 256) :=
  {s | EndBucket rt s.1 ∧
    (s.2 - rtToIndex rt s.1.length).val < slotCount s.1.length rt.rtrPrefixLen}

/-- The slots the loop of `__mtrie_delete` goes over (`deletedSlot`). -/
def deletedSlots (rt : RouteReq) : Set (List Octet × Fin 256) :=
  {s | EndBucket rt s.1 ∧
    deleteStart s.1.length rt.rtrPrefixLen (rtToIndex rt s.1.length) ≤ s.2.val ∧
    s.2.val < deleteEnd s.1.length rt.rtrPrefixLen (rtToIndex rt s.1.length)}

theorem EndBucket.congr (hcov : Covers rt.rtrPrefix rt.rtrPrefixLen c) (q : List Octet) :
    EndBucket { rt with rtrPrefix := c } q ↔ EndBucket rt q := by
  refine and_congr_left fun _ => forall₂_congr fun l _ => and_congr_right fun hl => ?_
  rw [biPfxLen_eq] at hl
  rw [rtToIndex_congr hcov (le_of_lt hl)]

variable {q : List Octet}

theorem EndBucket.len_bounds (h : EndBucket rt q) :
    (8 * q.length < rt.rtrPrefixLen ∨ rt.rtrPrefixLen = 0 ∧ q.length = 0) ∧
      rt.rtrPrefixLen ≤ 8 * (q.length + 1) := by
  have hhi := h.2
  rw [biPfxLen_eq] at hhi
  cases hq : q.length with
  | zero => omega
  | succ l =>
    have hlo := (h.1 l (by omega)).1
    rw [biPfxLen_eq] at hlo
    omega

theorem EndBucket.covers (h : EndBucket rt q) : Covers q (8 * q.length) rt.rtrPrefix :=
  (covers_octets _ _ _).mpr fun l hl => (h.1 l hl).2.symm

theorem mem_addedSlots (hz : HostBitsZero rt.rtrPrefix rt.rtrPrefixLen) (q : List Octet)
    (j : Fin 256) :
    (q, j) ∈ addedSlots rt ↔ EndBucket rt q ∧ Covers rt.rtrPrefix rt.rtrPrefixLen (q ++ [j]) := by
  refine and_congr_right fun hend => ?_
  obtain ⟨hlo, hhi⟩ := hend.len_bounds
  exact slot_in_range_iff hz (hlo.imp id And.left) hhi hend.covers j

theorem mem_deletedSlots (q : List Octet) (j : Fin 256) :
    (q, j) ∈ deletedSlots rt ↔
      EndBucket rt q ∧ Covers rt.rtrPrefix rt.rtrPrefixLen (q ++ [j]) := by
  refine and_congr_right fun hend => ?_
  exact delete_range_iff (hend.covers.symm.mono (min_le_right _ _)) hend.len_bounds.2 j

/-- A delete of `p/n` goes over the slots an add of the canonical form of `p/n` goes over. -/
theorem deletedSlots_eq (hcov : Covers rt.rtrPrefix rt.rtrPrefixLen c)
    (hz : HostBitsZero c rt.rtrPrefixLen) :
    deletedSlots rt = addedSlots { rt with rtrPrefix := c } := by
  ext ⟨q, j⟩
  have hadd : (q, j) ∈ addedSlots { rt with rtrPrefix := c } ↔ _ := mem_addedSlots hz q j
  rw [mem_deletedSlots, hadd, EndBucket.congr hcov]
  exact and_congr_right fun _ => ⟨fun h => hcov.symm.trans h, fun h => hcov.trans h⟩

end

/-! ## The two entry points -/

/-- A prefix that agrees with the request's and has no host bits is masked to the same bytes. -/
theorem inetMaskPrefix_eq (shifted shifted' : Nat) {c : List Octet}
    (hsize : rt.rtrPrefix.length = rtIpAddrSize rt.rtrFamily) (hexact : MaskExact rt)
    (hlen : c.length = rt.rtrPrefix.length) (hcov : Covers rt.rtrPrefix rt.rtrPrefixLen c)
    (hz : HostBitsZero c rt.rtrPrefixLen) :
    inetMaskPrefix shifted' { rt with rtrPrefix := c } = inetMaskPrefix shifted rt := by
  have hexact' : MaskExact { rt with rtrPrefix := c } := by
    unfold MaskExact at hexact ⊢
    cases hfam : rt.rtrFamily <;> rw [hfam] at hexact <;> dsimp only at hexact ⊢
    · exact Or.inr hz
    · exact hexact.imp id fun h => ⟨hz, h.2⟩
  apply list_ext_of_bits
  · rw [inetMaskPrefix_length, inetMaskPrefix_length, hlen]
  · intro k
    rw [inetMaskPrefix_bits shifted hsize hexact,
      inetMaskPrefix_bits shifted' (hlen.trans hsize) hexact']
    exact if_ctx_congr Iff.rfl (fun hk => hcov k hk) fun _ => rfl

/-- **Routes are installed under their canonical prefix.** For a request that meets `MaskExact`,
`inet_route_add` passes on the bits of the prefix with all others cleared. Adding or deleting the
request is then adding or deleting its canonical form, and the delete goes over the slots the add
went over. -/
theorem inetRoute_canonical (shifted : Nat) (rt : RouteReq)
    (hsize : rt.rtrPrefix.length = rtIpAddrSize rt.rtrFamily) (hexact : MaskExact rt) :
    (∀ k, bit (inetMaskPrefix shifted rt) k =
      if k < rt.rtrPrefixLen then bit rt.rtrPrefix k else false) ∧
    (∀ c : List Octet, c.length = rt.rtrPrefix.length → Covers rt.rtrPrefix rt.rtrPrefixLen c →
      HostBitsZero c rt.rtrPrefixLen →
      ∀ (rtbMaxVrfs shifted' : Nat) (env : RouteEnv) (alloc : MtrieAlloc) (st : RouteTables),
        inetRouteAdd rtbMaxVrfs shifted env alloc rt st =
          inetRouteAdd rtbMaxVrfs shifted' env alloc { rt with rtrPrefix := c } st ∧
        inetRouteDel rtbMaxVrfs env rt st =
          inetRouteDel rtbMaxVrfs env { rt with rtrPrefix := c } st) ∧
    deletedSlots rt = addedSlots { rt with rtrPrefix := inetMaskPrefix shifted rt } := by
  have hbits := inetMaskPrefix_bits shifted hsize hexact
  refine ⟨hbits, fun c hlen hcov hz rtbMaxVrfs shifted' env alloc st => ⟨?_, ?_⟩, ?_⟩
  · unfold inetRouteAdd
    rw [inetMaskPrefix_eq shifted shifted' hsize hexact hlen hcov hz, hlen]
  · unfold inetRouteDel
    rw [mtrieDelete_congr hcov env st]
  · refine deletedSlots_eq (fun k hk => ?_) fun k hk => ?_
    · rw [hbits, if_pos hk]
    · rw [hbits, if_neg (by omega)]

/-! ## Sample requests -/

/-- A request for a prefix, with no label and no MAC address. -/
def prefixReq (family : Family) (p : List Octet) (n : Nat) : RouteReq where
  rtrVrfId := 0
  rtrFamily := family
  rtrPrefix := p
  rtrPrefixLen := n
  rtrLabelFlags := 0
  rtrLabel := 0
  rtrNhId := 0
  rtrMac := []
  rtrReplacePlen := 0
  rtrIndex := 0
  rtrNh := none

/-- 10.1.255.7/19 goes in as 10.1.224.0/19. -/
theorem inetRoute_canonical_nineteen :
    inetMaskPrefix 0 (prefixReq .inet [10, 1, 255, 7] 19) = [10, 1, 224, 0] ∧
      deletedSlots (prefixReq .inet [10, 1, 255, 7] 19) =
        addedSlots (prefixReq .inet (inetMaskPrefix 0 (prefixReq .inet [10, 1, 255, 7] 19)) 19) :=
  ⟨by decide, (inetRoute_canonical 0 (prefixReq .inet [10, 1, 255, 7] 19) rfl
    (Or.inl (by decide))).2.2⟩

/-- 2001:db8:8000::/33 is accepted and goes in as 2001:db8::/33: the mask of an IPv6 prefix has
no bits of the octet the prefix ends in. -/
theorem inetMaskPrefix_inet6_clears_bit :
    let rt := prefixReq .inet6 [0x20, 1, 0xd, 0xb8, 0x80, 0, 0, 0, 0, 0, 0, 0, 0, 0, 0, 0] 33
    rt.rtrPrefixLen ≤ rtIpAddrSize rt.rtrFamily * 8 ∧ bit rt.rtrPrefix 32 = true ∧
      ∀ shifted, bit (inetMaskPrefix shifted rt) 32 = false := by
  refine ⟨by decide, by decide, fun shifted => ?_⟩
  show bit (inetMaskPrefix 0 _) 32 = false
  decide

end VRouter
