import VRouter.Htable.Btable

/-!
# VRouter — where the entries of a big table lie

`vr_btable_alloc` forms the number of bytes as a 32-bit product, although it keeps it in 64 bits,
and keeps the entry size in 16 bits; `vr_btable_get` forms its own 32-bit product. The entries have
bytes of their own inside the partitions, at the addresses `vr_btable_get_address` gives, exactly
when neither loses anything (`vrBtableGet_layout_iff`).
-/

namespace VRouter

section

variable {n s : Nat} {b : Btable}

/-- The bytes `vr_btable_alloc` asks for. -/
def totalMem (n s : Nat) : Nat := n * s % 2 ^ 32

/-- A search that only one element of the list can answer finds that element. -/
theorem findSome?_eq_of_unique {α β : Type} {f : α → Option β} {k : α} {y : β} :
    ∀ {l : List α}, k ∈ l → f k = some y → (∀ x ∈ l, x ≠ k → f x = none) →
      l.findSome? f = some y := by
  intro l
  induction l with
  | nil =>
    intro hk
    cases hk
  | cons x l ih =>
    intro hk hy hothers
    rw [List.findSome?_cons]
    rcases List.mem_cons.mp hk with rfl | hk
    · rw [hy]
    cases hx : f x with
    | none => exact ih hk hy fun z hz => hothers z (List.mem_cons_of_mem _ hz)
    | some z =>
      have hxk : x = k := by
        by_contra hne
        rw [hothers x List.mem_cons_self hne] at hx
        cases hx
      rw [hxk, hy] at hx
      exact hx.symm

/-- Each entry has `s` bytes of its own inside a partition, at the address of its byte offset, and
there is nothing past the last entry. -/
structure Btable.Layout (b : Btable) (n s : Nat) : Prop where
  inside : ∀ i, i < n → ∃ part off, vrBtableGet b i = some (part, off) ∧ part < b.vbPartitions ∧
    off + s ≤ b.vbMemSize part
  disjoint : ∀ i j part part' off off', i < n → j < n → i ≠ j →
    vrBtableGet b i = some (part, off) → vrBtableGet b j = some (part', off') →
    part ≠ part' ∨ off + s ≤ off' ∨ off' + s ≤ off
  address : ∀ i, i < n → vrBtableGet b i = vrBtableGetAddress b (i * s % 2 ^ 32)
  past : ∀ i, n ≤ i → vrBtableGet b i = none

section

variable (h : vrBtableAlloc n s = some b)
include h

/-- The partitions cover the bytes below `totalMem`, one after the other. -/
theorem vrBtableAlloc_partitions :
    (∀ part, part < b.vbPartitions ↔ part * vrSingleAllocLimit < totalMem n s) ∧
      (∀ part, b.vbOffset part = part * vrSingleAllocLimit) ∧
      (∀ part, part < b.vbPartitions → part * vrSingleAllocLimit + b.vbMemSize part =
        min ((part + 1) * vrSingleAllocLimit) (totalMem n s)) := by
  unfold vrBtableAlloc at h
  simp only at h
  rw [show n * s % 2 ^ 32 = totalMem n s from rfl] at h
  have hT : totalMem n s < 2 ^ 32 := Nat.mod_lt _ (by decide)
  generalize totalMem n s = T at h hT
  generalize htotal : (if T % vrSingleAllocLimit = 0 then T / vrSingleAllocLimit
    else T / vrSingleAllocLimit + 1) = totalParts at h
  have hparts : ∀ part, part < totalParts % 2 ^ 16 ↔ part * vrSingleAllocLimit < T := by
    intro part
    subst htotal
    unfold vrSingleAllocLimit
    split <;> omega
  split at h
  · cases h
  split at h
  · cases h
  cases h
  refine ⟨hparts, fun _ => rfl, fun part hpart => ?_⟩
  replace hpart := (hparts part).mp hpart
  show part * vrSingleAllocLimit + (if part < T / vrSingleAllocLimit then vrSingleAllocLimit
    else T % vrSingleAllocLimit) = _
  unfold vrSingleAllocLimit at hpart ⊢
  split
  · omega
  · omega

/-- `vr_btable_get_address` splits an offset at the partition size, up to the end of the table. -/
theorem vrBtableGetAddress_eq (offset : Nat) :
    vrBtableGetAddress b offset =
      if offset < totalMem n s then
        some (offset / vrSingleAllocLimit, offset % vrSingleAllocLimit)
      else none := by
  obtain ⟨hparts, hoffset, hend⟩ := vrBtableAlloc_partitions h
  have hT : totalMem n s < 2 ^ 32 := Nat.mod_lt _ (by decide)
  -- the test of the loop, for a partition of the table
  have htest : ∀ i, i < b.vbPartitions → ((b.vbOffset i ≤ offset ∧
      offset < (b.vbOffset i + b.vbMemSize i) % 2 ^ 32) ↔
      i = offset / vrSingleAllocLimit ∧ offset < totalMem n s) := by
    intro i hi
    have hi' := (hparts i).mp hi
    rw [hoffset, hend i hi]
    unfold vrSingleAllocLimit at hi' ⊢
    omega
  unfold vrBtableGetAddress
  split
  next hlt =>
    have hmem : offset / vrSingleAllocLimit < b.vbPartitions := by
      rw [hparts]
      unfold vrSingleAllocLimit
      omega
    apply findSome?_eq_of_unique (List.mem_range.mpr hmem)
    · rw [if_pos ((htest _ hmem).mpr ⟨rfl, hlt⟩), hoffset, Nat.mod_eq_sub_div_mul]
    · intro i hi hne
      rw [if_neg]
      intro hcond
      exact hne ((htest i (List.mem_range.mp hi)).mp hcond).1
  next hge =>
    rw [List.findSome?_eq_none_iff]
    intro i hi
    rw [if_neg]
    intro hcond
    exact hge ((htest i (List.mem_range.mp hi)).mp hcond).2

theorem vrBtableGet_split {i : Nat} (hi : i < n) :
    vrBtableGet b i =
      if i * (s % 2 ^ 16) % 2 ^ 32 / vrSingleAllocLimit * vrSingleAllocLimit < totalMem n s then
        some (i * (s % 2 ^ 16) % 2 ^ 32 / vrSingleAllocLimit,
          i * (s % 2 ^ 16) % 2 ^ 32 % vrSingleAllocLimit)
      else none := by
  obtain ⟨hentries, hesize, hlimit, -, -⟩ := vrBtableAlloc_inv h
  obtain ⟨hparts, -, -⟩ := vrBtableAlloc_partitions h
  unfold vrBtableGet
  rw [if_neg (by omega), hesize, hlimit]
  simp only [← hparts, ← not_lt]
  exact ite_not _ _ _

theorem totalMem_pos : 0 < totalMem n s := by
  by_contra hzero
  unfold vrBtableAlloc at h
  rw [show n * s % 2 ^ 32 = 0 from by unfold totalMem at hzero; omega] at h
  simp at h

theorem vrBtableGet_past {i : Nat} (hi : n ≤ i) : vrBtableGet b i = none := by
  unfold vrBtableGet
  rw [(vrBtableAlloc_inv h).1, if_pos hi]

theorem layout_of_bytesFit (hfit : BytesFit n s) : b.Layout n s := by
  obtain ⟨hparts, -, -⟩ := vrBtableAlloc_partitions h
  have hT : totalMem n s = n * s := Nat.mod_eq_of_lt hfit.bytes
  -- entry `i` starts below the end of the table, so in one of its partitions
  have hbelow : ∀ i, i < n → i * s < n * s := fun i hi => by
    have hs : s ≠ 0 := by
      intro hs
      have hpos := totalMem_pos h
      rw [hT, hs] at hpos
      omega
    exact Nat.mul_lt_mul_of_pos_right hi (Nat.pos_of_ne_zero hs)
  have hget : ∀ i, i < n → vrBtableGet b i =
      some (i * s / vrSingleAllocLimit, i * s % vrSingleAllocLimit) := by
    intro i hi
    have hlt := hbelow i hi
    rw [vrBtableGet_split h hi, Nat.mod_eq_of_lt hfit.esize,
      Nat.mod_eq_of_lt (lt_trans hlt hfit.bytes), hT,
      if_pos (lt_of_le_of_lt (Nat.div_mul_le_self _ _) hlt)]
  refine ⟨fun i hi => ⟨_, _, hget i hi, ?_, vrBtableGet_inBounds hfit h (hget i hi)⟩,
    fun i j _ _ _ _ _ _ hij hi hj => vrBtableGet_disjoint hfit h hij hi hj, fun i hi => ?_,
    fun i hi => vrBtableGet_past h hi⟩
  · rw [hparts, hT]
    exact lt_of_le_of_lt (Nat.div_mul_le_self _ _) (hbelow i hi)
  · rw [hget i hi, vrBtableGetAddress_eq h, hT,
      Nat.mod_eq_of_lt (lt_trans (hbelow i hi) hfit.bytes), if_pos (hbelow i hi)]

/-- Two entries whose size is cut off overlap: the second starts inside the first. -/
theorem esize_of_layout (hlay : b.Layout n s) (hn : n ≠ 1) : s < 2 ^ 16 := by
  have hpos := pos_of_vrBtableAlloc h
  obtain ⟨part, off, hzero, -, -⟩ := hlay.inside 0 (by omega)
  obtain ⟨part', off', hone, -, -⟩ := hlay.inside 1 (by omega)
  have hdisj := hlay.disjoint 0 1 _ _ _ _ (by omega) (by omega) (by omega) hzero hone
  rw [vrBtableGet_split h (by omega)] at hzero
  rw [vrBtableGet_split h (by omega)] at hone
  obtain ⟨-, hz⟩ := Option.ite_none_right_eq_some.mp hzero
  obtain ⟨-, ho⟩ := Option.ite_none_right_eq_some.mp hone
  cases hz
  cases ho
  unfold vrSingleAllocLimit at hdisj
  omega

/-- Where the table's bytes are cut off, entry `totalMem / s` reaches past the last partition. -/
theorem bytes_of_layout (hlay : b.Layout n s) (hesize : s < 2 ^ 16) : n * s < 2 ^ 32 := by
  by_contra hlarge
  obtain ⟨-, -, hend⟩ := vrBtableAlloc_partitions h
  have hT : totalMem n s < 2 ^ 32 := Nat.mod_lt _ (by decide)
  have hspos : 0 < s := by
    by_contra hs
    rw [show s = 0 by omega, Nat.mul_zero] at hlarge
    exact hlarge (by decide)
  have hi : totalMem n s / s < n := by
    rw [Nat.div_lt_iff_lt_mul hspos]
    omega
  have hstart : totalMem n s / s * s ≤ totalMem n s := Nat.div_mul_le_self _ _
  have hpast : totalMem n s < totalMem n s / s * s + s := Nat.lt_div_mul_add hspos
  obtain ⟨part, off, hget, hpart, hin⟩ := hlay.inside _ hi
  rw [vrBtableGet_split h hi, Nat.mod_eq_of_lt hesize, Nat.mod_eq_of_lt (by omega)] at hget
  obtain ⟨-, hsplit⟩ := Option.ite_none_right_eq_some.mp hget
  cases hsplit
  -- it starts in the table, but its end is past the end of the partition it starts in
  have hlast := le_trans (le_of_eq (hend _ hpart)) (Nat.min_le_right _ _)
  have hdiv := Nat.div_add_mod' (totalMem n s / s * s) vrSingleAllocLimit
  omega

end

/-- A single entry starts at byte 0 whatever its size is cut off to. -/
theorem layout_of_single (hbytes : s < 2 ^ 32) (h : vrBtableAlloc 1 s = some b) : b.Layout 1 s := by
  obtain ⟨hparts, -, hend⟩ := vrBtableAlloc_partitions h
  have hT : totalMem 1 s = s := by
    unfold totalMem
    rw [Nat.one_mul, Nat.mod_eq_of_lt hbytes]
  have hpos := totalMem_pos h
  have hget : vrBtableGet b 0 = some (0, 0) := by
    rw [vrBtableGet_split h Nat.one_pos, Nat.zero_mul, Nat.zero_mod, Nat.zero_div, Nat.zero_mod,
      Nat.zero_mul, if_pos hpos]
  have hmem : s ≤ vrSingleAllocLimit := by
    -- an entry larger than a partition is no factor of it
    by_contra hlarge
    have hfactor := (vrBtableAlloc_inv h).2.2.2.2
    have hzero := hfactor (by unfold vrSingleAllocLimit at hlarge ⊢; omega)
    rw [Nat.mod_eq_of_lt (by omega)] at hzero
    exact absurd hzero (by decide)
  refine ⟨fun i hi => ?_, fun i j _ _ _ _ hi hj hij => absurd (by omega) hij, fun i hi => ?_,
    fun i hi => vrBtableGet_past h hi⟩
  · obtain rfl : i = 0 := by omega
    have hpart : 0 < b.vbPartitions := by
      rw [hparts]
      omega
    have hzero := hend 0 hpart
    exact ⟨0, 0, hget, hpart, by omega⟩
  · obtain rfl : i = 0 := by omega
    rw [hget, vrBtableGetAddress_eq h, Nat.zero_mul, Nat.zero_mod, if_pos hpos, Nat.zero_div,
      Nat.zero_mod]

/-- The entries of an allocated table lie apart, inside the partitions and at the addresses of
their byte offsets, exactly if the 32-bit product of the sizes and the 16-bit entry size are the
true ones; a single entry needs no entry size. -/
theorem vrBtableGet_layout_iff (h : vrBtableAlloc n s = some b) :
    b.Layout n s ↔ n * s < 2 ^ 32 ∧ (s < 2 ^ 16 ∨ n = 1) := by
  constructor
  · intro hlay
    rcases Nat.lt_or_ge s (2 ^ 16) with hs | hs
    · exact ⟨bytes_of_layout h hlay hs, .inl hs⟩
    have hn : n = 1 := by
      by_contra hn
      exact absurd (esize_of_layout h hlay hn) (by omega)
    subst hn
    -- the entry lies inside the first partition, which has less than 4 GB
    obtain ⟨part, off, -, hpart, hin⟩ := hlay.inside 0 (by omega)
    have hend := (vrBtableAlloc_partitions h).2.2 part hpart
    have hT : totalMem 1 s < 2 ^ 32 := Nat.mod_lt _ (by decide)
    exact ⟨by omega, .inr rfl⟩
  · intro ⟨hbytes, hcase⟩
    rcases hcase with hs | rfl
    · exact layout_of_bytesFit h ⟨hbytes, hs⟩
    · exact layout_of_single (by omega) h

end

/-- The layout of a table of two full partitions. -/
theorem vrBtableGet_layout_iff_two_partitions :
    ∃ b, vrBtableAlloc 65536 128 = some b ∧
      (b.Layout 65536 128 ↔ 65536 * 128 < 2 ^ 32 ∧ (128 < 2 ^ 16 ∨ 65536 = 1)) := by
  obtain ⟨b, hb⟩ : ∃ b, vrBtableAlloc 65536 128 = some b := Option.isSome_iff_exists.mp (by decide)
  exact ⟨b, hb, vrBtableGet_layout_iff hb⟩

/-- With `2 ^ 25 + 1` entries of 128 bytes the product is 128: there is one partition of 128 bytes,
and entry 1 starts at its end. -/
theorem vrBtableGet_past_partition :
    ∃ b, vrBtableAlloc (2 ^ 25 + 1) 128 = some b ∧ vrBtableGet b 1 = some (0, 128) ∧
      b.vbMemSize 0 = 128 ∧ vrBtableGetAddress b 128 = none := by
  have hrun : (vrBtableAlloc (2 ^ 25 + 1) 128).map
      (fun b => (vrBtableGet b 1, b.vbMemSize 0, vrBtableGetAddress b 128)) =
      some (some (0, 128), 128, none) := by decide
  obtain ⟨b, hb, h⟩ := Option.map_eq_some_iff.mp hrun
  simp only [Prod.mk.injEq] at h
  exact ⟨b, hb, h⟩

end VRouter
