import Mathlib.Tactic

/-!
# VRouter — big tables (`vr_btable.c`)

A table of fixed-size entries in partitions of at most 4 MB. All byte counts are `unsigned int`
and the entry size is kept in an `unsigned short`, so a table of 4 GB or more, or with entries of
64 KB or more, has its products cut off. `vrBtableGet_inBounds` and `vrBtableGet_disjoint` say
that below these sizes each entry has bytes of its own inside an allocated partition; the hash
table's model identifies an entry with its index on that ground.
-/

namespace VRouter

/-- `VR_SINGLE_ALLOC_LIMIT`. -/
def vrSingleAllocLimit : Nat := 4 * 1024 * 1024

/-- `struct vr_btable`, with the sizes and the offsets of its partitions (`vb_table_info`). An
address is a partition and an offset into it. -/
structure Btable where
  vbEntries : Nat
  vbEsize : Nat
  vbPartitions : Nat
  vbAllocLimit : Nat
  vbMemSize : Nat → Nat
  vbOffset : Nat → Nat

/-- `vr_btable_alloc` when the pages can be had. -/
def vrBtableAlloc (numEntries entrySize : Nat) : Option Btable :=
  let totalMem := numEntries * entrySize % 2 ^ 32
  let numParts := totalMem / vrSingleAllocLimit
  let remainder := totalMem % vrSingleAllocLimit
  let totalParts := if remainder = 0 then numParts else numParts + 1
  -- the entry size has to be a factor of the partition size
  if numParts ≠ 0 ∧ vrSingleAllocLimit % entrySize ≠ 0 then none
  else if totalParts = 0 then none
  else some
    { vbEntries := numEntries
      vbEsize := entrySize % 2 ^ 16
      vbPartitions := totalParts % 2 ^ 16
      vbAllocLimit := vrSingleAllocLimit
      vbMemSize := fun part => if part < numParts then vrSingleAllocLimit else remainder
      vbOffset := fun part => part * vrSingleAllocLimit }

/-- `vr_btable_get`: partition and offset of an entry, or the null pointer. -/
def vrBtableGet (table : Btable) (entry : Nat) : Option (Nat × Nat) :=
  if table.vbEntries ≤ entry then none
  else
    let tIndex := entry * table.vbEsize % 2 ^ 32 / table.vbAllocLimit
    let tOffset := entry * table.vbEsize % 2 ^ 32 % table.vbAllocLimit
    if table.vbPartitions ≤ tIndex then none else some (tIndex, tOffset)

/-- `vr_btable_get_address`: the first partition that holds the byte `offset` of the table. -/
def vrBtableGetAddress (table : Btable) (offset : Nat) : Option (Nat × Nat) :=
  (List.range table.vbPartitions).findSome? fun i =>
    if table.vbOffset i ≤ offset ∧ offset < (table.vbOffset i + table.vbMemSize i) % 2 ^ 32 then
      some (i, offset - table.vbOffset i)
    else none

section

variable {n s : Nat} {b : Btable}

theorem vrBtableAlloc_inv (h : vrBtableAlloc n s = some b) :
    b.vbEntries = n ∧ b.vbEsize = s % 2 ^ 16 ∧ b.vbAllocLimit = vrSingleAllocLimit ∧
      (∀ part, b.vbMemSize part = if part < n * s % 2 ^ 32 / vrSingleAllocLimit then
        vrSingleAllocLimit else n * s % 2 ^ 32 % vrSingleAllocLimit) ∧
      (n * s % 2 ^ 32 / vrSingleAllocLimit ≠ 0 → vrSingleAllocLimit % s = 0) := by
  unfold vrBtableAlloc at h
  by_cases hfac : n * s % 2 ^ 32 / vrSingleAllocLimit ≠ 0 ∧ vrSingleAllocLimit % s ≠ 0
  · rw [if_pos hfac] at h
    cases h
  rw [if_neg hfac] at h
  by_cases hparts : (if n * s % 2 ^ 32 % vrSingleAllocLimit = 0 then
      n * s % 2 ^ 32 / vrSingleAllocLimit else n * s % 2 ^ 32 / vrSingleAllocLimit + 1) = 0
  · rw [if_pos hparts] at h
    cases h
  · rw [if_neg hparts] at h
    cases h
    exact ⟨rfl, rfl, rfl, fun _ => rfl, fun hne => by_contra fun hs => hfac ⟨hne, hs⟩⟩

theorem pos_of_vrBtableAlloc (h : vrBtableAlloc n s = some b) : 0 < n := by
  rcases Nat.eq_zero_or_pos n with rfl | hn
  · unfold vrBtableAlloc at h
    simp at h
  · exact hn

theorem lt_of_vrBtableGet {entry : Nat} (h : (vrBtableGet b entry).isSome) :
    entry < b.vbEntries := by
  unfold vrBtableGet at h
  split at h
  · cases h
  · omega

/-- A table whose bytes can be counted in 32 bits, with entries of less than 64 KB. -/
structure BytesFit (n s : Nat) : Prop where
  bytes : n * s < 2 ^ 32
  esize : s < 2 ^ 16

variable (hfit : BytesFit n s) (h : vrBtableAlloc n s = some b)
include hfit h

theorem vrBtableGet_eq {i part off : Nat} (hget : vrBtableGet b i = some (part, off)) :
    i < n ∧ vrSingleAllocLimit * part + off = i * s ∧ off < vrSingleAllocLimit := by
  obtain ⟨hentries, hesize, hlimit, -, -⟩ := vrBtableAlloc_inv h
  have hlt : i < n := by
    rw [← hentries]
    apply lt_of_vrBtableGet
    rw [hget]
    rfl
  have hbytes : i * s < 2 ^ 32 :=
    lt_of_le_of_lt (Nat.mul_le_mul_right s (le_of_lt hlt)) hfit.bytes
  unfold vrBtableGet at hget
  rw [if_neg (by omega)] at hget
  simp only [hesize, hlimit, Nat.mod_eq_of_lt hfit.esize, Nat.mod_eq_of_lt hbytes] at hget
  split at hget
  · cases hget
  · cases hget
    exact ⟨hlt, Nat.div_add_mod _ _, Nat.mod_lt _ (by decide)⟩

/-- Each entry lies inside its partition. The entry size divides the partition size as soon as
there is a full partition, so that no entry crosses into the next one. -/
theorem vrBtableGet_inBounds {i part off : Nat} (hget : vrBtableGet b i = some (part, off)) :
    off + s ≤ b.vbMemSize part := by
  obtain ⟨hlt, hpos, hoff⟩ := vrBtableGet_eq hfit h hget
  obtain ⟨-, -, -, hmem, hfactor⟩ := vrBtableAlloc_inv h
  have hend : (i + 1) * s ≤ n * s := Nat.mul_le_mul_right s hlt
  rw [Nat.add_mul] at hend
  rw [Nat.mod_eq_of_lt hfit.bytes] at hmem hfactor
  have hdiv := Nat.div_add_mod (n * s) vrSingleAllocLimit
  rw [hmem]
  by_cases hpart : part < n * s / vrSingleAllocLimit
  · -- a full partition: the offset is a multiple of the entry size, as the limit is
    rw [if_pos hpart]
    obtain ⟨k, hk⟩ := Nat.dvd_of_mod_eq_zero (hfactor (by omega))
    have hoffdvd : s ∣ off := by
      have hdvd : s ∣ vrSingleAllocLimit * part + off := ⟨i, by rw [hpos, Nat.mul_comm]⟩
      have hlim : s ∣ vrSingleAllocLimit * part := ⟨k * part, by rw [hk, Nat.mul_assoc]⟩
      exact (Nat.dvd_add_right hlim).mp hdvd
    obtain ⟨m, rfl⟩ := hoffdvd
    rw [hk] at hoff ⊢
    have hmk : m < k := Nat.lt_of_mul_lt_mul_left hoff
    calc s * m + s = s * (m + 1) := by rw [Nat.mul_add, Nat.mul_one]
      _ ≤ s * k := Nat.mul_le_mul_left s hmk
  · -- the last partition holds what is left over
    rw [if_neg hpart]
    have hpart' : part ≤ n * s / vrSingleAllocLimit := by
      rw [Nat.le_div_iff_mul_le (by decide), Nat.mul_comm]
      omega
    have heq : part = n * s / vrSingleAllocLimit := by omega
    rw [heq] at hpos
    omega

theorem vrBtableGet_disjoint {i j part part' off off' : Nat} (hij : i ≠ j)
    (hi : vrBtableGet b i = some (part, off)) (hj : vrBtableGet b j = some (part', off')) :
    part ≠ part' ∨ off + s ≤ off' ∨ off' + s ≤ off := by
  obtain ⟨-, hpos, -⟩ := vrBtableGet_eq hfit h hi
  obtain ⟨-, hpos', -⟩ := vrBtableGet_eq hfit h hj
  by_cases hpart : part = part'
  · subst hpart
    rcases Nat.lt_or_gt_of_ne hij with hlt | hgt
    · have := Nat.mul_le_mul_right s hlt
      rw [Nat.succ_mul] at this
      omega
    · have := Nat.mul_le_mul_right s hgt
      rw [Nat.succ_mul] at this
      omega
  · exact Or.inl hpart

end

end VRouter
