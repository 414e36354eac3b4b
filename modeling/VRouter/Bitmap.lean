import Mathlib.Tactic

/-!
# VRouter — bitmaps (`vr_bitmap.c`)

A bitmap hands out free bits. Its words have 32 bits, and `vr_bitmap_alloc_bit` and
`vr_bitmap_clear_bit` count on that. `vr_bitmap_create` is meant to round the number of bits up to a
multiple of 64 but clears one bit of it, and `vr_bitmap_is_set_bit` looks for eight bits in a word.

`Bitmap.Serves` says what a bitmap is for: it agrees with the set of the bits that are allocated.
`bitmap_serves_never`: there is no number of bits for which it does so in every run.
-/

namespace VRouter

/-- `struct vr_bitmap`. -/
structure Bitmap where
  bmapBits : BitVec 32
  bmapSize : Nat
  bmapLastFreeStride : Nat
  bmapUsedBits : BitVec 32
  bmapData : List (BitVec 32)

/-- `VR_BITMAP_STRIDE_LEN`. -/
def vrBitmapStrideLen : Nat := 32

/-- `vr_ffs_32`: the lowest bit that is set, counted from one, or zero. -/
def vrFfs32 (data : BitVec 32) : Nat :=
  match (List.range 32).find? data.getLsbD with
  | some i => i + 1
  | none => 0

/-- The words of a bitmap. -/
def bitmapWords (nbits : BitVec 32) : Nat := (((nbits + 64) &&& ~~~64) / 8 / 4).toNat

/-- `vr_bitmap_create`. There is no bitmap without memory. -/
def vrBitmapCreate (zalloc : Bool) (nbits : BitVec 32) : Option Bitmap :=
  if zalloc then
    some ⟨nbits, bitmapWords nbits, 0, 0, List.replicate (bitmapWords nbits) 0⟩
  else none

namespace Bitmap

/-- The loop of `vr_bitmap_alloc_bit` over the strides that are `left`. There is no result if it
reads a word that is not there. -/
def allocLoop (b : Bitmap) : (left strideNum : Nat) → Option (Option Nat × Bitmap)
  | 0, _ => some (none, b)
  | left + 1, strideNum => do
    let strideNum := if b.bmapSize ≤ strideNum then 0 else strideNum
    let data ← b.bmapData[strideNum]?
    if data = 0xFFFFFFFF then b.allocLoop left (strideNum + 1)
    else
      match vrFfs32 (~~~data) with
      | 0 => b.allocLoop left (strideNum + 1)
      | freeBit + 1 =>
        -- nobody else writes the word, so the compare-and-swap succeeds
        some (some (strideNum * vrBitmapStrideLen + freeBit),
          { b with
            bmapLastFreeStride := strideNum
            bmapUsedBits := b.bmapUsedBits + 1
            bmapData := b.bmapData.set strideNum (data ||| 1#32 <<< freeBit) })

/-- `vr_bitmap_alloc_bit`, with the bit, or none for -1. -/
def vrBitmapAllocBit (b : Bitmap) : Option (Option Nat × Bitmap) :=
  if b.bmapBits - b.bmapUsedBits = 0 then some (none, b)
  else b.allocLoop b.bmapSize b.bmapLastFreeStride

/-- `vr_bitmap_is_set_bit`. -/
def vrBitmapIsSetBit (b : Bitmap) (bit : Nat) : Option Bool :=
  b.bmapData[bit / 8]?.map fun bitData => bitData &&& 1#32 <<< (bit % 8) != 0

/-- `vr_bitmap_clear_bit`. -/
def vrBitmapClearBit (b : Bitmap) (bit : Nat) : Option (Bool × Bitmap) :=
  if b.bmapBits.toNat ≤ bit then some (false, b)
  else
    b.bmapData[bit / vrBitmapStrideLen]?.map fun data =>
      (true,
        { b with
          bmapData := b.bmapData.set (bit / vrBitmapStrideLen)
            (data &&& ~~~(1#32 <<< (bit % vrBitmapStrideLen)))
          bmapUsedBits := b.bmapUsedBits - 1 })

/-- `vr_bitmap_used_bits`. -/
def vrBitmapUsedBits (b : Bitmap) : BitVec 32 := b.bmapUsedBits

/-- What a bitmap of `nbits` bits is for, when the bits in `used` have been allocated and not
cleared since. No function reads a word that is not there. -/
structure Serves (b : Bitmap) (nbits : BitVec 32) (used : Finset Nat) : Prop where
  alloc : ∃ ret b', b.vrBitmapAllocBit = some (ret, b') ∧
    (∀ bit, ret = some bit → bit < nbits.toNat ∧ bit ∉ used) ∧
    (ret = none → ∀ bit < nbits.toNat, bit ∈ used)
  isSet : ∀ bit < nbits.toNat, b.vrBitmapIsSetBit bit = some (decide (bit ∈ used))
  clear : ∀ bit ∈ used, b.vrBitmapClearBit bit ≠ none
  usedBits : b.vrBitmapUsedBits.toNat = used.card

end Bitmap

/-- The runs of a bitmap, with the bits that have been allocated and not cleared since. -/
inductive BitmapRun (nbits : BitVec 32) : Bitmap → Finset Nat → Prop where
  | create {b : Bitmap} (hcreate : vrBitmapCreate true nbits = some b) : BitmapRun nbits b ∅
  | alloc {b b' : Bitmap} {used : Finset Nat} {bit : Nat} (hrun : BitmapRun nbits b used)
      (halloc : b.vrBitmapAllocBit = some (some bit, b')) : BitmapRun nbits b' (insert bit used)
  | full {b b' : Bitmap} {used : Finset Nat} (hrun : BitmapRun nbits b used)
      (halloc : b.vrBitmapAllocBit = some (none, b')) : BitmapRun nbits b' used
  | clear {b b' : Bitmap} {used : Finset Nat} {bit : Nat} {ret : Bool}
      (hrun : BitmapRun nbits b used) (hbit : bit ∈ used)
      (hclear : b.vrBitmapClearBit bit = some (ret, b')) : BitmapRun nbits b' (used.erase bit)

/-- The bitmap after `m` allocations, all in its first word. -/
def firstBits (nbits : BitVec 32) (words m : Nat) : Bitmap :=
  ⟨nbits, words + 1, 0, BitVec.ofNat 32 m, BitVec.ofNat 32 (2 ^ m - 1) :: List.replicate words 0⟩

variable {nbits : BitVec 32} {words m : Nat}

theorem firstBits_alloc (hm : m < 9) (hbits : 9 ≤ nbits.toNat) :
    (firstBits nbits words m).vrBitmapAllocBit = some (some m, firstBits nbits words (m + 1)) := by
  have hfree : nbits - BitVec.ofNat 32 m ≠ 0 := by bv_omega
  have hword : BitVec.ofNat 32 (2 ^ m - 1) ≠ 0xFFFFFFFF ∧
      vrFfs32 (~~~BitVec.ofNat 32 (2 ^ m - 1)) = m + 1 ∧
      BitVec.ofNat 32 (2 ^ m - 1) ||| 1#32 <<< m = BitVec.ofNat 32 (2 ^ (m + 1) - 1) := by
    clear hfree
    revert m
    decide
  obtain ⟨hones, hffs, hset⟩ := hword
  unfold firstBits Bitmap.vrBitmapAllocBit
  dsimp only
  rw [if_neg hfree, Bitmap.allocLoop]
  show (if _ then _ else _) = _
  rw [if_neg hones, hffs]
  dsimp only
  rw [ite_self, hset, Nat.zero_mul, Nat.zero_add, BitVec.ofNat_add]
  rfl

/-- The first nine allocations give the bits below 9, if there is a word. -/
theorem firstBits_run (hwords : bitmapWords nbits = words + 1) (hbits : 9 ≤ nbits.toNat)
    (hm : m ≤ 9) : BitmapRun nbits (firstBits nbits words m) (Finset.range m) := by
  induction m with
  | zero =>
    refine .create ?_
    rw [vrBitmapCreate, hwords]
    rfl
  | succ m ih =>
    rw [Finset.range_add_one]
    exact .alloc (ih (by omega)) (firstBits_alloc hm hbits)

/-- **No bitmap serves its purpose.** If it has no word, the first allocation fails. Otherwise nine
allocations give the bits below 9, and bit 8 is looked for in the second word, which is zero or not
there. -/
theorem bitmap_serves_never (nbits : BitVec 32) (hpos : nbits ≠ 0) :
    ¬ ∀ b used, BitmapRun nbits b used → b.Serves nbits used := by
  intro hserves
  have hzero : 0 < nbits.toNat := by bv_omega
  cases hwords : bitmapWords nbits with
  | zero =>
    have hcreate : vrBitmapCreate true nbits = some ⟨nbits, 0, 0, 0, []⟩ := by
      rw [vrBitmapCreate, hwords]
      rfl
    obtain ⟨ret, b', halloc, -, hfull⟩ := (hserves _ _ (.create hcreate)).alloc
    rw [Bitmap.vrBitmapAllocBit, if_neg (by simpa using hpos)] at halloc
    cases halloc
    cases hfull rfl 0 hzero
  | succ words =>
    have hbits : 9 ≤ nbits.toNat := by
      by_contra hlt
      have hnone : ∀ n < 9, bitmapWords (BitVec.ofNat 32 n) = 0 := by decide
      have h := hnone nbits.toNat (by omega)
      rw [BitVec.ofNat_toNat, BitVec.setWidth_eq, hwords] at h
      cases h
    have hset := (hserves _ _ (firstBits_run hwords hbits le_rfl)).isSet 8 hbits
    cases words with
    | zero | succ => cases hset

theorem bitmap_serves_never_64 : ¬ ∀ b used, BitmapRun 64 b used → b.Serves 64 used :=
  bitmap_serves_never 64 (by decide)

/-- In a bitmap of 64 bits, bit 8 is allocated and not found. In one of 32 bits, it is looked for
behind the bitmap. In one of 16 bits, nothing can be allocated. -/
theorem bitmap_bit_not_found :
    (∃ b used, BitmapRun 64 b used ∧ 8 ∈ used ∧ b.vrBitmapIsSetBit 8 = some false) ∧
      (∃ b used, BitmapRun 32 b used ∧ 8 ∈ used ∧ b.vrBitmapIsSetBit 8 = none) ∧
      ∃ b, BitmapRun 16 b ∅ ∧ b.vrBitmapAllocBit = some (none, b) :=
  ⟨⟨_, _, @firstBits_run 64 3 9 rfl (by decide) le_rfl, by decide, rfl⟩,
    ⟨_, _, @firstBits_run 32 0 9 rfl (by decide) le_rfl, by decide, rfl⟩,
    _, .create rfl, rfl⟩

end VRouter
