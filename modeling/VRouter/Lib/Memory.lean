import VRouter.Lib.LongestMatch

/-!
# Byte memory of a little-endian machine

Memory is a function from addresses to bytes. Words of 16 and 32 bits are read and written low byte
first. `wordSum` adds up consecutive words; what a store does to it depends only on which byte of
which word it writes.
-/

namespace Memory

open Finset Function

/-- The contents of memory. -/
abbrev Bytes := Nat → Fin 256

variable (m : Bytes) (a v : Nat)

def load8 : Nat := (m a).val

def store8 : Bytes := update m a (Fin.ofNat 256 v)

def load16 : Nat := load8 m a + 256 * load8 m (a + 1)

def store16 : Bytes := store8 (store8 m a v) (a + 1) (v / 256)

def load32 : Nat := load16 m a + 65536 * load16 m (a + 2)

def store32 : Bytes := store16 (store16 m a v) (a + 2) (v / 65536)

variable {m a v}

theorem load8_lt : load8 m a < 256 := (m a).isLt

theorem load16_lt : load16 m a < 65536 := by
  unfold load16
  have hlow := load8_lt (m := m) (a := a)
  have hhigh := load8_lt (m := m) (a := a + 1)
  omega

theorem load32_lt : load32 m a < 2 ^ 32 := by
  unfold load32
  have hlow := load16_lt (m := m) (a := a)
  have hhigh := load16_lt (m := m) (a := a + 2)
  omega

/-! ## Stores -/

theorem load8_store8 : load8 (store8 m a v) a = v % 256 := by
  unfold load8 store8
  rw [update_self]
  rfl

theorem store8_congr {w : Nat} (h : v % 256 = w % 256) : store8 m a v = store8 m a w := by
  have hbyte : Fin.ofNat 256 v = Fin.ofNat 256 w := Fin.ext h
  unfold store8
  rw [hbyte]

variable {b k a j : Nat} {m' m : Bytes}

theorem load8_congr (h : m' a = m a) : load8 m' a = load8 m a := by
  unfold load8
  rw [h]

theorem load16_congr (h : ∀ b, a ≤ b → b < a + 2 → m' b = m b) : load16 m' a = load16 m a := by
  unfold load16
  rw [load8_congr (h a (by omega) (by omega)), load8_congr (h (a + 1) (by omega) (by omega))]

theorem load32_congr (h : ∀ b, a ≤ b → b < a + 4 → m' b = m b) : load32 m' a = load32 m a := by
  unfold load32
  rw [load16_congr fun b hb hlt => h b hb (by omega),
    load16_congr fun b hb hlt => h b (by omega) (by omega)]

theorem store8_of_ne (h : b ≠ a) : store8 m a v b = m b := by
  unfold store8
  rw [update_of_ne h]

theorem load8_store8_of_ne (h : b ≠ a) : load8 (store8 m a v) b = load8 m b :=
  load8_congr (store8_of_ne h)

theorem load16_store8_of_ne (h : b ≠ a) (h' : b + 1 ≠ a) :
    load16 (store8 m a v) b = load16 m b :=
  load16_congr fun _ _ _ => store8_of_ne (by omega)

theorem load16_store8_low : load16 (store8 m a v) a = v % 256 + 256 * load8 m (a + 1) := by
  unfold load16
  rw [load8_store8, load8_store8_of_ne (by omega)]

theorem load16_store8_high : load16 (store8 m (a + 1) v) a = load8 m a + 256 * (v % 256) := by
  unfold load16
  rw [load8_store8, load8_store8_of_ne (by omega)]

theorem store16_of_ne (h : b < a ∨ a + 2 ≤ b) : store16 m a v b = m b := by
  unfold store16
  rw [store8_of_ne (by omega), store8_of_ne (by omega)]

theorem store16_agree (h : m' b = m b) : store16 m' a v b = store16 m a v b := by
  unfold store16 store8
  simp only [update_apply, h]

theorem load8_store16_of_ne (h : b < a ∨ a + 2 ≤ b) : load8 (store16 m a v) b = load8 m b :=
  load8_congr (store16_of_ne h)

theorem load16_store16 : load16 (store16 m a v) a = v % 65536 := by
  unfold store16
  rw [load16_store8_high, load8_store8]
  omega

theorem load16_store16_of_ne (h : b + 2 ≤ a ∨ a + 2 ≤ b) :
    load16 (store16 m a v) b = load16 m b :=
  load16_congr fun _ _ _ => store16_of_ne (by omega)

theorem store32_of_ne (h : b < a ∨ a + 4 ≤ b) : store32 m a v b = m b := by
  unfold store32
  rw [store16_of_ne (by omega), store16_of_ne (by omega)]

/-- What a store writes does not depend on the memory. -/
theorem store32_within (h : a ≤ b) (h' : b < a + 4) : store32 m' a v b = store32 m a v b := by
  unfold store32 store16 store8
  simp only [update_apply]
  split
  · rfl
  split
  · rfl
  split
  · rfl
  · split
    · rfl
    · omega

theorem load8_store32_of_ne (h : b < a ∨ a + 4 ≤ b) : load8 (store32 m a v) b = load8 m b :=
  load8_congr (store32_of_ne h)

theorem load16_store32_of_ne (h : b + 2 ≤ a ∨ a + 4 ≤ b) :
    load16 (store32 m a v) b = load16 m b :=
  load16_congr fun _ _ _ => store32_of_ne (by omega)

theorem load16_store32_low : load16 (store32 m a v) a = v % 65536 := by
  unfold store32
  rw [load16_store16_of_ne (by omega), load16_store16]

theorem load16_store32_high : load16 (store32 m a v) (a + 2) = v / 65536 % 65536 := by
  unfold store32
  rw [load16_store16]

theorem load32_store32 : load32 (store32 m a v) a = v % 2 ^ 32 := by
  unfold load32
  rw [load16_store32_low, load16_store32_high]
  omega

theorem load32_store32_of_ne (h : b + 4 ≤ a ∨ a + 4 ≤ b) :
    load32 (store32 m a v) b = load32 m b :=
  load32_congr fun _ _ _ => store32_of_ne (by omega)

/-! ## Stores at high addresses -/

/-- Two memories with the same bytes below `n`. -/
def AgreeBelow (n : Nat) (m m' : Bytes) : Prop := ∀ b, b < n → m' b = m b

namespace AgreeBelow

variable {n : Nat} {m'' : Bytes}

theorem refl (n : Nat) (m : Bytes) : AgreeBelow n m m := fun _ _ => rfl

theorem trans (h : AgreeBelow n m m') (h' : AgreeBelow n m' m'') : AgreeBelow n m m'' :=
  fun b hb => (h' b hb).trans (h b hb)

theorem store16 (ha : n ≤ a) (v : Nat) : AgreeBelow n m (Memory.store16 m a v) :=
  fun _ hb => store16_of_ne (by omega)

theorem store32 (ha : n ≤ a) (v : Nat) : AgreeBelow n m (Memory.store32 m a v) :=
  fun _ hb => store32_of_ne (by omega)

theorem ite {c : Prop} [Decidable c] (h : AgreeBelow n m m') :
    AgreeBelow n m (if c then m' else m) := by
  split
  · exact h
  · exact refl n m

end AgreeBelow

/-! ## Stores at low addresses -/

/-- Two memories with the same bytes from `n` on. -/
def AgreeFrom (n : Nat) (m m' : Bytes) : Prop := ∀ b, n ≤ b → m' b = m b

namespace AgreeFrom

variable {n : Nat} {m'' : Bytes}

theorem refl (n : Nat) (m : Bytes) : AgreeFrom n m m := fun _ _ => rfl

theorem trans (h : AgreeFrom n m m') (h' : AgreeFrom n m' m'') : AgreeFrom n m m'' :=
  fun b hb => (h' b hb).trans (h b hb)

theorem mono (h : AgreeFrom n m m') (hk : n ≤ k) : AgreeFrom k m m' :=
  fun b hb => h b (by omega)

theorem store16 (ha : a + 2 ≤ n) (v : Nat) : AgreeFrom n m (Memory.store16 m a v) :=
  fun _ hb => store16_of_ne (by omega)

theorem store32 (ha : a + 4 ≤ n) (v : Nat) : AgreeFrom n m (Memory.store32 m a v) :=
  fun _ hb => store32_of_ne (by omega)

theorem load16 (h : AgreeFrom n m m') (hb : n ≤ b) : Memory.load16 m' b = Memory.load16 m b :=
  load16_congr fun c _ _ => h c (by omega)

theorem load32 (h : AgreeFrom n m m') (hb : n ≤ b) : Memory.load32 m' b = Memory.load32 m b :=
  load32_congr fun c _ _ => h c (by omega)

end AgreeFrom

/-! ## Copies -/

/-- The `n` bytes of `m'` from `a'` on are those of `m` from `a` on. -/
def Copies (n : Nat) (m : Bytes) (a : Nat) (m' : Bytes) (a' : Nat) : Prop :=
  ∀ i, i < n → m' (a' + i) = m (a + i)

namespace Copies

variable {n i a' : Nat}

theorem load8 (h : Copies n m a m' a') (hi : i < n) :
    Memory.load8 m' (a' + i) = Memory.load8 m (a + i) := by
  unfold Memory.load8
  rw [h i hi]

theorem load16 (h : Copies n m a m' a') (hi : i + 2 ≤ n) :
    Memory.load16 m' (a' + i) = Memory.load16 m (a + i) := by
  have hlow := h.load8 (i := i) (by omega)
  have hhigh := h.load8 (i := i + 1) (by omega)
  unfold Memory.load16
  rw [hlow, Nat.add_assoc, Nat.add_assoc, hhigh]

theorem load32 (h : Copies n m a m' a') (hi : i + 4 ≤ n) :
    Memory.load32 m' (a' + i) = Memory.load32 m (a + i) := by
  have hlow := h.load16 (i := i) (by omega)
  have hhigh := h.load16 (by omega)
  unfold Memory.load32
  rw [hlow, Nat.add_assoc, Nat.add_assoc, hhigh]

end Copies

/-! ## Sums of words -/

/-- The sum of `k` words from `a` on. -/
def wordSum (m : Bytes) (a k : Nat) : Nat := ∑ i ∈ Finset.range k, load16 m (a + 2 * i)

theorem wordSum_succ (m : Bytes) (a k : Nat) :
    wordSum m a (k + 1) = load16 m a + wordSum m (a + 2) k := by
  unfold wordSum
  rw [sum_range_succ', Nat.add_comm]
  congr 1
  apply sum_congr rfl
  intro i _
  rw [show a + 2 * (i + 1) = a + 2 + 2 * i by ring]

theorem wordSum_add (m : Bytes) (a j k : Nat) :
    wordSum m a (j + k) = wordSum m a j + wordSum m (a + 2 * j) k := by
  induction j generalizing a with
  | zero => simp [wordSum]
  | succ j ih =>
    rw [show j + 1 + k = j + k + 1 by ring, wordSum_succ, wordSum_succ, ih,
      show a + 2 + 2 * j = a + 2 * (j + 1) by ring, Nat.add_assoc]

theorem wordSum_le (m : Bytes) (a k : Nat) : wordSum m a k ≤ k * 65535 := by
  induction k generalizing a with
  | zero => exact le_rfl
  | succ k ih =>
    have hlt := load16_lt (m := m) (a := a)
    have hle := ih (a + 2)
    rw [wordSum_succ]
    omega

theorem wordSum_congr (h : ∀ i, i < k → load16 m' (a + 2 * i) = load16 m (a + 2 * i)) :
    wordSum m' a k = wordSum m a k :=
  sum_congr rfl fun i hi => h i (mem_range.mp hi)

theorem wordSum_change (hj : j < k) (h : ∀ i, i ≠ j → load16 m' (a + 2 * i) = load16 m (a + 2 * i))
    : wordSum m' a k + load16 m (a + 2 * j) = wordSum m a k + load16 m' (a + 2 * j) := by
  unfold wordSum
  have hmem : j ∈ range k := mem_range.mpr hj
  rw [← add_sum_erase _ _ hmem, ← add_sum_erase (range k)
    (fun i => load16 m (a + 2 * i)) hmem]
  have hrest : ∑ i ∈ (range k).erase j, load16 m' (a + 2 * i) =
      ∑ i ∈ (range k).erase j, load16 m (a + 2 * i) :=
    sum_congr rfl fun i hi => h i (ne_of_mem_erase hi)
  rw [hrest]
  ring

section

variable (hj : j < k)

include hj

theorem wordSum_store16 (hv : v < 65536) :
    wordSum (store16 m (a + 2 * j) v) a k + load16 m (a + 2 * j) = wordSum m a k + v := by
  rw [wordSum_change hj fun i hi => load16_store16_of_ne (by omega), load16_store16,
    Nat.mod_eq_of_lt hv]

theorem wordSum_store8_low (hv : v < 256) :
    wordSum (store8 m (a + 2 * j) v) a k + load8 m (a + 2 * j) = wordSum m a k + v := by
  have h : wordSum (store8 m (a + 2 * j) v) a k + load16 m (a + 2 * j) =
      wordSum m a k + load16 (store8 m (a + 2 * j) v) (a + 2 * j) :=
    wordSum_change hj fun i hi => load16_store8_of_ne (by omega) (by omega)
  rw [load16_store8_low] at h
  unfold load16 at h
  omega

theorem wordSum_store8_high (hv : v < 256) :
    wordSum (store8 m (a + 2 * j + 1) v) a k + 256 * load8 m (a + 2 * j + 1) =
      wordSum m a k + 256 * v := by
  have h : wordSum (store8 m (a + 2 * j + 1) v) a k + load16 m (a + 2 * j) =
      wordSum m a k + load16 (store8 m (a + 2 * j + 1) v) (a + 2 * j) :=
    wordSum_change hj fun i hi => load16_store8_of_ne (by omega) (by omega)
  rw [load16_store8_high] at h
  unfold load16 at h
  omega

end

theorem wordSum_store32 (hj : j + 1 < k) (hv : v < 2 ^ 32) :
    wordSum (store32 m (a + 2 * j) v) a k + (load16 m (a + 2 * j) + load16 m (a + 2 * j + 2)) =
      wordSum m a k + (v % 65536 + v / 65536) := by
  have hlow := wordSum_store16 (m := m) (a := a) (v := v % 65536) (j := j) (k := k) (by omega)
  have hhigh := wordSum_store16 (m := store16 m (a + 2 * j) v) (a := a) (v := v / 65536) hj
  rw [show a + 2 * (j + 1) = a + 2 * j + 2 by ring, load16_store16_of_ne (by omega)] at hhigh
  have hsame : store16 m (a + 2 * j) (v % 65536) = store16 m (a + 2 * j) v := by
    unfold store16
    rw [store8_congr (v := v % 65536) (w := v) (by omega),
      store8_congr (w := v / 256) (by omega)]
  rw [hsame] at hlow
  unfold store32
  omega

theorem wordSum_of_agree (h : ∀ b, a ≤ b → b < a + 2 * k → m' b = m b) :
    wordSum m' a k = wordSum m a k := by
  apply wordSum_congr
  intro i hi
  unfold load16 load8
  rw [h _ (by omega) (by omega), h _ (by omega) (by omega)]

end Memory
