import Mathlib.Tactic

/-!
# Counters in two words

A counter is kept in a low word of `w` bits and a high word of `v` bits. An addition is made to the
low word, and the high word is counted up if the sum is less than what was added.

* `WideCounter.add` — each wrap of the low word is counted once;
* `WideCounter.value` — the two words are the total modulo `2 ^ (w + v)`.
-/

/-- The two words of a counter that has counted `total`. -/
structure WideCounter (w v low high total : Nat) : Prop where
  low_eq : low = total % 2 ^ w
  high_eq : high = total / 2 ^ w % 2 ^ v

namespace WideCounter

variable {w v low high total x : Nat}

theorem zero : WideCounter w v 0 0 0 := by
  constructor <;> simp

theorem low_lt (h : WideCounter w v low high total) : low < 2 ^ w := by
  rw [h.low_eq]
  exact Nat.mod_lt _ (Nat.two_pow_pos w)

/-- The sum is less than what was added if and only if the low word has wrapped. -/
theorem add_mod_lt_iff (hlow : low < 2 ^ w) (hx : x < 2 ^ w) :
    (low + x) % 2 ^ w < x ↔ 2 ^ w ≤ low + x := by
  by_cases hwrap : 2 ^ w ≤ low + x
  · rw [Nat.mod_eq_sub_mod hwrap, Nat.mod_eq_of_lt (by omega)]
    omega
  · rw [Nat.mod_eq_of_lt (by omega)]
    omega

theorem add (h : WideCounter w v low high total) (hx : x < 2 ^ w) :
    WideCounter w v ((low + x) % 2 ^ w)
      (if (low + x) % 2 ^ w < x then (high + 1) % 2 ^ v else high) (total + x) := by
  constructor
  · rw [h.low_eq, Nat.mod_add_mod]
  rw [if_congr (add_mod_lt_iff h.low_lt hx) rfl rfl, Nat.add_div (Nat.two_pow_pos w),
    Nat.div_eq_of_lt hx, Nat.mod_eq_of_lt hx, ← h.low_eq, h.high_eq]
  split
  · rw [Nat.mod_add_mod]
  · rfl

theorem value (h : WideCounter w v low high total) : high * 2 ^ w + low = total % 2 ^ (w + v) := by
  rw [h.low_eq, h.high_eq, Nat.pow_add, Nat.mod_mul, Nat.mul_comm, Nat.add_comm]

end WideCounter
