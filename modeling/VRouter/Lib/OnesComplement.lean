import Mathlib.Tactic

/-!
# One's complement sums

Addition with end-around carry on numbers up to an all-ones value `M`, as in the internet checksum.
Zero has two representations, `0` and `M`. A sum of words is the residue of the plain sum modulo
`M`, and it is the representation `0` only if all words are zero (`sum_eq_canon`). So a checksum is
an argument about residues, made in `ZMod M`, and a side argument that something is not zero.
-/

namespace OnesComplement

variable {M : Nat}

/-- Addition with end-around carry. -/
def endAround (M a b : Nat) : Nat := if a + b ≤ M then a + b else a + b - M

/-- The representation a sum of natural number value `n` ends up in. -/
def canon (M n : Nat) : Nat := if n = 0 then 0 else (n - 1) % M + 1

/-- The one's complement sum of some words. -/
def sum (M : Nat) (ws : List Nat) : Nat := ws.foldl (endAround M) 0

theorem endAround_cast {N : Nat} (hN : N ∣ M) (a b : Nat) :
    ((endAround M a b : Nat) : ZMod N) = a + b := by
  unfold endAround
  split
  · push_cast
    rfl
  next h =>
    rw [Nat.cast_sub (by omega), (ZMod.natCast_eq_zero_iff M N).mpr hN]
    push_cast
    rw [sub_zero]

theorem endAround_le {a b : Nat} (ha : a ≤ M) (hb : b ≤ M) : endAround M a b ≤ M := by
  unfold endAround
  split
  · assumption
  · omega

theorem endAround_eq_zero (M a b : Nat) : endAround M a b = 0 ↔ a = 0 ∧ b = 0 := by
  unfold endAround
  split
  · omega
  · omega

theorem canon_le (hM : 0 < M) (n : Nat) : canon M n ≤ M := by
  unfold canon
  split
  · omega
  · have := Nat.mod_lt (n - 1) hM
    omega

theorem canon_eq_zero (M n : Nat) : canon M n = 0 ↔ n = 0 := by
  unfold canon
  split
  · omega
  · omega

theorem canon_cast (M n : Nat) : ((canon M n : Nat) : ZMod M) = n := by
  unfold canon
  split
  next h => rw [h]
  next h =>
    push_cast
    rw [ZMod.natCast_mod, Nat.cast_sub (by omega)]
    ring

/-- Two numbers up to `M` of one residue are the same, except for the two zeros. -/
theorem eq_or_zeros {a b : Nat} (ha : a ≤ M) (hb : b ≤ M) (h : (a : ZMod M) = b) :
    a = b ∨ a = 0 ∧ b = M ∨ a = M ∧ b = 0 := by
  rw [ZMod.natCast_eq_natCast_iff] at h
  rcases Nat.le_total a b with hle | hle
  · obtain ⟨k, hk⟩ := (Nat.modEq_iff_dvd' hle).mp h
    rcases k with _ | _ | k
    · omega
    · omega
    · have : M * 2 ≤ M * (k + 1 + 1) := Nat.mul_le_mul_left M (by omega)
      omega
  obtain ⟨k, hk⟩ := (Nat.modEq_iff_dvd' hle).mp h.symm
  rcases k with _ | _ | k
  · omega
  · omega
  · have : M * 2 ≤ M * (k + 1 + 1) := Nat.mul_le_mul_left M (by omega)
    omega

/-- A number up to `M` with the residue of `n` is the representation of `n`, if it is zero only
where `n` is. -/
theorem eq_canon (hM : 0 < M) {a n : Nat} (ha : a ≤ M) (h : (a : ZMod M) = n)
    (hzero : a = 0 ↔ n = 0) : a = canon M n := by
  have hn := canon_eq_zero M n
  rcases eq_or_zeros ha (canon_le hM n) (h.trans (canon_cast M n).symm) with
    heq | ⟨h0, hM'⟩ | ⟨h0, hM'⟩
  · exact heq
  · omega
  · omega

/-- Sums with the same residue have the same representation, unless only one of them is zero. -/
theorem canon_congr (hM : 0 < M) {a b : Nat} (h : (a : ZMod M) = b) (hzero : a = 0 ↔ b = 0) :
    canon M a = canon M b := by
  refine eq_canon hM (canon_le hM a) ?_ ?_
  · rw [canon_cast, h]
  · rw [canon_eq_zero, hzero]

theorem endAround_canon (hM : 0 < M) {a b x y : Nat} (ha : a = canon M x) (hb : b = canon M y) :
    endAround M a b = canon M (x + y) := by
  apply eq_canon hM
  · rw [ha, hb]
    exact endAround_le (canon_le hM x) (canon_le hM y)
  · rw [endAround_cast dvd_rfl, ha, hb, canon_cast, canon_cast]
    push_cast
    rfl
  · rw [endAround_eq_zero, ha, hb, canon_eq_zero, canon_eq_zero]
    omega

theorem canon_of_le {w : Nat} (hw : w ≤ M) : w = canon M w := by
  unfold canon
  split
  · assumption
  · rw [Nat.mod_eq_of_lt (by omega)]
    omega

theorem sum_eq_canon (hM : 0 < M) {ws : List Nat} (hws : ∀ w ∈ ws, w ≤ M) :
    sum M ws = canon M ws.sum := by
  -- the accumulator is the representation of what has been added so far
  have hfold : ∀ (ws : List Nat) (acc n : Nat), (∀ w ∈ ws, w ≤ M) → acc = canon M n →
      ws.foldl (endAround M) acc = canon M (n + ws.sum) := by
    intro ws
    induction ws with
    | nil =>
      intro acc n _ hacc
      exact hacc
    | cons w ws ih =>
      intro acc n hws hacc
      rw [List.sum_cons, ← Nat.add_assoc]
      apply ih _ _ fun x hx => hws x (List.mem_cons_of_mem _ hx)
      exact endAround_canon hM hacc (canon_of_le (hws w List.mem_cons_self))
  have := hfold ws 0 0 hws rfl
  rwa [Nat.zero_add] at this

theorem canon_eq_all_ones (hM : 0 < M) (n : Nat) : canon M n = M ↔ (n : ZMod M) = 0 ∧ n ≠ 0 := by
  constructor
  · intro h
    refine ⟨?_, fun hn => ?_⟩
    · rw [← canon_cast, h, ZMod.natCast_self]
    · rw [(canon_eq_zero M n).mpr hn] at h
      omega
  · intro ⟨hcast, hn⟩
    refine (eq_canon hM le_rfl ?_ (by omega)).symm
    rw [hcast, ZMod.natCast_self]

/-! ## Folding -/

/-- Fold a number of twice the width: add its halves and the carry of that. -/
def fold (B n : Nat) : Nat :=
  let s := n / B + n % B
  if s / B ≠ 0 then s % B + 1 else s

theorem base_cast {B : Nat} (hB : 1 < B) : ((B : Nat) : ZMod (B - 1)) = 1 := by
  have h : ((B - 1 + 1 : Nat) : ZMod (B - 1)) = 1 := by
    push_cast
    rw [ZMod.natCast_self, zero_add]
  rwa [Nat.sub_add_cancel (by omega)] at h

theorem halves_cast {B : Nat} (hB : 1 < B) (n : Nat) :
    ((n / B + n % B : Nat) : ZMod (B - 1)) = n := by
  have hn : (n : ZMod (B - 1)) = ((B * (n / B) + n % B : Nat) : ZMod (B - 1)) := by
    rw [Nat.div_add_mod]
  rw [hn]
  push_cast
  rw [base_cast hB, one_mul]

theorem fold_eq_canon {B n : Nat} (hB : 1 < B) (hn : n < B * B) : fold B n = canon (B - 1) n := by
  have hq : n / B < B := Nat.div_lt_of_lt_mul hn
  have hr : n % B < B := Nat.mod_lt _ (by omega)
  have hzero : n / B + n % B = 0 ↔ n = 0 := by
    have := Nat.div_add_mod n B
    constructor
    · intro h
      obtain ⟨hdiv, hmod⟩ := Nat.add_eq_zero_iff.mp h
      rw [← this, hdiv, hmod, Nat.mul_zero]
    · rintro rfl
      rw [Nat.zero_div, Nat.zero_mod]
  have hcast := halves_cast hB n
  unfold fold
  dsimp only
  have hs : n / B + n % B ≤ 2 * (B - 1) := by omega
  generalize n / B + n % B = s at hcast hzero hs ⊢
  rcases Nat.lt_or_ge s B with hlt | hge
  · rw [Nat.div_eq_of_lt hlt, if_neg (by simp)]
    exact eq_canon (by omega) (by omega) hcast hzero
  have hdiv : s / B = 1 := Nat.div_eq_of_lt_le (by omega) (by omega)
  have hmod : s % B = s - B := by
    have := Nat.div_add_mod s B
    rw [hdiv] at this
    omega
  rw [if_pos (by omega), hmod]
  apply eq_canon (by omega) (by omega)
  · rw [← hcast, Nat.cast_add, Nat.cast_sub hge, base_cast hB]
    ring
  · omega

end OnesComplement
