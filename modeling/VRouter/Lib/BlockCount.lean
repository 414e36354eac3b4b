import VRouter.Lib.LongestMatch

/-!
# Counting the strings a prefix contains

`blocksIn p n l` is the set of strings of `l` octets that `p/n` contains, and `ncard_blocksIn`
its size: a prefix leaves `8 * l - n` bits of such a string open.
-/

namespace LongestMatch

/-- The strings of `l` octets that `p/n` contains. -/
def blocksIn (p : List Octet) (n l : Nat) : Set (List Octet) := {s | s.length = l ∧ Covers p n s}

theorem ncard_octets_with_top (x : Octet) {s : Nat} (hs : s ≤ 8) :
    {i : Octet | i.val / 2 ^ s = x.val / 2 ^ s}.ncard = 2 ^ s := by
  have himage : Fin.val '' {i : Octet | i.val / 2 ^ s = x.val / 2 ^ s} =
      (Finset.Ico (x.val / 2 ^ s * 2 ^ s) (x.val / 2 ^ s * 2 ^ s + 2 ^ s) : Set Nat) := by
    ext j
    rw [Finset.coe_Ico, Set.mem_Ico]
    constructor
    · rintro ⟨i, hi, rfl⟩
      rw [← hi]
      have := Nat.div_add_mod' i.val (2 ^ s)
      omega
    · rintro ⟨hlo, hhi⟩
      have hj : j / 2 ^ s = x.val / 2 ^ s :=
        Nat.div_eq_of_lt_le (by omega) (by rw [Nat.succ_mul]; exact hhi)
      have hlt : j < 256 := by interval_cases s <;> omega
      exact ⟨⟨j, hlt⟩, hj, rfl⟩
  rw [← Set.ncard_image_of_injective _ Fin.val_injective, himage, Set.ncard_coe_finset,
    Nat.card_Ico, Nat.add_sub_cancel_left]

theorem ncard_blocksIn (p : List Octet) (n l : Nat) (hn : n ≤ 8 * l) :
    (blocksIn p n l).ncard = 2 ^ (8 * l - n) := by
  induction l generalizing n with
  | zero =>
    obtain rfl : n = 0 := by omega
    have hone : blocksIn p 0 0 = {[]} := by
      ext s
      rw [blocksIn, Set.mem_ofPred_eq, List.length_eq_zero_iff]
      exact and_iff_left (covers_zero p s)
    rw [hone, Set.ncard_singleton]
    rfl
  | succ l ih =>
    have himage : blocksIn p n (l + 1) = (fun x : List Octet × Octet => x.1 ++ [x.2]) ''
        (blocksIn p (min n (8 * l)) l ×ˢ
          {i : Octet | i.val / 2 ^ (8 - (n - 8 * l)) =
            (octet p l).val / 2 ^ (8 - (n - 8 * l))}) := by
      ext t
      constructor
      · rintro ⟨hlen, hcov⟩
        obtain ⟨s, i, rfl⟩ := List.eq_nil_or_concat t |>.resolve_left (by rintro rfl; cases hlen)
        rw [List.concat_eq_append] at hlen hcov ⊢
        rw [List.length_append, List.length_singleton, Nat.add_right_cancel_iff] at hlen
        subst hlen
        have hsplit := (covers_append_split p s i hn).mp hcov
        exact ⟨(s, i), ⟨⟨rfl, hsplit.1⟩, hsplit.2⟩, rfl⟩
      · rintro ⟨⟨s, i⟩, ⟨⟨hlen, hs⟩, hi⟩, rfl⟩
        subst hlen
        exact ⟨by simp, (covers_append_split p s i hn).mpr ⟨hs, hi⟩⟩
    have hinj : Function.Injective fun x : List Octet × Octet => x.1 ++ [x.2] := by
      rintro ⟨s, i⟩ ⟨s', i'⟩ heq
      obtain ⟨rfl, hi⟩ := List.append_inj' heq rfl
      cases hi
      rfl
    rw [himage, Set.ncard_image_of_injective _ hinj, Set.ncard_prod, ih _ (min_le_right _ _),
      ncard_octets_with_top _ (by omega), ← Nat.pow_add]
    congr 1
    omega

end LongestMatch
