import Mathlib.Tactic

/-!
# Pieces of an interval

A list of pieces, each with a start and an end, that cut `[0, n)`: no two overlap, and together they
cover it. The pieces may be listed in any order.

* `Pieces.sum_length`: their lengths add up to `n`;
* `Pieces.stop_le`, `Pieces.exists_last`: none goes beyond `n`, and one ends there.
-/

variable {α : Type} {start stop : α → Nat} {n : Nat} {l : List α}

/-- The pieces `l` cut `[0, n)`. -/
structure Pieces (start stop : α → Nat) (n : Nat) (l : List α) : Prop where
  apart : l.Pairwise fun a b => stop a ≤ start b ∨ stop b ≤ start a
  cover : ∀ k, k < n ↔ ∃ a ∈ l, start a ≤ k ∧ k < stop a

namespace Pieces

/-- The points of the pieces. -/
def points (start stop : α → Nat) (l : List α) : Finset Nat :=
  l.foldr (fun a s => Finset.Ico (start a) (stop a) ∪ s) ∅

theorem mem_points {k : Nat} : k ∈ points start stop l ↔ ∃ a ∈ l, start a ≤ k ∧ k < stop a := by
  induction l with
  | nil => simp [points]
  | cons a l ih =>
    show k ∈ Finset.Ico (start a) (stop a) ∪ points start stop l ↔ _
    rw [Finset.mem_union, Finset.mem_Ico, ih, List.exists_mem_cons_iff]

theorem card_points (h : l.Pairwise fun a b => stop a ≤ start b ∨ stop b ≤ start a) :
    (points start stop l).card = (l.map fun a => stop a - start a).sum := by
  induction l with
  | nil => rfl
  | cons a l ih =>
    obtain ⟨ha, hl⟩ := List.pairwise_cons.mp h
    have hdisjoint : Disjoint (Finset.Ico (start a) (stop a)) (points start stop l) := by
      rw [Finset.disjoint_left]
      intro k hk hkl
      obtain ⟨b, hb, hkb⟩ := mem_points.mp hkl
      rw [Finset.mem_Ico] at hk
      have hab := ha b hb
      omega
    show (Finset.Ico (start a) (stop a) ∪ points start stop l).card = _
    rw [Finset.card_union_of_disjoint hdisjoint, Nat.card_Ico, ih hl, List.map_cons, List.sum_cons]

theorem sum_length (h : Pieces start stop n l) : (l.map fun a => stop a - start a).sum = n := by
  have hpoints : points start stop l = Finset.range n := by
    ext k
    rw [mem_points, Finset.mem_range, h.cover]
  rw [← card_points h.apart, hpoints, Finset.card_range]

theorem stop_le (h : Pieces start stop n l) {a : α} (ha : a ∈ l) (hlt : start a < stop a) :
    stop a ≤ n := by
  have hlast := (h.cover (stop a - 1)).mpr ⟨a, ha, by omega, by omega⟩
  omega

theorem exists_last (h : Pieces start stop n l) (hn : 0 < n) : ∃ a ∈ l, stop a = n := by
  obtain ⟨a, ha, hstart, hstop⟩ := (h.cover (n - 1)).mp (by omega)
  have hle := h.stop_le ha (by omega)
  exact ⟨a, ha, by omega⟩

end Pieces
