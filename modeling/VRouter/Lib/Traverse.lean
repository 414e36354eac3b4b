import Mathlib.Tactic

/-!
# Traversals that a callback can stop

A traversal calls `visit` on one item after another and threads a state. A call returns a number
next to the new state, and a number that is not positive stops the traversal: this is the
convention of the `dump` and `traverse` functions of C code.

* `traverse_flatMap` — a nested traversal is a traversal of the flattened list, up to the number
  returned by a traversal that was not stopped
* `traverse_filter` — items that are skipped may be left out
-/

namespace Traverse

variable {ι κ β : Type}

/-- Call `visit` on the items in order until it returns a number that is not positive. -/
def traverse (visit : ι → Int × β → Int × β) : List ι → Int × β → Int × β
  | [], r => r
  | i :: is, r => if (visit i r).1 ≤ 0 then visit i r else traverse visit is (visit i r)

/-- Two outcomes are the same to a caller that only asks whether the traversal was stopped. -/
def Agree (r s : Int × β) : Prop := (r.1 ≤ 0 ↔ s.1 ≤ 0) ∧ r.2 = s.2

theorem Agree.refl (r : Int × β) : Agree r r := ⟨Iff.rfl, rfl⟩

theorem Agree.trans {r s t : Int × β} (h₁ : Agree r s) (h₂ : Agree s t) : Agree r t :=
  ⟨h₁.1.trans h₂.1, h₁.2.trans h₂.2⟩

/-- A visit that looks at the state only, and not at the number before it. -/
def Stateless (visit : ι → Int × β → Int × β) : Prop :=
  ∀ i r s, Agree r s → 0 < r.1 → Agree (visit i r) (visit i s)

/-- A traversal depends on the number it starts with as little as its visits do. -/
theorem traverse_agree {visit visit' : ι → Int × β → Int × β} {is : List ι}
    (hvisit : ∀ i ∈ is, ∀ r s, Agree r s → 0 < r.1 → Agree (visit i r) (visit' i s)) {r s : Int × β}
    (h : Agree r s) (hr : 0 < r.1) : Agree (traverse visit is r) (traverse visit' is s) := by
  induction is generalizing r s with
  | nil => exact h
  | cons i is ih =>
    have hi := hvisit i List.mem_cons_self r s h hr
    rw [traverse, traverse]
    by_cases hstop : (visit i r).1 ≤ 0
    · rw [if_pos hstop, if_pos (hi.1.mp hstop)]
      exact hi
    · rw [if_neg hstop, if_neg fun h => hstop (hi.1.mpr h)]
      exact ih (fun j hj => hvisit j (List.mem_cons_of_mem _ hj)) hi (Int.lt_of_not_ge hstop)

theorem traverse_append (visit : ι → Int × β → Int × β) (is js : List ι) (r : Int × β)
    (hr : 0 < r.1) :
    traverse visit (is ++ js) r =
      if (traverse visit is r).1 ≤ 0 then traverse visit is r
      else traverse visit js (traverse visit is r) := by
  induction is generalizing r with
  | nil =>
    rw [List.nil_append, traverse, if_neg (Int.not_le.mpr hr)]
  | cons i is ih =>
    rw [List.cons_append, traverse, traverse]
    by_cases hstop : (visit i r).1 ≤ 0
    · rw [if_pos hstop, if_pos hstop, if_pos hstop]
    · rw [if_neg hstop, if_neg hstop, ih _ (Int.lt_of_not_ge hstop)]

/-- A nested traversal visits the concatenation of what its parts visit. -/
theorem traverse_flatMap {visit : ι → Int × β → Int × β} {inner : κ → Int × β → Int × β}
    (parts : ι → List κ) {is : List ι} (hinner : Stateless inner)
    (hparts : ∀ i ∈ is, ∀ r, 0 < r.1 → Agree (visit i r) (traverse inner (parts i) r)) {r : Int × β}
    (hr : 0 < r.1) : Agree (traverse visit is r) (traverse inner (is.flatMap parts) r) := by
  induction is generalizing r with
  | nil => exact Agree.refl _
  | cons i is ih =>
    have hi := hparts i List.mem_cons_self r hr
    rw [List.flatMap_cons, traverse, traverse_append _ _ _ _ hr]
    by_cases hstop : (visit i r).1 ≤ 0
    · rw [if_pos hstop, if_pos (hi.1.mp hstop)]
      exact hi
    · have hpos : 0 < (visit i r).1 := Int.lt_of_not_ge hstop
      rw [if_neg hstop, if_neg fun h => hstop (hi.1.mpr h)]
      exact (ih (fun j hj => hparts j (List.mem_cons_of_mem _ hj)) hpos).trans
        (traverse_agree (fun k _ r s h hp => hinner k r s h hp) hi hpos)

theorem traverse_filter (visit : ι → Int × β → Int × β) (p : ι → Bool) (is : List ι)
    (hskip : ∀ i ∈ is, p i = false → ∀ r, visit i r = r) {r : Int × β} (hr : 0 < r.1) :
    traverse visit is r = traverse visit (is.filter p) r := by
  induction is generalizing r with
  | nil => rfl
  | cons i is ih =>
    have ih' := fun {r : Int × β} => @ih (fun j hj => hskip j (List.mem_cons_of_mem _ hj)) r
    cases hp : p i with
    | true =>
      rw [List.filter_cons_of_pos hp, traverse, traverse]
      split
      · rfl
      · rename_i hstop
        exact ih' (Int.lt_of_not_ge hstop)
    | false =>
      rw [List.filter_cons_of_neg (by rw [hp]; exact Bool.false_ne_true), traverse,
        hskip i List.mem_cons_self hp, if_neg (Int.not_le.mpr hr)]
      exact ih' hr

end Traverse
