import Mathlib.Tactic

/-!
# Items in exactly one place

A set of items, a set of places, and for each place the list of the items it holds.
`Placement dom place cont` says that the lists together hold every item of `dom` exactly once:
`cont p` lists without repetition the items whose `place` is `p`. The lists may be read off
pointer structures or queues; what the rules below need of them is their elements only.

* `Placement.existsUnique` — each item is in exactly one place, once;
* `Placement.move` — one item changes its place;
* `Placement.moveAll` — a whole place is emptied into another one.
-/

variable {α P : Type}

/-- `cont p` lists the items placed at `p`, each once. -/
structure Placement (dom : α → Prop) (place : α → P) (cont : P → List α) : Prop where
  nodup : ∀ p, (cont p).Nodup
  mem : ∀ p a, a ∈ cont p ↔ dom a ∧ place a = p

namespace Placement

open Function

variable {dom : α → Prop} {place : α → P} {cont cont' : P → List α}

variable {a : α} {p q : P}

section

variable (h : Placement dom place cont)
include h

theorem existsUnique (ha : dom a) : ∃! p, a ∈ cont p := by
  refine ⟨place a, (h.mem _ _).mpr ⟨ha, rfl⟩, ?_⟩
  intro p hp
  exact ((h.mem p a).mp hp).2.symm

theorem dom_of_mem (ha : a ∈ cont p) : dom a :=
  ((h.mem p a).mp ha).1

theorem place_of_mem (ha : a ∈ cont p) : place a = p :=
  ((h.mem p a).mp ha).2

theorem notMem_of_ne (ha : a ∈ cont p) (hpq : p ≠ q) : a ∉ cont q :=
  fun hq => hpq ((h.place_of_mem ha).symm.trans (h.place_of_mem hq))

end

variable [DecidableEq α] [DecidableEq P]

theorem move (h : Placement dom place cont) {l : List α} (hpq : p ≠ q) (hp : (cont p).Perm (a :: l))
    (hcp : cont' p = l) (hq : (cont' q).Perm (a :: cont q))
    (hrest : ∀ r, r ≠ p → r ≠ q → cont' r = cont r) :
    Placement dom (Function.update place a q) cont' := by
  have ha : a ∈ cont p := hp.mem_iff.mpr (by simp)
  have hnd := hp.nodup_iff.mp (h.nodup p)
  have haq := h.notMem_of_ne ha hpq
  constructor
  · intro r
    by_cases hrp : r = p
    · rw [hrp, hcp]
      exact (List.nodup_cons.mp hnd).2
    by_cases hrq : r = q
    · rw [hrq, hq.nodup_iff]
      exact List.nodup_cons.mpr ⟨haq, h.nodup q⟩
    · rw [hrest r hrp hrq]
      exact h.nodup r
  · intro r b
    -- the item moved is decided by its new place, every other item by its old one
    by_cases hba : b = a
    · subst hba
      by_cases hrq : r = q
      · subst hrq
        simp [hq.mem_iff, h.dom_of_mem ha]
      have hb : b ∉ cont' r := by
        by_cases hrp : r = p
        · rw [hrp, hcp]
          exact (List.nodup_cons.mp hnd).1
        · rw [hrest r hrp hrq]
          exact h.notMem_of_ne ha (Ne.symm hrp)
      simp [hb, Ne.symm hrq]
    · rw [update_of_ne hba, ← h.mem r b]
      by_cases hrp : r = p
      · rw [hrp, hcp, hp.mem_iff]
        simp [hba]
      · by_cases hrq : r = q
        · rw [hrq, hq.mem_iff]
          simp [hba]
        · rw [hrest r hrp hrq]

omit [DecidableEq α] in
theorem moveAll (h : Placement dom place cont) (hpq : p ≠ q) (hq : cont q = []) :
    Placement dom (fun a => if place a = p then q else place a)
      (Function.update (Function.update cont p []) q (cont p)) := by
  constructor
  · intro r
    by_cases hrq : r = q
    · subst hrq
      rw [update_self]
      exact h.nodup p
    rw [update_of_ne hrq]
    by_cases hrp : r = p
    · subst hrp
      rw [update_self]
      exact List.nodup_nil
    · rw [update_of_ne hrp]
      exact h.nodup r
  · intro r a
    have hqa : ¬ (dom a ∧ place a = q) := by
      rw [← h.mem, hq]
      exact List.not_mem_nil
    by_cases hrq : r = q
    · subst hrq
      rw [update_self, h.mem]
      by_cases hap : place a = p
      · simp [hap]
      · simp only [hap, and_false, if_false, hqa]
    rw [update_of_ne hrq]
    by_cases hrp : r = p
    · subst hrp
      by_cases hap : place a = r
      · simp [hap, Ne.symm hrq]
      · simp [hap]
    · rw [update_of_ne hrp, h.mem]
      by_cases hap : place a = p
      · simp [hap, Ne.symm hrp, Ne.symm hrq]
      · simp [hap]

end Placement
