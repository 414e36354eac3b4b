import VRouter.Htable.Ownership

/-!
# VRouter — next indices and the counter of used entries

A process that has mapped the table's memory follows the chains by `hentry_next_index`, where the
code itself follows `hentry_next`. `Indexed` says that the two agree, and that `ht_used_entries` is
right. It is kept by every write to an entry whose new link agrees and whose flag changes with the
counter (`Indexed.write`, `Indexed.relink`).
-/

namespace VRouter

open Htable

variable {t : Htable} {f : Hentry → Hentry} {e h i prev : Nat} {k : Int}

/-- The entries that have `VR_HENTRY_FLAG_VALID`. -/
def Htable.validEntries (t : Htable) : Finset Nat :=
  (Finset.range (t.htHentries + t.htOentries)).filter fun i => (t.hentry i).flagValid

/-- An entry that is not on the free list has the index of the entry its pointer leads to, and the
counter tells how many entries are valid. -/
structure Htable.Indexed (t : Htable) : Prop where
  links : ∀ i, i < t.htHentries ∨ (t.hentry i).flagInFreeList = false →
    (t.hentry i).hentryNextIndex = indexOf t (t.next i)
  used : t.htUsedEntries = t.validEntries.card % 2 ^ 32

theorem setFreeHead_modify (head : Option Nat) (j : Int) :
    ((t.setFreeHead head j).modify i f).addUsedEntries k =
      ((t.modify i f).addUsedEntries k).setFreeHead head j := rfl

theorem indexOf_modify (hindex : (f (t.hentry i)).hentryIndex = (t.hentry i).hentryIndex)
    (p : Option Nat) : indexOf (t.modify i f) p = indexOf t p := by
  cases p with
  | none => rfl
  | some j =>
    by_cases hji : j = i
    · subst hji
      simpa [indexOf] using hindex
    · simp only [indexOf, modify_of_ne _ _ _ hji]

theorem card_validEntries_modify (hi : i < t.htHentries + t.htOentries)
    (hk : ((f (t.hentry i)).flagValid.toNat : Int) = (t.hentry i).flagValid.toNat + k) :
    ((t.modify i f).validEntries.card : Int) = t.validEntries.card + k := by
  have hcard : ∀ t : Htable, i < t.htHentries + t.htOentries →
      t.validEntries.card = (t.validEntries.erase i).card + (t.hentry i).flagValid.toNat := by
    intro t hi
    cases hv : (t.hentry i).flagValid with
    | false =>
      rw [Finset.erase_eq_of_notMem (by simp [validEntries, hv])]
      rfl
    | true => exact (Finset.card_erase_add_one (by simp [validEntries, hi, hv])).symm
  have hrest : (t.modify i f).validEntries.erase i = t.validEntries.erase i := by
    ext j
    by_cases hj : j = i
    · simp [hj]
    · simp [validEntries, modify_of_ne _ _ _ hj]
  rw [hcard (t.modify i f) hi, hcard t hi, hrest, modify_self]
  omega

theorem resetValid_self (t : Htable) (i : Nat) :
    ((resetValid t i).hentry i).flagValid = false := by
  unfold resetValid
  split
  · simp
  · simp_all

namespace Htable.Indexed

variable (ht : t.Indexed)
include ht

section

variable (hindex : (f (t.hentry i)).hentryIndex = (t.hentry i).hentryIndex)
  (hlink : i < t.htHentries ∨ (f (t.hentry i)).flagInFreeList = false →
    (f (t.hentry i)).hentryNextIndex = indexOf t (f (t.hentry i)).hentryNext)
include hindex hlink

theorem links_modify (j : Nat)
    (hj : j < t.htHentries ∨ ((t.modify i f).hentry j).flagInFreeList = false) :
    ((t.modify i f).hentry j).hentryNextIndex = indexOf (t.modify i f) ((t.modify i f).next j) := by
  rw [indexOf_modify hindex, Htable.next]
  by_cases hji : j = i
  · subst hji
    rw [modify_self] at hj ⊢
    exact hlink hj
  · rw [modify_of_ne _ _ _ hji] at hj ⊢
    exact ht.links j hj

theorem write (hi : i < t.htHentries + t.htOentries)
    (hk : ((f (t.hentry i)).flagValid.toNat : Int) = (t.hentry i).flagValid.toNat + k) :
    ((t.modify i f).addUsedEntries k).Indexed := by
  refine ⟨ht.links_modify hindex hlink, ?_⟩
  have hcard := card_validEntries_modify hi hk
  have hused := ht.used
  show ((t.htUsedEntries + k) % 2 ^ 32).toNat = (t.modify i f).validEntries.card % 2 ^ 32
  omega

/-- A write that leaves `VR_HENTRY_FLAG_VALID` alone. -/
theorem relink (hvalid : (f (t.hentry i)).flagValid = (t.hentry i).flagValid) :
    (t.modify i f).Indexed := by
  refine ⟨ht.links_modify hindex hlink, ht.used.trans ?_⟩
  congr 2
  refine Finset.filter_congr fun j _ => ?_
  by_cases hji : j = i
  · rw [hji, modify_self, hvalid]
  · rw [modify_of_ne _ _ _ hji]

end

theorem unlinkOentry : (unlinkOentry t prev e).Indexed := by
  have h := ht.relink (i := prev) (f := fun x =>
    { x with hentryNext := t.next e, hentryNextIndex := indexOf t (t.next e) })
    rfl (fun _ => rfl) rfl
  exact h.relink rfl (h.links e) rfl

theorem setFreeHead (head : Option Nat) (k : Int) : (t.setFreeHead head k).Indexed :=
  ⟨ht.links, ht.used⟩

theorem returnFree (hv : (t.hentry e).flagValid = false) (he : t.htHentries ≤ e) :
    (t.returnFree e).Indexed :=
  setFreeHead (ht.relink rfl (fun h => by simp at h; omega) hv.symm) _ _

theorem chainFree (hv : (t.hentry e).flagValid = false) (he : e < t.htHentries + t.htOentries) :
    (t.chainFree h e).Indexed := by
  unfold Htable.chainFree linkOentry
  rw [← addUsedEntries_modify, setFreeHead_modify, modify_modify]
  refine relink (setFreeHead (ht.write rfl ?_ he ?_) _ _) rfl ?_ rfl
  · exact fun _ => indexOf_modify (i := e)
      (f := fun x => { x with hentryNext := none, flagInFreeList := false }) rfl _
  · simp [hv]
  · intro _
    simp [indexOf]

theorem resetValid (hi : i < t.htHentries + t.htOentries) : (resetValid t i).Indexed := by
  unfold VRouter.resetValid
  split
  · rename_i hv
    exact ht.write rfl (ht.links i) hi (by simp [hv])
  · exact ht

end Htable.Indexed

end VRouter
