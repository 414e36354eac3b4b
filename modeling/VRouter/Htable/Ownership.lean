import VRouter.Htable.Table
import VRouter.Lib.Linked
import VRouter.Lib.Placement

/-!
# VRouter — who owns an overflow entry

An overflow entry is on the free list, in the chain of one main entry, waiting for its deferred
callback, or lost because that callback could not be allocated. `Owned` states this with the
pointer structures that go with it: the free list and the chains are linked lists, and together
with the queue of callbacks they hold every overflow entry exactly once. While an operation is
under way an entry may be detached, held by nothing but the operation itself.

The lemmas of this module are one for each thing an operation does to the table:

* `Owned.link` — an entry of the free list is chained behind a main entry;
* `Owned.unlink` — an entry is taken out of its chain;
* `Owned.invalidate` — a detached or waiting entry goes back to the free list;
* `Owned.detachChain` — a whole chain is taken from its main entry;
* `Owned.of_kept` — nothing but flags, counters and delete data changes.
-/

namespace VRouter

open Function Htable

/-- The overflow entries of a table. -/
def Htable.IsOverflow (t : Htable) (i : Nat) : Prop :=
  t.htHentries ≤ i ∧ i < t.htHentries + t.htOentries

variable {l : List Nat}

theorem Htable.length_le_of_isOverflow {t : Htable} (hnd : l.Nodup) (hl : ∀ i ∈ l, t.IsOverflow i) :
    l.length ≤ t.htOentries := by
  have hsub : l ⊆ List.range' t.htHentries t.htOentries := by
    intro i hi
    rw [List.mem_range'_1]
    exact hl i hi
  have hlen := (List.subperm_of_subset hnd hsub).length_le
  rwa [List.length_range'] at hlen

/-- Two versions of an entry that differ in their pointers at most. -/
def Hentry.SameState (a b : Hentry) : Prop :=
  a.hentryBucketIndex = b.hentryBucketIndex ∧ a.flagValid = b.flagValid ∧
    a.flagDeleteMarked = b.flagDeleteMarked ∧ a.flagDeleteProcessed = b.flagDeleteProcessed ∧
    a.flagInFreeList = b.flagInFreeList

theorem Hentry.SameState.refl (a : Hentry) : a.SameState a := ⟨rfl, rfl, rfl, rfl, rfl⟩

theorem unlinkOentry_next (t : Htable) (prev ent : Nat) :
    (unlinkOentry t prev ent).next = update t.next prev (t.next ent) := by
  unfold unlinkOentry
  rw [next_modify_of_eq _ _ _ rfl, next_modify]

/-- The first free entry `e`, taken off the free list and chained behind `h`. -/
def Htable.chainFree (t : Htable) (h e : Nat) : Htable :=
  linkOentry ((t.modify e fun x =>
    { x with hentryNext := none, flagInFreeList := false }).setFreeHead (t.next e) 1) h e

/-- The entry `e`, cleared and put at the head of the free list. -/
def Htable.returnFree (t : Htable) (e : Nat) : Htable :=
  (t.modify e fun x =>
    { x with
      flagValid := false
      flagDeleteMarked := false
      flagDeleteProcessed := false
      flagInFreeList := true
      hentryBucketIndex := vrInvalidHentryIndex
      hentryNextIndex := vrInvalidHentryIndex
      hentryNext := t.htFreeOentryHead }).setFreeHead (some e) (-1)

/-- An overflow entry that has just been chained behind `h`. -/
structure Hentry.LinkedBehind (e : Hentry) (h : Nat) : Prop where
  bucket : e.hentryBucketIndex = h
  valid : e.flagValid = true
  marked : e.flagDeleteMarked = false
  free : e.flagInFreeList = false

section

variable {t : Htable} {h e i : Nat}

theorem chainFree_linked (hhe : h ≠ e) : ((t.chainFree h e).hentry e).LinkedBehind h := by
  unfold chainFree linkOentry
  constructor <;> simp [modify_of_ne, hhe.symm]

theorem returnFree_of_ne (hie : i ≠ e) : (t.returnFree e).hentry i = t.hentry i := by
  unfold returnFree
  rw [setFreeHead_hentry, modify_of_ne _ _ _ hie]

theorem returnFree_next : (t.returnFree e).next = update t.next e t.htFreeOentryHead := by
  unfold returnFree
  rw [setFreeHead_next, next_modify]

theorem linkOentry_shape : (linkOentry t h e).shape = t.shape := rfl

theorem chainFree_shape : (t.chainFree h e).shape = t.shape := linkOentry_shape

theorem chainFree_deleteData : (t.chainFree h e).deleteData = t.deleteData := by
  simp [chainFree, linkOentry]

theorem chainFree_of_ne (hie : i ≠ e) (hih : i ≠ h) : (t.chainFree h e).hentry i = t.hentry i := by
  simp [chainFree, linkOentry, modify_of_ne, hie, hih]

/-- The main entry gets a new pointer and keeps all else. -/
theorem chainFree_kept (hie : i ≠ e) :
    ((t.chainFree h e).hentry i).flagValid = (t.hentry i).flagValid ∧
      ((t.chainFree h e).hentry i).hentryBucketIndex = (t.hentry i).hentryBucketIndex ∧
      ((t.chainFree h e).hentry i).hentryIndex = (t.hentry i).hentryIndex := by
  by_cases hih : i = h
  · subst hih
    simp [chainFree, linkOentry, modify_of_ne, hie]
  · rw [chainFree_of_ne hie hih]
    exact ⟨rfl, rfl, rfl⟩

end

/-! ## Ownership -/

/-- Where an overflow entry can be. -/
inductive HtPlace where
  | free
  | chain (head : Nat)
  | waiting
  | lost
  | detached
  deriving DecidableEq

/-- The table owns its overflow entries as `cont` lists them. -/
structure Owned (t : Htable) (place : Nat → HtPlace) (cont : HtPlace → List Nat) : Prop where
  index : ∀ i, i < t.htHentries + t.htOentries → (t.hentry i).hentryIndex = i
  placed : Placement t.IsOverflow place cont
  free : Linked t.next t.htFreeOentryHead (cont .free)
  chain : ∀ h, h < t.htHentries → Linked t.next (some h) (h :: cont (.chain h))
  head_lt : ∀ h i, i ∈ cont (.chain h) → h < t.htHentries
  bucket : ∀ h i, i ∈ cont (.chain h) → (t.hentry i).hentryBucketIndex = h
  used : t.htUsedOentries + (cont .free).length = t.htOentries
  flagFree : ∀ i, t.IsOverflow i → ((t.hentry i).flagInFreeList = true ↔ i ∈ cont .free)
  valid : ∀ i, t.IsOverflow i → (t.hentry i).flagValid = true →
    (∃ h, i ∈ cont (.chain h)) ∨ i ∈ cont .detached
  marked : ∀ i, t.IsOverflow i → (t.hentry i).flagDeleteMarked = true →
    (t.hentry i).flagValid = false
  processed : ∀ h i, i ∈ cont (.chain h) → (t.hentry i).flagDeleteProcessed = false

namespace Owned

variable {t t' : Htable} {place : Nat → HtPlace} {cont : HtPlace → List Nat} {e h : Nat}

section

variable (ho : Owned t place cont)
include ho

theorem length_le (p : HtPlace) : (cont p).length ≤ t.htOentries :=
  length_le_of_isOverflow (ho.placed.nodup p) fun _ hi => ho.placed.dom_of_mem hi

theorem free_length_lt (he : t.IsOverflow e) (hf : e ∉ cont .free) :
    (cont .free).length < t.htOentries := by
  have hnd : (e :: cont .free).Nodup := List.nodup_cons.mpr ⟨hf, ho.placed.nodup .free⟩
  have hlen : (e :: cont .free).length ≤ t.htOentries := by
    apply length_le_of_isOverflow hnd
    intro i hi
    rcases List.mem_cons.mp hi with rfl | hi
    · exact he
    · exact ho.placed.dom_of_mem hi
  rw [List.length_cons] at hlen
  omega

/-- Only flags, counters and delete data have changed, no entry has become valid that was not,
and marked entries are not valid. -/
theorem of_kept (hE : t'.htHentries = t.htHentries)
    (hO : t'.htOentries = t.htOentries) (hhead : t'.htFreeOentryHead = t.htFreeOentryHead)
    (hused : t'.htUsedOentries = t.htUsedOentries) (hnext : t'.next = t.next)
    (hkept : ∀ i, (t'.hentry i).hentryIndex = (t.hentry i).hentryIndex ∧
      (t.IsOverflow i → (t'.hentry i).hentryBucketIndex = (t.hentry i).hentryBucketIndex ∧
        (t'.hentry i).flagInFreeList = (t.hentry i).flagInFreeList ∧
        (t'.hentry i).flagDeleteProcessed = (t.hentry i).flagDeleteProcessed ∧
        ((t'.hentry i).flagValid = true → (t.hentry i).flagValid = true) ∧
        ((t'.hentry i).flagDeleteMarked = true → (t'.hentry i).flagValid = false))) :
    Owned t' place cont := by
  have hover : t'.IsOverflow = t.IsOverflow := by
    unfold Htable.IsOverflow
    rw [hE, hO]
  refine ⟨?_, ?_, ?_, ?_, ?_, ?_, ?_, ?_, ?_, ?_, ?_⟩
  · intro i hi
    rw [hE, hO] at hi
    rw [(hkept i).1]
    exact ho.index i hi
  · rw [hover]
    exact ho.placed
  · rw [hnext, hhead]
    exact ho.free
  · rw [hE, hnext]
    exact ho.chain
  · rw [hE]
    exact ho.head_lt
  · intro h i hi
    rw [((hkept i).2 (ho.placed.dom_of_mem hi)).1]
    exact ho.bucket h i hi
  · rw [hused, hO]
    exact ho.used
  · intro i hi
    rw [hover] at hi
    rw [((hkept i).2 hi).2.1]
    exact ho.flagFree i hi
  · intro i hi hv
    rw [hover] at hi
    exact ho.valid i hi (((hkept i).2 hi).2.2.2.1 hv)
  · intro i hi
    rw [hover] at hi
    exact ((hkept i).2 hi).2.2.2.2
  · intro h i hi
    rw [((hkept i).2 (ho.placed.dom_of_mem hi)).2.2.1]
    exact ho.processed h i hi

/-- An entry goes out of use, and may be marked. -/
theorem dropValid (ent : Nat) (marked : Hentry → Bool) (k : Int) :
    Owned ((t.modify ent fun x => { x with
      flagValid := false, flagDeleteMarked := marked x }).addUsedEntries k) place cont := by
  refine ho.of_kept (by rfl) (by rfl) (by rfl) (by rfl) ?_ ?_
  · rw [addUsedEntries_next]
    exact next_modify_of_eq _ _ _ rfl
  intro i
  rw [addUsedEntries_hentry]
  by_cases hie : i = ent
  · subst hie
    rw [modify_self]
    exact ⟨rfl, fun _ => ⟨rfl, rfl, rfl, nofun, fun _ => rfl⟩⟩
  · rw [modify_of_ne _ _ _ hie]
    exact ⟨rfl, fun hover => ⟨rfl, rfl, rfl, id, ho.marked i hover⟩⟩

end

variable {p q : HtPlace}

variable (ho : Owned t place cont)
include ho

/-- One entry moves from place `p` to place `q`. Other overflow entries differ in their pointers at
most, and what is left to show is that the lists are linked again and that the entry itself has
the flags its new place asks for. -/
theorem move {cont' : HtPlace → List Nat} (hpq : p ≠ q)
    (hp : (cont p).Perm (e :: l)) (hcp : cont' p = l) (hq : (cont' q).Perm (e :: cont q))
    (hrest : ∀ r, r ≠ p → r ≠ q → cont' r = cont r) (hE : t'.htHentries = t.htHentries)
    (hO : t'.htOentries = t.htOentries)
    (hindex : ∀ i, (t'.hentry i).hentryIndex = (t.hentry i).hentryIndex)
    (hothers : ∀ i, i ≠ e → t.IsOverflow i → (t'.hentry i).SameState (t.hentry i))
    (hfree : Linked t'.next t'.htFreeOentryHead (cont' .free))
    (hchain : ∀ h, h < t.htHentries → Linked t'.next (some h) (h :: cont' (.chain h)))
    (hused : t'.htUsedOentries + (cont' .free).length = t.htOentries)
    (hhead : ∀ h, q = .chain h → h < t.htHentries ∧ (t'.hentry e).hentryBucketIndex = h ∧
      (t'.hentry e).flagDeleteProcessed = false)
    (hflag : (t'.hentry e).flagInFreeList = true ↔ q = .free)
    (hvalid : (t'.hentry e).flagValid = true → (∃ h, q = .chain h) ∨ q = .detached)
    (hmarked : (t'.hentry e).flagDeleteMarked = true → (t'.hentry e).flagValid = false) :
    Owned t' (update place e q) cont' := by
  have hover : t'.IsOverflow = t.IsOverflow := by
    unfold Htable.IsOverflow
    rw [hE, hO]
  have hplaced := ho.placed.move hpq hp hcp hq hrest
  have heq : e ∈ cont' q := hq.mem_iff.mpr (by simp)
  -- every other entry is where it was
  have hother : ∀ r i, i ≠ e → (i ∈ cont' r ↔ i ∈ cont r) := by
    intro r i hi
    rw [hplaced.mem, ho.placed.mem, update_of_ne hi]
  have hmine : ∀ r, e ∈ cont' r → r = q := by
    intro r hr
    rw [← hplaced.place_of_mem hr, update_self]
  refine ⟨?_, ?_, hfree, ?_, ?_, ?_, ?_, ?_, ?_, ?_, ?_⟩
  · intro i hi
    rw [hE, hO] at hi
    rw [hindex]
    exact ho.index i hi
  · rw [hover]
    exact hplaced
  · rw [hE]
    exact hchain
  · intro h i hi
    rw [hE]
    by_cases hie : i = e
    · exact (hhead h (hmine _ (hie ▸ hi)).symm).1
    · exact ho.head_lt h i ((hother _ i hie).mp hi)
  · intro h i hi
    by_cases hie : i = e
    · subst hie
      exact (hhead h (hmine _ hi).symm).2.1
    · have hi' := (hother _ i hie).mp hi
      rw [(hothers i hie (ho.placed.dom_of_mem hi')).1]
      exact ho.bucket h i hi'
  · rw [hO]
    exact hused
  · intro i hi
    rw [hover] at hi
    by_cases hie : i = e
    · subst hie
      rw [hflag]
      constructor
      · rintro rfl
        exact heq
      · intro hf
        exact (hmine _ hf).symm
    · rw [(hothers i hie hi).2.2.2.2, hother _ i hie]
      exact ho.flagFree i hi
  · intro i hi hv
    rw [hover] at hi
    by_cases hie : i = e
    · subst hie
      rcases hvalid hv with ⟨h, rfl⟩ | rfl
      · exact Or.inl ⟨h, heq⟩
      · exact Or.inr heq
    · rw [(hothers i hie hi).2.1] at hv
      rcases ho.valid i hi hv with ⟨h, hc⟩ | hd
      · exact Or.inl ⟨h, (hother _ i hie).mpr hc⟩
      · exact Or.inr ((hother _ i hie).mpr hd)
  · intro i hi hm
    rw [hover] at hi
    by_cases hie : i = e
    · subst hie
      exact hmarked hm
    · rw [(hothers i hie hi).2.2.1] at hm
      rw [(hothers i hie hi).2.1]
      exact ho.marked i hi hm
  · intro h i hi
    by_cases hie : i = e
    · subst hie
      exact (hhead h (hmine _ hi).symm).2.2
    · have hi' := (hother _ i hie).mp hi
      rw [(hothers i hie (ho.placed.dom_of_mem hi')).2.2.2.1]
      exact ho.processed h i hi'

/-! ## Linking and unlinking -/

theorem main_notMem (hh : h < t.htHentries) (p : HtPlace) : h ∉ cont p := by
  intro hmem
  have := (ho.placed.dom_of_mem hmem).1
  omega

theorem notMem_chain {h' : Nat} (he : e ∈ cont p) (hp : p ≠ .chain h')
    (hh' : h' < t.htHentries) : e ∉ h' :: cont (.chain h') := by
  rw [List.mem_cons, not_or]
  refine ⟨?_, ho.placed.notMem_of_ne he hp⟩
  have := (ho.placed.dom_of_mem he).1
  omega

/-- The first free entry is taken off the free list and chained behind the main entry `h`. -/
theorem link (hO : t.htOentries < 2 ^ 32) (hh : h < t.htHentries)
    {F : List Nat} (hF : cont .free = e :: F) :
    Owned (t.chainFree h e) (update place e (.chain h))
      (update (update cont .free F) (.chain h) (e :: cont (.chain h))) := by
  have hmem : e ∈ cont .free := by rw [hF]; simp
  have hover := ho.placed.dom_of_mem hmem
  have hhe : h ≠ e := by have := hover.1; omega
  have hlinked := ho.free
  rw [hF] at hlinked
  have hused := ho.used
  rw [hF, List.length_cons] at hused
  have hnd := ho.placed.nodup .free
  rw [hF, List.nodup_cons] at hnd
  have hnext : (t.chainFree h e).next = update (update t.next e (t.next h)) h (some e) := by
    unfold chainFree linkOentry
    simp only [addUsedEntries_next, setFreeHead_next, next_modify, update_of_ne hhe, update_idem]
  have hself := chainFree_linked (t := t) hhe
  apply ho.move (p := .free) (l := F) (by simp) (hF ▸ List.Perm.refl _)
  · simp
  · simp
  · intro r hr hr'
    simp [hr, hr']
  · simp [chainFree, linkOentry]
  · simp [chainFree, linkOentry]
  · intro i
    by_cases hie : i = e
    · subst hie
      simp [chainFree, linkOentry, modify_of_ne, hhe.symm]
    · exact (chainFree_kept hie).2.2
  · intro i hie hi
    have hih : i ≠ h := by have := hi.1; omega
    rw [chainFree_of_ne hie hih]
    exact .refl _
  · -- the rest of the free list
    rw [hnext]
    have hheadEq : (t.chainFree h e).htFreeOentryHead = t.next e := by
      simp [chainFree, linkOentry]
    rw [hheadEq]
    refine (hlinked.2.update_of_notMem hnd.1).update_of_notMem fun hmem => ?_
    exact ho.main_notMem hh .free (hF ▸ List.mem_cons_of_mem _ hmem)
  · intro h' hh'
    rw [hnext]
    by_cases heq : h' = h
    · -- the chain that gets the entry
      subst heq
      have hchain := ho.chain h' hh
      rw [update_self]
      refine ⟨rfl, update_self _ _ _, ?_⟩
      rw [update_of_ne (Ne.symm hhe), update_self]
      refine (hchain.2.update_of_notMem ?_).update_of_notMem (ho.main_notMem hh _)
      exact ho.placed.notMem_of_ne hmem (by simp)
    · rw [update_of_ne (by simpa using heq)]
      refine ((ho.chain h' hh').update_of_notMem
        (ho.notMem_chain hmem (by simp) hh')).update_of_notMem ?_
      rw [List.mem_cons, not_or]
      exact ⟨Ne.symm heq, ho.main_notMem hh _⟩
  · have husedEq : (t.chainFree h e).htUsedOentries =
        ((t.htUsedOentries + 1 : Int) % 2 ^ 32).toNat := by
      simp [chainFree, linkOentry]
    rw [update_of_ne (by simp), update_self]
    omega
  · rintro h' ⟨rfl⟩
    exact ⟨hh, hself.bucket, by simp [chainFree, linkOentry, modify_of_ne, hhe.symm]⟩
  · rw [hself.free]
    simp
  · intro _
    exact Or.inl ⟨h, rfl⟩
  · rw [hself.marked]
    simp

/-- `vr_htable_oentry_invalidate` puts an overflow entry that is not on the free list there. -/
theorem invalidate_eq (he : e ∈ cont p) (hp : p ≠ .free) :
    vrHtableOentryInvalidate t e = t.returnFree e := by
  have hover := ho.placed.dom_of_mem he
  have hidx : (t.hentry e).hentryIndex = e := ho.index e hover.2
  have hflag : (t.hentry e).flagInFreeList = false := by
    rw [← Bool.not_eq_true, ho.flagFree e hover]
    exact ho.placed.notMem_of_ne he hp
  have hlt : ¬ e < t.htHentries := by have := hover.1; omega
  unfold vrHtableOentryInvalidate vrHtablePutFreeOentry
  simp [hidx, hlt, hflag, Htable.modify, returnFree]

/-- An entry outside the free list and the chains goes back to the free list. -/
theorem invalidate (hO : t.htOentries < 2 ^ 32)
    (hp : (cont p).Perm (e :: l)) (hfree : p ≠ .free) (hchain : ∀ h, p ≠ .chain h) :
    Owned (t.returnFree e) (update place e .free)
      (update (update cont p l) .free (e :: cont .free)) := by
  have hmem : e ∈ cont p := hp.mem_iff.mpr (by simp)
  have hnotfree : e ∉ cont .free := ho.placed.notMem_of_ne hmem hfree
  have hlen := ho.free_length_lt (ho.placed.dom_of_mem hmem) hnotfree
  apply ho.move hfree hp
  · simp [hfree]
  · simp
  · intro r hr hr'
    simp [hr, hr']
  · rfl
  · rfl
  · intro i
    by_cases hie : i = e
    · subst hie
      simp [returnFree]
    · rw [returnFree_of_ne hie]
  · intro i hie _
    rw [returnFree_of_ne hie]
    exact .refl _
  · rw [returnFree_next]
    simpa [returnFree] using ho.free.push hnotfree
  · intro h' hh'
    rw [returnFree_next, update_of_ne (by simp), update_of_ne (Ne.symm (hchain h'))]
    exact (ho.chain h' hh').update_of_notMem (ho.notMem_chain hmem (hchain h') hh')
  · have hu := ho.used
    simp only [returnFree, setFreeHead_htUsedOentries, modify_htUsedOentries,
      update_self, List.length_cons]
    omega
  · rintro h' ⟨⟩
  · simp [returnFree]
  · simp [returnFree]
  · simp [returnFree]

/-- An entry is taken out of its chain behind its predecessor `prev`. -/
theorem unlink (hh : h < t.htHentries) {prev : Nat}
    {K m rest : List Nat} (hC : cont (.chain h) = K ++ e :: rest) (hK : h :: K = m ++ [prev])
    (hmarked : (t.hentry e).flagDeleteMarked = true) :
    Owned (unlinkOentry t prev e) (update place e .detached)
      (update (update cont (.chain h) (K ++ rest)) .detached
        (e :: cont .detached)) := by
  have hmem : e ∈ cont (.chain h) := by rw [hC]; simp
  have hover := ho.placed.dom_of_mem hmem
  have hlinked := ho.chain h hh
  have hlist : h :: cont (.chain h) = m ++ prev :: e :: rest := by
    rw [hC, ← List.cons_append, hK, List.append_assoc]
    rfl
  rw [hlist] at hlinked
  have hnd := hlinked.nodup
  -- the predecessor is the main entry or an entry of the same chain
  have hprev : prev = h ∨ prev ∈ cont (.chain h) := by
    have : prev ∈ h :: cont (.chain h) := by rw [hlist]; simp
    exact List.mem_cons.mp this
  have hpe : prev ≠ e := by
    rintro rfl
    simp [List.nodup_append] at hnd
  have hnext := unlinkOentry_next t prev e
  have hprevOut : ∀ q, q ≠ .chain h → prev ∉ cont q := by
    intro q hq
    rcases hprev with rfl | hp
    · exact ho.main_notMem hh q
    · exact ho.placed.notMem_of_ne hp (Ne.symm hq)
  have hself : (unlinkOentry t prev e).hentry e =
      { t.hentry e with flagDeleteMarked := false, flagDeleteProcessed := true } := by
    unfold unlinkOentry
    rw [modify_self, modify_of_ne _ _ _ (Ne.symm hpe)]
  have hothers : ∀ i, i ≠ e →
      ((unlinkOentry t prev e).hentry i).SameState (t.hentry i) ∧
        ((unlinkOentry t prev e).hentry i).hentryIndex = (t.hentry i).hentryIndex := by
    intro i hie
    unfold unlinkOentry
    rw [modify_of_ne _ _ _ hie]
    by_cases hip : i = prev
    · subst hip
      rw [modify_self]
      exact ⟨.refl _, rfl⟩
    · rw [modify_of_ne _ _ _ hip]
      exact ⟨.refl _, rfl⟩
  apply ho.move (by simp)
    (hC ▸ List.perm_middle)
  · simp
  · simp
  · intro r hr hr'
    simp [hr, hr']
  · rfl
  · rfl
  · intro i
    by_cases hie : i = e
    · subst hie
      rw [hself]
    · exact (hothers i hie).2
  · exact fun i hie _ => (hothers i hie).1
  · rw [hnext]
    exact ho.free.update_of_notMem (hprevOut _ (by simp))
  · intro h' hh'
    rw [hnext, update_of_ne (by simp)]
    by_cases heq : h' = h
    · subst heq
      rw [update_self, ← List.cons_append, hK, List.append_assoc]
      exact hlinked.unlink
    rw [update_of_ne (by simpa using heq)]
    refine (ho.chain h' hh').update_of_notMem ?_
    rw [List.mem_cons, not_or]
    refine ⟨?_, hprevOut _ (by simpa using heq)⟩
    rintro rfl
    rcases hprev with rfl | hp
    · exact heq rfl
    · exact ho.main_notMem hh' _ hp
  · have hu := ho.used
    exact hu
  · rintro h' ⟨⟩
  · rw [hself]
    have hnf : e ∉ cont .free := ho.placed.notMem_of_ne hmem (by simp)
    have := (ho.flagFree e hover).not.mpr hnf
    simpa using this
  · intro _
    exact Or.inr rfl
  · rw [hself]
    simp

/-- A detached entry is handed to a callback, or lost; the table does not change. -/
theorem relocate (hd : (cont .detached).Perm (e :: l))
    (hq : q = .waiting ∨ q = .lost) (hvalid : (t.hentry e).flagValid = false) :
    Owned t (update place e q)
      (update (update cont .detached l) q (cont q ++ [e])) := by
  have hmem : e ∈ cont .detached := hd.mem_iff.mpr (by simp)
  have hover := ho.placed.dom_of_mem hmem
  have hqd : q ≠ .detached := by rcases hq with rfl | rfl <;> simp
  have hqf : q ≠ .free := by rcases hq with rfl | rfl <;> simp
  have hqc : ∀ h, q ≠ .chain h := by rcases hq with rfl | rfl <;> simp
  apply ho.move (Ne.symm hqd) hd
  · simp [Ne.symm hqd]
  · simp
  · intro r hr hr'
    simp [hr, hr']
  · rfl
  · rfl
  · exact fun _ => rfl
  · exact fun _ _ _ => .refl _
  · rw [update_of_ne (Ne.symm hqf)]
    exact ho.free
  · intro h hh
    rw [update_of_ne (Ne.symm (hqc h))]
    exact ho.chain h hh
  · rw [update_of_ne (Ne.symm hqf)]
    exact ho.used
  · exact fun h hh => absurd hh (hqc h)
  · have hnf : e ∉ cont .free := ho.placed.notMem_of_ne hmem (by simp)
    exact iff_of_false ((ho.flagFree e hover).not.mpr hnf) hqf
  · rw [hvalid]
    simp
  · exact fun _ => hvalid

/-- The main entry `h` drops its pointer, and its chain is left to the operation. -/
theorem detachChain (hh : h < t.htHentries) (hd : cont .detached = []) :
    Owned (t.modify h fun x =>
        { x with hentryNext := none, hentryNextIndex := vrInvalidHentryIndex })
      (fun i => if place i = .chain h then .detached else place i)
      (update (update cont (.chain h) []) .detached (cont (.chain h))) := by
  generalize ht' : (t.modify h fun x =>
    { x with hentryNext := none, hentryNextIndex := vrInvalidHentryIndex }) = t'
  have hover : t'.IsOverflow = t.IsOverflow := by rw [← ht']; rfl
  have hnext : t'.next = update t.next h none := by rw [← ht', next_modify]
  -- the overflow entries themselves are left alone
  have hsame : ∀ i, t.IsOverflow i → t'.hentry i = t.hentry i := by
    intro i hi
    have hih : i ≠ h := by have := hi.1; omega
    rw [← ht', modify_of_ne _ _ _ hih]
  have hchains : ∀ h' i, i ∈ update (update cont (.chain h) []) .detached
      (cont (.chain h)) (.chain h') → i ∈ cont (.chain h') := by
    intro h' i hi
    rw [update_of_ne (by simp)] at hi
    by_cases heq : h' = h
    · subst heq
      simp at hi
    · rwa [update_of_ne (by simpa using heq)] at hi
  refine ⟨?_, ?_, ?_, ?_, ?_, ?_, ?_, ?_, ?_, ?_, ?_⟩
  · intro i hi
    by_cases hih : i = h
    · subst hih
      rw [← ht', modify_self]
      exact ho.index i (by omega)
    · rw [← ht', modify_of_ne _ _ _ hih]
      rw [← ht'] at hi
      exact ho.index i hi
  · rw [hover]
    exact ho.placed.moveAll (by simp) hd
  · rw [hnext, ← ht']
    exact ho.free.update_of_notMem (ho.main_notMem hh _)
  · intro h' hh'
    rw [← ht'] at hh'
    rw [hnext, update_of_ne (by simp)]
    by_cases heq : h' = h
    · subst heq
      rw [update_self]
      exact ⟨rfl, update_self _ _ _⟩
    · rw [update_of_ne (by simpa using heq)]
      apply (ho.chain h' hh').update_of_notMem
      rw [List.mem_cons, not_or]
      exact ⟨Ne.symm heq, ho.main_notMem hh _⟩
  · intro h' i hi
    rw [← ht']
    exact ho.head_lt h' i (hchains h' i hi)
  · intro h' i hi
    have hi := hchains h' i hi
    rw [hsame i (ho.placed.dom_of_mem hi)]
    exact ho.bucket h' i hi
  · rw [← ht']
    exact ho.used
  · intro i hi
    rw [hover] at hi
    rw [hsame i hi]
    exact ho.flagFree i hi
  · intro i hi hv
    rw [hover] at hi
    rw [hsame i hi] at hv
    rcases ho.valid i hi hv with ⟨h', hc⟩ | hc
    · by_cases heq : h' = h
      · subst heq
        exact Or.inr hc
      · left
        use h'
        rwa [update_of_ne (by simp), update_of_ne (by simpa using heq)]
    · rw [hd] at hc
      cases hc
  · intro i hi
    rw [hover] at hi
    rw [hsame i hi]
    exact ho.marked i hi
  · intro h' i hi
    have hi := hchains h' i hi
    rw [hsame i (ho.placed.dom_of_mem hi)]
    exact ho.processed h' i hi

end Owned

end VRouter
