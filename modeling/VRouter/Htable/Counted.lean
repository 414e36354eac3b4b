import VRouter.Htable.Marks

/-!
# VRouter — counting the releases of a chain

Releases of overflow entries are counted behind the bucket they belong to: `hd_count` is the number
of entries the bucket's work item has to take out of the chain, and `hd_scheduled` says that the
work item has been handed over. `Counted` relates both to the marks on the entries of a table in
service, with a step lemma for each operation. It is kept as long as the counter does not wrap and
a chain has delete data of its own, and once all work items and callbacks have run it says that
every released entry is back on the free list (`Counted.reclaimed`).
-/

namespace VRouter

open Htable Function

/-! ## What is to be shown -/

/-- Every chain holds valid entries only, and every overflow entry that is not valid is on the free
list. -/
structure HtSys.Reclaimed (s : HtSys) : Prop where
  chains : ∀ h, h < s.table.htHentries →
    ∃ l, Linked s.table.next (some h) (h :: l) ∧ ∀ e ∈ l, (s.table.hentry e).flagValid = true
  free : ∃ l, Linked s.table.next s.table.htFreeOentryHead l ∧
    ∀ e, s.table.IsOverflow e → (s.table.hentry e).flagValid = false → e ∈ l

/-- A step of a table in service: entries are taken and released, and whatever is handed to the
scheduler or allocated is granted. -/
def HtStep.InService : HtStep → Prop
  | .findFree _ => True
  | .release _ scheduled => scheduled = true
  | .work _ alloc => ∀ e, alloc e = true
  | .callback _ => True
  | .reset _ _ | .setNotReady _ => False

/-- A state reached by such steps. -/
def HtSys.ServiceRun (s s' : HtSys) : Prop :=
  ∃ as : List HtStep, (∀ a ∈ as, a.InService) ∧ runSteps HtSys.step s as = some s'

/-- Two chains of the table have delete data of their own. -/
def Htable.HeadsApart (t : Htable) : Prop :=
  ∀ r r', t.BucketInside r → t.BucketInside r' →
    chainHead t r / t.htBucketSize = chainHead t r' / t.htBucketSize →
      chainHead t r = chainHead t r'

variable {t t' : Htable} {a : HtStep} {d e i : Nat}

namespace HtSys.ServiceRun

variable {s s' s'' : HtSys}

theorem refl (s : HtSys) : s.ServiceRun s := ⟨[], by simp, rfl⟩

theorem trans (h : s.ServiceRun s') (h' : s'.ServiceRun s'') : s.ServiceRun s'' := by
  obtain ⟨as, has, hrun⟩ := h
  obtain ⟨bs, hbs, hrun'⟩ := h'
  refine ⟨as ++ bs, fun a ha => ?_, ?_⟩
  · rcases List.mem_append.mp ha with ha | ha
    · exact has a ha
    · exact hbs a ha
  · exact runSteps_trans hrun hrun'

theorem single (ha : a.InService) (h : s.step a = some s') : s.ServiceRun s' :=
  ⟨[a], by simpa using ha, runSteps_singleton h⟩

end HtSys.ServiceRun

/-! ## The counters against the marks -/

/-- The overflow entries that are marked and whose chain has the delete data `d`. -/
def Htable.markedIn (t : Htable) (d : Nat) : Finset Nat :=
  (Finset.Ico t.htHentries (t.htHentries + t.htOentries)).filter fun e =>
    (t.hentry e).flagDeleteMarked = true ∧ (t.hentry e).hentryBucketIndex / t.htBucketSize = d

theorem Htable.mem_markedIn :
    e ∈ t.markedIn d ↔ t.IsOverflow e ∧ (t.hentry e).flagDeleteMarked = true ∧
      (t.hentry e).hentryBucketIndex / t.htBucketSize = d := by
  unfold markedIn Htable.IsOverflow
  rw [Finset.mem_filter, Finset.mem_Ico]

theorem Htable.mem_markedIn_markDeleted (he : t.IsOverflow e) :
    i ∈ (markDeleted t e).markedIn d ↔ i ∈ t.markedIn d ∨
      (i = e ∧ d = (t.hentry e).hentryBucketIndex / t.htBucketSize) := by
  have hover : (markDeleted t e).IsOverflow i ↔ t.IsOverflow i := Iff.rfl
  have hB : (markDeleted t e).htBucketSize = t.htBucketSize := rfl
  rw [mem_markedIn, mem_markedIn, hover, hB]
  by_cases hie : i = e
  · subst hie
    rw [markDeleted_self]
    simp only [he, true_and]
    constructor
    · intro hd
      exact Or.inr hd.symm
    · rintro (⟨-, hd⟩ | hd)
      · exact hd
      · exact hd.symm
  · rw [markDeleted_of_ne t hie]
    simp [hie]

theorem Htable.markedIn_markDeleted (he : t.IsOverflow e)
    (hd : (t.hentry e).hentryBucketIndex / t.htBucketSize = d) :
    (markDeleted t e).markedIn d = insert e (t.markedIn d) := by
  ext i
  rw [mem_markedIn_markDeleted he, hd]
  simp [or_comm]

theorem Htable.card_markDeleted (he : t.IsOverflow e)
    (hunmarked : (t.hentry e).flagDeleteMarked = false)
    (hd : (t.hentry e).hentryBucketIndex / t.htBucketSize = d) :
    ((markDeleted t e).markedIn d).card = (t.markedIn d).card + 1 := by
  have hnotMem : e ∉ t.markedIn d := by
    rw [mem_markedIn, hunmarked]
    simp
  rw [markedIn_markDeleted he hd, Finset.card_insert_of_notMem hnotMem]

theorem Htable.card_markedIn_le (t : Htable) (d : Nat) : (t.markedIn d).card ≤ t.htOentries := by
  have hcard : (t.markedIn d).card ≤ (Finset.Ico t.htHentries (t.htHentries + t.htOentries)).card :=
    Finset.card_filter_le _ _
  rwa [Nat.card_Ico, Nat.add_sub_cancel_left] at hcard

/-- A table in service with its delete data. An entry that has left the free list and waits for no
callback is valid or marked; the delete data of a chain count its marked entries, and as long as
there are any the work item of the chain is waiting. -/
structure Counted (s : HtSys) : Prop where
  inService : s.vrNotReady = false
  lost : s.lost = []
  held : ∀ e, s.table.IsOverflow e → (s.table.hentry e).flagInFreeList = false →
    e ∉ s.callbacks → (s.table.hentry e).flagValid = true ∨
      (s.table.hentry e).flagDeleteMarked = true
  marked : ∀ e, s.table.IsOverflow e → (s.table.hentry e).flagDeleteMarked = true →
    (s.table.hentry e).flagInFreeList = false ∧ e ∉ s.callbacks
  head : ∀ e, s.table.IsOverflow e →
    (s.table.hentry e).flagValid = true ∨ (s.table.hentry e).flagDeleteMarked = true →
      ∃ hash, s.table.BucketInside hash ∧
        (s.table.hentry e).hentryBucketIndex = chainHead s.table hash
  aligned : ∀ e d, e ∈ s.table.markedIn d →
    (s.table.deleteData d).hdIndex = (s.table.hentry e).hentryBucketIndex
  count : ∀ d, (s.table.deleteData d).hdCount = (s.table.markedIn d).card
  scheduled : ∀ d, (s.table.deleteData d).hdScheduled = true ↔ (s.table.markedIn d).Nonempty
  works : ∀ d, d ∈ s.works ↔ (s.table.markedIn d).Nonempty
  nodup : s.works.Nodup

/-- The entry `h` is the main entry that a chain of the table hangs from. -/
def Htable.IsHead (t : Htable) (h : Nat) : Prop :=
  ∃ hash, t.BucketInside hash ∧ h = chainHead t hash

theorem Htable.isHead_of_shape (hshape : t'.shape = t.shape) (h : Nat) :
    t'.IsHead h ↔ t.IsHead h := by
  obtain ⟨hE, -, hB, hstart⟩ := sizes_of_shape hshape
  unfold Htable.IsHead Htable.BucketInside chainHead
  simp only [hstart, hB, hE]

/-- The part of `Counted` that is about one overflow entry. -/
structure EntryCounted (ent : Hentry) (waits isHead : Prop) : Prop where
  held : ent.flagInFreeList = false → ¬ waits → ent.flagValid = true ∨ ent.flagDeleteMarked = true
  marked : ent.flagDeleteMarked = true → ent.flagInFreeList = false ∧ ¬ waits
  head : ent.flagValid = true ∨ ent.flagDeleteMarked = true → isHead

/-- The part of `Counted` that is about the delete data of a chain. -/
structure DataCounted (hd : HentryDeleteData) (marks : Finset Nat) (waits : Prop) : Prop where
  count : hd.hdCount = marks.card
  scheduled : hd.hdScheduled = true ↔ marks.Nonempty
  works : waits ↔ marks.Nonempty

namespace Counted

variable {s s' : HtSys} {place : Nat → HtPlace} {cont : HtPlace → List Nat} {h : Nat}

theorem of_parts (hready : s.vrNotReady = false) (hlost : s.lost = [])
    (hentry : ∀ i, s.table.IsOverflow i → EntryCounted (s.table.hentry i) (i ∈ s.callbacks)
      (s.table.IsHead (s.table.hentry i).hentryBucketIndex))
    (haligned : ∀ i d, i ∈ s.table.markedIn d →
      (s.table.deleteData d).hdIndex = (s.table.hentry i).hentryBucketIndex)
    (hdata : ∀ d, DataCounted (s.table.deleteData d) (s.table.markedIn d) (d ∈ s.works))
    (hnd : s.works.Nodup) : Counted s :=
  ⟨hready, hlost, fun i hi => (hentry i hi).held, fun i hi => (hentry i hi).marked,
    fun i hi => (hentry i hi).head, haligned, fun d => (hdata d).count,
    fun d => (hdata d).scheduled, fun d => (hdata d).works, hnd⟩

section

variable (hc : Counted s)
include hc

theorem entry (he : s.table.IsOverflow e) : EntryCounted (s.table.hentry e)
    (e ∈ s.callbacks) (s.table.IsHead (s.table.hentry e).hentryBucketIndex) :=
  ⟨hc.held e he, hc.marked e he, hc.head e he⟩

theorem data (d : Nat) : DataCounted (s.table.deleteData d) (s.table.markedIn d) (d ∈ s.works) :=
  ⟨hc.count d, hc.scheduled d, hc.works d⟩

/-- Nothing about marks, delete data and work items changes. An entry keeps its state, or it is
unmarked before and after, and valid in its new chain unless it is free or waits. -/
theorem of_unmarked (hshape : s'.table.shape = s.table.shape)
    (hready : s'.vrNotReady = s.vrNotReady) (hlost : s'.lost = s.lost) (hworks : s'.works = s.works)
    (hdata : s'.table.deleteData = s.table.deleteData) (hstate : ∀ i, s.table.IsOverflow i →
      ((s'.table.hentry i).SameState (s.table.hentry i) ∧
        (i ∈ s'.callbacks ↔ i ∈ s.callbacks)) ∨
      ((s.table.hentry i).flagDeleteMarked = false ∧
        (s'.table.hentry i).flagDeleteMarked = false ∧
        ((s'.table.hentry i).flagInFreeList = false → (s'.table.hentry i).flagValid = true) ∧
        ((s'.table.hentry i).flagValid = true → ∃ hash, s.table.BucketInside hash ∧
          (s'.table.hentry i).hentryBucketIndex = chainHead s.table hash))) : Counted s' := by
  have hover := isOverflow_of_shape hshape
  have hmarked : ∀ d, s'.table.markedIn d = s.table.markedIn d := by
    intro d
    ext i
    rw [mem_markedIn, mem_markedIn, hover, (sizes_of_shape hshape).2.2.1]
    refine and_congr_right fun hi => ?_
    rcases hstate i hi with ⟨⟨hb, -, hm, -, -⟩, -⟩ | ⟨hm, hm', -, -⟩
    · rw [hb, hm]
    · rw [hm, hm']
      simp
  refine of_parts (hready.trans hc.inService) (hlost.trans hc.lost) (fun i hi => ?_)
    (fun i d hi => ?_) (fun d => ?_) (hworks ▸ hc.nodup)
  · rw [hover] at hi
    rw [isHead_of_shape hshape]
    rcases hstate i hi with ⟨⟨hb, hv, hm, -, hfree⟩, hcall⟩ | ⟨-, hm, hheld, hhead⟩
    · obtain ⟨hheld, hmarked, hhead⟩ := hc.entry hi
      rw [← hfree, ← hcall, ← hv, ← hm] at hheld
      rw [← hfree, ← hcall, ← hm] at hmarked
      rw [← hv, ← hm, ← hb] at hhead
      exact ⟨hheld, hmarked, hhead⟩
    · refine ⟨fun hf _ => .inl (hheld hf), fun hm' => ?_, fun h => hhead (h.resolve_right ?_)⟩
      · rw [hm] at hm'
        cases hm'
      · rw [hm]
        decide
  · rw [hmarked] at hi
    rw [hdata, hc.aligned i d hi]
    obtain ⟨hi, hm, -⟩ := mem_markedIn.mp hi
    rcases hstate i hi with ⟨⟨hb, -⟩, -⟩ | ⟨hm', -⟩
    · exact hb.symm
    · rw [hm] at hm'
      cases hm'
  · rw [hdata, hmarked, hworks]
    exact hc.data d

theorem findFree (hi : HtInv s place cont) {hash : Nat} {r : Option Nat}
    (h : vrHtableFindFreeHentry s.table hash = some (r, t')) : Counted { s with table := t' } := by
  obtain ⟨-, -, -, hshape, -⟩ := hi.findFree h
  obtain ⟨hdata, hstate⟩ := hi.findFree_overflow h
  refine hc.of_unmarked hshape rfl rfl rfl hdata fun i hover => ?_
  rcases hstate i hover with hsame | ⟨hfree, hinside, hlinked⟩
  · exact Or.inl ⟨hsame, Iff.rfl⟩
  refine Or.inr ⟨?_, hlinked.marked, fun _ => hlinked.valid,
    fun _ => ⟨hash, hinside, hlinked.bucket⟩⟩
  rw [← Bool.not_eq_true]
  intro hm
  have := (hc.marked i hover hm).1
  rw [hfree] at this
  cases this

theorem deferDelete (hi : HtInv s place cont) (he : e ∈ s.callbacks) :
    Counted { s with
      table := vrHtableHentryDeferDelete s.table e
      callbacks := s.callbacks.erase e } := by
  obtain ⟨-, -, -, hshape, -⟩ := hi.deferDelete he
  obtain ⟨hdata, ⟨hv, hm, hf⟩, hothers⟩ := hi.deferDelete_overflow he
  refine hc.of_unmarked hshape rfl rfl rfl hdata fun i hover => ?_
  by_cases hie : i = e
  · subst hie
    refine Or.inr ⟨?_, hm, fun hfree => ?_, fun hvalid => ?_⟩
    · rw [← Bool.not_eq_true]
      intro hm
      exact (hc.marked i hover hm).2 he
    · rw [hf] at hfree
      cases hfree
    · rw [hv] at hvalid
      cases hvalid
  · exact Or.inl ⟨.of_eq (hothers i hie), List.mem_erase_of_ne hie⟩

/-- The chains of two marked or valid entries with the same delete data are the same, unless there
is one overflow entry only. -/
theorem bucketIndex_eq (hapart : s.table.htOentries ≤ 1 ∨ s.table.HeadsApart)
    (hie : i ≠ e) (hi : s.table.IsOverflow i) (he : s.table.IsOverflow e)
    (hiheld : (s.table.hentry i).flagValid = true ∨ (s.table.hentry i).flagDeleteMarked = true)
    (heheld : (s.table.hentry e).flagValid = true ∨ (s.table.hentry e).flagDeleteMarked = true)
    (hd : (s.table.hentry i).hentryBucketIndex / s.table.htBucketSize =
      (s.table.hentry e).hentryBucketIndex / s.table.htBucketSize) :
    (s.table.hentry i).hentryBucketIndex = (s.table.hentry e).hentryBucketIndex := by
  rcases hapart with hone | hapart
  · unfold Htable.IsOverflow at hi he
    omega
  · obtain ⟨r, hr, hri⟩ := hc.head i hi hiheld
    obtain ⟨r', hr', hre⟩ := hc.head e he heheld
    rw [hri, hre] at hd ⊢
    exact hapart r r' hr hr' hd

end

theorem of_valid (hi : HtInv s place cont) (he : s.table.IsOverflow e)
    (hv : (s.table.hentry e).flagValid = true) :
    (s.table.hentry e).flagInFreeList = false ∧ e ∉ s.callbacks ∧
      (s.table.hentry e).flagDeleteMarked = false := by
  obtain ⟨c, hc⟩ := hi.chain_of_valid he hv
  refine ⟨?_, ?_, ?_⟩
  · rw [← Bool.not_eq_true, hi.owned.flagFree e he]
    exact hi.owned.placed.notMem_of_ne hc (by simp)
  · rw [← hi.waiting]
    exact hi.owned.placed.notMem_of_ne hc (by simp)
  rw [← Bool.not_eq_true]
  intro hm
  have := hi.owned.marked e he hm
  rw [hv] at this
  cases this

section

variable (hc : Counted s) (hi : HtInv s place cont)
include hc hi

/-- One more entry is marked and counted, and the work item of its chain is waiting. -/
theorem of_marked (he : s.table.IsOverflow e)
    (hv : (s.table.hentry e).flagValid = true)
    (hd : (s.table.hentry e).hentryBucketIndex / s.table.htBucketSize = d)
    (hindex : ∀ i ∈ s.table.markedIn d,
      (s.table.hentry i).hentryBucketIndex = (s.table.hentry e).hentryBucketIndex)
    {works : List Nat} (hworks : ∀ d', d' ∈ works ↔ d' ∈ s.works ∨ d' = d) (hnd : works.Nodup) :
    Counted { s with
      table := (markDeleted s.table e).setDeleteData d
        ⟨(s.table.hentry e).hentryBucketIndex, (s.table.markedIn d).card + 1, true⟩
      works := works } := by
  obtain ⟨hfree, hcall, hunmarked⟩ := of_valid hi he hv
  have hmem : ∀ d' i, i ∈ (markDeleted s.table e).markedIn d' ↔
      i ∈ s.table.markedIn d' ∨ (i = e ∧ d' = d) := by
    intro d' i
    rw [mem_markedIn_markDeleted he, hd]
  have hne : ∀ d', d' ≠ d → (markDeleted s.table e).markedIn d' = s.table.markedIn d' := by
    intro d' hd'
    ext i
    rw [hmem]
    simp [hd']
  have hnonempty : ((markDeleted s.table e).markedIn d).Nonempty := by
    rw [markedIn_markDeleted he hd]
    exact Finset.insert_nonempty _ _
  refine of_parts hc.inService hc.lost (fun i hover => ?_) (fun i d' hmarked => ?_) (fun d' => ?_)
    hnd
  · show EntryCounted ((markDeleted s.table e).hentry i) (i ∈ s.callbacks)
      (s.table.IsHead ((markDeleted s.table e).hentry i).hentryBucketIndex)
    by_cases hie : i = e
    · subst hie
      rw [markDeleted_self]
      exact ⟨fun _ _ => .inr rfl, fun _ => ⟨hfree, hcall⟩, fun _ => hc.head i he (.inl hv)⟩
    · rw [markDeleted_of_ne _ hie]
      exact hc.entry hover
  · show (update s.table.deleteData d _ d').hdIndex =
      ((markDeleted s.table e).hentry i).hentryBucketIndex
    rcases (hmem d' i).mp hmarked with hold | ⟨rfl, rfl⟩
    · have hie : i ≠ e := by
        rintro rfl
        have := (mem_markedIn.mp hold).2.1
        rw [hunmarked] at this
        cases this
      rw [markDeleted_of_ne _ hie]
      by_cases hdd : d' = d
      · subst hdd
        rw [update_self]
        exact (hindex i hold).symm
      · rw [update_of_ne hdd]
        exact hc.aligned i d' hold
    · rw [update_self, markDeleted_self]
  · show DataCounted (update s.table.deleteData d _ d')
      ((markDeleted s.table e).markedIn d') (d' ∈ works)
    by_cases hdd : d' = d
    · subst hdd
      rw [update_self]
      exact ⟨(card_markDeleted he hunmarked hd).symm, iff_of_true rfl hnonempty,
        iff_of_true ((hworks d').mpr (.inr rfl)) hnonempty⟩
    · have hsame : d' ∈ works ↔ d' ∈ s.works := by simp [hworks, hdd]
      rw [update_of_ne hdd, hne d' hdd, hsame]
      exact hc.data d'

theorem mem_chain_of_marked (he : s.table.IsOverflow e)
    (hm : (s.table.hentry e).flagDeleteMarked = true) :
    e ∈ cont (.chain (s.table.hentry e).hentryBucketIndex) := by
  obtain ⟨hfree, hcall⟩ := hc.marked e he hm
  have hplace := (hi.owned.placed.mem (place e) e).mpr ⟨he, rfl⟩
  cases hp : place e with
  | free =>
    rw [hp, ← hi.owned.flagFree e he, hfree] at hplace
    cases hplace
  | chain c =>
    rw [hp] at hplace
    rw [hi.owned.bucket c e hplace]
    exact hplace
  | waiting =>
    rw [hp, hi.waiting] at hplace
    exact absurd hplace hcall
  | lost =>
    rw [hp, hi.lost, hc.lost] at hplace
    cases hplace
  | detached =>
    rw [hp, hi.detached] at hplace
    cases hplace

/-- A work item that waits has delete data of its own: their chain has all entries that are marked
with them and no others, and their count is the number of these. -/
theorem chain_of_works (hd : d ∈ s.works) :
    (∀ i ∈ cont (.chain (s.table.deleteData d).hdIndex),
      (s.table.hentry i).hentryBucketIndex / s.table.htBucketSize = d) ∧
    (∀ i ∈ s.table.markedIn d, i ∈ cont (.chain (s.table.deleteData d).hdIndex)) ∧
    ((cont (.chain (s.table.deleteData d).hdIndex)).filter fun e =>
      (s.table.hentry e).flagDeleteMarked).length ≤ (s.table.deleteData d).hdCount := by
  obtain ⟨j, hj⟩ := (hc.works d).mp hd
  have hbucket : ∀ i ∈ cont (.chain (s.table.deleteData d).hdIndex),
      (s.table.hentry i).hentryBucketIndex / s.table.htBucketSize = d := by
    intro i hmem
    rw [hi.owned.bucket _ i hmem, hc.aligned j d hj]
    exact (mem_markedIn.mp hj).2.2
  refine ⟨hbucket, fun i hmem => ?_, ?_⟩
  · obtain ⟨hover, hm, -⟩ := mem_markedIn.mp hmem
    rw [hc.aligned i d hmem]
    exact hc.mem_chain_of_marked hi hover hm
  rw [hc.count, ← List.toFinset_card_of_nodup ((hi.owned.placed.nodup _).filter _)]
  apply Finset.card_le_card
  intro i hmem
  obtain ⟨hmem, hm⟩ := List.mem_filter.mp (List.mem_toFinset.mp hmem)
  rw [mem_markedIn]
  exact ⟨hi.owned.placed.dom_of_mem hmem, hm, hbucket i hmem⟩

/-- The work item of a chain takes all marked entries out of it. -/
theorem scheduledDelete {alloc : Nat → Bool}
    (halloc : ∀ e, alloc e = true) (hd : d ∈ s.works) :
    Counted (vrHtableHentryScheduledDelete { s with works := s.works.erase d } alloc d) := by
  have hi₁ : HtInv { s with works := s.works.erase d } place cont := { hi with }
  obtain ⟨-, -, -, hkeep, -⟩ := hi₁.scheduledDelete alloc d
  generalize hs' : vrHtableHentryScheduledDelete { s with works := s.works.erase d } alloc d = s'
    at hkeep
  obtain ⟨hbucket, hin, hcount⟩ := hc.chain_of_works hi hd
  obtain ⟨hcall, hdata, hflags⟩ := hi₁.scheduledDelete_marks halloc hc.inService d hcount hs'
  generalize cont (.chain (s.table.deleteData d).hdIndex) = l at hbucket hin hcall hflags
  have hover := isOverflow_of_shape hkeep.shape
  have hmem : ∀ d' i, i ∈ s'.table.markedIn d' ↔ i ∈ s.table.markedIn d' ∧ d' ≠ d := by
    intro d' i
    rw [mem_markedIn, mem_markedIn, hover, (hflags i).1, (hflags i).2.2.2,
      (sizes_of_shape hkeep.shape).2.2.1]
    simp only [Bool.and_eq_true, Bool.not_eq_true', decide_eq_false_iff_not]
    constructor
    · rintro ⟨hi, ⟨hm, hnot⟩, hdi⟩
      refine ⟨⟨hi, hm, hdi⟩, ?_⟩
      rintro rfl
      exact hnot (hin i (mem_markedIn.mpr ⟨hi, hm, hdi⟩))
    · rintro ⟨⟨hi, hm, hdi⟩, hne⟩
      refine ⟨hi, ⟨hm, fun hmem => ?_⟩, hdi⟩
      exact hne (hdi.symm.trans (hbucket i hmem))
  have hempty : s'.table.markedIn d = ∅ := by
    ext i
    rw [hmem]
    simp
  have hne : ∀ d', d' ≠ d → s'.table.markedIn d' = s.table.markedIn d' := by
    intro d' hd'
    ext i
    rw [hmem]
    simp [hd']
  refine of_parts (hkeep.notReady.trans hc.inService) ((hkeep.lost halloc).trans hc.lost)
    (fun i hi => ?_) (fun i d' hmarked => ?_) (fun d' => ?_) ?_
  · rw [hover] at hi
    obtain ⟨hb, hv, hfree, hm⟩ := hflags i
    obtain ⟨hheld, hmarked, hhead⟩ := hc.entry hi
    rw [isHead_of_shape hkeep.shape, hb]
    refine ⟨fun hf hnot => ?_, fun hm' => ?_, fun h => hhead ?_⟩
    · rw [hcall, List.mem_append, not_or] at hnot
      rw [hv, hm]
      refine (hheld (hfree ▸ hf) hnot.1).imp id fun hmarked => ?_
      have : i ∉ l := fun hin => hnot.2 (List.mem_filter.mpr ⟨hin, hmarked⟩)
      simp [hmarked, this]
    · rw [hm] at hm'
      simp only [Bool.and_eq_true, Bool.not_eq_true', decide_eq_false_iff_not] at hm'
      rw [hfree, hcall, List.mem_append, not_or]
      exact ⟨(hmarked hm'.1).1, (hmarked hm'.1).2, fun hin => hm'.2 (List.mem_filter.mp hin).1⟩
    · rw [hv, hm] at h
      exact h.imp id fun hmarked => (Bool.and_eq_true_iff.mp hmarked).1
  · obtain ⟨hold, hd'⟩ := (hmem d' i).mp hmarked
    rw [hdata, update_of_ne hd', (hflags i).1]
    exact hc.aligned i d' hold
  · rw [hdata, hkeep.works]
    by_cases hd' : d' = d
    · subst hd'
      rw [update_self, hempty]
      exact ⟨rfl, by simp, by simp [hc.nodup.mem_erase_iff]⟩
    · rw [update_of_ne hd', hne d' hd', List.mem_erase_of_ne hd']
      exact hc.data d'
  · rw [hkeep.works]
    exact hc.nodup.erase d

/-- Once no work item and no callback is waiting, every entry that is not valid is free. -/
theorem reclaimed (hworks : s.works = [])
    (hcallbacks : s.callbacks = []) : s.Reclaimed := by
  have hunmarked : ∀ e, s.table.IsOverflow e → (s.table.hentry e).flagDeleteMarked = false := by
    intro e he
    rw [← Bool.not_eq_true]
    intro hm
    have := (hc.works _).mpr ⟨e, mem_markedIn.mpr ⟨he, hm, rfl⟩⟩
    rw [hworks] at this
    cases this
  -- an entry that is not on the free list is valid
  have hvalid : ∀ e, s.table.IsOverflow e → e ∉ cont .free →
      (s.table.hentry e).flagValid = true := by
    intro e he hfree
    rw [← hi.owned.flagFree e he, Bool.not_eq_true] at hfree
    rcases hc.held e he hfree (by rw [hcallbacks]; simp) with hv | hm
    · exact hv
    · rw [hunmarked e he] at hm
      cases hm
  constructor
  · intro h hh
    refine ⟨_, hi.owned.chain h hh, fun e he => ?_⟩
    exact hvalid e (hi.owned.placed.dom_of_mem he) (hi.owned.placed.notMem_of_ne he (by simp))
  · refine ⟨_, hi.owned.free, fun e he hv => ?_⟩
    by_contra hfree
    rw [hvalid e he hfree] at hv
    cases hv

variable (hcount : s.table.htOentries < 2 ^ 16)
  (hapart : s.table.htOentries ≤ 1 ∨ s.table.HeadsApart)
include hcount hapart

/-- `vr_htable_release_hentry` on a valid overflow entry. The counter does not wrap, and the delete
data of a chain whose work item is waiting are those of the entry's own chain. -/
theorem scheduleDelete (he : s.table.IsOverflow e) (hv : (s.table.hentry e).flagValid = true)
    (hidx : ((markDeleted s.table e).hentry (s.table.hentry e).hentryBucketIndex).hentryIndex =
      (s.table.hentry e).hentryBucketIndex) :
    Counted (scheduleDelete { s with table := markDeleted s.table e } true
      (s.table.hentry e).hentryBucketIndex) := by
  generalize hd : (s.table.hentry e).hentryBucketIndex / s.table.htBucketSize = d
  have hunmarked := (of_valid hi he hv).2.2
  have hindex : ∀ i ∈ s.table.markedIn d,
      (s.table.hentry i).hentryBucketIndex = (s.table.hentry e).hentryBucketIndex := by
    intro i hmem
    obtain ⟨hover, hm, hdi⟩ := mem_markedIn.mp hmem
    have hie : i ≠ e := by
      rintro rfl
      rw [hunmarked] at hm
      cases hm
    exact hc.bucketIndex_eq hapart hie hover he (Or.inr hm) (Or.inl hv) (hdi.trans hd.symm)
  have hwrap : ((s.table.deleteData d).hdCount + 1) % 2 ^ 16 = (s.table.markedIn d).card + 1 := by
    rw [hc.count]
    have hle := (markDeleted s.table e).card_markedIn_le d
    rw [card_markDeleted he hunmarked hd] at hle
    have hO : (markDeleted s.table e).htOentries = s.table.htOentries := rfl
    omega
  unfold VRouter.scheduleDelete
  simp only [hidx, markDeleted_deleteData,
    show (markDeleted s.table e).htBucketSize = s.table.htBucketSize from rfl, hd, hwrap]
  by_cases hsched : (s.table.deleteData d).hdScheduled = true
  · rw [hsched]
    obtain ⟨i, hmem⟩ := (hc.scheduled d).mp hsched
    rw [hc.aligned i d hmem, hindex i hmem]
    apply hc.of_marked hi he hv hd hindex _ hc.nodup
    intro d'
    constructor
    · exact Or.inl
    · rintro (h | rfl)
      · exact h
      · exact (hc.works d').mpr ⟨i, hmem⟩
  · rw [if_neg hsched]
    have hnotMem : d ∉ s.works := by
      rw [hc.works, ← hc.scheduled]
      exact hsched
    apply hc.of_marked hi he hv hd hindex
    · simp
    rw [List.nodup_append]
    refine ⟨hc.nodup, by simp, ?_⟩
    intro a ha b hb
    rw [List.mem_singleton] at hb
    subst hb
    rintro rfl
    exact hnotMem ha

theorem release (he : e < s.table.htHentries + s.table.htOentries)
    (h : vrHtableReleaseHentry s true e = some s') : Counted s' := by
  obtain ⟨s₁, hs₁, hcases⟩ := hi.release_cases true he
  obtain rfl : s₁ = s' := Option.some.inj (hs₁.symm.trans h)
  rcases hcases with ⟨-, rfl⟩ | ⟨-, hmain | hready, rfl⟩ | ⟨hover, hv, -, hidx, rfl⟩
  · exact hc
  · refine hc.of_unmarked rfl rfl rfl rfl rfl fun i hover => Or.inl ⟨?_, Iff.rfl⟩
    have hie : i ≠ e := by
      have := hover.1
      omega
    rw [addUsedEntries_hentry, modify_of_ne _ _ _ hie]
    exact .refl _
  · exact absurd hready (by simp [hc.inService])
  · exact hc.scheduleDelete hi hcount hapart hover hv hidx

theorem step (ha : a.InService) (h : s.step a = some s') : Counted s' := by
  cases a with
  | findFree hash =>
    obtain ⟨⟨r, t'⟩, hfind, rfl⟩ := Option.map_eq_some_iff.mp h
    exact hc.findFree hi hfind
  | release ent scheduled =>
    obtain ⟨hlt, h⟩ := Option.ite_none_right_eq_some.mp h
    have hsched : scheduled = true := ha
    subst hsched
    exact hc.release hi hcount hapart hlt h
  | work d alloc =>
    obtain ⟨hmem, h⟩ := Option.ite_none_right_eq_some.mp h
    cases h
    exact hc.scheduledDelete hi ha hmem
  | callback ent =>
    obtain ⟨hmem, h⟩ := Option.ite_none_right_eq_some.mp h
    cases h
    exact hc.deferDelete hi hmem
  | reset | setNotReady => exact ha.elim

end

end Counted

theorem Created.counted (hc : Created t) (hdata : ∀ d, t.deleteData d = ⟨0, 0, false⟩) :
    Counted (.initial t false) := by
  have hempty : ∀ d, t.markedIn d = ∅ := by
    intro d
    ext e
    rw [mem_markedIn, hc.hentry]
    simp [initialHentry]
  refine Counted.of_parts rfl rfl (fun e he => ?_) (fun e d he => ?_) (fun d => ?_) List.nodup_nil
  · show EntryCounted (t.hentry e) _ _
    rw [hc.hentry]
    refine ⟨fun hf => absurd he.1 (of_decide_eq_false hf), fun hm => ?_, fun h => ?_⟩
    · cases hm
    · rcases h with h | h <;> cases h
  · have he : e ∈ t.markedIn d := he
    rw [hempty] at he
    exact absurd he (Finset.notMem_empty e)
  · show DataCounted (t.deleteData d) (t.markedIn d) (d ∈ [])
    rw [hdata, hempty]
    exact ⟨rfl, by simp, by simp⟩

theorem Counted.run {s : HtSys} (hc : Counted (.initial t false))
    (hi : HtInv (.initial t false) (fun _ => .free) (initialContents t))
    (hcount : t.htOentries < 2 ^ 16) (hapart : t.htOentries ≤ 1 ∨ t.HeadsApart)
    (hrun : (HtSys.initial t false).ServiceRun s) :
    ∃ place cont, HtInv s place cont ∧ Counted s := by
  obtain ⟨as, has, hrun⟩ := hrun
  suffices h : (∃ place cont, HtInv s place cont) ∧ Counted s ∧ s.table.shape = t.shape by
    obtain ⟨⟨place, cont, hi⟩, hc, -⟩ := h
    exact ⟨place, cont, hi, hc⟩
  refine runSteps_invariant_of_meet
    (I := fun s => (∃ place cont, HtInv s place cont) ∧ Counted s ∧ s.table.shape = t.shape)
    (fun s a s' hI ha hs => ?_) ⟨⟨_, _, hi⟩, hc, rfl⟩ (stepsMeet_of_forall has) hrun
  obtain ⟨⟨place, cont, hi⟩, hc, hshape⟩ := hI
  obtain ⟨hE, hO, hB, hstart⟩ := sizes_of_shape hshape
  obtain ⟨place', cont', hi', hshape', -⟩ := hi.step hs
  refine ⟨⟨place', cont', hi'⟩, hc.step hi (by rw [hO]; exact hcount) ?_ ha hs,
    hshape'.trans hshape⟩
  rw [hO]
  unfold Htable.HeadsApart Htable.BucketInside chainHead at hapart ⊢
  simp only [hstart, hB, hE]
  exact hapart

end VRouter
