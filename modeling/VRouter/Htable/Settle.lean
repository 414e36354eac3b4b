import VRouter.Htable.Counted
import VRouter.Htable.Layout

/-!
# VRouter — what is left once the scheduler has nothing more to do

The counter of a bucket's releases has 16 bits, and delete data are found by dividing the index of
the bucket's last entry by the bucket size. So there are two ways in which a released entry is left
in its chain for good: as many releases as the counter can count leave it at zero
(`wrap_strands`), and the work item of one chain is taken for that of another one which shares its
delete data (`shared_strands`). `reclaimed_iff` says that these are the only ones.
-/

namespace VRouter

open Htable

/-! ## Entries that stay behind -/

variable {cont : HtPlace → List Nat} {place : Nat → HtPlace} {t : Htable} {s : HtSys}
    {h d n c e k : Nat}

/-- An overflow entry that is neither valid nor on the free list. -/
theorem HtInv.not_reclaimed (hi : HtInv s place cont) (he : s.table.IsOverflow e)
    (hv : (s.table.hentry e).flagValid = false) (hf : (s.table.hentry e).flagInFreeList = false) :
    ¬ s.Reclaimed := by
  rintro ⟨-, l, hl, hfree⟩
  have hmem := hfree e he hv
  rw [hl.unique hi.owned.free, ← hi.owned.flagFree e he, hf] at hmem
  cases hmem

/-- `n` insertions of keys with the hash value `r`. -/
def HtSys.InsertRun (r n : Nat) (s s' : HtSys) : Prop :=
  runSteps HtSys.step s (List.replicate n (.findFree r)) = some s'

namespace HtSys.InsertRun

variable {r n' : Nat} {s' s'' : HtSys}

theorem refl (r : Nat) (s : HtSys) : s.InsertRun r 0 s := rfl

theorem single (h : s.step (.findFree r) = some s') : s.InsertRun r 1 s' :=
  runSteps_singleton h

theorem trans (h : InsertRun r n s s') (h' : InsertRun r n' s' s'') :
    InsertRun r (n + n') s s'' := by
  unfold InsertRun at h h' ⊢
  rw [← List.replicate_append_replicate]
  exact runSteps_trans h h'

theorem serviceRun (h : InsertRun r n s s') : s.ServiceRun s' := by
  refine ⟨_, fun a ha => ?_, h⟩
  rw [List.eq_of_mem_replicate ha]
  trivial

end HtSys.InsertRun

/-- A table in service whose entries have not been released yet. -/
structure Unreleased (t : Htable) (s : HtSys) (place : Nat → HtPlace) (cont : HtPlace → List Nat) :
    Prop where
  inv : HtInv s place cont
  shape : s.table.shape = t.shape
  inService : s.vrNotReady = false
  works : s.works = []
  callbacks : s.callbacks = []
  deleteData : ∀ d, s.table.deleteData d = ⟨0, 0, false⟩
  unmarked : ∀ i, s.table.IsOverflow i → (s.table.hentry i).flagDeleteMarked = false

/-- The entries of the bucket of a hash value are all in use. -/
def Htable.BucketFull (t : Htable) (hash : Nat) : Prop :=
  ∀ j, j < t.htBucketSize → (t.hentry (bucketStart t hash + j)).flagValid = true

theorem findFreeScan_eq {start : Nat}
    (hmain : ∀ j, j < n → t.mainEntry (start + j) = some (start + j)) (hk : k ≤ n)
    (hvalid : ∀ j, j < k → (t.hentry (start + j)).flagValid = true) {left i : Nat}
    (hleft : i + left = n) (hik : i ≤ k) :
    findFreeScan t start left i = findFreeScan t start (n - k) k := by
  induction left generalizing i with
  | zero =>
    obtain rfl : i = k := by omega
    rw [show n - i = 0 by omega]
  | succ left ih =>
    by_cases heq : i = k
    · subst heq
      rw [show n - i = left + 1 by omega]
    · rw [findFreeScan, hmain i (by omega)]
      simp only [hvalid i (by omega)]
      exact ih (by omega) (by omega)

namespace Unreleased

variable {r : Nat}

variable (hu : Unreleased t s place cont) (hinside : t.BucketInside r)
include hu hinside

theorem takeEntry (hk : k < t.htBucketSize)
    (hvalid : ∀ j, j < k → (s.table.hentry (bucketStart t r + j)).flagValid = true) :
    ∃ n s', n ≤ 1 ∧ s.InsertRun r n s' ∧ Unreleased t s' place cont ∧
      (∀ j, j < k + 1 → (s'.table.hentry (bucketStart t r + j)).flagValid = true) ∧
      ∀ i, s.table.IsOverflow i → s'.table.hentry i = s.table.hentry i := by
  obtain ⟨hE, hO, hB, hstart⟩ := sizes_of_shape hu.shape
  unfold Htable.BucketInside at hinside
  generalize he : bucketStart t r + k = e
  have helt : e < s.table.htHentries := by omega
  by_cases hv : (s.table.hentry e).flagValid = true
  · refine ⟨0, s, by decide, .refl r s, hu, fun j hj => ?_, fun _ _ => rfl⟩
    rcases Nat.lt_succ_iff_lt_or_eq.mp hj with hj | rfl
    · exact hvalid j hj
    · rw [he]
      exact hv
  -- the bucket loop comes to the entry, as those before it are in use
  have hmain : ∀ j, j < t.htBucketSize → s.table.mainEntry (bucketStart t r + j) =
      some (bucketStart t r + j) := fun j hj => hu.inv.mainEntry (by omega)
  have hscan : findFreeScan s.table (bucketStart s.table r) s.table.htBucketSize 0 =
      some (some e) := by
    rw [hstart, findFreeScan_eq hmain hk.le hvalid (by omega) (by omega),
      show t.htBucketSize - k = (t.htBucketSize - k - 1) + 1 by omega, findFreeScan,
      hmain k hk, he]
    simp only [hv, if_false, Bool.false_eq_true]
  have hstep : s.step (.findFree r) = some { s with table := s.table.takeMain e } := by
    show (vrHtableFindFreeHentry s.table r).map _ = _
    unfold vrHtableFindFreeHentry
    simp only [hscan]
    rfl
  have hover : ∀ i, s.table.IsOverflow i → i ≠ e := by
    intro i hi
    have := hi.1
    omega
  refine ⟨1, _, le_rfl, .single hstep, ?_, fun j hj => ?_,
    fun i hi => takeMain_of_ne (hover i hi)⟩
  · refine { hu with inv := hu.inv.takeMain helt, unmarked := fun i hi => ?_ }
    rw [takeMain_of_ne (hover i hi)]
    exact hu.unmarked i hi
  · by_cases hje : bucketStart t r + j = e
    · simp [hje, Htable.takeMain]
    · rw [takeMain_of_ne hje]
      exact hvalid j (by omega)

theorem fillBucket :
    ∃ n s', n ≤ t.htBucketSize ∧ s.InsertRun r n s' ∧ Unreleased t s' place cont ∧
      s'.table.BucketFull r ∧
      ∀ i, s.table.IsOverflow i → s'.table.hentry i = s.table.hentry i := by
  have hfill : ∀ k, k ≤ t.htBucketSize → ∃ n s', n ≤ k ∧ s.InsertRun r n s' ∧
      Unreleased t s' place cont ∧
      (∀ j, j < k → (s'.table.hentry (bucketStart t r + j)).flagValid = true) ∧
      ∀ i, s.table.IsOverflow i → s'.table.hentry i = s.table.hentry i := by
    intro k
    induction k with
    | zero => exact fun _ => ⟨0, s, le_rfl, .refl r s, hu, by simp, fun _ _ => rfl⟩
    | succ k ih =>
      intro hk
      obtain ⟨n₁, s₁, hn₁, hrun₁, hu₁, hvalid₁, hsame₁⟩ := ih (by omega)
      obtain ⟨n₂, s₂, hn₂, hrun₂, hu₂, hvalid₂, hsame₂⟩ := hu₁.takeEntry hinside hk hvalid₁
      refine ⟨n₁ + n₂, s₂, by omega, hrun₁.trans hrun₂, hu₂, hvalid₂, fun i hi => ?_⟩
      rw [hsame₂ i ?_, hsame₁ i hi]
      exact (isOverflow_of_shape (hu₁.shape.trans hu.shape.symm) i).mpr hi
  obtain ⟨n, s', hn, hrun, hu', hvalid, hsame⟩ := hfill _ le_rfl
  obtain ⟨-, -, hB, hstart⟩ := sizes_of_shape hu'.shape
  refine ⟨n, s', hn, hrun, hu', fun j hj => ?_, hsame⟩
  rw [hstart]
  rw [hB] at hj
  exact hvalid j hj

variable {F : List Nat}

theorem takeOverflow (hfull : s.table.BucketFull r) (hF : cont .free = e :: F) :
    ∃ s' place' cont', s.InsertRun r 1 s' ∧ Unreleased t s' place' cont' ∧ cont' .free = F ∧
      s'.table.BucketFull r ∧ (s'.table.hentry e).LinkedBehind (chainHead t r) ∧
      ∀ i, i ≠ e → s.table.IsOverflow i → s'.table.hentry i = s.table.hentry i := by
  obtain ⟨hE, hO, hB, hstart⟩ := sizes_of_shape hu.shape
  have hbpos := hu.inv.sized.bucket_pos
  have hhead : chainHead s.table r = chainHead t r := by
    unfold chainHead
    rw [hstart, hB]
  unfold Htable.BucketInside at hinside
  have hlt : chainHead t r < s.table.htHentries := by
    unfold chainHead
    omega
  have hmem : e ∈ cont .free := by rw [hF]; simp
  have hover := hu.inv.owned.placed.dom_of_mem hmem
  have hhe : chainHead t r ≠ e := by
    have := hover.1
    omega
  have hscan : findFreeScan s.table (bucketStart s.table r) s.table.htBucketSize 0 = some none := by
    rw [findFreeScan_eq ?_ le_rfl hfull
      (by omega) (by omega), Nat.sub_self]
    · rfl
    · intro j hj
      apply hu.inv.mainEntry
      rw [hstart]
      omega
  have hstep : s.step (.findFree r) =
      some { s with table := s.table.chainFree (chainHead t r) e } := by
    show (vrHtableFindFreeHentry s.table r).map _ = _
    have hO : s.table.htOentries ≠ 0 := by
      have := hover.1
      have := hover.2
      omega
    rw [vrHtableFindFreeHentry_of_full hscan hO (hu.inv.htFreeOentryHead_eq.mpr ⟨F, hF⟩), hhead]
    rfl
  have hself := chainFree_linked (t := s.table) hhe
  have hmain : ∀ i, s.table.IsOverflow i → i ≠ chainHead t r := by
    intro i hi
    have := hi.1
    omega
  obtain ⟨-, -, hB₂, hstart₂⟩ := sizes_of_shape (chainFree_shape (t := s.table) (h := chainHead t r)
    (e := e))
  refine ⟨_, _, _, .single hstep, ⟨hu.inv.chainFree hlt hF, chainFree_shape.trans hu.shape,
    hu.inService, hu.works, hu.callbacks, fun d => ?_, fun i hi => ?_⟩, by simp, fun j hj => ?_,
    hself, fun i hie hi => chainFree_of_ne hie (hmain i hi)⟩
  · rw [chainFree_deleteData]
    exact hu.deleteData d
  · have hi : s.table.IsOverflow i := (isOverflow_of_shape chainFree_shape i).mp hi
    by_cases hie : i = e
    · subst hie
      exact hself.marked
    · rw [chainFree_of_ne hie (hmain i hi)]
      exact hu.unmarked i hi
  · have hj : j < s.table.htBucketSize := hB₂ ▸ hj
    have hje : bucketStart s.table r + j ≠ e := by
      have := hover.1
      rw [hstart]
      omega
    rw [hstart₂, (chainFree_kept hje).1]
    exact hfull j hj

theorem takeAll (V : List Nat) (hfull : s.table.BucketFull r) (hF : cont .free = V ++ F) :
    ∃ s' place' cont', s.InsertRun r V.length s' ∧ Unreleased t s' place' cont' ∧
      cont' .free = F ∧ (∀ e ∈ V, (s'.table.hentry e).LinkedBehind (chainHead t r)) ∧
      ∀ i, i ∉ V → s.table.IsOverflow i → s'.table.hentry i = s.table.hentry i := by
  induction V generalizing s place cont with
  | nil => exact ⟨s, place, cont, .refl r s, hu, hF, by simp, fun _ _ _ => rfl⟩
  | cons e V ih =>
    obtain ⟨s₁, place₁, cont₁, hrun₁, hu₁, hF₁, hfull₁, he, hsame₁⟩ :=
      hu.takeOverflow hinside hfull hF
    obtain ⟨s₂, place₂, cont₂, hrun₂, hu₂, hF₂, hV, hsame₂⟩ := ih hu₁ hfull₁ hF₁
    have hover := isOverflow_of_shape (hu₁.shape.trans hu.shape.symm)
    -- the entry taken first is not taken again
    have hnd := hu.inv.owned.placed.nodup .free
    rw [hF, List.cons_append, List.nodup_cons, List.mem_append, not_or] at hnd
    have hmem : e ∈ cont .free := by rw [hF]; simp
    have hrun : s.InsertRun r (e :: V).length s₂ := by
      rw [List.length_cons, Nat.add_comm]
      exact hrun₁.trans hrun₂
    refine ⟨s₂, place₂, cont₂, hrun, hu₂, hF₂, fun i hi => ?_, fun i hi hi' => ?_⟩
    · rcases List.mem_cons.mp hi with rfl | hi
      · rw [hsame₂ i hnd.1.1 ((hover i).mpr (hu.inv.owned.placed.dom_of_mem hmem))]
        exact he
      · exact hV i hi
    · rw [List.mem_cons, not_or] at hi
      rw [hsame₂ i hi.2 ((hover i).mpr hi'), hsame₁ i hi.1 hi']

end Unreleased

theorem HtInv.step_release (hi : HtInv s place cont) (hready : s.vrNotReady = false)
    (he : s.table.IsOverflow e) (hv : (s.table.hentry e).flagValid = true) :
    s.step (.release e true) = some (scheduleDelete { s with table := markDeleted s.table e } true
        (s.table.hentry e).hentryBucketIndex) ∧
      HtInv (scheduleDelete { s with table := markDeleted s.table e } true
        (s.table.hentry e).hentryBucketIndex) place cont ∧
      ((markDeleted s.table e).hentry (s.table.hentry e).hentryBucketIndex).hentryIndex =
        (s.table.hentry e).hentryBucketIndex := by
  obtain ⟨s', hs', hi', -, -⟩ := hi.release true he.2
  obtain ⟨s₁, hs₁, hcases⟩ := hi.release_cases true he.2
  obtain rfl : s₁ = s' := Option.some.inj (hs₁.symm.trans hs')
  rcases hcases with ⟨hnv, -⟩ | ⟨-, hmain | hnr, -⟩ | ⟨-, -, -, hidx, rfl⟩
  · rw [hv] at hnv
    cases hnv
  · have := he.1
    omega
  · rw [hready] at hnr
    cases hnr
  · exact ⟨(if_pos he.2).trans hs', hi', hidx⟩

theorem scheduleDelete_first (hidx : (s.table.hentry h).hentryIndex = h)
    (hd : h / s.table.htBucketSize = d) (hdata : s.table.deleteData d = ⟨0, 0, false⟩) :
    scheduleDelete s true h =
      { s with
        table := s.table.setDeleteData d ⟨h, 1, true⟩
        works := s.works ++ [d] } := by
  unfold scheduleDelete
  simp only [hidx, hd, hdata]
  rfl

/-- A release while the work item is waiting is only counted. -/
theorem scheduleDelete_next {h' : Nat} (hidx : (s.table.hentry h).hentryIndex = h)
    (hd : h / s.table.htBucketSize = d) (hdata : s.table.deleteData d = ⟨h', c, true⟩) :
    scheduleDelete s true h =
      { s with table := s.table.setDeleteData d ⟨h', (c + 1) % 2 ^ 16, true⟩ } := by
  unfold scheduleDelete
  simp only [hidx, hd, hdata]
  rfl

/-- A state in which releases have been counted behind the delete data `d` and nothing else has
been handed to the scheduler. -/
structure Waiting (s : HtSys) (place : Nat → HtPlace) (cont : HtPlace → List Nat) (d h c : Nat) :
    Prop where
  inv : HtInv s place cont
  inService : s.vrNotReady = false
  works : s.works = [d]
  callbacks : s.callbacks = []
  deleteData : s.table.deleteData d = ⟨h, c, true⟩

/-- Releases of entries that share their delete data are counted modulo `2 ^ 16`. -/
theorem Waiting.releaseAll (V : List Nat) (hw : Waiting s place cont d h c) (hnd : V.Nodup)
    (hV : ∀ i ∈ V, s.table.IsOverflow i ∧ (s.table.hentry i).flagValid = true ∧
      (s.table.hentry i).hentryBucketIndex / s.table.htBucketSize = d) (hc : c < 2 ^ 16) :
    ∃ s', s.ServiceRun s' ∧ Waiting s' place cont d h ((c + V.length) % 2 ^ 16) ∧
      s'.table.shape = s.table.shape ∧
      (∀ i ∈ V, s'.table.hentry i =
        { s.table.hentry i with flagValid := false, flagDeleteMarked := true }) ∧
      ∀ i, i ∉ V → s'.table.hentry i = s.table.hentry i := by
  induction V generalizing s c with
  | nil =>
    refine ⟨s, .refl s, ?_, rfl, by simp, fun _ _ => rfl⟩
    rw [List.length_nil, Nat.add_zero, Nat.mod_eq_of_lt hc]
    exact hw
  | cons e V ih =>
    obtain ⟨he, hv, hd⟩ := hV e (by simp)
    obtain ⟨heV, hnd⟩ := List.nodup_cons.mp hnd
    obtain ⟨hstep, hinv, hidx⟩ := hw.inv.step_release hw.inService he hv
    have hfound := scheduleDelete_next (s := { s with table := markDeleted s.table e }) hidx hd
      hw.deleteData
    rw [hfound] at hstep hinv
    generalize hs₁ : ({ s with
      table := (markDeleted s.table e).setDeleteData d ⟨h, (c + 1) % 2 ^ 16, true⟩ } : HtSys) = s₁
      at hstep hinv
    have hself : s₁.table.hentry e =
        { s.table.hentry e with flagValid := false, flagDeleteMarked := true } := by
      rw [← hs₁]
      exact markDeleted_self s.table e
    have hothers : ∀ i, i ≠ e → s₁.table.hentry i = s.table.hentry i := by
      intro i hie
      rw [← hs₁]
      exact markDeleted_of_ne s.table hie
    have hw₁ : Waiting s₁ place cont d h ((c + 1) % 2 ^ 16) := by
      subst hs₁
      refine ⟨hinv, hw.inService, hw.works, hw.callbacks, ?_⟩
      exact Function.update_self _ _ _
    have hshape : s₁.table.shape = s.table.shape := by
      rw [← hs₁]
      rfl
    obtain ⟨hE, hO, hB, -⟩ := sizes_of_shape hshape
    have hne : ∀ i ∈ V, i ≠ e := by
      rintro i hmem rfl
      exact heV hmem
    have hV₁ : ∀ i ∈ V, s₁.table.IsOverflow i ∧ (s₁.table.hentry i).flagValid = true ∧
        (s₁.table.hentry i).hentryBucketIndex / s₁.table.htBucketSize = d := by
      intro i hmem
      unfold Htable.IsOverflow
      rw [hothers i (hne i hmem), hE, hO, hB]
      exact hV i (List.mem_cons_of_mem e hmem)
    obtain ⟨s₂, hrun, hw₂, hshape₂, hV₂, hothers₂⟩ := ih hw₁ hnd hV₁ (Nat.mod_lt _ (by decide))
    have hcount : ((c + 1) % 2 ^ 16 + V.length) % 2 ^ 16 = (c + (e :: V).length) % 2 ^ 16 := by
      rw [List.length_cons]
      omega
    rw [hcount] at hw₂
    refine ⟨s₂, (HtSys.ServiceRun.single (a := .release e true) rfl hstep).trans hrun, hw₂,
      hshape₂.trans hshape, fun i hmem => ?_, fun i hmem => ?_⟩
    · rcases List.mem_cons.mp hmem with rfl | hmem
      · rw [hothers₂ i heV, hself]
      · rw [hV₂ i hmem, hothers i (hne i hmem)]
    · rw [List.mem_cons, not_or] at hmem
      rw [hothers₂ i hmem.2, hothers i hmem.1]

theorem Unreleased.releaseFirst (hu : Unreleased t s place cont) (he : s.table.IsOverflow e)
    (hv : (s.table.hentry e).flagValid = true)
    (hd : (s.table.hentry e).hentryBucketIndex / s.table.htBucketSize = d) :
    ∃ s', s.ServiceRun s' ∧ Waiting s' place cont d (s.table.hentry e).hentryBucketIndex 1 ∧
      s'.table.shape = s.table.shape ∧
      s'.table.hentry e =
        { s.table.hentry e with flagValid := false, flagDeleteMarked := true } ∧
      ∀ i, i ≠ e → s'.table.hentry i = s.table.hentry i := by
  obtain ⟨hstep, hinv, hidx⟩ := hu.inv.step_release hu.inService he hv
  have hfound := scheduleDelete_first (s := { s with table := markDeleted s.table e }) hidx hd
    (hu.deleteData d)
  rw [hfound] at hstep hinv
  refine ⟨_, .single (a := .release e true) rfl hstep, ⟨hinv, hu.inService, ?_, hu.callbacks, ?_⟩,
    rfl, markDeleted_self s.table e, fun i hie => markDeleted_of_ne s.table hie⟩
  · rw [hu.works]
    rfl
  · exact Function.update_self _ _ _

theorem scheduledDeleteLoop_zero (alloc : Nat → Bool) (fuel prev : Nat) (p : Option Nat)
    (s : HtSys) : scheduledDeleteLoop alloc fuel prev p 0 s = s := by
  cases fuel with
  | zero => rfl
  | succ fuel => cases p <;> rfl

theorem Waiting.step_work (hw : Waiting s place cont d h n) :
    s.step (.work d fun _ => true) = some (vrHtableHentryScheduledDelete
      { s with works := s.works.erase d } (fun _ => true) d) := by
  show (if d ∈ s.works then _ else none) = _
  rw [if_pos (by rw [hw.works]; simp)]

/-- A work item that finds its counter at zero leaves every entry as it is. -/
theorem Waiting.work_zero (hw : Waiting s place cont d h 0) :
    ∃ s' place' cont', s.ServiceRun s' ∧ HtInv s' place' cont' ∧
      s'.table.shape = s.table.shape ∧ s'.table.hentry = s.table.hentry ∧ s'.works = [] ∧
      s'.callbacks = [] := by
  have hstep := hw.step_work
  obtain ⟨place', cont', hinv, hshape, -⟩ := hw.inv.step hstep
  refine ⟨_, place', cont', .single (a := .work d fun _ => true) (fun _ => rfl) hstep, hinv, hshape,
    ?_⟩
  have hh := hw.inv.hdIndex d
  rw [hw.deleteData] at hh
  unfold vrHtableHentryScheduledDelete
  simp only [hw.deleteData, hw.inv.sized.get _ (Nat.lt_add_right _ hh), scheduledDeleteLoop_zero]
  refine ⟨rfl, ?_, hw.callbacks⟩
  rw [hw.works]
  simp

theorem Created.firstBucket (hc : Created t) : bucketStart t 0 = 0 ∧ t.BucketInside 0 := by
  have hstart : bucketStart t 0 = 0 := by
    unfold bucketStart
    rw [Nat.zero_mod, Nat.zero_and]
  refine ⟨hstart, ?_⟩
  unfold Htable.BucketInside
  rw [hstart, Nat.zero_add]
  exact Nat.le_of_dvd hc.hentries_pos hc.dvd

theorem HtInv.drain (l : List Nat) (hi : HtInv s place cont) (hl : s.callbacks = l) :
    ∃ s' place' cont', s.ServiceRun s' ∧ HtInv s' place' cont' ∧ s'.table.shape = s.table.shape ∧
      s'.works = s.works ∧ s'.callbacks = [] ∧
      ∀ i, i ∉ l → s'.table.hentry i = s.table.hentry i := by
  induction l generalizing s place cont with
  | nil => exact ⟨s, place, cont, .refl s, hi, rfl, rfl, hl, fun _ _ => rfl⟩
  | cons e l ih =>
    have hmem : e ∈ s.callbacks := by rw [hl]; simp
    have hstep : s.step (.callback e) = some { s with
        table := vrHtableHentryDeferDelete s.table e
        callbacks := s.callbacks.erase e } := if_pos hmem
    obtain ⟨place₁, cont₁, hi₁, hshape₁, -⟩ := hi.deferDelete hmem
    obtain ⟨-, -, hothers⟩ := hi.deferDelete_overflow hmem
    obtain ⟨s', place', cont', hrun, hi', hshape, hworks, hcallbacks, hsame⟩ :=
      ih hi₁ (by rw [hl]; simp)
    refine ⟨s', place', cont',
      (HtSys.ServiceRun.single (a := .callback e) trivial hstep).trans hrun, hi',
      hshape.trans hshape₁, hworks, hcallbacks, fun i hnot => ?_⟩
    rw [List.mem_cons, not_or] at hnot
    rw [hsame i hnot.2]
    exact hothers i hnot.1

/-- A work item whose counter is enough for its chain hands the marked entries of the chain to their
callbacks. -/
theorem Waiting.work (hw : Waiting s place cont d h c)
    (hcount : ((cont (.chain h)).filter fun e => (s.table.hentry e).flagDeleteMarked).length ≤ c) :
    ∃ s' place' cont', s.ServiceRun s' ∧ HtInv s' place' cont' ∧
      s'.table.shape = s.table.shape ∧ s'.works = [] ∧
      s'.callbacks = (cont (.chain h)).filter (fun e => (s.table.hentry e).flagDeleteMarked) ∧
      ∀ i, (s'.table.hentry i).flagValid = (s.table.hentry i).flagValid ∧
        (s'.table.hentry i).flagInFreeList = (s.table.hentry i).flagInFreeList := by
  have hi : HtInv { s with works := s.works.erase d } place cont := { hw.inv with }
  have hstep := hw.step_work
  obtain ⟨place', cont', hinv, hkeep, -⟩ := hi.scheduledDelete (fun _ => true) d
  generalize hs' : vrHtableHentryScheduledDelete { s with works := s.works.erase d }
    (fun _ => true) d = s' at hstep hinv hkeep
  obtain ⟨hcall, -, hflags⟩ := hi.scheduledDelete_marks (fun _ => rfl) hw.inService d
    (by simpa only [hw.deleteData] using hcount) hs'
  simp only [hw.deleteData, hw.callbacks] at hcall
  refine ⟨s', place', cont', .single (a := .work d fun _ => true) (fun _ => rfl) hstep, hinv,
    hkeep.shape, ?_, hcall, fun i => ⟨(hflags i).2.1, (hflags i).2.2.1⟩⟩
  rw [hkeep.works, hw.works]
  simp

section

variable (hc : Created t) (hdata : ∀ d, t.deleteData d = ⟨0, 0, false⟩)
  (hlt : t.htHentries + t.htOentries < 2 ^ 32)
include hc hdata hlt

theorem Created.unreleased :
    Unreleased t (.initial t false) (fun _ => .free) (initialContents t) := by
  refine ⟨hc.htInv hlt false, rfl, rfl, rfl, rfl, hdata, fun i _ => ?_⟩
  show (t.hentry i).flagDeleteMarked = false
  rw [hc.hentry]
  rfl

/-- With `2 ^ 16` overflow entries the counter wraps: as many releases in one chain leave it at
zero, and the work item unlinks nothing. -/
theorem wrap_strands (hO : 2 ^ 16 ≤ t.htOentries) :
    ∃ s, (HtSys.initial t false).ServiceRun s ∧ s.works = [] ∧ s.callbacks = [] ∧
      ¬ s.Reclaimed := by
  obtain ⟨n, hn⟩ : ∃ n, n = 2 ^ 16 := ⟨_, rfl⟩
  rw [← hn] at hO
  -- the first bucket, filled up
  have hinside := hc.firstBucket.2
  obtain ⟨_, s₁, -, hrun₁, hu₁, hfull₁, -⟩ := (hc.unreleased hdata hlt).fillBucket hinside
  -- `n` more entries behind it
  have hsplit : initialContents t .free =
      List.range' t.htHentries n ++ List.range' (t.htHentries + n) (t.htOentries - n) := by
    rw [List.range'_append_1, Nat.add_sub_cancel' hO]
    rfl
  obtain ⟨s₂, place₂, cont₂, hrun₂, hu₂, -, hV, -⟩ := hu₁.takeAll hinside _ hfull₁ hsplit
  obtain ⟨hE, hO₂, hB, -⟩ := sizes_of_shape hu₂.shape
  have hlinked : ∀ i, t.htHentries ≤ i → i < t.htHentries + n →
      (s₂.table.hentry i).LinkedBehind (chainHead t 0) ∧ s₂.table.IsOverflow i := by
    intro i hle hlt
    refine ⟨hV i (List.mem_range'_1.mpr ⟨hle, hlt⟩), ?_, ?_⟩ <;> omega
  obtain ⟨hfirst, hover⟩ := hlinked t.htHentries le_rfl (by omega)
  -- all of them are released before the work item runs
  obtain ⟨s₃, hrun₃, hw₃, hshape₃, -, hothers₃⟩ := hu₂.releaseFirst hover hfirst.valid rfl
  obtain ⟨hE₃, hO₃, hB₃, -⟩ := sizes_of_shape hshape₃
  obtain ⟨s₄, hrun₄, hw₄, hshape₄, hV₄, -⟩ := hw₃.releaseAll
    (List.range' (t.htHentries + 1) (n - 1)) List.nodup_range' (fun i hi => by
      obtain ⟨hle, hlt⟩ := List.mem_range'_1.mp hi
      obtain ⟨hlinked, hover⟩ := hlinked i (by omega) (by omega)
      unfold Htable.IsOverflow
      rw [hothers₃ i (by omega), hE₃, hO₃, hB₃, hfirst.bucket, hlinked.bucket]
      exact ⟨hover, hlinked.valid, rfl⟩) (by decide)
  rw [List.length_range', show (1 + (n - 1)) % 2 ^ 16 = 0 by omega] at hw₄
  -- the work item finds nothing to do, and the second of the entries is neither valid nor free
  obtain ⟨s₅, place₅, cont₅, hrun₅, hinv₅, hshape₅, hsame, hworks, hcallbacks⟩ := hw₄.work_zero
  refine ⟨s₅, ((hrun₁.trans hrun₂).serviceRun.trans hrun₃).trans (hrun₄.trans hrun₅), hworks,
    hcallbacks, ?_⟩
  have hmem : t.htHentries + 1 ∈ List.range' (t.htHentries + 1) (n - 1) :=
    List.mem_range'_1.mpr ⟨le_rfl, by omega⟩
  obtain ⟨hE₄, hO₄, -, -⟩ := sizes_of_shape (hshape₅.trans (hshape₄.trans hshape₃))
  apply hinv₅.not_reclaimed (e := t.htHentries + 1)
  · unfold Htable.IsOverflow
    omega
  · rw [hsame, hV₄ _ hmem]
  · rw [hsame, hV₄ _ hmem, hothers₃ _ (by omega)]
    exact (hlinked _ (by omega) (by omega)).1.free

/-- Two chains that share delete data: the work item that was scheduled for one of them does not
come to the other one. -/
theorem shared_strands (hO : 2 ≤ t.htOentries) (hapart : ¬ t.HeadsApart) :
    ∃ s, (HtSys.initial t false).ServiceRun s ∧ s.works = [] ∧ s.callbacks = [] ∧
      ¬ s.Reclaimed := by
  unfold Htable.HeadsApart at hapart
  push Not at hapart
  obtain ⟨r, r', hr, hr', hd, hne⟩ := hapart
  -- one entry behind each of the two buckets
  obtain ⟨_, s₁, -, hrun₁, hu₁, hfull₁, -⟩ := (hc.unreleased hdata hlt).fillBucket hr
  have hsplit : initialContents t .free = [t.htHentries] ++
      List.range' (t.htHentries + 1) (t.htOentries - 1) := by
    show List.range' _ _ = _
    rw [show t.htOentries = t.htOentries - 1 + 1 by omega]
    rfl
  obtain ⟨s₂, place₂, cont₂, hrun₂, hu₂, hF₂, hV₂, -⟩ := hu₁.takeAll hr _ hfull₁ hsplit
  obtain ⟨_, s₃, -, hrun₃, hu₃, hfull₃, hsame₃⟩ := hu₂.fillBucket hr'
  have hsplit₃ : cont₂ .free = [t.htHentries + 1] ++
      List.range' (t.htHentries + 2) (t.htOentries - 2) := by
    rw [hF₂, show t.htOentries - 1 = t.htOentries - 2 + 1 by omega]
    rfl
  obtain ⟨s₄, place₄, cont₄, hrun₄, hu₄, -, hV₄, hsame₄⟩ := hu₃.takeAll hr' _ hfull₃ hsplit₃
  obtain ⟨hE₂, hO₂, -, -⟩ := sizes_of_shape hu₂.shape
  obtain ⟨hE₃, hO₃, -, -⟩ := sizes_of_shape hu₃.shape
  obtain ⟨hE₄, hO₄, hB₄, -⟩ := sizes_of_shape hu₄.shape
  have he : (s₄.table.hentry t.htHentries).LinkedBehind (chainHead t r) := by
    rw [hsame₄ _ (by simp) ⟨by omega, by omega⟩, hsame₃ _ ⟨by omega, by omega⟩]
    exact hV₂ _ (by simp)
  have he' : (s₄.table.hentry (t.htHentries + 1)).LinkedBehind (chainHead t r') :=
    hV₄ _ (by simp)
  -- both are released: the second release finds the work item of the first one waiting
  obtain ⟨s₅, hrun₅, hw₅, hshape₅, -, hothers₅⟩ :=
    hu₄.releaseFirst ⟨by omega, by omega⟩ he.valid rfl
  obtain ⟨hE₅, hO₅, hB₅, -⟩ := sizes_of_shape hshape₅
  rw [he.bucket] at hw₅
  obtain ⟨s₆, hrun₆, hw₆, hshape₆, hV₆, hothers₆⟩ := hw₅.releaseAll [t.htHentries + 1]
    (List.nodup_singleton _) (fun i hi => by
      rw [List.mem_singleton] at hi
      subst hi
      rw [hothers₅ _ (by omega), he'.bucket, hB₅, hB₄]
      exact ⟨⟨by omega, by omega⟩, he'.valid, hd.symm⟩) (by decide)
  obtain ⟨hE₆, hO₆, -, -⟩ := sizes_of_shape hshape₆
  -- no other entry is marked
  have hmarks : ∀ i, s₆.table.IsOverflow i → (s₆.table.hentry i).flagDeleteMarked = true →
      i ∈ [t.htHentries, t.htHentries + 1] := by
    intro i hi hm
    by_contra hnot
    simp only [List.mem_cons, not_or] at hnot
    rw [hothers₆ i (by simpa using hnot.2), hothers₅ i hnot.1, hu₄.unmarked i ?_] at hm
    · cases hm
    · unfold Htable.IsOverflow at hi ⊢
      omega
  have hcount : ((cont₄ (.chain (chainHead t r))).filter fun e =>
      (s₆.table.hentry e).flagDeleteMarked).length ≤ 2 := by
    have hnd := (hw₆.inv.owned.placed.nodup (.chain (chainHead t r))).filter fun e =>
      (s₆.table.hentry e).flagDeleteMarked
    apply (List.subperm_of_subset hnd ?_).length_le.trans_eq (b := [t.htHentries,
      t.htHentries + 1].length) rfl
    intro i hi
    obtain ⟨hi, hm⟩ := List.mem_filter.mp hi
    exact hmarks i (hw₆.inv.owned.placed.dom_of_mem hi) hm
  -- the work item empties the first chain of its mark, and its callback runs
  obtain ⟨s₇, place₇, cont₇, hrun₇, hinv₇, hshape₇, hworks₇, hcall₇, hflags₇⟩ := hw₆.work hcount
  obtain ⟨s₈, place₈, cont₈, hrun₈, hinv₈, hshape₈, hworks₈, hcall₈, hsame₈⟩ :=
    hinv₇.drain _ hcall₇
  obtain ⟨hE₈, hO₈, -, -⟩ := sizes_of_shape (hshape₈.trans hshape₇)
  refine ⟨s₈, ((hrun₁.trans hrun₂).serviceRun.trans (hrun₃.trans hrun₄).serviceRun).trans
    (((hrun₅.trans hrun₆).trans hrun₇).trans hrun₈), hworks₈.trans hworks₇, hcall₈, ?_⟩
  -- the entry of the second chain is where it was
  have hentry : s₆.table.hentry (t.htHentries + 1) =
      { s₄.table.hentry (t.htHentries + 1) with flagValid := false, flagDeleteMarked := true } := by
    rw [hV₆ _ (by simp), hothers₅ _ (by omega)]
  have hnot : t.htHentries + 1 ∉ (cont₄ (.chain (chainHead t r))).filter fun e =>
      (s₆.table.hentry e).flagDeleteMarked := by
    intro hmem
    have hbucket := hw₆.inv.owned.bucket _ _ (List.mem_filter.mp hmem).1
    rw [hentry] at hbucket
    exact hne (hbucket.symm.trans he'.bucket)
  apply hinv₈.not_reclaimed (e := t.htHentries + 1)
  · unfold Htable.IsOverflow
    omega
  · rw [hsame₈ _ hnot, (hflags₇ _).1, hentry]
  · rw [hsame₈ _ hnot, (hflags₇ _).2, hentry]
    exact he'.free

end

/-! ## Every run -/

/-- For every table `vr_htable_create` makes whose entries have bytes of their own, in service: in
every state in which all scheduled work items and all callbacks have run, no chain contains a
released entry and every released overflow entry is back on the free list, if and only if the
overflow entries can be counted in the 16 bits of `hd_count` and, unless there is one overflow entry
only, two chains do not share their delete data. -/
theorem reclaimed_iff {entries oentries entrySize keySize bucketSize : Nat} {t : Htable}
    (h : vrHtableCreate entries oentries entrySize keySize bucketSize = some t)
    (hfit : t.EntriesFit entrySize) :
    (∀ s, (HtSys.initial t false).ServiceRun s → s.works = [] → s.callbacks = [] →
      s.Reclaimed) ↔
      t.htOentries < 2 ^ 16 ∧ (t.htOentries ≤ 1 ∨ t.HeadsApart) := by
  have hc := (vrHtableCreate_created h).1
  obtain ⟨-, -, -, -, -, -, -, hdata⟩ := vrHtableCreate_created h
  constructor
  · intro hall
    constructor
    · by_contra hO
      obtain ⟨s, hrun, hworks, hcallbacks, hnot⟩ := wrap_strands hc hdata hfit.lt (by omega)
      exact hnot (hall s hrun hworks hcallbacks)
    by_contra hor
    rw [not_or] at hor
    obtain ⟨s, hrun, hworks, hcallbacks, hnot⟩ :=
      shared_strands hc hdata hfit.lt (by omega) hor.2
    exact hnot (hall s hrun hworks hcallbacks)
  · rintro ⟨hcount, hapart⟩ s hrun hworks hcallbacks
    obtain ⟨place, cont, hi, hcounted⟩ :=
      (hc.counted hdata).run (hc.htInv hfit.lt false) hcount hapart hrun
    exact hcounted.reclaimed hi hworks hcallbacks

/-- The bytes of the entries fit, and the two parts of the table can be allocated. -/
theorem vrHtableCreate_isSome {entries oentries entrySize keySize bucketSize : Nat}
    (hb : 0 < bucketSize) (hn : (entries + bucketSize - 1) % 2 ^ 32 / bucketSize * bucketSize = n)
    (hentries : 0 < entries) (hentry : 0 < entrySize) (ho : 0 < oentries) {b b' : Btable}
    (hmain : vrBtableAlloc n entrySize = some b)
    (hover : vrBtableAlloc oentries entrySize = some b') (hfit : BytesFit n entrySize)
    (hfit' : BytesFit oentries entrySize) :
    ∃ t, vrHtableCreate entries oentries entrySize keySize bucketSize = some t ∧
      t.htHentries = n ∧ t.htOentries = oentries ∧ t.htBucketSize = bucketSize := by
  unfold vrHtableCreate
  rw [if_neg (by omega)]
  simp only [if_neg (Nat.ne_of_gt hb), if_neg (Nat.ne_of_gt ho), hn, hmain, hover]
  rw [if_neg (by simp), if_pos]
  · exact ⟨_, rfl, rfl, rfl, rfl⟩
  constructor
  · intro i hi
    obtain ⟨part, off, hget, -⟩ := (layout_of_bytesFit hmain hfit).inside i hi
    unfold mainEntry
    simp only [hget]
    rfl
  · intro i hi
    obtain ⟨part, off, hget, -⟩ := (layout_of_bytesFit hover hfit').inside i hi
    unfold overflowEntry
    simp only [hget]
    rfl

/-- A table with buckets of four, the size callers use. -/
theorem reclaimed_iff_four :
    ∃ t, vrHtableCreate 8 4 32 8 4 = some t ∧ t.EntriesFit 32 ∧
      ∀ s, (HtSys.initial t false).ServiceRun s → s.works = [] → s.callbacks = [] →
        s.Reclaimed := by
  obtain ⟨t, ht, hfit, hE, hB, hO⟩ : ∃ t, vrHtableCreate 8 4 32 8 4 = some t ∧ t.EntriesFit 32 ∧
      t.htHentries = 8 ∧ t.htBucketSize = 4 ∧ t.htOentries = 4 :=
    ⟨_, rfl, ⟨by decide, ⟨by decide, by decide⟩, ⟨by decide, by decide⟩⟩, rfl, rfl, rfl⟩
  refine ⟨t, ht, hfit, (reclaimed_iff ht hfit).mpr ⟨by omega, Or.inr fun r r' _ _ => ?_⟩⟩
  unfold chainHead bucketStart
  rw [hE, hB]
  have hapart : ∀ a < 8, ∀ b < 8, ((a &&& (2 ^ 32 - 1 - 3)) + 4 - 1) / 4 =
      ((b &&& (2 ^ 32 - 1 - 3)) + 4 - 1) / 4 →
      (a &&& (2 ^ 32 - 1 - 3)) + 4 - 1 = (b &&& (2 ^ 32 - 1 - 3)) + 4 - 1 := by decide
  exact hapart _ (Nat.mod_lt _ (by decide)) _ (Nat.mod_lt _ (by decide))

/-- A table of one bucket with `2 ^ 16` overflow entries: after `2 ^ 16` releases in the chain the
counter is zero again, the work item runs and unlinks nothing, and nothing is left to run. -/
theorem released_entries_stay_chained :
    ∃ t s, vrHtableCreate 4 65536 32 8 4 = some t ∧ t.EntriesFit 32 ∧
      (HtSys.initial t false).ServiceRun s ∧ s.works = [] ∧ s.callbacks = [] ∧
      ¬ s.Reclaimed := by
  obtain ⟨t, ht, hE, hO, -⟩ : ∃ t, vrHtableCreate 4 65536 32 8 4 = some t ∧ t.htHentries = 4 ∧
      t.htOentries = 65536 ∧ t.htBucketSize = 4 :=
    vrHtableCreate_isSome (by decide) rfl (by decide) (by decide) (by decide) rfl rfl
      ⟨by decide, by decide⟩ ⟨by decide, by decide⟩
  have hfit : t.EntriesFit 32 := by
    refine ⟨by decide, ⟨?_, by decide⟩, ⟨?_, by decide⟩⟩
    · rw [hE]
      decide
    · rw [hO]
      decide
  obtain ⟨-, -, -, -, -, -, -, hdata⟩ := vrHtableCreate_created ht
  obtain ⟨s, hrun, hworks, hcallbacks, hnot⟩ :=
    wrap_strands (vrHtableCreate_created ht).1 hdata hfit.lt (by omega)
  exact ⟨t, s, ht, hfit, hrun, hworks, hcallbacks, hnot⟩

end VRouter
