import VRouter.Htable.NextIndex

/-!
# VRouter — giving overflow entries back

The invariant of the table with its queues, `HtInv`, and what the operations that give entries
back do to it: `vr_htable_release_hentry` marks an entry, the work item of its bucket takes it out
of the chain and hands it to a deferred callback, and the callback returns it to the free list.
`vr_htable_reset` returns whole chains at once.

Next to the invariant each lemma says which entries are valid afterwards (`KeepsValid`,
`Releases`), which is all that a lookup has to know.
-/

namespace VRouter

open Htable Function

/-! ## Tables whose indices lead to their entries -/

/-- Every index below the table's size leads to its entry, and only those below `ht_hentries` lead
to main entries. -/
structure Htable.Sized (t : Htable) : Prop where
  bucket_pos : 0 < t.htBucketSize
  hentries_pos : 0 < t.htHentries
  oentries_lt : t.htOentries < 2 ^ 32
  entries : t.htHtable.vbEntries = t.htHentries
  get : ∀ i, i < t.htHentries + t.htOentries → vrHtableGetHentryByIndexCore t i = some i

variable {t : Htable} {cont : HtPlace → List Nat} {rest : List Nat} {place : Nat → HtPlace}
    {i ent : Nat} {s'' s' s : HtSys}

theorem Htable.sizes_of_shape {t' : Htable} (h : t'.shape = t.shape) :
    t'.htHentries = t.htHentries ∧ t'.htOentries = t.htOentries ∧
      t'.htBucketSize = t.htBucketSize ∧ ∀ hash, bucketStart t' hash = bucketStart t hash := by
  unfold shape at h
  simp only [Prod.mk.injEq] at h
  obtain ⟨hE, hO, hB, -, -⟩ := h
  refine ⟨hE, hO, hB, fun hash => ?_⟩
  unfold bucketStart
  rw [hE, hB]

theorem Htable.Sized.of_shape {t' : Htable} (h : t.Sized) (hs : t'.shape = t.shape) : t'.Sized := by
  unfold shape at hs
  simp only [Prod.mk.injEq] at hs
  obtain ⟨hE, hO, hB, hH, hT⟩ := hs
  have hget : ∀ i, vrHtableGetHentryByIndexCore t' i = vrHtableGetHentryByIndexCore t i := by
    intro i
    unfold vrHtableGetHentryByIndexCore mainEntry overflowEntry
    rw [hE, hO, hH, hT]
  constructor
  · rw [hB]
    exact h.bucket_pos
  · rw [hE]
    exact h.hentries_pos
  · rw [hO]
    exact h.oentries_lt
  · rw [hE, hH]
    exact h.entries
  · intro i hi
    rw [hE, hO] at hi
    rw [hget]
    exact h.get i hi

theorem Htable.Sized.lt_of_mainEntry (h : t.Sized) {e : Nat} (he : t.mainEntry i = some e) :
    e = i ∧ i < t.htHentries := by
  unfold mainEntry at he
  split at he
  · cases he
    refine ⟨rfl, ?_⟩
    rw [← h.entries]
    apply lt_of_vrBtableGet
    assumption
  · cases he

/-! ## The invariant -/

/-- The table owns its overflow entries, the entries that wait for a callback are those whose
callback has been handed to the scheduler, and no operation is under way. -/
structure HtInv (s : HtSys) (place : Nat → HtPlace) (cont : HtPlace → List Nat) : Prop where
  sized : s.table.Sized
  owned : Owned s.table place cont
  waiting : cont .waiting = s.callbacks
  lost : cont .lost = s.lost
  detached : cont .detached = []
  hdIndex : ∀ d, (s.table.deleteData d).hdIndex < s.table.htHentries

/-- The same entries are valid, and they are in the chains they were in. -/
def Htable.KeepsValid (t t' : Htable) : Prop :=
  ∀ i, (t'.hentry i).flagValid = (t.hentry i).flagValid ∧
    ((t.hentry i).flagValid = true →
      (t'.hentry i).hentryBucketIndex = (t.hentry i).hentryBucketIndex)

namespace Htable.KeepsValid

variable {t' t'' : Htable}

theorem refl (t : Htable) : t.KeepsValid t := fun _ => ⟨rfl, fun _ => rfl⟩

theorem trans (h : t.KeepsValid t') (h' : t'.KeepsValid t'') : t.KeepsValid t'' := by
  intro i
  refine ⟨(h' i).1.trans (h i).1, fun hv => ?_⟩
  rw [(h' i).2 ((h i).1.trans hv), (h i).2 hv]

end Htable.KeepsValid

/-- Entry `ent` is not valid any more; all else about validity is kept. -/
def Htable.Releases (t t' : Htable) (ent : Nat) : Prop :=
  ∀ i, (t'.hentry i).flagValid = (if i = ent then false else (t.hentry i).flagValid) ∧
    (t'.hentry i).hentryBucketIndex = (t.hentry i).hentryBucketIndex

theorem Htable.Releases.of_invalid (hv : (t.hentry ent).flagValid = false) : t.Releases t ent := by
  refine fun i => ⟨?_, rfl⟩
  by_cases hie : i = ent
  · rw [if_pos hie, hie, hv]
  · rw [if_neg hie]

/-- What release and reset leave alone. -/
structure SysKeeps (s s' : HtSys) : Prop where
  shape : s'.table.shape = s.table.shape
  notReady : s'.vrNotReady = s.vrNotReady
  lost : s'.lost = s.lost

theorem SysKeeps.refl (s : HtSys) : SysKeeps s s := ⟨rfl, rfl, rfl⟩

theorem SysKeeps.trans (h : SysKeeps s s') (h' : SysKeeps s' s'') : SysKeeps s s'' :=
  ⟨h'.shape.trans h.shape, h'.notReady.trans h.notReady, h'.lost.trans h.lost⟩

/-- The entries of `l` have lost their marks; all else about the flags is kept. -/
def Htable.Unmarks (t t' : Htable) (l : List Nat) : Prop :=
  ∀ i, (t'.hentry i).hentryBucketIndex = (t.hentry i).hentryBucketIndex ∧
    (t'.hentry i).flagValid = (t.hentry i).flagValid ∧
    (t'.hentry i).flagInFreeList = (t.hentry i).flagInFreeList ∧
    (t'.hentry i).flagDeleteMarked = ((t.hentry i).flagDeleteMarked && !decide (i ∈ l))

theorem unlinkOentry_unmarks (t : Htable) (prev ent : Nat) :
    t.Unmarks (unlinkOentry t prev ent) [ent] := by
  intro i
  unfold unlinkOentry
  by_cases hie : i = ent
  · subst hie
    by_cases hip : i = prev
    · subst hip
      simp
    · simp [modify_of_ne _ _ _ hip]
  · rw [modify_of_ne _ _ _ hie]
    by_cases hip : i = prev
    · subst hip
      simp [hie]
    · simp [modify_of_ne _ _ _ hip, hie]

theorem returnFree_keepsValid (hv : (t.hentry ent).flagValid = false) :
    t.KeepsValid (t.returnFree ent) := by
  intro i
  by_cases hie : i = ent
  · subst hie
    rw [hv]
    exact ⟨by simp [returnFree], nofun⟩
  · rw [returnFree_of_ne hie]
    exact ⟨rfl, fun _ => rfl⟩

theorem hdIndex_of_shape {t' : Htable} (hshape : t'.shape = t.shape)
    (hdata : t'.deleteData = t.deleteData) (h : ∀ d, (t.deleteData d).hdIndex < t.htHentries)
    (d : Nat) : (t'.deleteData d).hdIndex < t'.htHentries := by
  rw [hdata, (sizes_of_shape hshape).1]
  exact h d

namespace HtInv

variable {h : Nat}

/-! ## Release -/

variable (hi : HtInv s place cont)
include hi

/-- A valid overflow entry is in a chain. -/
theorem chain_of_valid (he : s.table.IsOverflow ent) (hv : (s.table.hentry ent).flagValid = true) :
    ∃ h, ent ∈ cont (.chain h) := by
  rcases hi.owned.valid ent he hv with hc | hd
  · exact hc
  · rw [hi.detached] at hd
    cases hd

theorem not_valid {p : HtPlace} (hp : ∀ h, p ≠ .chain h) (he : ent ∈ cont p) :
    (s.table.hentry ent).flagValid = false := by
  rw [← Bool.not_eq_true]
  intro hv
  obtain ⟨h, hc⟩ := hi.chain_of_valid (hi.owned.placed.dom_of_mem he) hv
  exact hi.owned.placed.notMem_of_ne he (hp h) hc

theorem setDeleteData (d : Nat) {data : HentryDeleteData}
    (hdata : data.hdIndex < s.table.htHentries) (works : List Nat) :
    HtInv { s with table := s.table.setDeleteData d data, works := works } place cont := by
  refine ⟨hi.sized.of_shape rfl, ?_, hi.waiting, hi.lost, hi.detached, ?_⟩
  · refine hi.owned.of_kept (by rfl) (by rfl) (by rfl) (by rfl) (by rfl) fun i => ?_
    exact ⟨rfl, fun hover => ⟨rfl, rfl, rfl, id, hi.owned.marked i hover⟩⟩
  intro d'
  show (update s.table.deleteData d data d').hdIndex < s.table.htHentries
  by_cases hd : d' = d
  · subst hd
    rw [update_self]
    exact hdata
  · rw [update_of_ne hd]
    exact hi.hdIndex d'

end HtInv

/-- Handing a bucket to its work item changes delete data and the list of work items only. -/
theorem scheduleDelete_eq (s : HtSys) (scheduled : Bool) (headEnt : Nat) :
    ∃ d data works, scheduleDelete s scheduled headEnt =
        { s with table := s.table.setDeleteData d data, works := works } ∧
      (data.hdIndex = (s.table.deleteData d).hdIndex ∨
        data.hdIndex = (s.table.hentry headEnt).hentryIndex) := by
  unfold scheduleDelete
  simp only
  split
  · exact ⟨_, _, _, rfl, Or.inl rfl⟩
  · split <;> exact ⟨_, _, _, rfl, Or.inr rfl⟩

/-- What `vr_htable_release_hentry` writes to a valid overflow entry. -/
def markDeleted (t : Htable) (e : Nat) : Htable :=
  (t.modify e fun x => { x with flagValid := false, flagDeleteMarked := true }).addUsedEntries (-1)

namespace HtInv

variable {alloc : Nat → Bool} {h : Nat}

section

variable (hi : HtInv s place cont)
include hi

theorem dropValid (ent : Nat) (marked : Hentry → Bool)
    (ht : t = (s.table.modify ent fun x => { x with
      flagValid := false, flagDeleteMarked := marked x }).addUsedEntries (-1)) :
    HtInv { s with table := t } place cont ∧ s.table.Releases t ent := by
  subst ht
  constructor
  · exact ⟨hi.sized.of_shape rfl, hi.owned.dropValid ent marked (-1), hi.waiting, hi.lost,
      hi.detached, hi.hdIndex⟩
  intro i
  rw [addUsedEntries_hentry]
  by_cases hie : i = ent
  · subst hie
    rw [modify_self, if_pos rfl]
    exact ⟨rfl, rfl⟩
  · rw [modify_of_ne _ _ _ hie, if_neg hie]
    exact ⟨rfl, rfl⟩

theorem marks (ent : Nat) :
    HtInv { s with table := markDeleted s.table ent } place cont ∧
      s.table.Releases (markDeleted s.table ent) ent :=
  hi.dropValid ent (fun _ => true) rfl

variable (scheduled : Bool) (he : ent < s.table.htHentries + s.table.htOentries)
include he

/-- `vr_htable_release_hentry` never follows a null pointer. It leaves an entry that is not valid
alone, clears one flag of a main entry, or of any entry out of service, and otherwise marks an
overflow entry, whose bucket is handed over. -/
theorem release_cases :
    ∃ s', vrHtableReleaseHentry s scheduled ent = some s' ∧
      (((s.table.hentry ent).flagValid = false ∧ s' = s) ∨
      ((s.table.hentry ent).flagValid = true ∧ (ent < s.table.htHentries ∨ s.vrNotReady = true) ∧
        s' = { s with table :=
          (s.table.modify ent fun x => { x with flagValid := false }).addUsedEntries (-1) }) ∨
      (s.table.IsOverflow ent ∧ (s.table.hentry ent).flagValid = true ∧
        (s.table.hentry ent).hentryBucketIndex < s.table.htHentries ∧
        ((markDeleted s.table ent).hentry (s.table.hentry ent).hentryBucketIndex).hentryIndex =
          (s.table.hentry ent).hentryBucketIndex ∧
        s' = scheduleDelete { s with table := markDeleted s.table ent } scheduled
          (s.table.hentry ent).hentryBucketIndex)) := by
  unfold vrHtableReleaseHentry
  by_cases hv : (s.table.hentry ent).flagValid = true
  · rw [if_neg (by simp [hv])]
    simp only
    have hidx := hi.owned.index ent he
    by_cases hmain : ent < s.table.htHentries
    · rw [if_pos (by simpa [hidx] using hmain)]
      exact ⟨_, rfl, Or.inr (Or.inl ⟨hv, Or.inl hmain, rfl⟩)⟩
    rw [if_neg (by simpa [hidx] using hmain)]
    by_cases hready : s.vrNotReady = true
    · rw [if_pos hready]
      exact ⟨_, rfl, Or.inr (Or.inl ⟨hv, Or.inr hready, rfl⟩)⟩
    rw [if_neg hready, addUsedEntries_modify, modify_modify]
    have hover : s.table.IsOverflow ent := ⟨by omega, he⟩
    -- the bucket index of a valid overflow entry names the head of its chain
    obtain ⟨h, hc⟩ := hi.chain_of_valid hover hv
    have hlt : (s.table.hentry ent).hentryBucketIndex < s.table.htHentries := by
      rw [hi.owned.bucket h ent hc]
      exact hi.owned.head_lt h ent hc
    obtain ⟨hinv, hrel⟩ := hi.marks ent
    have hidx := hinv.owned.index _ (Nat.lt_add_right _ hlt)
    have hget := hinv.sized.get _ (Nat.lt_add_right _ hlt)
    unfold markDeleted at hget hrel
    rw [(hrel ent).2, hget]
    exact ⟨_, rfl, Or.inr (Or.inr ⟨hover, hv, hlt, hidx, rfl⟩)⟩
  · rw [if_pos hv]
    exact ⟨s, rfl, Or.inl ⟨by simpa using hv, rfl⟩⟩

/-- `vr_htable_release_hentry` keeps the invariant and every entry's place, and the entry it is
given is not valid afterwards. -/
theorem release :
    ∃ s', vrHtableReleaseHentry s scheduled ent = some s' ∧ HtInv s' place cont ∧
      s.table.Releases s'.table ent ∧ SysKeeps s s' := by
  obtain ⟨s', hs', hcases⟩ := hi.release_cases scheduled he
  refine ⟨s', hs', ?_⟩
  rcases hcases with ⟨hv, rfl⟩ | ⟨-, -, rfl⟩ | ⟨-, -, hlt, hidx, rfl⟩
  · exact ⟨hi, .of_invalid hv, .refl _⟩
  · obtain ⟨hinv, hrel⟩ := hi.dropValid ent (·.flagDeleteMarked) rfl
    exact ⟨hinv, hrel, rfl, rfl, rfl⟩
  · obtain ⟨hinv, hrel⟩ := hi.marks ent
    obtain ⟨d, data, works, heq, hdata⟩ := scheduleDelete_eq
      { s with table := markDeleted s.table ent } scheduled
      (s.table.hentry ent).hentryBucketIndex
    rw [heq]
    refine ⟨hinv.setDeleteData d ?_ works, hrel, rfl, rfl, rfl⟩
    rcases hdata with hdata | hdata
    · rw [hdata]
      exact hinv.hdIndex d
    · rw [hdata, hidx]
      exact hlt

theorem release_indexed (ht : s.table.Indexed)
    (h : vrHtableReleaseHentry s scheduled ent = some s') : s'.table.Indexed := by
  obtain ⟨s₁, hs₁, hcases⟩ := hi.release_cases scheduled he
  cases hs₁.symm.trans h
  rcases hcases with ⟨-, rfl⟩ | ⟨hv, -, rfl⟩ | ⟨-, hv, -, -, rfl⟩
  · exact ht
  · exact ht.write rfl (ht.links ent) he (by simp [hv])
  · obtain ⟨d, data, works, heq, -⟩ := scheduleDelete_eq
      { s with table := markDeleted s.table ent } scheduled
      (s.table.hentry ent).hentryBucketIndex
    rw [heq]
    have h : (markDeleted s.table ent).Indexed := ht.write rfl (ht.links ent) he (by simp [hv])
    exact ⟨h.links, h.used⟩

end

/-! ## The work item of a bucket -/

/-- What a run of work leaves alone, next to the invariant: the flags of valid entries, and the
record of lost entries if every allocation succeeds. -/
structure WorkKeeps (alloc : Nat → Bool) (s s' : HtSys) : Prop where
  shape : s'.table.shape = s.table.shape
  valid : s.table.KeepsValid s'.table
  notReady : s'.vrNotReady = s.vrNotReady
  works : s'.works = s.works
  lost : (∀ e, alloc e = true) → s'.lost = s.lost

theorem WorkKeeps.refl (alloc : Nat → Bool) (s : HtSys) : WorkKeeps alloc s s :=
  ⟨rfl, .refl _, rfl, rfl, fun _ => rfl⟩

theorem WorkKeeps.trans (h : WorkKeeps alloc s s') (h' : WorkKeeps alloc s' s'') :
    WorkKeeps alloc s s'' :=
  ⟨h'.shape.trans h.shape, h.valid.trans h'.valid, h'.notReady.trans h.notReady,
    h'.works.trans h.works, fun ha => (h'.lost ha).trans (h.lost ha)⟩

/-- What the loop does with a marked entry once it is out of its chain. -/
def reclaim (alloc : Nat → Bool) (s : HtSys) (ent : Nat) : HtSys :=
  if s.vrNotReady then { s with table := vrHtableOentryInvalidate s.table ent }
  else if alloc ent then { s with callbacks := s.callbacks ++ [ent] }
  else { s with lost := s.lost ++ [ent] }

/-- The detached entry `ent` goes to the free list, the callbacks or the lost entries. -/
theorem reclaim_detached (alloc : Nat → Bool) (hsized : s.table.Sized)
    (howned : Owned s.table place cont) (hw : cont .waiting = s.callbacks)
    (hl : cont .lost = s.lost) (hdIndex : ∀ d, (s.table.deleteData d).hdIndex < s.table.htHentries)
    (hd : cont .detached = [ent]) (hinvalid : (s.table.hentry ent).flagValid = false) :
    ∃ place' cont', HtInv (reclaim alloc s ent) place' cont' ∧
      (∀ h, cont' (.chain h) = cont (.chain h)) ∧ WorkKeeps alloc s (reclaim alloc s ent) ∧
      (s.table.Indexed → (reclaim alloc s ent).table.Indexed) := by
  have hperm : (cont .detached).Perm [ent] := by rw [hd]
  unfold reclaim
  split
  · -- out of service: straight back to the free list
    have howned' := howned.invalidate hsized.oentries_lt hperm (by simp) (by simp)
    rw [howned.invalidate_eq (hperm.mem_iff.mpr (by simp)) (by simp)]
    refine ⟨_, _, ⟨hsized.of_shape rfl, howned', ?_, ?_, ?_, hdIndex⟩, ?_, ?_, ?_⟩
    · simpa using hw
    · simpa using hl
    · simp
    · simp
    · exact ⟨rfl, returnFree_keepsValid hinvalid, rfl, rfl, fun _ => rfl⟩
    · intro ht
      exact ht.returnFree hinvalid (howned.placed.dom_of_mem (hperm.mem_iff.mpr (by simp))).1
  · split
    · have howned' := howned.relocate hperm (Or.inl rfl) hinvalid
      refine ⟨_, _, ⟨hsized, howned', ?_, ?_, ?_, hdIndex⟩, ?_, ?_, id⟩
      · simp [hw]
      · simpa using hl
      · simp
      · simp
      · exact ⟨rfl, .refl _, rfl, rfl, fun _ => rfl⟩
    · have howned' := howned.relocate hperm (Or.inr rfl) hinvalid
      refine ⟨_, _, ⟨hsized, howned', ?_, ?_, ?_, hdIndex⟩, ?_, ?_, id⟩
      · simpa using hw
      · simp [hl]
      · simp
      · simp
      · refine ⟨rfl, .refl _, rfl, rfl, fun ha => ?_⟩
        exact absurd (ha ent) (by assumption)

variable {prev : Nat} {K m : List Nat} (hi : HtInv s place cont)
include hi

theorem unlink_reclaim (alloc : Nat → Bool) (hh : h < s.table.htHentries)
    (hC : cont (.chain h) = K ++ ent :: rest) (hK : h :: K = m ++ [prev])
    (hmarked : (s.table.hentry ent).flagDeleteMarked = true) : ∃ place' cont',
      HtInv (reclaim alloc { s with table := unlinkOentry s.table prev ent } ent) place' cont' ∧
      cont' (.chain h) = K ++ rest ∧
      WorkKeeps alloc s (reclaim alloc { s with table := unlinkOentry s.table prev ent } ent) ∧
      (s.table.Indexed →
        (reclaim alloc { s with table := unlinkOentry s.table prev ent } ent).table.Indexed) := by
  have howned := hi.owned.unlink hh hC hK hmarked
  have hmem : ent ∈ cont (.chain h) := by rw [hC]; simp
  have hinvalid := hi.owned.marked ent (hi.owned.placed.dom_of_mem hmem) hmarked
  have hkeeps : s.table.KeepsValid (unlinkOentry s.table prev ent) := fun i =>
    have hi := unlinkOentry_unmarks s.table prev ent i
    ⟨hi.2.1, fun _ => hi.1⟩
  obtain ⟨place', cont', hinv, hchain, hwork, hix⟩ :=
    reclaim_detached (s := { s with table := unlinkOentry s.table prev ent }) alloc
      (hi.sized.of_shape rfl) howned (by simpa using hi.waiting) (by simpa using hi.lost)
      hi.hdIndex (by simp [hi.detached]) ((hkeeps ent).1.trans hinvalid)
  refine ⟨place', cont', hinv, ?_, ?_, fun ht => hix ht.unlinkOentry⟩
  · rw [hchain]
    simp
  · have hunlinked : WorkKeeps alloc s { s with table := unlinkOentry s.table prev ent } :=
      ⟨rfl, hkeeps, rfl, rfl, fun _ => rfl⟩
    exact hunlinked.trans hwork

/-- One round of the loop at an entry that is in its chain: it either unlinks the entry behind
`prev` or moves `prev` on to it. -/
theorem scheduledDeleteLoop_cons (hh : h < s.table.htHentries)
    (hC : cont (.chain h) = K ++ ent :: rest) (hK : h :: K = m ++ [prev]) (fuel count : Nat) :
    scheduledDeleteLoop alloc (fuel + 1) prev (some ent) (count + 1) s =
      if (s.table.hentry ent).flagDeleteMarked then
        scheduledDeleteLoop alloc fuel prev rest.head? count
          (reclaim alloc { s with table := unlinkOentry s.table prev ent } ent)
      else scheduledDeleteLoop alloc fuel ent rest.head? (count + 1) s := by
  have hproc := hi.owned.processed h ent (by rw [hC]; simp)
  have hlinked := hi.owned.chain h hh
  rw [hC, ← List.cons_append] at hlinked
  have hnext : s.table.next ent = rest.head? := hlinked.suffix.2.eq_head?
  -- the entry's own pointer is not touched, as `prev` is another node of the list
  have hnext' : (unlinkOentry s.table prev ent).next ent = rest.head? := by
    have hnd := hlinked.nodup
    rw [hK] at hnd
    have hpe : ent ≠ prev := by
      rintro rfl
      simp [List.nodup_append] at hnd
    rw [← hnext, unlinkOentry_next, update_of_ne hpe]
  by_cases hm : (s.table.hentry ent).flagDeleteMarked = true
  · have hself : ((unlinkOentry s.table prev ent).hentry ent).flagDeleteProcessed = true := by
      unfold unlinkOentry
      rw [modify_self]
    rw [← hnext']
    show (if _ then _ else _) = _
    simp only [hm, if_true, hself]
    unfold reclaim
    split
    · rfl
    · split <;> rfl
  · rw [← hnext]
    show (if _ then _ else _) = _
    simp only [hm, hproc, if_false, Bool.false_eq_true]

/-- The loop from behind `K` on, where `prev` is the last of `h :: K`. It ends at the end of the
chain or when `count` is used up: with as much fuel as the chain has entries, more does not change
the result. -/
theorem scheduledDeleteLoop (alloc : Nat → Bool)
    (hh : h < s.table.htHentries) (hC : cont (.chain h) = K ++ rest) (hK : h :: K = m ++ [prev])
    (fuel count : Nat) : ∃ place' cont',
      HtInv (scheduledDeleteLoop alloc fuel prev rest.head? count s) place' cont' ∧
      WorkKeeps alloc s (VRouter.scheduledDeleteLoop alloc fuel prev rest.head? count s) ∧
      (s.table.Indexed →
        (VRouter.scheduledDeleteLoop alloc fuel prev rest.head? count s).table.Indexed) ∧
      (rest.length ≤ fuel → ∀ n,
        VRouter.scheduledDeleteLoop alloc (fuel + n) prev rest.head? count s =
          VRouter.scheduledDeleteLoop alloc fuel prev rest.head? count s) := by
  induction fuel generalizing s place cont prev K m rest count with
  | zero =>
    refine ⟨place, cont, hi, .refl _ _, id, fun hlen n => ?_⟩
    obtain rfl := List.eq_nil_of_length_eq_zero (Nat.le_zero.mp hlen)
    cases n <;> rfl
  | succ fuel ih =>
    cases rest with
    | nil =>
      refine ⟨place, cont, hi, .refl _ _, id, fun _ n => ?_⟩
      rw [Nat.add_right_comm]
      rfl
    | cons ent rest =>
      cases count with
      | zero =>
        refine ⟨place, cont, hi, .refl _ _, id, fun _ n => ?_⟩
        rw [Nat.add_right_comm]
        rfl
      | succ count =>
        simp only [List.head?_cons, Nat.add_right_comm fuel 1,
          scheduledDeleteLoop_cons hi hh hC hK, List.length_cons, Nat.add_le_add_iff_right]
        by_cases hmarked : (s.table.hentry ent).flagDeleteMarked = true
        · simp only [if_pos hmarked]
          obtain ⟨place', cont', hinv, hchain, hwork, hix⟩ :=
            hi.unlink_reclaim alloc hh hC hK hmarked
          have hE := congrArg Prod.fst hwork.shape
          obtain ⟨place'', cont'', hinv', hwork', hix', hfuel⟩ :=
            ih hinv (lt_of_lt_of_eq hh hE.symm) hchain hK count
          exact ⟨place'', cont'', hinv', hwork.trans hwork', hix' ∘ hix, hfuel⟩
        · simp only [if_neg hmarked]
          exact ih hi hh (m := h :: K) (by rw [hC]; simp) rfl _

/-- The work item of a bucket keeps the invariant and every valid entry. -/
theorem scheduledDelete (alloc : Nat → Bool) (d : Nat) :
    ∃ place' cont', HtInv (vrHtableHentryScheduledDelete s alloc d) place' cont' ∧
      WorkKeeps alloc s (vrHtableHentryScheduledDelete s alloc d) ∧
      (s.table.Indexed → (vrHtableHentryScheduledDelete s alloc d).table.Indexed) := by
  have hh := hi.hdIndex d
  unfold vrHtableHentryScheduledDelete
  simp only [hi.sized.get _ (Nat.lt_add_right _ hh)]
  rw [setDeleteData_next, (hi.owned.chain _ hh).2.eq_head?]
  -- the work starts with delete data of its own, so that marks made meanwhile are counted anew
  generalize hdata : (⟨(s.table.deleteData d).hdIndex, 0, false⟩ : HentryDeleteData) = data
  have hinv : HtInv { s with table := s.table.setDeleteData d data } place cont := by
    apply hi.setDeleteData
    rw [← hdata]
    exact hh
  have hset : WorkKeeps alloc s { s with table := s.table.setDeleteData d data } :=
    ⟨rfl, .refl _, rfl, rfl, fun _ => rfl⟩
  obtain ⟨place', cont', hinv', hwork, hix, -⟩ := hinv.scheduledDeleteLoop alloc hh
    (m := []) rfl rfl s.table.htOentries (s.table.deleteData d).hdCount
  exact ⟨place', cont', hinv', hset.trans hwork, fun ht => hix ⟨ht.links, ht.used⟩⟩

/-! ## The deferred callback -/

theorem waiting_of_callbacks (he : ent ∈ s.callbacks) :
    ent ∈ cont .waiting ∧ vrHtableHentryDeferDelete s.table ent = s.table.returnFree ent := by
  have hmem : ent ∈ cont .waiting := by rw [hi.waiting]; exact he
  refine ⟨hmem, ?_⟩
  unfold vrHtableHentryDeferDelete
  rw [hi.sized.get ent (hi.owned.placed.dom_of_mem hmem).2]
  exact hi.owned.invalidate_eq hmem (by simp)

theorem deferDelete (he : ent ∈ s.callbacks) :
    ∃ place' cont',
      HtInv { s with
        table := vrHtableHentryDeferDelete s.table ent
        callbacks := s.callbacks.erase ent } place' cont' ∧
      (vrHtableHentryDeferDelete s.table ent).shape = s.table.shape ∧
      s.table.KeepsValid (vrHtableHentryDeferDelete s.table ent) ∧
      (s.table.Indexed → (vrHtableHentryDeferDelete s.table ent).Indexed) := by
  obtain ⟨hmem, heq⟩ := hi.waiting_of_callbacks he
  have hperm : (cont .waiting).Perm (ent :: s.callbacks.erase ent) := by
    rw [hi.waiting]
    exact List.perm_cons_erase he
  have howned := hi.owned.invalidate hi.sized.oentries_lt hperm (by simp) (by simp)
  have hinvalid := hi.not_valid (by simp) hmem
  rw [heq]
  refine ⟨_, _, ⟨hi.sized.of_shape rfl, howned, ?_, ?_, ?_, hi.hdIndex⟩, rfl, ?_, ?_⟩
  · simp
  · simpa using hi.lost
  · simpa using hi.detached
  · exact returnFree_keepsValid hinvalid
  · exact fun ht => ht.returnFree hinvalid (hi.owned.placed.dom_of_mem hmem).1

end HtInv

/-! ## Reset -/

theorem Owned.resetValid (ho : Owned t place cont) (ent : Nat) :
    Owned (resetValid t ent) place cont ∧ (VRouter.resetValid t ent).shape = t.shape ∧
      (VRouter.resetValid t ent).deleteData = t.deleteData ∧
      (VRouter.resetValid t ent).next = t.next := by
  unfold VRouter.resetValid
  split
  · refine ⟨?_, rfl, rfl, ?_⟩
    · exact ho.dropValid _ (·.flagDeleteMarked) _
    rw [addUsedEntries_next]
    exact next_modify_of_eq _ _ _ rfl
  · exact ⟨ho, rfl, rfl, rfl⟩

/-- The chain loop of `vr_htable_reset` returns all of a detached chain to the free list. -/
theorem Owned.resetChain {fuel : Nat} (hfuel : rest.length ≤ fuel) {p : Option Nat}
    (ho : Owned t place cont) (hO : t.htOentries < 2 ^ 32) (hd : cont .detached = rest)
    (hlinked : Linked t.next p rest) :
    ∃ place' cont', Owned (resetChain fuel p t) place' cont' ∧ cont' .detached = [] ∧
      cont' .waiting = cont .waiting ∧ cont' .lost = cont .lost ∧
      (VRouter.resetChain fuel p t).shape = t.shape ∧
      (VRouter.resetChain fuel p t).deleteData = t.deleteData ∧
      (t.Indexed → (VRouter.resetChain fuel p t).Indexed) := by
  induction rest generalizing fuel t place cont p with
  | nil =>
    subst hlinked
    refine ⟨place, cont, ?_⟩
    cases fuel <;> exact ⟨ho, hd, rfl, rfl, rfl, rfl, id⟩
  | cons ent rest ih =>
    obtain ⟨rfl, hrest⟩ := hlinked
    cases fuel with
    | zero => exact absurd hfuel (by simp)
    | succ fuel =>
      obtain ⟨ho₁, hshape₁, hdata₁, hnext₁⟩ := ho.resetValid ent
      obtain ⟨hE₁, hO₁, -, -⟩ := sizes_of_shape hshape₁
      have hperm : (cont .detached).Perm (ent :: rest) := by rw [hd]
      have hover := ho.placed.dom_of_mem (hperm.mem_iff.mpr List.mem_cons_self)
      have ho₂ := ho₁.invalidate (by rw [hO₁]; exact hO) hperm (by simp) (by simp)
      rw [VRouter.resetChain, ho₁.invalidate_eq (hperm.mem_iff.mpr (by simp)) (by simp)]
      -- the rest of the chain does not go through the entry that is returned
      have hnd := ho.placed.nodup .detached
      rw [hd] at hnd
      have hrest₂ : Linked ((VRouter.resetValid t ent).returnFree ent).next (t.next ent) rest := by
        rw [returnFree_next, hnext₁]
        exact hrest.update_of_notMem (List.nodup_cons.mp hnd).1
      obtain ⟨place', cont', ho', hd', hw', hl', hshape', hdata', hix'⟩ :=
        ih (Nat.le_of_succ_le_succ hfuel) ho₂ (lt_of_eq_of_lt hO₁ hO) (by simp) hrest₂
      refine ⟨place', cont', ho', hd', ?_, ?_, ?_, ?_, ?_⟩
      · rw [hw']
        simp
      · rw [hl']
        simp
      · exact hshape'.trans hshape₁
      · exact hdata'.trans hdata₁
      · intro ht
        exact hix' ((ht.resetValid hover.2).returnFree (resetValid_self t ent)
          (le_of_eq_of_le hE₁ hover.1))

namespace HtInv

variable (hi : HtInv s place cont)
include hi

theorem resetCallback
    (hlt : i < s.table.htHentries + s.table.htOentries) (scheduled : Bool) (release : Nat → Bool) :
    ∃ s', (if release i then vrHtableReleaseHentry s scheduled i else some s) = some s' ∧
      HtInv s' place cont ∧ SysKeeps s s' ∧ (s.table.Indexed → s'.table.Indexed) := by
  by_cases hr : release i = true
  · rw [if_pos hr]
    obtain ⟨s', hs', hi', -, hkeep⟩ := hi.release scheduled hlt
    exact ⟨s', hs', hi', hkeep, fun ht => hi.release_indexed scheduled hlt ht hs'⟩
  · rw [if_neg hr]
    exact ⟨s, rfl, hi, .refl s, id⟩

/-- A chain is detached from its main entry, and then returned entry by entry. -/
theorem emptyChain (hmain : i < s.table.htHentries) (ht : t = s.table.modify i fun e =>
      { e with hentryNext := none, hentryNextIndex := vrInvalidHentryIndex }) : ∃ place' cont',
      HtInv { s with table := resetChain t.htOentries (s.table.next i) t } place' cont' ∧
      SysKeeps s { s with table := resetChain t.htOentries (s.table.next i) t } ∧
      (s.table.Indexed → (resetChain t.htOentries (s.table.next i) t).Indexed) := by
  have hdetached := hi.owned.detachChain hmain hi.detached
  rw [← ht] at hdetached
  have hlinked : Linked t.next (s.table.next i) (cont (.chain i)) := by
    rw [ht, next_modify]
    exact (hi.owned.chain i hmain).2.update_of_notMem (hi.owned.main_notMem hmain _)
  have hO : t.htOentries = s.table.htOentries := by rw [ht]; rfl
  have hlen : (cont (.chain i)).length ≤ t.htOentries := by
    rw [hO]
    exact hi.owned.length_le _
  obtain ⟨place', cont', howned, hd, hw, hl, hshape, hdata, hix⟩ :=
    hdetached.resetChain hlen (by rw [hO]; exact hi.sized.oentries_lt) (by simp) hlinked
  have hshape' : (resetChain t.htOentries (s.table.next i) t).shape = s.table.shape := by
    rw [hshape, ht]
    rfl
  have hdata' : (resetChain t.htOentries (s.table.next i) t).deleteData = s.table.deleteData := by
    rw [hdata, ht]
    rfl
  refine ⟨place', cont', ⟨hi.sized.of_shape hshape', howned, ?_, ?_, hd,
    hdIndex_of_shape hshape' hdata' hi.hdIndex⟩, ⟨hshape', rfl, rfl⟩, ?_⟩
  · rw [hw]
    simpa using hi.waiting
  · rw [hl]
    simpa using hi.lost
  · intro hix₀
    exact hix (ht ▸ hix₀.relink rfl (fun _ => rfl) rfl)

theorem resetEntry (hlt : i < s.table.htHentries + s.table.htOentries)
    (scheduled : Bool) (release : Nat → Bool) :
    ∃ s' place' cont', resetEntry scheduled release i s = some s' ∧ HtInv s' place' cont' ∧
      SysKeeps s s' ∧ (s.table.Indexed → s'.table.Indexed) := by
  obtain ⟨s₁, hs₁, hi₁, hkeep₁, hix₁⟩ := hi.resetCallback hlt scheduled release
  obtain ⟨ho₂, hshape₂, hdata₂, -⟩ := hi₁.owned.resetValid i
  have hi₂ : HtInv { s₁ with table := resetValid s₁.table i } place cont :=
    ⟨hi₁.sized.of_shape hshape₂, ho₂, hi₁.waiting, hi₁.lost, hi₁.detached,
      hdIndex_of_shape hshape₂ hdata₂ hi₁.hdIndex⟩
  have hkeep₂ : SysKeeps s { s₁ with table := resetValid s₁.table i } :=
    hkeep₁.trans ⟨hshape₂, rfl, rfl⟩
  obtain ⟨hE, hO, -, -⟩ := sizes_of_shape hkeep₁.shape
  have hix₂ : s.table.Indexed → (resetValid s₁.table i).Indexed := fun ht =>
    (hix₁ ht).resetValid (by rwa [hE, hO])
  unfold VRouter.resetEntry
  rw [hs₁]
  simp only
  by_cases hmain : i < (resetValid s₁.table i).htHentries
  · rw [if_pos hmain]
    have hempty := hi₂.emptyChain hmain rfl
    cases hnext : (resetValid s₁.table i).next i with
    | none => exact ⟨_, place, cont, rfl, hi₂, hkeep₂, hix₂⟩
    | some ent =>
      simp only [hnext] at hempty
      obtain ⟨place', cont', hi', hkeep', hix'⟩ := hempty
      exact ⟨_, place', cont', rfl, hi', hkeep₂.trans hkeep', hix' ∘ hix₂⟩
  · rw [if_neg hmain]
    exact ⟨_, place, cont, rfl, hi₂, hkeep₂, hix₂⟩

theorem reset (scheduled : Bool) (release : Nat → Bool) :
    ∃ s' place' cont', vrHtableReset s scheduled release = some s' ∧ HtInv s' place' cont' ∧
      SysKeeps s s' ∧ (s.table.Indexed → s'.table.Indexed) := by
  have hrounds : ∀ (l : List Nat) (s : HtSys) place cont, HtInv s place cont →
      (∀ i ∈ l, i < s.table.htHentries + s.table.htOentries) →
      ∃ s' place' cont', l.foldl (fun s i => s.bind (VRouter.resetEntry scheduled release i))
        (some s) = some s' ∧ HtInv s' place' cont' ∧ SysKeeps s s' ∧
          (s.table.Indexed → s'.table.Indexed) := by
    intro l
    induction l with
    | nil =>
      intro s place cont hi _
      exact ⟨s, place, cont, rfl, hi, .refl s, id⟩
    | cons i l ih =>
      intro s place cont hi hl
      obtain ⟨s₁, place₁, cont₁, hs₁, hi₁, hkeep₁, hix₁⟩ :=
        hi.resetEntry (hl i (by simp)) scheduled release
      obtain ⟨hE, hO, -, -⟩ := sizes_of_shape hkeep₁.shape
      obtain ⟨s', place', cont', hs', hi', hkeep', hix'⟩ := ih s₁ place₁ cont₁ hi₁ fun j hj => by
        rw [hE, hO]
        exact hl j (List.mem_cons_of_mem _ hj)
      refine ⟨s', place', cont', ?_, hi', hkeep₁.trans hkeep', hix' ∘ hix₁⟩
      rw [List.foldl_cons, Option.bind_some, hs₁]
      exact hs'
  apply hrounds _ s place cont hi
  intro i hlt
  rw [List.mem_range] at hlt
  exact lt_of_lt_of_le hlt (Nat.mod_le _ _)

end HtInv

end VRouter
