import VRouter.Htable.Reclaim
import VRouter.Lib.Run

/-!
# VRouter — runs of the hash table

The table as a system: callers take and release entries, the scheduler runs the work items and
callbacks it has been given, each once and in any order, a reset may come at any time, and the
table may be out of service. `overflow_entries_in_one_place` says that over all such runs every
overflow entry is on the free list, in one chain, behind one callback that is still to run, or
unlinked for good because no callback could be allocated for it.
-/

namespace VRouter

open Htable

/-! ## Taking an entry -/

section

variable {t : Htable} {p : Nat → Bool} {start left i e : Nat}

/-- A loop over the entries of a bucket: the first one that meets `p`, or `some none` if none
does. -/
def bucketScan (t : Htable) (p : Nat → Bool) (start : Nat) : (left i : Nat) → Option (Option Nat)
  | 0, _ => some none
  | left + 1, i =>
    match t.mainEntry (start + i) with
    | none => none
    | some ent => if p ent then some (some ent) else bucketScan t p start left (i + 1)

theorem findFreeScan_eq_bucketScan : findFreeScan t start left i =
    bucketScan t (fun e => !(t.hentry e).flagValid) start left i := by
  induction left generalizing i with
  | zero => rfl
  | succ left ih =>
    rw [findFreeScan, bucketScan, ih]
    cases t.mainEntry (start + i) with
    | none => rfl
    | some ent => cases hv : (t.hentry ent).flagValid <;> simp [hv]

theorem bucketScan_some (h : bucketScan t p start left i = some (some e)) :
    start + i ≤ e ∧ e < start + i + left ∧ t.mainEntry e = some e ∧ p e = true := by
  induction left generalizing i with
  | zero => cases h
  | succ left ih =>
    unfold bucketScan at h
    rcases t.mainEntry_eq (start + i) with hnone | hsome
    · rw [hnone] at h
      cases h
    rw [hsome] at h
    simp only at h
    split at h
    · cases h
      exact ⟨le_refl _, by omega, hsome, by assumption⟩
    · have := ih h
      exact ⟨by omega, by omega, this.2.2⟩

theorem bucketScan_isSome
    (h : ∀ j, i ≤ j → j < i + left → t.mainEntry (start + j) = some (start + j)) :
    ∃ r, bucketScan t p start left i = some r := by
  induction left generalizing i with
  | zero => exact ⟨none, rfl⟩
  | succ left ih =>
    unfold bucketScan
    rw [h i (le_refl i) (by omega)]
    simp only
    split
    · exact ⟨_, rfl⟩
    · exact ih fun j hij hj => h j (by omega) (by omega)

/-- A bucket loop that finds nothing has seen the whole bucket. -/
theorem bucketScan_none (h : bucketScan t p start left i = some none) {j : Nat} (hij : i ≤ j)
    (hj : j < i + left) : t.mainEntry (start + j) = some (start + j) ∧ p (start + j) = false := by
  induction left generalizing i with
  | zero => omega
  | succ left ih =>
    unfold bucketScan at h
    rcases t.mainEntry_eq (start + i) with hnone | hsome
    · rw [hnone] at h
      cases h
    rw [hsome] at h
    simp only at h
    split at h
    · cases h
    by_cases heq : j = i
    · subst heq
      exact ⟨hsome, by simp_all⟩
    · exact ih h (by omega) (by omega)

end

/-- Entry `e` has become valid, in the bucket of the hash value or in its chain; all else about
validity is kept. -/
structure Htable.Inserts (t t' : Htable) (hash e : Nat) : Prop where
  lt : e < t.htHentries + t.htOentries
  fresh : (t.hentry e).flagValid = false
  valid : (t'.hentry e).flagValid = true
  main : e < t.htHentries → bucketStart t hash ≤ e ∧ e < bucketStart t hash + t.htBucketSize
  overflow : t.htHentries ≤ e →
    (t'.hentry e).hentryBucketIndex = bucketStart t hash + t.htBucketSize - 1
  others : ∀ i, i ≠ e → (t'.hentry i).flagValid = (t.hentry i).flagValid ∧
    ((t.hentry i).flagValid = true →
      (t'.hentry i).hentryBucketIndex = (t.hentry i).hentryBucketIndex)

variable {t t' : Htable} {cont : HtPlace → List Nat} {place : Nat → HtPlace} {s s' : HtSys}
    {entrySize e h i hash : Nat} {r : Option Nat} {notReady : Bool} {as : List HtStep} {a : HtStep}

/-- An entry of a bucket, taken into use. -/
def Htable.takeMain (t : Htable) (e : Nat) : Htable :=
  (t.modify e fun x =>
    { x with
      flagValid := true
      flagDeleteMarked := false
      flagDeleteProcessed := false
      flagInFreeList := false
      hentryBucketIndex := vrInvalidHentryIndex }).addUsedEntries 1

theorem takeMain_of_ne (h : i ≠ e) : (t.takeMain e).hentry i = t.hentry i := by
  unfold Htable.takeMain
  rw [addUsedEntries_hentry, modify_of_ne _ _ _ h]

/-- The main entry that the chain of a hash value hangs from. -/
def chainHead (t : Htable) (hash : Nat) : Nat := bucketStart t hash + t.htBucketSize - 1

/-- The bucket of a hash value lies inside the table. -/
def Htable.BucketInside (t : Htable) (hash : Nat) : Prop :=
  bucketStart t hash + t.htBucketSize ≤ t.htHentries

theorem vrHtableFindFreeHentry_of_full
    (hscan : findFreeScan t (bucketStart t hash) t.htBucketSize 0 = some none)
    (hO : t.htOentries ≠ 0) (hhead : t.htFreeOentryHead = some e) :
    vrHtableFindFreeHentry t hash = some (some e, t.chainFree (chainHead t hash) e) := by
  unfold vrHtableFindFreeHentry vrHtableGetFreeOentry
  simp only [hscan, if_neg hO, hhead]
  rfl

/-- The ways in which `vr_htable_find_free_hentry` returns: without an entry; with an entry of the
bucket; with the first entry of the free list, chained behind the bucket. -/
theorem vrHtableFindFreeHentry_cases (h : vrHtableFindFreeHentry t hash = some (r, t')) :
    (r = none ∧ t' = t) ∨
    (∃ e, r = some e ∧ findFreeScan t (bucketStart t hash) t.htBucketSize 0 = some (some e) ∧
      t' = t.takeMain e) ∨
    (∃ e, r = some e ∧ t.htFreeOentryHead = some e ∧
      findFreeScan t (bucketStart t hash) t.htBucketSize 0 = some none ∧
      t' = t.chainFree (chainHead t hash) e) := by
  have hfind := h
  unfold vrHtableFindFreeHentry at h
  dsimp only at h
  split at h
  · cases h
  · rename_i e hscan
    cases h
    exact Or.inr (Or.inl ⟨e, rfl, hscan, rfl⟩)
  rename_i hscan
  unfold vrHtableGetFreeOentry at h
  by_cases hO : t.htOentries = 0
  · simp only [if_pos hO] at h
    cases h
    exact Or.inl ⟨rfl, rfl⟩
  cases hhead : t.htFreeOentryHead with
  | none =>
    simp only [if_neg hO, hhead] at h
    cases h
    exact Or.inl ⟨rfl, rfl⟩
  | some e =>
    cases hfind.symm.trans (vrHtableFindFreeHentry_of_full hscan hO hhead)
    exact Or.inr (Or.inr ⟨e, rfl, rfl, hscan, rfl⟩)

namespace HtInv

theorem mainEntry (hi : HtInv s place cont) {i : Nat} (h : i < s.table.htHentries) :
    s.table.mainEntry i = some i := by
  have hget := hi.sized.get i (Nat.lt_add_right _ h)
  unfold vrHtableGetHentryByIndexCore at hget
  rwa [if_pos h] at hget

theorem takeMain (hi : HtInv s place cont) (he : e < s.table.htHentries) :
    HtInv { s with table := s.table.takeMain e } place cont := by
  refine ⟨hi.sized.of_shape rfl, ?_, hi.waiting, hi.lost, hi.detached, hi.hdIndex⟩
  refine hi.owned.of_kept (by rfl) (by rfl) (by rfl) (by rfl) ?_ ?_
  · unfold Htable.takeMain
    rw [addUsedEntries_next]
    exact next_modify_of_eq _ _ _ rfl
  intro i
  by_cases hie : i = e
  · subst hie
    refine ⟨by simp [Htable.takeMain], fun hover => ?_⟩
    have := hover.1
    omega
  · rw [takeMain_of_ne hie]
    exact ⟨rfl, fun hover => ⟨rfl, rfl, rfl, id, hi.owned.marked i hover⟩⟩

end HtInv

/-- The overflow entry that is chained becomes valid, and nothing else about validity changes. -/
theorem chainFree_inserts (hhe : h ≠ e) (hover : t.IsOverflow e)
    (hfresh : (t.hentry e).flagValid = false) (hh : h = chainHead t hash) :
    t.Inserts (t.chainFree h e) hash e := by
  have hself := chainFree_linked (t := t) hhe
  refine ⟨hover.2, hfresh, hself.valid, fun hlt => ?_, fun _ => hself.bucket.trans hh,
    fun i hie => ⟨(chainFree_kept hie).1, fun _ => (chainFree_kept hie).2.1⟩⟩
  have := hover.1
  omega

namespace HtInv

variable {F : List Nat} (hi : HtInv s place cont)
include hi

theorem htFreeOentryHead_eq :
    s.table.htFreeOentryHead = some e ↔ ∃ F, cont .free = e :: F := by
  rw [hi.owned.free.eq_head?, List.head?_eq_some_iff]

theorem chainFree (hh : h < s.table.htHentries)
    (hF : cont .free = e :: F) : HtInv { s with table := s.table.chainFree h e }
      (Function.update place e (.chain h))
      (Function.update (Function.update cont .free F) (.chain h) (e :: cont (.chain h))) := by
  refine ⟨hi.sized.of_shape chainFree_shape, hi.owned.link hi.sized.oentries_lt hh hF, ?_, ?_, ?_,
    hdIndex_of_shape chainFree_shape chainFree_deleteData hi.hdIndex⟩
  · simpa using hi.waiting
  · simpa using hi.lost
  · simpa using hi.detached

/-- A bucket whose entries have all been found valid lies inside the table. -/
theorem bucketInside
    (h : findFreeScan s.table (bucketStart s.table hash) s.table.htBucketSize 0 = some none) :
    s.table.BucketInside hash := by
  have hbpos := hi.sized.bucket_pos
  rw [findFreeScan_eq_bucketScan] at h
  have hlast := bucketScan_none h (j := s.table.htBucketSize - 1) (by omega) (by omega)
  have := (hi.sized.lt_of_mainEntry hlast.1).2
  unfold Htable.BucketInside
  omega

theorem chainHead_lt (hinside : s.table.BucketInside hash) :
    chainHead s.table hash < s.table.htHentries := by
  have hbpos := hi.sized.bucket_pos
  unfold chainHead
  unfold Htable.BucketInside at hinside
  omega

/-- `vr_htable_find_free_hentry` keeps the invariant; an entry it returns has become valid, and if
it returns none the table is as before. -/
theorem findFree
    (h : vrHtableFindFreeHentry s.table hash = some (r, t')) :
    ∃ place' cont', HtInv { s with table := t' } place' cont' ∧ t'.shape = s.table.shape ∧
      (r = none → t' = s.table) ∧ ∀ e, r = some e → s.table.Inserts t' hash e := by
  rcases vrHtableFindFreeHentry_cases h with ⟨rfl, rfl⟩ | ⟨e, rfl, hscan, rfl⟩ |
    ⟨e, rfl, hhead, hscan, rfl⟩
  · exact ⟨place, cont, hi, rfl, fun _ => rfl, by simp⟩
  · -- an entry of the bucket itself
    rw [findFreeScan_eq_bucketScan] at hscan
    obtain ⟨hge, hlt, hmain, hv⟩ := bucketScan_some hscan
    have hent := (hi.sized.lt_of_mainEntry hmain).2
    refine ⟨place, cont, hi.takeMain hent, rfl, by simp, ?_⟩
    rintro e ⟨⟩
    refine ⟨by omega, by simpa using hv, ?_, fun _ => ⟨by omega, by omega⟩, fun _ => by omega,
      fun i hie => ?_⟩
    · simp [Htable.takeMain]
    · rw [takeMain_of_ne hie]
      exact ⟨rfl, fun _ => rfl⟩
  · -- all entries of the bucket are valid, its last one is the head of the chain
    have hlt := hi.chainHead_lt (hi.bucketInside hscan)
    obtain ⟨F, hF⟩ := hi.htFreeOentryHead_eq.mp hhead
    have hmem : e ∈ cont .free := by rw [hF]; simp
    have hover := hi.owned.placed.dom_of_mem hmem
    refine ⟨_, _, hi.chainFree hlt hF, chainFree_shape, by simp, ?_⟩
    rintro e ⟨⟩
    refine chainFree_inserts ?_ hover (hi.not_valid (by simp) hmem) rfl
    have := hover.1
    omega

theorem findFree_indexed (ht : s.table.Indexed)
    (h : vrHtableFindFreeHentry s.table hash = some (r, t')) : t'.Indexed := by
  obtain ⟨-, -, -, -, -, hins⟩ := hi.findFree h
  rcases vrHtableFindFreeHentry_cases h with ⟨-, rfl⟩ | ⟨e, rfl, hscan, rfl⟩ | ⟨e, rfl, -, -, rfl⟩
  · exact ht
  · rw [findFreeScan_eq_bucketScan] at hscan
    have hlt := (hi.sized.lt_of_mainEntry (bucketScan_some hscan).2.2.1).2
    have hfresh := (hins e rfl).fresh
    exact ht.write rfl (fun _ => ht.links e (.inl hlt)) (hins e rfl).lt (by simp [hfresh])
  · exact ht.chainFree (hins e rfl).fresh (hins e rfl).lt

end HtInv

/-! ## A new table -/

/-- `sizeof (vr_hentry_t)`, a packed structure. -/
def sizeofHentry : Nat := 21

/-- The sizes a table is made for: entries start with a `vr_hentry_t`, and the bytes of the main
entries and of the overflow entries can be counted in 32 bits, so that each entry has bytes of its
own. -/
structure Htable.EntriesFit (t : Htable) (entrySize : Nat) : Prop where
  hentry : sizeofHentry ≤ entrySize
  main : BytesFit t.htHentries entrySize
  overflow : BytesFit t.htOentries entrySize

theorem Htable.EntriesFit.lt (h : t.EntriesFit entrySize) :
    t.htHentries + t.htOentries < 2 ^ 32 := by
  have hmain := lt_of_le_of_lt (Nat.mul_le_mul_left t.htHentries h.hentry) h.main.bytes
  have hover := lt_of_le_of_lt (Nat.mul_le_mul_left t.htOentries h.hentry) h.overflow.bytes
  unfold sizeofHentry at hmain hover
  omega

/-- A table before its first use. -/
def HtSys.initial (t : Htable) (notReady : Bool) : HtSys where
  table := t
  vrNotReady := notReady
  works := []
  callbacks := []
  lost := []

/-- In a new table all overflow entries are on the free list. -/
def initialContents (t : Htable) : HtPlace → List Nat
  | .free => List.range' t.htHentries t.htOentries
  | _ => []

/-- What `vr_htable_create` returns. -/
structure Created (t : Htable) : Prop where
  bucket_pos : 0 < t.htBucketSize
  hentries_pos : 0 < t.htHentries
  dvd : t.htBucketSize ∣ t.htHentries
  entries : t.htHtable.vbEntries = t.htHentries
  main : ∀ i, i < t.htHentries → t.mainEntry i = some i
  overflow : ∀ i, i < t.htOentries → t.overflowEntry i = some (t.htHentries + i)
  hentry : t.hentry = initialHentry t.htHentries t.htOentries
  deleteData : ∀ d, (t.deleteData d).hdIndex = 0
  freeHead : t.htFreeOentryHead = if t.htOentries = 0 then none else some t.htHentries
  used : t.htUsedOentries = 0

theorem Created.not_valid (h : Created t) (i : Nat) : (t.hentry i).flagValid = false := by
  rw [h.hentry]
  rfl

theorem vrHtableCreate_created {entries oentries keySize bucketSize : Nat}
    (h : vrHtableCreate entries oentries entrySize keySize bucketSize = some t) :
    Created t ∧ vrBtableAlloc t.htHentries entrySize = some t.htHtable ∧
      (t.htOtable = none ∨ vrBtableAlloc t.htOentries entrySize = t.htOtable) ∧
      t.htBucketSize = (if bucketSize = 0 then vrHentriesPerBucket else bucketSize) ∧
      t.htHentries = (entries + t.htBucketSize - 1) % 2 ^ 32 / t.htBucketSize * t.htBucketSize ∧
      t.htOentries = oentries ∧ t.htUsedEntries = 0 ∧ ∀ d, t.deleteData d = ⟨0, 0, false⟩ := by
  unfold vrHtableCreate at h
  split at h
  · cases h
  simp only at h
  generalize hb : (if bucketSize = 0 then vrHentriesPerBucket else bucketSize) = b at h
  have hbpos : 0 < b := by
    rw [← hb]
    split
    · decide
    · omega
  generalize hn : (entries + b - 1) % 2 ^ 32 / b * b = n at h
  have hdvd : b ∣ n := ⟨_, by rw [← hn, Nat.mul_comm]⟩
  split at h
  · cases h
  rename_i htable halloc
  generalize hot : (if oentries = 0 then none else vrBtableAlloc oentries entrySize) = otable at h
  have hotable : otable = none ∨ vrBtableAlloc oentries entrySize = otable := by
    rw [← hot]
    split
    · exact Or.inl rfl
    · exact Or.inr rfl
  generalize hfree : (if oentries = 0 then none else some n) = head at h
  split at h
  · cases h
  split at h
  · cases h
    rename_i hfill
    exact ⟨⟨hbpos, pos_of_vrBtableAlloc halloc, hdvd, (vrBtableAlloc_inv halloc).1, hfill.1,
      hfill.2, rfl, fun _ => rfl, hfree.symm, rfl⟩, halloc, hotable, rfl, hn.symm, rfl,
      rfl, fun _ => rfl⟩
  · cases h

/-- The free list of a new table runs through all overflow entries. -/
theorem linked_initialHentry (n : Nat) (m : Nat) {E O : Nat} (ht : t.hentry = initialHentry E O)
    (hn : E ≤ n) (hm : n + m = E + O) :
    Linked t.next (if m = 0 then none else some n) (List.range' n m) := by
  induction m generalizing n with
  | zero => exact rfl
  | succ m ih =>
    refine ⟨rfl, ?_⟩
    have hnext : t.next n = if m = 0 then none else some (n + 1) := by
      unfold next
      rw [ht]
      show (if E ≤ n ∧ n + 1 < E + O then some (n + 1) else none) = _
      by_cases hm0 : m = 0
      · rw [if_pos hm0, if_neg (by omega)]
      · rw [if_neg hm0, if_pos (by omega)]
    rw [hnext]
    exact ih (n + 1) (by omega) (by omega)

theorem Created.htInv (hc : Created t) (hlt : t.htHentries + t.htOentries < 2 ^ 32)
    (notReady : Bool) : HtInv (.initial t notReady) (fun _ => .free) (initialContents t) := by
  have hnext : ∀ h, h < t.htHentries → t.next h = none := by
    intro h hh
    unfold next
    rw [hc.hentry]
    exact if_neg (by omega)
  refine ⟨⟨hc.bucket_pos, hc.hentries_pos, ?_, hc.entries, ?_⟩, ?_, rfl, rfl, rfl, ?_⟩
  · show t.htOentries < 2 ^ 32
    omega
  · intro i hi
    show vrHtableGetHentryByIndexCore t i = some i
    unfold vrHtableGetHentryByIndexCore
    by_cases hmain : i < t.htHentries
    · rw [if_pos hmain]
      exact hc.main i hmain
    · have hi : i < t.htHentries + t.htOentries := hi
      rw [if_neg hmain, if_pos (by omega), hc.overflow _ (by omega)]
      congr
      omega
  · show Owned t (fun _ => .free) (initialContents t)
    refine ⟨?_, ⟨?_, ?_⟩, ?_, ?_, ?_, ?_, ?_, ?_, ?_, ?_, ?_⟩
    · intro i _
      rw [hc.hentry]
      rfl
    · intro p
      cases p with
      | free => exact List.nodup_range'
      | _ => exact List.nodup_nil
    · intro p i
      cases p with
      | free =>
        show i ∈ List.range' _ _ ↔ _
        rw [List.mem_range'_1]
        exact (and_iff_left rfl).symm
      | _ => simp [initialContents]
    · rw [hc.freeHead]
      exact linked_initialHentry _ _ hc.hentry le_rfl rfl
    · exact fun h hh => ⟨rfl, hnext h hh⟩
    · rintro h i ⟨⟩
    · rintro h i ⟨⟩
    · rw [hc.used]
      simp [initialContents]
    · intro i hi
      rw [hc.hentry]
      show decide (t.htHentries ≤ i) = true ↔ i ∈ List.range' _ _
      rw [List.mem_range'_1, decide_eq_true_iff]
      exact ⟨fun _ => hi, fun h => h.1⟩
    · intro i _ hv
      cases (hc.not_valid i).symm.trans hv
    · intro i _ hm
      rw [hc.hentry] at hm
      cases hm
    · rintro h i ⟨⟩
  · intro d
    show (t.deleteData d).hdIndex < t.htHentries
    rw [hc.deleteData]
    exact hc.hentries_pos

theorem Created.indexed (hc : Created t) (hused : t.htUsedEntries = 0) : t.Indexed := by
  constructor
  · intro i hi
    have hlt : i < t.htHentries := by
      rw [hc.hentry] at hi
      simpa [initialHentry] using hi
    simp [hc.hentry, initialHentry, next, indexOf, not_le.mpr hlt]
  · simp [hused, validEntries, hc.not_valid]

/-! ## Steps -/

/-- What can happen to a table. -/
inductive HtStep where
  /-- `vr_htable_find_free_hentry` for a key with this hash. -/
  | findFree (hash : Nat)
  /-- `vr_htable_release_hentry` on an entry of the table. -/
  | release (ent : Nat) (scheduled : Bool)
  /-- A work item that has been scheduled runs. -/
  | work (deleteIndex : Nat) (alloc : Nat → Bool)
  /-- A deferred callback runs. -/
  | callback (ent : Nat)
  /-- `vr_htable_reset`. -/
  | reset (release : Nat → Bool) (scheduled : Bool)
  /-- `vr_not_ready` is written. -/
  | setNotReady (notReady : Bool)

/-- One step of the table and its scheduler. A work item or callback that runs is taken off its
queue first. -/
def HtSys.step (s : HtSys) : HtStep → Option HtSys
  | .findFree hash => (vrHtableFindFreeHentry s.table hash).map fun r => { s with table := r.2 }
  | .release ent scheduled =>
    if ent < s.table.htHentries + s.table.htOentries then vrHtableReleaseHentry s scheduled ent
    else none
  | .work d alloc =>
    if d ∈ s.works then
      some (vrHtableHentryScheduledDelete { s with works := s.works.erase d } alloc d)
    else none
  | .callback ent =>
    if ent ∈ s.callbacks then
      some { s with
        table := vrHtableHentryDeferDelete s.table ent
        callbacks := s.callbacks.erase ent }
    else none
  | .reset release scheduled => vrHtableReset s scheduled release
  | .setNotReady notReady => some { s with vrNotReady := notReady }

/-- The step's allocations succeed. -/
def HtStep.Allocates : HtStep → Prop
  | .work _ alloc => ∀ e, alloc e = true
  | _ => True

/-- The step is one of the table's own: a work item, a callback or a write to `vr_not_ready`. -/
def HtStep.Rests : HtStep → Prop
  | .work _ _ | .callback _ | .setNotReady _ => True
  | .findFree _ | .release _ _ | .reset _ _ => False

/-- What a step does to the invariant, to the lost entries if its allocations succeed, and to the
valid ones if it is one of the table's own. -/
theorem HtInv.step (hi : HtInv s place cont) (h : s.step a = some s') :
    ∃ place' cont', HtInv s' place' cont' ∧ s'.table.shape = s.table.shape ∧
      (a.Allocates → s'.lost = s.lost) ∧ (a.Rests → s.table.KeepsValid s'.table) ∧
      (s.table.Indexed → s'.table.Indexed) := by
  cases a with
  | findFree hash =>
    obtain ⟨⟨r, t'⟩, hfind, rfl⟩ := Option.map_eq_some_iff.mp h
    obtain ⟨place', cont', hi', hshape, -⟩ := hi.findFree hfind
    exact ⟨place', cont', hi', hshape, fun _ => rfl, nofun, fun ht => hi.findFree_indexed ht hfind⟩
  | release ent scheduled =>
    obtain ⟨hlt, h⟩ := Option.ite_none_right_eq_some.mp h
    obtain ⟨s₁, hs₁, hi', -, hkeep⟩ := hi.release scheduled hlt
    rw [hs₁] at h
    cases h
    exact ⟨place, cont, hi', hkeep.shape, fun _ => hkeep.lost, nofun,
      fun ht => hi.release_indexed scheduled hlt ht hs₁⟩
  | work d alloc =>
    obtain ⟨-, h⟩ := Option.ite_none_right_eq_some.mp h
    cases h
    have hi₁ : HtInv { s with works := s.works.erase d } place cont := { hi with }
    obtain ⟨place', cont', hi', hwork, hix⟩ := hi₁.scheduledDelete alloc d
    exact ⟨place', cont', hi', hwork.shape, hwork.lost, fun _ => hwork.valid, hix⟩
  | callback ent =>
    obtain ⟨hmem, h⟩ := Option.ite_none_right_eq_some.mp h
    cases h
    obtain ⟨place', cont', hi', hshape, hkeeps, hix⟩ := hi.deferDelete hmem
    exact ⟨place', cont', hi', hshape, fun _ => rfl, fun _ => hkeeps, hix⟩
  | reset release scheduled =>
    obtain ⟨s₁, place', cont', hs₁, hi', hkeep, hix⟩ := hi.reset scheduled release
    have h : vrHtableReset s scheduled release = some s' := h
    rw [hs₁] at h
    cases h
    exact ⟨place', cont', hi', hkeep.shape, fun _ => hkeep.lost, nofun, hix⟩
  | setNotReady notReady =>
    cases h
    exact ⟨place, cont, { hi with }, rfl, fun _ => rfl, fun _ => .refl _, id⟩

theorem HtInv.rests (hi : HtInv s place cont) (ha : a.Rests) (h : s.step a = some s') :
    ∃ place' cont', HtInv s' place' cont' ∧ s'.table.shape = s.table.shape ∧
      s.table.KeepsValid s'.table := by
  obtain ⟨place', cont', hi', hshape, -, hkeeps, -⟩ := hi.step h
  exact ⟨place', cont', hi', hshape, hkeeps ha⟩

/-! ## Every run -/

/-- The places of a state: the free list and the chains as given, the entries of the callbacks that
are still to run, and the entries unlinked for good. -/
def HtSys.InPlace (s : HtSys) (free : List Nat) (chain : Nat → List Nat) : HtPlace → Nat → Prop
  | .free, i => i ∈ free
  | .chain h, i => h < s.table.htHentries ∧ i ∈ chain h
  | .waiting, i => i ∈ s.callbacks
  | .lost, i => i ∈ s.lost
  | .detached, _ => False

theorem HtInv.inPlace_iff (hi : HtInv s place cont) (p : HtPlace) (i : Nat) :
    s.InPlace (cont .free) (fun h => cont (.chain h)) p i ↔ i ∈ cont p := by
  cases p with
  | free => exact Iff.rfl
  | chain h => exact ⟨fun hin => hin.2, fun hin => ⟨hi.owned.head_lt h i hin, hin⟩⟩
  | waiting =>
    rw [hi.waiting]
    exact Iff.rfl
  | lost =>
    rw [hi.lost]
    exact Iff.rfl
  | detached =>
    rw [hi.detached]
    exact iff_of_false id List.not_mem_nil

theorem HtInv.run (hc : Created t) (hlt : t.htHentries + t.htOentries < 2 ^ 32)
    (hrun : runSteps HtSys.step (.initial t notReady) as = some s) :
    ∃ place cont, HtInv s place cont := by
  refine runSteps_invariant (I := fun s => ∃ place cont, HtInv s place cont) ?_
    ⟨_, _, hc.htInv hlt notReady⟩ hrun
  rintro s a s' ⟨place, cont, hi⟩ hs
  obtain ⟨place', cont', hi', -⟩ := hi.step hs
  exact ⟨place', cont', hi'⟩

theorem HtInv.lost_eq_nil (hc : Created t) (hlt : t.htHentries + t.htOentries < 2 ^ 32)
    (hrun : runSteps HtSys.step (.initial t notReady) as = some s) (halloc : ∀ a ∈ as, a.Allocates)
    : s.lost = [] := by
  refine (runSteps_invariant_of_meet
    (I := fun s => (∃ place cont, HtInv s place cont) ∧ s.lost = []) ?_
    ⟨⟨_, _, hc.htInv hlt notReady⟩, rfl⟩ (stepsMeet_of_forall halloc) hrun).2
  rintro s a s' ⟨⟨place, cont, hi⟩, hnil⟩ ha hs
  obtain ⟨place', cont', hi', -, hlost, -⟩ := hi.step hs
  exact ⟨⟨place', cont', hi'⟩, (hlost ha).trans hnil⟩

/-- Over every run of a table made by `vr_htable_create`, the free list and the chains are linked
lists without cycles or duplicates, no entry waits for two callbacks, every overflow entry is in
exactly one place, and the counter tells how many are not free. An entry is unlinked for good only
if a callback could not be allocated. -/
theorem overflow_entries_in_one_place {entries oentries entrySize keySize bucketSize : Nat}
    {t : Htable} (hcreate : vrHtableCreate entries oentries entrySize keySize bucketSize = some t)
    (hfit : t.EntriesFit entrySize) {notReady : Bool} {as : List HtStep} {s : HtSys}
    (hrun : runSteps HtSys.step (.initial t notReady) as = some s) :
    ∃ (free : List Nat) (chain : Nat → List Nat),
      Linked s.table.next s.table.htFreeOentryHead free ∧ free.Nodup ∧
      (∀ h, h < s.table.htHentries →
        Linked s.table.next (s.table.next h) (chain h) ∧ (chain h).Nodup) ∧
      s.callbacks.Nodup ∧
      (∀ i, s.table.IsOverflow i → ∃! p, s.InPlace free chain p i) ∧
      s.table.htUsedOentries + free.length = s.table.htOentries ∧
      ((∀ a ∈ as, a.Allocates) → s.lost = []) := by
  have hc := (vrHtableCreate_created hcreate).1
  obtain ⟨place, cont, hi⟩ := HtInv.run hc hfit.lt hrun
  refine ⟨cont .free, fun h => cont (.chain h), hi.owned.free, hi.owned.placed.nodup _, ?_, ?_, ?_,
    hi.owned.used, HtInv.lost_eq_nil hc hfit.lt hrun⟩
  · intro h hh
    exact ⟨(hi.owned.chain h hh).2, hi.owned.placed.nodup _⟩
  · rw [← hi.waiting]
    exact hi.owned.placed.nodup _
  · intro i hover
    simp only [hi.inPlace_iff]
    exact hi.owned.placed.existsUnique hover

/-- Two entries taken with one hash value, so that the second one is an overflow entry, which is
then released, unlinked and returned by its callback. -/
theorem overflow_entries_in_one_place_released :
    ∃ t s, vrHtableCreate 1 1 32 8 1 = some t ∧ t.EntriesFit 32 ∧
      runSteps HtSys.step (.initial t false)
        [.findFree 0, .findFree 0, .release 1 true, .work 0 fun _ => true, .callback 1] = some s ∧
      ∃ (free : List Nat) (chain : Nat → List Nat),
        ∀ i, s.table.IsOverflow i → ∃! p, s.InPlace free chain p i := by
  obtain ⟨t, ht, hfit⟩ : ∃ t, vrHtableCreate 1 1 32 8 1 = some t ∧ t.EntriesFit 32 :=
    ⟨_, rfl, by decide, ⟨by decide, by decide⟩, ⟨by decide, by decide⟩⟩
  have hruns : ((vrHtableCreate 1 1 32 8 1).bind fun t => runSteps HtSys.step (.initial t false)
      [.findFree 0, .findFree 0, .release 1 true, .work 0 fun _ => true, .callback 1]).isSome =
        true :=
    by decide
  rw [ht] at hruns
  obtain ⟨s, hs⟩ := Option.isSome_iff_exists.mp hruns
  obtain ⟨free, chain, -, -, -, -, hplace, -⟩ := overflow_entries_in_one_place ht hfit hs
  exact ⟨t, s, ht, hfit, hs, free, chain, hplace⟩

/-- The work item unlinks entry 1, but cannot allocate its callback: the entry is not on the free
list, which is empty, not in a chain, as there are none, and no callback is pending for it. -/
theorem scheduledDelete_loses_entry :
    ∃ t s, vrHtableCreate 1 1 32 8 1 = some t ∧
      runSteps HtSys.step (.initial t false)
        [.findFree 0, .findFree 0, .release 1 true, .work 0 fun _ => false] = some s ∧
      s.table.IsOverflow 1 ∧ s.table.htFreeOentryHead = none ∧
      (∀ h, h < s.table.htHentries → s.table.next h = none) ∧
      s.callbacks = [] ∧ s.works = [] := by
  refine ⟨_, _, rfl, rfl, ⟨by decide, by decide⟩, rfl, ?_, rfl, rfl⟩
  decide

/-- **The next indices follow the pointers.** Over every run of a table made by `vr_htable_create`,
each entry of a chain, from its main entry on, has stored the index of the entry that its pointer
leads to, or the invalid index at the end, and `ht_used_entries` is the number of valid entries. -/
theorem next_indices_agree {entries oentries entrySize keySize bucketSize : Nat}
    {t : Htable} (hcreate : vrHtableCreate entries oentries entrySize keySize bucketSize = some t)
    (hfit : t.EntriesFit entrySize) {notReady : Bool} {as : List HtStep} {s : HtSys}
    (hrun : runSteps HtSys.step (.initial t notReady) as = some s) :
    (∀ h, h < s.table.htHentries → ∃ l, Linked s.table.next (some h) l ∧
      ∀ i ∈ l, (s.table.hentry i).hentryNextIndex = indexOf s.table (s.table.next i)) ∧
    (∀ i, i < s.table.htHentries + s.table.htOentries → (s.table.hentry i).hentryIndex = i) ∧
    s.table.htUsedEntries = s.table.validEntries.card := by
  obtain ⟨hc, -, -, -, -, -, hused, -⟩ := vrHtableCreate_created hcreate
  obtain ⟨⟨place, cont, hi⟩, hix, hshape⟩ := runSteps_invariant
    (I := fun s => (∃ place cont, HtInv s place cont) ∧ s.table.Indexed ∧ s.table.shape = t.shape)
    (by
      rintro s a s' ⟨⟨place, cont, hi⟩, hix, hshape⟩ hs
      obtain ⟨place', cont', hi', hshape', -, -, hix'⟩ := hi.step hs
      exact ⟨⟨place', cont', hi'⟩, hix' hix, hshape'.trans hshape⟩)
    ⟨⟨_, _, hc.htInv hfit.lt notReady⟩, hc.indexed hused, rfl⟩ hrun
  refine ⟨fun h hh => ⟨_, hi.owned.chain h hh, fun i hmem => hix.links i ?_⟩, hi.owned.index, ?_⟩
  · rcases List.mem_cons.mp hmem with rfl | hmem
    · exact .inl hh
    · right
      rw [← Bool.not_eq_true, hi.owned.flagFree i (hi.owned.placed.dom_of_mem hmem)]
      exact hi.owned.placed.notMem_of_ne hmem (by simp)
  · have hle : s.table.validEntries.card ≤ s.table.htHentries + s.table.htOentries :=
      (Finset.card_filter_le _ _).trans_eq (Finset.card_range _)
    obtain ⟨hE, hO, -, -⟩ := sizes_of_shape hshape
    rw [hE, hO] at hle
    exact hix.used.trans (Nat.mod_eq_of_lt (hle.trans_lt hfit.lt))

/-- Two entries taken with one hash value: both are counted. -/
theorem next_indices_agree_chained :
    ∃ t s, vrHtableCreate 1 1 32 8 1 = some t ∧ t.EntriesFit 32 ∧
      runSteps HtSys.step (.initial t false) [.findFree 0, .findFree 0] = some s ∧
      s.table.htUsedEntries = s.table.validEntries.card := by
  obtain ⟨t, s, ht, hfit, hs⟩ : ∃ t s, vrHtableCreate 1 1 32 8 1 = some t ∧ t.EntriesFit 32 ∧
      runSteps HtSys.step (.initial t false) [.findFree 0, .findFree 0] = some s :=
    ⟨_, _, rfl, ⟨by decide, ⟨by decide, by decide⟩, ⟨by decide, by decide⟩⟩, rfl⟩
  exact ⟨t, s, ht, hfit, hs, (next_indices_agree ht hfit hs).2.2⟩

end VRouter
