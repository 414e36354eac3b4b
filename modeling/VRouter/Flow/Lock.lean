import VRouter.Flow.Run

/-!
# VRouter — the modify bit as a lock

A request that deletes a flow leaves the entry locked, and so does a packet that marks a flow for
eviction. The lock is handed on: from the request or packet to a work item, from there to a
callback, and the callback's reset or eviction ends it. Between them anything may happen.

* `FlowMove.locked` — what can happen to an entry that is locked;
* `LockInv` — every pending deletion owns its entry, and is the only one for it;
* `FreshInv` — the items that know of an entry marked for eviction were made for its present
  incarnation. This one needs a condition on the run, see `FlowSys.Orderly`: an item that was made
  for an earlier incarnation of an entry is not recognised as such, and when it runs it evicts
  whatever carries the mark.
-/

namespace VRouter

open LongestMatch FlowView Function

variable {cfg : FlowConfig} {R : FlowRules} {v v' : FlowView} {i j : Nat}

/-! ## What happens to a locked entry -/

/-- What a move does to an entry that is in use and locked: nothing, or the item that owns the lock
ends it. -/
inductive LockedOutcome (v v' : FlowView) (j : Nat) : Prop
  | kept (hvalid : v'.valid j = true) (hcore : v'.core j = v.core j)
      (hinc : v'.incarnation j = v.incarnation j)
  | reset {it : FlowItem} (hdelete : it.delete = true) (hindex : it.index = j)
      (hitems : v.items = it :: v'.items) (hvalid : v'.valid j = false)
      (hinc : v'.incarnation j = v.incarnation j)
  | evicted (hcandidate : (v.core j).evictCandidate = true) (hvalid : v'.valid j = false)
      (hinc : v'.incarnation j = v.incarnation j)
  | takenBack {it : FlowItem} (hrunning : v.running = some it) (hback : it.takesBack = true)

variable {it : FlowItem} {flmd : FlowMd} {c : FlowCore} {m n : Nat}

theorem FlowView.items_of_running (h : v.running = some it) :
    v.items = it :: { v with running := none }.items := by
  unfold items
  rw [h]
  rfl

theorem FlowView.mem_items_of_running (h : v.running = some it) : it ∈ v.items := by
  rw [items_of_running h]
  exact List.mem_cons_self

theorem LockedOutcome.of_setCore (hji : j ≠ i) (hvalid : v'.valid j = true)
    (hcore : v'.core = (v.setCore i c).core) (hinc : v'.incarnation j = v.incarnation j) :
    LockedOutcome v v' j := by
  refine .kept hvalid ?_ hinc
  rw [hcore, setCore_of_ne hji]

/-- Nobody but its owner touches an entry that is locked. -/
theorem FlowMove.locked (hinv : FlowInv cfg v) (hm : FlowMove cfg R v v')
    (hvalid : v.valid j = true) (hmod : (v.core j).modified = true) : LockedOutcome v v' j := by
  -- an entry that is not locked is another one
  have hne : ∀ i, (v.core i).modified = false → j ≠ i := by
    intro i hi hji
    rw [← hji, hmod] at hi
    cases hi
  cases hm with
  | take i c added _ hfree =>
    have hins := hinv.inserts hfree
    have hji : j ≠ i := by
      intro hji
      rw [hji, show v.valid i = false from hins.fresh] at hvalid
      cases hvalid
    refine .of_setCore hji ((hins.others j hji).1.trans hvalid) rfl ?_
    exact update_of_ne hji _ _
  | change i c _ hmodified => exact .of_setCore (hne i hmodified) hvalid rfl rfl
  | delete i _ hmodified => exact .of_setCore (hne i hmodified) hvalid rfl rfl
  | schedule => exact .kept hvalid rfl rfl
  | mark i _ hmark hreverse =>
    refine .kept hvalid (if_neg ?_) rfl
    rintro (hji | hr)
    · exact hne i hmark.modified hji
    · exact hne j (hreverse j hr).2.modified rfl
  | work | callback | defer => exact .kept hvalid rfl rfl
  | takeBack i hrunning hback => exact .takenBack hrunning hback
  | reset hrunning hdelete _ hrelease =>
    rename_i it ht scheduled _
    obtain ⟨-, -, hrel⟩ := hinv.releases hrelease
    by_cases hji : j = it.index
    · refine .reset hdelete hji.symm ?_ ?_ rfl
      · rw [items_of_running hrunning]
        rfl
      · rw [hji]
        exact (hrel it.index).1.trans (if_pos rfl)
    · exact .of_setCore hji ((hrel j).1.trans ((if_neg hji).trans hvalid)) rfl rfl
  | evict i _ _ _ hcandidate hrelease =>
    obtain ⟨-, -, hrel⟩ := hinv.releases hrelease
    by_cases hji : j = i
    · rw [hji]
      exact .evicted hcandidate ((hrel i).1.trans (if_pos rfl)) rfl
    · exact .of_setCore hji ((hrel j).1.trans ((if_neg hji).trans hvalid)) rfl rfl
  | finish => exact .kept hvalid rfl rfl
  | table ha hstep => exact .kept (((hinv.table ha hstep).2.2 j).trans hvalid) rfl rfl

/-! ## What happens to the items -/

/-- A deletion owns its entry: it is in use, locked and not marked for eviction, and it is the one
the deletion was made for. -/
structure FlowView.Owns (v : FlowView) (it : FlowItem) : Prop where
  valid : v.valid it.index = true
  modified : (v.core it.index).modified = true
  evictCandidate : (v.core it.index).evictCandidate = false
  current : ∀ m, (it.index, m) ∈ it.madeFor → m = v.incarnation it.index

/-- What a move does to the items that still have to run. -/
inductive ItemsOutcome (R : FlowRules) (v v' : FlowView) : Prop
  | same (hitems : v'.items.Perm v.items)
  | made (it : FlowItem) (hitems : v'.items.Perm (it :: v.items))
      (hmade : it.madeFor = v.madeForNow it.index) (hinc : v'.incarnation = v.incarnation)
      (hpush : R.push it)
      (hdelete : it.delete = true → (v.core it.index).modified = false ∧ v'.Owns it)
  | ended (it : FlowItem) (hitems : v.items = it :: v'.items)
      (hdelete : it.delete = true → v'.valid it.index = false)

/-- All entries that a new item is made for are the present ones. -/
theorem FlowView.current_of_madeForNow (h : (j, m) ∈ v.madeForNow i) : m = v.incarnation j := by
  rcases List.mem_cons.mp h with h | h
  · cases h
    rfl
  · rw [Option.mem_toList] at h
    obtain ⟨r, -, hr⟩ := Option.map_eq_some_iff.mp h
    cases hr
    rfl

theorem FlowView.items_append (hrunning : v'.running = v.running)
    (hworks : v'.works = v.works ++ [flmd]) (hcallbacks : v'.callbacks = v.callbacks) :
    v'.items.Perm (flmd.item :: v.items) := by
  unfold items
  rw [hrunning, hworks, hcallbacks, List.map_append, ← List.append_assoc, List.append_assoc]
  exact List.perm_middle

theorem perm_cons_eraseIdx {α β : Type} {l : List α} {x : α} (f : α → β) (h : l[n]? = some x) :
    (f x :: (l.eraseIdx n).map f).Perm (l.map f) := by
  obtain ⟨hn, rfl⟩ := List.getElem?_eq_some_iff.mp h
  exact (List.getElem_cons_eraseIdx_perm hn).map f

theorem FlowView.items_work (hget : v.works[n]? = some flmd) (hrunning : v.running = none) :
    { v with works := v.works.eraseIdx n, running := some flmd.item }.items.Perm v.items := by
  unfold items
  rw [hrunning]
  exact (perm_cons_eraseIdx FlowMd.item hget).append_right _

theorem FlowMove.items (hinv : FlowInv cfg v) (hm : FlowMove cfg R v v') : ItemsOutcome R v v' := by
  cases hm with
  | take | change => exact .same (.refl _)
  | delete i hvalid hmodified hdelete hhold hlength hitem =>
    rename_i info items
    rcases items with _ | ⟨flmd, _ | ⟨flmd', items⟩⟩
    · refine .same (.of_eq ?_)
      rw [List.append_nil]
      rfl
    · obtain ⟨-, hindex, -, hmade, hpush⟩ := hitem flmd (by simp)
      refine .made flmd.item (items_append rfl rfl rfl) (by rw [hmade, hindex]) rfl hpush
        ?_
      intro _
      have hcandidate : (v.core i).evictCandidate = false := by
        cases hc : (v.core i).evictCandidate with
        | false => rfl
        | true => exact (hinv.locked i hc).symm.trans hmodified
      refine ⟨by rwa [hindex], ?_, ?_, ?_, ?_⟩
      · rw [hindex]
        exact hvalid
      · rw [hindex]
        exact congrArg FlowCore.modified setCore_self
      · rw [hindex]
        exact (congrArg FlowCore.evictCandidate setCore_self).trans hcandidate
      · intro m hm
        rw [hmade] at hm
        show m = v.incarnation flmd.item.index
        exact current_of_madeForNow hm
    · simp at hlength
  | schedule hflmd hdelete hmade hpush =>
    refine .made _ (items_append rfl rfl rfl) hmade rfl hpush fun h => ?_
    rw [hdelete] at h
    cases h
  | mark i _ _ _ _ _ hindex hdelete hmade hpush =>
    refine .made _ (items_append rfl rfl rfl) (by rw [hmade, hindex]) rfl hpush fun h => ?_
    rw [hdelete] at h
    cases h
  | work hget hrunning => exact .same (items_work hget hrunning)
  | callback hget hrunning =>
    refine .same ?_
    unfold items
    rw [hrunning]
    refine List.perm_middle.symm.trans ?_
    exact (perm_cons_eraseIdx FlowDeferData.item hget).append_left _
  | defer hrunning _ hitem =>
    refine .same ?_
    unfold items
    rw [hrunning, List.map_append, ← hitem, ← List.append_assoc]
    exact List.perm_append_singleton _ _
  | takeBack => exact .same (.refl _)
  | reset hrunning hdelete _ hrelease =>
    rename_i it ht scheduled _
    obtain ⟨-, -, hrel⟩ := hinv.releases hrelease
    refine .ended it (items_of_running hrunning) fun _ => ?_
    exact (hrel it.index).1.trans (if_pos rfl)
  | evict => exact .same (.refl _)
  | finish hrunning hdelete => exact .ended _ (items_of_running hrunning) hdelete
  | table => exact .same (.refl _)

/-! ## Pending deletions -/

/-- The item is there to delete entry `i`. -/
def FlowItem.deletes (i : Nat) (it : FlowItem) : Bool := it.delete && decide (it.index = i)

theorem FlowItem.deletes_iff : it.deletes i = true ↔ it.delete = true ∧ it.index = i := by
  unfold FlowItem.deletes
  rw [Bool.and_eq_true, decide_eq_true_iff]

/-- Every pending deletion owns its entry, and is the only one for it. No item takes marks back. -/
structure LockInv (v : FlowView) : Prop where
  owns : ∀ it ∈ v.items, it.delete = true → v.Owns it
  once : ∀ i, v.items.countP (FlowItem.deletes i) ≤ 1
  noBack : ∀ it ∈ v.items, it.takesBack = false

namespace LockInv

variable (h : LockInv v) (hinv : FlowInv cfg v) (hm : FlowMove cfg R v v')
include h hinv hm

/-- A deletion that is still there after a move still owns its entry. -/
theorem owns_of_mem (hit : it ∈ v.items) (hit' : it ∈ v'.items) (hdelete : it.delete = true) :
    v'.Owns it := by
  have howns := h.owns it hit hdelete
  rcases hm.locked hinv howns.valid howns.modified with
    ⟨hvalid, hcore, hinc⟩ | ⟨hdelete', hindex, hitems, -, -⟩ | ⟨hcandidate, -, -⟩ |
    ⟨hrunning, hback⟩
  · refine ⟨hvalid, ?_, ?_, ?_⟩
    · rw [hcore]
      exact howns.modified
    · rw [hcore]
      exact howns.evictCandidate
    · rw [hinc]
      exact howns.current
  · -- the item that has run was another deletion of the same entry
    have honce := h.once it.index
    have hcount : 1 ≤ v'.items.countP (FlowItem.deletes it.index) :=
      List.one_le_countP_iff.mpr ⟨it, hit', FlowItem.deletes_iff.mpr ⟨hdelete, rfl⟩⟩
    rw [hitems, List.countP_cons_of_pos (FlowItem.deletes_iff.mpr ⟨hdelete', hindex⟩)] at honce
    omega
  · rw [howns.evictCandidate] at hcandidate
    cases hcandidate
  · rename_i it'
    rw [h.noBack it' (mem_items_of_running hrunning)] at hback
    cases hback

theorem move (hpush : ∀ it, R.push it → it.takesBack = false) : LockInv v' := by
  rcases hm.items hinv with hitems | ⟨new, hitems, -, -, hnew, hdelete⟩ | ⟨it, hitems, -⟩
  · refine ⟨fun it hit => h.owns_of_mem hinv hm (hitems.subset hit) hit, fun i => ?_,
      fun it hit => h.noBack it (hitems.subset hit)⟩
    rw [hitems.countP_eq]
    exact h.once i
  · refine ⟨fun it hit hd => ?_, fun i => ?_, fun it hit => ?_⟩
    · rcases List.mem_cons.mp (hitems.subset hit) with rfl | hit'
      · exact (hdelete hd).2
      · exact h.owns_of_mem hinv hm hit' hit hd
    · rw [hitems.countP_eq, List.countP_cons]
      split
      · -- there is no other one, as the entry was not locked
        rename_i hdel
        obtain ⟨hd, rfl⟩ := FlowItem.deletes_iff.mp hdel
        have hzero : v.items.countP (FlowItem.deletes new.index) = 0 := by
          refine List.countP_eq_zero.mpr fun it hit hdel' => ?_
          obtain ⟨hd', hindex⟩ := FlowItem.deletes_iff.mp hdel'
          have hlocked := (h.owns it hit hd').modified
          rw [hindex, (hdelete hd).1] at hlocked
          cases hlocked
        omega
      · exact h.once i
    · rcases List.mem_cons.mp (hitems.subset hit) with rfl | hit'
      · exact hpush _ hnew
      · exact h.noBack it hit'
  · have hsub : ∀ it' ∈ v'.items, it' ∈ v.items := by
      intro it' hit'
      rw [hitems]
      exact List.mem_cons_of_mem it hit'
    refine ⟨fun it' hit' => h.owns_of_mem hinv hm (hsub it' hit') hit', fun i => ?_,
      fun it' hit' => h.noBack it' (hsub it' hit')⟩
    have honce := h.once i
    rw [hitems, List.countP_cons] at honce
    omega

end LockInv

/-! ## Marks and incarnations -/

/-- No item was made for another incarnation of the entry than the present one. -/
def FlowView.NoneStale (v : FlowView) (j : Nat) : Prop :=
  ∀ it ∈ v.items, ∀ m, (j, m) ∈ it.madeFor → m = v.incarnation j

/-- The items that know of a marked entry were made for it. -/
def FreshInv (v : FlowView) : Prop := ∀ j, (v.core j).evictCandidate = true → v.NoneStale j

theorem FlowView.candidate_of_setCore
    (hc : c.evictCandidate = true → (v.core i).evictCandidate = true)
    (h : ((v.setCore i c).core j).evictCandidate = true) : (v.core j).evictCandidate = true := by
  rw [setCore_apply] at h
  split at h
  · rename_i hji
    rw [hji]
    exact hc h
  · exact h

/-- An entry that is marked after a move was marked before, or has been marked by it. -/
theorem FlowMove.candidate (hinv : FlowInv cfg v) (hm : FlowMove cfg R v v')
    (h : (v'.core j).evictCandidate = true) :
    v'.incarnation j = v.incarnation j ∧ ((v.core j).evictCandidate = true ∨
      ∃ i, R.mark v i ∧ (j = i ∨ v.getEntry (v.core i).rflow = some j)) := by
  cases hm with
  | take i c added _ hfree _ _ _ hcandidate =>
    rw [((hinv.clean_of_free hfree).activate _).2] at hcandidate
    have hji : j ≠ i := by
      intro hji
      rw [hji, setCore_self, hcandidate] at h
      cases h
    refine ⟨update_of_ne hji _ _, Or.inl ?_⟩
    exact candidate_of_setCore (by simp [hcandidate]) h
  | change i c _ _ _ _ _ _ hcandidate =>
    exact ⟨rfl, Or.inl (candidate_of_setCore (by simp [hcandidate]) h)⟩
  | delete i =>
    refine ⟨rfl, Or.inl (candidate_of_setCore ?_ h)⟩
    exact id
  | schedule => exact ⟨rfl, Or.inl h⟩
  | mark i _ _ _ hrule =>
    by_cases hj : j = i ∨ v.getEntry (v.core i).rflow = some j
    · exact ⟨rfl, Or.inr ⟨i, hrule, hj⟩⟩
    · have h : (if j = i ∨ v.getEntry (v.core i).rflow = some j then (v.core j).marked
        else v.core j).evictCandidate = true := h
      rw [if_neg hj] at h
      exact ⟨rfl, Or.inl h⟩
  | work | callback | defer => exact ⟨rfl, Or.inl h⟩
  | takeBack | reset | evict =>
    refine ⟨rfl, Or.inl (candidate_of_setCore ?_ h)⟩
    exact fun hc => (Bool.false_ne_true hc).elim
  | finish | table => exact ⟨rfl, Or.inl h⟩

/-- Marks stay fresh if only flows are marked that no stale item knows of. -/
theorem FreshInv.move (h : FreshInv v) (hinv : FlowInv cfg v)
    (hmark : ∀ v i, R.mark v i → ∀ j, j = i ∨ v.getEntry (v.core i).rflow = some j → v.NoneStale j)
    (hm : FlowMove cfg R v v') : FreshInv v' := by
  intro j hcandidate
  obtain ⟨hinc, hor⟩ := hm.candidate hinv hcandidate
  have hold : v.NoneStale j := by
    rcases hor with hcandidate | ⟨i, hrule, hj⟩
    · exact h j hcandidate
    · exact hmark v i hrule j hj
  intro it hit m hm'
  rw [hinc]
  rcases hm.items hinv with hitems | ⟨new, hitems, hmade, -, -, -⟩ | ⟨ended, hitems, -⟩
  · exact hold it (hitems.subset hit) m hm'
  · rcases List.mem_cons.mp (hitems.subset hit) with rfl | hit
    · rw [hmade] at hm'
      exact current_of_madeForNow hm'
    · exact hold it hit m hm'
  · refine hold it ?_ m hm'
    rw [hitems]
    exact List.mem_cons_of_mem ended hit

/-! ## From the claim to the release -/

/-- An entry is claimed: it is marked for eviction, or its deletion is pending. -/
def FlowView.Claimed (v : FlowView) (i : Nat) : Prop :=
  (v.core i).evictCandidate = true ∨ ∃ it ∈ v.items, it.delete = true ∧ it.index = i

theorem FlowView.Claimed.locked (h : v.Claimed i) (hinv : FlowInv cfg v) (hlock : LockInv v) :
    v.valid i = true ∧ (v.core i).modified = true := by
  rcases h with hcandidate | ⟨it, hit, hdelete, rfl⟩
  · refine ⟨?_, hinv.locked i hcandidate⟩
    cases hv : v.valid i with
    | true => rfl
    | false =>
      rw [(hinv.clean i hv).evictCandidate] at hcandidate
      cases hcandidate
  · have howns := hlock.owns it hit hdelete
    exact ⟨howns.valid, howns.modified⟩

/-- Since incarnation `m` of an entry was claimed, it is claimed still, or it has been released, and
perhaps the entry is in use again since. -/
def FlowView.ClaimedSince (v : FlowView) (i m : Nat) : Prop :=
  m < v.incarnation i ∨ (v.incarnation i = m ∧ (v.Claimed i ∨ v.valid i = false))

/-- Only `take` makes an entry valid, and then it is another incarnation. -/
theorem FlowMove.unused (hinv : FlowInv cfg v) (hm : FlowMove cfg R v v')
    (hvalid : v.valid i = false) :
    v.incarnation i < v'.incarnation i ∨
      (v'.incarnation i = v.incarnation i ∧ v'.valid i = false) := by
  cases hm with
  | take j c added _ hfree =>
    by_cases hij : i = j
    · refine Or.inl ?_
      show v.incarnation i < update v.incarnation j (v.incarnation j + 1) i
      rw [hij, update_self]
      exact Nat.lt_succ_self _
    · refine Or.inr ⟨update_of_ne hij _ _, ?_⟩
      exact ((hinv.inserts hfree).others i hij).1.trans hvalid
  | reset _ _ _ hrelease =>
    obtain ⟨-, -, hrel⟩ := hinv.releases hrelease
    refine Or.inr ⟨rfl, (hrel i).1.trans ?_⟩
    split
    · rfl
    · exact hvalid
  | evict j _ _ _ _ hrelease =>
    obtain ⟨-, -, hrel⟩ := hinv.releases hrelease
    refine Or.inr ⟨rfl, (hrel i).1.trans ?_⟩
    split
    · rfl
    · exact hvalid
  | table ha hstep => exact Or.inr ⟨rfl, ((hinv.table ha hstep).2.2 i).trans hvalid⟩
  | change | delete | schedule | mark | work | callback | defer | takeBack | finish =>
    exact Or.inr ⟨rfl, hvalid⟩

theorem FlowMove.incarnation_le (hm : FlowMove cfg R v v') :
    v.incarnation i ≤ v'.incarnation i := by
  cases hm with
  | take j =>
    show v.incarnation i ≤ update v.incarnation j (v.incarnation j + 1) i
    rw [update_apply]
    split
    · rename_i hij
      rw [hij]
      exact Nat.le_succ _
    · exact Nat.le_refl _
  | change | delete | schedule | mark | work | callback | defer | takeBack | reset | evict | finish
  | table => exact Nat.le_refl _

theorem FlowView.ClaimedSince.move (h : v.ClaimedSince i m) (hinv : FlowInv cfg v)
    (hlock : LockInv v) (hm : FlowMove cfg R v v') : v'.ClaimedSince i m := by
  rcases h with hlater | ⟨hinc, hclaimed | hvalid⟩
  · exact Or.inl (lt_of_lt_of_le hlater hm.incarnation_le)
  · obtain ⟨hvalid, hmodified⟩ := hclaimed.locked hinv hlock
    rcases hm.locked hinv hvalid hmodified with
      ⟨hvalid', hcore, hinc'⟩ | ⟨-, -, -, hvalid', hinc'⟩ | ⟨-, hvalid', hinc'⟩ |
      ⟨hrunning, hback⟩
    · refine Or.inr ⟨hinc'.trans hinc, Or.inl ?_⟩
      rcases hclaimed with hcandidate | ⟨it, hit, hdelete, hindex⟩
      · left
        rwa [hcore]
      right
      refine ⟨it, ?_, hdelete, hindex⟩
      rcases hm.items hinv with hitems | ⟨new, hitems, -, -, -, -⟩ | ⟨ended, hitems, hended⟩
      · exact hitems.symm.subset hit
      · exact hitems.symm.subset (List.mem_cons_of_mem new hit)
      rw [hitems] at hit
      rcases List.mem_cons.mp hit with rfl | hit
      · -- a deletion does not end while its entry is in use
        rw [hindex, hvalid'] at hended
        cases hended hdelete
      · exact hit
    · exact Or.inr ⟨hinc'.trans hinc, Or.inr hvalid'⟩
    · exact Or.inr ⟨hinc'.trans hinc, Or.inr hvalid'⟩
    · rename_i it
      rw [hlock.noBack it (mem_items_of_running hrunning)] at hback
      cases hback
  · rcases hm.unused hinv hvalid with hlt | ⟨hinc', hvalid'⟩
    · exact Or.inl (hinc ▸ hlt)
    · exact Or.inr ⟨hinc'.trans hinc, Or.inr hvalid'⟩

end VRouter
