import VRouter.Htable.Find

/-!
# VRouter — what the operations of a table in service do to the marks

A released overflow entry is marked, and its bucket's work item takes the mark off again when it
unlinks the entry. Here is what each operation does to marks, bucket indices and delete data:
`HtInv.findFree_overflow`, `HtInv.deferDelete_overflow`, and for the work
item `HtInv.scheduledDelete_marks`, which holds as long as the counter it is given is enough for the
marked entries of the chain.
-/

namespace VRouter

open Htable

/-! ## Taking and releasing -/

theorem Hentry.SameState.of_eq {a b : Hentry} (h : a = b) : a.SameState b := h ▸ .refl _

@[simp] theorem markDeleted_self (t : Htable) (e : Nat) :
    (markDeleted t e).hentry e =
      { t.hentry e with flagValid := false, flagDeleteMarked := true } := by
  unfold markDeleted
  rw [addUsedEntries_hentry, modify_self]

theorem markDeleted_of_ne (t : Htable) {e i : Nat} (h : i ≠ e) :
    (markDeleted t e).hentry i = t.hentry i := by
  unfold markDeleted
  rw [addUsedEntries_hentry, modify_of_ne _ _ _ h]

@[simp] theorem markDeleted_deleteData (t : Htable) (e : Nat) :
    (markDeleted t e).deleteData = t.deleteData := rfl

namespace HtInv

variable {s s' : HtSys} {place : Nat → HtPlace} {cont : HtPlace → List Nat} {hash e h : Nat}

section

variable (hi : HtInv s place cont)
include hi

/-- What `vr_htable_find_free_hentry` does to the overflow entries: nothing, or one entry of the
free list is chained. -/
theorem findFree_overflow {r : Option Nat} {t' : Htable}
    (h : vrHtableFindFreeHentry s.table hash = some (r, t')) :
    t'.deleteData = s.table.deleteData ∧
      ∀ i, s.table.IsOverflow i →
        (t'.hentry i).SameState (s.table.hentry i) ∨
        ((s.table.hentry i).flagInFreeList = true ∧ s.table.BucketInside hash ∧
          (t'.hentry i).LinkedBehind (chainHead s.table hash)) := by
  rcases vrHtableFindFreeHentry_cases h with ⟨-, rfl⟩ | ⟨e, -, hscan, rfl⟩ |
    ⟨e, -, hhead, hscan, rfl⟩
  · exact ⟨rfl, fun i _ => Or.inl (.refl _)⟩
  · refine ⟨rfl, fun i hover => Or.inl ?_⟩
    have hie : i ≠ e := by
      rw [findFreeScan_eq_bucketScan] at hscan
      have := (hi.sized.lt_of_mainEntry (bucketScan_some hscan).2.2.1).2
      have := hover.1
      omega
    rw [takeMain_of_ne hie]
    exact .refl _
  · refine ⟨rfl, fun i hover => ?_⟩
    have hinside := hi.bucketInside hscan
    have hlt := hi.chainHead_lt hinside
    obtain ⟨F, hF⟩ := hi.htFreeOentryHead_eq.mp hhead
    have hmem : e ∈ cont .free := by rw [hF]; simp
    have hhe : chainHead s.table hash ≠ e := by
      have := (hi.owned.placed.dom_of_mem hmem).1
      omega
    by_cases hie : i = e
    · subst hie
      exact Or.inr ⟨(hi.owned.flagFree i hover).mpr hmem, hinside, chainFree_linked hhe⟩
    · refine Or.inl (.of_eq (chainFree_of_ne hie ?_))
      have := hover.1
      omega

theorem deferDelete_overflow (he : e ∈ s.callbacks) :
    (vrHtableHentryDeferDelete s.table e).deleteData = s.table.deleteData ∧
      (((vrHtableHentryDeferDelete s.table e).hentry e).flagValid = false ∧
        ((vrHtableHentryDeferDelete s.table e).hentry e).flagDeleteMarked = false ∧
        ((vrHtableHentryDeferDelete s.table e).hentry e).flagInFreeList = true) ∧
      ∀ i, i ≠ e → (vrHtableHentryDeferDelete s.table e).hentry i = s.table.hentry i := by
  rw [(hi.waiting_of_callbacks he).2]
  exact ⟨rfl, by simp [returnFree], fun i hie => returnFree_of_ne hie⟩

end

/-! ### The work item -/

theorem reclaim_inService {alloc : Nat → Bool} (hready : s.vrNotReady = false)
    (halloc : ∀ e, alloc e = true) (ent : Nat) :
    reclaim alloc s ent = { s with callbacks := s.callbacks ++ [ent] } := by
  unfold reclaim
  rw [if_neg (by simp [hready]), if_pos (halloc ent)]

/-- The loop in service, from behind `K` on: if `count` is enough for the marked entries of the rest
of the chain, all of them lose their mark and are handed to their callbacks. -/
theorem scheduledDeleteLoop_marks {alloc : Nat → Bool} (halloc : ∀ e, alloc e = true)
    (rest : List Nat) {fuel count prev : Nat} {K m : List Nat} (hi : HtInv s place cont)
    (hready : s.vrNotReady = false) (hh : h < s.table.htHentries)
    (hC : cont (.chain h) = K ++ rest) (hK : h :: K = m ++ [prev]) (hfuel : rest.length ≤ fuel)
    (hcount : (rest.filter fun e => (s.table.hentry e).flagDeleteMarked).length ≤ count)
    (hs' : VRouter.scheduledDeleteLoop alloc fuel prev rest.head? count s = s') :
    s'.callbacks = s.callbacks ++ rest.filter (fun e => (s.table.hentry e).flagDeleteMarked) ∧
      s'.table.deleteData = s.table.deleteData ∧ s.table.Unmarks s'.table rest := by
  induction rest generalizing s s' place cont fuel count prev K m with
  | nil =>
    have hend : s' = s := by
      subst hs'
      cases fuel <;> rfl
    subst hend
    simp [Htable.Unmarks]
  | cons ent rest ih =>
    obtain ⟨fuel, rfl⟩ : ∃ n, fuel = n + 1 := ⟨fuel - 1, by rw [List.length_cons] at hfuel; omega⟩
    rw [List.length_cons] at hfuel
    have hnd := hi.owned.placed.nodup (.chain h)
    rw [hC] at hnd
    have hrest : ent ∉ rest := (List.nodup_cons.mp (List.nodup_append.mp hnd).2.1).1
    rw [List.head?_cons] at hs'
    cases count with
    | zero =>
      -- no marked entry is left
      have hend : s' = s := hs'.symm
      subst hend
      have hnone := List.filter_eq_nil_iff.mp (List.eq_nil_of_length_eq_zero
        (Nat.le_zero.mp hcount))
      refine ⟨?_, rfl, fun i => ⟨rfl, rfl, rfl, ?_⟩⟩
      · rw [List.eq_nil_of_length_eq_zero (Nat.le_zero.mp hcount), List.append_nil]
      · by_cases hin : i ∈ ent :: rest
        · have := hnone i hin
          simp [this]
        · simp [hin]
    | succ count =>
      rw [scheduledDeleteLoop_cons hi hh hC hK] at hs'
      by_cases hmarked : (s.table.hentry ent).flagDeleteMarked = true
      · rw [if_pos hmarked] at hs'
        obtain ⟨place', cont', hinv, hchain, hwork, -⟩ := hi.unlink_reclaim alloc hh hC hK hmarked
        have hE := congrArg Prod.fst hwork.shape
        have hready' := hwork.notReady.trans hready
        generalize hs₁ : reclaim alloc { s with table := unlinkOentry s.table prev ent } ent = s₁
          at hs' hinv hE hready'
        rw [reclaim_inService (s := { s with table := unlinkOentry s.table prev ent }) hready
          halloc] at hs₁
        -- the marks of the rest are what they were
        have hsame : (rest.filter fun e => (s₁.table.hentry e).flagDeleteMarked) =
            rest.filter fun e => (s.table.hentry e).flagDeleteMarked := by
          apply List.filter_congr
          intro i hin
          have hie : i ≠ ent := by
            rintro rfl
            exact hrest hin
          subst hs₁
          rw [(unlinkOentry_unmarks s.table prev ent i).2.2.2]
          simp [hie]
        rw [List.filter_cons, if_pos hmarked, List.length_cons] at hcount
        obtain ⟨hcall, hdata, hflags⟩ := ih hinv hready' (lt_of_lt_of_eq hh hE.symm) hchain hK
          (by omega) (by rw [hsame]; omega) hs'
        refine ⟨?_, ?_, fun i => ?_⟩
        · rw [hcall, hsame, List.filter_cons, if_pos hmarked]
          subst hs₁
          simp
        · rw [hdata]
          subst hs₁
          rfl
        obtain ⟨hb, hv, hf, hm⟩ := hflags i
        subst hs₁
        obtain ⟨hb', hv', hf', hm'⟩ := unlinkOentry_unmarks s.table prev ent i
        refine ⟨hb.trans hb', hv.trans hv', hf.trans hf', ?_⟩
        rw [hm, hm']
        simp [Bool.and_assoc]
      · rw [if_neg hmarked] at hs'
        rw [List.filter_cons, if_neg hmarked] at hcount ⊢
        obtain ⟨hcall, hdata, hflags⟩ := ih (m := h :: K) hi hready hh
          (by rw [hC]; simp) rfl (by omega) hcount hs'
        refine ⟨hcall, hdata, fun i => ?_⟩
        obtain ⟨hb, hv, hf, hm⟩ := hflags i
        refine ⟨hb, hv, hf, ?_⟩
        rw [hm]
        by_cases hie : i = ent
        · subst hie
          simp [hmarked]
        · simp [hie]

/-- The work item of the chain `h` in service, with a counter that is enough for the chain. -/
theorem scheduledDelete_marks {alloc : Nat → Bool} (halloc : ∀ e, alloc e = true)
    (hi : HtInv s place cont) (hready : s.vrNotReady = false) (d : Nat)
    (hcount : ((cont (.chain (s.table.deleteData d).hdIndex)).filter fun e =>
      (s.table.hentry e).flagDeleteMarked).length ≤ (s.table.deleteData d).hdCount)
    (hs' : vrHtableHentryScheduledDelete s alloc d = s') :
    s'.callbacks = s.callbacks ++ (cont (.chain (s.table.deleteData d).hdIndex)).filter
        (fun e => (s.table.hentry e).flagDeleteMarked) ∧
      s'.table.deleteData = Function.update s.table.deleteData d
        ⟨(s.table.deleteData d).hdIndex, 0, false⟩ ∧
      s.table.Unmarks s'.table (cont (.chain (s.table.deleteData d).hdIndex)) := by
  have hh := hi.hdIndex d
  unfold vrHtableHentryScheduledDelete at hs'
  simp only [hi.sized.get _ (Nat.lt_add_right _ hh)] at hs'
  rw [setDeleteData_next, (hi.owned.chain _ hh).2.eq_head?] at hs'
  have hinv : HtInv { s with
      table := s.table.setDeleteData d ⟨(s.table.deleteData d).hdIndex, 0, false⟩ } place cont := by
    apply hi.setDeleteData
    exact hh
  exact hinv.scheduledDeleteLoop_marks halloc _ (m := []) hready hh rfl rfl
    (hi.owned.length_le _) hcount hs'

end HtInv

end VRouter
