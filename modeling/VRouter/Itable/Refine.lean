import VRouter.Itable.Table

/-!
# VRouter — the index table is a finite map

* `Layout` — the strides of a table that `vr_itable_create` accepts cut an index into consecutive
  groups of bits
* `itableGet_set`, `itableGet_set_error`, `itableGet_del` — what an access returns after a set, a
  set that ran out of memory, and a delete
* `itableDump_eq` — a traversal calls the callback on the entries in ascending order
* `ItableRun` — the tables that calls can lead to, with the map each of them stands for
-/

namespace VRouter

open Traverse Function

/-! ## Indices -/

/-- The strides cut the low `n` bits of an index into groups, the first one on top. -/
def Layout : List StrideInfo → Nat → Prop
  | [], n => n = 0
  | s :: ss, n =>
    ∃ bits, s.strideLen = 2 ^ bits ∧ n = bits + s.strideShift ∧ Layout ss s.strideShift

variable {ss : List StrideInfo} {s : StrideInfo} {bits n pageShift indexLen : Nat}

theorem itableStrides_layout {tot : Nat} {bits : List Nat}
    (h : itableStrides pageShift indexLen tot bits = some (ss, indexLen)) :
    Layout ss (indexLen - tot) := by
  induction bits generalizing tot ss with
  | nil =>
    obtain ⟨rfl, rfl⟩ := Prod.mk.inj (Option.some.inj h)
    exact Nat.sub_self _
  | cons b bits ih =>
    rw [itableStrides] at h
    split at h
    · cases h
    split at h
    · cases h
    obtain ⟨⟨ss', total⟩, hrest, heq⟩ := Option.map_eq_some_iff.mp h
    obtain ⟨rfl, rfl⟩ := Prod.mk.inj heq
    refine ⟨b, Nat.one_shiftLeft b, ?_, ih hrest⟩
    show total - tot = b + (total - (tot + b))
    omega

theorem StrideInfo.id_val (hlen : s.strideLen = 2 ^ bits) (index : Nat) :
    (s.id index).val = index / 2 ^ s.strideShift % 2 ^ bits := by
  show (index >>> s.strideShift) &&& (s.strideLen - 1) = _
  rw [hlen, Nat.and_two_pow_sub_one_eq_mod, Nat.shiftRight_eq_div_pow]

/-- Two indices are the same to a table if all their strides are. -/
theorem mod_eq_iff_id (hlen : s.strideLen = 2 ^ bits) (hn : n = bits + s.strideShift) (i j : Nat) :
    i % 2 ^ n = j % 2 ^ n ↔
      s.id i = s.id j ∧ i % 2 ^ s.strideShift = j % 2 ^ s.strideShift := by
  have hsplit : ∀ x : Nat, x % 2 ^ n =
      x % 2 ^ s.strideShift + 2 ^ s.strideShift * (s.id x).val := by
    intro x
    rw [StrideInfo.id_val hlen, hn, Nat.add_comm bits, Nat.pow_add, Nat.mod_mul]
  have hpos : 0 < 2 ^ s.strideShift := Nat.two_pow_pos _
  constructor
  · intro h
    have hlow : i % 2 ^ s.strideShift = j % 2 ^ s.strideShift := by
      have hdvd : 2 ^ s.strideShift ∣ 2 ^ n := Nat.pow_dvd_pow 2 (by omega)
      rw [← Nat.mod_mod_of_dvd i hdvd, h, Nat.mod_mod_of_dvd j hdvd]
    rw [hsplit, hsplit, hlow] at h
    refine ⟨Fin.ext (Nat.eq_of_mul_eq_mul_left hpos (Nat.add_left_cancel h)), hlow⟩
  · rintro ⟨hid, hlow⟩
    rw [hsplit, hsplit, hid, hlow]

section

variable {α β : Type}

/-! ## Sets and deletes -/

theorem itableGet_none (ss : List StrideInfo) (index : Nat) :
    itableGet ss (none : Option (Strides α ss)) index = none := by
  cases ss <;> rfl

theorem itableGet_store (ptr : Strides α (s :: ss)) (child : Option (Strides α ss)) (i j : Nat) :
    itableGet (s :: ss) (some (ptr.store (s.id i) child)) j =
      if s.id j = s.id i then itableGet ss child j else itableGet (s :: ss) (some ptr) j := by
  show itableGet ss (if s.id j = s.id i then child else ptr (s.id j)) j = _
  split
  · rfl
  · rfl

variable {index i : Nat} {alloc : Nat → Bool} {data old x : Option α}
    {ptr' ptr : Option (Strides α ss)} {t : VrItbl α}

/-- A change of one index below one pointer of an array is a change of one index of the array. -/
theorem itableGet_update (hlen : s.strideLen = 2 ^ bits) (hn : n = bits + s.strideShift)
    {ptr : Strides α (s :: ss)} {child : Option (Strides α ss)}
    (hchild : ∀ j, itableGet ss child j =
      if j % 2 ^ s.strideShift = index % 2 ^ s.strideShift then x
      else itableGet ss (ptr.at (s.id index)) j) (j : Nat) :
    itableGet (s :: ss) (some (ptr.store (s.id index) child)) j =
      if j % 2 ^ n = index % 2 ^ n then x else itableGet (s :: ss) (some ptr) j := by
  have hiff := mod_eq_iff_id hlen hn j index
  rw [itableGet_store, hchild]
  by_cases hid : s.id j = s.id index
  · rw [if_pos hid]
    refine if_congr ((and_iff_right hid).symm.trans hiff.symm) rfl ?_
    rw [← hid]
    rfl
  · rw [if_neg hid, if_neg fun h => hid (hiff.mp h).1]

/-- The step of `vr_itable_set` at one stride, with the array it works on. -/
theorem itableSet_cons (alloc : Nat → Bool) (s : StrideInfo) (ss : List StrideInfo) (i : Nat)
    (ptr : Option (Strides α (s :: ss))) (index : Nat) (data : Option α) :
    (ptr = none ∧ alloc i = false ∧
        itableSet alloc (s :: ss) i ptr index data = (.error (), none)) ∨
      ∃ arr : Strides α (s :: ss),
        (∀ j, itableGet (s :: ss) (some arr) j = itableGet (s :: ss) ptr j) ∧
        itableSet alloc (s :: ss) i ptr index data =
          ((itableSet alloc ss (i + 1) (arr.at (s.id index)) index data).1,
            some (arr.store (s.id index)
              (itableSet alloc ss (i + 1) (arr.at (s.id index)) index data).2)) := by
  cases ptr with
  | some arr => exact Or.inr ⟨arr, fun _ => rfl, rfl⟩
  | none =>
    cases halloc : alloc i with
    | false =>
      simp [itableSet, halloc]
    | true =>
      refine Or.inr ⟨.null α s ss, fun j => itableGet_none ss j, ?_⟩
      simp only [itableSet, halloc, if_true]

theorem itableGet_set (h : Layout ss n)
    (hset : itableSet alloc ss i ptr index data = (.ok old, ptr')) : old = itableGet ss ptr index ∧
      ∀ j, itableGet ss ptr' j =
        if j % 2 ^ n = index % 2 ^ n then data else itableGet ss ptr j := by
  induction ss generalizing n i with
  | nil =>
    obtain ⟨hold, rfl⟩ := Prod.mk.inj hset
    refine ⟨(Except.ok.inj hold).symm, fun j => ?_⟩
    rw [show n = 0 from h, Nat.pow_zero, Nat.mod_one, Nat.mod_one]
    rfl
  | cons s ss ih =>
    obtain ⟨bits, hlen, hn, hss⟩ := h
    rcases itableSet_cons alloc s ss i ptr index data with ⟨-, -, heq⟩ | ⟨arr, harr, heq⟩
    · rw [heq] at hset
      cases hset
    rw [heq] at hset
    obtain ⟨hret, rfl⟩ := Prod.mk.inj hset
    obtain ⟨hold, hget⟩ := ih hss (Prod.ext hret rfl)
    refine ⟨hold.trans (harr index), fun j => ?_⟩
    rw [itableGet_update hlen hn hget, harr]

theorem itableGet_set_error (hset : itableSet alloc ss i ptr index data = (.error (), ptr'))
    (j : Nat) : itableGet ss ptr' j = itableGet ss ptr j := by
  induction ss generalizing i with
  | nil => cases hset
  | cons s ss ih =>
    rcases itableSet_cons alloc s ss i ptr index data with ⟨rfl, -, heq⟩ | ⟨arr, harr, heq⟩
    · rw [heq] at hset
      cases hset
      rfl
    rw [heq] at hset
    obtain ⟨hret, rfl⟩ := Prod.mk.inj hset
    have hget := ih (Prod.ext hret rfl)
    rw [itableGet_store, hget, ← harr]
    by_cases hid : s.id j = s.id index
    · rw [if_pos hid, ← hid]
      rfl
    · rw [if_neg hid]

theorem itableGet_of_empty {ptr : Strides α (s :: ss)} (h : vrStrideEmpty ptr = true) (j : Nat) :
    itableGet (s :: ss) (some ptr) j = none := by
  have hnull := List.all_eq_true.mp h (s.id j) (List.mem_finRange _)
  show itableGet ss (ptr.at (s.id j)) j = none
  rw [Option.isNone_iff_eq_none.mp hnull, itableGet_none]

theorem itableGet_del (h : Layout ss n) (ptr : Option (Strides α ss)) (index : Nat) :
    (itableDel ss ptr index).1 = itableGet ss ptr index ∧
      ∀ j, itableGet ss (itableDel ss ptr index).2 j =
        if j % 2 ^ n = index % 2 ^ n then none else itableGet ss ptr j := by
  induction ss generalizing n with
  | nil =>
    refine ⟨rfl, fun j => ?_⟩
    rw [show n = 0 from h, Nat.pow_zero, Nat.mod_one, Nat.mod_one]
    rfl
  | cons s ss ih =>
    obtain ⟨bits, hlen, hn, hss⟩ := h
    cases ptr with
    | none => exact ⟨rfl, fun j => (ite_self _).symm⟩
    | some ptr =>
      obtain ⟨hold, hget⟩ := ih hss (ptr.at (s.id index))
      -- with the array kept, whether or not it has become empty
      have hkept := itableGet_update hlen hn hget
      rw [itableDel]
      dsimp only
      split
      · rename_i hfree
        refine ⟨hold, fun j => ?_⟩
        rw [← hkept j, itableGet_of_empty (Bool.and_eq_true_iff.mp hfree).2, itableGet_none]
      · exact ⟨hold, hkept⟩

/-! ## Traversal -/

/-- The entries below a pointer in the order of the traversal; `index` has the bits of the strides
before. -/
def itableEntries : (ss : List StrideInfo) → Option (Strides α ss) → (index : Nat) →
    List (Nat × α)
  | [], none, _ => []
  | [], some data, index => [(index, data)]
  | _ :: _, none, _ => []
  | s :: ss, some ptr, index =>
    (List.finRange s.strideLen).flatMap fun i =>
      itableEntries ss (ptr.at i) (index ||| (i.val <<< s.strideShift))

/-- The callback on one entry, as the traversal makes it. -/
def itableCall (func : Nat → α → β → Int × β) (marker : Nat) (e : Nat × α) (r : Int × β) :
    Int × β :=
  itableVisit func marker e.1 (some e.2) r

theorem itableCall_stateless (func : Nat → α → β → Int × β) (marker : Nat) :
    Stateless (itableCall func marker) := by
  intro e r s h _
  unfold itableCall itableVisit
  dsimp only
  split
  · rw [h.2]
    exact Agree.refl _
  · exact h

/-- `__vr_itable_dump` calls the callback on the entries, one after the other. -/
theorem itableDump_eq (func : Nat → α → β → Int × β) (marker : Nat) (s : StrideInfo)
    (ss : List StrideInfo) (ptr : Option (Strides α (s :: ss))) (index : Nat) (b : β) :
    Agree (itableDump func marker (s :: ss) ptr index b)
      (traverse (itableCall func marker) (itableEntries (s :: ss) ptr index) (1, b)) := by
  induction ss generalizing s index b with
  | nil =>
    cases ptr with
    | none => exact Agree.refl _
    | some ptr =>
      refine traverse_flatMap _ (itableCall_stateless func marker) (fun j _ r _ => ?_) Int.one_pos
      cases ptr.at j with
      | none => exact Agree.refl _
      | some data =>
        simp only [itableEntries, Traverse.traverse, ite_self]
        exact Agree.refl _
  | cons s' ss ih =>
    cases ptr with
    | none => exact Agree.refl _
    | some ptr =>
      refine traverse_flatMap _ (itableCall_stateless func marker) (fun j _ r hr => ?_) Int.one_pos
      cases hj : ptr.at j with
      | none => exact Agree.refl _
      | some child =>
        refine (ih s' (some child) _ r.2).trans (traverse_agree
          (fun e _ => itableCall_stateless func marker e) ⟨?_, rfl⟩ Int.one_pos)
        exact iff_of_false (show ¬ (1 : Int) ≤ 0 by decide) (Int.not_le.mpr hr)

/-- The index of an array's slot, for a base whose low bits are clear. -/
theorem or_shiftLeft_eq (hlen : s.strideLen = 2 ^ bits) (k : Nat) (j : Fin s.strideLen) :
    (2 ^ (bits + s.strideShift) * k) ||| (j.val <<< s.strideShift) =
      2 ^ s.strideShift * (2 ^ bits * k + j.val) := by
  have hlt : j.val <<< s.strideShift < 2 ^ (bits + s.strideShift) := by
    rw [Nat.shiftLeft_eq, Nat.pow_add]
    exact Nat.mul_lt_mul_of_pos_right (hlen ▸ j.isLt) (Nat.two_pow_pos _)
  rw [← Nat.two_pow_add_eq_or_of_lt hlt, Nat.shiftLeft_eq, Nat.pow_add, Nat.mul_add,
    Nat.mul_comm j.val, Nat.mul_comm (2 ^ bits), Nat.mul_assoc]

theorem mem_itableEntries (h : Layout ss n) (ptr : Option (Strides α ss)) (k i : Nat) (data : α) :
    (i, data) ∈ itableEntries ss ptr (2 ^ n * k) ↔
      i / 2 ^ n = k ∧ itableGet ss ptr i = some data := by
  induction ss generalizing n k with
  | nil =>
    cases (show n = 0 from h)
    rw [Nat.pow_zero, Nat.one_mul, Nat.div_one]
    cases ptr with
    | none => simp [itableEntries, itableGet]
    | some d =>
      constructor
      · intro hmem
        cases List.mem_singleton.mp hmem
        exact ⟨rfl, rfl⟩
      · rintro ⟨rfl, hd⟩
        cases hd
        exact List.mem_singleton.mpr rfl
  | cons s ss ih =>
    obtain ⟨bits, hlen, rfl, hss⟩ := h
    cases ptr with
    | none => simp [itableEntries, itableGet]
    | some ptr =>
      simp only [itableEntries, List.mem_flatMap, List.mem_finRange, true_and,
        or_shiftLeft_eq hlen, ih hss]
      have hdiv : i / 2 ^ (bits + s.strideShift) = i / 2 ^ s.strideShift / 2 ^ bits := by
        rw [Nat.add_comm, Nat.pow_add, Nat.div_div_eq_div_mul]
      have hid := s.id_val hlen i
      have hmod := Nat.div_add_mod (i / 2 ^ s.strideShift) (2 ^ bits)
      rw [hdiv]
      constructor
      · rintro ⟨j, hj, hget⟩
        have hjlt : j.val < 2 ^ bits := hlen ▸ j.isLt
        have hjid : s.id i = j := by
          apply Fin.ext
          rw [hid, hj, Nat.mul_add_mod, Nat.mod_eq_of_lt hjlt]
        refine ⟨?_, ?_⟩
        · rw [hj, Nat.mul_add_div (Nat.two_pow_pos _), Nat.div_eq_of_lt hjlt, Nat.add_zero]
        · show itableGet ss (ptr.at (s.id i)) i = some data
          rw [hjid]
          exact hget
      · rintro ⟨hk, hget⟩
        refine ⟨s.id i, ?_, hget⟩
        rw [hid, ← hk]
        exact hmod.symm

theorem itableEntries_ascending (h : Layout ss n) (ptr : Option (Strides α ss)) (k : Nat) :
    (itableEntries ss ptr (2 ^ n * k)).Pairwise fun e e' => e.1 < e'.1 := by
  induction ss generalizing n k with
  | nil => cases ptr <;> simp [itableEntries]
  | cons s ss ih =>
    obtain ⟨bits, hlen, rfl, hss⟩ := h
    cases ptr with
    | none => exact List.Pairwise.nil
    | some ptr =>
      simp only [itableEntries, or_shiftLeft_eq hlen]
      rw [List.pairwise_flatMap]
      refine ⟨fun j _ => ih hss _ _, (List.pairwise_lt_finRange _).imp ?_⟩
      -- entries of different slots differ in the bits above the next strides
      rintro i j hij ⟨x, dx⟩ hx ⟨y, dy⟩ hy
      have hx' := ((mem_itableEntries hss _ _ x dx).mp hx).1
      have hy' := ((mem_itableEntries hss _ _ y dy).mp hy).1
      have hlt : x / 2 ^ s.strideShift < y / 2 ^ s.strideShift := by
        rw [hx', hy']
        exact Nat.add_lt_add_left hij _
      exact Nat.lt_of_div_lt_div hlt

/-! ## Runs -/

/-- The tables that calls can lead to from the empty table `t₀`, with the map of each: indices to
the last data set and not deleted. Indices count modulo the size of the table. -/
inductive ItableRun (t₀ : VrItbl α) : VrItbl α → (Nat → Option α) → Prop where
  | create : ItableRun t₀ t₀ fun _ => none
  | set {t t' : VrItbl α} {m : Nat → Option α} {alloc : Nat → Bool} {index : Nat}
      {data old : Option α} (hrun : ItableRun t₀ t m)
      (hset : vrItableSet t alloc index data = (.ok old, t')) :
      ItableRun t₀ t' (update m (index % 2 ^ t₀.indexLen) data)
  | setFail {t t' : VrItbl α} {m : Nat → Option α} {alloc : Nat → Bool} {index : Nat}
      {data : Option α} (hrun : ItableRun t₀ t m)
      (hset : vrItableSet t alloc index data = (.error (), t')) : ItableRun t₀ t' m
  | del {t : VrItbl α} {m : Nat → Option α} (hrun : ItableRun t₀ t m) (index : Nat) :
      ItableRun t₀ (vrItableDel t index).2 (update m (index % 2 ^ t₀.indexLen) none)

/-- The table `t` has the layout of `t₀` and stands for the map `m`. -/
structure IsMap (indexLen : Nat) (t : VrItbl α) (m : Nat → Option α) : Prop where
  layout : Layout t.strides indexLen
  nonempty : t.strides ≠ []
  get : ∀ index, vrItableGet t index = m (index % 2 ^ indexLen)

theorem vrItableCreate_isMap {bits : List Nat}
    (h : vrItableCreate α pageShift indexLen bits = some t) :
    t.indexLen = indexLen ∧ IsMap indexLen t fun _ => none := by
  unfold vrItableCreate at h
  split at h
  · cases h
  split at h
  · cases h
  rename_i hbits
  obtain ⟨⟨ss, total⟩, hss, hsome⟩ := Option.bind_eq_some_iff.mp h
  dsimp only at hsome
  split at hsome
  · cases hsome
  rename_i htotal
  cases Option.some.inj hsome
  rw [show total = indexLen from not_not.mp htotal] at hss
  refine ⟨rfl, itableStrides_layout hss, ?_, fun index => itableGet_none ss index⟩
  -- two strides were asked for
  intro hnil
  cases bits with
  | nil => exact hbits (by decide)
  | cons b bits =>
    rw [show ss = [] from hnil, itableStrides] at hss
    split at hss
    · cases hss
    · split at hss
      · cases hss
      · obtain ⟨r, -, hr⟩ := Option.map_eq_some_iff.mp hss
        exact List.cons_ne_nil _ _ (Prod.mk.inj hr).1

section

variable {t' : VrItbl α} {m : Nat → Option α}

variable (h : IsMap n t m)
include h

theorem IsMap.of_get {ptr : Option (Strides α t.strides)} (hget : ∀ j, itableGet t.strides ptr j =
      if j % 2 ^ n = index % 2 ^ n then x else itableGet t.strides t.data j) :
    IsMap n { t with data := ptr } (update m (index % 2 ^ n) x) := by
  refine ⟨h.layout, h.nonempty, fun j => ?_⟩
  show itableGet t.strides ptr j = _
  rw [hget, update_apply]
  exact if_congr Iff.rfl rfl (h.get j)

theorem IsMap.set (hset : vrItableSet t alloc index data = (.ok old, t')) :
    old = m (index % 2 ^ n) ∧ IsMap n t' (update m (index % 2 ^ n) data) := by
  obtain ⟨hret, rfl⟩ := Prod.mk.inj hset
  obtain ⟨hold, hget⟩ := itableGet_set h.layout (Prod.ext hret rfl)
  exact ⟨hold.trans (h.get index), h.of_get hget⟩

theorem IsMap.set_error (hset : vrItableSet t alloc index data = (.error (), t'))
    : IsMap n t' m := by
  obtain ⟨hret, rfl⟩ := Prod.mk.inj hset
  refine ⟨h.layout, h.nonempty, fun j => ?_⟩
  exact (itableGet_set_error (Prod.ext hret rfl) j).trans (h.get j)

theorem IsMap.del (index : Nat) :
    (vrItableDel t index).1 = m (index % 2 ^ n) ∧
      IsMap n (vrItableDel t index).2 (update m (index % 2 ^ n) none) := by
  obtain ⟨hold, hget⟩ := itableGet_del h.layout t.data index
  exact ⟨hold.trans (h.get index), h.of_get hget⟩

theorem IsMap.mem_entries (i : Nat) (d : α) :
    (i, d) ∈ itableEntries t.strides t.data 0 ↔ i < 2 ^ n ∧ m i = some d := by
  rw [← Nat.mul_zero (2 ^ n), mem_itableEntries h.layout,
    Nat.div_eq_zero_iff_lt (Nat.two_pow_pos n)]
  refine and_congr_right fun hi => ?_
  rw [← Nat.mod_eq_of_lt hi, ← h.get, Nat.mod_eq_of_lt hi]
  rfl

theorem IsMap.entries_ascending :
    (itableEntries t.strides t.data 0).Pairwise fun e e' => e.1 < e'.1 :=
  itableEntries_ascending h.layout t.data 0

/-- A traversal calls the callback on the entries from the marker on. -/
theorem IsMap.trav (func : Nat → α → β → Int × β) (marker : Nat) (udata : β) :
    Agree (vrItableTrav t func marker udata) (traverse (fun e r => func e.1 e.2 r.2)
      ((itableEntries t.strides t.data 0).filter fun e => marker ≤ e.1) (1, udata)) := by
  obtain ⟨indexLen, strides, data⟩ := t
  cases strides with
  | nil => exact absurd rfl h.nonempty
  | cons s ss =>
    refine (itableDump_eq func marker s ss data 0 udata).trans ?_
    rw [traverse_filter (itableCall func marker) (fun e => marker ≤ e.1) _ ?_ Int.one_pos]
    · refine traverse_agree (fun e he r s hrs _ => ?_) (Agree.refl _) Int.one_pos
      have hle : marker ≤ e.1 := of_decide_eq_true (List.mem_filter.mp he).2
      show Agree (if marker ≤ e.1 then _ else _) _
      rw [if_pos hle, hrs.2]
      exact Agree.refl _
    · intro e _ hskip r
      exact if_neg (of_decide_eq_false hskip)

end

theorem ItableRun.isMap {t₀ : VrItbl α} {m : Nat → Option α}
    (h₀ : IsMap t₀.indexLen t₀ fun _ => none) (hrun : ItableRun t₀ t m) :
    IsMap t₀.indexLen t m := by
  induction hrun with
  | create => exact h₀
  | set _ hset ih => exact (ih.set hset).2
  | setFail _ hset ih => exact ih.set_error hset
  | del _ index ih => exact (ih.del index).2

/-- **The index table is a finite map.** In every table that sets (with any allocation outcomes)
and deletes can lead to from one `vr_itable_create` returned: an access returns the data last set
and not deleted; a set returns the data it replaces and changes no other index, and one that runs
out of memory changes none; a delete returns the data it removes and changes no other index; a
traversal calls the callback on the entries at or above the marker in ascending order, once each,
until the callback stops it. -/
theorem vrItable_is_map {pageShift indexLen : Nat} {bits : List Nat} {t₀ t : VrItbl α}
    {m : Nat → Option α} (hcreate : vrItableCreate α pageShift indexLen bits = some t₀)
    (hrun : ItableRun t₀ t m) :
    (∀ index, vrItableGet t index = m (index % 2 ^ indexLen)) ∧
    (∀ alloc index data old t', vrItableSet t alloc index data = (.ok old, t') →
      old = m (index % 2 ^ indexLen) ∧ ∀ j, vrItableGet t' j =
        if j % 2 ^ indexLen = index % 2 ^ indexLen then data else vrItableGet t j) ∧
    (∀ alloc index data t', vrItableSet t alloc index data = (.error (), t') →
      ∀ j, vrItableGet t' j = vrItableGet t j) ∧
    (∀ index, (vrItableDel t index).1 = m (index % 2 ^ indexLen) ∧
      ∀ j, vrItableGet (vrItableDel t index).2 j =
        if j % 2 ^ indexLen = index % 2 ^ indexLen then none else vrItableGet t j) ∧
    (∀ marker, ∃ entries : List (Nat × α),
      entries.Pairwise (fun e e' => e.1 < e'.1) ∧
      (∀ i data, (i, data) ∈ entries ↔ marker ≤ i ∧ i < 2 ^ indexLen ∧ m i = some data) ∧
      ∀ (β : Type) (func : Nat → α → β → Int × β) (udata : β),
        Agree (vrItableTrav t func marker udata)
          (traverse (fun e r => func e.1 e.2 r.2) entries (1, udata))) := by
  obtain ⟨rfl, h₀⟩ := vrItableCreate_isMap hcreate
  have h := hrun.isMap h₀
  have hupdate : ∀ {t' : VrItbl α} {index : Nat} {x : Option α},
      IsMap t₀.indexLen t' (update m (index % 2 ^ t₀.indexLen) x) → ∀ j,
      vrItableGet t' j =
        if j % 2 ^ t₀.indexLen = index % 2 ^ t₀.indexLen then x else vrItableGet t j := by
    intro t' index x h' j
    rw [h'.get, update_apply, h.get]
  refine ⟨h.get, fun alloc index data old t' hset => ?_, fun alloc index data t' hset j => ?_,
    fun index => ?_, fun marker => ?_⟩
  · exact ⟨(h.set hset).1, hupdate (h.set hset).2⟩
  · rw [(h.set_error hset).get, h.get]
  · exact ⟨(h.del index).1, hupdate (h.del index).2⟩
  · refine ⟨_, h.entries_ascending.filter _, fun i data => ?_, fun β func => h.trav func marker⟩
    rw [List.mem_filter, h.mem_entries, decide_eq_true_iff, and_comm]

end

/-- A table of 4 bits in two strides of 2. -/
def smallItable : VrItbl Nat := ⟨4, [⟨4, 2, by decide⟩, ⟨4, 0, by decide⟩], none⟩

/-- Data set at index 5 of the small table is found there, and nothing at index 6. -/
theorem vrItable_is_map_small :
    vrItableCreate Nat 12 4 [2, 2] = some smallItable ∧
      vrItableGet (vrItableSet smallItable (fun _ => true) 5 (some 7)).2 5 = some 7 ∧
      vrItableGet (vrItableSet smallItable (fun _ => true) 5 (some 7)).2 6 = none := by
  have hcreate : vrItableCreate Nat 12 4 [2, 2] = some smallItable := rfl
  have hset : vrItableSet smallItable (fun _ => true) 5 (some 7) =
      (.ok none, (vrItableSet smallItable (fun _ => true) 5 (some 7)).2) := rfl
  have hmap := vrItable_is_map hcreate (ItableRun.create.set hset)
  exact ⟨hcreate, hmap.1 5, hmap.1 6⟩

end VRouter
