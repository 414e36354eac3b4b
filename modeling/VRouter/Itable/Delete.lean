import VRouter.Itable.Refine

/-!
# VRouter — deleting an index table

`vr_itable_delete` walks the table, calls back for every entry and frees the arrays on its way. An
array of the last stride is freed where it is walked, and so is the first array of all. For the
arrays in between the pointer is set to null before it is handed to `vr_free`, so they stay
allocated (`itableExit_frees`).
-/

namespace VRouter

variable {α : Type}

/-! ## Memory -/

/-- What a table has allocated: its own structures, and the array that the slots `path` lead to. -/
inductive ItableMem where
  | table
  | strideLen
  | strideShift
  | array (path : List Nat)
  deriving DecidableEq

/-- `vr_free`: what a pointer points to is freed, unless it is null. -/
def vrFree {β : Type} : Option β → List β := Option.toList

/-- The arrays from one stride on, where `path` leads to the first of them. -/
def itableArrays : (ss : List StrideInfo) → Option (Strides α ss) → (path : List Nat) →
    List (List Nat)
  | [], _, _ => []
  | _ :: _, none, _ => []
  | s :: ss, some ptr, path =>
    path :: (List.finRange s.strideLen).flatMap fun i =>
      itableArrays ss (ptr.at i) (path ++ [i.val])

/-- All that is allocated for a table. -/
def VrItbl.allocated (t : VrItbl α) : List ItableMem :=
  (itableArrays t.strides t.data []).map .array ++ [.strideLen, .strideShift, .table]

/-- `__vr_itable_exit` with a callback, in the array that `path` leads to (`cnt` is the length of
the path): the calls, and the arrays that are freed. -/
def itableExit : (ss : List StrideInfo) → Option (Strides α ss) → (path : List Nat) →
    (index : Nat) → List (Nat × α) × List (List Nat)
  | [], _, _, _ => ([], [])
  | _ :: _, none, _, _ => ([], [])
  | [s], some ptr, path, index =>
    ((List.finRange s.strideLen).flatMap fun j =>
      (ptr.at j).toList.map fun data => (index ||| (j.val <<< s.strideShift), data),
      vrFree (some path))
  | s :: s' :: ss, some ptr, path, index =>
    let below := (List.finRange s.strideLen).map fun i =>
      itableExit (s' :: ss) (ptr.at i) (path ++ [i.val]) (index ||| (i.val <<< s.strideShift))
    (below.flatMap Prod.fst,
      -- `ptr[i]` has been set to null
      below.flatMap (fun r => r.2 ++ vrFree none) ++ if path = [] then vrFree (some []) else [])

/-- `vr_itable_delete` with a callback: the calls, and what is freed. -/
def vrItableDelete (t : VrItbl α) : List (Nat × α) × List ItableMem :=
  let (calls, freed) := itableExit t.strides t.data [] 0
  (calls, freed.map .array ++ [.strideLen, .strideShift, .table])

/-! ## Calls and arrays -/

variable {s : StrideInfo} {ss : List StrideInfo} {path p : List Nat}

theorem itableExit_calls (ss : List StrideInfo) (ptr : Option (Strides α (s :: ss)))
    (path : List Nat) (index : Nat) :
    (itableExit (s :: ss) ptr path index).1 = itableEntries (s :: ss) ptr index := by
  induction ss generalizing s path index with
  | nil =>
    cases ptr with
    | none => rfl
    | some ptr =>
      simp only [itableExit, itableEntries]
      congr 1
      funext j
      cases ptr.at j <;> rfl
  | cons s' ss ih =>
    cases ptr with
    | none => rfl
    | some ptr => simp only [itableExit, itableEntries, List.flatMap_map, ih]

theorem prefix_of_mem_itableArrays {ptr : Option (Strides α ss)}
    (h : p ∈ itableArrays ss ptr path) : path <+: p := by
  induction ss generalizing path with
  | nil => cases h
  | cons s ss ih =>
    cases ptr with
    | none => cases h
    | some ptr =>
      rcases List.mem_cons.mp h with rfl | h
      · exact List.prefix_rfl
      · obtain ⟨i, -, hi⟩ := List.mem_flatMap.mp h
        exact (List.prefix_append _ _).trans (ih hi)

/-- Every array is listed once, as different slots lead to different arrays. -/
theorem itableArrays_nodup (ptr : Option (Strides α ss)) (path : List Nat) :
    (itableArrays ss ptr path).Nodup := by
  induction ss generalizing path with
  | nil => exact List.nodup_nil
  | cons s ss ih =>
    cases ptr with
    | none => exact List.nodup_nil
    | some ptr =>
      rw [itableArrays, List.nodup_cons, List.nodup_flatMap]
      refine ⟨fun hmem => ?_, fun i _ => ih _ _, (List.nodup_finRange _).imp ?_⟩
      · obtain ⟨i, -, hi⟩ := List.mem_flatMap.mp hmem
        have hle := (prefix_of_mem_itableArrays hi).length_le
        rw [List.length_append] at hle
        exact Nat.not_succ_le_self _ hle
      · intro i j hij p hi hj
        have hpre := List.prefix_of_prefix_length_le (prefix_of_mem_itableArrays hi)
          (prefix_of_mem_itableArrays hj) (by simp)
        have heq := hpre.eq_of_length (by simp)
        exact hij (Fin.ext (by simpa using heq))

/-- Of the arrays, the first one is freed and those of the last stride, which `n` slots lead to. -/
theorem itableExit_frees (ptr : Option (Strides α (s :: ss))) (path : List Nat) (index : Nat)
    {n : Nat} (hn : n = path.length + ss.length) :
    (itableExit (s :: ss) ptr path index).2.Perm
      ((itableArrays (s :: ss) ptr path).filter fun p => p = [] ∨ p.length = n) := by
  induction ss generalizing s path index with
  | nil =>
    cases ptr with
    | none => exact .refl _
    | some ptr => simp [itableExit, itableArrays, vrFree, hn]
  | cons s' ss ih =>
    cases ptr with
    | none => exact .refl _
    | some ptr =>
      have hlen : path.length ≠ n := by rw [hn, List.length_cons]; omega
      have hbelow := List.Perm.flatMap_left (List.finRange s.strideLen) fun i _ =>
        ih (ptr.at i) (path ++ [i.val]) (index ||| (i.val <<< s.strideShift))
          (by rw [hn, List.length_cons, List.length_append, List.length_singleton]; omega)
      rw [itableArrays, List.filter_cons, List.filter_flatMap]
      simp only [itableExit, vrFree, List.flatMap_map, Option.toList_none, List.append_nil,
        decide_eq_true_eq, hlen, or_false]
      split
      · rename_i hpath
        rw [hpath] at hbelow ⊢
        exact (hbelow.append_right _).trans (List.perm_append_singleton _ _)
      · rw [List.append_nil]
        exact hbelow

/-! ## Every table -/

/-- **Deleting a table calls back for every entry, and frees all memory unless there are arrays
between the first and the last stride.** In every table that sets (with any allocation outcomes) and
deletes can lead to, the calls are the entries in ascending order, once each. What is freed is what
is allocated, each once, if and only if every array is the first one or of the last stride. -/
theorem vrItableDelete_frees_iff {pageShift indexLen : Nat} {bits : List Nat} {t₀ t : VrItbl α}
    {m : Nat → Option α} (hcreate : vrItableCreate α pageShift indexLen bits = some t₀)
    (hrun : ItableRun t₀ t m) :
    (vrItableDelete t).1.Pairwise (fun e e' => e.1 < e'.1) ∧
    (∀ i data, (i, data) ∈ (vrItableDelete t).1 ↔ i < 2 ^ indexLen ∧ m i = some data) ∧
    t.allocated.Nodup ∧
    ((vrItableDelete t).2.Perm t.allocated ↔
      ∀ path, .array path ∈ t.allocated → path = [] ∨ path.length + 1 = t.strides.length) := by
  obtain ⟨rfl, h₀⟩ := vrItableCreate_isMap hcreate
  have h := hrun.isMap h₀
  have hinj : Function.Injective ItableMem.array := fun _ _ => ItableMem.array.inj
  obtain ⟨hcalls, hfreed⟩ : (vrItableDelete t).1 = itableEntries t.strides t.data 0 ∧
      (itableExit t.strides t.data [] 0).2.Perm ((itableArrays t.strides t.data []).filter
        fun p => p = [] ∨ p.length + 1 = t.strides.length) := by
    obtain ⟨_, strides, data⟩ := t
    cases strides with
    | nil => exact absurd rfl h.nonempty
    | cons s ss =>
      refine ⟨itableExit_calls ss data [] 0, ?_⟩
      simpa using itableExit_frees data [] 0 rfl
  rw [hcalls]
  refine ⟨h.entries_ascending, h.mem_entries, ?_, ?_⟩
  · refine List.nodup_append.mpr ⟨(itableArrays_nodup _ _).map hinj, by decide, ?_⟩
    rintro x hx y hy rfl
    obtain ⟨p, -, rfl⟩ := List.mem_map.mp hx
    simp at hy
  show List.Perm (_ ++ _) (_ ++ _) ↔ _
  rw [List.perm_append_right_iff, List.map_perm_map_iff hinj, hfreed.congr_left]
  have hmem : ∀ path, .array path ∈ t.allocated ↔ path ∈ itableArrays t.strides t.data [] := by
    simp [VrItbl.allocated]
  simp only [hmem]
  constructor
  · intro hperm path hpath
    simpa using List.length_filter_eq_length_iff.mp hperm.length_eq path hpath
  · intro hall
    rw [List.filter_eq_self.mpr fun path hpath => by simpa using hall path hpath]

/-- The small table with data at index 5: both arrays are freed. -/
theorem vrItableDelete_frees_iff_small :
    vrItableCreate Nat 12 4 [2, 2] = some smallItable ∧
      (vrItableDelete (vrItableSet smallItable (fun _ => true) 5 (some 7)).2).2.Perm
        (vrItableSet smallItable (fun _ => true) 5 (some 7)).2.allocated := by
  have hcreate : vrItableCreate Nat 12 4 [2, 2] = some smallItable := rfl
  have hset : vrItableSet smallItable (fun _ => true) 5 (some 7) =
      (.ok none, (vrItableSet smallItable (fun _ => true) 5 (some 7)).2) := rfl
  have hall : (vrItableSet smallItable (fun _ => true) 5 (some 7)).2.allocated =
      [.array [], .array [1], .strideLen, .strideShift, .table] := by decide
  refine ⟨hcreate, (vrItableDelete_frees_iff hcreate
    (ItableRun.create.set hset)).2.2.2.mpr fun path hpath => ?_⟩
  rw [hall] at hpath
  rcases (by simpa using hpath) with rfl | rfl
  · exact .inl rfl
  · exact .inr rfl

/-- A table of three strides with data at index 0: the array of the second stride is not freed. -/
theorem vrItableDelete_leaks_middle :
    ∃ t₀ : VrItbl Nat, vrItableCreate Nat 12 3 [1, 1, 1] = some t₀ ∧
      .array [0] ∈ (vrItableSet t₀ (fun _ => true) 0 (some 7)).2.allocated ∧
      .array [0] ∉ (vrItableDelete (vrItableSet t₀ (fun _ => true) 0 (some 7)).2).2 := by
  refine ⟨_, rfl, by decide, by decide⟩

end VRouter
