import VRouter.Fragment.Assembler
import VRouter.Lib.Linked

/-!
# VRouter — the scan of an assembler bucket

`vr_assembler_table_scan` walks a bucket through the `f_next` pointers of its entries and takes the
old ones out on the way. It holds the place that led to the entry at hand, the bucket's head or the
`f_next` of the last entry it kept, and overwrites that place to unlink.

* `fragmentExpired_iff`: the comparisons of 32 and 64 bit numbers amount to an age modulo `2 ^ 32`.
* `AssemblerBucket.Holds`: the entries that the pointers of a bucket lead to.
* `AssemblerBucket.scanLoop_spec`: the walk from any entry on, behind the entries that were kept.
* `assembler_scan_removes_aged`: what a whole scan does, down to the memory it frees.

The list model `vrAssemblerTableScan` is what this walk amounts to (`keptEntries_eq_scan`).
-/

namespace VRouter

open Function

/-! ## Ages -/

/-- The time since the entry was last touched, as 32 bits count it. -/
def VrFragment.age (frag : VrFragment) (sec : BitVec 32) : Nat :=
  (sec - BitVec.ofNat 32 frag.fTime).toNat

/-- **The test of the scan is a test of the age.** If the deadline wraps around, the times after it
and before the arrival are those that lie between the two; else they are those outside. -/
theorem fragmentExpired_iff {frag : VrFragment} (htime : frag.fTime < 2 ^ 32) (sec : BitVec 32) :
    fragmentExpired sec frag = true ↔ vrAssemblerTimeoutTime < frag.age sec := by
  have hage : frag.age sec = (2 ^ 32 - frag.fTime + sec.toNat) % 2 ^ 32 := by
    unfold VrFragment.age
    rw [BitVec.toNat_sub, BitVec.toNat_ofNat, Nat.mod_eq_of_lt htime]
  unfold fragmentExpired vrAssemblerTimeoutTime
  dsimp only
  split
  · simp only [Bool.and_eq_true, decide_eq_true_eq]
    omega
  · simp only [Bool.or_eq_true, decide_eq_true_eq]
    omega

/-! ## Buckets in memory -/

/-- A place that holds a pointer to an entry, which is what `prev` points to. -/
inductive FragmentLink where
  | head
  | fNext (frag : Nat)
deriving DecidableEq, Repr

/-- A bucket in memory. Entries are known by their address; an address without an entry is not
allocated. -/
structure AssemblerBucket where
  head : Option Nat
  fNext : Nat → Option Nat
  frags : Nat → Option VrFragment
  /-- What was freed, in order. -/
  freed : List Nat

namespace AssemblerBucket

/-- A write to a place. A place in an entry can be written as long as the entry is allocated. -/
def store (b : AssemblerBucket) (link : FragmentLink) (p : Option Nat) : Option AssemblerBucket :=
  match link with
  | .head => some { b with head := p }
  | .fNext a =>
    if (b.frags a).isSome then some { b with fNext := update b.fNext a p } else none

/-- `fragment_unlink_frag`. -/
def fragmentUnlinkFrag (b : AssemblerBucket) (prev : FragmentLink) (frag : Nat) :
    Option AssemblerBucket :=
  b.store prev (b.fNext frag)

/-- `fragment_free_frag`, with what happens to the packets in the queue. Only an allocated entry can
be freed. -/
def fragmentFreeFrag (b : AssemblerBucket) (frag : Nat) :
    Option (AssemblerBucket × List FragEvent) :=
  (b.frags frag).map fun f =>
    ({ b with frags := update b.frags frag none, freed := b.freed ++ [frag] },
      VRouter.fragmentFreeFrag f)

/-- The loop of `vr_assembler_table_scan`. `time` are the clock readings from here on, and `fuel` is
the number of entries that are looked at; without it, and if an entry is not allocated, there is no
result. -/
def scanLoop (time : Nat → BitVec 32) (b : AssemblerBucket) (prev : FragmentLink)
    (scanned : BitVec 32) (evs : List FragEvent) :
    Nat → Option Nat → Option (AssemblerBucket × List FragEvent × BitVec 32)
  | _, none => some (b, evs, scanned)
  | 0, some _ => none
  | fuel + 1, some a => do
    let frag ← b.frags a
    let next := b.fNext a
    if fragmentExpired (time 0) frag then
      let b ← b.fragmentUnlinkFrag prev a
      let (b, freed) ← b.fragmentFreeFrag a
      scanLoop (fun i => time (i + 1)) b prev (scanned + 1) (evs ++ freed) fuel next
    else scanLoop (fun i => time (i + 1)) b (.fNext a) (scanned + 1) evs fuel next

/-- `vr_assembler_table_scan`, with the number it returns. -/
def vrAssemblerTableScan (time : Nat → BitVec 32) (b : AssemblerBucket) (fuel : Nat) :
    Option (AssemblerBucket × List FragEvent × BitVec 32) :=
  scanLoop time b .head 0 [] fuel b.head

/-- The pointers lead to these entries, in order. -/
structure Holds (b : AssemblerBucket) (entries : List (Nat × VrFragment)) : Prop where
  linked : Linked b.fNext b.head (entries.map Prod.fst)
  frags : ∀ x ∈ entries, b.frags x.1 = some x.2

end AssemblerBucket

/-! ## What a scan keeps and what it removes -/

/-- The entries older than the timeout, each by the clock at its turn. -/
def agedEntries (time : Nat → BitVec 32) (entries : List (Nat × VrFragment)) :
    List (Nat × VrFragment) :=
  entries.zipIdx.filterMap fun (x, i) =>
    if vrAssemblerTimeoutTime < x.2.age (time i) then some x else none

/-- The other entries. -/
def keptEntries (time : Nat → BitVec 32) (entries : List (Nat × VrFragment)) :
    List (Nat × VrFragment) :=
  entries.zipIdx.filterMap fun (x, i) =>
    if vrAssemblerTimeoutTime < x.2.age (time i) then none else some x

variable {time : Nat → BitVec 32} {x : Nat × VrFragment} {rest : List (Nat × VrFragment)}

theorem filterMap_zipIdx_cons {α β : Type} (f : α × Nat → Option β) (a : α) (l : List α) :
    (a :: l).zipIdx.filterMap f =
      (f (a, 0)).toList ++ l.zipIdx.filterMap fun (y, i) => f (y, i + 1) := by
  rw [List.zipIdx_cons, List.zipIdx_succ, List.filterMap_cons, List.filterMap_map]
  cases f (a, 0) with
  | none | some => rfl

theorem agedEntries_cons : agedEntries time (x :: rest) =
    if vrAssemblerTimeoutTime < x.2.age (time 0) then
      x :: agedEntries (fun i => time (i + 1)) rest
    else agedEntries (fun i => time (i + 1)) rest := by
  unfold agedEntries
  rw [filterMap_zipIdx_cons]
  dsimp only
  split
  · rfl
  · rfl

theorem keptEntries_cons : keptEntries time (x :: rest) =
    if vrAssemblerTimeoutTime < x.2.age (time 0) then keptEntries (fun i => time (i + 1)) rest
    else x :: keptEntries (fun i => time (i + 1)) rest := by
  unfold keptEntries
  rw [filterMap_zipIdx_cons]
  dsimp only
  split
  · rfl
  · rfl

theorem agedEntries_sublist : (agedEntries time rest).Sublist rest := by
  induction rest generalizing time with
  | nil => exact List.Sublist.slnil
  | cons x rest ih =>
    rw [agedEntries_cons]
    split
    · exact ih.cons_cons x
    · exact ih.cons x

namespace AssemblerBucket

variable {b : AssemblerBucket} {done : List (Nat × VrFragment)} {scanned : BitVec 32}
  {evs : List FragEvent}

/-! ## One entry -/

/-- The place that leads to the entry after `done`. -/
def linkBehind (done : List (Nat × VrFragment)) : FragmentLink :=
  match done.getLast? with
  | none => .head
  | some x => .fNext x.1

theorem linkBehind_append : linkBehind (done ++ [x]) = .fNext x.1 := by
  unfold linkBehind
  rw [List.getLast?_append]
  rfl

/-- An entry is taken out of the pointers and freed. The entries before it and after it stay. -/
theorem Holds.removed (hb : b.Holds (done ++ x :: rest)) :
    ∃ b₁ b₂, b.fragmentUnlinkFrag (linkBehind done) x.1 = some b₁ ∧
      b₁.fragmentFreeFrag x.1 = some (b₂, VRouter.fragmentFreeFrag x.2) ∧
      b₂.Holds (done ++ rest) ∧ b₂.freed = b.freed ++ [x.1] ∧
      b₂.frags = update b.frags x.1 none := by
  have hx : b.frags x.1 = some x.2 := hb.frags x (by simp)
  have hnodup : x.1 ∉ (done ++ rest).map Prod.fst := by
    have hnd := hb.linked.nodup
    rw [List.map_append, List.map_cons, List.nodup_middle, List.nodup_cons] at hnd
    rw [List.map_append]
    exact hnd.1
  -- unlinking writes one pointer, in the head or in the entry before
  obtain ⟨b₁, hunlink, hlinked, hfrags, hfreed⟩ : ∃ b₁,
      b.fragmentUnlinkFrag (linkBehind done) x.1 = some b₁ ∧
      Linked b₁.fNext b₁.head ((done ++ rest).map Prod.fst) ∧
      b₁.frags = b.frags ∧ b₁.freed = b.freed := by
    rcases List.eq_nil_or_concat done with rfl | ⟨before, y, rfl⟩
    · exact ⟨{ b with head := b.fNext x.1 }, rfl, hb.linked.2, rfl, rfl⟩
    have hy : b.frags y.1 = some y.2 := hb.frags y (by simp)
    refine ⟨{ b with fNext := update b.fNext y.1 (b.fNext x.1) }, ?_, ?_, rfl, rfl⟩
    · rw [List.concat_eq_append, linkBehind_append]
      exact if_pos (by rw [hy]; rfl)
    · have hlinked := hb.linked
      simp only [List.concat_eq_append, List.append_assoc, List.map_append] at hlinked ⊢
      exact hlinked.unlink
  refine ⟨b₁, { b₁ with frags := update b.frags x.1 none, freed := b.freed ++ [x.1] },
    hunlink, ?_, ⟨hlinked, fun y hy => ?_⟩, rfl, rfl⟩
  · unfold fragmentFreeFrag
    rw [hfrags, hfreed, hx]
    rfl
  show update b.frags x.1 none y.1 = _
  have hne : y.1 ≠ x.1 := fun heq => hnodup (heq ▸ List.mem_map_of_mem hy)
  rw [update_of_ne hne]
  refine hb.frags y ?_
  rcases List.mem_append.mp hy with hy | hy
  · exact List.mem_append_left _ hy
  · exact List.mem_append_right _ (List.mem_cons_of_mem x hy)

theorem Holds.fNext (hb : b.Holds (done ++ x :: rest)) :
    b.fNext x.1 = (rest.map Prod.fst).head? := by
  have hlinked := hb.linked
  rw [List.map_append] at hlinked
  exact hlinked.suffix.2.eq_head?

/-! ## The walk -/

/-- **The rest of a scan**, behind the entries that were kept so far. By induction on the entries
that are left; the place `prev` stands for is the last kept entry's. -/
theorem scanLoop_spec (hb : b.Holds (done ++ rest)) (htime : ∀ x ∈ rest, x.2.fTime < 2 ^ 32) :
    ∃ b', (∀ fuel, rest.length ≤ fuel →
        scanLoop time b (linkBehind done) scanned evs fuel (rest.map Prod.fst).head? =
          some (b', evs ++ (agedEntries time rest).flatMap fun x => VRouter.fragmentFreeFrag x.2,
            scanned + BitVec.ofNat 32 rest.length)) ∧
      b'.Holds (done ++ keptEntries time rest) ∧
      b'.freed = b.freed ++ (agedEntries time rest).map Prod.fst ∧
      ∀ a, b'.frags a = if a ∈ (agedEntries time rest).map Prod.fst then none else b.frags a := by
  induction rest generalizing time b done scanned evs with
  | nil =>
    refine ⟨b, fun fuel _ => ?_, hb, (List.append_nil _).symm, fun a => rfl⟩
    have hend : scanLoop time b (linkBehind done) scanned evs fuel none =
        some (b, evs, scanned) := by
      unfold scanLoop
      rfl
    show scanLoop time b (linkBehind done) scanned evs fuel none =
      some (b, evs ++ [], scanned + 0#32)
    rw [hend, List.append_nil, BitVec.add_zero]
  | cons x rest ih =>
    have hx : b.frags x.1 = some x.2 := hb.frags x (by simp)
    have hexpired := fragmentExpired_iff (htime x (by simp)) (time 0)
    have hnext := hb.fNext
    have hlength : scanned + 1 + BitVec.ofNat 32 rest.length =
        scanned + BitVec.ofNat 32 (x :: rest).length := by
      rw [List.length_cons, BitVec.add_assoc, Nat.add_comm rest.length 1, BitVec.ofNat_add]
      rfl
    have htime' : ∀ y ∈ rest, y.2.fTime < 2 ^ 32 := fun y hy => htime y (List.mem_cons_of_mem x hy)
    rw [agedEntries_cons, keptEntries_cons]
    by_cases hold : vrAssemblerTimeoutTime < x.2.age (time 0)
    · -- the entry is taken out, and the same place leads to the next one
      obtain ⟨b₁, b₂, hunlink, hfree, hb₂, hfreed₂, hfrags₂⟩ := hb.removed
      obtain ⟨b', hloop, hb', hfreed', hfrags'⟩ :=
        @ih (fun i => time (i + 1)) b₂ done (scanned + 1) (evs ++ VRouter.fragmentFreeFrag x.2) hb₂
          htime'
      rw [if_pos hold, if_pos hold]
      refine ⟨b', fun fuel hfuel => ?_, hb', ?_, fun a => ?_⟩
      · obtain ⟨fuel, rfl⟩ : ∃ f, fuel = f + 1 := ⟨fuel - 1, by simp at hfuel; omega⟩
        have hrest := hloop fuel (by simpa using hfuel)
        rw [hlength, List.append_assoc] at hrest
        rw [List.flatMap_cons, ← hrest]
        show scanLoop time b (linkBehind done) scanned evs (fuel + 1) (some x.1) = _
        rw [scanLoop, hx, hnext]
        simp only [Option.bind_eq_bind, Option.bind_some, if_pos (hexpired.mpr hold), hunlink,
          hfree]
      · rw [hfreed', hfreed₂, List.append_assoc]
        rfl
      · rw [hfrags' a, hfrags₂, List.map_cons]
        by_cases ha : a = x.1
        · rw [ha, update_self, if_pos List.mem_cons_self, ite_self]
        · rw [update_of_ne ha]
          simp only [List.mem_cons, ha, false_or]
    · -- the entry stays, and its own pointer leads to the next one
      have hb₂ : b.Holds (done ++ [x] ++ rest) := by rwa [List.append_assoc]
      obtain ⟨b', hloop, hb', hfreed', hfrags'⟩ :=
        @ih (fun i => time (i + 1)) b (done ++ [x]) (scanned + 1) evs hb₂ htime'
      rw [if_neg hold, if_neg hold]
      refine ⟨b', fun fuel hfuel => ?_, by rwa [List.append_assoc] at hb', hfreed', hfrags'⟩
      obtain ⟨fuel, rfl⟩ : ∃ f, fuel = f + 1 := ⟨fuel - 1, by simp at hfuel; omega⟩
      have hrest := hloop fuel (by simpa using hfuel)
      rw [hlength, linkBehind_append] at hrest
      rw [← hrest]
      show scanLoop time b (linkBehind done) scanned evs (fuel + 1) (some x.1) = _
      rw [scanLoop, hx, hnext]
      simp only [Option.bind_eq_bind, Option.bind_some, if_neg fun h => hold (hexpired.mp h)]

end AssemblerBucket

/-! ## The length of a bucket -/

theorem vrFragmentAssembler_length (env : AssemblerEnv) {list : List VrFragment}
    (e : FragmentQueueElement) (hlist : list.length ≤ vrMaxFragmentsPerAssemblerQueue + 1) :
    (vrFragmentAssembler env list e).2.1.length ≤ vrMaxFragmentsPerAssemblerQueue + 1 := by
  have hqueue : ∀ before after frag, (fragmentEnqueue before after frag e).1.length ≤
      before.length + (after.length + 1) := by
    intro before after frag
    unfold fragmentEnqueue
    cases e.fragHead with
    | true =>
      simp only [if_true, List.length_append]
      omega
    | false =>
      simp only [Bool.false_eq_true, if_false]
      split
      · simp only [List.length_append]
        omega
      · simp only [List.length_append, List.length_cons, le_refl]
  unfold vrFragmentAssembler
  split
  · exact hlist
  split
  · rename_i before frag after hfind
    obtain ⟨rfl, -⟩ := fragmentFind_some hfind
    rw [List.length_append] at hlist
    exact (hqueue before after _).trans hlist
  split
  · exact hlist
  split
  · exact hlist
  split
  · exact hlist
  · refine (hqueue [] list _).trans ?_
    rw [List.length_nil]
    omega

theorem assemblerRun_length {list : List VrFragment}
    (hlist : list.length ≤ vrMaxFragmentsPerAssemblerQueue + 1) (as : List AssemblerAction) :
    (assemblerRun list as).1.length ≤ vrMaxFragmentsPerAssemblerQueue + 1 := by
  induction as generalizing list with
  | nil => exact hlist
  | cons a as ih =>
    refine ih ?_
    cases a with
    | arrive e env =>
      unfold assemblerStep
      dsimp only
      split
      · exact vrFragmentAssembler_length env e hlist
      · exact hlist
    | scan time => exact (vrAssemblerTableScan_sublist time).length_le.trans hlist

/-! ## A whole scan -/

/-- **A scan removes the aged entries and nothing else.** It gets to the end of the bucket without
touching an entry that is not allocated; the entries that are left are those not older than five
seconds, in their order; the others are freed, each once, with the packets in their queues; and the
number returned is the number of entries there were, as an `unsigned int` has it, which for the
buckets of the assembler is the number itself. -/
theorem assembler_scan_removes_aged {b : AssemblerBucket} {entries : List (Nat × VrFragment)}
    (hb : b.Holds entries) (htime : ∀ x ∈ entries, x.2.fTime < 2 ^ 32)
    (time : Nat → BitVec 32) : ∃ b' evs scanned,
      (∀ fuel, entries.length ≤ fuel → b.vrAssemblerTableScan time fuel =
        some (b', evs, scanned)) ∧
      b'.Holds (keptEntries time entries) ∧
      b'.freed = b.freed ++ (agedEntries time entries).map Prod.fst ∧
      ((agedEntries time entries).map Prod.fst).Nodup ∧
      (∀ a, b'.frags a =
        if a ∈ (agedEntries time entries).map Prod.fst then none else b.frags a) ∧
      evs = (agedEntries time entries).flatMap (fun x => fragmentFreeFrag x.2) ∧
      scanned.toNat = entries.length % 2 ^ 32 ∧
      ∀ as, entries.map Prod.snd = (assemblerRun [] as).1 → scanned.toNat = entries.length := by
  obtain ⟨b', hscan, hb', hfreed, hfrags⟩ :=
    @AssemblerBucket.scanLoop_spec time entries b [] 0#32 [] hb htime
  rw [← hb.linked.eq_head?, BitVec.zero_add] at hscan
  have hscanned : (BitVec.ofNat 32 entries.length).toNat = entries.length % 2 ^ 32 :=
    BitVec.toNat_ofNat _ _
  have hnodup : ((agedEntries time entries).map Prod.fst).Nodup :=
    hb.linked.nodup.sublist (agedEntries_sublist.map _)
  refine ⟨b', _, _, hscan, hb', hfreed, hnodup, hfrags, rfl, hscanned, fun as has => ?_⟩
  -- the assembler does not let a bucket grow beyond 257 entries
  have hlength : entries.length ≤ vrMaxFragmentsPerAssemblerQueue + 1 := by
    rw [← List.length_map Prod.snd, has]
    exact assemblerRun_length (Nat.zero_le _) as
  rw [hscanned, Nat.mod_eq_of_lt]
  exact hlength.trans_lt (by decide)

/-- Two entries, from just before the clock wrapped around and from just after. -/
def wrappedEntries : List (Nat × VrFragment) :=
  [(1, ⟨⟨1, 2, 3, 0⟩, [], 2 ^ 32 - 2, false⟩), (2, ⟨⟨1, 2, 4, 0⟩, [], 0, false⟩)]

def wrappedBucket : AssemblerBucket where
  head := some 1
  fNext := fun a => if a = 1 then some 2 else none
  frags := fun a => (wrappedEntries.find? fun x => x.1 == a).map Prod.snd
  freed := []

theorem assembler_scan_removes_aged_wrapped : ∃ b' evs scanned,
    wrappedBucket.vrAssemblerTableScan (fun _ => 4) 2 = some (b', evs, scanned) ∧
    b'.Holds (wrappedEntries.drop 1) ∧ b'.freed = [1] ∧ scanned.toNat = 2 := by
  have hb : wrappedBucket.Holds wrappedEntries := by
    refine ⟨⟨rfl, rfl, rfl⟩, ?_⟩
    simp [wrappedEntries, wrappedBucket]
  obtain ⟨b', evs, scanned, hscan, hb', hfreed, -, -, -, hscanned, -⟩ :=
    assembler_scan_removes_aged hb (by decide) fun _ => 4
  exact ⟨b', evs, scanned, hscan 2 le_rfl, hb', hfreed, hscanned⟩

end VRouter
